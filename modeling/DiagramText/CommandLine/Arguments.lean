namespace DiagramText.CommandLine

inductive Emit
  | ast
  | labels
  deriving DecidableEq, Repr

namespace Emit

def name : Emit → String
  | ast => "ast"
  | labels => "labels"

def ofName? (s : String) : Option Emit :=
  [ast, labels].find? fun e ↦ e.name = s

end Emit

inductive Setting
  | kind
  | emit
  | output
  | config
  | logLevel
  deriving DecidableEq, Repr

/-- The options that take no value and end the reading of arguments. -/
inductive Request
  | help
  | version
  deriving DecidableEq, Repr

inductive Flag
  | setting (s : Setting)
  | request (r : Request)
  deriving DecidableEq, Repr

namespace Flag

def ofWord? : String → Option Flag
  | "kind" => some (.setting .kind)
  | "emit" => some (.setting .emit)
  | "output" => some (.setting .output)
  | "config" => some (.setting .config)
  | "log-level" => some (.setting .logLevel)
  | "help" => some (.request .help)
  | "version" => some (.request .version)
  | _ => none

def ofLetter? : Char → Option Flag
  | 'k' => some (.setting .kind)
  | 'e' => some (.setting .emit)
  | 'o' => some (.setting .output)
  | 'c' => some (.setting .config)
  | 'h' => some (.request .help)
  | 'V' => some (.request .version)
  | _ => none

end Flag

inductive Refusal
  | requested (r : Request)
  | invalidValue
  | unknownArgument
  | conflict
  | tooManyValues
  | missingInput
  deriving DecidableEq, Repr

structure Arguments where
  input : String
  kind : Option String := none
  emit : Emit := .ast
  output : Option String := none
  config : Option String := none
  logLevel : String := "info"
  deriving DecidableEq, Repr

/-- What is known after some of the arguments. An option waits until the next option, the input or
the end for its value to be looked at. -/
structure Reading where
  input : Option String := none
  values : List (Setting × String) := []
  waiting : Option (Setting × Option String) := none

namespace Reading

def value? (r : Reading) (s : Setting) : Option String :=
  r.values.lookup s

def set (r : Reading) (s : Setting) (v : String) : Except Refusal Reading :=
  if (r.value? s).isSome then .error .conflict
  else if s = .emit ∧ (Emit.ofName? v).isNone then .error .invalidValue
  else .ok { r with values := (s, v) :: r.values, waiting := none }

def settle (r : Reading) : Except Refusal Reading :=
  match r.waiting with
  | none => .ok r
  | some (_, none) => .error .invalidValue
  | some (s, some v) => r.set s v

def take (r : Reading) (s : Setting) (attached : Option String) : Except Refusal Reading := do
  let r ← r.settle
  match attached with
  | some v => r.set s v
  | none => .ok { r with waiting := some (s, none) }

def request (r : Reading) (what : Request) : Except Refusal Reading := do
  let _ ← r.settle
  .error (.requested what)

/-- `--word` or `--word=value`. -/
def long (r : Reading) (cs : List Char) : Except Refusal Reading :=
  let attached := match cs.dropWhile (· ≠ '=') with
    | [] => none
    | _ :: value => some (String.ofList value)
  match Flag.ofWord? (String.ofList (cs.takeWhile (· ≠ '='))) with
  | some (.setting s) => r.take s attached
  | some (.request what) => if attached.isSome then .error .tooManyValues else r.request what
  | none => .error .unknownArgument

/-- `-letter`, and the value that may follow at once or after an equals sign. -/
def short (r : Reading) (letter : Char) (cs : List Char) : Except Refusal Reading :=
  let attached := match cs with
    | [] => none
    | '=' :: value => some (String.ofList value)
    | value => some (String.ofList value)
  match Flag.ofLetter? letter with
  | some (.setting s) => r.take s attached
  | some (.request what) => r.request what
  | none => .error .unknownArgument

def positional (r : Reading) (arg : String) : Except Refusal Reading :=
  if r.input.isSome then .error .unknownArgument
  else do
    let r ← r.settle
    .ok { r with input := some arg }

def next (r : Reading) (arg : String) : Except Refusal Reading :=
  match arg.toList with
  | '-' :: '-' :: c :: cs => r.long (c :: cs)
  | '-' :: c :: cs => r.short c cs
  | _ =>
    match r.waiting with
    | some (s, none) => .ok { r with waiting := some (s, some arg) }
    | _ => r.positional arg

/-- All arguments; after `--` none of them is an option. -/
def all (r : Reading) : List String → Except Refusal Reading
  | [] => .ok r
  | "--" :: args => args.foldlM positional r
  | arg :: args => do all (← r.next arg) args

def arguments (r : Reading) : Except Refusal Arguments := do
  let r ← r.settle
  match r.input with
  | none => .error .missingInput
  | some input =>
    .ok
      { input
        kind := r.value? .kind
        emit := ((r.value? .emit).bind Emit.ofName?).getD .ast
        output := r.value? .output
        config := r.value? .config
        logLevel := (r.value? .logLevel).getD "info" }

end Reading

def Arguments.ofList (args : List String) : Except Refusal Arguments := do
  (← Reading.all {} args).arguments

end DiagramText.CommandLine
