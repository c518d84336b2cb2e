import DiagramText.CommandLine.Arguments
import DiagramText.Diagram.Json
import DiagramText.Layout.Labels
import DiagramText.Reading

namespace DiagramText.CommandLine

/-- The files and the output that a run works with. -/
structure Host (m : Type → Type) where
  read : String → m (Except FileError String)
  write : String → String → m (Except FileError Unit)
  print : String → m Unit
  platformSettings : Option String

def localSettings : String :=
  "marlin/config.toml"

def settingsOf (text : String) : Except Failure Settings :=
  match Settings.ofText? text with
  | some s => .ok s
  | none => .error (.settings .malformed)

def rendition (s : Settings) (d : Diagram) : Emit → Except Failure String
  | .ast => .ok (d.toJson.renderPretty ++ "\n")
  | .labels => do
    let wrapped ← (s.wrapLabels d).mapError .layout
    .ok ("\n".intercalate wrapped.flatten ++ "\n")

def renditionOf (s : Settings) (args : Arguments) (source : String) : Except Failure String := do
  let d ← match args.kind with
    | some tag => Diagram.readTagged tag source
    | none => Diagram.read s source
  rendition s d args.emit

namespace Host

variable {m : Type → Type} [Monad m]

def settingsAt (h : Host m) (path : String) : m (Except Failure Settings) := do
  match ← h.read path with
  | .ok text => pure (settingsOf text)
  | .error e =>
    pure (.error (if e.isAbsence then .settings (.missingFile path) else .file e))

def firstSettings (h : Host m) : List String → m (Except Failure Settings)
  | [] => pure (.ok {})
  | path :: paths => do
    match ← h.read path with
    | .ok text => pure (settingsOf text)
    | .error e =>
      if e.isAbsence || e = .isDirectory then h.firstSettings paths
      else pure (.error (.file e))

def settings (h : Host m) : Option String → m (Except Failure Settings)
  | some path => h.settingsAt path
  | none => h.firstSettings (localSettings :: h.platformSettings.toList)

def deliver (h : Host m) (text : String) : Option String → m (Except Failure Unit)
  | some path => do pure ((← h.write path text).mapError .file)
  | none => do
    h.print text
    pure (.ok ())

def run (h : Host m) (args : Arguments) : m (Except Failure Unit) := do
  match ← h.settings args.config with
  | .error f => pure (.error f)
  | .ok s =>
    match ← h.read args.input with
    | .error e => pure (.error (.file e))
    | .ok source =>
      match renditionOf s args source with
      | .error f => pure (.error f)
      | .ok text => h.deliver text args.output

end Host

end DiagramText.CommandLine
