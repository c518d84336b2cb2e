import DiagramText.CommandLine.Run

namespace DiagramText.CommandLine

/-- Files by the names on the way to them from the root. A file without text is one that does not
hold UTF-8. A directory is there as long as a file lies in it, or the work goes on in it. -/
structure Files where
  entries : List (List String × Option String)
  workingDirectory : List String

inductive Place
  | file (text : Option String)
  | directory
  | nothing
  deriving DecidableEq, Repr

namespace Files

def place (f : Files) (names : List String) : Place :=
  match f.entries.lookup names with
  | some text => .file text
  | none =>
    if names.isPrefixOf f.workingDirectory || f.entries.any fun (path, _) ↦ names.isPrefixOf path
    then .directory
    else .nothing

def follow (f : Files) (names : List String) : List String → Except FileError (List String)
  | [] => .ok names
  | name :: path =>
    match f.place names with
    | .file _ => .error .notADirectory
    | .nothing => .error .notFound
    | .directory =>
      if name = "" ∨ name = "." then f.follow names path
      else if name = ".." then f.follow names.dropLast path
      else f.follow (names ++ [name]) path

/-- Where a path begins: at the root if it has a leading slash. -/
def base (f : Files) (path : String) : List String :=
  if path.toList.head? = some '/' then [] else f.workingDirectory

def steps (path : String) : List String :=
  path.splitOn "/"

def read (f : Files) (path : String) : Except FileError String := do
  if path = "" then .error .notFound
  else
    match f.place (← f.follow (f.base path) (steps path)) with
    | .file (some text) => .ok text
    | .file none => .error .notText
    | .directory => .error .isDirectory
    | .nothing => .error .notFound

def put (f : Files) (names : List String) (text : String) : Files :=
  { f with entries := (names, some text) :: f.entries.filter fun (path, _) ↦ path ≠ names }

/-- The files with a text written to a path. A path that ends in a slash or in dots names a
directory. -/
def write (f : Files) (path text : String) : Except FileError Files := do
  let named := (steps path).reverse.dropWhile (· = "")
  if path = "" then .error .notFound
  else
    match named with
    | [] => .error .isDirectory
    | name :: parents =>
      let names ← f.follow (f.base path) (parents.reverse ++ ["."])
      if name = "." ∨ name = ".." ∨ (steps path).getLast? = some "" then .error .isDirectory
      else if f.place (names ++ [name]) = .directory then .error .isDirectory
      else .ok (f.put (names ++ [name]) text)

end Files

structure Session where
  files : Files
  printed : String := ""

namespace Session

def host (platformSettings : Option String) : Host (StateM Session) where
  read path := do pure ((← get).files.read path)
  write path text := do
    match (← get).files.write path text with
    | .ok files => do
      modify fun s ↦ { s with files }
      pure (.ok ())
    | .error e => pure (.error e)
  print text := modify fun s ↦ { s with printed := s.printed ++ text }
  platformSettings

end Session

end DiagramText.CommandLine
