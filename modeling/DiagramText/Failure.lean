import DiagramText.Diagnostic
import DiagramText.Kind
import DiagramText.Layout.Wrapping

namespace DiagramText

inductive FileError
  | notFound
  | notADirectory
  | isDirectory
  | notText
  | other (why : String)
  deriving DecidableEq, Repr

namespace FileError

def message : FileError → String
  | notFound => "No such file or directory (os error 2)"
  | notADirectory => "Not a directory (os error 20)"
  | isDirectory => "Is a directory (os error 21)"
  | notText => "stream did not contain valid UTF-8"
  | other why => why

def isAbsence : FileError → Bool
  | notFound | notADirectory => true
  | _ => false

end FileError

inductive SettingsError
  | missingFile (path : String)
  /-- The file is not TOML, or a value is not of its kind. -/
  | malformed
  | other (why : String)
  deriving DecidableEq, Repr

namespace SettingsError

def message : SettingsError → String
  | missingFile path => "Missing configuration file: " ++ path
  | malformed => "Failed to parse TOML configuration"
  | other why => why

end SettingsError

inductive Failure
  | file (e : FileError)
  | parse (e : ParseError) (source : String)
  | kind (u : UnknownKind)
  | layout (e : LayoutError)
  | settings (e : SettingsError)

namespace Failure

def message : Failure → String
  | file e => "I/O error: " ++ e.message
  | parse e _ => e.render
  | kind u => u.message
  | layout e => "Layout error: " ++ e.message
  | settings e => "Configuration error: " ++ e.message

end Failure

end DiagramText
