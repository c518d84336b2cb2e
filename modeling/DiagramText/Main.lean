import DiagramText.CommandLine.Run
import DiagramText.Report

namespace DiagramText.CommandLine

def fileError : IO.Error → FileError
  | .noFileOrDirectory .. => .notFound
  | .inappropriateType _ code _ => if code = 20 then .notADirectory else .isDirectory
  | e => .other (toString e)

def platformSettings : IO (Option String) := do
  match ← IO.getEnv "XDG_CONFIG_HOME" with
  | some directory => pure (some (directory ++ "/" ++ localSettings))
  | none => pure ((← IO.getEnv "HOME").map fun home ↦ home ++ "/.config/" ++ localSettings)

def systemHost (platformSettings : Option String) : Host IO where
  read path := do
    match ← (IO.FS.readBinFile path).toBaseIO with
    | .ok bytes =>
      match String.fromUTF8? bytes with
      | some text => pure (.ok text)
      | none => pure (.error .notText)
    | .error e => pure (.error (fileError e))
  write path text := do
    match ← (IO.FS.writeFile path text).toBaseIO with
    | .ok _ => pure (.ok ())
    | .error e => pure (.error (fileError e))
  print := IO.print
  platformSettings

def usage : String :=
  "Usage: marlin [OPTIONS] <INPUT>\n\n" ++
  "  -k, --kind <KIND>            diagram kind tag, detected when omitted\n" ++
  "  -e, --emit <EMIT>            ast or labels\n" ++
  "  -o, --output <OUTPUT>        output file, standard output when omitted\n" ++
  "  -c, --config <CONFIG>        configuration file (TOML)\n" ++
  "      --log-level <LOG_LEVEL>  off, error, warn, info, debug or trace\n" ++
  "  -h, --help                   print help\n" ++
  "  -V, --version                print version"

def showReport (r : Report) : String :=
  r.code ++ ": " ++ r.message ++ (r.help.elim "" fun help ↦ "\n  help: " ++ help)

def refused : Refusal → IO UInt32
  | .requested .help => do
    IO.println usage
    pure 0
  | .requested .version => do
    IO.println "marlin 0.1.0"
    pure 0
  | _ => do
    IO.eprintln usage
    pure 2

end DiagramText.CommandLine

open DiagramText CommandLine in
def main (args : List String) : IO UInt32 := do
  match Arguments.ofList args with
  | .error r => refused r
  | .ok args =>
    match ← (systemHost (← platformSettings)).run args with
    | .ok () => pure 0
    | .error f =>
      for report in f.reports do
        IO.eprintln (showReport report)
      pure 1
