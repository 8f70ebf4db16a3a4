import RiskRules.CommandLine.Run

/-! The program: its files are those of the system. -/

namespace RiskRules.CommandLine

def usage : String :=
  "Usage: risk-rules [-v|--verbose] COMMAND\n\n"
    ++ "  compile  [-i|--input PATH] [-o|--output PATH] [-t|--template PATH]\n"
    ++ "  inspect  [-i|--input PATH] [-t|--template PATH]\n"
    ++ "  evaluate -r|--rules PATH -m|--model PATH\n"

/-- The system reports both a folder and the lack of one as a file of the wrong type. -/
def wrongTypeFault (code : UInt32) : FileFault :=
  if code = 21 then .isFolder else .notFolder

def faultOfError : IO.Error → FileFault
  | .noFileOrDirectory .. => .notFound
  | .alreadyExists .. => .alreadyExists
  | .resourceBusy .. => .busy
  | .inappropriateType _ code _ => wrongTypeFault code
  | error => .other (toString error)

def attempt (action : IO α) : IO (Except FileFault α) := do
  match ← action.toBaseIO with
  | .ok result => return .ok result
  | .error error => return .error (faultOfError error)

/-- Writes beside the target and then renames, so that nobody sees half a file. The file beside the
target must not be there yet. -/
def replaceOnDisk (path text : String) : IO Unit := do
  let folder := "/".intercalate (Path.folder path)
  let folder := if path.startsWith "/" then "/" ++ folder else folder
  unless folder.isEmpty do IO.FS.createDirAll folder
  let unfinished := path ++ ".unfinished"
  let handle ← IO.FS.Handle.mk unfinished .writeNew
  try
    handle.putStr text
    handle.flush
    IO.FS.rename unfinished path
  catch error =>
    IO.FS.removeFile unfinished
    throw error

def disk : FileAccess IO where
  read path := attempt do return (← IO.FS.readBinFile path).toList
  replace path text := attempt (replaceOnDisk path text)

def program (arguments : List String) : IO UInt32 := do
  let outcome ← run disk arguments
  match Request.ofArguments arguments with
  | .help | .wrong => IO.eprint usage
  | .run _ verbose => if verbose then IO.eprintln (repr outcome.status)
  IO.print outcome.output
  return outcome.status.code.toUInt32

end RiskRules.CommandLine

def main (arguments : List String) : IO UInt32 :=
  RiskRules.CommandLine.program arguments
