/-
The program: reads the files that its command line names, and prints the
report to its output and the records to its errors.
-/
import ClrListing.CommandLine

open ClrListing

/-- The fault that an error of the system stands for. -/
def faultOf : IO.Error → FileFault
  | .noFileOrDirectory .. | .noSuchThing .. => .notFound
  | .permissionDenied .. => .permissionDenied
  | .inappropriateType .. => .isADirectory
  | .invalidArgument .. => .invalidInput
  | _ => .uncategorized

/-- What a file holds, if it can be read. -/
def readFile (path : String) : IO (String × Except FileFault (List UInt8)) := do
  try
    return (path, .ok (← IO.FS.readBinFile path).toList)
  catch e => return (path, .error (faultOf e))

/-- Prints records. -/
def printLog (level : LogLevel) (log : Log) : IO Unit :=
  (log.atLeast level).forM fun r => IO.eprintln ("[" ++ r.level.name ++ "] " ++ r.text)

/-- Runs a command line. -/
def main (arguments : List String) : IO UInt32 := do
  match CommandLine.ofArguments arguments with
  | .error fault =>
    IO.eprintln ("error: " ++ fault.message)
    return 2
  | .ok c =>
    let files ← c.inputs.mapM readFile
    let (result, log) := (c.run Script.computer files).outcome
    printLog c.logLevel log
    match result with
    | .error e =>
      IO.eprintln ("Error: " ++ e.message)
      return 1
    | .ok shown =>
      IO.print shown.report.text
      match shown.failure with
      | none => return 0
      | some (task, e) =>
        IO.eprintln ("Error: " ++ task ++ "\n\nCaused by:\n    " ++ e.message)
        return 1
