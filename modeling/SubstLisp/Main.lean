import SubstLisp.CommandLine.Run

/-!
# The program

The outer layer: it hands arguments, files and lines of input to the library and writes out what the
library answers.
-/

open SubstLisp

def writeOutput (output : Output) : IO Unit := do
  let standard ← IO.getStdout
  standard.putStr output.standard
  standard.flush
  let error ← IO.getStderr
  error.putStr output.error
  error.flush

/-- Why a file cannot be read. -/
def unreadableReason : IO.Error → String
  | .noFileOrDirectory _ _ _ => missingFileReason
  | .permissionDenied _ _ _ => "Permission denied (os error 13)"
  | .inappropriateType _ code _ => if code = 21 then folderReason else notFolderReason
  | other => other.toString

/-- The content of a file, or the reason why it has none. -/
def fileContent (path : String) : IO (Except String String) := do
  try
    return .ok (← IO.FS.readFile path)
  catch problem =>
    return .error (unreadableReason problem)

/-- What happens when an evaluation exceeds every depth. -/
def depthExceeded : IO UInt32 := do
  writeOutput (errorLine "recursion limit exceeded")
  return 1

/-- Run source files in order until one fails. -/
def runFilesFrom (environment : Environment) : List String → IO UInt32
  | [] => return 0
  | path :: rest => do
      match runFile depthLimit environment path (← fileContent path) with
      | none => depthExceeded
      | some (output, next) =>
          writeOutput output
          match next with
          | some after => runFilesFrom after rest
          | none => return 1

/-- Hold a dialogue, one line of input at a time. -/
partial def converseWith (dialogue : Dialogue) : IO UInt32 := do
  match dialogue with
  | .finished => return 0
  | .reading _ _ =>
      match inputLines (← (← IO.getStdin).getLine) with
      | [] =>
          writeOutput dialogue.finish
          return 0
      | line :: _ =>
          match dialogue.feed depthLimit line with
          | none => depthExceeded
          | some (next, output) =>
              writeOutput output
              converseWith next

def main (arguments : List String) : IO UInt32 := do
  match requestOf arguments with
  | .version =>
      writeOutput (.ofStandard versionLine)
      return 0
  | .unknownOption argument =>
      let result := unknownOptionResult argument
      writeOutput result.output
      return result.exitCode.toUInt32
  | .runFiles paths => runFilesFrom .standard paths
  | .dialogue =>
      writeOutput Dialogue.start.2
      converseWith Dialogue.start.1
