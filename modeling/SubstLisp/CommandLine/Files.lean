import SubstLisp.CommandLine.Output

/-!
# Running source files

Files run one after the other in a common environment, and the first failure ends the run.  Only
files with the extension of source files are read.
-/

namespace SubstLisp

def sourceExtension : String :=
  "scm"

/-- Split a list at every occurrence of a character. -/
def splitAt (separator : Char) : List Char → List (List Char)
  | [] => [[]]
  | c :: rest =>
    match splitAt separator rest with
    | [] => []
    | first :: others => if c = separator then [] :: first :: others else (c :: first) :: others

/-- The components of a path that lead somewhere: repeated slashes and single dots do not. -/
def pathComponents (path : String) : List (List Char) :=
  (splitAt '/' path.toList).filter fun component => component ≠ [] && component ≠ ['.']

/-- The last component of a path, unless it leads upwards. -/
def fileName? (path : String) : Option (List Char) :=
  (pathComponents path).getLast?.filter (· ≠ ['.', '.'])

/-- The characters behind the last dot of a path's file name, if there is one that does not start
the name. -/
def fileExtension? (path : String) : Option String := do
  let name ← fileName? path
  let reversed := name.reverse.takeWhile (· ≠ '.')
  if reversed.length + 1 < name.length then some (String.ofList reversed.reverse) else none

/-- The result of a run: what it writes and its exit code. -/
structure RunResult where
  output : Output
  exitCode : Nat
deriving DecidableEq, Inhabited

/-- The line that tells why a file was not run. -/
def errorLine (reason : String) : Output :=
  .ofError ("error: " ++ reason ++ "\n")

/-- Why a path that leads nowhere has no content. -/
def missingFileReason : String :=
  "No such file or directory (os error 2)"

/-- Why a path that goes on behind a file has no content. -/
def notFolderReason : String :=
  "Not a directory (os error 20)"

def folderReason : String :=
  "Is a directory (os error 21)"

/-- Run one file.  Its content, or the reason why it has none, is asked for only if the path has the
right extension.  Besides the output this gives the environment for the next file, if there may be
one. -/
def runFile (depth : Nat) (environment : Environment) (path : String)
    (content : Except String String) : Option (Output × Option Environment) :=
  if fileExtension? path = some sourceExtension then
    match content with
    | .error reason => some (errorLine ("cannot read " ++ path ++ ": " ++ reason), none)
    | .ok source => do
        let (result, after) ← interpret depth source environment
        return (interpretationOutput path source result, if result.isOk then some after else none)
  else some (errorLine (path ++ " is not a ." ++ sourceExtension ++ " file"), none)

/-- Run files in order until one fails, given what each path leads to. -/
def runFiles (depth : Nat) (contentOf : String → Except String String)
    (environment : Environment) (written : Output) : List String → Option RunResult
  | [] => some ⟨written, 0⟩
  | path :: rest => do
      let (output, next) ← runFile depth environment path (contentOf path)
      match next with
      | some after => runFiles depth contentOf after (written ++ output) rest
      | none => return ⟨written ++ output, 1⟩

end SubstLisp
