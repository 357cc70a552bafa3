import SubstLisp.CommandLine.Arguments
import SubstLisp.CommandLine.Dialogue
import SubstLisp.CommandLine.Files

/-!
# A run of the program

A run depends on its arguments, on what the paths among them lead to, and on its input.
-/

namespace SubstLisp

/-- How many evaluations may be under way inside each other when the program runs.  Memory is used
up long before. -/
def depthLimit : Nat :=
  1000000000

def unknownOptionResult (argument : String) : RunResult where
  output := .ofError ("error: unexpected argument '" ++ argument ++ "' found\n")
  exitCode := 2

def runProgram (depth : Nat) (arguments : List String)
    (contentOf : String → Except String String) (input : String) : Option RunResult :=
  match requestOf arguments with
  | .version => some ⟨.ofStandard versionLine, 0⟩
  | .unknownOption argument => some (unknownOptionResult argument)
  | .runFiles paths => runFiles depth contentOf .standard .none paths
  | .dialogue => (Dialogue.transcript depth input).map (⟨·, 0⟩)

end SubstLisp
