import SubstLisp.Report.Basic
import SubstLisp.Session

/-!
# Output

What a run writes to its two output streams.  Values go to the standard stream, one per line;
reports of failures go to the error stream.
-/

namespace SubstLisp

/-- Texts for the two output streams. -/
structure Output where
  standard : String
  error : String
deriving DecidableEq, Inhabited

namespace Output

def none : Output where
  standard := ""
  error := ""

def ofStandard (text : String) : Output where
  standard := text
  error := ""

def ofError (text : String) : Output where
  standard := ""
  error := text

/-- One output after another, on each stream. -/
def append (first second : Output) : Output where
  standard := first.standard ++ second.standard
  error := first.error ++ second.error

instance : Append Output := ⟨append⟩

@[simp] theorem standard_append (first second : Output) :
    (first ++ second).standard = first.standard ++ second.standard := rfl

@[simp] theorem error_append (first second : Output) :
    (first ++ second).error = first.error ++ second.error := rfl

@[simp] theorem append_none (output : Output) : output ++ none = output := by
  change mk (output.standard ++ "") (output.error ++ "") = output
  rw [String.append_empty, String.append_empty]

theorem append_assoc (first second third : Output) :
    first ++ second ++ third = first ++ (second ++ third) := by
  change mk (_ ++ _ ++ _) (_ ++ _ ++ _) = mk _ _
  rw [String.append_assoc, String.append_assoc]
  rfl

/-- Texts written to the standard stream one after the other are one text. -/
@[simp] theorem ofStandard_append (first second : String) :
    ofStandard first ++ ofStandard second = ofStandard (first ++ second) := rfl

end Output

def valueLines (values : List Value) : String :=
  String.join (values.map (·.text ++ "\n"))

/-- What is written when a text has been interpreted.  Reports call the text by its name. -/
def interpretationOutput (name source : String) : Except Failure (List Value) → Output
  | .ok values => .ofStandard (valueLines values)
  | .error failure => .ofError (failure.report.render name source)

end SubstLisp
