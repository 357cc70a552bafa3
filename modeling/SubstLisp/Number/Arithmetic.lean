import SubstLisp.Number.Basic

/-!
# Arithmetic

Exact operands give exact results.  Two integers are added, subtracted and multiplied as words; any
other pair of exact numbers goes through products of numerators and denominators in 128-bit words,
and the quotient is then brought to canonical form.  A result that does not fit is an overflow,
never an approximation.  As soon as one operand is a floating-point number, both are.

A computation in 128-bit words has no outcome (`none`) where one of its operations leaves their
range, because the program is aborted there.
-/

namespace SubstLisp

-- Fractions in the text of a program are reduced when it is read, so that `euclid` is to evaluate.
/-- Euclid's algorithm: the remainder takes the place of the larger number. -/
@[semireducible]
def euclid (a b : Nat) : Nat :=
  if b = 0 then a else euclid b (a % b)
termination_by b
decreasing_by exact Nat.mod_lt a (Nat.pos_of_ne_zero ‹_›)

/-- The loop finds the greatest common divisor: a step leaves it as it is, and at the end it is the
first number. -/
theorem euclid_eq_gcd (a b : Nat) : euclid a b = Nat.gcd a b := by
  fun_induction euclid a b with
  | case1 a => exact (Nat.gcd_zero_right a).symm
  | case2 a b _ ih => rw [ih, Nat.gcd_comm b, ← Nat.gcd_rec, Nat.gcd_comm]

/-- The greatest common divisor by which both parts of a quotient are divided, never zero. -/
def commonDivisor (a b : Nat) : Nat :=
  max (euclid a b) 1

/-- Beside a denominator other than zero, the bound of one changes nothing. -/
theorem commonDivisor_natAbs (numerator : Int) {denominator : Int} (nonzero : denominator ≠ 0) :
    commonDivisor numerator.natAbs denominator.natAbs = Int.gcd numerator denominator := by
  rw [commonDivisor, euclid_eq_gcd]
  exact Nat.max_eq_left (Nat.gcd_pos_of_pos_right _ (Int.natAbs_pos.mpr nonzero))

/-- The quotient of two numbers, both divided by `divisor`.  Where the numerator overflows, the
denominator is not computed any more. -/
def divideParts (divisor numerator denominator : Int) :
    Option (Except ArithmeticError Number) := do
  let top ← wide? numerator
  match wordOf? (top.tdiv divisor) with
  | none => some (.error .overflow)
  | some n =>
    let bottom ← wide? denominator
    match wordOf? (bottom.tdiv divisor) with
    | none => some (.error .overflow)
    | some d => some (.ok (if d = 1 then .integer n else .fraction ⟨n, d⟩))

/-- The canonical form of `numerator / denominator`, computed in 128-bit words.  The common divisor
is found in unsigned ones and converted; it can divide every word, being neither zero nor minus one
then. -/
def reduce (numerator denominator : Int) : Option (Except ArithmeticError Number) :=
  if denominator = 0 then some (.error .divisionByZero)
  else
    let sign := if denominator < 0 then -1 else 1
    let divisor := wide (commonDivisor numerator.natAbs denominator.natAbs)
    divideParts divisor (sign * numerator) (sign * denominator)

/-- The integer `n`, if it fits a word. -/
def integerResult (n : Int) : Except ArithmeticError Number :=
  match wordOf? n with
  | some word => .ok (.integer word)
  | none => .error .overflow

namespace Number

/-- The sum or the difference of two quotients, over the product of their denominators. -/
def crossQuotients (combine : Int → Int → Int) (p q : Int × Int) :
    Option (Except ArithmeticError Number) := do
  let left ← wide? (p.1 * q.2)
  let right ← wide? (q.1 * p.2)
  let numerator ← wide? (combine left right)
  let denominator ← wide? (p.2 * q.2)
  reduce numerator denominator

def mulQuotients (p q : Int × Int) : Option (Except ArithmeticError Number) := do
  let numerator ← wide? (p.1 * q.1)
  let denominator ← wide? (p.2 * q.2)
  reduce numerator denominator

/-- The result of a computation in 128-bit words.  An aborted one has no result, so that the
overflow given for it here is arbitrary; operands in canonical form are too small to lead to one. -/
def ofOutcome (outcome : Option (Except ArithmeticError Number)) : Except ArithmeticError Number :=
  outcome.getD (.error .overflow)

/-- A number that is found is the result of a computation that was not aborted. -/
theorem ofOutcome_eq_ok {outcome : Option (Except ArithmeticError Number)} {a : Number}
    (found : ofOutcome outcome = .ok a) : outcome = some (.ok a) := by
  cases outcome with
  | none => cases found
  | some result => exact congrArg some found

/-- Operate on the quotients of two exact numbers, or else on floating-point numbers. -/
def combine (exactly : Int × Int → Int × Int → Option (Except ArithmeticError Number))
    (floating : Float → Float → Except ArithmeticError Float)
    (a b : Number) : Except ArithmeticError Number :=
  match a.quotient?, b.quotient? with
  | some p, some q => ofOutcome (exactly p q)
  | _, _ => (floating a.toFloat b.toFloat).map .float

def add : Number → Number → Except ArithmeticError Number
  | .integer m, .integer n => integerResult (m.toInt + n.toInt)
  | a, b => combine (crossQuotients (· + ·)) (fun x y => .ok (x + y)) a b

def sub : Number → Number → Except ArithmeticError Number
  | .integer m, .integer n => integerResult (m.toInt - n.toInt)
  | a, b => combine (crossQuotients (· - ·)) (fun x y => .ok (x - y)) a b

def mul : Number → Number → Except ArithmeticError Number
  | .integer m, .integer n => integerResult (m.toInt * n.toInt)
  | a, b => combine mulQuotients (fun x y => .ok (x * y)) a b

/-- The quotient of two numbers.  No divisor may be zero, not even a floating-point one. -/
def div : Number → Number → Except ArithmeticError Number :=
  combine (fun p q => mulQuotients p q.swap) fun x y =>
    if y == 0 then .error .divisionByZero else .ok (x / y)

/-- The order of two numbers: exact if both are, and none beside what is not a number.  The products
of words that are compared always fit a 128-bit word. -/
def compare (a b : Number) : Option Ordering :=
  match a.quotient?, b.quotient? with
  | some (n, d), some (m, e) => some (Ord.compare (n * e) (m * d))
  | _, _ =>
      let x := a.toFloat
      let y := b.toFloat
      if x < y then some .lt
      else if x == y then some .eq
      else if y < x then some .gt
      else none

def abs : Number → Except ArithmeticError Number
  | .integer n => integerResult n.toInt.natAbs
  | .fraction q => ofOutcome (reduce q.numerator.toInt.natAbs q.denominator.toInt)
  | .float x => .ok (.float x.abs)

/-- The square root, always as a floating-point number. -/
def sqrt (a : Number) : Except ArithmeticError Number :=
  if a.toFloat < 0 then .error .outsideDomain else .ok (.float a.toFloat.sqrt)

end Number

end SubstLisp
