/-! Durations in seconds, with three decimals.

The seconds and the fraction are each taken to the nearest double-precision number, and so
is their sum; what is shown is that sum to the nearest thousandth. Every tie goes to the
even neighbour. -/
namespace Verdict.Text

/-- The integer nearest to `num / den`, the even one of two that are equally near. -/
def roundToEven (num den : Nat) : Nat :=
  let q := num / den
  let twice := 2 * (num % den)
  if twice < den then q
  else if twice = den then q + q % 2
  else q + 1

/-- A quotient of natural numbers. -/
structure Quotient where
  num : Nat
  den : Nat
  deriving DecidableEq, Repr

namespace Quotient

/-- The sum of two quotients. -/
def add (a b : Quotient) : Quotient := ⟨a.num * b.den + b.num * a.den, a.den * b.den⟩

/-- A quotient scaled by a power of two. -/
def scale (a : Quotient) (shift : Int) : Quotient :=
  if 0 ≤ shift then ⟨a.num * Nat.pow 2 shift.toNat, a.den⟩
  else ⟨a.num, a.den * Nat.pow 2 (-shift).toNat⟩

/-- The nearest quotient that has 53 significant binary digits, which is the nearest
double-precision number wherever exponents are within range. -/
def toDouble (a : Quotient) : Quotient :=
  if a.num = 0 then ⟨0, 1⟩
  else
    let shift : Int := 52 + a.den.log2 - a.num.log2
    let low := a.scale shift
    let shift := if low.num / low.den < Nat.pow 2 52 then shift + 1 else shift
    let digits := a.scale shift
    scale ⟨roundToEven digits.num digits.den, 1⟩ (-shift)

/-- A quotient with three decimals. -/
def toThousandths (a : Quotient) : String :=
  let n := roundToEven (a.num * 1000) a.den
  let fraction := toString (1000 + n % 1000)
  toString (n / 1000) ++ "." ++ (fraction.drop 1).toString

end Quotient

/-- A duration given in nanoseconds. -/
def seconds (nanos : Nat) : String :=
  let whole : Quotient := ⟨nanos / 1000000000, 1⟩
  let fraction : Quotient := ⟨nanos % 1000000000, 1000000000⟩
  ((whole.toDouble.add fraction.toDouble).toDouble).toThousandths

end Verdict.Text
