/-!
# The range of JSON numbers

A number is held as a significand of 64 bits and a power of ten, and is worth the product of the
doubles nearest to the two. `Scientific.isOutOfRange` says that this product is no finite double.
Digits for which the significand has no room are dropped, so that long numbers near the limit may
fall on either side of it.
-/

namespace SkillScript

namespace Json

/-- The number nearest to `n` that has at most 53 significant bits; of two, the even one. -/
def nearestDouble (n : Nat) : Nat :=
  let step := Nat.pow 2 (n.log2 - 52)
  let quotient := n / step
  let excess := 2 * (n % step)
  let up := decide (step < excess) || (excess == step && quotient % 2 == 1)
  (if up then quotient + 1 else quotient) * step

/-- The least number that rounds to no finite double. -/
def doubleLimit : Nat := Nat.pow 2 1024 - Nat.pow 2 970

/-- Appends digits to a significand while it fits 64 bits. The digits from the first that does not
fit are left over. -/
def appendDigits (significand : Nat) : List Char → Nat × List Char
  | [] => (significand, [])
  | c :: cs =>
    let longer := 10 * significand + (c.toNat - 48)
    if longer < 18446744073709551616 then appendDigits longer cs else (significand, c :: cs)

/-- The number `significand · 10 ^ power`. -/
structure Scientific where
  significand : Nat
  power : Int
deriving DecidableEq, Repr

namespace Scientific

/-- The number with the digits `whole` before its point and `part` after it, and an exponent. Each
dropped digit of `whole` raises the power by one; those of `part` change nothing. -/
def ofDigits (whole part : List Char) (exponent : Int) : Scientific :=
  let (significand, dropped) := appendDigits 0 whole
  let (significand, ignored) := appendDigits significand part
  ⟨significand, exponent + dropped.length + ignored.length - part.length⟩

/-- The number is no finite double. -/
def isOutOfRange (x : Scientific) : Bool :=
  x.significand != 0 && decide (0 ≤ x.power) &&
    (decide (308 < x.power) ||
      decide (doubleLimit ≤ nearestDouble x.significand * nearestDouble (Nat.pow 10 x.power.toNat)))

end Scientific

end Json

end SkillScript
