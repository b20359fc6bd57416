import PluginLint.Text.Basic

/-!
# Finite binary64 numbers

A magnitude is a whole number below 2^53 times a power of two. `nearest` gives the magnitude
closest to a quotient, a tie going to the even significand; products and quotients are exact ones
rounded by it. `shortest` gives the fewest decimal digits that read back as the same magnitude,
and of those the closest ones. All of it is arithmetic on natural numbers.
-/
namespace PluginLint

/-- `significand · 2^exponent`, with a significand of 53 bits or the least exponent. -/
structure Binary64 where
  significand : Nat
  exponent : Int
  deriving DecidableEq, Repr

namespace Binary64

/-- The least exponent of a magnitude. -/
def leastExponent : Int := -1074

/-- The largest exponent of a magnitude. -/
def greatestExponent : Int := 971

def zero : Binary64 := ⟨0, leastExponent⟩

def isZero (x : Binary64) : Bool := x.significand == 0

/-- A quotient rounded to a whole number, a half going to the even neighbour. -/
def roundHalfEven (num den : Nat) : Nat :=
  let q := num / den
  let r := num % den
  if den < 2 * r ∨ (den = 2 * r ∧ q % 2 = 1) then q + 1 else q

/-- The quotient `num / (den · 2^e)` as a quotient of naturals. -/
def scaled (num den : Nat) (e : Int) : Nat × Nat :=
  if 0 ≤ e then (num, den * Nat.pow 2 e.toNat) else (num * Nat.pow 2 (-e).toNat, den)

/-- The magnitude nearest to `num / den`; nothing when that is beyond the largest one. -/
def nearest (num den : Nat) : Option Binary64 :=
  if num = 0 then some zero
  else
    let guess : Int := (num.log2 : Int) - den.log2 - 52
    let (n, d) := scaled num den guess
    let e := max leastExponent (if n < Nat.pow 2 52 * d then guess - 1 else guess)
    let (n, d) := scaled num den e
    let m := roundHalfEven n d
    let (m, e) := if m = Nat.pow 2 53 then (Nat.pow 2 52, e + 1) else (m, e)
    if greatestExponent < e then none else some ⟨m, e⟩

/-- A magnitude as a quotient of naturals. -/
def toQuotient (x : Binary64) : Nat × Nat :=
  if 0 ≤ x.exponent then (x.significand * Nat.pow 2 x.exponent.toNat, 1)
  else (x.significand, Nat.pow 2 (-x.exponent).toNat)

def mul (x y : Binary64) : Option Binary64 :=
  nearest (x.toQuotient.1 * y.toQuotient.1) (x.toQuotient.2 * y.toQuotient.2)

def div (x y : Binary64) : Option Binary64 :=
  nearest (x.toQuotient.1 * y.toQuotient.2) (x.toQuotient.2 * y.toQuotient.1)

/-- The magnitude nearest to a power of ten. -/
def powerOfTen (k : Nat) : Option Binary64 := nearest (Nat.pow 10 k) 1

/-- The exponent of the leading decimal digit of a quotient that is not zero. -/
def leadingExponent (num den : Nat) : Int :=
  if den ≤ num then (Nat.toDigits 10 (num / den)).length - 1
  else
    match (List.range 400).find? fun k => den ≤ num * Nat.pow 10 k with
    | some k => -k
    | none => -400

/-- Whether the quotient `num / den` rounds to `x`: it lies between the midpoints to the
neighbours of `x`, which count when the significand is even. -/
def isRoundedBy (x : Binary64) (num den : Nat) : Bool :=
  let even := x.significand % 2 = 0
  -- everything in quarters of the last place of `x`
  let (n, d) := scaled (num * 4) den x.exponent
  let above := 4 * x.significand + 2
  let below := 4 * x.significand -
    (if x.significand = Nat.pow 2 52 ∧ leastExponent < x.exponent then 1 else 2)
  (if even then n ≤ above * d else n < above * d) &&
    (if even then below * d ≤ n else below * d < n)

/-- The decimal grid `10^p`, as what to multiply a quotient's ends with. -/
def onGrid (num den : Nat) (p : Int) : Nat × Nat :=
  if 0 ≤ p then (num, den * Nat.pow 10 p.toNat) else (num * Nat.pow 10 (-p).toNat, den)

/-- The neighbour of `x` on the grid `10^p` that reads back as `x`, the closer one of two. -/
def onGrid? (x : Binary64) (p : Int) : Option Nat :=
  let (num, den) := x.toQuotient
  let (n, d) := onGrid num den p
  let low := n / d
  let readsBack (digits : Nat) : Bool :=
    if 0 ≤ p then x.isRoundedBy (digits * Nat.pow 10 p.toNat) 1
    else x.isRoundedBy digits (Nat.pow 10 (-p).toNat)
  match readsBack low, readsBack (low + 1) with
  | true, true =>
    let r := n % d
    some (if d < 2 * r ∨ (d = 2 * r ∧ low % 2 = 1) then low + 1 else low)
  | true, false => some low
  | false, true => some (low + 1)
  | false, false => none

/-- Decimal digits and the exponent of the grid they stand on. -/
structure Decimal where
  digits : Nat
  exponent : Int
  deriving DecidableEq, Repr

/-- The fewest digits that read back as `x`, which is not zero; seventeen always do. -/
def shortest (x : Binary64) : Decimal :=
  let (num, den) := x.toQuotient
  let lead := leadingExponent num den
  let attempts := (List.range 17).filterMap fun (n : Nat) =>
    let p : Int := lead - (n : Int)
    match x.onGrid? p with
    | some digits => if digits = 0 then none else some (⟨digits, p⟩ : Decimal)
    | none => none
  attempts.headD ⟨0, 0⟩

example : (nearest 1 10).map shortest = some ⟨1, -1⟩ := by decide +kernel
example : nearest (2 ^ 53 + 1) 1 = some ⟨2 ^ 52, 1⟩ := by decide +kernel

end Binary64
end PluginLint
