/-!
# Doubles as exact numbers

A finite double is a sign, a whole significand and a power of two. Rounding works on exact
quotients: `Binary64.nearest num den` is the double closest to `num / den`, a tie going to the even
significand. Products, quotients and powers of ten are the exact results, rounded once.
-/

namespace Fleet

/-- The finite double `± significand · 2 ^ exponent`. -/
structure Binary64 where
  negative : Bool
  significand : Nat
  exponent : Int
  deriving DecidableEq, Repr, Inhabited

namespace Binary64

def pow2 (n : Nat) : Nat := Nat.pow 2 n

def pow10 (n : Nat) : Nat := Nat.pow 10 n

/-- The exponent of the smallest positive double, which is also that of zero. -/
def minExponent : Int := -1074

/-- The exponent of the largest doubles. -/
def maxExponent : Int := 971

def zero : Binary64 := ⟨false, 0, minExponent⟩

def isZero (x : Binary64) : Bool := x.significand = 0

def neg (x : Binary64) : Binary64 := { x with negative := !x.negative }

/-- The whole number closest to `num / den`, a tie going to the even one. -/
def roundQuotient (num den : Nat) : Nat :=
  let q := num / den
  let twice := 2 * (num % den)
  if twice < den then q
  else if den < twice then q + 1
  else if q % 2 = 0 then q else q + 1

/-- `num / den` in units of `2 ^ e`, as a quotient of whole numbers. -/
def inUnits (num den : Nat) (e : Int) : Nat × Nat :=
  if 0 ≤ e then (num, den * pow2 e.toNat) else (num * pow2 (-e).toNat, den)

/-- The exponent at which `num / den` has a significand of 53 bits, or the smallest exponent. -/
def unitExponent (num den : Nat) : Int :=
  let guess : Int := (Nat.log2 num : Int) - Nat.log2 den - 52
  let (n, d) := inUnits num den guess
  let e := if n / d < pow2 52 then guess - 1 else if pow2 53 ≤ n / d then guess + 1 else guess
  max e minExponent

/-- The non-negative double closest to `num / den`; `none` when it is too large. -/
def nearest (num den : Nat) : Option Binary64 :=
  if num = 0 then some zero
  else
    let e := unitExponent num den
    let (n, d) := inUnits num den e
    let m := roundQuotient n d
    let (m, e) := if m = pow2 53 then (pow2 52, e + 1) else (m, e)
    if maxExponent < e then none else some ⟨false, m, e⟩

/-- The absolute value as a quotient of whole numbers. -/
def toQuotient (x : Binary64) : Nat × Nat :=
  if 0 ≤ x.exponent then (x.significand * pow2 x.exponent.toNat, 1)
  else (x.significand, pow2 (-x.exponent).toNat)

/-- The product of two non-negative doubles, rounded. -/
def mul (x y : Binary64) : Option Binary64 :=
  let (a, b) := x.toQuotient
  let (c, d) := y.toQuotient
  nearest (a * c) (b * d)

/-- The quotient of two non-negative doubles, rounded. -/
def div (x y : Binary64) : Option Binary64 :=
  let (a, b) := x.toQuotient
  let (c, d) := y.toQuotient
  if c = 0 then none else nearest (a * d) (b * c)

def ofNat (n : Nat) : Option Binary64 := nearest n 1

def ofInt (n : Int) : Option Binary64 :=
  (ofNat n.natAbs).map fun x => if n < 0 then x.neg else x

/-- The largest power of ten that is scaled by in one step. -/
def scaleLimit : Nat := 308

/-- A non-negative double over ten to the power `n`, in steps of at most `scaleLimit`. -/
def scaleDown (x : Binary64) (n : Nat) : Option Binary64 :=
  if x.isZero then some x
  else if n ≤ scaleLimit then do x.div (← ofNat (pow10 n))
  else do scaleDown (← x.div (← ofNat (pow10 scaleLimit))) (n - scaleLimit)
termination_by n
decreasing_by simp only [scaleLimit] at *; omega

/-- A non-negative double times ten to the power `n`; `none` when it is too large. -/
def scaleUp (x : Binary64) (n : Nat) : Option Binary64 :=
  if x.isZero then some x
  else if n ≤ scaleLimit then do x.mul (← ofNat (pow10 n))
  else none

/-- The double that `significand · 10 ^ exponent` is read as: the significand is rounded first and
then scaled by the rounded power of ten. -/
def ofDecimal (significand : Nat) (exponent : Int) : Option Binary64 := do
  let x ← ofNat significand
  if 0 ≤ exponent then x.scaleUp exponent.toNat else x.scaleDown (-exponent).toNat

end Binary64

end Fleet
