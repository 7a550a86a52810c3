import Fleet.Number.Binary64

/-!
# The shortest digits of a double

Of all decimal numbers that read back as a given double, the one with the fewest digits is written,
and of several with as few digits the closest. The search goes through grids of 1, 2, … 17 digits
and tests on each the two neighbours of the value, in exact arithmetic.

The written form is positional for values from `1e-5` up to `1e16` and keeps a digit after the point;
outside it has one digit before the point and an exponent with its sign.
-/

namespace Fleet

namespace Binary64

/-- A decimal number `digits · 10 ^ exponent`. -/
structure Decimal where
  digits : Nat
  exponent : Int
  deriving DecidableEq, Repr

/-- The point half way to the next double above, as a quotient. -/
def upperEnd (x : Binary64) : Nat × Nat :=
  toQuotient ⟨false, 2 * x.significand + 1, x.exponent - 1⟩

/-- The point half way to the next double below, as a quotient. -/
def lowerEnd (x : Binary64) : Nat × Nat :=
  if x.significand = pow2 52 ∧ minExponent < x.exponent then
    toQuotient ⟨false, 4 * x.significand - 1, x.exponent - 2⟩
  else toQuotient ⟨false, 2 * x.significand - 1, x.exponent - 1⟩

/-- Whether one quotient is below another, or equal to it when `closed`. -/
def below (closed : Bool) (a b : Nat × Nat) : Bool :=
  if closed then a.1 * b.2 ≤ b.1 * a.2 else a.1 * b.2 < b.1 * a.2

def Decimal.toQuotient (d : Decimal) : Nat × Nat :=
  if 0 ≤ d.exponent then (d.digits * pow10 d.exponent.toNat, 1)
  else (d.digits, pow10 (-d.exponent).toNat)

/-- Whether the decimal reads back as the positive double `x`. -/
def readsBack (x : Binary64) (d : Decimal) : Bool :=
  let closed := x.significand % 2 = 0
  below closed x.lowerEnd d.toQuotient && below closed d.toQuotient x.upperEnd

def digitCount (n : Nat) : Nat := (Nat.toDigits 10 n).length

/-- The power `p` of ten with `10 ^ (p - 1) ≤ num / den < 10 ^ p`. -/
def magnitude (num den : Nat) : Int :=
  if den ≤ num then digitCount (num / den)
  else 1 - (digitCount ((den - 1) / num) : Int)

/-- `num / den` in units of `10 ^ k`, rounded down, and whether the remainder is above a half, or
exactly a half with an odd result. -/
def onGrid (num den : Nat) (k : Int) : Nat × Bool :=
  let (n, d) := if 0 ≤ k then (num, den * pow10 k.toNat) else (num * pow10 (-k).toNat, den)
  let twice := 2 * (n % d)
  (n / d, d < twice || (twice = d && n / d % 2 = 1))

/-- The best decimal of at most `count` digits that reads back as the positive double `x`. -/
def onGridOf (x : Binary64) (count : Nat) : Option Decimal :=
  let (num, den) := x.toQuotient
  let k := magnitude num den - count
  let (low, up) := onGrid num den k
  let near : Decimal := ⟨if up then low + 1 else low, k⟩
  let far : Decimal := ⟨if up then low else low + 1, k⟩
  if x.readsBack near then some near else if x.readsBack far then some far else none

/-- The shortest decimal that reads back as the positive double `x`. -/
def shortest (x : Binary64) : Decimal :=
  ((List.range' 1 17).findSome? x.onGridOf).getD ⟨x.significand, 0⟩

/-- A decimal without the zeros at its end, as the list of its digits and its exponent. -/
def Decimal.stripped (d : Decimal) : List Char × Int :=
  let ds := Nat.toDigits 10 d.digits
  let kept := (ds.reverse.dropWhile (· = '0')).reverse
  (kept, d.exponent + (ds.length - kept.length : Nat))

/-- Where the written form changes from positional to an exponent. -/
structure Layout where
  /-- Values below `10 ^ positionalAbove` get an exponent. -/
  positionalAbove : Int
  /-- Values from `10 ^ positionalBelow` on get an exponent. -/
  positionalBelow : Int
  /-- Whether a whole number keeps a zero after its point. -/
  keepsPoint : Bool

def Layout.json : Layout := ⟨-5, 16, true⟩

/-- The layout of sample values, which never have an exponent. -/
def Layout.plain : Layout := ⟨-400, 400, false⟩

/-- Digits `ds` with the value `0.ds · 10 ^ point`, laid out. -/
def Layout.write (layout : Layout) (ds : List Char) (point : Int) : List Char :=
  let zeros (n : Int) := List.replicate n.toNat '0'
  let count : Int := ds.length
  if layout.positionalAbove < point ∧ point ≤ layout.positionalBelow then
    if count ≤ point then
      ds ++ zeros (point - count) ++ (if layout.keepsPoint then ['.', '0'] else [])
    else if 0 < point then ds.take point.toNat ++ ['.'] ++ ds.drop point.toNat
    else ['0', '.'] ++ zeros (-point) ++ ds
  else
    let exponent := (if 0 < point then ['+'] else []) ++ (toString (point - 1)).toList
    match ds with
    | [d] => [d, 'e'] ++ exponent
    | d :: rest => [d, '.'] ++ rest ++ ['e'] ++ exponent
    | [] => []

def toText (layout : Layout) (x : Binary64) : String :=
  let sign := if x.negative then ['-'] else []
  if x.isZero then String.ofList (sign ++ '0' :: (if layout.keepsPoint then ['.', '0'] else []))
  else
    let (ds, e) := x.shortest.stripped
    String.ofList (sign ++ layout.write ds (e + ds.length))

end Binary64

end Fleet
