import Fleet.Json.Basic

/-!
# The tokens of JSON text

A text is cut into brackets, separators, strings and other scalars by one pass over its characters. The
pass keeps what it is in the middle of: nothing, a bare word (a number or a name), or a string with
perhaps a backslash just read. A number greater than every double and a string with half a pair of
units in it are tokens as well, but they cannot be held.
-/

namespace Fleet.Json

/-- A token of JSON text. A string that cannot be held has no value. -/
inductive Token where
  | openArray
  | closeArray
  | openObject
  | closeObject
  | comma
  | colon
  | text (s : Option String)
  | scalar (j : Json)
  deriving DecidableEq, Repr

/-! ## Numbers and names -/

def significandLimit : Nat := UInt64.size - 1

/-- Takes digits into the significand while it stays in its limit; how many were taken comes with
it. -/
def gather : Nat → List Char → Nat × Nat
  | n, [] => (n, 0)
  | n, d :: rest =>
    let n' := Nat.ofDigitChars 10 [d] n
    if significandLimit < n' then (n, 0)
    else
      let (m, taken) := gather n' rest
      (m, taken + 1)

structure Numeral where
  negative : Bool
  whole : List Char
  fraction : Option (List Char)
  exponent : Option (Bool × List Char)

/-- An exponent after its letter: whether it is negative, and its digits. -/
def exponentOf? (cs : List Char) : Option (Bool × List Char) :=
  let (negative, ds) :=
    match cs with
    | '-' :: ds => (true, ds)
    | '+' :: ds => (false, ds)
    | ds => (false, ds)
  if ds ≠ [] ∧ ds.all Char.isDigit then some (negative, ds) else none

/-- The parts of a number after its sign: digits without a needless zero in front, and perhaps a
fraction and an exponent. -/
def Numeral.unsigned? (negative : Bool) (cs : List Char) : Option Numeral := do
  let whole := cs.takeWhile Char.isDigit
  let rest := cs.dropWhile Char.isDigit
  guard (whole ≠ [] ∧ (whole.head? = some '0' → whole = ['0']))
  let (fraction, rest) ← match rest with
    | '.' :: r =>
      let ds := r.takeWhile Char.isDigit
      if ds = [] then none else some (some ds, r.dropWhile Char.isDigit)
    | r => some (none, r)
  match rest with
  | [] => some ⟨negative, whole, fraction, none⟩
  | e :: r =>
    if e = 'e' ∨ e = 'E' then do
      let x ← exponentOf? r
      some ⟨negative, whole, fraction, some x⟩
    else none

def Numeral.of? : List Char → Option Numeral
  | '-' :: cs => unsigned? true cs
  | cs => unsigned? false cs

/-- The value of a number. Whole numbers from `-2^63` to `2^64 - 1` are kept as they are; a negative
zero and all other numbers are doubles, and one that is too large cannot be held. -/
def Numeral.value (n : Numeral) : Json :=
  let (m, taken) := gather 0 n.whole
  let dropped := n.whole.length - taken
  let sign (x : Option Binary64) : Json :=
    x.elim .beyond fun x => .real (if n.negative then x.neg else x)
  match n.fraction, n.exponent with
  | none, none =>
    if dropped = 0 then
      if !n.negative then .int m
      else if m ≠ 0 ∧ Int64.minValue.toInt ≤ -m then .int (-m)
      else sign (Binary64.ofNat m)
    else sign (Binary64.ofDecimal m dropped)
  | fraction, exponent =>
    let (m, taken) := gather m (fraction.getD [])
    let shift : Int := match exponent with
      | none => 0
      | some (true, ds) => -(Nat.ofDigitChars 10 ds 0 : Int)
      | some (false, ds) => Nat.ofDigitChars 10 ds 0
    sign (Binary64.ofDecimal m (dropped - taken + shift))

def ofWord? (cs : List Char) : Option Json :=
  if cs = "null".toList then some .null
  else if cs = "true".toList then some (.bool true)
  else if cs = "false".toList then some (.bool false)
  else (Numeral.of? cs).map Numeral.value

/-! ## Strings -/

def hexValue? (c : Char) : Option Nat :=
  if c.isDigit then some (c.toNat - '0'.toNat)
  else if 'a' ≤ c ∧ c ≤ 'f' then some (c.toNat - 'a'.toNat + 10)
  else if 'A' ≤ c ∧ c ≤ 'F' then some (c.toNat - 'A'.toNat + 10)
  else none

/-- A piece of a string: a character, or a unit of sixteen bits written by its number. -/
inductive Piece where
  | char (c : Char)
  | unit (n : Nat)
  deriving DecidableEq, Repr

/-- The pieces of what stands between the quotes; a control as such is refused. -/
def pieces? : List Char → Option (List Piece)
  | [] => some []
  | '\\' :: 'u' :: a :: b :: c :: d :: rest => do
    let n := 4096 * (← hexValue? a) + 256 * (← hexValue? b) + 16 * (← hexValue? c) + (← hexValue? d)
    return .unit n :: (← pieces? rest)
  | '\\' :: e :: rest => do
    let c ← match e with
      | '"' => some '"'
      | '\\' => some '\\'
      | '/' => some '/'
      | 'b' => some '\x08'
      | 'f' => some '\x0c'
      | 'n' => some '\n'
      | 'r' => some '\r'
      | 't' => some '\t'
      | _ => none
    return .char c :: (← pieces? rest)
  | '\\' :: [] => none
  | c :: rest => if c.toNat < 32 then none else do return .char c :: (← pieces? rest)

/-- The characters of a list of pieces: two units that form a pair are one character, and half a
pair alone is refused. -/
def joined? : List Piece → Option (List Char)
  | [] => some []
  | .char c :: rest => do return c :: (← joined? rest)
  | .unit n :: rest =>
    if n < 0xd800 ∨ 0xe000 ≤ n then do return Char.ofNat n :: (← joined? rest)
    else
      match rest with
      | .unit m :: rest =>
        if n < 0xdc00 ∧ 0xdc00 ≤ m ∧ m < 0xe000 then do
          return Char.ofNat (0x10000 + 1024 * (n - 0xd800) + (m - 0xdc00)) :: (← joined? rest)
        else none
      | _ => none

/-- The string between two quotes, if it is well written; it has no value when half of a pair stands
alone in it. -/
def ofQuoted? (cs : List Char) : Option (Option String) :=
  (pieces? cs).map fun pieces => (joined? pieces).map String.ofList

/-! ## The pass over the text -/

/-- What the pass is in the middle of; characters are kept last first. -/
inductive Mode where
  | between
  | word (before : List Char)
  | quoted (before : List Char)
  | escape (before : List Char)
  deriving DecidableEq, Repr

def isBare (c : Char) : Bool := c.isAlphanum || c = '+' || c = '-' || c = '.'

def begin? (c : Char) : Option (List Token × Mode) :=
  match c with
  | '[' => some ([.openArray], .between)
  | ']' => some ([.closeArray], .between)
  | '\x7b' => some ([.openObject], .between)
  | '\x7d' => some ([.closeObject], .between)
  | ',' => some ([.comma], .between)
  | ':' => some ([.colon], .between)
  | '"' => some ([], .quoted [])
  | ' ' => some ([], .between)
  | '\t' => some ([], .between)
  | '\n' => some ([], .between)
  | '\r' => some ([], .between)
  | c => if isBare c then some ([], .word [c]) else none

/-- One character further: the tokens that it ends or is, and what the pass is then in. -/
def advance? : Mode → Char → Option (List Token × Mode)
  | .between, c => begin? c
  | .word before, c =>
    if isBare c then some ([], .word (c :: before))
    else do
      let j ← ofWord? before.reverse
      let (tokens, mode) ← begin? c
      return (.scalar j :: tokens, mode)
  | .quoted before, c =>
    if c = '"' then do return ([.text (← ofQuoted? before.reverse)], .between)
    else if c = '\\' then some ([], .escape (c :: before))
    else some ([], .quoted (c :: before))
  | .escape before, c => some ([], .quoted (c :: before))

def scan? : Mode → List Char → Option (List Token)
  | .between, [] => some []
  | .word before, [] => do return [.scalar (← ofWord? before.reverse)]
  | _, [] => none
  | mode, c :: rest => do
    let (tokens, mode) ← advance? mode c
    return tokens ++ (← scan? mode rest)

def tokens? (s : String) : Option (List Token) := scan? .between s.toList

end Fleet.Json
