import Fleet.Instant.Basic
import Fleet.Text.Blank

/-!
# Instants as text

An instant is written in UTC with the shortest of no, three, six or nine digits of a second that is
exact. It is read from a date and a time of day with their offset from UTC; blanks may stand before
each number and around the separators, numbers may be shorter than usual, and a year that is signed
may be longer.
-/

namespace Fleet.Instant

open Text

/-! ## Writing -/

/-- The decimal digits of `n`, with zeros in front up to `width`. -/
def padded (width n : Nat) : List Char :=
  let ds := Nat.toDigits 10 n
  List.replicate (width - ds.length) '0' ++ ds

/-- A year: four digits, and outside of 0 to 9999 a sign before them. -/
def yearChars (year : Int) : List Char :=
  if 0 ≤ year ∧ year ≤ 9999 then padded 4 year.toNat
  else (if year < 0 then '-' else '+') :: padded 4 year.natAbs

/-- The digits of a fraction of a second after its point; nothing for a whole second. -/
def fractionChars (nanos : Nat) : List Char :=
  if nanos = 0 then []
  else if nanos % 1000000 = 0 then '.' :: padded 3 (nanos / 1000000)
  else if nanos % 1000 = 0 then '.' :: padded 6 (nanos / 1000)
  else '.' :: padded 9 nanos

/-- The instant in UTC, as characters. -/
def chars (t : Instant) : List Char :=
  let date := Date.ofDayNumber (t.seconds / secondsPerDay)
  let second := (t.seconds % secondsPerDay).toNat
  let leap := t.nanos / nanosPerSecond
  yearChars date.year ++ '-' :: padded 2 date.month ++ '-' :: padded 2 date.day ++ 'T' ::
    padded 2 (second / 3600) ++ ':' :: padded 2 (second / 60 % 60) ++ ':' ::
    padded 2 (second % 60 + leap) ++ fractionChars (t.nanos % nanosPerSecond) ++ ['Z']

def toText (t : Instant) : String := String.ofList t.chars

/-! ## Reading -/

abbrev Reader := StateT (List Char) Option

def blanks : Reader Unit := modify dropBlanks

def char (c : Char) : Reader Unit := fun cs =>
  match cs with
  | d :: rest => if c = d then some ((), rest) else none
  | [] => none

def number (ds : List Char) : Nat := Nat.ofDigitChars 10 ds 0

def digits (width : Nat) : Reader Nat := fun cs =>
  let ds := (cs.take width).takeWhile Char.isDigit
  if ds = [] then none else some (number ds, cs.drop ds.length)

/-- Reads all digits that follow, at least one. -/
def allDigits : Reader Nat := fun cs => digits cs.length cs

/-- Reads a year: up to four digits, or a sign and any number of digits. -/
def year : Reader Int := do
  blanks
  match ← get with
  | '-' :: rest => set rest; return -(← allDigits)
  | '+' :: rest => set rest; return (← allDigits)
  | _ => return (← digits 4)

/-- Reads a number of up to two digits in a range. -/
def field (low high : Nat) : Reader Nat := do
  blanks
  let n ← digits 2
  guard (low ≤ n ∧ n ≤ high)
  return n

def separator (c : Char) : Reader Unit := do
  blanks
  char c

/-- Reads a fraction of a second, if there is one, in nanoseconds; digits after the ninth are
passed over. -/
def fraction : Reader Nat := fun cs =>
  match cs with
  | '.' :: rest =>
    let ds := rest.takeWhile Char.isDigit
    if ds = [] then none
    else
      let kept := ds.take 9
      some (number (kept ++ List.replicate (9 - kept.length) '0'), rest.dropWhile Char.isDigit)
  | _ => some (0, cs)

def twoDigits : Reader Nat := fun cs =>
  match cs with
  | a :: b :: rest => if a.isDigit && b.isDigit then some (number [a, b], rest) else none
  | _ => none

/-- Reads an offset from UTC in seconds. -/
def offset : Reader Int := fun cs =>
  match cs with
  | 'Z' :: rest | 'z' :: rest => some (0, rest)
  | u :: t :: c :: rest =>
    if [u, t, c].map Char.toUpper = ['U', 'T', 'C'] then some (0, rest)
    else if u = '+' ∨ u = '-' ∨ u = '−' then
      (do
        let hours ← twoDigits
        modify (·.dropWhile fun c => c = ':' || isBlank c)
        let minutes ← twoDigits
        guard (minutes < 60 ∧ hours < 24)
        let n : Int := hours * 3600 + minutes * 60
        return if u = '+' then n else -n : Reader Int) (t :: c :: rest)
    else none
  | _ => none

def yearLimits : Int × Int := (-262143, 262142)

def isReadable (d : Date) : Bool :=
  yearLimits.1 ≤ d.year && d.year ≤ yearLimits.2 && d.isReal

/-- Reads a date and time of day with an offset; the date must be readable there and in UTC. -/
def instant : Reader Instant := do
  let y ← year
  separator '-'
  let month ← field 1 12
  separator '-'
  let day ← field 1 31
  match ← get with
  | c :: rest => guard (c = 'T' ∨ c = 't' ∨ c = ' '); set rest
  | [] => failure
  let hour ← field 0 23
  separator ':'
  let minute ← field 0 59
  separator ':'
  let second ← field 0 60
  let nanos ← fraction
  blanks
  let shift ← offset
  let date : Date := ⟨y, month, day⟩
  guard (isReadable date)
  let whole := min second 59
  let seconds := date.dayNumber * secondsPerDay + (hour * 3600 + minute * 60 + whole : Nat) - shift
  guard (isReadable (.ofDayNumber (seconds / secondsPerDay)))
  return ⟨seconds, nanos + (second - whole) * nanosPerSecond⟩

/-- The instant that a text names; blanks may follow it. -/
def ofText? (s : String) : Option Instant := do
  let (t, rest) ← instant s.toList
  guard (rest.all isBlank)
  return t

end Fleet.Instant
