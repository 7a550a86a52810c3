import Fleet.Json.Basic
import Fleet.Number.Shortest

/-!
# Writing JSON

The compact text of a value: no blanks, members in their order, characters outside ASCII as they
are. Quotes, backslashes and controls are escaped, five controls by a letter. A value that cannot be
held has no text of its own and is written as null.
-/

namespace Fleet.Json

def hexDigit (n : Nat) : Char := Nat.digitChar n

def escapedChar (c : Char) : List Char :=
  if c = '"' then ['\\', '"']
  else if c = '\\' then ['\\', '\\']
  else if c = '\x08' then ['\\', 'b']
  else if c = '\t' then ['\\', 't']
  else if c = '\n' then ['\\', 'n']
  else if c = '\x0c' then ['\\', 'f']
  else if c = '\r' then ['\\', 'r']
  else if c.toNat < 32 then ['\\', 'u', '0', '0', hexDigit (c.toNat / 16), hexDigit (c.toNat % 16)]
  else [c]

/-- A string in quotes, as characters. -/
def stringChars (s : String) : List Char := '"' :: s.toList.flatMap escapedChar ++ ['"']

mutual

/-- The compact text of a value, as characters. -/
def chars : Json → List Char
  | .null | .beyond => "null".toList
  | .bool true => "true".toList
  | .bool false => "false".toList
  | .int n => (toString n).toList
  | .real x => (x.toText .json).toList
  | .str s => stringChars s
  | .arr items => '[' :: itemChars items
  | .obj members => '\x7b' :: memberChars members

/-- The items of an array and its closing bracket. -/
def itemChars : List Json → List Char
  | [] => [']']
  | [j] => chars j ++ [']']
  | j :: rest => chars j ++ ',' :: itemChars rest

/-- The members of an object and its closing brace. -/
def memberChars : List (String × Json) → List Char
  | [] => ['\x7d']
  | [(k, j)] => stringChars k ++ ':' :: chars j ++ ['\x7d']
  | (k, j) :: rest => stringChars k ++ ':' :: chars j ++ ',' :: memberChars rest

end

def write (j : Json) : String := String.ofList j.chars

end Fleet.Json
