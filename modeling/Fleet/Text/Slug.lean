/-!
# Slugs and identifiers

A slug is what remains of a name in a URL: its runs of ASCII letters and digits, lowercased and
joined by single dashes.

    slug name = joined by '-' of the words of name        (toList_slug)

An identifier is a non-empty text of ASCII letters, digits, underscores and dashes.
-/

namespace Fleet.Text

def isWordChar (c : Char) : Bool := c.isAlphanum

/-- The maximal runs of ASCII letters and digits, in order and lowercased. -/
def words : List Char → List (List Char)
  | [] => []
  | c :: rest =>
    if isWordChar c then
      match rest, words rest with
      | next :: _, w :: ws => if isWordChar next then (c.toLower :: w) :: ws else [c.toLower] :: w :: ws
      | _, ws => [c.toLower] :: ws
    else words rest

/-- The slug of a name; empty when the name has no ASCII letter or digit. -/
def slug (name : String) : String := String.ofList (List.intercalate ['-'] (words name.toList))

theorem toList_slug (name : String) :
    (slug name).toList = List.intercalate ['-'] (words name.toList) := by simp [slug]

def isIdentifierChar (c : Char) : Bool := c.isAlphanum || c = '_' || c = '-'

def isIdentifier (id : String) : Bool := id != "" && id.toList.all isIdentifierChar

end Fleet.Text
