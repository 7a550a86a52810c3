/-!
# Fingerprints of text

The fingerprint of a text is the FNV-1a hash of its UTF-8 bytes, from left to right, in a word of sixty-four
bits.
-/

namespace Fleet.Text

/-- The fingerprint of the empty text. -/
def fingerprintSeed : UInt64 := 0xcbf29ce484222325

def absorb (h : UInt64) (b : UInt8) : UInt64 := (h ^^^ b.toUInt64) * 0x100000001b3

/-- A fingerprint with the bytes of a text more. -/
def absorbText (h : UInt64) (s : String) : UInt64 := s.toUTF8.data.toList.foldl absorb h

def fingerprint (s : String) : UInt64 := absorbText fingerprintSeed s

end Fleet.Text
