/-!
# Blank characters

The characters with the Unicode property `White_Space`, and cutting them off the ends of a text.
-/

namespace TreeQuery.Text

/-- The ranges of code points with the property `White_Space`, in increasing order. -/
def blankRanges : List (Nat × Nat) :=
  [(0x9, 0xD), (0x20, 0x20), (0x85, 0x85), (0xA0, 0xA0), (0x1680, 0x1680), (0x2000, 0x200A),
   (0x2028, 0x2029), (0x202F, 0x202F), (0x205F, 0x205F), (0x3000, 0x3000)]

/-- Is `c` a blank character? -/
def isBlank (c : Char) : Bool :=
  blankRanges.any fun r => r.1 ≤ c.toNat && c.toNat ≤ r.2

/-- `cs` without the blanks at its start and at its end. -/
def trimChars (cs : List Char) : List Char :=
  ((cs.dropWhile isBlank).reverse.dropWhile isBlank).reverse

/-- `s` without the blanks at its start and at its end. -/
def trim (s : String) : String :=
  String.ofList (trimChars s.toList)

/-- Does `s` hold nothing but blanks? -/
def isBlankText (s : String) : Bool :=
  s.toList.all isBlank

end TreeQuery.Text
