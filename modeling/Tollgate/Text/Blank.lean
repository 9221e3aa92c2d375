/-!
# White space

The characters with the Unicode property `White_Space`, and trimming them off
both ends of a text. Zero-width spaces, the byte order mark and the ASCII
separators U+001C to U+001F lack the property.
-/

namespace Tollgate.Text

def isBlank (c : Char) : Bool :=
  let n := c.toNat
  (9 ≤ n && n ≤ 13) || n = 0x20 || n = 0x85 || n = 0xA0 || n = 0x1680 ||
    (0x2000 ≤ n && n ≤ 0x200A) || n = 0x2028 || n = 0x2029 || n = 0x202F || n = 0x205F ||
    n = 0x3000

def trimChars (cs : List Char) : List Char :=
  ((cs.dropWhile isBlank).reverse.dropWhile isBlank).reverse

def trim (s : String) : String := .ofList (trimChars s.toList)

def isAllBlank (s : String) : Bool := s.toList.all isBlank

end Tollgate.Text
