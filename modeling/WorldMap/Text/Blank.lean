/-!
# Blank characters

The characters that Unicode calls white space, and text with them taken off its ends. The list is
the property's own, in full: it goes beyond the four characters that core calls white space.
-/

namespace WorldMap

/-- The characters of Unicode's `White_Space`, apart from runs, which `isBlank` adds. -/
def lonelyBlanks : List Nat := [0x20, 0x85, 0xA0, 0x1680, 0x2028, 0x2029, 0x202F, 0x205F, 0x3000]

def isBlank (c : Char) : Bool :=
  (0x09 ≤ c.toNat && c.toNat ≤ 0x0D) || (0x2000 ≤ c.toNat && c.toNat ≤ 0x200A)
    || lonelyBlanks.contains c.toNat

def trimEnd (cs : List Char) : List Char := (cs.reverse.dropWhile isBlank).reverse

def trim (cs : List Char) : List Char := trimEnd (cs.dropWhile isBlank)

end WorldMap
