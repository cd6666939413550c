import WorldMap.Text.Hidden
/-!
# Escaped characters

How messages show characters of a foreign text between quotation marks: the mark itself and the
backslash after a backslash, the four common control characters by their letters, and whatever else
does not show by itself by its number.
-/

namespace WorldMap

/-- A character between two of the quotation marks `mark`. -/
def escapeChar (mark c : Char) : List Char :=
  if c = mark ∨ c = '\\' then ['\\', c]
  else if c = '\t' then ['\\', 't']
  else if c = '\r' then ['\\', 'r']
  else if c = '\n' then ['\\', 'n']
  else if c = '\x00' then ['\\', '0']
  else if isHidden c then ['\\', 'u', '\x7b'] ++ Nat.toDigits 16 c.toNat ++ ['\x7d']
  else [c]

def enclose (mark : Char) (cs : List Char) : String :=
  String.ofList (mark :: cs.flatMap (escapeChar mark) ++ [mark])

end WorldMap
