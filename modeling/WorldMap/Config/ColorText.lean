import WorldMap.Image.Color
import WorldMap.Text.Blank
import WorldMap.Text.Number
/-!
# Colors in text

A color is written `#RRGGBB` or `#RRGGBBAA`; the `#` may be missing, and blanks around it do not
count. Two characters make one channel, read as an unsigned number in base sixteen.
-/

namespace WorldMap

def readChannel (high low : Char) : Option UInt8 :=
  ((readUnsigned 16 255 [high, low]).toOption).map UInt8.ofNat

def readChannels : List Char → Option (List UInt8)
  | [] => some []
  | [_] => none
  | high :: low :: cs => do
    let channel ← readChannel high low
    let rest ← readChannels cs
    return channel :: rest

/-- Text without one `#` in front. -/
def dropHash : List Char → List Char
  | '#' :: cs => cs
  | cs => cs

namespace Color

/-- The color that a text writes. Without an alpha channel it is opaque. -/
def read (text : List Char) : Option Color :=
  match readChannels (dropHash (trim text)) with
  | some [r, g, b] => some ⟨r, g, b, 255⟩
  | some [r, g, b, a] => some ⟨r, g, b, a⟩
  | _ => none

end Color

end WorldMap
