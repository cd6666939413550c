/-!
# Reading numbers

Unsigned decimal numbers are one or more ASCII digits after at most one `+`. Reading goes from left
to right and stops at the first character that is no digit or that makes the number too large, so
which of the two is reported depends on which comes first. Signed numbers may have a `-` instead.
-/

namespace WorldMap

def maxWord32 : Nat := 4294967295

def maxWord64 : Nat := 18446744073709551615

inductive NumberError
  | empty
  | invalidDigit
  | tooLarge
  | tooSmall
  deriving DecidableEq, Repr

namespace NumberError

def text : NumberError → String
  | empty => "cannot parse integer from empty string"
  | invalidDigit => "invalid digit found in string"
  | tooLarge => "number too large to fit in target type"
  | tooSmall => "number too small to fit in target type"

end NumberError

/-- The value of a digit in base ten or, with its letters in either case, in base sixteen. -/
def digit? (base : Nat) (c : Char) : Option Nat :=
  let value :=
    if '0' ≤ c ∧ c ≤ '9' then c.toNat - '0'.toNat
    else if 'a' ≤ c ∧ c ≤ 'z' then c.toNat - 'a'.toNat + 10
    else if 'A' ≤ c ∧ c ≤ 'Z' then c.toNat - 'A'.toNat + 10
    else base
  if value < base then some value else none

/-- Reads on from the number `n`; `overflow` says that it has outgrown `limit`. -/
def readDigits (base limit : Nat) (overflow : NumberError) :
    Nat → List Char → Except NumberError Nat
  | n, [] => .ok n
  | n, c :: cs =>
    match digit? base c with
    | none => .error .invalidDigit
    | some d =>
      if limit < n * base + d then .error overflow
      else readDigits base limit overflow (n * base + d) cs

def readUnsigned (base limit : Nat) : List Char → Except NumberError Nat
  | [] => .error .empty
  | ['+'] => .error .invalidDigit
  | '+' :: cs => readDigits base limit .tooLarge 0 cs
  | cs => readDigits base limit .tooLarge 0 cs

def readSigned64 : List Char → Except NumberError Int
  | ['-'] => .error .invalidDigit
  | '-' :: cs => (readDigits 10 9223372036854775808 .tooSmall 0 cs).map fun n => -(n : Int)
  | cs => (readUnsigned 10 9223372036854775807 cs).map fun n => (n : Int)

end WorldMap
