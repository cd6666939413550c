/-!
# Control sequences

A terminal takes some characters of a text as orders: single control characters, and sequences of
characters that an escape character begins. `plainText` is what is left of a text that does not go to a
terminal. Blanks stay, even in the middle of a sequence. What stands around the text is plain, and a
sequence that is not finished ends with the text.
-/

namespace WorldMap

/-- What kind of sequence a terminal is in the middle of. -/
inductive TerminalState
  | plain
  | escape
  | escapeTail
  | control
  | deviceHead
  | deviceBody
  | command
  | message
  deriving DecidableEq, Repr

def isControlBlank (c : Char) : Bool := c == '\t' || c == '\n' || c == '\x0c' || c == '\r'

def isPlain (c : Char) : Bool := (' ' ≤ c && c != '\x7f') || isControlBlank c

/-- The byte that ends a string of a terminal is among the bytes of the character. -/
def hasStringEnd (c : Char) : Bool := (String.singleton c).toUTF8.toList.contains 0x9C

namespace TerminalState

def isFinal (low c : Char) : Bool := low ≤ c && c ≤ '~'

def afterEscape (c : Char) : TerminalState :=
  if c = '[' then .control
  else if c = ']' then .command
  else if c = 'P' then .deviceHead
  else if c = 'X' ∨ c = '^' ∨ c = '_' then .message
  else if isFinal '0' c then .plain
  else if ' ' ≤ c ∧ c < '0' then .escapeTail
  else .escape

/-- The state after a character, and whether the character stays in the text. -/
def step (s : TerminalState) (c : Char) : TerminalState × Bool :=
  if c = '\x1b' then (.escape, false)
  else if c = '\x18' ∨ c = '\x1a' then (.plain, false)
  else match s with
    | .plain => (.plain, isPlain c)
    | .escape => (if c < ' ' then .escape else afterEscape c, isControlBlank c)
    | .escapeTail => (if isFinal '0' c then .plain else s, isControlBlank c)
    | .control => (if isFinal '@' c then .plain else s, isControlBlank c)
    | .deviceHead => (if isFinal '@' c then .deviceBody else s, false)
    | .deviceBody => (if hasStringEnd c then .plain else s, false)
    | .command => (if c = '\x07' then .plain else s, false)
    | .message => (if hasStringEnd c then .plain else s, false)

end TerminalState

/-- What is left of a text. Once a character has stayed, all plain ones after it do, and an unfinished
sequence before it only goes on at the next that is not plain. -/
def plainChars : TerminalState → Bool → List Char → List Char
  | _, _, [] => []
  | s, staying, c :: cs =>
    if staying ∧ isPlain c then c :: plainChars (if c.toNat < 128 then s else .plain) true cs
    else
      let (next, stays) := s.step c
      if stays then c :: plainChars next true cs else plainChars next false cs

def plainText (text : String) : String := String.ofList (plainChars .plain false text.toList)

end WorldMap
