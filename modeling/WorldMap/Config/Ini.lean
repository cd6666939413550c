import WorldMap.Text.Blank
import WorldMap.Text.Escape
import WorldMap.Text.Number
/-!
# Section files

A document is a list of sections, each with its keys and values in the order of the text. Keys
before the first heading belong to no section, and a heading that comes again starts a section of
its own. Look-ups take the first section of a name and the first value of a key.

Text is read through `Spot`s: characters that know the place after them, which is where errors are
reported. At the end of the text that is the place after its last character.
-/

namespace WorldMap.Ini

/-- A line and a column, both counted from one. -/
structure Position where
  line : Nat
  column : Nat
  deriving DecidableEq, Repr

namespace Position

def start : Position := ⟨1, 1⟩

def advance (p : Position) (c : Char) : Position :=
  if c = '\n' then ⟨p.line + 1, 1⟩ else ⟨p.line, p.column + 1⟩

end Position

structure Spot where
  char : Char
  after : Position

def locate (p : Position) : List Char → List Spot
  | [] => []
  | c :: cs => ⟨c, p.advance c⟩ :: locate (p.advance c) cs

inductive Stop
  | assignment
  | bracket
  | quote (mark : Char)
  | line

namespace Stop

def holds : Stop → Char → Bool
  | assignment, c => c == '=' || c == ':'
  | bracket, c => c == ']'
  | quote mark, c => c == mark
  | line, c => c == '\n' || c == '\r'

/-- Only a line may also run up to the end of the text. -/
def holdsEnd : Stop → Bool
  | line => true
  | _ => false

def text : Stop → String
  | assignment => "[Some('='), Some(':')]"
  | bracket => "[Some(']')]"
  | quote mark => "[Some(" ++ enclose '\'' [mark] ++ ")]"
  | line => "[Some('\\n'), Some('\\r'), None]"

end Stop

inductive Problem
  | missingKey
  | inlineComment
  | unfinished (stop : Stop)
  | badBreak (found : Option Char)
  | badCode

namespace Problem

def text : Problem → String
  | missingKey => "missing key"
  | inlineComment => "doesn't support inline comment"
  | unfinished stop => s!"expecting \"{stop.text}\" but found EOF."
  | badBreak found =>
    let shown := match found with
      | some c => "Some(" ++ enclose '\'' [c] ++ ")"
      | none => "None"
    s!"expecting \"\\\\n\" but found \"{shown}\"."
  | badCode => "unknown character in \\xHH form"

end Problem

structure ParseError where
  position : Position
  problem : Problem

namespace ParseError

def text (e : ParseError) : String := s!"{e.position.line}:{e.position.column} {e.problem.text}"

end ParseError

/-- The characters that a backslash and a letter stand for; any other stands for itself, and a line
break for nothing. -/
def escaped (c : Char) : List Char :=
  match c with
  | '\n' => []
  | '0' => ['\x00']
  | 'a' => ['\x07']
  | 'b' => ['\x08']
  | 't' => ['\t']
  | 'r' => ['\r']
  | 'n' => ['\n']
  | c => [c]

def readCode (digits : List Char) : Option Char :=
  match readUnsigned 16 maxWord32 digits with
  | .ok n => if n.isValidChar then some (Char.ofNat n) else none
  | .error _ => none

/-- Where the reader stands inside a stretch of text: in plain text, after a backslash, or in a code
of which `left` more digits are due, perhaps after a backslash in that. -/
inductive Mode
  | plain
  | backslash
  | code (left : Nat) (digits : List Char)
  | codeBackslash (left : Nat) (digits : List Char)

/-- Text that was read, or what went wrong, and the text that is left either way. -/
structure Stretch where
  result : Except ParseError (List Char)
  rest : List Spot

/-- One more digit of a code: the mode after it, with the finished character if it was the last. -/
def codeDigit (left : Nat) (digits : List Char) (c : Char) : Option (Mode × List Char) :=
  let digits := digits ++ [c]
  if left ≤ 1 then (readCode digits).map fun c => (.plain, [c])
  else some (.code (left - 1) digits, [])

/-- Reads up to a character of `stop`, which is left. `before` is what has been read, backwards;
`eof` is the place of the end of the text. -/
def readUntil (eof : Position) (stop : Stop) : Mode → List Char → List Spot → Stretch
  | mode, before, [] =>
    match mode with
    | .plain => if stop.holdsEnd then ⟨.ok before.reverse, []⟩ else ⟨.error ⟨eof, .unfinished stop⟩, []⟩
    | .backslash =>
      if stop.holdsEnd then ⟨.ok ('\\' :: before).reverse, []⟩
      else ⟨.error ⟨eof, .unfinished stop⟩, []⟩
    | .code _ _ => ⟨.error ⟨eof, .unfinished stop⟩, []⟩
    | .codeBackslash _ _ => ⟨.error ⟨eof, .badBreak none⟩, []⟩
  | .plain, before, s :: rest =>
    if stop.holds s.char then ⟨.ok before.reverse, s :: rest⟩
    else if s.char = '\\' then readUntil eof stop .backslash before rest
    else readUntil eof stop .plain (s.char :: before) rest
  | .backslash, before, s :: rest =>
    if s.char = 'x' then readUntil eof stop (.code 4 []) before rest
    else readUntil eof stop .plain ((escaped s.char).reverse ++ before) rest
  | .code left digits, before, s :: rest =>
    if s.char = '\\' then readUntil eof stop (.codeBackslash left digits) before rest
    else
      match codeDigit left digits s.char with
      | some (mode, read) => readUntil eof stop mode (read ++ before) rest
      | none => ⟨.error ⟨s.after, .badCode⟩, s :: rest⟩
  | .codeBackslash left digits, before, s :: rest =>
    if s.char = '\n' then
      match codeDigit left digits '\\' with
      | some (mode, read) => readUntil eof stop mode (read ++ before) rest
      | none => ⟨.error ⟨s.after, .badCode⟩, s :: rest⟩
    else ⟨.error ⟨s.after, .badBreak (some s.char)⟩, s :: rest⟩

/-- A heading and its keys and values; keys before the first heading have none. -/
structure Section where
  name : Option String
  entries : List (String × String)
  deriving DecidableEq, Repr

namespace Section

def get? (s : Section) (key : String) : Option String := s.entries.lookup key

end Section

abbrev Document := List Section

namespace Document

def find? (d : Document) (name : String) : Option Section :=
  List.find? (fun s => s.name == some name) d

end Document

/-- The blanks that do not end a line. -/
def isInlineBlank (c : Char) : Bool := isBlank c && c != '\n' && c != '\r'

def isSpace (c : Char) : Bool := c == ' ' || c == '\t'

def isBreak (c : Char) : Bool := c == '\n' || c == '\r'

def dropSpots (p : Char → Bool) (input : List Spot) : List Spot := input.dropWhile fun s => p s.char

/-- Reads the rest of a value: quoted parts, and then the rest of the line, whose leading blanks
count if a quoted part stands before them. The fuel is at least the number of characters left. -/
def readValue (eof : Position) :
    Nat → Option (List Char) → List Spot → Except ParseError (List Char × List Spot)
  | 0, quoted, input => .ok (quoted.getD [], input)
  | _ + 1, quoted, [] => .ok (quoted.getD [], [])
  | fuel + 1, quoted, s :: rest =>
    if s.char = '"' ∨ s.char = '\'' then
      let part := readUntil eof (.quote s.char) .plain [] rest
      match part.result with
      | .error e => .error e
      | .ok text => readValue eof fuel (some (quoted.getD [] ++ text)) (part.rest.drop 1)
    else
      let part := readUntil eof .line .plain [] (s :: rest)
      match part.result, quoted with
      | .error e, _ => .error e
      | .ok text, none => .ok (trim text, part.rest)
      | .ok text, some quoted => .ok (quoted ++ trimEnd text, part.rest)

def value (eof : Position) (input : List Spot) : Except ParseError (List Char × List Spot) :=
  readValue eof (input.length + 1) none (dropSpots isInlineBlank input)

/-- The document so far, its sections and their entries backwards, and the key that waits for its
value. -/
structure Progress where
  finished : List Section
  name : Option String
  entries : List (String × String)
  key : List Char

namespace Progress

def current (p : Progress) : Section := ⟨p.name, p.entries.reverse⟩

def beginSection (p : Progress) (name : List Char) : Progress :=
  ⟨p.current :: p.finished, some (String.ofList name), [], p.key⟩

def assign (p : Progress) (value : List Char) : Progress :=
  { p with entries := (String.ofList p.key, String.ofList value) :: p.entries, key := [] }

def document (p : Progress) : Document := (p.current :: p.finished).reverse

end Progress

/-- Skips blanks between lines, up to a line that starts with a space or a tab. -/
def skipBetween : List Spot → List Spot
  | [] => []
  | s :: rest =>
    if isBreak s.char then
      match rest with
      | [] => []
      | t :: _ => if isSpace t.char then rest else skipBetween rest
    else if isBlank s.char then skipBetween rest
    else s :: rest

/-- What is left after a section heading, whose bracket has been read, and the progress it makes. -/
def heading (eof : Position) (p : Progress) (input : List Spot) :
    Except ParseError (Progress × List Spot) :=
  let name := readUntil eof .bracket .plain [] input
  match name.result with
  | .error e => .error e
  | .ok text => .ok (p.beginSection (trim text), name.rest.drop 1)

/-- Reads one item of the text from its first character `s` on: a comment, a heading, a value or a
key. The flag says whether blanks between lines are to be skipped after it. -/
def readItem (eof : Position) (p : Progress) (s : Spot) (rest : List Spot) :
    Except ParseError (Progress × List Spot × Bool) :=
  match s.char with
  | ';' | '#' =>
    if 2 < s.after.column then .error ⟨s.after, .inlineComment⟩
    else .ok (p, (dropSpots (· != '\n') rest).drop 1, true)
  | '[' => do
    let (p, rest) ← heading eof p rest
    return (p, rest, true)
  | '=' | ':' =>
    if p.key.isEmpty then .error ⟨s.after, .missingKey⟩
    else do
      let (text, rest) ← value eof rest
      return (p.assign text, rest, true)
  | ' ' | '\t' =>
    match dropSpots isSpace rest with
    | t :: rest =>
      if t.char = '[' then do
        let (p, rest) ← heading eof p rest
        return (p, rest, true)
      else if isBreak t.char then .ok (p, rest, false)
      else
        -- a key that cannot be read is left out
        let key := readUntil eof .assignment .plain [] (t :: rest)
        match key.result with
        | .error _ => .ok (p, key.rest, true)
        | .ok text => .ok ({ p with key := trim text }, key.rest, true)
    | [] => .ok (p, [], true)
  | '\n' | '\r' => .ok (p, rest, true)
  | _ =>
    let key := readUntil eof .assignment .plain [] (s :: rest)
    match key.result with
    | .error e => .error e
    | .ok text => .ok ({ p with key := trim text }, key.rest, true)

/-- Reads items to the end of the text. The fuel is at least the number of characters left. -/
def readItems (eof : Position) : Nat → Progress → List Spot → Except ParseError Progress
  | 0, p, _ => .ok p
  | _ + 1, p, [] => .ok p
  | fuel + 1, p, s :: rest => do
    let (p, rest, skip) ← readItem eof p s rest
    readItems eof fuel p (if skip then skipBetween rest else rest)

def parse (text : String) : Except ParseError Document :=
  let chars := text.toList
  let eof := chars.foldl Position.advance Position.start
  let spots := locate Position.start chars
  (readItems eof (spots.length + 1) ⟨[], none, [], []⟩ spots).map Progress.document

end WorldMap.Ini
