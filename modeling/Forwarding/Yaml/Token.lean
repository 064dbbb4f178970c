/-!
The tokens of YAML and the place in a text where the next token starts.
-/

namespace Forwarding.Yaml

/-- How a scalar is written. -/
inductive Style where
  | plain
  | singleQuoted
  | doubleQuoted
  | literal
  | folded
  deriving DecidableEq, Repr, Inhabited

inductive Token where
  | version (major minor : Nat)
  | tagDirective (handle uri : String)
  | documentStart
  | documentEnd
  | blockSequenceStart
  | blockMappingStart
  /-- The end of a block sequence or mapping. -/
  | blockEnd
  | flowSequenceStart
  | flowSequenceEnd
  | flowMappingStart
  | flowMappingEnd
  | blockEntry
  | flowEntry
  | key
  | value
  | alias (name : String)
  | anchor (name : String)
  | tag (handle suffix : String)
  | scalar (style : Style) (text : String)
  deriving DecidableEq, Repr, Inhabited

inductive Error where
  | forbiddenCharacter
  /-- A text that could only be a key is not followed by a colon. -/
  | missingColon
  /-- A sequence entry, key or value stands where none can be. -/
  | misplacedIndicator
  | tabInIndentation
  | unfinishedScalar
  | badEscape
  | badDirective
  | badAnchor
  | badTag
  | badBlockHeader
  | unknownToken
  | unexpectedToken
  | unknownTagHandle
  | unknownAnchor
  | severalDocuments
  deriving DecidableEq, Repr, Inhabited

/-! ### Characters -/

def isBreak (c : Char) : Bool :=
  c == '\n' || c == '\u2028' || c == '\u2029'

def isSpaceOrTab (c : Char) : Bool :=
  c == ' ' || c == '\t'

/-- Nothing follows, or a blank. -/
def blankAhead : List Char → Bool
  | [] => true
  | c :: _ => isSpaceOrTab c || isBreak c

/-- The characters of names. -/
def isWordChar (c : Char) : Bool :=
  c.isAlphanum || c == '_' || c == '-'

/-- The characters a document may hold. -/
def isAllowed (c : Char) : Bool :=
  let n := c.toNat
  n == 9 || n == 10 || n == 13 || (0x20 ≤ n && n ≤ 0x7E) || n == 0x85 ||
    (0xA0 ≤ n && n ≤ 0xFFFD) || 0x10000 ≤ n

/-- All ways to end a line become one; the two separators of their own stay. -/
def unifyBreaks : List Char → List Char
  | [] => []
  | '\r' :: '\n' :: cs => '\n' :: unifyBreaks cs
  | '\r' :: cs => '\n' :: unifyBreaks cs
  | '\u0085' :: cs => '\n' :: unifyBreaks cs
  | c :: cs => c :: unifyBreaks cs

/-! ### Places -/

/-- What is left of a text, and where it starts. -/
structure Cursor where
  rest : List Char
  line : Nat := 0
  column : Nat := 0
  index : Nat := 0
  deriving Repr, Inhabited

namespace Cursor

/-- Steps over one character. -/
def next (c : Cursor) : Cursor :=
  match c.rest with
  | [] => c
  | d :: rest =>
    if isBreak d then { rest, line := c.line + 1, column := 0, index := c.index + 1 }
    else { c with rest, column := c.column + 1, index := c.index + 1 }

def skip : Nat → Cursor → Cursor
  | 0, c => c
  | n + 1, c => skip n c.next

def peek? (c : Cursor) : Option Char :=
  c.rest.head?

/-- The characters in front that satisfy `p`, and the place behind them. -/
def span (c : Cursor) (p : Char → Bool) : List Char × Cursor :=
  let front := c.rest.takeWhile p
  (front, skip front.length c)

/-- The place behind the characters that satisfy `p`. -/
def skipWhile (c : Cursor) (p : Char → Bool) : Cursor :=
  (c.span p).2

/-- A line starts here with a mark of three characters on its own. -/
def atMark (c : Cursor) (m : String) : Bool :=
  c.column == 0 && m.toList.isPrefixOf c.rest && blankAhead (c.rest.drop 3)

/-- A line starts here that separates documents. -/
def atDocumentMark (c : Cursor) : Bool :=
  c.atMark "---" || c.atMark "..."

end Cursor

end Forwarding.Yaml
