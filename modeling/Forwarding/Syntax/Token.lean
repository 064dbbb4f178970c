/-!
Tokens of a source text. A token keeps the white space and comments in front of it, so the texts of
all tokens, each behind its lead, give back the source.
-/

namespace Forwarding.Syntax

/-- A place between two characters: lines count from one, bytes from zero. -/
structure Position where
  line : Nat := 1
  byte : Nat := 0
  deriving DecidableEq, Repr, Inhabited

/-- The place behind `text`, which starts at `p`. -/
def Position.after (p : Position) (text : String) : Position :=
  { line := p.line + text.toList.count '\n', byte := p.byte + text.utf8ByteSize }

inductive TokenKind where
  /-- An identifier or a keyword. -/
  | word
  | number
  | character
  /-- A string without holes. -/
  | text
  /-- The opening quotes of a string with holes, such as `$"`. -/
  | textOpen
  | textPart
  | textClose
  /-- The braces around an expression inside a string. -/
  | holeOpen
  | holeClose
  /-- The format of a hole, from its colon on. -/
  | holeFormat
  /-- Punctuation and operators. -/
  | mark
  /-- `#if`, `#elif`, `#else` or `#endif`. -/
  | directive
  /-- The end of the line that holds the condition of `#if` or `#elif`. -/
  | lineEnd
  /-- What no token can be made of. -/
  | invalid
  deriving DecidableEq, Repr, Inhabited

structure Token where
  kind : TokenKind
  /-- White space and comments in front of the token. -/
  lead : String
  text : String
  start : Position
  deriving DecidableEq, Repr, Inhabited

namespace Token

def stop (t : Token) : Position :=
  t.start.after t.text

def isWord (t : Token) (w : String) : Bool :=
  t.kind = .word && t.text == w

def isMark (t : Token) (m : String) : Bool :=
  t.kind = .mark && t.text == m

/-- Nothing stands between this token and the one before it. -/
def isAdjacent (t : Token) : Bool :=
  t.lead.isEmpty

end Token

end Forwarding.Syntax
