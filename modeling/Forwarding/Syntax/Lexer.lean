import Forwarding.Syntax.Literal
import Forwarding.Syntax.Token
import Forwarding.Syntax.Trivia

/-!
The lexer. It cuts a source into tokens without losing a character; what no token can be made of
becomes an invalid token of one character.
-/

namespace Forwarding.Syntax

/-- How a string with holes is written. -/
inductive TextStyle where
  | regular
  | verbatim
  /-- As many quotes as given stand at both ends. -/
  | raw (quotes : Nat)
  deriving DecidableEq, Repr, Inhabited

/-- A string with holes that is being read. -/
structure OpenText where
  style : TextStyle
  /-- How many braces open a hole. -/
  braces : Nat
  /-- How many brackets are open in the hole being read. -/
  depth : Nat := 0
  deriving DecidableEq, Repr, Inhabited

/-- What the lexer has to know of the text before. -/
structure LexState where
  /-- The strings whose holes are being read, innermost first. -/
  texts : List OpenText := []
  /-- The innermost string itself is being read, not one of its holes. -/
  inText : Bool := false
  /-- The condition of `#if` or `#elif` is being read. -/
  inCondition : Bool := false
  deriving DecidableEq, Repr, Inhabited

/-- The marks of more than one character, longest first. Marks that start with `>` are left apart,
because `>` also closes lists of type arguments. -/
def longMarks : List String := [
  "<<=", "??=", "=>", "==", "!=", "<=", "<<", "&&", "||", "++", "--", "+=", "-=", "*=", "/=", "%=",
  "&=", "|=", "^=", "->", "::", "??", ".."]

def isMarkChar (c : Char) : Bool :=
  "()[]\x7b\x7d<>=!~+-*/%&|^?:;,.".toList.contains c

/-- The length of the mark at the front; zero if there is none. -/
def markLength (cs : List Char) : Nat :=
  match longMarks.find? fun m => m.toList.isPrefixOf cs with
  | some m => m.length
  | none => if (cs.head?.map isMarkChar).getD false then 1 else 0

/-- The length of the text of a string up to its end, to its next hole or to what it cannot hold;
the first `pending` characters are known to belong to it. -/
def textPartLength (t : OpenText) : Nat → List Char → Nat
  | _, [] => 0
  | pending + 1, _ :: cs => textPartLength t pending cs + 1
  | 0, c :: cs =>
    match t.style with
    | .raw quotes =>
      if quotes ≤ runLength '"' (c :: cs) then 0
      else if runLength '\x7b' (c :: cs) = t.braces then 0
      else textPartLength t 0 cs + 1
    | .verbatim =>
      if c == '"' then if cs.head? = some '"' then textPartLength t 1 cs + 1 else 0
      else braceOr c cs
    | .regular =>
      if c == '"' || c == '\n' then 0
      else if c == '\\' then
        match escapeLength? cs with
        | some n => textPartLength t n cs + 1
        | none => 0
      else braceOr c cs
where
  /-- A brace that belongs to the text is written twice. -/
  braceOr (c : Char) (cs : List Char) : Nat :=
    if c == '\x7b' || c == '\x7d' then
      if cs.head? = some c then textPartLength t 1 cs + 1 else 0
    else textPartLength t 0 cs + 1

namespace OpenText

/-- The length of the closing quotes at the front; zero if there are none. -/
def closeLength (t : OpenText) (cs : List Char) : Nat :=
  match t.style with
  | .raw quotes => if quotes ≤ runLength '"' cs then quotes + bytesMarkLength (cs.drop quotes) else 0
  | _ => if cs.head? = some '"' then 1 + bytesMarkLength (cs.drop 1) else 0

def openBracket (t : OpenText) : OpenText := { t with depth := t.depth + 1 }

def closeBracket (t : OpenText) : OpenText := { t with depth := t.depth - 1 }

end OpenText

/-- The opening of a string with holes at the front, with its length. -/
def textOpen? (cs : List Char) : Option (OpenText × Nat) :=
  match cs with
  | '@' :: '$' :: '"' :: _ => some ({ style := .verbatim, braces := 1 }, 3)
  | '$' :: '@' :: '"' :: _ => some ({ style := .verbatim, braces := 1 }, 3)
  | '$' :: _ =>
    let dollars := runLength '$' cs
    let quotes := runLength '"' (cs.drop dollars)
    if 3 ≤ quotes then some ({ style := .raw quotes, braces := dollars }, dollars + quotes)
    else if dollars = 1 && 1 ≤ quotes then some ({ style := .regular, braces := 1 }, 2)
    else none
  | _ => none

/-- The conditional directive at the front, with its name and length. -/
def directive? (cs : List Char) : Option (String × Nat) :=
  match cs with
  | '#' :: rest =>
    let gap := (rest.takeWhile fun c => c == ' ' || c == '\t').length
    let name := String.ofList ((rest.drop gap).takeWhile Char.isAlpha)
    if ["if", "elif", "else", "endif"].contains name then some (name, 1 + gap + name.length)
    else none
  | _ => none

namespace LexState

/-- The length of the trivia at the front; inside a string there is none. -/
def triviaLength (s : LexState) (cs : List Char) : Nat :=
  if s.inText then 0 else triviaFrom s.inCondition 0 cs

/-- The token inside a string: a stretch of text, a hole or the end. -/
def scanText (s : LexState) (t : OpenText) (outer : List OpenText) (cs : List Char) :
    TokenKind × Nat × LexState :=
  match textPartLength t 0 cs with
  | 0 =>
    match t.closeLength cs with
    | 0 =>
      if t.braces ≤ runLength '\x7b' cs then
        (.holeOpen, t.braces, { s with texts := { t with depth := 0 } :: outer, inText := false })
      else (.invalid, 1, s)
    | n => (.textClose, n, { s with texts := outer, inText := false })
  | n => (.textPart, n, s)

/-- A literal that may lack its end. -/
def literal (s : LexState) (kind : TokenKind) (rest : Option Nat) (front : Nat) :
    TokenKind × Nat × LexState :=
  match rest with
  | some n => (kind, n + front, s)
  | none => (.invalid, 1, s)

/-- The mark at the front, with the brackets of a hole counted. -/
def scanMark (s : LexState) (cs : List Char) : TokenKind × Nat × LexState :=
  match s.texts, cs with
  | t :: outer, c :: rest =>
    if c == '(' || c == '[' || c == '\x7b' then
      (.mark, 1, { s with texts := t.openBracket :: outer })
    else if c == '\x7d' && t.depth = 0 then
      if t.braces ≤ runLength '\x7d' cs then (.holeClose, t.braces, { s with inText := true })
      else (.invalid, 1, s)
    else if c == ')' || c == ']' || c == '\x7d' then
      (.mark, 1, { s with texts := t.closeBracket :: outer })
    else if c == ':' && t.depth = 0 && rest.head? ≠ some ':' then
      (.holeFormat, 1 + (rest.takeWhile fun c => c != '\x7d' && c != '"').length, s)
    else (.mark, markLength cs, s)
  | _, _ => (.mark, markLength cs, s)

/-- The token in code at the front of a text. -/
def scanCode (s : LexState) (cs : List Char) : TokenKind × Nat × LexState :=
  match directive? cs with
  | some (name, n) => (.directive, n, { s with inCondition := name == "if" || name == "elif" })
  | none =>
    match textOpen? cs with
    | some (t, n) => (.textOpen, n, { s with texts := t :: s.texts, inText := true })
    | none =>
      match cs with
      | '\n' :: _ => (.lineEnd, 1, { s with inCondition := false })
      | '\'' :: rest => s.literal .character (characterRest? rest) 1
      | '@' :: '"' :: rest => s.literal .text (verbatimRest? rest) 2
      | '"' :: rest =>
        let quotes := runLength '"' cs
        if 3 ≤ quotes then s.literal .text (rawRest? quotes (cs.drop quotes)) quotes
        else s.literal .text (stringRest? 0 rest) 1
      | '/' :: '*' :: _ => (.invalid, 1, s)
      | _ =>
        match identifierLength cs, numberLength cs, markLength cs with
        | n + 1, _, _ => (.word, n + 1, s)
        | 0, n + 1, _ => (.number, n + 1, s)
        | 0, 0, _ + 1 => s.scanMark cs
        | 0, 0, 0 => (.invalid, 1, s)

/-- The kind and length of the token at the front of a text that is not empty, and the state behind
it. -/
def scan (s : LexState) (cs : List Char) : TokenKind × Nat × LexState :=
  match s.inText, s.texts with
  | true, t :: outer => s.scanText t outer cs
  | _, _ => s.scanCode cs

end LexState

/-- The tokens of a text that starts at `p`. A token has at least one character, so `fuel` as large
as the text reaches its end. -/
def lexFrom : Nat → LexState → Position → Nat → List Char → List Token
  | 0, _, _, _, _ => []
  | fuel + 1, s, p, trivia, cs =>
    match cs.drop trivia with
    | [] => []
    | c :: rest =>
      let lead := String.ofList (cs.take trivia)
      let start := p.after lead
      let (kind, n, next) := s.scan (c :: rest)
      let text := String.ofList (c :: rest.take (n - 1))
      let more := rest.drop (n - 1)
      { kind, lead, text, start } ::
        lexFrom fuel next (start.after text) (next.triviaLength more) more

/-- The tokens of a source. The first line may name an interpreter. -/
def lex (source : String) : List Token :=
  let cs := source.toList
  let n := shebangLength cs
  lexFrom (cs.length + 1) {} {} (n + triviaFrom false 0 (cs.drop n)) cs

end Forwarding.Syntax
