import Forwarding.Syntax.Rule

/-!
The symbols of the C# grammar and the vocabulary in which its rules are written.
-/

namespace Forwarding.Syntax

/-- The parts of the language that refer to one another. -/
inductive Sym where
  | type
  | typeArguments
  | expression
  /-- An expression before an arrow, in which a lambda would take the arrow for its own. -/
  | guard
  | operand
  | guardOperand
  | primary
  | argument
  | initializer
  | pattern
  | tuplePattern
  /-- What may follow a part of an expression that can stand as a statement. -/
  | afterCall
  /-- What must follow a part of an expression for it to stand as a statement. -/
  | afterName
  | parameterList
  | attributes
  | block
  | statement
  | condition
  | declaration
  | topItem
  deriving DecidableEq, Repr, Inhabited

abbrev SyntaxRule := Rule Sym

namespace Grammar

def sym (s : Sym) : SyntaxRule := .symbol s

def word (w : String) : SyntaxRule := .token (·.isWord w)

def oneWord (ws : List String) : SyntaxRule := .token fun t => t.kind = .word && ws.contains t.text

def anyWord : SyntaxRule := .token fun t => t.kind = .word

def mark (m : String) : SyntaxRule := .token (·.isMark m)

def oneMark (ms : List String) : SyntaxRule := .token fun t => t.kind = .mark && ms.contains t.text

/-- A mark with nothing between it and the token before. -/
def adjacentMark (m : String) : SyntaxRule := .token fun t => t.isMark m && t.isAdjacent

def kind (k : TokenKind) : SyntaxRule := .token fun t => t.kind = k

def anyToken : SyntaxRule := .token fun _ => true

def optional (r : SyntaxRule) : SyntaxRule := .choice [r, .seq []]

/-- One or more, with commas between. -/
def commaList (r : SyntaxRule) : SyntaxRule := .seq [r, .many (.seq [mark ",", r])]

def inParens (r : SyntaxRule) : SyntaxRule := .seq [mark "(", r, mark ")"]

def inBrackets (r : SyntaxRule) : SyntaxRule := .seq [mark "[", r, mark "]"]

def inBraces (r : SyntaxRule) : SyntaxRule := .seq [mark "\x7b", r, mark "\x7d"]

/-! ### Words -/

/-- The words that are never names. -/
def reservedWords : List String := [
  "abstract", "as", "base", "bool", "break", "byte", "case", "catch", "char", "checked", "class",
  "const", "continue", "decimal", "default", "delegate", "do", "double", "else", "enum", "event",
  "explicit", "extern", "false", "finally", "fixed", "float", "for", "foreach", "goto", "if",
  "implicit", "in", "int", "interface", "internal", "is", "lock", "long", "namespace", "new",
  "null", "object", "operator", "out", "override", "params", "private", "protected", "public",
  "readonly", "ref", "return", "sbyte", "sealed", "short", "sizeof", "stackalloc", "static",
  "string", "struct", "switch", "this", "throw", "true", "try", "typeof", "uint", "ulong",
  "unchecked", "unsafe", "ushort", "using", "virtual", "void", "volatile", "while"]

/-- A name that is being declared. -/
def declaredName : SyntaxRule :=
  .token fun t => t.kind = .word && !reservedWords.contains t.text

/-- A name that is being used. -/
def name : SyntaxRule :=
  .token fun t => t.kind = .word && t.text != "await" && !reservedWords.contains t.text

/-- The types that have keywords. -/
def predefinedType : SyntaxRule :=
  oneWord ["bool", "byte", "char", "decimal", "double", "float", "int", "long", "object", "sbyte",
    "short", "string", "uint", "ulong", "ushort", "void"]

/-- The words that join patterns or guard them. -/
def patternWords : List String := ["and", "or", "when"]

/-- The words that start or join the clauses of a query. -/
def queryWords : List String := [
  "from", "let", "where", "join", "on", "equals", "into", "orderby", "ascending", "descending",
  "select", "group", "by"]

/-- The name a pattern or an argument gives to a value. -/
def designation : SyntaxRule :=
  .token fun t => t.kind = .word && !reservedWords.contains t.text &&
    !patternWords.contains t.text && !queryWords.contains t.text

/-! ### Conditional code -/

def directive (d : String) : SyntaxRule :=
  .token fun t => t.kind = .directive && t.text.toList.filter Char.isAlpha == d.toList

/-- Code of the kind `content` between `#if` and `#endif`, with its alternatives. -/
def region (content : SyntaxRule) : SyntaxRule :=
  .part .region (.seq [
    directive "if", sym .condition, kind .lineEnd, .many content,
    .many (.seq [directive "elif", sym .condition, kind .lineEnd, .many content]),
    optional (.seq [directive "else", .many content]),
    directive "endif"])

/-- The condition of `#if`. -/
def condition : SyntaxRule :=
  .choice [
    .seq [operandOf, oneMark ["&&", "||", "==", "!="], sym .condition],
    operandOf]
where
  operandOf : SyntaxRule :=
    .choice [
      .seq [mark "!", .choice [inParens (sym .condition), .seq [.many (mark "!"), anyWord]]],
      inParens (sym .condition), anyWord, kind .number, kind .text]

end Grammar

end Forwarding.Syntax
