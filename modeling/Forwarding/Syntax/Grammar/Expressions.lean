import Forwarding.Syntax.Grammar.Types

/-!
Expressions and patterns. Binding strengths are left out: operands and operators form a flat row,
since nothing asks how they are grouped.
-/

namespace Forwarding.Syntax.Grammar

/-! ### Primary expressions -/

/-- Type arguments inside an expression; what follows tells them from comparisons. -/
def calledTypeArguments : SyntaxRule :=
  .seq [
    sym .typeArguments,
    .ahead (.choice [
      oneMark ["(", ")", "]", "\x7b", "\x7d", ":", ";", ",", ".", "?", "==", "!=", "|", "^", "&&",
        "||", "&", "[", "=>", "??"],
      kind .holeClose, kind .holeFormat])]

def interpolatedText : SyntaxRule :=
  .seq [
    kind .textOpen,
    .many (.choice [
      kind .textPart,
      .seq [
        kind .holeOpen, sym .expression, optional (.seq [mark ",", sym .expression]),
        optional (kind .holeFormat), kind .holeClose]]),
    kind .textClose]

def argumentList : SyntaxRule :=
  inParens (optional (commaList (sym .argument)))

def bracketedArguments : SyntaxRule :=
  inBrackets (.seq [commaList (sym .argument), optional (mark ",")])

/-- A declaration inside an expression, such as the argument `out int x`. -/
def declarationExpression : SyntaxRule :=
  .seq [
    sym .type, .choice [designation, sym .tuplePattern], .ahead (oneMark [",", ")"])]

def argument : SyntaxRule :=
  .seq [
    optional (.seq [declaredName, mark ":"]),
    optional (oneWord ["ref", "out", "in"]),
    .choice [declarationExpression, sym .expression]]

def elements : SyntaxRule :=
  optional (.seq [commaList (sym .expression), optional (mark ",")])

/-- The values in braces behind `new` and the like. -/
def initializer : SyntaxRule :=
  inBraces elements

def tuplePattern : SyntaxRule :=
  inParens (commaList (.choice [sym .tuplePattern, designation]))

def arraySizes : SyntaxRule :=
  .seq [
    inBrackets (.choice [commaList (sym .expression), .many (mark ",")]), .many arrayRank]

def creation : SyntaxRule :=
  .seq [
    word "new",
    .choice [
      .seq [argumentList, optional (sym .initializer)],
      .seq [arrayRank, sym .initializer],
      sym .initializer,
      .seq [
        baseType, .many (oneMark ["?", "*"]),
        .choice [
          .seq [argumentList, optional (sym .initializer)],
          .seq [arraySizes, optional (sym .initializer)],
          sym .initializer]]]]

def stackAllocation : SyntaxRule :=
  .seq [
    word "stackalloc",
    .choice [
      .seq [baseType, .many (mark "*"), arraySizes, optional (sym .initializer)],
      .seq [arrayRank, sym .initializer]]]

def anonymousMethod : SyntaxRule :=
  .part .lambda (.seq [
    .many (oneWord ["async", "static"]), word "delegate", optional (sym .parameterList),
    sym .block])

def primary : SyntaxRule :=
  .choice [
    .seq [name, optional (.seq [mark "::", name]), optional calledTypeArguments],
    kind .number, kind .character, kind .text, interpolatedText,
    oneWord ["this", "base", "null", "true", "false"],
    creation, stackAllocation,
    inParens (commaList (sym .argument)),
    inBrackets (optional (.seq [commaList (sym .argument), optional (mark ",")])),
    .seq [oneWord ["typeof", "sizeof"], inParens (sym .type)],
    .seq [word "default", optional (inParens (sym .type))],
    .seq [oneWord ["checked", "unchecked"], inParens (sym .expression)],
    predefinedType,
    sym .initializer]

/-- A part of an expression behind which it may stand as a statement. -/
def callSuffix : SyntaxRule :=
  .choice [argumentList, oneMark ["++", "--"]]

def memberSuffix : SyntaxRule :=
  .choice [
    .seq [oneMark [".", "->"], anyWord, optional calledTypeArguments],
    bracketedArguments,
    .seq [
      mark "?",
      .choice [
        .seq [mark ".", anyWord, optional calledTypeArguments],
        .seq [.ahead (adjacentMark "["), bracketedArguments]]],
    mark "!"]

/-! ### Lambdas and queries -/

def lambdaBody : SyntaxRule :=
  .seq [mark "=>", .choice [sym .block, sym .expression]]

def lambda : SyntaxRule :=
  .part .lambda (.choice [
    .seq [name, lambdaBody],
    .seq [
      sym .attributes, .many (oneWord ["async", "static"]),
      .choice [
        .seq [name, lambdaBody],
        .seq [sym .parameterList, lambdaBody],
        .seq [.ahead (.choice [predefinedType, word "ref"]), sym .type, sym .parameterList,
          lambdaBody]]]])

def fromClause : SyntaxRule :=
  .seq [
    word "from",
    .choice [.seq [name, word "in"], .seq [sym .type, name, word "in"]],
    sym .expression]

def joinClause : SyntaxRule :=
  .seq [
    word "join",
    .choice [.seq [name, word "in"], .seq [sym .type, name, word "in"]],
    sym .expression, word "on", sym .expression, word "equals", sym .expression,
    optional (.seq [word "into", name])]

def queryClause : SyntaxRule :=
  .choice [
    fromClause, joinClause,
    .seq [word "let", name, mark "=", sym .expression],
    .seq [word "where", sym .expression],
    .seq [
      word "orderby",
      commaList (.seq [sym .expression, optional (oneWord ["ascending", "descending"])])],
    .seq [word "select", sym .expression],
    .seq [word "group", sym .expression, word "by", sym .expression],
    .seq [word "into", name]]

def query : SyntaxRule :=
  .seq [fromClause, queryClause, .many queryClause]

/-! ### Operators -/

def assignmentOperator : SyntaxRule :=
  .choice [
    oneMark ["=", "+=", "-=", "*=", "/=", "%=", "&=", "|=", "^=", "<<=", "??="],
    .seq [mark ">", adjacentMark ">", adjacentMark "="],
    .seq [mark ">", adjacentMark ">", adjacentMark ">", adjacentMark "="]]

def binaryOperator : SyntaxRule :=
  .choice [
    oneMark ["+", "-", "*", "/", "%", "==", "!=", "<", "<=", "<<", "&&", "||", "&", "|", "^", "??"],
    .seq [
      mark ">", optional (adjacentMark ">"), optional (adjacentMark ">"),
      optional (adjacentMark "=")]]

/-- An operand cannot start with these words, so what precedes them is no cast. -/
def notCast : SyntaxRule :=
  .choice [oneWord ["is", "as", "switch", "with", "in"], oneWord patternWords, oneWord queryWords]

/-- An operand; `this` says which symbol stands for it inside prefixes. -/
def operandOf (this : Sym) (whole : Sym) (first : List SyntaxRule) : SyntaxRule :=
  .choice (first ++ [
    anonymousMethod, query,
    .seq [oneWord ["throw", "ref"], sym whole],
    .seq [mark "..", optional (sym this)],
    .seq [oneMark ["+", "-", "!", "~", "++", "--", "&", "*", "^"], sym this],
    .seq [word "await", sym this],
    .seq [inParens (sym .type), .unless notCast, sym this],
    region (sym .expression),
    .seq [sym .primary, .many (.choice [callSuffix, memberSuffix])]])

def operand : SyntaxRule := operandOf .operand .expression [lambda]

def guardOperand : SyntaxRule := operandOf .guardOperand .guard []

def switchArms : SyntaxRule :=
  inBraces (optional (.seq [
    commaList (.seq [
      sym .pattern, optional (.seq [word "when", sym .guard]), mark "=>", sym .expression]),
    optional (mark ",")]))

/-- A row of operands with operators between them. -/
def expressionOf (this : Sym) (single : Sym) : SyntaxRule :=
  .seq [
    sym single,
    .many (.choice [
      .seq [assignmentOperator, sym this],
      .seq [binaryOperator, sym single],
      .seq [word "is", sym .pattern],
      .seq [word "as", convertedType],
      .seq [word "switch", switchArms],
      .seq [word "with", sym .initializer],
      .seq [mark "?", sym .expression, mark ":", sym this],
      .seq [mark "..", optional (sym single)]])]

def expression : SyntaxRule := expressionOf .expression .operand

def guard : SyntaxRule := expressionOf .guard .guardOperand

/-! ### Patterns -/

def positionalPattern : SyntaxRule :=
  inParens (optional (commaList (.seq [
    optional (.seq [declaredName, mark ":"]), sym .pattern])))

def propertyPattern : SyntaxRule :=
  inBraces (optional (.seq [
    commaList (.seq [
      declaredName, .many (.seq [mark ".", anyWord]), mark ":", sym .pattern]),
    optional (mark ",")]))

def patternName : SyntaxRule :=
  .choice [designation, sym .tuplePattern]

def listPattern : SyntaxRule :=
  .seq [
    inBrackets (optional (.seq [
      commaList (.choice [.seq [mark "..", optional (sym .pattern)], sym .pattern]),
      optional (mark ",")])),
    optional designation]

/-- A constant, which may be a sum of constants and the like. -/
def constantPattern : SyntaxRule :=
  .seq [
    sym .guardOperand,
    .many (.seq [oneMark ["+", "-", "*", "/", "%", "|", "&", "^", "<<"], sym .guardOperand])]

def singlePattern : SyntaxRule :=
  .choice [
    .seq [oneMark ["<", "<="], constantPattern],
    .seq [mark ">", optional (adjacentMark "="), constantPattern],
    .seq [word "var", patternName],
    listPattern,
    .seq [propertyPattern, optional designation],
    .seq [
      testedType,
      .choice [
        .seq [positionalPattern, optional propertyPattern, optional designation],
        .seq [propertyPattern, optional designation],
        designation]],
    .seq [testedType, mark "?", .ahead (.choice [expressionEnd, mark "?"])],
    .seq [testedType, .ahead (.choice [expressionEnd, mark "?"])],
    .seq [
      positionalPattern, optional propertyPattern, optional designation,
      .unless (.choice [kind .number, kind .text, kind .character, mark "("])],
    constantPattern]

def pattern : SyntaxRule :=
  .seq [
    .many (word "not"), singlePattern,
    .many (.seq [oneWord ["and", "or"], .many (word "not"), singlePattern])]

end Forwarding.Syntax.Grammar
