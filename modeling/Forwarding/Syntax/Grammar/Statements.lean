import Forwarding.Syntax.Grammar.Expressions

/-!
Statements, and the parts of methods that local functions share with them.
-/

namespace Forwarding.Syntax.Grammar

/-! ### Parts of methods -/

def attributeUse : SyntaxRule :=
  .seq [
    qualifiedName,
    optional (inParens (optional (commaList (.seq [
      optional (.seq [declaredName, oneMark [":", "="]]), sym .expression]))))]

def attributeTarget : SyntaxRule :=
  .seq [
    oneWord ["field", "event", "method", "param", "property", "return", "type", "assembly",
      "module"],
    mark ":"]

def attributeList : SyntaxRule :=
  inBrackets (.seq [optional attributeTarget, commaList attributeUse, optional (mark ",")])

def attributes : SyntaxRule :=
  .many (.choice [attributeList, region attributeList])

def modifier : SyntaxRule :=
  .part .modifier (oneWord [
    "abstract", "async", "const", "extern", "file", "fixed", "internal", "new", "override",
    "partial", "private", "protected", "public", "readonly", "required", "sealed", "static",
    "unsafe", "virtual", "volatile"])

def parameterModifier : SyntaxRule :=
  .part .modifier (oneWord ["this", "scoped", "ref", "out", "in", "readonly"])

def parameterType : SyntaxRule := .part .type (sym .type)

/-- A parameter; its type may be left out. -/
def parameter : SyntaxRule :=
  .part .parameter (.seq [
    sym .attributes,
    .choice [
      .seq [parameterModifier, .many parameterModifier, parameterType, .part .name anyWord],
      .seq [parameterType, .part .name anyWord],
      .part .name declaredName],
    optional (.seq [mark "=", sym .expression])])

def parameterArray : SyntaxRule :=
  .part .parameterArray (.seq [
    sym .attributes, word "params", parameterType, .part .name anyWord])

def parameters : SyntaxRule :=
  optional (commaList (.choice [parameterArray, parameter]))

def parameterList : SyntaxRule :=
  .part .parameters (inParens parameters)

def functionBody : SyntaxRule :=
  .choice [
    .part .body (sym .block),
    .seq [.part .body (.seq [mark "=>", sym .expression]), mark ";"],
    mark ";"]

def localFunction : SyntaxRule :=
  .part .localFunction (.seq [
    sym .attributes, .many modifier, .part .type (sym .type), .part .name declaredName,
    optional typeParameters, sym .parameterList, .many constraints, functionBody])

/-! ### Declarations of variables -/

def variableDeclarator : SyntaxRule :=
  .seq [
    declaredName, optional bracketedArguments, optional (.seq [mark "=", sym .expression])]

def variableDeclaration : SyntaxRule :=
  .choice [
    .seq [word "var", sym .tuplePattern, mark "=", sym .expression],
    .seq [word "scoped", sym .type, commaList variableDeclarator],
    .seq [sym .type, commaList variableDeclarator]]

def localDeclaration : SyntaxRule :=
  .seq [
    optional (.seq [optional (word "await"), word "using"]), .many modifier, variableDeclaration,
    mark ";"]

/-! ### Expressions as statements -/

def afterCall : SyntaxRule :=
  .choice [
    .seq [callSuffix, sym .afterCall],
    .seq [memberSuffix, sym .afterName],
    .seq [assignmentOperator, sym .expression],
    .seq []]

def afterName : SyntaxRule :=
  .choice [
    .seq [callSuffix, sym .afterCall],
    .seq [memberSuffix, sym .afterName],
    .seq [assignmentOperator, sym .expression]]

/-- Calls, assignments, steps up and down, creations and awaited expressions. -/
def expressionStatement : SyntaxRule :=
  .seq [
    .choice [
      .seq [word "await", sym .operand],
      .seq [
        oneMark ["+", "-", "!", "~", "++", "--", "&", "*", "^"], sym .operand,
        optional (.seq [assignmentOperator, sym .expression])],
      .seq [.ahead (.choice [mark "(", word "new"]), sym .primary, sym .afterCall],
      .seq [sym .primary, sym .afterName]],
    mark ";"]

/-! ### Statements -/

def block : SyntaxRule :=
  inBraces (.many (sym .statement))

def ifStatement : SyntaxRule :=
  .seq [
    word "if", inParens (sym .expression), sym .statement,
    optional (.seq [word "else", sym .statement])]

def forStatement : SyntaxRule :=
  .seq [
    word "for",
    inParens (.seq [
      optional (.choice [.seq [variableDeclaration, .ahead (mark ";")], commaList (sym .expression)]),
      mark ";", optional (sym .expression), mark ";", optional (commaList (sym .expression))]),
    sym .statement]

def foreachStatement : SyntaxRule :=
  .seq [
    optional (word "await"), word "foreach",
    inParens (.seq [
      .choice [
        .seq [sym .type, .choice [declaredName, sym .tuplePattern], word "in"],
        .seq [word "scoped", sym .type, declaredName, word "in"],
        .seq [sym .expression, word "in"]],
      sym .expression]),
    sym .statement]

def switchLabel : SyntaxRule :=
  .choice [
    .seq [word "case", sym .pattern, optional (.seq [word "when", sym .expression]), mark ":"],
    .seq [word "default", mark ":"]]

def switchStatement : SyntaxRule :=
  .seq [
    word "switch", inParens (commaList (sym .argument)),
    inBraces (.many (.seq [switchLabel, .many (sym .statement)]))]

def catchClause : SyntaxRule :=
  .seq [
    word "catch", optional (inParens (.seq [sym .type, optional declaredName])),
    optional (.seq [word "when", inParens (sym .expression)]), sym .block]

def tryStatement : SyntaxRule :=
  .seq [word "try", sym .block, .many catchClause, optional (.seq [word "finally", sym .block])]

def usingStatement : SyntaxRule :=
  .seq [
    optional (word "await"), word "using",
    inParens (.choice [.seq [variableDeclaration, .ahead (mark ")")], sym .expression]),
    sym .statement]

def jumpStatement : SyntaxRule :=
  .choice [
    .seq [word "return", optional (sym .expression), mark ";"],
    .seq [word "throw", optional (sym .expression), mark ";"],
    .seq [oneWord ["break", "continue"], mark ";"],
    .seq [
      word "goto",
      .choice [
        .seq [word "case", sym .expression], word "default", declaredName],
      mark ";"],
    .seq [
      word "yield", .choice [.seq [word "return", sym .expression], word "break"], mark ";"]]

def statement : SyntaxRule :=
  .choice [
    sym .block, mark ";", ifStatement, forStatement, foreachStatement,
    .seq [word "while", inParens (sym .expression), sym .statement],
    .seq [word "do", sym .statement, word "while", inParens (sym .expression), mark ";"],
    switchStatement, tryStatement, usingStatement,
    .seq [word "lock", inParens (sym .expression), sym .statement],
    .seq [word "fixed", inParens variableDeclaration, sym .statement],
    .seq [oneWord ["checked", "unchecked", "unsafe"], sym .block],
    jumpStatement,
    .seq [declaredName, mark ":", sym .statement],
    region (sym .topItem),
    localFunction, localDeclaration, expressionStatement]

end Forwarding.Syntax.Grammar
