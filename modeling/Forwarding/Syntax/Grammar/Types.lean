import Forwarding.Syntax.Grammar.Symbol

/-!
Types and the names they are built from.
-/

namespace Forwarding.Syntax.Grammar

/-- A name with its type arguments, if it has any. -/
def simpleName : SyntaxRule :=
  .seq [name, optional (sym .typeArguments)]

/-- Simple names joined by `.` or `::`. -/
def qualifiedName : SyntaxRule :=
  .seq [simpleName, .many (.seq [oneMark [".", "::"], simpleName])]

/-- Type arguments; they are left out in an open type such as `Dictionary<,>`. -/
def typeArguments : SyntaxRule :=
  .choice [
    .seq [mark "<", commaList (sym .type), mark ">"],
    .seq [mark "<", .many (mark ","), mark ">"]]

def tupleElement : SyntaxRule :=
  .seq [sym .type, optional declaredName]

def tupleType : SyntaxRule :=
  inParens (.seq [tupleElement, mark ",", commaList tupleElement])

def functionPointerType : SyntaxRule :=
  .seq [
    word "delegate", mark "*",
    optional (.seq [oneWord ["managed", "unmanaged"], optional (inBrackets (commaList name))]),
    mark "<", commaList (.seq [.many (oneWord ["ref", "out", "in", "readonly"]), sym .type]),
    mark ">"]

/-- A type without array ranks and the like. -/
def baseType : SyntaxRule :=
  .choice [predefinedType, tupleType, functionPointerType, qualifiedName]

def arrayRank : SyntaxRule :=
  inBrackets (.many (mark ","))

def type : SyntaxRule :=
  .choice [
    .seq [word "ref", optional (word "readonly"), sym .type],
    .seq [baseType, .many (.choice [mark "?", mark "*", arrayRank])]]

/-- A type behind `is`, where a question mark starts a conditional. -/
def testedType : SyntaxRule :=
  .seq [baseType, .many arrayRank]

/-- What ends a type or pattern inside an expression. -/
def expressionEnd : SyntaxRule :=
  .choice [
    oneMark [")", "]", "\x7d", ";", ",", "&&", "||", "=>", "??", "==", "!=", ":"],
    oneWord patternWords, oneWord queryWords, kind .holeClose, kind .holeFormat]

/-- A type behind `as`. -/
def convertedType : SyntaxRule :=
  .choice [.seq [testedType, mark "?", .ahead expressionEnd], testedType]

/-! ### Type parameters -/

def typeParameters : SyntaxRule :=
  .seq [
    mark "<",
    commaList (.seq [sym .attributes, optional (oneWord ["in", "out"]), declaredName]),
    mark ">"]

def typeConstraint : SyntaxRule :=
  .choice [
    .seq [word "class", optional (mark "?")], word "struct", word "default",
    .seq [word "new", mark "(", mark ")"], .seq [word "allows", word "ref", word "struct"],
    sym .type]

def constraints : SyntaxRule :=
  .seq [word "where", name, mark ":", commaList typeConstraint]

end Forwarding.Syntax.Grammar
