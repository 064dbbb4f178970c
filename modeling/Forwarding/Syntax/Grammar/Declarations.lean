import Forwarding.Syntax.Grammar.Statements

/-!
Declarations of namespaces, types and their members.
-/

namespace Forwarding.Syntax.Grammar

/-! ### Names and bodies -/

def namespaceName : SyntaxRule :=
  .part .name (.seq [anyWord, .many (.seq [oneMark [".", "::"], anyWord])])

def typeName : SyntaxRule := .part .name anyWord

def declarationBody : SyntaxRule :=
  .part .body (inBraces (.many (sym .declaration)))

/-- A semicolon right behind a closing brace belongs to the declaration. -/
def closingSemicolon : SyntaxRule :=
  optional (adjacentMark ";")

/-! ### Namespaces and directives -/

def usingDirective : SyntaxRule :=
  .part .usingDirective (.seq [
    optional (word "global"), word "using",
    .choice [
      .seq [optional (word "unsafe"), declaredName, mark "=", sym .type],
      .seq [optional (word "static"), optional (word "unsafe"), qualifiedName]],
    mark ";"])

def externAlias : SyntaxRule :=
  .part .member (.seq [word "extern", word "alias", declaredName, mark ";"])

def globalAttribute : SyntaxRule :=
  .part .member (inBrackets (.seq [
    oneWord ["assembly", "module"], mark ":", commaList attributeUse, optional (mark ",")]))

def blockNamespace : SyntaxRule :=
  .part .blockNamespace (.seq [
    word "namespace", namespaceName, declarationBody, closingSemicolon])

def fileNamespace : SyntaxRule :=
  .part .fileNamespace (.seq [word "namespace", namespaceName, mark ";"])

/-! ### Types -/

def baseList : SyntaxRule :=
  .seq [mark ":", commaList (.seq [sym .type, optional argumentList])]

/-- The keyword of a type declaration that has members. -/
def containerKeyword : SyntaxRule :=
  .choice [
    oneWord ["class", "interface"],
    .seq [optional (word "ref"), word "struct"],
    .seq [word "record", optional (oneWord ["class", "struct"])]]

def container : SyntaxRule :=
  .part .container (.seq [
    sym .attributes, .many modifier, containerKeyword, typeName,
    .many (.choice [typeParameters, sym .parameterList, baseList, constraints]),
    .choice [declarationBody, mark ";"], closingSemicolon])

def enumMember : SyntaxRule :=
  .seq [sym .attributes, declaredName, optional (.seq [mark "=", sym .expression])]

def enumMembers : SyntaxRule :=
  .seq [
    .many (.choice [
      .seq [enumMember, mark ","],
      region (.seq [enumMember, optional (mark ",")])]),
    optional enumMember]

def enumDeclaration : SyntaxRule :=
  .part .member (.seq [
    sym .attributes, .many modifier, word "enum", anyWord,
    optional (.seq [mark ":", sym .type]),
    .choice [inBraces enumMembers, mark ";"], closingSemicolon])

def delegateDeclaration : SyntaxRule :=
  .part .member (.seq [
    sym .attributes, .many modifier, word "delegate", sym .type, declaredName,
    optional typeParameters, sym .parameterList, .many constraints, mark ";"])

def typeDeclaration : SyntaxRule :=
  .choice [container, enumDeclaration, delegateDeclaration]

/-! ### Members -/

/-- The interface whose member is implemented, in front of the member's name. -/
def explicitInterface : SyntaxRule :=
  .many (.seq [simpleName, oneMark [".", "::"]])

def method : SyntaxRule :=
  .part .method (.seq [
    sym .attributes, .many modifier, .part .type (sym .type), explicitInterface,
    .part .name anyWord, optional typeParameters, sym .parameterList, .many constraints,
    functionBody])

/-- The words that start a member, so that no constructor has them as its name. -/
def memberWords : List String := [
  "abstract", "async", "class", "const", "delegate", "enum", "event", "explicit", "extern", "file",
  "fixed", "implicit", "interface", "internal", "namespace", "new", "override", "partial",
  "private", "protected", "public", "readonly", "record", "ref", "required", "sealed", "static",
  "struct", "unsafe", "using", "virtual", "volatile", "bool", "byte", "char", "decimal", "double",
  "float", "int", "long", "object", "sbyte", "short", "string", "uint", "ulong", "ushort", "void"]

def constructor : SyntaxRule :=
  .part .member (.seq [
    sym .attributes, .many modifier,
    .token (fun t => t.kind = .word && !memberWords.contains t.text), sym .parameterList,
    optional (.seq [mark ":", oneWord ["base", "this"], argumentList]), functionBody])

def destructor : SyntaxRule :=
  .part .member (.seq [
    sym .attributes, .many modifier, mark "~", anyWord, sym .parameterList, functionBody])

def operatorMark : SyntaxRule :=
  .choice [
    oneWord ["true", "false"],
    .seq [
      mark ">", optional (adjacentMark ">"), optional (adjacentMark ">"),
      optional (adjacentMark "=")],
    oneMark ["!", "~", "++", "--", "+", "-", "*", "/", "%", "^", "|", "&", "<<", "==", "!=", "<",
      "<=", "+=", "-=", "*=", "/=", "%=", "&=", "|=", "^=", "<<="]]

def operatorDeclaration : SyntaxRule :=
  .part .member (.seq [
    sym .attributes, .many modifier, sym .type, explicitInterface, word "operator",
    optional (word "checked"), operatorMark, sym .parameterList, functionBody])

def conversionDeclaration : SyntaxRule :=
  .part .member (.seq [
    sym .attributes, .many modifier, oneWord ["implicit", "explicit"], explicitInterface,
    word "operator", optional (word "checked"), sym .type, sym .parameterList, functionBody])

def accessors : SyntaxRule :=
  inBraces (.many (.seq [sym .attributes, .many modifier, declaredName, functionBody]))

def arrowBody : SyntaxRule :=
  .seq [mark "=>", sym .expression, mark ";"]

def indexer : SyntaxRule :=
  .part .member (.seq [
    sym .attributes, .many modifier, sym .type, explicitInterface, word "this",
    inBrackets parameters, .choice [accessors, arrowBody]])

def property : SyntaxRule :=
  .part .member (.seq [
    sym .attributes, .many modifier, sym .type, explicitInterface, anyWord,
    .choice [
      .seq [accessors, optional (.seq [mark "=", sym .expression, mark ";"])],
      arrowBody]])

def eventDeclaration : SyntaxRule :=
  .part .member (.seq [
    sym .attributes, .many modifier, word "event",
    .choice [
      .seq [sym .type, explicitInterface, declaredName, .choice [accessors, mark ";"]],
      .seq [variableDeclaration, mark ";"]]])

def fieldDeclaration : SyntaxRule :=
  .part .member (.seq [sym .attributes, .many modifier, variableDeclaration, mark ";"])

def declaration : SyntaxRule :=
  .choice [
    usingDirective, blockNamespace, region (sym .declaration), typeDeclaration, method,
    constructor, property, fieldDeclaration, eventDeclaration, conversionDeclaration,
    operatorDeclaration, indexer, destructor]

/-! ### The source file -/

def topItem : SyntaxRule :=
  .choice [
    externAlias, usingDirective, globalAttribute, region (sym .topItem), blockNamespace,
    fileNamespace, typeDeclaration, .part .topStatement (sym .statement)]

def compilationUnit : SyntaxRule :=
  .seq [.many (sym .topItem), .unless anyToken]

end Forwarding.Syntax.Grammar
