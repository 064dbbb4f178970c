import Forwarding.Proofs.Syntax.Reading
import Forwarding.Syntax.Grammar

/-!
Laws of the grammar. Its tests look at the kind and the text of a token and at whether it stands
right behind the one before it, and they accept no token that is invalid. Its declarations are never
empty, and a body starts with a token of its own.
-/

namespace Forwarding.Syntax

/-- Two tokens that no test of the grammar can tell apart. -/
structure Token.Alike (t u : Token) : Prop where
  kind : t.kind = u.kind
  text : t.text = u.text
  adjacent : t.isAdjacent = u.isAdjacent

namespace Grammar

open Rule (Obeys AllObey Takes Opens Yields)

/-- The test does not tell tokens apart that are alike. -/
def Blind (accepts : Token → Bool) : Prop :=
  ∀ ⦃t u : Token⦄, t.Alike u → accepts t = accepts u

def Sound (accepts : Token → Bool) : Prop :=
  Blind accepts ∧ ∀ ⦃t : Token⦄, accepts t = true → t.kind ≠ .invalid

/-- The parts that become items of an outline. -/
def itemParts : List Part :=
  [.blockNamespace, .fileNamespace, .container, .method, .localFunction]

/-- What the nodes of a syntax tree look like inside. -/
def shape (p : Part) (trees : List Tree) : Prop :=
  (p = .body → ∃ t more, trees = .leaf t :: more) ∧ (p ∈ itemParts → tokensOf trees ≠ [])

abbrev Lawful (r : SyntaxRule) : Prop :=
  r.Obeys Sound (Yields grammar shape)

/-! ### The vocabulary -/

/-- A test for a kind of token with any condition on what alike tokens share. -/
theorem sound_of_kind {k : TokenKind} (valid : k ≠ .invalid) (f : String → Bool → Bool) :
    Sound fun t => t.kind = k && f t.text t.isAdjacent := by
  constructor
  · intro t u h
    simp only [h.kind, h.text, h.adjacent]
  · intro t accepted
    simp only [Bool.and_eq_true, decide_eq_true_eq] at accepted
    exact accepted.1 ▸ valid

section Vocabulary

variable {form : Part → SyntaxRule → Prop}

@[simp]
theorem obeys_sym (s : Sym) : (sym s).Obeys Sound form := trivial

@[simp]
theorem obeys_word (w : String) : (word w).Obeys Sound form :=
  sound_of_kind (k := .word) (by decide) fun s _ => s == w

@[simp]
theorem obeys_oneWord (ws : List String) : (oneWord ws).Obeys Sound form :=
  sound_of_kind (k := .word) (by decide) fun s _ => ws.contains s

@[simp]
theorem obeys_mark (m : String) : (mark m).Obeys Sound form :=
  sound_of_kind (k := .mark) (by decide) fun s _ => s == m

@[simp]
theorem obeys_oneMark (ms : List String) : (oneMark ms).Obeys Sound form :=
  sound_of_kind (k := .mark) (by decide) fun s _ => ms.contains s

@[simp]
theorem obeys_adjacentMark (m : String) : (adjacentMark m).Obeys Sound form := by
  have sound := sound_of_kind (k := .mark) (by decide) fun s adjacent => s == m && adjacent
  simpa only [adjacentMark, Obeys, Token.isMark, Bool.and_assoc] using sound

@[simp]
theorem obeys_kind {k : TokenKind} (valid : k ≠ .invalid) : (kind k).Obeys Sound form := by
  have sound := sound_of_kind valid fun _ _ => true
  simpa only [kind, Obeys, Bool.and_true] using sound

@[simp]
theorem obeys_anyWord : anyWord.Obeys Sound form :=
  obeys_kind (k := .word) (by decide)

@[simp]
theorem obeys_declaredName : declaredName.Obeys Sound form :=
  sound_of_kind (k := .word) (by decide) fun s _ => !reservedWords.contains s

@[simp]
theorem obeys_name : name.Obeys Sound form := by
  have sound := sound_of_kind (k := .word) (by decide) fun s _ =>
    s != "await" && !reservedWords.contains s
  simpa only [name, Obeys, Bool.and_assoc] using sound

@[simp]
theorem obeys_designation : designation.Obeys Sound form := by
  have sound := sound_of_kind (k := .word) (by decide) fun s _ =>
    !reservedWords.contains s && (!patternWords.contains s && !queryWords.contains s)
  simpa only [designation, Obeys, Bool.and_assoc] using sound

@[simp]
theorem obeys_directive (d : String) : (directive d).Obeys Sound form :=
  sound_of_kind (k := .directive) (by decide) fun s _ =>
    s.toList.filter Char.isAlpha == d.toList

@[simp]
theorem obeys_predefinedType : predefinedType.Obeys Sound form := obeys_oneWord _

@[simp]
theorem obeys_optional {r : SyntaxRule} :
    (optional r).Obeys Sound form ↔ r.Obeys Sound form := by
  simp [optional]

@[simp]
theorem obeys_commaList {r : SyntaxRule} :
    (commaList r).Obeys Sound form ↔ r.Obeys Sound form := by
  simp [commaList]

@[simp]
theorem obeys_inParens {r : SyntaxRule} :
    (inParens r).Obeys Sound form ↔ r.Obeys Sound form := by
  simp [inParens]

@[simp]
theorem obeys_inBrackets {r : SyntaxRule} :
    (inBrackets r).Obeys Sound form ↔ r.Obeys Sound form := by
  simp [inBrackets]

@[simp]
theorem obeys_inBraces {r : SyntaxRule} :
    (inBraces r).Obeys Sound form ↔ r.Obeys Sound form := by
  simp [inBraces]

end Vocabulary

/-- A part of which nothing is asked adds nothing to its rule. -/
@[simp]
theorem lawful_part {p : Part} {r : SyntaxRule} (inner : p ≠ .body) (plain : p ∉ itemParts) :
    Lawful (.part p r) ↔ Lawful r := by
  have yields : Yields grammar shape p r := fun _ _ _ _ =>
    ⟨fun body => absurd body inner, fun item => absurd item plain⟩
  exact and_iff_right yields

theorem lawful_item {p : Part} {r : SyntaxRule} (item : p ∈ itemParts) (takes : Takes grammar r)
    (lawful : Lawful r) : Lawful (.part p r) := by
  have inner : p ≠ .body := by
    rintro rfl
    exact absurd item (by decide)
  have yields : Yields grammar shape p r := fun _ _ _ read =>
    ⟨fun body => absurd body inner, fun _ => takes read⟩
  exact ⟨yields, lawful⟩

theorem lawful_body {r : SyntaxRule} (opens : Opens grammar r) (lawful : Lawful r) :
    Lawful (.part .body r) := by
  have yields : Yields grammar shape .body r := fun _ _ _ read =>
    ⟨fun _ => opens read, fun item => absurd item (by decide)⟩
  exact ⟨yields, lawful⟩

theorem opens_inBraces (r : SyntaxRule) : Opens grammar (inBraces r) :=
  (Rule.opens_token _).seq _

/-- A declaration that marks one token as its name is not empty. -/
theorem takes_named {rules : List SyntaxRule} (accepts : Token → Bool)
    (listed : .part .name (.token accepts) ∈ rules) : Takes grammar (.seq rules) :=
  ((Rule.takes_token accepts).part .name).seq listed

@[simp]
theorem lawful_region {r : SyntaxRule} : Lawful (region r) ↔ Lawful r := by
  simp [region, itemParts]

/-! ### Types and expressions -/

@[simp]
theorem lawful_qualifiedName : Lawful qualifiedName := by
  simp [qualifiedName, simpleName]

@[simp]
theorem lawful_arrayRank : Lawful arrayRank := by
  simp [arrayRank]

@[simp]
theorem lawful_baseType : Lawful baseType := by
  simp [baseType, tupleType, tupleElement, functionPointerType]

@[simp]
theorem lawful_testedType : Lawful testedType := by
  simp [testedType]

@[simp]
theorem lawful_expressionEnd : Lawful expressionEnd := by
  simp [expressionEnd]

@[simp]
theorem lawful_calledTypeArguments : Lawful calledTypeArguments := by
  simp [calledTypeArguments]

@[simp]
theorem lawful_argumentList : Lawful argumentList := by
  simp [argumentList]

@[simp]
theorem lawful_callSuffix : Lawful callSuffix := by
  simp [callSuffix]

@[simp]
theorem lawful_bracketedArguments : Lawful bracketedArguments := by
  simp [bracketedArguments]

@[simp]
theorem lawful_memberSuffix : Lawful memberSuffix := by
  simp [memberSuffix]

@[simp]
theorem lawful_assignmentOperator : Lawful assignmentOperator := by
  simp [assignmentOperator]

theorem lawful_primary : Lawful primary := by
  simp [primary, interpolatedText, creation, stackAllocation, arraySizes]

@[simp]
theorem lawful_lambda : Lawful lambda := by
  simp [lambda, lambdaBody, itemParts]

@[simp]
theorem lawful_query : Lawful query := by
  simp [query, queryClause, fromClause, joinClause]

theorem lawful_operandOf (this whole : Sym) {first : List SyntaxRule} (lawful : ∀ r ∈ first, Lawful r) :
    Lawful (operandOf this whole first) := by
  induction first with
  | nil => simp [operandOf, anonymousMethod, notCast, itemParts]
  | cons r first ih =>
    exact ⟨lawful r List.mem_cons_self, ih fun q mem => lawful q (List.mem_cons_of_mem r mem)⟩

theorem lawful_expressionOf (this single : Sym) : Lawful (expressionOf this single) := by
  simp [expressionOf, binaryOperator, convertedType, switchArms]

theorem lawful_pattern : Lawful pattern := by
  have constant : Lawful constantPattern := by simp [constantPattern]
  have property : Lawful propertyPattern := by simp [propertyPattern]
  have positional : Lawful positionalPattern := by simp [positionalPattern]
  have single : Lawful singlePattern := by
    simp [singlePattern, patternName, listPattern, constant, property, positional]
  simp [pattern, single]

/-! ### Statements -/

@[simp]
theorem lawful_variableDeclaration : Lawful variableDeclaration := by
  simp [variableDeclaration, variableDeclarator]

@[simp]
theorem lawful_typeParameters : Lawful typeParameters := by
  simp [typeParameters]

@[simp]
theorem lawful_constraints : Lawful constraints := by
  simp [constraints, typeConstraint]

@[simp]
theorem lawful_attributeUse : Lawful attributeUse := by
  simp [attributeUse]

@[simp]
theorem lawful_modifier : Lawful modifier := by
  simp [modifier, itemParts]

@[simp]
theorem lawful_parameters : Lawful parameters := by
  simp [parameters, parameter, parameterArray, parameterModifier, parameterType, itemParts]

@[simp]
theorem lawful_functionBody : Lawful functionBody := by
  have block : Lawful (.part .body (sym .block)) :=
    lawful_body (opens_inBraces _).symbol (obeys_sym .block)
  have arrow : Lawful (.part .body (.seq [mark "=>", sym .expression])) :=
    lawful_body ((Rule.opens_token _).seq _) (by simp)
  simp [functionBody, block, arrow]

theorem lawful_localFunction : Lawful localFunction := by
  apply lawful_item (by decide)
  · exact takes_named (fun t => t.kind = .word && !reservedWords.contains t.text)
      (by simp [declaredName])
  · simp [itemParts]

theorem lawful_statement : Lawful statement := by
  simp [statement, ifStatement, forStatement, foreachStatement, switchStatement, switchLabel,
    tryStatement, catchClause, usingStatement, jumpStatement, localDeclaration,
    expressionStatement, lawful_localFunction]

/-! ### Declarations -/

@[simp]
theorem lawful_declarationBody : Lawful declarationBody :=
  lawful_body (opens_inBraces _) (by simp)

@[simp]
theorem lawful_usingDirective : Lawful usingDirective := by
  simp [usingDirective, itemParts]

@[simp]
theorem lawful_closingSemicolon : Lawful closingSemicolon := by
  simp [closingSemicolon]

@[simp]
theorem lawful_namespaceName : Lawful namespaceName := by
  simp [namespaceName, itemParts]

@[simp]
theorem lawful_blockNamespace : Lawful blockNamespace := by
  apply lawful_item (by decide)
  · exact (Rule.takes_token _).seq List.mem_cons_self
  · simp

theorem lawful_fileNamespace : Lawful fileNamespace := by
  apply lawful_item (by decide)
  · exact (Rule.takes_token _).seq List.mem_cons_self
  · simp

theorem lawful_container : Lawful container := by
  apply lawful_item (by decide)
  · exact takes_named (fun t => t.kind = .word) (by simp [typeName, anyWord])
  · simp [containerKeyword, typeName, baseList, itemParts]

@[simp]
theorem lawful_typeDeclaration : Lawful typeDeclaration := by
  simp [typeDeclaration, lawful_container, enumDeclaration, enumMembers, enumMember,
    delegateDeclaration, itemParts]

@[simp]
theorem lawful_explicitInterface : Lawful explicitInterface := by
  simp [explicitInterface, simpleName]

theorem lawful_method : Lawful method := by
  apply lawful_item (by decide)
  · exact takes_named (fun t => t.kind = .word) (by simp [anyWord])
  · simp [itemParts]

@[simp]
theorem lawful_accessors : Lawful accessors := by
  simp [accessors]

@[simp]
theorem lawful_arrowBody : Lawful arrowBody := by
  simp [arrowBody]

theorem lawful_constructor : Lawful constructor := by
  have named : Lawful (.token fun t => t.kind = .word && !memberWords.contains t.text) :=
    sound_of_kind (k := .word) (by decide) fun s _ => !memberWords.contains s
  simpa [constructor, itemParts] using named

theorem lawful_declaration : Lawful declaration := by
  simp [declaration, lawful_method, lawful_constructor, destructor, operatorDeclaration,
    operatorMark, conversionDeclaration, indexer, property, eventDeclaration, fieldDeclaration,
    itemParts]

theorem lawful_topItem : Lawful topItem := by
  simp [topItem, externAlias, globalAttribute, lawful_fileNamespace, itemParts]

end Grammar

open Grammar in
/-- Every rule of the grammar obeys its laws. -/
theorem grammar_lawful (s : Sym) : Lawful (grammar s) := by
  cases s with
  | type => simp [grammar, type]
  | typeArguments => simp [grammar, typeArguments]
  | expression => exact lawful_expressionOf .expression .operand
  | guard => exact lawful_expressionOf .guard .guardOperand
  | operand => exact lawful_operandOf .operand .expression (by simp)
  | guardOperand => exact lawful_operandOf .guardOperand .guard (by simp)
  | primary => exact lawful_primary
  | argument => simp [grammar, argument, declarationExpression]
  | initializer => simp [grammar, initializer, elements]
  | pattern => exact lawful_pattern
  | tuplePattern => simp [grammar, tuplePattern]
  | afterCall => simp [grammar, afterCall]
  | afterName => simp [grammar, afterName]
  | parameterList => simp [grammar, parameterList, itemParts]
  | attributes => simp [grammar, attributes, attributeList, attributeTarget]
  | block => simp [grammar, block]
  | statement => exact lawful_statement
  | condition => simp [grammar, condition, condition.operandOf]
  | declaration => exact lawful_declaration
  | topItem => exact lawful_topItem

/-! ### Sources that are well formed -/

theorem parse_end {fuel : Nat} {ts rest : List Token} {trees : List Tree}
    (h : Rule.parse grammar (fuel + 3) (.seq [.unless Grammar.anyToken]) ts = some (trees, rest)) :
    ts = [] ∧ trees = [] ∧ rest = [] := by
  cases ts with
  | nil => simpa [Rule.parse, Grammar.anyToken, eq_comm] using h
  | cons t ts => simp [Rule.parse, Grammar.anyToken] at h

/-- Nothing is left behind a source that is read whole. -/
theorem reads_of_parse? {source : String} {trees : List Tree} (h : parse? source = some trees) :
    Rule.Reads grammar (.many (Grammar.sym .topItem)) (lex source) trees [] := by
  obtain ⟨⟨_, rest⟩, read, rfl⟩ := Option.map_eq_some_iff.mp h
  -- The items, the end behind them and the test of the end each go one step further down.
  obtain ⟨fuel, enough⟩ : ∃ fuel, depthPerToken * ((lex source).length + 1) = fuel + 4 :=
    ⟨depthPerToken * ((lex source).length + 1) - 4, by unfold depthPerToken; omega⟩
  rw [enough, Grammar.compilationUnit, Rule.parse] at read
  split at read
  · cases read
  · rename_i items
    split at read
    · cases read
    · rename_i last
      obtain ⟨rfl, rfl, rfl⟩ := parse_end last
      cases read
      rw [List.append_nil]
      exact Rule.reads_of_parse items

/-- The trees of a source have its tokens as their leaves. -/
theorem tokensOf_of_parse? {source : String} {trees : List Tree} (h : parse? source = some trees) :
    tokensOf trees = lex source := by
  simpa using (reads_of_parse? h).tokens

theorem valid_of_parse? {source : String} {trees : List Tree} (h : parse? source = some trees)
    {t : Token} (mem : t ∈ lex source) : t.kind ≠ .invalid := by
  rw [← tokensOf_of_parse? h] at mem
  obtain ⟨accepts, sound, accepted⟩ := (reads_of_parse? h).tested grammar_lawful trivial mem
  exact sound.2 accepted

theorem shaped_of_parse? {source : String} {trees : List Tree} (h : parse? source = some trees) :
    AllShaped Grammar.shape trees :=
  (reads_of_parse? h).shaped grammar_lawful trivial

end Forwarding.Syntax
