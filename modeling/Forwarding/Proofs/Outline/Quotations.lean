import Forwarding.Outline.OfTree
import Forwarding.Proofs.Outline.Bodies
import Forwarding.Proofs.Syntax.Likeness

/-!
The texts that an outline takes over as they are written: `using` directives, the names and
modifiers of declarations, and the types and parameters of methods. Where no comment stands inside
such a text, blanking the comments of the source does not change it.
-/

namespace Forwarding

open Syntax

/-- No comment stands inside the source of these neighbouring tokens. -/
def isPlain (ts : List Token) : Bool :=
  ts.tail.all fun t => !t.isCommented

theorem sourceOf_blanked {ts us : List Token} (h : List.Forall₂ Token.Blanked ts us)
    (plain : isPlain ts = true) : sourceOf us = sourceOf ts := by
  cases h with
  | nil => rfl
  | @cons t u ts us first rest =>
    have bare : ∀ t ∈ ts, t.isCommented = false := by simpa [isPlain] using plain
    have texts : us.map (fun u => u.lead ++ u.text) = ts.map (fun t => t.lead ++ t.text) := by
      clear plain
      induction rest with
      | nil => rfl
      | cons token _ ih =>
        rw [List.forall_mem_cons] at bare
        rw [List.map_cons, List.map_cons, token.lead bare.1, token.text, ih bare.2]
    rw [sourceOf, sourceOf, texts, first.text]

/-- Among some parts, none of the given kinds has a comment inside. -/
def arePlain (kinds : List Part) (parts : List Tree) : Bool :=
  parts.all fun t => !kinds.any t.hasPart || isPlain t.tokens

/-- The parts that a parameter is read from; without a name and a type it is its whole text. -/
def isPlainParameter (t : Tree) : Bool :=
  arePlain [.name, .type, .modifier] t.children &&
    ((t.child? .name).isSome && (t.child? .type).isSome || isPlain t.tokens)

/-- No comment stands inside what the outline takes over from a node with these parts. -/
def isUndisturbed (p : Part) (parts : List Tree) : Bool :=
  match p with
  | .usingDirective => isPlain (tokensOf parts)
  | .blockNamespace | .fileNamespace | .container => arePlain [.name, .modifier] parts
  | .method | .localFunction =>
    arePlain [.name, .modifier, .type] parts &&
      parts.all fun t => !t.hasPart .parameters || t.children.all isPlainParameter
  | _ => true

/-! ### Parts of trees that are alike -/

section Parts

variable {ts us : List Tree}

/-- The first part of a kind is found at the same place. -/
theorem find?_part (h : TreesLike Token.Blanked ts us) (p : Part) :
    (ts.find? (·.hasPart p) = none ∧ us.find? (·.hasPart p) = none) ∨
      ∃ inner inner', ts.find? (·.hasPart p) = some (.node p inner) ∧
        us.find? (·.hasPart p) = some (.node p inner') ∧ TreesLike Token.Blanked inner inner' := by
  induction h with
  | nil => exact .inl ⟨rfl, rfl⟩
  | leaf _ _ ih => simpa [Tree.hasPart] using ih
  | @node q inner inner' ts us inside _ _ ih =>
    by_cases same : p = q
    · subst same
      exact .inr ⟨inner, inner', by simp [Tree.hasPart], by simp [Tree.hasPart], inside⟩
    · simpa [Tree.hasPart, same] using ih

theorem text_of_like {p : Part} {inner inner' : List Tree}
    (h : TreesLike Token.Blanked inner inner') (plain : isPlain (tokensOf inner) = true) :
    (Syntax.Tree.node p inner').text = (Syntax.Tree.node p inner).text :=
  sourceOf_blanked h.tokens plain

theorem isPlain_of_find? {kinds : List Part} {p : Part} {inner : List Tree}
    (plain : arePlain kinds ts = true) (listed : p ∈ kinds)
    (found : ts.find? (·.hasPart p) = some (.node p inner)) : isPlain (tokensOf inner) = true := by
  have mem := List.mem_of_find?_eq_some found
  have here := List.all_eq_true.mp plain _ mem
  have kind : kinds.any (Syntax.Tree.node p inner).hasPart = true :=
    List.any_eq_true.mpr ⟨p, listed, by simp [Tree.hasPart]⟩
  rw [kind] at here
  simpa [Tree.tokens] using here

theorem partText?_of_like (h : TreesLike Token.Blanked ts us) {kinds : List Part}
    (plain : arePlain kinds ts = true) {p : Part} (listed : p ∈ kinds) :
    partText? us p = partText? ts p := by
  rcases find?_part h p with ⟨left, right⟩ | ⟨inner, inner', left, right, inside⟩
  · rw [partText?, partText?, left, right]
  · rw [partText?, partText?, left, right, Option.map_some, Option.map_some,
      text_of_like inside (isPlain_of_find? plain listed left)]

theorem modifiersOf_of_like (h : TreesLike Token.Blanked ts us) {kinds : List Part}
    (plain : arePlain kinds ts = true) (listed : .modifier ∈ kinds) :
    modifiersOf us = modifiersOf ts := by
  induction h with
  | nil => rfl
  | leaf _ _ ih =>
    rw [arePlain, List.all_cons, Bool.and_eq_true] at plain
    exact ih plain.2
  | @node q inner inner' ts us inside _ _ ih =>
    have first := plain
    rw [arePlain, List.all_cons, Bool.and_eq_true] at plain
    by_cases modifier : q = .modifier
    · subst modifier
      have same := text_of_like (p := .modifier) inside
        (isPlain_of_find? first listed (by simp [Tree.hasPart]))
      simpa [modifiersOf, Tree.hasPart, same] using ih plain.2
    · simpa [modifiersOf, Tree.hasPart, Ne.symm modifier] using ih plain.2

end Parts

/-! ### Signatures -/

section Signatures

variable {p : Part} {ts us inner inner' : List Tree}

theorem child?_node (q : Part) :
    (Syntax.Tree.node p inner).child? q = inner.find? (·.hasPart q) := rfl

/-- The name or the type of a parameter is left out. -/
def isShort (t : Tree) : Prop :=
  t.child? .name = none ∨ t.child? .type = none

theorem parameterOf_short {t : Tree} (short : isShort t) :
    parameterOf t = Parameter.ofText t.text := by
  unfold parameterOf
  rcases short with missing | missing
  · rw [missing]
  · rw [missing]
    cases t.child? .name <;> rfl

theorem parameterArrayOf?_short {t : Tree} (short : isShort t) : parameterArrayOf? t = none := by
  unfold parameterArrayOf?
  rcases short with missing | missing
  · rw [missing]
  · rw [missing]
    cases t.child? .name <;> rfl

/-- Either a name and a type are found on both sides, with the same texts, or on neither side, and
then the whole texts are the same. -/
theorem parameter_cases (h : TreesLike Token.Blanked inner inner')
    (plain : isPlainParameter (.node p inner) = true) :
    (∃ name type name' type', (Syntax.Tree.node p inner).child? .name = some name ∧
      (Syntax.Tree.node p inner).child? .type = some type ∧
      (Syntax.Tree.node p inner').child? .name = some name' ∧
      (Syntax.Tree.node p inner').child? .type = some type' ∧
      name'.text = name.text ∧ type'.text = type.text) ∨
    (isShort (.node p inner) ∧ isShort (.node p inner') ∧
      (Syntax.Tree.node p inner').text = (Syntax.Tree.node p inner).text) := by
  simp only [isPlainParameter, Bool.and_eq_true, Bool.or_eq_true, isShort, child?_node] at plain ⊢
  obtain ⟨parts, whole⟩ := plain
  rcases find?_part h .name with ⟨noName, noName'⟩ | ⟨name, name', isName, isName', names⟩
  · have plain : isPlain (tokensOf inner) = true := whole.resolve_left (by simp [noName])
    exact .inr ⟨.inl noName, .inl noName', text_of_like h plain⟩
  · rcases find?_part h .type with ⟨noType, noType'⟩ | ⟨type, type', isType, isType', types⟩
    · have plain : isPlain (tokensOf inner) = true := whole.resolve_left (by simp [noType])
      exact .inr ⟨.inr noType, .inr noType', text_of_like h plain⟩
    · exact .inl ⟨_, _, _, _, isName, isType, isName', isType',
        text_of_like names (isPlain_of_find? parts (by decide) isName),
        text_of_like types (isPlain_of_find? parts (by decide) isType)⟩

theorem parameterOf_of_like (h : TreesLike Token.Blanked inner inner')
    (plain : isPlainParameter (.node p inner) = true) :
    parameterOf (.node p inner') = parameterOf (.node p inner) := by
  have parts := (Bool.and_eq_true_iff.mp plain).1
  have modifiers : modifiersOf inner' = modifiersOf inner :=
    modifiersOf_of_like h parts (by decide)
  rcases parameter_cases h plain with
    ⟨name, type, name', type', isName, isType, isName', isType', names, types⟩ |
      ⟨short, short', whole⟩
  · unfold parameterOf
    rw [isName, isType, isName', isType']
    simp only [Tree.children, squashedText, names, types, modifiers]
  · rw [parameterOf_short short, parameterOf_short short', whole]

theorem parameterArrayOf?_of_like (h : TreesLike Token.Blanked inner inner')
    (plain : isPlainParameter (.node p inner) = true) :
    parameterArrayOf? (.node p inner') = parameterArrayOf? (.node p inner) := by
  rcases parameter_cases h plain with
    ⟨name, type, name', type', isName, isType, isName', isType', names, types⟩ |
      ⟨short, short', _⟩
  · unfold parameterArrayOf?
    rw [isName, isType, isName', isType']
    simp only [squashedText, names, types]
  · rw [parameterArrayOf?_short short, parameterArrayOf?_short short']

theorem parametersOf_of_like (h : TreesLike Token.Blanked ts us)
    (plain : ts.all isPlainParameter = true) : parametersOf us = parametersOf ts := by
  induction h with
  | nil => rfl
  | leaf _ _ ih =>
    rw [List.all_cons, Bool.and_eq_true] at plain
    simp only [parametersOf, Tree.hasPart, ih plain.2]
    rfl
  | @node q inner inner' ts us inside _ _ ih =>
    rw [List.all_cons, Bool.and_eq_true] at plain
    simp only [parametersOf, parameterOf_of_like inside plain.1,
      parameterArrayOf?_of_like inside plain.1, ih plain.2]
    rfl

theorem signatureOf_of_like (h : TreesLike Token.Blanked ts us)
    (types : arePlain [.name, .modifier, .type] ts = true)
    (parameters : (ts.all fun t =>
      !t.hasPart .parameters || t.children.all isPlainParameter) = true) :
    signatureOf us = signatureOf ts := by
  unfold signatureOf
  rcases find?_part h .type with ⟨noType, noType'⟩ | ⟨type, type', isType, isType', inType⟩
  · rw [noType, noType']
  · rcases find?_part h .parameters with ⟨noList, noList'⟩ | ⟨list, list', isList, isList', inList⟩
    · rw [isType, isType', noList, noList']
    · have text := text_of_like (p := .type) inType (isPlain_of_find? types (by decide) isType)
      have plain : list.all isPlainParameter = true := by
        have here := List.all_eq_true.mp parameters _ (List.mem_of_find?_eq_some isList)
        simpa [Tree.hasPart, Tree.children] using here
      rw [isType, isType', isList, isList']
      simp only [Tree.children, parametersOf_of_like inList plain, squashedText, text]

end Signatures

end Forwarding
