import Forwarding.Proofs.Syntax.Relexing
import Mathlib.Data.Option.Basic

/-!
Reading tokens that are alike. The tests of the grammar cannot tell such tokens apart, so the trees
have the same shape, with tokens that are alike at their leaves.
-/

namespace Forwarding.Syntax

/-- Rows of trees of one shape, with related tokens at their leaves. -/
inductive TreesLike (related : Token → Token → Prop) : List Tree → List Tree → Prop where
  | nil : TreesLike related [] []
  | leaf {t u ts us} (token : related t u) (rest : TreesLike related ts us) :
      TreesLike related (.leaf t :: ts) (.leaf u :: us)
  | node {p children children' ts us} (inner : TreesLike related children children')
      (rest : TreesLike related ts us) :
      TreesLike related (.node p children :: ts) (.node p children' :: us)

namespace TreesLike

variable {related : Token → Token → Prop} {ts us ts' us' : List Tree}

theorem append (h : TreesLike related ts us) (h' : TreesLike related ts' us') :
    TreesLike related (ts ++ ts') (us ++ us') := by
  induction h with
  | nil => exact h'
  | leaf token _ ih => exact .leaf token ih
  | node inner _ _ ih => exact .node inner ih

theorem tokens (h : TreesLike related ts us) :
    List.Forall₂ related (tokensOf ts) (tokensOf us) := by
  induction h with
  | nil => exact .nil
  | leaf token _ ih => exact .cons token ih
  | node _ _ inner rest =>
    simp only [tokensOf, Tree.tokens]
    exact List.rel_append inner rest

end TreesLike

namespace Rule

variable {σ : Type} {grammar : σ → Rule σ} {test : (Token → Bool) → Prop}
  {form : Part → Rule σ → Prop}

/-- What was read and what is left, from two rows of related tokens. -/
def Alongside (related : Token → Token → Prop) (x y : List Tree × List Token) : Prop :=
  TreesLike related x.1 y.1 ∧ List.Forall₂ related x.2 y.2

theorem rel_cases {related : Token → Token → Prop} {x y : Option (List Tree × List Token)}
    (h : Option.Rel (Alongside related) x y) :
    (∃ a b, x = some a ∧ y = some b ∧ Alongside related a b) ∨ x = none ∧ y = none := by
  cases h with
  | some both => exact .inl ⟨_, _, rfl, rfl, both⟩
  | none => exact .inr ⟨rfl, rfl⟩

/-- Rows of tokens that no test can tell apart are read alike. -/
theorem parse_alongside {related : Token → Token → Prop}
    (blind : ∀ ⦃accepts⦄, test accepts → ∀ ⦃t u⦄, related t u → accepts t = accepts u)
    (lawful : ∀ s, (grammar s).Obeys test form) {fuel : Nat} {rule : Rule σ}
    (obeys : rule.Obeys test form) {ts us : List Token} (h : List.Forall₂ related ts us) :
    Option.Rel (Alongside related) (rule.parse grammar fuel ts) (rule.parse grammar fuel us) := by
  induction fuel generalizing rule ts us with
  | zero => exact .none
  | succ fuel ih =>
    cases rule with
    | token accepts =>
      cases h with
      | nil => exact .none
      | cons first rest =>
        simp only [parse, blind obeys first]
        split
        · exact .some ⟨.leaf first .nil, rest⟩
        · exact .none
    | seq rules =>
      cases rules with
      | nil => exact .some ⟨.nil, h⟩
      | cons r rules =>
        obtain ⟨a, b, left, right, both⟩ | ⟨left, right⟩ := rel_cases (ih obeys.1 h)
        · obtain ⟨c, d, left', right', more⟩ | ⟨left', right'⟩ :=
            rel_cases (ih (obeys_seq.mpr obeys.2) both.2)
          · simp only [parse, left, right, left', right']
            exact .some ⟨both.1.append more.1, more.2⟩
          · simp only [parse, left, right, left', right']
            exact .none
        · simp only [parse, left, right]
          exact .none
    | choice rules =>
      cases rules with
      | nil => exact .none
      | cons r rules =>
        obtain ⟨a, b, left, right, both⟩ | ⟨left, right⟩ := rel_cases (ih obeys.1 h)
        · simp only [parse, left, right]
          exact .some both
        · simp only [parse, left, right]
          exact ih (obeys_choice.mpr obeys.2) h
    | many r =>
      obtain ⟨a, b, left, right, both⟩ | ⟨left, right⟩ := rel_cases (ih (obeys_many.mp obeys) h)
      · obtain ⟨c, d, left', right', more⟩ | ⟨left', right'⟩ := rel_cases (ih obeys both.2)
        · simp only [parse, left, right, left', right']
          exact .some ⟨both.1.append more.1, more.2⟩
        · simp only [parse, left, right, left', right']
          exact .none
      · simp only [parse, left, right]
        exact .some ⟨.nil, h⟩
    | ahead r =>
      obtain ⟨a, b, left, right, both⟩ | ⟨left, right⟩ := rel_cases (ih (obeys_ahead.mp obeys) h)
      · simp only [parse, left, right]
        exact .some ⟨.nil, h⟩
      · simp only [parse, left, right]
        exact .none
    | «unless» r =>
      obtain ⟨a, b, left, right, both⟩ | ⟨left, right⟩ := rel_cases (ih (obeys_unless.mp obeys) h)
      · simp only [parse, left, right]
        exact .none
      · simp only [parse, left, right]
        exact .some ⟨.nil, h⟩
    | part p r =>
      obtain ⟨a, b, left, right, both⟩ | ⟨left, right⟩ := rel_cases (ih obeys.2 h)
      · simp only [parse, left, right]
        exact .some ⟨.node both.1 .nil, both.2⟩
      · simp only [parse, left, right]
        exact .none
    | symbol s => exact ih (lawful s) h

end Rule

/-- A source whose tokens are those of a well-formed source, up to the comments in front of them, is
well formed, and its trees are those of the source, up to these comments. -/
theorem parse?_of_blanked {source source' : String} {trees : List Tree}
    (h : List.Forall₂ Token.Blanked (lex source) (lex source')) (read : parse? source = some trees) :
    ∃ trees', parse? source' = some trees' ∧ TreesLike Token.Blanked trees trees' := by
  have blind : ∀ ⦃accepts⦄, Grammar.Blind accepts → ∀ ⦃t u : Token⦄, t.Blanked u →
      accepts t = accepts u := fun _ blind _ _ related => blind related.toAlike
  have lawful (s : Sym) : (grammar s).Obeys Grammar.Blind (Rule.Yields grammar Grammar.shape) :=
    Rule.Obeys.mono (fun _ => And.left) (fun _ _ h => h) _ (grammar_lawful s)
  have whole : Grammar.compilationUnit.Obeys Grammar.Blind (Rule.Yields grammar Grammar.shape) :=
    ⟨trivial, fun _ _ _ => rfl, trivial⟩
  obtain ⟨⟨_, rest⟩, found, rfl⟩ := Option.map_eq_some_iff.mp read
  rw [parse?, ← h.length_eq]
  obtain ⟨a, b, left, right, both⟩ | ⟨left, right⟩ :=
    Rule.rel_cases (Rule.parse_alongside blind lawful whole h)
  · cases left.symm.trans found
    exact ⟨b.1, congrArg _ right, both.1⟩
  · cases left.symm.trans found

/-- Blanking the comments of a well-formed source leaves its trees, up to these comments. -/
theorem parse?_uncommented (w : Filler) {source : String} {trees : List Tree}
    (read : parse? source = some trees) :
    ∃ trees', parse? (uncommented w source) = some trees' ∧
      TreesLike Token.Blanked trees trees' :=
  parse?_of_blanked (blanked_lex w fun _ mem => valid_of_parse? read mem) read

end Forwarding.Syntax
