import Forwarding.Proofs.Syntax.Apart

/-!
The order of parts in a row. A parameter has at most one type, and its modifiers stand in front of
it: neither the attributes nor a default, even one with a whole function in it, add a modifier or a
type to the row. Like what a rule avoids, this is found out by a walk through the grammar.
-/

namespace Forwarding.Syntax

/-- No part `q` stands behind a part `p` in a row of trees. -/
def NoneBehind (p q : Part) (trees : List Tree) : Prop :=
  trees.Pairwise fun t u => t.hasPart p = true → u.hasPart q = false

theorem noneBehind_of_avoided {p q : Part} {trees : List Tree}
    (unmarked : ∀ t ∈ trees, t.hasPart q = false) : NoneBehind p q trees := by
  refine List.Pairwise.imp_of_mem ?_ (List.pairwise_of_forall fun _ _ => trivial)
  intro t u _ mem _ _
  exact unmarked u mem

namespace Rule

variable {σ : Type} [DecidableEq σ]

mutual

/-- No part `q` stands behind a part `p` in a row that the rule reads, if the rules of all symbols
but the exempted ones avoid both. -/
def sorts (p q : Part) (exempt : List σ) : Rule σ → Bool
  | .token _ | .ahead _ | .unless _ | .part _ _ => true
  | .seq rules => seqSorts p q exempt rules
  | .choice rules => allSort p q exempt rules
  | .many r => r.sorts p q exempt && (r.avoids [p] exempt || r.avoids [q] exempt)
  | .symbol t => t ∉ exempt

def seqSorts (p q : Part) (exempt : List σ) : List (Rule σ) → Bool
  | [] => true
  | r :: rules =>
    r.sorts p q exempt && seqSorts p q exempt rules &&
      (r.avoids [p] exempt || allAvoid [q] exempt rules)

def allSort (p q : Part) (exempt : List σ) : List (Rule σ) → Bool
  | [] => true
  | r :: rules => r.sorts p q exempt && allSort p q exempt rules

end

variable {p q : Part} {exempt : List σ}

theorem sorts_of_mem {r : Rule σ} {rules : List (Rule σ)} (h : allSort p q exempt rules = true)
    (listed : r ∈ rules) : r.sorts p q exempt = true := by
  induction rules with
  | nil => cases listed
  | cons s rules ih =>
    obtain ⟨first, others⟩ := Bool.and_eq_true_iff.mp h
    cases listed with
    | head => exact first
    | tail _ listed => exact ih others listed

section Reading

variable {grammar : σ → Rule σ}
  (before : ∀ s, s ∉ exempt → (grammar s).avoids [p] exempt = true)
  (behind : ∀ s, s ∉ exempt → (grammar s).avoids [q] exempt = true)

include before behind

/-- Two rows one after the other, the first without `p` or the second without `q`. -/
theorem Reads.noneBehind_append {r s : Rule σ} {ts middle rest : List Token}
    {front back : List Tree} (first : Reads grammar r ts front middle)
    (second : Reads grammar s middle back rest) (inFront : NoneBehind p q front)
    (inBack : NoneBehind p q back)
    (apart : (r.avoids [p] exempt || s.avoids [q] exempt) = true) : NoneBehind p q (front ++ back) := by
  refine List.pairwise_append.mpr ⟨inFront, inBack, ?_⟩
  intro t inside u beyond own
  rcases Bool.or_eq_true_iff.mp apart with avoided | avoided
  · rw [first.avoids before avoided t inside p (by simp)] at own
    cases own
  · exact second.avoids behind avoided u beyond q (by simp)

/-- What a rule sorts is in order in the rows it reads. -/
theorem Reads.sorts {rule : Rule σ} {ts rest : List Token} {trees : List Tree}
    (h : Reads grammar rule ts trees rest) (sorts : rule.sorts p q exempt = true) :
    NoneBehind p q trees := by
  induction h with
  | token | part => exact List.pairwise_singleton _ _
  | done | stop | ahead | «unless» => exact .nil
  | seq first others inFront inBack =>
    obtain ⟨each, apart⟩ := Bool.and_eq_true_iff.mp sorts
    obtain ⟨own, more⟩ := Bool.and_eq_true_iff.mp each
    exact first.noneBehind_append before behind others (inFront own) (inBack more) apart
  | more once again inFront inBack =>
    obtain ⟨own, apart⟩ := Bool.and_eq_true_iff.mp sorts
    exact once.noneBehind_append before behind again (inFront own) (inBack sorts) apart
  | choice listed _ ih => exact ih (sorts_of_mem sorts listed)
  | symbol inner =>
    have avoided := inner.avoids behind (behind _ (of_decide_eq_true sorts))
    exact noneBehind_of_avoided fun t mem => avoided t mem q (by simp)

end Reading

end Rule

/-! ### Parameters -/

namespace Grammar

/-- The symbols of statements; a declaration of variables has its modifiers in the row. -/
def statementSymbols : List Sym := [.block, .statement]

theorem avoids_typeAndModifier (s : Sym) (other : s ∉ statementSymbols) :
    (grammar s).avoids [.type] statementSymbols = true ∧
      (grammar s).avoids [.modifier] statementSymbols = true := by
  cases s with
  | block => exact absurd (by decide) other
  | statement => exact absurd (by decide) other
  | _ => exact ⟨rfl, rfl⟩

/-- The rule of a parameter with at most one type, and with no modifier behind it. -/
def typedOnce (p : Part) (r : SyntaxRule) : Prop :=
  p = .parameter →
    r.sorts .type .modifier statementSymbols = true ∧ r.sorts .type .type statementSymbols = true

instance (p : Part) (r : SyntaxRule) : Decidable (typedOnce p r) :=
  inferInstanceAs (Decidable (_ → _))

theorem obeys_typedOnce (s : Sym) : (grammar s).Obeys (fun _ => True) typedOnce := by
  cases s <;> decide

/-- A parameter has at most one type, and no modifier stands behind it. -/
def typeLast (p : Part) (trees : List Tree) : Prop :=
  p = .parameter → NoneBehind .type .modifier trees ∧ NoneBehind .type .type trees

end Grammar

theorem typeLast_of_parse? {source : String} {trees : List Tree}
    (h : parse? source = some trees) : AllShaped Grammar.typeLast trees := by
  have lawful (s : Sym) :
      (grammar s).Obeys (fun _ => True) (Rule.Yields grammar Grammar.typeLast) := by
    refine Rule.Obeys.mono (fun _ h => h) ?_ _ (Grammar.obeys_typedOnce s)
    intro p r once ts row rest read parameter
    obtain ⟨modifiers, types⟩ := once parameter
    have untyped (s : Sym) (other : s ∉ Grammar.statementSymbols) :=
      (Grammar.avoids_typeAndModifier s other).1
    have unmodified (s : Sym) (other : s ∉ Grammar.statementSymbols) :=
      (Grammar.avoids_typeAndModifier s other).2
    exact ⟨read.sorts untyped unmodified modifiers, read.sorts untyped untyped types⟩
  exact (reads_of_parse? h).shaped lawful trivial

end Forwarding.Syntax
