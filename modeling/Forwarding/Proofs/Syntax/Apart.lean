import Forwarding.Proofs.Syntax.GrammarLaws

/-!
What never stands directly in what. A statement outside all declarations and a local function are no
members of a type, and a namespace without a body has nothing in it but its name. These are properties
of the grammar as data, found out by a walk through its rules.
-/

namespace Forwarding.Syntax

namespace Rule

variable {σ : Type}

/-! ### Parts that a rule leaves out -/

section Avoiding

variable [DecidableEq σ]

mutual

/-- None of the parts `ps` stands in a row that the rule reads, other than inside another part, if
the rules of all symbols but the exempted ones read no such row either. -/
def avoids (ps : List Part) (exempt : List σ) : Rule σ → Bool
  | .token _ | .ahead _ | .unless _ => true
  | .seq rules | .choice rules => allAvoid ps exempt rules
  | .many r => r.avoids ps exempt
  | .part q _ => q ∉ ps
  | .symbol t => t ∉ exempt

def allAvoid (ps : List Part) (exempt : List σ) : List (Rule σ) → Bool
  | [] => true
  | r :: rules => r.avoids ps exempt && allAvoid ps exempt rules

end

mutual

/-- None of the parts `ps` stands directly in a body of a row that the rule reads, if the rules of all
symbols read no other bodies either. -/
def bodiesAvoid (ps : List Part) (exempt : List σ) : Rule σ → Bool
  | .token _ | .ahead _ | .unless _ | .symbol _ => true
  | .seq rules | .choice rules => allBodiesAvoid ps exempt rules
  | .many r => r.bodiesAvoid ps exempt
  | .part q r => q ≠ .body || r.avoids ps exempt

def allBodiesAvoid (ps : List Part) (exempt : List σ) : List (Rule σ) → Bool
  | [] => true
  | r :: rules => r.bodiesAvoid ps exempt && allBodiesAvoid ps exempt rules

end

variable {ps : List Part} {exempt : List σ}

theorem allAvoid_cons {r : Rule σ} {rules : List (Rule σ)} :
    allAvoid ps exempt (r :: rules) = true ↔
      r.avoids ps exempt = true ∧ allAvoid ps exempt rules = true :=
  Bool.and_eq_true_iff

theorem allBodiesAvoid_cons {r : Rule σ} {rules : List (Rule σ)} :
    allBodiesAvoid ps exempt (r :: rules) = true ↔
      r.bodiesAvoid ps exempt = true ∧ allBodiesAvoid ps exempt rules = true :=
  Bool.and_eq_true_iff

theorem avoids_of_mem {r : Rule σ} {rules : List (Rule σ)} (h : allAvoid ps exempt rules = true)
    (listed : r ∈ rules) : r.avoids ps exempt = true := by
  induction rules with
  | nil => cases listed
  | cons q rules ih =>
    obtain ⟨first, others⟩ := allAvoid_cons.mp h
    cases listed with
    | head => exact first
    | tail _ listed => exact ih others listed

theorem bodiesAvoid_of_mem {r : Rule σ} {rules : List (Rule σ)}
    (h : allBodiesAvoid ps exempt rules = true) (listed : r ∈ rules) :
    r.bodiesAvoid ps exempt = true := by
  induction rules with
  | nil => cases listed
  | cons q rules ih =>
    obtain ⟨first, others⟩ := allBodiesAvoid_cons.mp h
    cases listed with
    | head => exact first
    | tail _ listed => exact ih others listed

variable {grammar : σ → Rule σ} {rule : Rule σ} {ts rest : List Token} {trees : List Tree}

/-- What a rule avoids is not in the rows it reads. -/
theorem Reads.avoids (lawful : ∀ t, t ∉ exempt → (grammar t).avoids ps exempt = true)
    (h : Reads grammar rule ts trees rest) (avoids : rule.avoids ps exempt = true) :
    ∀ t ∈ trees, ∀ p ∈ ps, t.hasPart p = false := by
  induction h with
  | token =>
    intro t mem p _
    rw [List.mem_singleton.mp mem]
    rfl
  | done | stop | ahead | «unless» =>
    intro t mem
    cases mem
  | seq _ _ first others =>
    obtain ⟨front, back⟩ := allAvoid_cons.mp avoids
    intro t mem
    exact (List.mem_append.mp mem).elim (first front t) (others back t)
  | more _ _ once again =>
    intro t mem
    exact (List.mem_append.mp mem).elim (once avoids t) (again avoids t)
  | choice listed _ ih => exact ih (avoids_of_mem avoids listed)
  | part _ _ =>
    intro t mem p among
    rw [List.mem_singleton.mp mem]
    refine decide_eq_false ?_
    rintro rfl
    exact of_decide_eq_true avoids among
  | symbol _ ih => exact ih (lawful _ (of_decide_eq_true avoids))

/-- What the bodies of a rule avoid does not stand in the bodies it reads. -/
theorem Reads.bodiesAvoid (lawful : ∀ t, t ∉ exempt → (grammar t).avoids ps exempt = true)
    (bodies : ∀ t, (grammar t).bodiesAvoid ps exempt = true) (h : Reads grammar rule ts trees rest)
    (avoids : rule.bodiesAvoid ps exempt = true) :
    ∀ t ∈ trees, t.hasPart .body = true → ∀ u ∈ t.children, ∀ p ∈ ps, u.hasPart p = false := by
  induction h with
  | token =>
    intro t mem body
    rw [List.mem_singleton.mp mem] at body
    cases body
  | done | stop | ahead | «unless» =>
    intro t mem
    cases mem
  | seq _ _ first others =>
    obtain ⟨front, back⟩ := allBodiesAvoid_cons.mp avoids
    intro t mem
    exact (List.mem_append.mp mem).elim (first front t) (others back t)
  | more _ _ once again =>
    intro t mem
    exact (List.mem_append.mp mem).elim (once avoids t) (again avoids t)
  | choice listed _ ih => exact ih (bodiesAvoid_of_mem avoids listed)
  | part read _ =>
    intro t mem body
    rw [List.mem_singleton.mp mem] at body ⊢
    rw [Rule.bodiesAvoid, ← of_decide_eq_true body] at avoids
    exact read.avoids lawful (by simpa using avoids)
  | symbol _ ih => exact ih (bodies _)

end Avoiding

/-! ### Laws that can be found out -/

section Deciding

variable {form : Part → Rule σ → Prop} [∀ p r, Decidable (form p r)]

mutual

/-- Whether all parts of a rule have the form can be found out by a walk through it. -/
def decidableObeys : ∀ r : Rule σ, Decidable (r.Obeys (fun _ => True) form)
  | .token _ | .symbol _ => .isTrue trivial
  | .seq rules => decidableAllObey rules
  | .choice rules => decidableAllObey rules
  | .many r => r.decidableObeys
  | .ahead r => r.decidableObeys
  | .unless r => r.decidableObeys
  | .part p r => @instDecidableAnd (form p r) _ _ r.decidableObeys

def decidableAllObey : ∀ rules : List (Rule σ), Decidable (AllObey (fun _ => True) form rules)
  | [] => .isTrue trivial
  | r :: rules => @instDecidableAnd _ _ r.decidableObeys (decidableAllObey rules)

end

instance (r : Rule σ) : Decidable (r.Obeys (fun _ => True) form) := r.decidableObeys

end Deciding

end Rule

/-! ### What the grammar keeps apart -/

namespace Grammar

/-- The parts that are no members of a type. -/
def looseParts : List Part := [.topStatement, .localFunction]

/-- The symbols that may be read as rows with such parts. -/
def looseSymbols : List Sym := [.topItem, .statement, .block]

/-- The symbols that may be read as rows with items. -/
def itemSymbols : List Sym := .declaration :: looseSymbols

/-- The rule leaves out what never stands directly in the part. -/
def apartRule (p : Part) (r : SyntaxRule) : Prop :=
  (p = .fileNamespace → r.avoids (.topStatement :: itemParts) itemSymbols = true) ∧
    (p = .container → r.bodiesAvoid looseParts looseSymbols = true)

instance (p : Part) (r : SyntaxRule) : Decidable (apartRule p r) :=
  inferInstanceAs (Decidable (_ ∧ _))

/-- A namespace without a body holds no items, and the body of a type no statement and no local
function. -/
def apart (p : Part) (trees : List Tree) : Prop :=
  (p = .fileNamespace → ∀ t ∈ trees, ∀ q ∈ Part.topStatement :: itemParts, t.hasPart q = false) ∧
    (p = .container → ∀ t ∈ trees, t.hasPart .body = true →
      ∀ u ∈ t.children, ∀ q ∈ looseParts, u.hasPart q = false)

theorem avoids_looseParts (s : Sym) (other : s ∉ looseSymbols) :
    (grammar s).avoids looseParts looseSymbols = true := by
  cases s with
  | topItem | statement | block => exact absurd (by decide) other
  | _ => rfl

theorem avoids_itemParts (s : Sym) (other : s ∉ itemSymbols) :
    (grammar s).avoids (.topStatement :: itemParts) itemSymbols = true := by
  cases s with
  | topItem | statement | block | declaration => exact absurd (by decide) other
  | _ => rfl

theorem bodiesAvoid_looseParts (s : Sym) :
    (grammar s).bodiesAvoid looseParts looseSymbols = true := by
  cases s <;> rfl

theorem obeys_apartRule (s : Sym) : (grammar s).Obeys (fun _ => True) apartRule := by
  cases s <;> decide

end Grammar

theorem apart_of_parse? {source : String} {trees : List Tree} (h : parse? source = some trees) :
    AllShaped Grammar.apart trees := by
  have lawful (s : Sym) :
      (grammar s).Obeys (fun _ => True) (Rule.Yields grammar Grammar.apart) := by
    refine Rule.Obeys.mono (fun _ h => h) ?_ _ (Grammar.obeys_apartRule s)
    intro p r ⟨file, container⟩ ts row rest read
    refine ⟨fun same => ?_, fun same => ?_⟩
    · exact read.avoids Grammar.avoids_itemParts (file same)
    · exact read.bodiesAvoid Grammar.avoids_looseParts Grammar.bodiesAvoid_looseParts
        (container same)
  exact (reads_of_parse? h).shaped lawful trivial

end Forwarding.Syntax
