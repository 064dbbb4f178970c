import Forwarding.Syntax.Rule

/-!
What rules read. `Rule.Reads` says how a rule comes to take the front of a row of tokens, and what
holds of the trees it builds is shown by induction on that. Nothing here depends on one grammar.
-/

namespace Forwarding.Syntax

/-! ### Trees -/

/-- Induction over a row of trees: a node is met with what is known of its children. -/
@[elab_as_elim]
theorem treesInduction {motive : List Tree → Prop} (nil : motive [])
    (leaf : ∀ t ts, motive ts → motive (.leaf t :: ts))
    (node : ∀ p children ts, motive children → motive ts → motive (.node p children :: ts)) :
    ∀ ts, motive ts
  | [] => nil
  | .leaf t :: ts => leaf t ts (treesInduction nil leaf node ts)
  | .node p children :: ts =>
    node p children ts (treesInduction nil leaf node children) (treesInduction nil leaf node ts)

@[simp]
theorem tokensOf_append (ts us : List Tree) : tokensOf (ts ++ us) = tokensOf ts ++ tokensOf us := by
  induction ts with
  | nil => rfl
  | cons t ts ih => simp only [List.cons_append, tokensOf, ih, List.append_assoc]

mutual

/-- Every node of a tree has the shape that its part asks for. -/
def Tree.Shaped (shape : Part → List Tree → Prop) : Tree → Prop
  | .leaf _ => True
  | .node p children => shape p children ∧ AllShaped shape children

/-- Every node of a row of trees has the shape that its part asks for. -/
def AllShaped (shape : Part → List Tree → Prop) : List Tree → Prop
  | [] => True
  | t :: ts => t.Shaped shape ∧ AllShaped shape ts

end

mutual

/-- Whether a tree has the shape can be found out by a walk through it. -/
def Tree.decidableShaped {shape : Part → List Tree → Prop} [∀ p ts, Decidable (shape p ts)] :
    ∀ t : Tree, Decidable (t.Shaped shape)
  | .leaf _ => .isTrue trivial
  | .node p children => @instDecidableAnd (shape p children) _ _ (decidableAllShaped children)

def decidableAllShaped {shape : Part → List Tree → Prop} [∀ p ts, Decidable (shape p ts)] :
    ∀ ts : List Tree, Decidable (AllShaped shape ts)
  | [] => .isTrue trivial
  | t :: ts => @instDecidableAnd _ _ t.decidableShaped (decidableAllShaped ts)

end

instance {shape : Part → List Tree → Prop} [∀ p ts, Decidable (shape p ts)] (ts : List Tree) :
    Decidable (AllShaped shape ts) :=
  decidableAllShaped ts

theorem allShaped_append {shape : Part → List Tree → Prop} {ts us : List Tree} :
    AllShaped shape (ts ++ us) ↔ AllShaped shape ts ∧ AllShaped shape us := by
  induction ts with
  | nil => simp [AllShaped]
  | cons t ts ih => simp only [List.cons_append, AllShaped, ih, and_assoc]

theorem AllShaped.mono {shape shape' : Part → List Tree → Prop}
    (weaker : ∀ p ts, shape p ts → shape' p ts) {ts : List Tree} (h : AllShaped shape ts) :
    AllShaped shape' ts := by
  induction ts using treesInduction with
  | nil => exact trivial
  | leaf t ts ih => exact ⟨trivial, ih h.2⟩
  | node p children ts inner rest => exact ⟨⟨weaker p children h.1.1, inner h.1.2⟩, rest h.2⟩

namespace Rule

variable {σ : Type} {grammar : σ → Rule σ}

/-! ### Readings -/

/-- A rule takes the front of a row of tokens, makes trees of it and leaves the rest. Nothing is
taken ahead, and why an earlier choice did not fit is not kept. -/
inductive Reads (grammar : σ → Rule σ) :
    Rule σ → List Token → List Tree → List Token → Prop where
  | token {accepts t rest} (accepted : accepts t = true) :
      Reads grammar (.token accepts) (t :: rest) [.leaf t] rest
  | done {ts} : Reads grammar (.seq []) ts [] ts
  | seq {r rules ts front middle back rest} (first : Reads grammar r ts front middle)
      (others : Reads grammar (.seq rules) middle back rest) :
      Reads grammar (.seq (r :: rules)) ts (front ++ back) rest
  | choice {r rules ts trees rest} (listed : r ∈ rules) (fits : Reads grammar r ts trees rest) :
      Reads grammar (.choice rules) ts trees rest
  | stop {r ts} : Reads grammar (.many r) ts [] ts
  | more {r ts front middle back rest} (once : Reads grammar r ts front middle)
      (again : Reads grammar (.many r) middle back rest) :
      Reads grammar (.many r) ts (front ++ back) rest
  | ahead {r ts} : Reads grammar (.ahead r) ts [] ts
  | unless {r ts} : Reads grammar (.unless r) ts [] ts
  | part {p r ts trees rest} (inner : Reads grammar r ts trees rest) :
      Reads grammar (.part p r) ts [.node p trees] rest
  | symbol {s ts trees rest} (inner : Reads grammar (grammar s) ts trees rest) :
      Reads grammar (.symbol s) ts trees rest

theorem reads_of_parse {fuel : Nat} {rule : Rule σ} {ts rest : List Token} {trees : List Tree}
    (h : rule.parse grammar fuel ts = some (trees, rest)) : Reads grammar rule ts trees rest := by
  induction fuel generalizing rule ts trees rest with
  | zero => cases h
  | succ fuel ih =>
    cases rule with
    | token accepts =>
      cases ts with
      | nil => cases h
      | cons t ts =>
        simp only [parse, Option.ite_none_right_eq_some] at h
        obtain ⟨accepted, read⟩ := h
        cases read
        exact .token accepted
    | seq rules =>
      cases rules with
      | nil => cases h; exact .done
      | cons r rules =>
        simp only [parse] at h
        split at h
        · cases h
        · rename_i first
          split at h
          · cases h
          · rename_i others
            cases h
            exact .seq (ih first) (ih others)
    | choice rules =>
      cases rules with
      | nil => cases h
      | cons r rules =>
        simp only [parse] at h
        split at h
        · rename_i fits
          cases h
          exact .choice List.mem_cons_self (ih fits)
        · cases ih h with
          | choice listed fits => exact .choice (List.mem_cons_of_mem r listed) fits
    | many r =>
      simp only [parse] at h
      split at h
      · cases h; exact .stop
      · rename_i once
        split at h
        · cases h
        · rename_i again
          cases h
          exact .more (ih once) (ih again)
    | ahead r =>
      simp only [parse] at h
      split at h <;> cases h
      exact .ahead
    | «unless» r =>
      simp only [parse] at h
      split at h <;> cases h
      exact .unless
    | part p r =>
      simp only [parse] at h
      split at h
      · rename_i inner
        cases h
        exact .part (ih inner)
      · cases h
    | symbol s => exact .symbol (ih h)

/-- The tokens a rule takes are the leaves of its trees. -/
theorem Reads.tokens {rule : Rule σ} {ts rest : List Token} {trees : List Tree}
    (h : Reads grammar rule ts trees rest) : tokensOf trees ++ rest = ts := by
  induction h with
  | token => rfl
  | done | stop | ahead | «unless» => rfl
  | seq _ _ first others => rw [tokensOf_append, List.append_assoc, others, first]
  | more _ _ once again => rw [tokensOf_append, List.append_assoc, again, once]
  | choice _ _ ih | symbol _ ih => exact ih
  | part _ ih => simpa [tokensOf, Tree.tokens] using ih

/-! ### Rules that obey a law -/

mutual

/-- Every test of a rule meets `test`, those ahead included, and every part of it `form`. -/
def Obeys (test : (Token → Bool) → Prop) (form : Part → Rule σ → Prop) : Rule σ → Prop
  | .token accepts => test accepts
  | .seq rules | .choice rules => AllObey test form rules
  | .many r | .ahead r | .unless r => r.Obeys test form
  | .part p r => form p r ∧ r.Obeys test form
  | .symbol _ => True

def AllObey (test : (Token → Bool) → Prop) (form : Part → Rule σ → Prop) : List (Rule σ) → Prop
  | [] => True
  | r :: rules => r.Obeys test form ∧ AllObey test form rules

end

section Equations

variable {test : (Token → Bool) → Prop} {form : Part → Rule σ → Prop} {r : Rule σ}
  {rules : List (Rule σ)}

@[simp]
theorem obeys_seq : (Rule.seq rules).Obeys test form ↔ AllObey test form rules := Iff.rfl

@[simp]
theorem obeys_choice : (Rule.choice rules).Obeys test form ↔ AllObey test form rules := Iff.rfl

@[simp]
theorem obeys_many : (Rule.many r).Obeys test form ↔ r.Obeys test form := Iff.rfl

@[simp]
theorem obeys_ahead : (Rule.ahead r).Obeys test form ↔ r.Obeys test form := Iff.rfl

@[simp]
theorem obeys_unless : (Rule.unless r).Obeys test form ↔ r.Obeys test form := Iff.rfl

@[simp]
theorem allObey_nil : AllObey test form ([] : List (Rule σ)) := trivial

@[simp]
theorem allObey_cons :
    AllObey test form (r :: rules) ↔ r.Obeys test form ∧ AllObey test form rules := Iff.rfl

theorem AllObey.of_mem (h : AllObey test form rules) (listed : r ∈ rules) : r.Obeys test form := by
  induction rules with
  | nil => cases listed
  | cons q rules ih =>
    cases listed with
    | head => exact h.1
    | tail _ listed => exact ih h.2 listed

end Equations

section Weakening

variable {test test' : (Token → Bool) → Prop} {form form' : Part → Rule σ → Prop}

mutual

/-- Who obeys a law obeys every weaker one. -/
theorem Obeys.mono (tests : ∀ accepts, test accepts → test' accepts)
    (forms : ∀ p r, form p r → form' p r) : ∀ r : Rule σ, r.Obeys test form → r.Obeys test' form'
  | .token _, h => tests _ h
  | .seq rules, h => AllObey.mono tests forms rules h
  | .choice rules, h => AllObey.mono tests forms rules h
  | .many r, h => Obeys.mono tests forms r h
  | .ahead r, h => Obeys.mono tests forms r h
  | .unless r, h => Obeys.mono tests forms r h
  | .part _ r, h => ⟨forms _ _ h.1, Obeys.mono tests forms r h.2⟩
  | .symbol _, _ => trivial

theorem AllObey.mono (tests : ∀ accepts, test accepts → test' accepts)
    (forms : ∀ p r, form p r → form' p r) :
    ∀ rules : List (Rule σ), AllObey test form rules → AllObey test' form' rules
  | [], _ => trivial
  | r :: rules, h => ⟨Obeys.mono tests forms r h.1, AllObey.mono tests forms rules h.2⟩

end

end Weakening

/-- The form of a part under which all that it reads has a given shape. -/
def Yields (grammar : σ → Rule σ) (shape : Part → List Tree → Prop) (p : Part) (r : Rule σ) :
    Prop :=
  ∀ ⦃ts trees rest⦄, Reads grammar r ts trees rest → shape p trees

section Obeying

variable {test : (Token → Bool) → Prop} {shape : Part → List Tree → Prop} {rule : Rule σ}
  {ts rest : List Token} {trees : List Tree}

/-- What holds of each rule of a grammar holds of each node that is read by it. -/
theorem Reads.shaped (lawful : ∀ s, (grammar s).Obeys test (Yields grammar shape))
    (h : Reads grammar rule ts trees rest) (obeys : rule.Obeys test (Yields grammar shape)) :
    AllShaped shape trees := by
  induction h with
  | token => exact ⟨trivial, trivial⟩
  | done | stop | ahead | «unless» => exact trivial
  | seq _ _ first others => exact allShaped_append.mpr ⟨first obeys.1, others obeys.2⟩
  | more _ _ once again => exact allShaped_append.mpr ⟨once obeys, again obeys⟩
  | choice listed _ ih => exact ih (AllObey.of_mem obeys listed)
  | part inner ih => exact ⟨⟨obeys.1 inner, ih obeys.2⟩, trivial⟩
  | symbol _ ih => exact ih (lawful _)

/-- Each token that is taken has passed one of the tests. -/
theorem Reads.tested {form : Part → Rule σ → Prop} (lawful : ∀ s, (grammar s).Obeys test form)
    (h : Reads grammar rule ts trees rest) (obeys : rule.Obeys test form) {t : Token}
    (mem : t ∈ tokensOf trees) : ∃ accepts, test accepts ∧ accepts t = true := by
  induction h with
  | token accepted =>
    obtain rfl : t = _ := by simpa [tokensOf, Tree.tokens] using mem
    exact ⟨_, obeys, accepted⟩
  | done | stop | ahead | «unless» => cases mem
  | seq _ _ first others =>
    rw [tokensOf_append, List.mem_append] at mem
    exact mem.elim (first obeys.1) (others obeys.2)
  | more _ _ once again =>
    rw [tokensOf_append, List.mem_append] at mem
    exact mem.elim (once obeys) (again obeys)
  | choice listed _ ih => exact ih (AllObey.of_mem obeys listed) mem
  | part inner ih => exact ih obeys.2 (by simpa [tokensOf, Tree.tokens] using mem)
  | symbol _ ih => exact ih (lawful _) mem

end Obeying

/-! ### Rules that take something -/

/-- The rule takes at least one token. -/
def Takes (grammar : σ → Rule σ) (r : Rule σ) : Prop :=
  ∀ ⦃ts trees rest⦄, Reads grammar r ts trees rest → tokensOf trees ≠ []

/-- The rule takes a token first that lies in no part of it. -/
def Opens (grammar : σ → Rule σ) (r : Rule σ) : Prop :=
  ∀ ⦃ts trees rest⦄, Reads grammar r ts trees rest → ∃ t more, trees = .leaf t :: more

theorem takes_token (accepts : Token → Bool) : Takes grammar (.token accepts) := by
  rintro _ _ _ (_ | _)
  exact List.cons_ne_nil _ _

theorem Takes.part {r : Rule σ} (h : Takes grammar r) (p : Part) : Takes grammar (.part p r) := by
  rintro _ _ _ (_ | _)
  rename_i inner
  simpa [tokensOf, Tree.tokens] using h inner

theorem Takes.seq {r : Rule σ} {rules : List (Rule σ)} (h : Takes grammar r) (listed : r ∈ rules) :
    Takes grammar (.seq rules) := by
  induction rules with
  | nil => cases listed
  | cons q rules ih =>
    rintro _ _ _ (_ | _)
    rename_i first others
    rw [tokensOf_append]
    cases listed with
    | head => exact List.append_ne_nil_of_left_ne_nil (h first) _
    | tail _ listed => exact List.append_ne_nil_of_right_ne_nil _ (ih listed others)

theorem opens_token (accepts : Token → Bool) : Opens grammar (.token accepts) := by
  rintro _ _ _ (_ | _)
  exact ⟨_, _, rfl⟩

theorem Opens.seq {r : Rule σ} (h : Opens grammar r) (rules : List (Rule σ)) :
    Opens grammar (.seq (r :: rules)) := by
  rintro _ _ _ (_ | _)
  rename_i first others
  obtain ⟨t, more, rfl⟩ := h first
  exact ⟨t, _, List.cons_append⟩

theorem Opens.symbol {s : σ} (h : Opens grammar (grammar s)) : Opens grammar (.symbol s) := by
  rintro _ _ _ (_ | _)
  rename_i inner
  exact h inner

end Rule

end Forwarding.Syntax
