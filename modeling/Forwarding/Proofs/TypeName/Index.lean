import Forwarding.TypeName.Canonical

/-!
The type index is a set of pairs. Its list holds each inserted pair once (`lists_ofList`), so a
simple name is unique exactly if all pairs with that name agree on the qualified name, and neither
the order of the insertions nor a repeated one can be seen in a lookup. The canonical form of a type
asks the index nothing else (`canonical_of_unique?`).
-/

namespace Forwarding.TypeIndex

/-! ### The pairs of an index -/

/-- The index holds exactly these pairs, each once. -/
structure Lists (ix : TypeIndex) (pairs : List (String × String)) : Prop where
  once : ix.entries.Nodup
  mem : ∀ p, p ∈ ix.entries ↔ p ∈ pairs

variable {ix : TypeIndex} {pairs : List (String × String)} {simple qualified : String}

theorem Lists.insert (lists : ix.Lists pairs) (simple qualified : String) :
    (ix.insert simple qualified).Lists (pairs ++ [(simple, qualified)]) := by
  unfold TypeIndex.insert
  split
  · rename_i found
    have known : (simple, qualified) ∈ pairs := (lists.mem _).mp (List.contains_iff_mem.mp found)
    refine ⟨lists.once, ?_⟩
    intro p
    rw [lists.mem, List.mem_append, List.mem_singleton]
    constructor
    · exact .inl
    · rintro (mem | rfl)
      · exact mem
      · exact known
  · rename_i missing
    have fresh : (simple, qualified) ∉ ix.entries :=
      fun mem => missing (List.contains_iff_mem.mpr mem)
    constructor
    · apply List.nodup_append.mpr
      refine ⟨lists.once, by simp, ?_⟩
      intro p mem q last same
      rw [List.mem_singleton.mp last] at same
      exact fresh (same ▸ mem)
    · intro p
      rw [List.mem_append, List.mem_append, lists.mem]

theorem Lists.insertAll (lists : ix.Lists pairs) (more : List (String × String)) :
    (more.foldl (fun ix p => ix.insert p.1 p.2) ix).Lists (pairs ++ more) := by
  induction more generalizing ix pairs with
  | nil => rwa [List.append_nil]
  | cons p more ih =>
    rw [List.append_cons]
    exact ih (lists.insert p.1 p.2)

theorem lists_ofList (pairs : List (String × String)) : (ofList pairs).Lists pairs := by
  have empty : ({} : TypeIndex).Lists [] := ⟨.nil, fun _ => Iff.rfl⟩
  exact empty.insertAll pairs

/-! ### Unique names -/

/-- The pairs know the simple name, and they agree on what it stands for. -/
def Agree (pairs : List (String × String)) (simple qualified : String) : Prop :=
  (∃ p ∈ pairs, p.1 = simple) ∧ ∀ p ∈ pairs, p.1 = simple → p.2 = qualified

/-- A list without repetitions whose members are all the same has at most one. -/
theorem eq_singleton_of_nodup {α : Type} {xs : List α} {x : α} (once : xs.Nodup) (mem : x ∈ xs)
    (same : ∀ y ∈ xs, y = x) : xs = [x] := by
  cases xs with
  | nil => cases mem
  | cons y ys =>
    obtain rfl := same y List.mem_cons_self
    cases ys with
    | nil => rfl
    | cons z zs =>
      obtain rfl := same z (List.mem_cons_of_mem _ List.mem_cons_self)
      exact absurd List.mem_cons_self (List.nodup_cons.mp once).1

theorem Lists.unique?_eq_some_iff (lists : ix.Lists pairs) :
    ix.unique? simple = some qualified ↔ Agree pairs simple qualified := by
  have named (e : String × String) :
      e ∈ ix.entries.filter (fun e => e.1 = simple) ↔ e ∈ pairs ∧ e.1 = simple := by
    rw [List.mem_filter, lists.mem, decide_eq_true_eq]
  unfold unique?
  constructor
  · intro found
    split at found
    · rename_i e only
      cases found
      have single (p : String × String) : p ∈ pairs ∧ p.1 = simple ↔ p = e := by
        rw [← named, only, List.mem_singleton]
      refine ⟨⟨e, (single e).mpr rfl⟩, ?_⟩
      intro p mem same
      rw [(single p).mp ⟨mem, same⟩]
    · cases found
  · rintro ⟨⟨p, mem, rfl⟩, agree⟩
    have only : ix.entries.filter (fun e => e.1 = p.1) = [(p.1, qualified)] := by
      have shape (e : String × String) (known : e ∈ pairs ∧ e.1 = p.1) : e = (p.1, qualified) :=
        Prod.ext known.2 (agree e known.1 known.2)
      apply eq_singleton_of_nodup (lists.once.sublist List.filter_sublist)
      · rw [← shape p ⟨mem, rfl⟩]
        exact (named p).mpr ⟨mem, rfl⟩
      · intro e listed
        exact shape e ((named e).mp listed)
    rw [only]

/-- Two runs of insertions with the same pairs answer every lookup alike. -/
theorem unique?_of_mem_iff {first second : List (String × String)}
    (same : ∀ p, p ∈ first ↔ p ∈ second) (simple : String) :
    (ofList first).unique? simple = (ofList second).unique? simple := by
  apply Option.ext
  intro qualified
  rw [(lists_ofList first).unique?_eq_some_iff, (lists_ofList second).unique?_eq_some_iff]
  simp only [Agree, same]

/-- What more pairs agree on, some of them agree on. -/
theorem Agree.of_append {more : List (String × String)} (known : ∃ p ∈ pairs, p.1 = simple)
    (agree : Agree (pairs ++ more) simple qualified) : Agree pairs simple qualified :=
  ⟨known, fun p mem => agree.2 p (List.mem_append_left more mem)⟩

end Forwarding.TypeIndex

namespace Forwarding.TypeName

/-! ### Canonical forms -/

section

variable {ctx ctx' : Context} (usings : ctx.usings = ctx'.usings)
  (index : ∀ simple, ctx.index.unique? simple = ctx'.index.unique? simple)

include usings index

theorem placedName_of_unique? (chain : List Char) :
    placedName ctx chain = placedName ctx' chain := by
  rw [placedName, placedName, usings, index]

theorem canonicalName_of_unique? (chain : List Char) :
    canonicalName ctx chain = canonicalName ctx' chain := by
  have placed := placedName_of_unique? usings index
  have plain : plainName ctx = plainName ctx' := by
    funext chain
    simp only [plainName, rootedName, usings, placed]
  simp only [canonicalName, rootedName, aliasText, usings, placed, plain]

/-- The canonical form asks an index for its unique names only, in alias targets as well. -/
theorem canonical_of_unique? (text : String) : canonical ctx text = canonical ctx' text := by
  rw [canonical, canonical, funext (canonicalName_of_unique? usings index)]

end

/-- **The type index is the set of the inserted pairs.** A simple name is unique exactly if it was
inserted and always with the same qualified name. So insertions of the same pairs, in any order and
any number of times, give the same canonical forms, and a name that was inserted and is not unique
does not become unique by more insertions. -/
theorem typeIndex_setOfPairs :
    (∀ (pairs : List (String × String)) (simple qualified : String),
      (TypeIndex.ofList pairs).unique? simple = some qualified ↔
        (∃ p ∈ pairs, p.1 = simple) ∧ ∀ p ∈ pairs, p.1 = simple → p.2 = qualified) ∧
    (∀ first second : List (String × String), (∀ p, p ∈ first ↔ p ∈ second) →
      ∀ (usings : Usings) (text : String),
        canonical { usings, index := TypeIndex.ofList first } text =
          canonical { usings, index := TypeIndex.ofList second } text) ∧
    (∀ (pairs : List (String × String)) (simple : String), (∃ p ∈ pairs, p.1 = simple) →
      (TypeIndex.ofList pairs).unique? simple = none →
        ∀ more, (TypeIndex.ofList (pairs ++ more)).unique? simple = none) := by
  refine ⟨?_, ?_, ?_⟩
  · intro pairs simple qualified
    exact (TypeIndex.lists_ofList pairs).unique?_eq_some_iff
  · intro first second same usings text
    refine canonical_of_unique? ?_ ?_ text
    · rfl
    · exact TypeIndex.unique?_of_mem_iff same
  · intro pairs simple known ambiguous more
    apply Option.eq_none_iff_forall_ne_some.mpr
    intro qualified found
    have agree := ((TypeIndex.lists_ofList _).unique?_eq_some_iff.mp found).of_append known
    rw [(TypeIndex.lists_ofList pairs).unique?_eq_some_iff.mpr agree] at ambiguous
    cases ambiguous

/-- The fragments of a partial class in two orders, beside a name that two namespaces declare. -/
theorem typeIndex_setOfPairs_fragments :
    let first := [("Map", "A.Map"), ("Node", "A.Node"), ("Map", "A.Map"), ("Node", "B.Node")]
    let second := [("Node", "B.Node"), ("Node", "A.Node"), ("Node", "B.Node"), ("Map", "A.Map")]
    let usings : Usings := { aliases := [("M", "Map<Node>")] }
    (TypeIndex.ofList first).unique? "Map" = some "A.Map" ∧
      canonical { usings, index := TypeIndex.ofList first } "List<M>" =
        canonical { usings, index := TypeIndex.ofList second } "List<M>" ∧
      canonical { usings, index := TypeIndex.ofList second } "List<M>" = "List<A.Map<Node>>" ∧
      (TypeIndex.ofList (first ++ second)).unique? "Node" = none := by
  intro first second usings
  have same (p : String × String) : p ∈ first ↔ p ∈ second := by
    simp only [first, second, List.mem_cons, List.not_mem_nil, or_false]
    constructor
    · rintro (rfl | rfl | rfl | rfl) <;> simp
    · rintro (rfl | rfl | rfl | rfl) <;> simp
  have known : ∃ p ∈ first, p.1 = "Node" := ⟨("Node", "A.Node"), by decide, rfl⟩
  have agree : ∀ p ∈ first, p.1 = "Map" → p.2 = "A.Map" := by decide
  obtain ⟨unique, forms, final⟩ := typeIndex_setOfPairs
  exact ⟨(unique first "Map" "A.Map").mpr ⟨⟨("Map", "A.Map"), by decide, rfl⟩, agree⟩,
    forms first second same usings "List<M>", by decide +kernel,
    final first "Node" known (by decide) second⟩

end Forwarding.TypeName
