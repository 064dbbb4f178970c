import Forwarding.Proofs.Forest.Ancestry

/-!
Forests as they grow. A forest is made by additions, each of a source file or of a declaration below
a number that need not exist. `get?_add` says all that one addition does: it makes the node with the
next number and lists that number at the parent, if there is one. Whatever the additions are, parents
and children agree, and every walk upwards ends.
-/

namespace Forwarding

/-- Something to add to a forest; the parent of a declaration may be any number. -/
inductive Addition where
  | unit (path : String)
  | child (parent : NodeId) (kind : NodeKind) (name : String) (modifiers : List String) (span : Span)
  deriving DecidableEq, Repr

namespace Addition

/-- The parent that the node gets in a forest of this size: the one asked for, if it exists. -/
def parentIn (size : Nat) : Addition → Option NodeId
  | unit _ => none
  | child parent .. => if parent < size then some parent else none

/-- The node as it is added to a forest of this size. -/
def node (size : Nat) : Addition → Node
  | unit path => { kind := .compilationUnit, name := path }
  | child parent kind name modifiers span =>
    { kind, name, modifiers, parent := (child parent kind name modifiers span).parentIn size, span }

@[simp] theorem node_parent (a : Addition) (size : Nat) : (a.node size).parent = a.parentIn size := by
  cases a <;> rfl

@[simp] theorem node_children (a : Addition) (size : Nat) : (a.node size).children = [] := by
  cases a <;> rfl

theorem parentIn_lt {a : Addition} {size p : Nat} (h : a.parentIn size = some p) : p < size := by
  cases a with
  | unit path => cases h
  | child parent kind name modifiers span =>
    simp only [parentIn] at h
    split at h
    · rename_i lt
      exact Option.some.inj h ▸ lt
    · cases h

end Addition

namespace Forest

def add (f : Forest) : Addition → Forest
  | .unit path => f.addUnit path
  | .child parent kind name modifiers span => f.addChild parent kind name modifiers span

/-- The forest that some additions make one after the other. -/
def ofAdditions (as : List Addition) : Forest :=
  as.foldl add empty

/-- The children listed at a node. -/
def children (f : Forest) (id : NodeId) : List NodeId :=
  ((f.get? id).map (·.children)).getD []

/-! ### One addition -/

@[simp] theorem size_add (f : Forest) (a : Addition) : (f.add a).size = f.size + 1 := by
  cases a with
  | unit path => exact size_addUnit f path
  | child parent kind name modifiers span => exact size_addChild f parent kind name modifiers span

/-- The node added gets the next number, its parent lists it last, and no other node changes. -/
theorem get?_add (f : Forest) (a : Addition) (id : Nat) :
    (f.add a).get? id =
      if id = f.size then some (a.node f.size)
      else if a.parentIn f.size = some id then
        (f.get? id).map fun n => { n with children := n.children ++ [f.size] }
      else f.get? id := by
  cases a with
  | unit path =>
    simp only [add, addUnit, get?, Array.getElem?_push, Addition.parentIn, reduceCtorEq, ite_false]
    rfl
  | child parent kind name modifiers span =>
    have linked : (f.link parent f.size).nodes.size = f.size := by simp [link, size]
    simp only [add, addChild, Addition.parentIn]
    by_cases there : parent < f.size
    · simp only [if_pos there, get?, Array.getElem?_push, linked, Addition.node,
        Addition.parentIn, Option.some.injEq]
      simp only [link, Array.getElem?_modify]
    · simp only [if_neg there, get?, Array.getElem?_push, Addition.node, Addition.parentIn,
        reduceCtorEq, ite_false]
      rfl

theorem parent?_add (f : Forest) (a : Addition) (id : Nat) :
    (f.add a).parent? id = if id = f.size then a.parentIn f.size else f.parent? id := by
  rw [parent?, get?_add, parent?]
  split
  · exact a.node_parent f.size
  · split
    · cases f.get? id <;> rfl
    · rfl

theorem children_add (f : Forest) (a : Addition) (id : Nat) :
    (f.add a).children id =
      if a.parentIn f.size = some id then f.children id ++ [f.size] else f.children id := by
  rw [children, get?_add, children]
  by_cases new : id = f.size
  · have notParent : a.parentIn f.size ≠ some id := by
      intro same
      have := Addition.parentIn_lt same
      omega
    rw [if_pos new, if_neg notParent, f.get?_of_size_le id (by omega)]
    exact a.node_children f.size
  · rw [if_neg new]
    split
    · rename_i below
      have inside := Addition.parentIn_lt below
      cases found : f.get? id with
      | some n => rfl
      | none => exact absurd inside (Nat.not_lt.mpr (Array.getElem?_eq_none_iff.mp found))
    · rfl

/-! ### Parents and children -/

/-- Parents and children agree, and both follow the numbers. -/
structure WellFormed (f : Forest) : Prop where
  parentsFirst : f.ParentsFirst
  /-- A parent lists its children, each once, and nothing else. -/
  listed : ∀ p c : Nat, (f.children p).count c = if f.parent? c = some p then 1 else 0
  ascending : ∀ p : Nat, (f.children p).Pairwise (· < ·)

theorem WellFormed.mem_children {f : Forest} (hf : f.WellFormed) {p c : Nat} :
    c ∈ f.children p ↔ f.parent? c = some p := by
  rw [← List.count_pos_iff, hf.listed]
  split <;> simp_all

theorem wellFormed_empty : WellFormed empty where
  parentsFirst := by intro id p h; cases h
  listed := by intro p c; rfl
  ascending := by intro p; exact List.Pairwise.nil

theorem WellFormed.lt_size_of_mem_children {f : Forest} (hf : f.WellFormed) {p c : Nat}
    (h : c ∈ f.children p) : c < f.size :=
  lt_size_of_parent? (hf.mem_children.mp h)

theorem ParentsFirst.add {f : Forest} (hf : f.ParentsFirst) (a : Addition) :
    (f.add a).ParentsFirst := by
  intro id p h
  rw [parent?_add] at h
  split at h
  · rename_i new
    exact new ▸ Addition.parentIn_lt h
  · exact hf id p h

theorem WellFormed.listed_add {f : Forest} (hf : f.WellFormed) (a : Addition) (p c : Nat) :
    ((f.add a).children p).count c = if (f.add a).parent? c = some p then 1 else 0 := by
  rw [children_add, parent?_add]
  by_cases new : c = f.size
  · -- the new number is listed nowhere before, so it is listed once where it is added
    have unlisted : (f.children p).count c = 0 := by
      rw [List.count_eq_zero]
      intro listed
      have := hf.lt_size_of_mem_children listed
      omega
    rw [if_pos new]
    split
    · rw [List.count_append, unlisted, new, List.count_singleton_self]
    · exact unlisted
  · have other : [f.size].count c = 0 := by
      rw [List.count_eq_zero, List.mem_singleton]
      exact new
    rw [if_neg new, ← hf.listed p c]
    split
    · rw [List.count_append, other, Nat.add_zero]
    · rfl

theorem WellFormed.ascending_add {f : Forest} (hf : f.WellFormed) (a : Addition) (p : Nat) :
    ((f.add a).children p).Pairwise (· < ·) := by
  rw [children_add]
  split
  · refine List.pairwise_append.mpr ⟨hf.ascending p, List.pairwise_singleton _ _, ?_⟩
    intro c hc d hd
    rw [List.mem_singleton.mp hd]
    exact hf.lt_size_of_mem_children hc
  · exact hf.ascending p

theorem WellFormed.add {f : Forest} (hf : f.WellFormed) (a : Addition) : (f.add a).WellFormed :=
  ⟨hf.parentsFirst.add a, hf.listed_add a, hf.ascending_add a⟩

/-! ### Walks upwards -/

/-- The walk from a number, whether it is in use or not. -/
structure WalksUp (f : Forest) (id : NodeId) : Prop where
  /-- The walk goes on as long as there is a parent. -/
  step : f.ancestors id = (f.parent? id).elim [] fun p => p :: f.ancestors p
  descending : (id :: f.ancestors id).Pairwise (· > ·)
  existing : ∀ a ∈ f.ancestors id, a < f.size
  /-- The source file is the first one on the walk, `id` included. -/
  unit : f.unitOf? id = (id :: f.ancestors id).find? fun a => f.kind? a = some .compilationUnit

theorem ancestors_descending {f : Forest} (hf : f.ParentsFirst) (id : Nat) :
    (id :: f.ancestors id).Pairwise (· > ·) := by
  induction id using Nat.strongRecOn with
  | ind id ih =>
    rw [ancestors_eq hf]
    cases h : f.parent? id with
    | none => exact List.pairwise_singleton _ _
    | some p =>
      have lt := hf id p h
      have above := ih p lt
      refine List.pairwise_cons.mpr ⟨?_, above⟩
      intro a ha
      rcases List.mem_cons.mp ha with rfl | higher
      · exact lt
      · exact Nat.lt_trans ((List.pairwise_cons.mp above).1 a higher) lt

theorem lt_of_mem_ancestors {f : Forest} (hf : f.ParentsFirst) {id a : Nat}
    (h : a ∈ f.ancestors id) : a < id :=
  (List.pairwise_cons.mp (ancestors_descending hf id)).1 a h

theorem mem_ancestors_trans {f : Forest} (hf : f.ParentsFirst) {a b c : Nat}
    (hab : a ∈ f.ancestors b) (hbc : b ∈ f.ancestors c) : a ∈ f.ancestors c := by
  induction c using Nat.strongRecOn with
  | ind c ih =>
    cases up : f.parent? c with
    | none =>
      rw [ancestors_eq hf, up] at hbc
      cases hbc
    | some p =>
      rw [ancestors_of_parent hf up] at hbc ⊢
      rcases List.mem_cons.mp hbc with rfl | higher
      · exact List.mem_cons_of_mem _ hab
      · exact List.mem_cons_of_mem _ (ih p (hf c p up) higher)

theorem lt_size_of_mem_ancestors {f : Forest} (hf : f.ParentsFirst) {id a : Nat}
    (h : a ∈ f.ancestors id) : a < f.size := by
  have below := lt_of_mem_ancestors hf h
  rw [ancestors_eq hf] at h
  cases up : f.parent? id with
  | none => rw [up] at h; cases h
  | some p => exact Nat.lt_trans below (lt_size_of_parent? up)

theorem unitOf?_eq_find? (f : Forest) (id : Nat) :
    f.unitOf? id = (id :: f.ancestors id).find? fun a => f.kind? a = some .compilationUnit := by
  rw [unitOf?, List.find?_cons]
  by_cases unit : f.kind? id = some .compilationUnit <;> simp [unit]

theorem WellFormed.walksUp {f : Forest} (hf : f.WellFormed) (id : Nat) : f.WalksUp id where
  step := ancestors_eq hf.parentsFirst id
  descending := ancestors_descending hf.parentsFirst id
  existing := fun _ => lt_size_of_mem_ancestors hf.parentsFirst
  unit := unitOf?_eq_find? f id

/-! ### Any number of additions -/

theorem wellFormed_foldl (as : List Addition) (f : Forest) (hf : f.WellFormed) :
    (as.foldl add f).WellFormed := by
  induction as generalizing f with
  | nil => exact hf
  | cons a as ih => exact ih _ (hf.add a)

theorem wellFormed_ofAdditions (as : List Addition) : (ofAdditions as).WellFormed :=
  wellFormed_foldl as empty wellFormed_empty

theorem size_foldl (as : List Addition) (f : Forest) : (as.foldl add f).size = f.size + as.length := by
  induction as generalizing f with
  | nil => rfl
  | cons a as ih =>
    rw [List.foldl_cons, ih, size_add, List.length_cons]
    omega

theorem size_ofAdditions (as : List Addition) : (ofAdditions as).size = as.length :=
  (size_foldl as empty).trans (Nat.zero_add _)

/-- A node that is there only gains children. -/
theorem get?_foldl (as : List Addition) {f : Forest} {id : Nat} {n : Node} (h : f.get? id = some n) :
    ∃ more, (as.foldl add f).get? id = some { n with children := n.children ++ more } := by
  induction as generalizing f n with
  | nil => exact ⟨[], by simpa using h⟩
  | cons a as ih =>
    have old : id ≠ f.size := Nat.ne_of_lt (lt_size_of_get? h)
    have next := get?_add f a id
    rw [if_neg old, h] at next
    split at next
    · obtain ⟨more, found⟩ := ih next
      exact ⟨f.size :: more, by simpa using found⟩
    · exact ih next

/-- What the forest is after the additions `as`. -/
structure Grown (as : List Addition) : Prop where
  wellFormed : (ofAdditions as).WellFormed
  /-- The next addition makes the node with the next number. -/
  added : ∀ a, (ofAdditions (as ++ [a])).get? as.length = some (a.node as.length)
  /-- A node stays as it is for ever, but for children listed behind those it has. -/
  kept : ∀ (id : Nat) (n : Node), (ofAdditions as).get? id = some n → ∀ later, ∃ more,
    (ofAdditions (as ++ later)).get? id = some { n with children := n.children ++ more }
  walks : ∀ id : Nat, (ofAdditions as).WalksUp id

/-- **Every sequence of additions leaves a well-formed forest**, whatever parents it asks for. -/
theorem ofAdditions_grown (as : List Addition) : Grown as where
  wellFormed := wellFormed_ofAdditions as
  added := by
    intro a
    rw [ofAdditions, List.foldl_append]
    show ((ofAdditions as).add a).get? as.length = _
    rw [get?_add, size_ofAdditions, if_pos rfl]
  kept := by
    intro id n h later
    rw [ofAdditions, List.foldl_append]
    exact get?_foldl later h
  walks := (wellFormed_ofAdditions as).walksUp

-- A declaration that names the number it is about to get stays without a parent.
example : (ofAdditions [.unit "A.cs", .child 1 .container "C" [] {}]).ancestors 1 = [] := by decide

end Forest

end Forwarding
