import Forwarding.Program.Resolver

/-!
The walk from a node towards its root. In a forest whose parents come first the walk from a node is
its parent followed by the walk from the parent, so what is read off the walk (the namespace path,
the containers directly around, the source file) can be computed from the parent alone.
-/

namespace Forwarding.Forest

/-! ### Parents come first -/

/-- A parent always has a smaller number than its child. -/
def ParentsFirst (f : Forest) : Prop :=
  ∀ id p : Nat, f.parent? id = some p → p < id

@[simp] theorem size_addUnit (f : Forest) (path : String) : (f.addUnit path).size = f.size + 1 := by
  simp [addUnit, size]

@[simp] theorem size_addChild (f : Forest) (parent : Nat) (kind : NodeKind) (name : String)
    (modifiers : List String) (span : Span) :
    (f.addChild parent kind name modifiers span).size = f.size + 1 := by
  unfold addChild
  split <;> simp [size, link]

/-! ### The walk upwards -/

theorem get?_of_size_le (f : Forest) (id : Nat) (h : f.size ≤ id) : f.get? id = none :=
  Array.getElem?_eq_none h

theorem lt_size_of_get? {f : Forest} {id : Nat} {n : Node} (h : f.get? id = some n) : id < f.size := by
  apply Nat.lt_of_not_le
  intro out
  rw [f.get?_of_size_le id out] at h
  cases h

/-- A number with a parent is in use. -/
theorem lt_size_of_parent? {f : Forest} {id p : Nat} (h : f.parent? id = some p) : id < f.size := by
  obtain ⟨n, found, _⟩ := Option.bind_eq_some_iff.mp h
  exact lt_size_of_get? found

/-- A walk of at least as many steps as the node's number is complete. -/
theorem climb_complete {f : Forest} (hf : f.ParentsFirst) (n m : Nat) (id : Nat)
    (hn : id ≤ n) (hm : id ≤ m) : f.climb n id = f.climb m id := by
  induction n generalizing m id with
  | zero =>
    have orphan : f.parent? id = none := by
      cases h : f.parent? id with
      | none => rfl
      | some p => have := hf id p h; omega
    cases m <;> simp [climb, orphan]
  | succ n ih =>
    cases h : f.parent? id with
    | none => cases m <;> simp [climb, h]
    | some p =>
      have lt := hf id p h
      cases m with
      | zero => omega
      | succ m => simp only [climb, h, ih m p (by omega) (by omega)]

/-- The walk from a node is its parent and then the walk from the parent. -/
theorem ancestors_eq {f : Forest} (hf : f.ParentsFirst) (id : Nat) :
    f.ancestors id = (f.parent? id).elim [] fun p => p :: f.ancestors p := by
  cases h : f.parent? id with
  | none => unfold ancestors; cases f.size <;> simp [climb, h]
  | some p =>
    have lt := hf id p h
    have inside := lt_size_of_parent? h
    unfold ancestors
    cases hs : f.size with
    | zero => omega
    | succ n =>
      have rest := climb_complete hf n (n + 1) p (by omega) (by omega)
      rw [climb, h, Option.elim_some, ← rest]

theorem ancestors_of_parent {f : Forest} (hf : f.ParentsFirst) {id p : Nat}
    (h : f.parent? id = some p) : f.ancestors id = p :: f.ancestors p := by
  rw [ancestors_eq hf, h, Option.elim_some]

/-! ### What the walk meets -/

theorem namespacePath_of_root {f : Forest} (hf : f.ParentsFirst) {id : Nat}
    (h : f.parent? id = none) : f.namespacePath id = "" := by
  rw [namespacePath, ancestors_eq hf, h, Option.elim_none, namespaceAlong]

/-- A name behind the block namespaces directly around `p`: if there are any, they are the path of
`p` already. -/
theorem blockNames_ancestors {f : Forest} (hf : f.ParentsFirst) (p : Nat) (name : String) :
    ".".intercalate (name :: f.blockNames (f.ancestors p)).reverse =
      if (f.parent? p).bind f.kind? = some .blockNamespace
      then f.namespacePath p ++ "." ++ name else name := by
  cases hq : f.parent? p with
  | none => simp [ancestors_eq hf p, hq, blockNames]
  | some q =>
    rw [namespacePath, ancestors_of_parent hf hq]
    cases hm : f.get? q with
    | none => simp [blockNames, kind?, hm]
    | some m =>
      by_cases block : m.kind = .blockNamespace
      · simp only [blockNames, namespaceAlong, kind?, hm, block, Option.bind_some, Option.map_some,
          ite_true, List.reverse_cons]
        rw [String.intercalate_append_of_ne_nil (by simp) (by simp), String.intercalate_singleton]
      · simp [blockNames, kind?, hm, block]

/-- The namespace path of a node by the kind of its parent. -/
theorem namespacePath_of_parent {f : Forest} (hf : f.ParentsFirst) {id p : Nat} {n : Node}
    (h : f.parent? id = some p) (hn : f.get? p = some n) :
    f.namespacePath id =
      match n.kind with
      | .fileNamespace => n.name
      | .blockNamespace =>
        if (f.parent? p).bind f.kind? = some .blockNamespace
        then f.namespacePath p ++ "." ++ n.name else n.name
      | _ => f.namespacePath p := by
  rw [namespacePath, ancestors_of_parent hf h]
  simp only [namespaceAlong, hn]
  cases n.kind with
  | blockNamespace => exact blockNames_ancestors hf p n.name
  | compilationUnit | fileNamespace | container | method => rfl

/-- The names of the containers directly around a node, from the outside in. -/
def around (f : Forest) (id : Nat) : List String :=
  ((f.ancestors id).takeWhile fun a => f.kind? a = some .container).reverse.filterMap
    fun a => (f.get? a).map (·.name)

theorem around_of_parent {f : Forest} (hf : f.ParentsFirst) {id p : Nat} {n : Node}
    (h : f.parent? id = some p) (hn : f.get? p = some n) :
    f.around id = if n.kind = .container then f.around p ++ [n.name] else [] := by
  rw [around, ancestors_of_parent hf h]
  by_cases hk : n.kind = .container
  · simp [around, kind?, hn, hk]
  · simp [kind?, hn, hk]

theorem qualifiedName_eq (f : Forest) (id : Nat) :
    f.qualifiedName id = ".".intercalate
      ((if (f.namespacePath id).isEmpty then [] else [f.namespacePath id]) ++ f.around id ++
        ((f.get? id).map (·.name)).toList) := rfl

/-- A declaration lies in the same source file as its parent. -/
theorem unitOf?_of_parent {f : Forest} (hf : f.ParentsFirst) {id p : Nat}
    (h : f.parent? id = some p) (hk : f.kind? id ≠ some .compilationUnit) :
    f.unitOf? id = f.unitOf? p := by
  rw [unitOf?, if_neg hk, ancestors_of_parent hf h, unitOf?, List.find?_cons]
  by_cases unit : f.kind? p = some .compilationUnit <;> simp [unit]

end Forwarding.Forest
