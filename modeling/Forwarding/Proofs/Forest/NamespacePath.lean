import Forwarding.Proofs.Forest.Growth

/-!
Namespace paths from the top down. The path of a node is read off the walk upwards, in two stretches:
one that looks for the nearest namespace and one that collects the block namespaces around it. The
same paths come down from the roots by rules that look at the parent only, and in a forest made by
additions these rules leave no other choice.
-/

namespace Forwarding.Forest

/-- Rules by which namespace paths come down from the roots: below a node stands the path of the
node itself, unless the node is a namespace. -/
structure TopDownPaths (f : Forest) (path : NodeId → String) : Prop where
  /-- A number without a parent, whether it is in use or not. -/
  root : ∀ id, f.parent? id = none → path id = ""
  fileNamespace : ∀ id p n, f.parent? id = some p → f.get? p = some n →
    n.kind = .fileNamespace → path id = n.name
  /-- A block namespace directly inside another one goes on with the path. -/
  innerBlock : ∀ id p n, f.parent? id = some p → f.get? p = some n → n.kind = .blockNamespace →
    (f.parent? p).bind f.kind? = some .blockNamespace → path id = path p ++ "." ++ n.name
  /-- Inside anything else, or inside nothing, a block namespace starts a path of its own. -/
  outerBlock : ∀ id p n, f.parent? id = some p → f.get? p = some n → n.kind = .blockNamespace →
    (f.parent? p).bind f.kind? ≠ some .blockNamespace → path id = n.name
  other : ∀ id p n, f.parent? id = some p → f.get? p = some n → n.kind.isNamespace = false →
    path id = path p

theorem topDownPaths_namespacePath {f : Forest} (hf : f.ParentsFirst) :
    f.TopDownPaths f.namespacePath where
  root _ up := namespacePath_of_root hf up
  fileNamespace id p n up found kind := by
    rw [namespacePath_of_parent hf up found, kind]
  innerBlock id p n up found kind inside := by
    rw [namespacePath_of_parent hf up found, kind]
    exact if_pos inside
  outerBlock id p n up found kind outside := by
    rw [namespacePath_of_parent hf up found, kind]
    exact if_neg outside
  other id p n up found kind := by
    rw [namespacePath_of_parent hf up found]
    cases hn : n.kind with
    | fileNamespace | blockNamespace =>
      rw [hn] at kind
      cases kind
    | compilationUnit | container | method => rfl

/-- A parent that comes before its child is in use as well. -/
theorem ParentsFirst.exists_parent {f : Forest} (hf : f.ParentsFirst) {id p : Nat}
    (up : f.parent? id = some p) : ∃ n, f.get? p = some n := by
  have inside : p < f.size := Nat.lt_trans (hf id p up) (lt_size_of_parent? up)
  exact ⟨f.nodes[p], Array.getElem?_eq_getElem inside⟩

/-- The rules determine all paths, from the roots on downwards. -/
theorem TopDownPaths.unique {f : Forest} (hf : f.ParentsFirst) {path path' : NodeId → String}
    (h : f.TopDownPaths path) (h' : f.TopDownPaths path') (id : NodeId) : path id = path' id := by
  induction id using Nat.strongRecOn with
  | ind id ih =>
    cases up : f.parent? id with
    | none => rw [h.root id up, h'.root id up]
    | some p =>
      have above : path p = path' p := ih p (hf id p up)
      obtain ⟨n, found⟩ := hf.exists_parent up
      cases kind : n.kind with
      | fileNamespace =>
        rw [h.fileNamespace id p n up found kind, h'.fileNamespace id p n up found kind]
      | blockNamespace =>
        by_cases inside : (f.parent? p).bind f.kind? = some .blockNamespace
        · rw [h.innerBlock id p n up found kind inside, h'.innerBlock id p n up found kind inside,
            above]
        · rw [h.outerBlock id p n up found kind inside, h'.outerBlock id p n up found kind inside]
      | compilationUnit | container | method =>
        have other : n.kind.isNamespace = false := by rw [kind]; rfl
        rw [h.other id p n up found other, h'.other id p n up found other, above]

/-- **The namespace paths of a forest are those that come down from its roots**, for every number
and whatever kinds of nodes stand below one another. -/
theorem topDownPaths_iff (as : List Addition) (path : NodeId → String) :
    (ofAdditions as).TopDownPaths path ↔ path = (ofAdditions as).namespacePath := by
  have hf := (wellFormed_ofAdditions as).parentsFirst
  constructor
  · intro rules
    funext id
    exact rules.unique hf (topDownPaths_namespacePath hf) id
  · rintro rfl
    exact topDownPaths_namespacePath hf

-- A container between two block namespaces cuts the path, and so does a namespace without a body.
example :
    let f := ofAdditions [.unit "A.cs", .child 0 .fileNamespace "F" [] {},
      .child 1 .blockNamespace "A" [] {}, .child 2 .blockNamespace "B" [] {},
      .child 3 .container "C" [] {}, .child 4 .blockNamespace "D" [] {},
      .child 5 .method "M" [] {}]
    f.ids.map f.namespacePath = ["", "", "F", "A", "A.B", "A.B", "D"] := by decide +kernel

end Forwarding.Forest
