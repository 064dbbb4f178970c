import Forwarding.Group
import Forwarding.Table

/-!
Grouping with a table of positions. One loop goes through the candidates: it remembers at which
position the group of each key stands, so no group is searched for, and it remembers the namespace
path of each owner, so none is computed twice. It never looks behind the last group, and its groups
are those of `Forest.group`.
-/

namespace Forwarding

/-- What the loop has so far. -/
structure Positions where
  groups : List Group := []
  /-- At which position the group of a key stands. -/
  index : List (GroupKey × Nat) := []
  /-- The namespace paths of the owners so far. -/
  paths : List (NodeId × String) := []

namespace Positions

/-- The path of an owner, computed and remembered the first time. -/
def pathOf (f : Forest) (node : NodeId) (paths : List (NodeId × String)) :
    String × List (NodeId × String) :=
  match paths.lookup node with
  | some path => (path, paths)
  | none => (f.namespacePath node, (node, f.namespacePath node) :: paths)

/-- Takes in one candidate. There is no answer if its group is not at the position remembered. -/
def take (f : Forest) (s : Positions) (c : Candidate) : Option Positions :=
  let (path, paths) := pathOf f c.owner.node s.paths
  let key : GroupKey :=
    { namespacePath := path, containerName := c.owner.name, declaration := c.owner.node }
  match s.index.lookup key with
  | some i =>
    (s.groups[i]?).map fun g =>
      { groups := s.groups.set i { g with members := g.members ++ [c] }, index := s.index, paths }
  | none =>
    let opened : Group :=
      { key, owner := c.owner
        ownerModifiers := ((f.get? c.owner.node).map (·.modifiers)).getD []
        namespacePath := path, members := [c] }
    some { groups := s.groups ++ [opened], index := (key, s.groups.length) :: s.index, paths }

def run (f : Forest) (cs : List Candidate) : Option Positions :=
  cs.foldlM (take f) {}

/-- The first position of a key. -/
def position? (key : GroupKey) (gs : List Group) : Option Nat :=
  (gs.map (·.key)).findIdx? (· = key)

/-- The tables tell the truth, and no path was computed twice. -/
structure Sound (f : Forest) (s : Positions) : Prop where
  index : ∀ key, s.index.lookup key = position? key s.groups
  paths : ∀ e ∈ s.paths, e.2 = f.namespacePath e.1
  once : (s.paths.map (·.1)).Nodup

section

variable {f : Forest} {paths : List (NodeId × String)}

theorem pathOf_eq (known : ∀ e ∈ paths, e.2 = f.namespacePath e.1) (node : NodeId) :
    (pathOf f node paths).1 = f.namespacePath node := by
  unfold pathOf
  split
  · exact known _ (Table.mem_of_lookup ‹_›)
  · rfl

theorem pathOf_sound (known : ∀ e ∈ paths, e.2 = f.namespacePath e.1)
    (once : (paths.map (·.1)).Nodup) (node : NodeId) :
    (∀ e ∈ (pathOf f node paths).2, e.2 = f.namespacePath e.1) ∧
      ((pathOf f node paths).2.map (·.1)).Nodup := by
  unfold pathOf
  split
  · exact ⟨known, once⟩
  · rename_i absent
    constructor
    · intro e mem
      rcases List.mem_cons.mp mem with rfl | mem
      · rfl
      · exact known e mem
    · rw [List.map_cons, List.nodup_cons]
      refine ⟨fun mem => ?_, once⟩
      obtain ⟨e, mem, same⟩ := List.mem_map.mp mem
      have differ := List.lookup_eq_none_iff.mp absent e mem
      simp [same] at differ

end

/-- Where a candidate is placed, by the position of its key. -/
theorem place_eq (f : Forest) (c : Candidate) (gs : List Group) :
    match position? (f.groupKey c) gs with
    | none => f.place c gs = gs ++ [f.openGroup c]
    | some i => ∃ g, gs[i]? = some g ∧
        f.place c gs = gs.set i { g with members := g.members ++ [c] } := by
  induction gs with
  | nil => rfl
  | cons g gs ih =>
    rw [position?, List.map_cons, List.findIdx?_cons, Forest.place]
    by_cases same : g.key = f.groupKey c
    · simp [same]
    · rw [position?] at ih
      cases found : (gs.map (·.key)).findIdx? (· = f.groupKey c) with
      | none => simpa [same, found] using ih
      | some i =>
        rw [found] at ih
        obtain ⟨g', stands, placed⟩ := ih
        simp [same, stands, placed]

theorem position?_set {gs : List Group} {i : Nat} {g : Group} (stands : gs[i]? = some g)
    (members : List Candidate) (key : GroupKey) :
    position? key (gs.set i { g with members }) = position? key gs := by
  obtain ⟨inside, rfl⟩ := List.getElem?_eq_some_iff.mp stands
  rw [position?, position?, List.map_set]
  congr 1
  apply List.ext_getElem
  · simp
  · intro j _ _
    by_cases same : i = j
    · subst same
      simp
    · simp [same]

/-- One candidate is placed as it is placed without the tables. -/
theorem take_sound {f : Forest} {s : Positions} (h : Sound f s) (c : Candidate) :
    ∃ s', take f s c = some s' ∧ Sound f s' ∧ s'.groups = f.place c s.groups := by
  have known := pathOf_eq h.paths c.owner.node
  obtain ⟨told, once⟩ := pathOf_sound h.paths h.once c.owner.node
  have placed := place_eq f c s.groups
  rw [take]
  generalize pathOf f c.owner.node s.paths = answer at known told once ⊢
  obtain ⟨path, paths⟩ := answer
  subst known
  dsimp only at told once ⊢
  rw [h.index, ← Forest.groupKey]
  cases found : position? (f.groupKey c) s.groups with
  | some i =>
    rw [found] at placed
    obtain ⟨g, stands, placed⟩ := placed
    dsimp only
    rw [stands, Option.map_some]
    refine ⟨_, rfl, ⟨fun key => ?_, told, once⟩, placed.symm⟩
    rw [h.index, position?_set stands]
  | none =>
    rw [found] at placed
    refine ⟨_, rfl, ⟨fun key => ?_, told, once⟩, placed.symm⟩
    rw [position?, List.map_append, List.findIdx?_append, ← position?, List.lookup_cons]
    by_cases same : key = f.groupKey c
    · subst same
      simp [found]
    · rw [beq_eq_false_iff_ne.mpr same]
      simp [Ne.symm same, h.index]

/-- **The loop gives the groups.** It always has an answer. -/
theorem run_sound (f : Forest) (cs : List Candidate) :
    ∃ s, run f cs = some s ∧ Sound f s ∧ s.groups = f.group cs := by
  have steps (cs : List Candidate) {s : Positions} (h : Sound f s) :
      ∃ s', cs.foldlM (take f) s = some s' ∧ Sound f s' ∧
        s'.groups = cs.foldl (fun gs c => f.place c gs) s.groups := by
    induction cs generalizing s with
    | nil => exact ⟨s, rfl, h, rfl⟩
    | cons c cs ih =>
      obtain ⟨s₁, taken, sound, placed⟩ := take_sound h c
      obtain ⟨s₂, ran, sound', groups⟩ := ih sound
      refine ⟨s₂, ?_, sound', ?_⟩
      · rw [List.foldlM_cons, taken]
        exact ran
      · rw [groups, placed, List.foldl_cons]
  exact steps cs ⟨fun _ => rfl, by simp, List.nodup_nil⟩

end Positions

end Forwarding
