import Forwarding.Group

/-!
Grouping by owner. The first candidate opens the first group, which takes in all later candidates of
the same owner, and the others are grouped in the same way behind it (`group_cons`). From this one
equation follow the laws of the groups: each candidate lies in exactly one of them, no owner has
two, and both groups and members keep the order of the candidates. No other list of groups obeys
these laws.
-/

namespace Forwarding.Forest

/-- Two candidates share a group exactly if they have the same owner under the same name. -/
theorem groupKey_eq_iff (f : Forest) (c d : Candidate) :
    f.groupKey c = f.groupKey d ↔ c.owner.node = d.owner.node ∧ c.owner.name = d.owner.name := by
  simp only [groupKey, GroupKey.mk.injEq]
  constructor
  · rintro ⟨_, name, node⟩; exact ⟨node, name⟩
  · rintro ⟨node, name⟩; rw [node]; exact ⟨rfl, name, rfl⟩

/-- A group that is there already takes in its candidates, and the others pass it by. -/
theorem place_all (f : Forest) (cs : List Candidate) (g : Group) (gs : List Group) :
    cs.foldl (fun gs c => f.place c gs) (g :: gs) =
      { g with members := g.members ++ cs.filter fun c => f.groupKey c = g.key } ::
        (cs.filter fun c => f.groupKey c ≠ g.key).foldl (fun gs c => f.place c gs) gs := by
  induction cs generalizing g gs with
  | nil => simp
  | cons c cs ih =>
    by_cases h : f.groupKey c = g.key
    · simp [place, h, ih]
    · simp [place, h, Ne.symm h, ih]

theorem group_nil (f : Forest) : f.group [] = [] := rfl

theorem group_cons (f : Forest) (c : Candidate) (cs : List Candidate) :
    f.group (c :: cs) =
      { f.openGroup c with members := c :: cs.filter fun d => f.groupKey d = f.groupKey c } ::
        f.group (cs.filter fun d => f.groupKey d ≠ f.groupKey c) := by
  rw [group, List.foldl_cons, place, place_all]
  rfl

/-- Induction along `group_cons`: one owner is settled at a time. -/
@[elab_as_elim]
theorem ownerInduction (f : Forest) {motive : List Candidate → Prop} (nil : motive [])
    (cons : ∀ c cs, motive (cs.filter fun d => f.groupKey d ≠ f.groupKey c) → motive (c :: cs))
    (cs : List Candidate) : motive cs :=
  match cs with
  | [] => nil
  | c :: cs => cons c cs (ownerInduction f nil cons _)
termination_by cs.length
decreasing_by exact Nat.lt_succ_of_le (List.length_filter_le _ _)

/-- Candidates of different owners are grouped apart. -/
theorem group_append (f : Forest) (cs ds : List Candidate)
    (apart : ∀ c ∈ cs, ∀ d ∈ ds, f.groupKey d ≠ f.groupKey c) :
    f.group (cs ++ ds) = f.group cs ++ f.group ds := by
  induction cs using ownerInduction f with
  | nil => rfl
  | cons c cs ih =>
    have differ := apart c List.mem_cons_self
    have noneShared : ds.filter (fun d => f.groupKey d = f.groupKey c) = [] := by
      simpa using differ
    have all : ds.filter (fun d => f.groupKey d ≠ f.groupKey c) = ds := by
      simpa using differ
    have rest := ih fun d hd => apart d (List.mem_cons_of_mem _ (List.mem_filter.mp hd).1)
    rw [List.cons_append, group_cons, group_cons, List.filter_append, List.filter_append,
      noneShared, all, List.append_nil, rest, List.cons_append]

/-! ### The laws of groups -/

/-- A group is opened by one of its members and holds all candidates with that one's key. -/
theorem mem_group (f : Forest) (cs : List Candidate) (g : Group) (h : g ∈ f.group cs) :
    ∃ c ∈ cs,
      g = { f.openGroup c with members := cs.filter fun d => f.groupKey d = f.groupKey c } := by
  induction cs using ownerInduction f with
  | nil => simp [group_nil] at h
  | cons c cs ih =>
    rw [group_cons] at h
    rcases List.mem_cons.mp h with first | later
    · exact ⟨c, List.mem_cons_self, by simp [first]⟩
    · obtain ⟨d, hd, hg⟩ := ih later
      obtain ⟨inside, differ⟩ := List.mem_filter.mp hd
      have differ : f.groupKey d ≠ f.groupKey c := of_decide_eq_true differ
      have same : (cs.filter fun e => f.groupKey e ≠ f.groupKey c).filter
          (fun e => f.groupKey e = f.groupKey d) =
          (c :: cs).filter fun e => f.groupKey e = f.groupKey d := by
        rw [List.filter_filter, List.filter_cons_of_neg (by simpa using Ne.symm differ)]
        apply List.filter_congr
        intro e _
        by_cases he : f.groupKey e = f.groupKey d
        · simp [he, differ]
        · simp [he]
      exact ⟨d, List.mem_cons_of_mem _ inside, by rw [hg, same]⟩

/-- A group shows what the forest says about its owner, and its members are the candidates of that
owner. -/
theorem group_shape (f : Forest) (cs : List Candidate) (g : Group) (h : g ∈ f.group cs) :
    g.key = ⟨f.namespacePath g.owner.node, g.owner.name, g.owner.node⟩ ∧
      g.ownerModifiers = ((f.get? g.owner.node).map (·.modifiers)).getD [] ∧
      g.namespacePath = f.namespacePath g.owner.node ∧
      g.members = cs.filter fun d => d.owner.node = g.owner.node ∧ d.owner.name = g.owner.name := by
  obtain ⟨c, _, rfl⟩ := mem_group f cs g h
  refine ⟨rfl, rfl, rfl, List.filter_congr fun d _ => ?_⟩
  exact decide_eq_decide.mpr (groupKey_eq_iff f d c)

/-- Every candidate is a member once. -/
theorem group_perm (f : Forest) (cs : List Candidate) :
    ((f.group cs).flatMap (·.members)).Perm cs := by
  induction cs using ownerInduction f with
  | nil => rfl
  | cons c cs ih =>
    rw [group_cons, List.flatMap_cons, List.cons_append]
    refine List.Perm.cons c ((ih.append_left _).trans ?_)
    simpa using List.filter_append_perm (fun d => decide (f.groupKey d = f.groupKey c)) cs

/-- No two groups share a key. -/
theorem group_keys (f : Forest) (cs : List Candidate) : ((f.group cs).map (·.key)).Nodup := by
  induction cs using ownerInduction f with
  | nil => exact List.nodup_nil
  | cons c cs ih =>
    rw [group_cons, List.map_cons, List.nodup_cons]
    refine ⟨?_, ih⟩
    intro again
    obtain ⟨g, hg, key⟩ := List.mem_map.mp again
    obtain ⟨d, hd, rfl⟩ := mem_group f _ g hg
    exact of_decide_eq_true (List.mem_filter.mp hd).2 key

/-- Groups stand in the order of their first members. -/
theorem group_order (f : Forest) (cs : List Candidate) {before : Candidate → Candidate → Prop}
    (h : cs.Pairwise before) :
    (f.group cs).Pairwise fun g g' => ∃ c ∈ g.members, ∀ d ∈ g'.members, before c d := by
  induction cs using ownerInduction f with
  | nil => exact List.Pairwise.nil
  | cons c cs ih =>
    obtain ⟨first, others⟩ := List.pairwise_cons.mp h
    rw [group_cons, List.pairwise_cons]
    refine ⟨fun g hg => ⟨c, List.mem_cons_self, fun d hd => ?_⟩, ih (others.filter _)⟩
    have inside := (group_perm f _).mem_iff.mp (List.mem_flatMap.mpr ⟨g, hg, hd⟩)
    exact first d (List.mem_filter.mp inside).1

/-! ### The stable grouping -/

/-- The keys stand in the order in which the candidates first have them. -/
theorem group_firstSeen (f : Forest) (cs : List Candidate) :
    (f.group cs).map (·.key) = (cs.map f.groupKey).eraseDups := by
  induction cs using ownerInduction f with
  | nil => rfl
  | cons c cs ih =>
    have others : (cs.map f.groupKey).filter (fun k => !k == f.groupKey c) =
        (cs.filter fun d => f.groupKey d ≠ f.groupKey c).map f.groupKey := by
      rw [List.filter_map]
      congr 1
      apply List.filter_congr
      intro d _
      by_cases same : f.groupKey d = f.groupKey c <;> simp [same]
    rw [group_cons, List.map_cons, ih, List.map_cons, List.eraseDups_cons, others]
    rfl

/-- The owner of a group is that of its first member. -/
theorem group_owner (f : Forest) (cs : List Candidate) (g : Group) (h : g ∈ f.group cs) :
    g.members.head?.map (·.owner) = some g.owner := by
  induction cs using ownerInduction f with
  | nil => simp [group_nil] at h
  | cons c cs ih =>
    rw [group_cons] at h
    rcases List.mem_cons.mp h with rfl | later
    · rfl
    · exact ih later

/-- Two candidates are members of one group exactly if they have the same owner under the same
name. -/
theorem group_together (f : Forest) (cs : List Candidate) {c d : Candidate} (hc : c ∈ cs)
    (hd : d ∈ cs) :
    (∃ g ∈ f.group cs, c ∈ g.members ∧ d ∈ g.members) ↔
      c.owner.node = d.owner.node ∧ c.owner.name = d.owner.name := by
  constructor
  · rintro ⟨g, hg, inside, inside'⟩
    obtain ⟨_, _, _, members⟩ := group_shape f cs g hg
    rw [members, List.mem_filter, decide_eq_true_eq] at inside inside'
    obtain ⟨_, node, name⟩ := inside
    obtain ⟨_, node', name'⟩ := inside'
    exact ⟨node.trans node'.symm, name.trans name'.symm⟩
  · rintro ⟨node, name⟩
    obtain ⟨g, hg, inside⟩ := List.mem_flatMap.mp ((group_perm f cs).mem_iff.mpr hc)
    obtain ⟨_, _, _, members⟩ := group_shape f cs g hg
    refine ⟨g, hg, inside, ?_⟩
    rw [members, List.mem_filter, decide_eq_true_eq] at inside ⊢
    exact ⟨hd, node ▸ inside.2.1, name ▸ inside.2.2⟩

/-- The groups are those of the candidates by owner node and owner name, in the order in which they
are first seen. -/
structure StableGrouping (f : Forest) (cs : List Candidate) (gs : List Group) : Prop where
  distinct : (gs.map (·.key)).Nodup
  firstSeen : gs.map (·.key) = (cs.map f.groupKey).eraseDups
  /-- The members are the candidates with the owner's node and name, in their order. -/
  members : ∀ g ∈ gs, g.members =
    cs.filter fun c => c.owner.node = g.owner.node ∧ c.owner.name = g.owner.name
  inhabited : ∀ g ∈ gs, g.members ≠ []
  everyone : (gs.flatMap (·.members)).Perm cs
  key : ∀ g ∈ gs, g.key = ⟨f.namespacePath g.owner.node, g.owner.name, g.owner.node⟩
  namespacePath : ∀ g ∈ gs, g.namespacePath = f.namespacePath g.owner.node
  owner : ∀ g ∈ gs, g.members.head?.map (·.owner) = some g.owner
  /-- An owner that does not exist has no modifiers. -/
  ownerModifiers : ∀ g ∈ gs, g.ownerModifiers = ((f.get? g.owner.node).map (·.modifiers)).getD []
  /-- What else is said about the owners of two candidates does not matter. -/
  together : ∀ c ∈ cs, ∀ d ∈ cs, (∃ g ∈ gs, c ∈ g.members ∧ d ∈ g.members) ↔
    c.owner.node = d.owner.node ∧ c.owner.name = d.owner.name

theorem stableGrouping_group (f : Forest) (cs : List Candidate) :
    f.StableGrouping cs (f.group cs) where
  distinct := group_keys f cs
  firstSeen := group_firstSeen f cs
  members g hg := (group_shape f cs g hg).2.2.2
  inhabited g hg := by
    intro emptied
    have first := group_owner f cs g hg
    rw [emptied] at first
    cases first
  everyone := group_perm f cs
  key g hg := (group_shape f cs g hg).1
  namespacePath g hg := (group_shape f cs g hg).2.2.1
  owner := group_owner f cs
  ownerModifiers g hg := (group_shape f cs g hg).2.1
  together _ hc _ hd := group_together f cs hc hd

/-- A group of a stable grouping is known by its key. -/
theorem StableGrouping.eq_of_key {f : Forest} {cs : List Candidate} {gs gs' : List Group}
    (h : f.StableGrouping cs gs) (h' : f.StableGrouping cs gs') {g g' : Group} (hg : g ∈ gs)
    (hg' : g' ∈ gs') (same : g.key = g'.key) : g = g' := by
  have keys := same
  rw [h.key g hg, h'.key g' hg', GroupKey.mk.injEq] at keys
  obtain ⟨_, name, node⟩ := keys
  have members : g.members = g'.members := by
    rw [h.members g hg, h'.members g' hg', name, node]
  have owner : g.owner = g'.owner := by
    have first := h.owner g hg
    rw [members, h'.owner g' hg'] at first
    exact (Option.some.inj first).symm
  have modifiers : g.ownerModifiers = g'.ownerModifiers := by
    rw [h.ownerModifiers g hg, h'.ownerModifiers g' hg', node]
  have path : g.namespacePath = g'.namespacePath := by
    rw [h.namespacePath g hg, h'.namespacePath g' hg', node]
  cases g
  cases g'
  simp only [Group.mk.injEq]
  exact ⟨same, owner, modifiers, path, members⟩

theorem StableGrouping.unique {f : Forest} {cs : List Candidate} {gs gs' : List Group}
    (h : f.StableGrouping cs gs) (h' : f.StableGrouping cs gs') : gs = gs' := by
  have keys : gs.map (·.key) = gs'.map (·.key) := h.firstSeen.trans h'.firstSeen.symm
  apply List.ext_getElem
  · simpa using congrArg List.length keys
  · intro i inside inside'
    have same : (gs.map (·.key))[i]? = (gs'.map (·.key))[i]? := by rw [keys]
    rw [List.getElem?_map, List.getElem?_map, List.getElem?_eq_getElem inside,
      List.getElem?_eq_getElem inside'] at same
    exact h.eq_of_key h' (List.getElem_mem inside) (List.getElem_mem inside') (Option.some.inj same)

/-- **Grouping is the stable grouping by owner**, whatever the candidates say about their owners:
the groups have all of its properties, and no other list of groups has them. -/
theorem group_eq_iff_stableGrouping (f : Forest) (cs : List Candidate) (gs : List Group) :
    f.group cs = gs ↔ f.StableGrouping cs gs := by
  constructor
  · rintro rfl
    exact stableGrouping_group f cs
  · exact (stableGrouping_group f cs).unique

end Forwarding.Forest
