import Forwarding.Proofs.Generation.Placement
import Forwarding.Proofs.Group.Grouping

/-!
Two ways to the generated unit. A program numbers all declarations, picks the candidates out of the
numbers, looks up owners and namespaces on walks upwards and sorts the candidates into groups. The
generator that goes down the outlines once writes the same unit: the candidates of a container are
one group, and that group stands where the first of them is met.
-/

namespace Forwarding.TopDown

/-! ### Outputs -/

namespace Output

theorem append_assoc (a b c : Output) : a ++ b ++ c = a ++ (b ++ c) := by
  show Output.append (Output.append a b) c = Output.append a (Output.append b c)
  simp only [Output.append, List.append_assoc, Nat.add_assoc]

@[simp] theorem empty_append (a : Output) : ({} : Output) ++ a = a := by
  show Output.append {} a = a
  simp only [Output.append, List.nil_append, Nat.zero_add]

theorem join_append (as bs : List Output) : join (as ++ bs) = join as ++ join bs := by
  induction as with
  | nil => exact (empty_append _).symm
  | cons a as ih => rw [List.cons_append, join, ih, join, append_assoc]

/-- What a group adds to the unit. -/
def ofGroup (g : Group) : Output :=
  { lines := g.block
    classes := if g.rendered.isEmpty then 0 else 1
    forwarders := g.rendered.length
    remarks := g.diagnostics.map fun d => (d.code, d.message) }

def ofGroups (gs : List Group) : Output :=
  join (gs.map ofGroup)

theorem ofGroups_cons (g : Group) (gs : List Group) :
    ofGroups (g :: gs) = ofGroup g ++ ofGroups gs := rfl

theorem ofGroups_append (gs hs : List Group) :
    ofGroups (gs ++ hs) = ofGroups gs ++ ofGroups hs := by
  rw [ofGroups, List.map_append, join_append]
  rfl

/-- An emission is what its groups add, one after the other. -/
theorem emit_eq (gs : List Group) :
    (emit gs).unit.text = ({ lines := [unitHeader] } ++ ofGroups gs : Output).text ∧
      (emit gs).unit.groups = (ofGroups gs).classes ∧
      (emit gs).unit.members = (ofGroups gs).forwarders ∧
      (emit gs).diagnostics.map (fun d => (d.code, d.message)) = (ofGroups gs).remarks := by
  have parts : (ofGroups gs).lines = gs.flatMap (·.block) ∧
      (ofGroups gs).classes = (gs.filter fun g => !g.rendered.isEmpty).length ∧
      (ofGroups gs).forwarders = (gs.flatMap (·.rendered)).length ∧
      (ofGroups gs).remarks =
        (gs.flatMap (·.diagnostics)).map (fun d => (d.code, d.message)) := by
    induction gs with
    | nil => exact ⟨rfl, rfl, rfl, rfl⟩
    | cons g gs ih =>
      obtain ⟨lines, classes, forwarders, remarks⟩ := ih
      refine ⟨?_, ?_, ?_, ?_⟩
      · exact congrArg (g.block ++ ·) lines
      · show (if g.rendered.isEmpty then 0 else 1) + (ofGroups gs).classes = _
        rw [classes, List.filter_cons]
        cases g.rendered.isEmpty <;> simp [Nat.add_comm]
      · show g.rendered.length + (ofGroups gs).forwarders = _
        rw [forwarders, List.flatMap_cons, List.length_append]
      · show g.diagnostics.map _ ++ (ofGroups gs).remarks = _
        rw [remarks, List.flatMap_cons, List.map_append]
  obtain ⟨lines, classes, forwarders, remarks⟩ := parts
  refine ⟨?_, classes.symm, forwarders.symm, remarks.symm⟩
  show joinLines (unitHeader :: gs.flatMap (·.block)) = joinLines ([unitHeader] ++ (ofGroups gs).lines)
  rw [lines, List.singleton_append]

end Output

/-! ### One group -/

/-- What a candidate is apart from its number and its owner. -/
def methodOf (c : Candidate) : Method :=
  { name := c.simpleName, parameters := c.parameters, returnType := c.returnType
    modifiers := c.modifiers }

theorem forwardName_methodOf {c : Candidate} (h : hasExtensionSuffix c.simpleName = true) :
    (methodOf c).forwardName = c.forwardName := by
  obtain ⟨front, name⟩ := (hasExtensionSuffix_iff _).mp h
  rw [Candidate.forwardName_of_append c front name, Method.forwardName, methodOf, name,
    String.toList_append, List.length_append, Nat.add_sub_cancel, List.take_left,
    String.ofList_toList]

theorem forwarder_methodOf {c : Candidate} (h : hasExtensionSuffix c.simpleName = true) :
    (methodOf c).forwarder c.owner.qualifiedName = c.forwarder := by
  rw [Method.forwarder, forwardName_methodOf h]
  rfl

theorem lines_group (g : Group) (h : Host) (path : g.namespacePath = h.namespacePath)
    (name : g.owner.name = h.name) (modifiers : g.ownerModifiers = h.modifiers) :
    "" :: g.lines = h.lines (g.rendered.map (·.forwarder)) := by
  have declaration : g.wrapperLine = " ".intercalate
      (if h.modifiers.contains "static" then h.modifiers else h.modifiers ++ ["static"]) ++
        " class " ++ h.name ++ "Extensions" := by
    simp only [Group.wrapperLine, Group.wrapperModifiers, Group.wrapperName, modifiers, name,
      String.append_assoc]
  unfold Group.lines Group.classLines Host.lines
  rw [path, declaration]
  by_cases outside : h.namespacePath.isEmpty = true
  · simp [outside]
  · have deeper (line : String) : "        " ++ line = "    " ++ ("    " ++ line) := by
      rw [← String.append_assoc]; rfl
    simp [outside, String.append_assoc, deeper]

/-- A group of candidates of one container is its wrapper class. -/
theorem ofGroup_eq (g : Group) (h : Host) (path : g.namespacePath = h.namespacePath)
    (name : g.owner.name = h.name) (modifiers : g.ownerModifiers = h.modifiers)
    (marked : ∀ c ∈ g.members,
      hasExtensionSuffix c.simpleName = true ∧ c.owner.qualifiedName = h.qualifiedName) :
    Output.ofGroup g = h.output (g.members.map methodOf) := by
  have kept : (g.members.map methodOf).filter (fun m => !m.forwardName.isEmpty) =
      g.rendered.map methodOf := by
    rw [List.filter_map, Group.rendered]
    refine congrArg (List.map methodOf) (List.filter_congr fun c hc => ?_)
    simp only [Function.comp_apply, forwardName_methodOf (marked c hc).1]
  have dropped : (g.members.map methodOf).filter (fun m => m.forwardName.isEmpty) =
      (g.members.filter fun c => c.forwardName.isEmpty).map methodOf := by
    rw [List.filter_map]
    refine congrArg (List.map methodOf) (List.filter_congr fun c hc => ?_)
    simp only [Function.comp_apply, forwardName_methodOf (marked c hc).1]
  have within : ∀ c ∈ g.rendered, c ∈ g.members := fun c hc => (List.mem_filter.mp hc).1
  have body : (g.rendered.map methodOf).map (·.forwarder h.qualifiedName) =
      g.rendered.map (·.forwarder) := by
    rw [List.map_map]
    apply List.map_congr_left
    intro c hc
    obtain ⟨suffix, owner⟩ := marked c (within c hc)
    rw [Function.comp_apply, ← owner, forwarder_methodOf suffix]
  have quoted (c : Candidate) (hc : c ∈ g.members) :
      (methodOf c).quoted h.qualifiedName =
        "`" ++ c.owner.qualifiedName ++ "." ++ c.simpleName ++ "`" := by
    rw [(marked c hc).2]; rfl
  have remarks : g.diagnostics.map (fun d => (d.code, d.message)) =
      (h.output (g.members.map methodOf)).remarks := by
    simp only [Group.diagnostics, Host.output, kept, dropped, List.map_append, List.map_map,
      List.filter_map]
    refine congr (congrArg _ (List.map_congr_left fun c hc => ?_)) (List.map_congr_left fun c hc => ?_)
    · have := quoted c (List.mem_filter.mp hc).1
      simp only [Function.comp_apply, this, Candidate.emptyNameDiagnostic, String.append_assoc]
      rfl
    · have := quoted c (within c (List.mem_filter.mp hc).1)
      simp only [Function.comp_apply, this, Candidate.missingReceiverDiagnostic,
        String.append_assoc]
      rfl
  rw [Output.ofGroup, remarks, Group.block, lines_group g h path name modifiers]
  simp only [Host.output, kept, body, List.isEmpty_map, List.length_map]

/-! ### The owners of candidates -/

theorem hasExtensionSuffix_of_method? {ctx : TypeName.Context} {item : OutlineItem} {m : Method}
    (h : method? ctx item = some m) : hasExtensionSuffix m.name = true := by
  rw [method?] at h
  split at h
  · rename_i marked
    obtain ⟨_, _, rfl⟩ := Option.map_eq_some_iff.mp h
    exact (Bool.and_eq_true_iff.mp marked).2
  · cases h

/-- A candidate among these items is either a method of the owner around them, or its owner is one of
the items or inside one. -/
theorem owner_of_mem_candidates (items : List OutlineItem) (ctx : TypeName.Context)
    (owner : Option Owner) (s : Place) (start : Nat) :
    ∀ c ∈ candidates ctx owner s start items, hasExtensionSuffix c.simpleName = true ∧
      (owner = some c.owner ∨ c.owner.node ∈ List.range' start (itemsSize items)) := by
  induction items using itemsInduction generalizing owner s start with
  | nil => intro c hc; cases hc
  | cons kind name modifiers span signature children items inside behind =>
    intro c hc
    have size : itemsSize (⟨kind, name, modifiers, span, signature, children⟩ :: items) =
        itemsSize children + 1 + itemsSize items := rfl
    have first : (⟨kind, name, modifiers, span, signature, children⟩ : OutlineItem).size =
        itemsSize children + 1 := rfl
    rw [candidates, candidatesIn] at hc
    rcases List.mem_append.mp hc with own | later
    · obtain ⟨o, ho, own⟩ := Option.bind_eq_some_iff.mp (Option.mem_toList.mp own)
      obtain ⟨m, hm, hc⟩ := Option.map_eq_some_iff.mp own
      rw [← hc]
      exact ⟨hasExtensionSuffix_of_method? hm, .inl ho⟩
    rcases List.mem_append.mp later with below | after
    · obtain ⟨marked, place⟩ := inside _ _ _ c below
      refine ⟨marked, .inr (List.mem_range'_1.mpr ?_)⟩
      rcases place with host | within
      · obtain ⟨h, _, ho⟩ := Option.map_eq_some_iff.mp host
        rw [← ho, Host.owner_node]
        omega
      · have := List.mem_range'_1.mp within
        omega
    · obtain ⟨marked, place⟩ := behind _ _ _ c after
      refine ⟨marked, place.imp_right fun within => List.mem_range'_1.mpr ?_⟩
      have := List.mem_range'_1.mp within
      omega

/-- The owners inside an item are the item and what it holds. -/
theorem owner_of_mem_candidatesIn {ctx : TypeName.Context} {s : Place} {start : Nat}
    {item : OutlineItem} {c : Candidate} (h : c ∈ candidatesIn ctx s start item) :
    c.owner.node ∈ List.range' start item.size := by
  cases item with
  | mk kind name modifiers span signature children =>
    rw [candidatesIn] at h
    rw [OutlineItem.size, List.range'_succ]
    rcases (owner_of_mem_candidates _ _ _ _ _ c h).2 with host | within
    · obtain ⟨_, _, ho⟩ := Option.map_eq_some_iff.mp host
      rw [← ho]
      exact List.mem_cons_self
    · exact List.mem_cons_of_mem _ within

section

variable (ctx : TypeName.Context) (h : Host) (parent : Nat) (s : Place)

/-- No candidate inside an item belongs to an owner with a smaller number. -/
theorem owner_ne_of_mem_candidatesIn {start : Nat} {item : OutlineItem} {c : Candidate}
    (hc : c ∈ candidatesIn ctx s start item) (lt : parent < start) : c.owner ≠ h.owner parent := by
  intro same
  have within := owner_of_mem_candidatesIn hc
  rw [same, Host.owner_node] at within
  have := List.mem_range'_1.mp within
  omega

/-- The methods of the owner itself are those among the items. -/
theorem candidates_own (items : List OutlineItem) (start : Nat) (lt : parent < start) :
    ((candidates ctx (some (h.owner parent)) s start items).filter
      (·.owner = h.owner parent)).map methodOf = items.filterMap (method? ctx) := by
  induction items generalizing start with
  | nil => rfl
  | cons item items ih =>
    have below : (candidatesIn ctx s start item).filter (·.owner = h.owner parent) = [] := by
      rw [List.filter_eq_nil_iff]
      intro c hc same
      exact owner_ne_of_mem_candidatesIn ctx h parent s hc lt (of_decide_eq_true same)
    rw [candidates, List.filter_append, List.filter_append, below, List.nil_append,
      List.map_append, ih _ (by omega), List.filterMap_cons]
    cases method? ctx item with
    | none => rfl
    | some m => simp [Method.candidate, methodOf]

/-- Without those, the others are left as they are found when nothing owns the items. -/
theorem candidates_others (items : List OutlineItem) (start : Nat) (lt : parent < start) :
    (candidates ctx (some (h.owner parent)) s start items).filter (·.owner ≠ h.owner parent) =
      candidates ctx none s start items := by
  induction items generalizing start with
  | nil => rfl
  | cons item items ih =>
    have below : (candidatesIn ctx s start item).filter (·.owner ≠ h.owner parent) =
        candidatesIn ctx s start item := by
      rw [List.filter_eq_self]
      intro c hc
      exact decide_eq_true (owner_ne_of_mem_candidatesIn ctx h parent s hc lt)
    rw [candidates, candidates, List.filter_append, List.filter_append, below, ih _ (by omega)]
    cases method? ctx item <;> simp [Method.candidate]

/-- Among the items of an owner, its own candidates are those with its key. -/
theorem groupKey_eq_iff_owner {items : List OutlineItem} {start : Nat} (lt : parent < start)
    (f : Forest) {c d : Candidate} (hc : c.owner = h.owner parent)
    (hd : d ∈ candidates ctx (some (h.owner parent)) s start items) :
    f.groupKey d = f.groupKey c ↔ d.owner = h.owner parent := by
  rw [Forest.groupKey_eq_iff, hc]
  constructor
  · rintro ⟨node, _⟩
    rcases (owner_of_mem_candidates _ _ _ _ _ d hd).2 with own | within
    · exact (Option.some.inj own).symm
    · rw [node, Host.owner_node] at within
      have := List.mem_range'_1.mp within
      omega
  · intro same
    rw [same]
    exact ⟨rfl, rfl⟩

end

/-! ### All groups -/

/-- The node `parent` is the container `h`. -/
structure Heads (p : Program) (parent : Nat) (h : Host) : Prop where
  namespacePath : p.forest.namespacePath parent = h.namespacePath
  modifiers : ((p.forest.get? parent).map (·.modifiers)).getD [] = h.modifiers

theorem heads_of_holds {p : Program} {parent start : Nat} {s : Place} {u : Usings}
    {item : OutlineItem} {items : List OutlineItem} {h : Host}
    (held : p.Holds parent start (item :: items)) (hs : Stands p parent s u)
    (hh : s.host? item = some h) : Heads p start h := by
  rw [Place.host?] at hh
  split at hh
  · cases hh
    refine ⟨hs.namespacePath start (parent?_of_holds held), ?_⟩
    rw [held.get?]
    simp
  · cases hh

/-- The group of a container is its wrapper class, whatever else is found among its items. -/
theorem ofGroups_own {p : Program} {parent start : Nat} {h : Host} (heads : Heads p parent h)
    (lt : parent < start) (ctx : TypeName.Context) (s : Place) (item : OutlineItem)
    (items : List OutlineItem) {m : Method} (hm : method? ctx item = some m) :
    Output.ofGroups (p.forest.group
        (candidates ctx (some (h.owner parent)) s start (item :: items))) =
      wrapper ctx (some h) (item :: items) ++
        Output.ofGroups (p.forest.group (candidates ctx none s start (item :: items))) := by
  let o := h.owner parent
  let c := m.candidate o start
  let rest := candidatesIn ctx s start item ++ candidates ctx (some o) s (start + item.size) items
  have all : candidates ctx (some o) s start (item :: items) = c :: rest := by
    rw [candidates, hm]; rfl
  have key (d : Candidate) (hd : d ∈ rest) : p.forest.groupKey d = p.forest.groupKey c ↔ d.owner = o :=
    groupKey_eq_iff_owner ctx h parent s lt p.forest rfl (all ▸ List.mem_cons_of_mem c hd)
  have own : c :: rest.filter (fun d => p.forest.groupKey d = p.forest.groupKey c) =
      (candidates ctx (some o) s start (item :: items)).filter (·.owner = o) := by
    rw [all, List.filter_cons_of_pos (by exact decide_eq_true rfl)]
    congr 1
    exact List.filter_congr fun d hd => decide_eq_decide.mpr (key d hd)
  have others : rest.filter (fun d => p.forest.groupKey d ≠ p.forest.groupKey c) =
      candidates ctx none s start (item :: items) := by
    rw [← candidates_others ctx h parent s (item :: items) start lt, all,
      List.filter_cons_of_neg (by simp [c, o, Method.candidate])]
    exact List.filter_congr fun d hd => decide_eq_decide.mpr (not_congr (key d hd))
  rw [all, Forest.group_cons, others, own, Output.ofGroups_cons]
  refine congrArg (· ++ _) ?_
  rw [ofGroup_eq _ h heads.namespacePath rfl heads.modifiers]
  · show h.output (List.map methodOf (List.filter _ _)) = _
    rw [candidates_own ctx h parent s (item :: items) start lt]
    rfl
  · intro d hd
    obtain ⟨found, owner⟩ := List.mem_filter.mp hd
    refine ⟨(owner_of_mem_candidates _ _ _ _ _ d found).1, ?_⟩
    rw [of_decide_eq_true owner]
    rfl

/-- Going down writes the groups of the candidates that are met. -/
theorem ofGroups_candidates (items : List OutlineItem) (p : Program) (ix : TypeIndex)
    (parent start : Nat) (s : Place) (u : Usings) (hf : p.forest.ParentsFirst)
    (held : p.Holds parent start items) (hs : Stands p parent s u) (free : unitFree items = true)
    (lt : parent < start) (host : Option Host) (heads : ∀ h, host = some h → Heads p parent h) :
    Output.ofGroups (p.forest.group
        (candidates { usings := u, index := ix } (host.map (·.owner parent)) s start items)) =
      output { usings := u, index := ix } s (wrapper { usings := u, index := ix } host items)
        items := by
  induction items using itemsInduction generalizing parent start s host with
  | nil => rfl
  | cons kind name modifiers span signature children items inside behind =>
    obtain ⟨hk, below, after⟩ := (unitFree_cons _ _).mp free
    let item : OutlineItem := { kind, name, modifiers, span, signature, children }
    let ctx : TypeName.Context := { usings := u, index := ix }
    have inner : Output.ofGroups (p.forest.group (candidatesIn ctx s start item)) =
        outputIn ctx s item := by
      rw [candidatesIn, outputIn]
      exact inside _ _ _ held.inside (hs.enter hf held hk) below (by omega) _
        fun h hh => heads_of_holds held hs hh
    -- the owners inside the first item differ from those behind it
    have apart (host : Option Host) : p.forest.group (candidatesIn ctx s start item ++
          candidates ctx (host.map (·.owner parent)) s (start + item.size) items) =
        p.forest.group (candidatesIn ctx s start item) ++ p.forest.group
          (candidates ctx (host.map (·.owner parent)) s (start + item.size) items) := by
      apply Forest.group_append
      intro c hc d hd same
      have node := ((Forest.groupKey_eq_iff _ _ _).mp same).1
      have within := List.mem_range'_1.mp (owner_of_mem_candidatesIn hc)
      rcases (owner_of_mem_candidates _ _ _ _ _ d hd).2 with own | beyond
      · obtain ⟨h, _, ho⟩ := Option.map_eq_some_iff.mp own
        rw [← node, ← ho, Host.owner_node] at within
        omega
      · rw [node] at beyond
        have := List.mem_range'_1.mp beyond
        omega
    have rest (host : Option Host) (heads : ∀ h, host = some h → Heads p parent h) :
        Output.ofGroups (p.forest.group (candidatesIn ctx s start item ++
          candidates ctx (host.map (·.owner parent)) s (start + item.size) items)) =
        outputIn ctx s item ++ output ctx s (wrapper ctx host items) items := by
      rw [apart, Output.ofGroups_append, inner,
        behind _ _ _ held.behind hs after (by omega) host heads]
    have unowned := rest none (by simp)
    rw [output]
    cases hm : method? ctx item with
    | none =>
      have skipped : candidates ctx (host.map (·.owner parent)) s start (item :: items) =
          candidatesIn ctx s start item ++
            candidates ctx (host.map (·.owner parent)) s (start + item.size) items := by
        rw [candidates, hm]; cases host <;> rfl
      have same : wrapper ctx host (item :: items) = wrapper ctx host items := by
        cases host <;> simp only [wrapper, List.filterMap_cons_none hm]
      rw [skipped, rest host heads, same]
      rfl
    | some m =>
      cases host with
      | none => exact unowned.trans (Output.empty_append _).symm
      | some h =>
        show Output.ofGroups (p.forest.group
          (candidates ctx (some (h.owner parent)) s start (item :: items))) = _
        rw [ofGroups_own (heads h rfl) lt ctx s item items hm]
        exact congrArg _ unowned

/-- The owners of a file's candidates lie in the file. -/
theorem owner_of_mem_fileCandidates (os : List Outline) (ix : TypeIndex) (start : Nat) :
    ∀ c ∈ fileCandidates ix start os, c.owner.node ∈ List.range' start (filesSize os) := by
  induction os generalizing start with
  | nil => intro c hc; cases hc
  | cons o os ih =>
    intro c hc
    have size : o.size = itemsSize o.items + 1 := rfl
    rw [fileCandidates] at hc
    rw [filesSize, List.mem_range'_1]
    rcases List.mem_append.mp hc with here | later
    · have within := (owner_of_mem_candidates _ _ _ _ _ c here).2.resolve_left (by simp)
      have := List.mem_range'_1.mp within
      omega
    · have := List.mem_range'_1.mp (ih _ c later)
      omega

/-- The same for whole source files. -/
theorem ofGroups_fileCandidates (os : List Outline) (p : Program) (ix : TypeIndex) (start : Nat)
    (hf : p.forest.ParentsFirst) (held : p.HoldsFiles start os)
    (free : ∀ o ∈ os, unitFree o.items = true) :
    Output.ofGroups (p.forest.group (fileCandidates ix start os)) =
      Output.join (os.map fun o => output { usings := o.usings, index := ix } {} {} o.items) := by
  induction os generalizing start with
  | nil => rfl
  | cons o os ih =>
    obtain ⟨first, others⟩ := List.forall_mem_cons.mp free
    have here := ofGroups_candidates o.items p ix start (start + 1) {} o.usings hf held.items
      (stands_of_holdsFiles hf held) first (by omega) none (by simp)
    rw [fileCandidates, Forest.group_append _ _ _ ?_, Output.ofGroups_append, ih _ held.behind others]
    · exact congrArg (· ++ _) here
    · intro c hc d hd same
      have node := ((Forest.groupKey_eq_iff _ _ _).mp same).1
      have here := (owner_of_mem_candidates _ _ _ _ _ c hc).2.resolve_left (by simp)
      have later := owner_of_mem_fileCandidates _ _ _ d hd
      rw [node] at later
      have size : o.size = itemsSize o.items + 1 := rfl
      have := List.mem_range'_1.mp here
      have := List.mem_range'_1.mp later
      omega

/-- What going down a source file writes. -/
def fileOutput (ix : TypeIndex) (o : Outline) : Output :=
  output { usings := o.usings, index := ix } {} {} o.items

/-- A program generates what going down its files writes, whatever index types are resolved
against. -/
theorem generate_resolveWith (os : List Outline) (free : ∀ o ∈ os, unitFree o.items = true)
    (ix : TypeIndex) :
    let p := Program.ofOutlines os
    let emission := Forwarding.generate p.forest (p.resolveWith ix)
    let out := Output.join (os.map (fileOutput ix))
    emission.unit.text = ({ lines := [unitHeader] } ++ out : Output).text ∧
      emission.unit.groups = out.classes ∧
      emission.unit.members = out.forwarders ∧
      emission.diagnostics.map (fun d => (d.code, d.message)) = out.remarks := by
  intro p emission out
  have found : emission = emit (p.forest.group (fileCandidates ix 0 os)) := by
    show Forwarding.generate p.forest (p.resolveWith ix) = _
    rw [Forwarding.generate, candidates_ofOutlines os free]
  have written : Output.ofGroups (p.forest.group (fileCandidates ix 0 os)) = out :=
    ofGroups_fileCandidates os p ix 0 (Program.parentsFirst_ofOutlines os)
      (Program.ofOutlines_holdsFiles os) free
  rw [found, ← written]
  exact Output.emit_eq _

/-- **A program generates what going down its outlines once generates**, if no declaration claims to
be a source file: the same text, as many wrapper classes and forwarders in it, and the same remarks
in the same order. -/
theorem emission_ofOutlines (os : List Outline) (free : ∀ o ∈ os, unitFree o.items = true) :
    let emission := (Program.ofOutlines os).emission
    emission.unit.text = (generate os).text ∧
      emission.unit.groups = (generate os).classes ∧
      emission.unit.members = (generate os).forwarders ∧
      emission.diagnostics.map (fun d => (d.code, d.message)) = (generate os).remarks := by
  let p := Program.ofOutlines os
  have found : p.emission = Forwarding.generate p.forest (p.resolveWith (index os)) := by
    rw [Program.emission, typeIndex_ofOutlines os free]
  obtain ⟨text, groups, members, remarks⟩ := generate_resolveWith os free (index os)
  have classes : (generate os).classes = 0 + _ := rfl
  have forwarders : (generate os).forwarders = 0 + _ := rfl
  show p.emission.unit.text = _ ∧ p.emission.unit.groups = _ ∧ p.emission.unit.members = _ ∧ _
  rw [found, classes, forwarders, Nat.zero_add, Nat.zero_add]
  exact ⟨text, groups, members, remarks⟩

/-- A container with another one between its methods, the first of which keeps no name. -/
def nested : Outline :=
  { path := "Nested.cs"
    items := [
      { kind := .fileNamespace, name := "Util"
        children := [
          { kind := .container, name := "Outer"
            children := [
              { kind := .method, name := "Extension", modifiers := ["static"]
                signature := some { returnType := "int", parameters := [] } },
              { kind := .container, name := "Inner", modifiers := ["static"]
                children := [
                  { kind := .method, name := "DoubleExtension", modifiers := ["static"]
                    signature := some {
                      returnType := "int", parameters := [{ name := "x", ty := "int" }] } }] },
              { kind := .method, name := "ZeroExtension", modifiers := ["static"]
                signature := some { returnType := "int", parameters := [] } }] }] }] }

theorem emission_nested :
    unitFree nested.items = true ∧
      let emission := (Program.ofOutlines [nested]).emission
      emission.unit.text = (generate [nested]).text ∧
        emission.unit.groups = (generate [nested]).classes ∧
        emission.unit.members = (generate [nested]).forwarders ∧
        emission.diagnostics.map (fun d => (d.code, d.message)) = (generate [nested]).remarks :=
  ⟨by decide, emission_ofOutlines [nested] (by decide)⟩

end Forwarding.TopDown
