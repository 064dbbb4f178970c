import Forwarding.Emission
import Forwarding.Proofs.Candidate.ForwardName
import Forwarding.Proofs.Group.Grouping
import Mathlib.Data.List.Perm.Basic

/-!
What becomes of the marked declarations of a forest, whatever their resolver says about them. Each is
either forwarded by one line of the unit or reported for having no name left, and the lines stand in
wrapper classes, one for each owner, in document order.
-/

namespace Forwarding

/-! ### Marked declarations -/

/-- The declarations to be forwarded, in document order: candidates that resolve to a method with a
marked name. -/
def Forest.marked (f : Forest) (resolve : Resolver) : List NodeId :=
  f.ids.filter fun id => f.isCandidate id && (resolve id).any fun m => hasExtensionSuffix m.name

/-- The method is called by the suffix alone. -/
def isNameless (resolve : Resolver) (id : NodeId) : Bool :=
  (resolve id).any fun m => m.name == extensionSuffix

/-- The method keeps a name and has no parameter to extend. -/
def lacksReceiver (resolve : Resolver) (id : NodeId) : Bool :=
  (resolve id).any fun m => m.name != extensionSuffix && m.parameters.isEmpty

/-- The marked declarations that have a forwarder. -/
def Forest.forwarded (f : Forest) (resolve : Resolver) : List NodeId :=
  (f.marked resolve).filter fun id => !isNameless resolve id

/-- The node and the name of the owner. -/
def ownerAt (resolve : Resolver) (id : NodeId) : Option (NodeId × String) :=
  (resolve id).map fun m => (m.containingType.node, m.containingType.name)

/-- The forwarder of a marked declaration. -/
def forwarderAt (resolve : Resolver) (id : NodeId) : String :=
  ((Candidate.extract? resolve id).map (·.forwarder)).getD ""

/-- A wrapper class by its owner and the declarations forwarded in it. -/
structure Wrapper where
  owner : NodeId × String
  ids : List NodeId

namespace Wrapper

/-- The class line, without indentation. -/
def declaration (w : Wrapper) (f : Forest) : String :=
  let modifiers := ((f.get? w.owner.1).map (·.modifiers)).getD []
  " ".intercalate (if modifiers.contains "static" then modifiers else modifiers ++ ["static"]) ++
    " class " ++ w.owner.2 ++ "Extensions"

/-- The lines of the class, one for each declaration, inside its namespace if it has one. -/
def lines (w : Wrapper) (f : Forest) (resolve : Resolver) : List String :=
  let path := f.namespacePath w.owner.1
  let pad := if path.isEmpty then "" else "    "
  (if path.isEmpty then [""] else ["", "namespace " ++ path, "\x7b"]) ++
    [pad ++ w.declaration f, pad ++ "\x7b"] ++
    w.ids.map (fun id => pad ++ "    " ++ forwarderAt resolve id) ++
    (if path.isEmpty then [pad ++ "\x7d"] else [pad ++ "\x7d", "\x7d"])

end Wrapper

/-- The unit consists of these wrapper classes: every forwarded declaration has its line in one of
them, in document order, and no owner has two. Classes come in the order of the first marked
declaration of their owners, be it forwarded or not. -/
structure WrittenAs (f : Forest) (resolve : Resolver) (unit : GeneratedUnit) (ws : List Wrapper) :
    Prop where
  text : unit.text = joinLines (unitHeader :: ws.flatMap (·.lines f resolve))
  groups : unit.groups = ws.length
  lines : (ws.flatMap (·.ids)).Perm (f.forwarded resolve)
  ascending : ∀ w ∈ ws, w.ids.Pairwise (· < ·)
  own : ∀ w ∈ ws, ∀ id ∈ w.ids, ownerAt resolve id = some w.owner
  owners : ∀ o, o ∈ ws.map (·.owner) ↔ ∃ id ∈ f.forwarded resolve, ownerAt resolve id = some o
  distinct : (ws.map (·.owner)).Nodup
  order : ws.Pairwise fun w w' => ∃ id ∈ f.marked resolve, ownerAt resolve id = some w.owner ∧
    ∀ id' ∈ f.marked resolve, ownerAt resolve id' = some w'.owner → id < id'

/-- Every marked declaration is forwarded once or reported as nameless, and nothing is reported
twice. -/
structure Accounted (f : Forest) (resolve : Resolver) (e : Emission) : Prop where
  counted : e.unit.members + (e.diagnostics.filter (·.code = .emptyForwardName)).length =
    (f.marked resolve).length
  nameless : ∀ id, (∃ d ∈ e.diagnostics, d.code = .emptyForwardName ∧ d.node = id) ↔
    id ∈ f.marked resolve ∧ isNameless resolve id = true
  receiverless : ∀ id, (∃ d ∈ e.diagnostics, d.code = .missingReceiver ∧ d.node = id) ↔
    id ∈ f.marked resolve ∧ lacksReceiver resolve id = true
  once : (e.diagnostics.map (·.node)).Nodup
  written : ∃ ws, WrittenAs f resolve e.unit ws

/-! ### Candidates and declarations -/

/-- The candidates that are grouped. -/
def Forest.extracted (f : Forest) (resolve : Resolver) : List Candidate :=
  f.candidates.filterMap (Candidate.extract? resolve)

theorem generate_eq (f : Forest) (resolve : Resolver) :
    generate f resolve = emit (f.group (f.extracted resolve)) := rfl

section

variable {f : Forest} {resolve : Resolver}

theorem extract?_node {id : NodeId} {c : Candidate} (h : Candidate.extract? resolve id = some c) :
    c.node = id := by
  obtain ⟨m, _, hc⟩ := Option.bind_eq_some_iff.mp h
  rw [Candidate.ofSymbol?] at hc
  split at hc
  · cases hc; rfl
  · cases hc

theorem map_node_extracted (f : Forest) (resolve : Resolver) :
    (f.extracted resolve).map (·.node) = f.marked resolve := by
  rw [Forest.extracted, Forest.candidates, Forest.marked]
  induction f.ids with
  | nil => rfl
  | cons id ids ih =>
    by_cases candidate : f.isCandidate id = true
    · rw [List.filter_cons_of_pos candidate]
      cases resolved : resolve id with
      | none => simp [Candidate.extract?, resolved, candidate, ih]
      | some m =>
        by_cases suffix : hasExtensionSuffix m.name = true
        · simp [Candidate.extract?, Candidate.ofSymbol?, resolved, candidate, suffix, ih]
        · simp [Candidate.extract?, Candidate.ofSymbol?, resolved, candidate, suffix, ih]
    · simp [candidate, ih]

theorem mem_marked {id : NodeId} :
    id ∈ f.marked resolve ↔ ∃ c ∈ f.extracted resolve, c.node = id := by
  rw [← map_node_extracted, List.mem_map]

theorem marked_ascending (f : Forest) (resolve : Resolver) :
    (f.marked resolve).Pairwise (· < ·) :=
  List.pairwise_lt_range.filter _

theorem extracted_ascending (f : Forest) (resolve : Resolver) :
    (f.extracted resolve).Pairwise fun c d => c.node < d.node := by
  have := marked_ascending f resolve
  rwa [← map_node_extracted, List.pairwise_map] at this

theorem extract?_of_mem {c : Candidate} (h : c ∈ f.extracted resolve) :
    Candidate.extract? resolve c.node = some c := by
  obtain ⟨id, _, hc⟩ := List.mem_filterMap.mp h
  rwa [extract?_node hc]

/-- What the resolver says about a candidate's declaration. -/
theorem resolve_of_mem {c : Candidate} (h : c ∈ f.extracted resolve) :
    hasExtensionSuffix c.simpleName = true ∧ resolve c.node = some {
      name := c.simpleName, parameters := c.parameters, returnType := c.returnType
      containingType := c.owner, modifiers := c.modifiers } := by
  obtain ⟨m, resolved, hc⟩ := Option.bind_eq_some_iff.mp (extract?_of_mem h)
  rw [Candidate.ofSymbol?] at hc
  split at hc
  · rename_i suffix
    have same := Option.some.inj hc
    rw [resolved, ← same]
    exact ⟨suffix, rfl⟩
  · cases hc

theorem isNameless_of_mem {c : Candidate} (h : c ∈ f.extracted resolve) :
    isNameless resolve c.node = c.forwardName.isEmpty := by
  obtain ⟨suffix, resolved⟩ := resolve_of_mem h
  rw [isNameless, resolved, Bool.eq_iff_iff, Candidate.forwardName_isEmpty c suffix]
  simp

theorem lacksReceiver_of_mem {c : Candidate} (h : c ∈ f.extracted resolve) :
    lacksReceiver resolve c.node = (!c.forwardName.isEmpty && c.parameters.isEmpty) := by
  rw [← isNameless_of_mem h, isNameless, lacksReceiver, (resolve_of_mem h).2]
  rfl

theorem ownerAt_of_mem {c : Candidate} (h : c ∈ f.extracted resolve) :
    ownerAt resolve c.node = some (c.owner.node, c.owner.name) := by
  rw [ownerAt, (resolve_of_mem h).2]
  rfl

theorem forwarderAt_of_mem {c : Candidate} (h : c ∈ f.extracted resolve) :
    forwarderAt resolve c.node = c.forwarder := by
  rw [forwarderAt, extract?_of_mem h]
  rfl

/-- The candidates that are rendered belong to the forwarded declarations. -/
theorem map_node_rendered (f : Forest) (resolve : Resolver) :
    ((f.extracted resolve).filter fun c => !c.forwardName.isEmpty).map (·.node) =
      f.forwarded resolve := by
  rw [Forest.forwarded, ← map_node_extracted, List.filter_map]
  refine congrArg _ (List.filter_congr fun c hc => ?_)
  rw [Function.comp_apply, isNameless_of_mem hc]

end

/-! ### Diagnostics -/

/-- The one thing there may be to report about a candidate. -/
def Candidate.diagnostic? (c : Candidate) : Option Diagnostic :=
  if c.forwardName.isEmpty then some c.emptyNameDiagnostic
  else if c.parameters.isEmpty then some c.missingReceiverDiagnostic
  else none

namespace Candidate

theorem diagnostic?_nameless {c : Candidate} (h : c.forwardName.isEmpty = true) :
    c.diagnostic? = some c.emptyNameDiagnostic := by
  rw [diagnostic?, if_pos h]

theorem diagnostic?_named {c : Candidate} (h : c.forwardName.isEmpty = false) :
    c.diagnostic? = if c.parameters.isEmpty then some c.missingReceiverDiagnostic else none := by
  rw [diagnostic?, if_neg (by rw [h]; exact Bool.false_ne_true)]

theorem diagnostic?_eq_some {c : Candidate} {d : Diagnostic} :
    c.diagnostic? = some d ↔
      c.forwardName.isEmpty = true ∧ c.emptyNameDiagnostic = d ∨
      c.forwardName.isEmpty = false ∧ c.parameters.isEmpty = true ∧
        c.missingReceiverDiagnostic = d := by
  cases empty : c.forwardName.isEmpty with
  | true => simp [diagnostic?_nameless empty]
  | false => simp [diagnostic?_named empty]

theorem diagnostic?_node {c : Candidate} {d : Diagnostic} (h : c.diagnostic? = some d) :
    d.node = c.node := by
  rcases diagnostic?_eq_some.mp h with ⟨_, rfl⟩ | ⟨_, _, rfl⟩ <;> rfl

end Candidate

/-- A group reports on its members, though not in their order. -/
theorem Group.diagnostics_perm (g : Group) :
    g.diagnostics.Perm (g.members.filterMap (·.diagnostic?)) := by
  rw [diagnostics, rendered]
  induction g.members with
  | nil => rfl
  | cons c cs ih =>
    cases empty : c.forwardName.isEmpty with
    | true =>
      rw [List.filterMap_cons_some (Candidate.diagnostic?_nameless empty),
        List.filter_cons_of_pos (by exact empty), List.filter_cons_of_neg (by simp [empty])]
      exact ih.cons _
    | false =>
      have report := Candidate.diagnostic?_named empty
      rw [List.filter_cons_of_neg (by simp [empty]), List.filter_cons_of_pos (by simp [empty])]
      cases receiver : c.parameters.isEmpty with
      | true =>
        rw [if_pos receiver] at report
        rw [List.filterMap_cons_some report, List.filter_cons_of_pos (by exact receiver)]
        exact List.perm_middle.trans (ih.cons _)
      | false =>
        rw [receiver] at report
        rw [List.filterMap_cons_none report, List.filter_cons_of_neg (by simp [receiver])]
        exact ih

/-- Each candidate has at most one report, and all reports are of candidates. -/
theorem diagnostics_perm (f : Forest) (cs : List Candidate) :
    (emit (f.group cs)).diagnostics.Perm (cs.filterMap (·.diagnostic?)) := by
  have each : ((f.group cs).flatMap (·.diagnostics)).Perm
      ((f.group cs).flatMap fun g => g.members.filterMap (·.diagnostic?)) :=
    List.Perm.flatMap_left _ fun g _ => g.diagnostics_perm
  rw [← List.filterMap_flatMap] at each
  exact each.trans ((f.group_perm cs).filterMap _)

theorem filter_nameless (cs : List Candidate) :
    (cs.filterMap (·.diagnostic?)).filter (·.code = .emptyForwardName) =
      (cs.filter fun c => c.forwardName.isEmpty).map (·.emptyNameDiagnostic) := by
  induction cs with
  | nil => rfl
  | cons c cs ih =>
    cases empty : c.forwardName.isEmpty with
    | true =>
      rw [List.filterMap_cons_some (Candidate.diagnostic?_nameless empty),
        List.filter_cons_of_pos (by rfl), List.filter_cons_of_pos (by exact empty), List.map_cons, ih]
    | false =>
      rw [List.filterMap_cons, Candidate.diagnostic?_named empty,
        List.filter_cons_of_neg (by simp [empty]), ← ih]
      cases c.parameters.isEmpty <;> rfl

section

variable (f : Forest) (resolve : Resolver)

theorem mem_diagnostics {d : Diagnostic} :
    d ∈ (generate f resolve).diagnostics ↔
      ∃ c ∈ f.extracted resolve, c.diagnostic? = some d := by
  rw [generate_eq, (diagnostics_perm f _).mem_iff, List.mem_filterMap]

theorem nameless_iff (id : NodeId) :
    (∃ d ∈ (generate f resolve).diagnostics, d.code = .emptyForwardName ∧ d.node = id) ↔
      id ∈ f.marked resolve ∧ isNameless resolve id = true := by
  constructor
  · rintro ⟨d, hd, code, rfl⟩
    obtain ⟨c, hc, report⟩ := (mem_diagnostics f resolve).mp hd
    rw [Candidate.diagnostic?_node report]
    refine ⟨mem_marked.mpr ⟨c, hc, rfl⟩, ?_⟩
    rcases Candidate.diagnostic?_eq_some.mp report with ⟨empty, _⟩ | ⟨_, _, rfl⟩
    · rw [isNameless_of_mem hc, empty]
    · cases code
  · rintro ⟨marked, nameless⟩
    obtain ⟨c, hc, rfl⟩ := mem_marked.mp marked
    rw [isNameless_of_mem hc] at nameless
    exact ⟨c.emptyNameDiagnostic, (mem_diagnostics f resolve).mpr
      ⟨c, hc, Candidate.diagnostic?_nameless nameless⟩, rfl, rfl⟩

theorem receiverless_iff (id : NodeId) :
    (∃ d ∈ (generate f resolve).diagnostics, d.code = .missingReceiver ∧ d.node = id) ↔
      id ∈ f.marked resolve ∧ lacksReceiver resolve id = true := by
  constructor
  · rintro ⟨d, hd, code, rfl⟩
    obtain ⟨c, hc, report⟩ := (mem_diagnostics f resolve).mp hd
    rw [Candidate.diagnostic?_node report]
    refine ⟨mem_marked.mpr ⟨c, hc, rfl⟩, ?_⟩
    rcases Candidate.diagnostic?_eq_some.mp report with ⟨_, rfl⟩ | ⟨named, receiver, _⟩
    · cases code
    · rw [lacksReceiver_of_mem hc, named, receiver]
      rfl
  · rintro ⟨marked, lacks⟩
    obtain ⟨c, hc, rfl⟩ := mem_marked.mp marked
    rw [lacksReceiver_of_mem hc, Bool.and_eq_true, Bool.not_eq_true'] at lacks
    exact ⟨c.missingReceiverDiagnostic, (mem_diagnostics f resolve).mpr
      ⟨c, hc, Candidate.diagnostic?_eq_some.mpr (.inr ⟨lacks.1, lacks.2, rfl⟩)⟩, rfl, rfl⟩

theorem diagnostics_once : ((generate f resolve).diagnostics.map (·.node)).Nodup := by
  have nodup : ((f.extracted resolve).filterMap (·.diagnostic?)).Pairwise
      (fun d d' => d.node ≠ d'.node) := by
    refine List.Pairwise.filterMap _ ?_ (extracted_ascending f resolve)
    intro c c' lt d hd d' hd'
    rw [Candidate.diagnostic?_node hd, Candidate.diagnostic?_node hd']
    exact Nat.ne_of_lt lt
  have perm := (diagnostics_perm f (f.extracted resolve)).map (·.node)
  exact perm.nodup_iff.mpr (List.pairwise_map.mpr nodup)

theorem members_add_nameless :
    (generate f resolve).unit.members +
        ((generate f resolve).diagnostics.filter (·.code = .emptyForwardName)).length =
      (f.marked resolve).length := by
  have kept : (generate f resolve).unit.members =
      ((f.extracted resolve).filter fun c => !c.forwardName.isEmpty).length := by
    show ((f.group (f.extracted resolve)).flatMap fun g =>
      g.members.filter fun c => !c.forwardName.isEmpty).length = _
    rw [← List.filter_flatMap]
    exact ((f.group_perm _).filter _).length_eq
  have dropped : ((generate f resolve).diagnostics.filter (·.code = .emptyForwardName)).length =
      ((f.extracted resolve).filter fun c => c.forwardName.isEmpty).length := by
    rw [generate_eq, ((diagnostics_perm f _).filter _).length_eq, filter_nameless, List.length_map]
  have both := (List.filter_append_perm (fun c => c.forwardName.isEmpty)
    (f.extracted resolve)).length_eq
  rw [List.length_append] at both
  rw [kept, dropped, ← map_node_extracted, List.length_map]
  omega

end

/-! ### Wrapper classes -/

/-- The wrapper class of a group. -/
def Group.wrapper (g : Group) : Wrapper :=
  { owner := (g.owner.node, g.owner.name), ids := g.rendered.map (·.node) }

/-- The groups that have one. -/
def Forest.wrapped (f : Forest) (resolve : Resolver) : List Group :=
  (f.group (f.extracted resolve)).filter fun g => !g.rendered.isEmpty

section

variable {f : Forest} {resolve : Resolver} {g : Group}

theorem mem_members (h : g ∈ f.group (f.extracted resolve)) {c : Candidate} :
    c ∈ g.members ↔ c ∈ f.extracted resolve ∧ ownerAt resolve c.node = some g.wrapper.owner := by
  rw [(f.group_shape _ g h).2.2.2, List.mem_filter, decide_eq_true_eq]
  refine and_congr_right fun hc => ?_
  rw [ownerAt_of_mem hc, Group.wrapper, Option.some.injEq, Prod.mk.injEq]

theorem mem_ids (h : g ∈ f.group (f.extracted resolve)) {id : NodeId} (hid : id ∈ g.wrapper.ids) :
    ∃ c ∈ f.extracted resolve, c.node = id ∧ ownerAt resolve id = some g.wrapper.owner := by
  obtain ⟨c, hc, rfl⟩ := List.mem_map.mp hid
  obtain ⟨found, owner⟩ := (mem_members h).mp (List.mem_filter.mp hc).1
  exact ⟨c, found, rfl, owner⟩

/-- The block of a group is its wrapper class. -/
theorem block_eq (h : g ∈ f.group (f.extracted resolve)) (filled : g.rendered.isEmpty = false) :
    g.block = g.wrapper.lines f resolve := by
  obtain ⟨_, modifiers, path, _⟩ := f.group_shape _ g h
  have body (pad : String) : g.rendered.map (fun c => pad ++ "    " ++ c.forwarder) =
      g.wrapper.ids.map fun id => pad ++ "    " ++ forwarderAt resolve id := by
    rw [Group.wrapper, List.map_map]
    apply List.map_congr_left
    intro c hc
    have found := ((mem_members h).mp (List.mem_filter.mp hc).1).1
    rw [Function.comp_apply, forwarderAt_of_mem found]
  have declaration : g.wrapperLine = g.wrapper.declaration f := by
    rw [Group.wrapperLine, Group.wrapperModifiers, modifiers, Group.wrapperName, Wrapper.declaration,
      String.append_assoc, String.append_assoc, String.append_assoc]
    rfl
  rw [Group.block, filled, Group.lines, Group.classLines, Group.classLines, body, body, declaration,
    path, Wrapper.lines]
  show (if false = true then [] else _) = _
  by_cases outside : (f.namespacePath g.owner.node).isEmpty = true
  · simp [Group.wrapper, outside]
  · simp [Group.wrapper, outside]

end

section

variable (f : Forest) (resolve : Resolver)

/-- The wrapper classes of the unit. -/
def Forest.wrappers : List Wrapper :=
  (f.wrapped resolve).map (·.wrapper)

theorem mem_wrapped {g : Group} : g ∈ f.wrapped resolve ↔
    g ∈ f.group (f.extracted resolve) ∧ g.rendered.isEmpty = false := by
  rw [Forest.wrapped, List.mem_filter, Bool.not_eq_true']

/-- Groups without a wrapper class add nothing. -/
theorem flatMap_wrapped {α : Type} (part : Group → List α)
    (skipped : ∀ g, g.rendered.isEmpty = true → part g = []) :
    (f.wrapped resolve).flatMap part = (f.group (f.extracted resolve)).flatMap part := by
  rw [Forest.wrapped]
  induction f.group (f.extracted resolve) with
  | nil => rfl
  | cons g gs ih =>
    cases empty : g.rendered.isEmpty with
    | true =>
      rw [List.filter_cons_of_neg (by simp [empty]), ih, List.flatMap_cons, skipped g empty,
        List.nil_append]
    | false =>
      rw [List.filter_cons_of_pos (by simp [empty]), List.flatMap_cons, ih, List.flatMap_cons]

theorem text_eq :
    (generate f resolve).unit.text =
      joinLines (unitHeader :: (f.wrappers resolve).flatMap (·.lines f resolve)) := by
  have blocks : (f.group (f.extracted resolve)).flatMap (·.block) =
      (f.wrappers resolve).flatMap (·.lines f resolve) := by
    rw [← flatMap_wrapped f resolve (·.block) (fun g empty => by rw [Group.block, if_pos empty]),
      Forest.wrappers, List.flatMap_map]
    apply List.flatMap_congr
    intro g hg
    obtain ⟨found, filled⟩ := (mem_wrapped f resolve).mp hg
    exact block_eq found filled
  rw [← blocks]
  rfl

theorem ids_perm : ((f.wrappers resolve).flatMap (·.ids)).Perm (f.forwarded resolve) := by
  have parts : (f.wrappers resolve).flatMap (·.ids) =
      (((f.group (f.extracted resolve)).flatMap (·.members)).filter
        fun c => !c.forwardName.isEmpty).map (·.node) := by
    rw [Forest.wrappers, List.flatMap_map, List.filter_flatMap, List.map_flatMap]
    refine flatMap_wrapped f resolve (fun g => g.rendered.map (·.node)) fun g empty => ?_
    rw [List.isEmpty_iff.mp empty, List.map_nil]
  rw [parts, ← map_node_rendered]
  exact ((f.group_perm _).filter _).map _

theorem ids_ascending {w : Wrapper} (h : w ∈ f.wrappers resolve) : w.ids.Pairwise (· < ·) := by
  obtain ⟨g, hg, rfl⟩ := List.mem_map.mp h
  have members := (f.group_shape _ g ((mem_wrapped f resolve).mp hg).1).2.2.2
  rw [Group.wrapper, Group.rendered, members, List.pairwise_map]
  exact ((extracted_ascending f resolve).filter _).filter _

theorem ids_own {w : Wrapper} (h : w ∈ f.wrappers resolve) {id : NodeId} (hid : id ∈ w.ids) :
    ownerAt resolve id = some w.owner := by
  obtain ⟨g, hg, rfl⟩ := List.mem_map.mp h
  obtain ⟨_, _, _, owner⟩ := mem_ids ((mem_wrapped f resolve).mp hg).1 hid
  exact owner

theorem mem_owners (o : NodeId × String) :
    o ∈ (f.wrappers resolve).map (·.owner) ↔
      ∃ id ∈ f.forwarded resolve, ownerAt resolve id = some o := by
  constructor
  · intro h
    obtain ⟨w, hw, rfl⟩ := List.mem_map.mp h
    obtain ⟨g, hg, rfl⟩ := List.mem_map.mp hw
    obtain ⟨c, hc⟩ := List.exists_mem_of_ne_nil g.rendered
      (List.isEmpty_eq_false_iff.mp ((mem_wrapped f resolve).mp hg).2)
    have hid : c.node ∈ g.wrapper.ids := List.mem_map.mpr ⟨c, hc, rfl⟩
    exact ⟨c.node, (ids_perm f resolve).mem_iff.mp (List.mem_flatMap.mpr ⟨_, hw, hid⟩),
      ids_own f resolve hw hid⟩
  · rintro ⟨id, hid, owner⟩
    obtain ⟨w, hw, within⟩ := List.mem_flatMap.mp ((ids_perm f resolve).mem_iff.mpr hid)
    have same := (ids_own f resolve hw within).symm.trans owner
    exact List.mem_map.mpr ⟨w, hw, Option.some.inj same⟩

theorem owners_nodup : ((f.wrappers resolve).map (·.owner)).Nodup := by
  have keys := f.group_keys (f.extracted resolve)
  have owners : (f.group (f.extracted resolve)).Pairwise
      fun g g' => g.wrapper.owner ≠ g'.wrapper.owner := by
    refine (List.pairwise_map.mp keys).imp_of_mem fun {g g'} hg hg' differ same => differ ?_
    obtain ⟨node, name⟩ := Prod.mk.inj same
    rw [(f.group_shape _ g hg).1, (f.group_shape _ g' hg').1, node, name]
  rw [Forest.wrappers, List.map_map]
  exact List.pairwise_map.mpr (owners.filter _)

theorem wrappers_order : (f.wrappers resolve).Pairwise fun w w' =>
    ∃ id ∈ f.marked resolve, ownerAt resolve id = some w.owner ∧
      ∀ id' ∈ f.marked resolve, ownerAt resolve id' = some w'.owner → id < id' := by
  have order := f.group_order _ (extracted_ascending f resolve)
  rw [Forest.wrappers, List.pairwise_map]
  refine List.Pairwise.filter _ (order.imp_of_mem fun {g g'} hg hg' first => ?_)
  obtain ⟨c, hc, before⟩ := first
  obtain ⟨found, owner⟩ := (mem_members hg).mp hc
  refine ⟨c.node, mem_marked.mpr ⟨c, found, rfl⟩, owner, ?_⟩
  rintro id' marked owner'
  obtain ⟨d, hd, rfl⟩ := mem_marked.mp marked
  exact before d ((mem_members hg').mpr ⟨hd, owner'⟩)

/-- **Every marked declaration is accounted for**, for every forest and every resolver. -/
theorem generate_accounted : Accounted f resolve (generate f resolve) where
  counted := members_add_nameless f resolve
  nameless := nameless_iff f resolve
  receiverless := receiverless_iff f resolve
  once := diagnostics_once f resolve
  written := ⟨f.wrappers resolve, {
    text := text_eq f resolve
    groups := (List.length_map _).symm
    lines := ids_perm f resolve
    ascending := fun _ hw => ids_ascending f resolve hw
    own := fun _ hw _ hid => ids_own f resolve hw hid
    owners := mem_owners f resolve
    distinct := owners_nodup f resolve
    order := wrappers_order f resolve }⟩

end

end Forwarding
