import Forwarding.Proofs.Candidate.ForwardName
import Forwarding.Proofs.Generation.TopDown
import Forwarding.Proofs.Program.Numbering

/-!
Places in a program. What the walk upwards reads off the forest of a program is what is handed down
from the top of its outlines: the children of a node stand at the place that the node's item leads
to. So the candidates found by going through all numbers are those that are met on the way down, and
so are the types of the index.
-/

namespace Forwarding

mutual

/-- No item among these is a source file. -/
def OutlineItem.isUnitFree : OutlineItem → Bool
  | { kind, children, .. } => kind != .compilationUnit && unitFree children

def unitFree : List OutlineItem → Bool
  | [] => true
  | item :: items => item.isUnitFree && unitFree items

end

theorem unitFree_cons (item : OutlineItem) (items : List OutlineItem) :
    unitFree (item :: items) = true ↔
      item.kind ≠ .compilationUnit ∧ unitFree item.children = true ∧ unitFree items = true := by
  cases item
  simp [unitFree, OutlineItem.isUnitFree, and_assoc]

namespace TopDown

theorem Place.around_enter (s : Place) (item : OutlineItem) :
    (s.enter item).around = if item.kind = .container then s.around ++ [item.name] else [] := by
  unfold Place.enter
  split <;> simp_all

/-- The children of the node `parent` stand at the place `s` in a file with the directives `u`. -/
structure Stands (p : Program) (parent : Nat) (s : Place) (u : Usings) : Prop where
  inBlock : p.forest.kind? parent = some .blockNamespace ↔ s.inBlock = true
  namespacePath : ∀ id : Nat, p.forest.parent? id = some parent →
    p.forest.namespacePath id = s.namespacePath
  around : ∀ id : Nat, p.forest.parent? id = some parent → p.forest.around id = s.around
  usings : ∀ id : Nat, p.forest.parent? id = some parent →
    p.forest.kind? id ≠ some .compilationUnit → p.usingsAt id = u

section

variable {p : Program} {parent start : Nat} {s : Place} {u : Usings} {item : OutlineItem}
  {items : List OutlineItem}

theorem kind?_of_holds (h : p.Holds parent start (item :: items)) :
    p.forest.kind? start = some item.kind := by
  rw [Forest.kind?, h.get?]; rfl

theorem parent?_of_holds (h : p.Holds parent start (item :: items)) :
    p.forest.parent? start = some parent := by
  rw [Forest.parent?, h.get?]; rfl

/-- One step down: what the item hands on is what the walk from its children reads first. -/
theorem Stands.enter (hf : p.forest.ParentsFirst) (h : p.Holds parent start (item :: items))
    (hs : Stands p parent s u) (hk : item.kind ≠ .compilationUnit) :
    Stands p start (s.enter item) u := by
  have kind := kind?_of_holds h
  have up := parent?_of_holds h
  refine ⟨?_, ?_, ?_, ?_⟩
  · rw [kind, Place.enter]
    cases item.kind <;> simp
  · intro id hid
    rw [Forest.namespacePath_of_parent hf hid h.get?, up, Option.bind_some,
      hs.namespacePath start up]
    simp only [OutlineItem.node_kind, OutlineItem.node_name, Place.enter, hs.inBlock]
    cases item.kind <;> rfl
  · intro id hid
    rw [Forest.around_of_parent hf hid h.get?, hs.around start up, Place.around_enter,
      OutlineItem.node_name]
    simp only [OutlineItem.node_kind]
  · intro id hid hkid
    have here := hs.usings start up (by rw [kind]; simpa using hk)
    rw [← here, Program.usingsAt, Program.usingsAt, Forest.unitOf?_of_parent hf hid hkid]

/-- A container at its place has the qualified name that the place gives it. -/
theorem qualifiedName_of_holds (h : p.Holds parent start (item :: items))
    (hs : Stands p parent s u) : p.forest.qualifiedName start = s.qualify item.name := by
  have up := parent?_of_holds h
  rw [Forest.qualifiedName_eq, hs.namespacePath start up, hs.around start up, h.get?, Place.qualify]
  rfl

theorem qualifiedName?_of_holds (h : p.Holds parent start (item :: items))
    (hs : Stands p parent s u) :
    p.qualifiedName? start = (s.host? item).map (·.qualifiedName) := by
  rw [Program.qualifiedName?, h.get?]
  simp only [qualifiedName_of_holds h hs, OutlineItem.node_kind, OutlineItem.node_name, Place.host?]
  split <;> rfl

end

/-! ### The index of types -/

/-- The entry that a node makes in the index of types. -/
def typeAt (p : Program) (id : Nat) : Option (String × String) :=
  match p.forest.get? id, p.qualifiedName? id with
  | some n, some q => some (n.name, q)
  | _, _ => none

theorem typeAt_of_holds {p : Program} {parent start : Nat} {s : Place} {u : Usings}
    {item : OutlineItem} {items : List OutlineItem} (h : p.Holds parent start (item :: items))
    (hs : Stands p parent s u) :
    typeAt p start = (s.host? item).map fun h => (h.name, h.qualifiedName) := by
  rw [typeAt, h.get?, qualifiedName?_of_holds h hs]
  by_cases named : (decide (item.kind = .container) && !item.name.isEmpty) = true
  · simp only [Place.host?, if_pos named, Option.map_some]; rfl
  · simp only [Place.host?, if_neg named, Option.map_none]

/-! ### Candidates -/

/-- The owner that a node is for the methods directly inside it. -/
def owner? (p : Program) (id : Nat) : Option Owner :=
  (typeAt p id).map fun names => { node := id, name := names.1, qualifiedName := names.2 }

/-- The candidate behind a number, if there is one. -/
def candidateAt (p : Program) (ix : TypeIndex) (id : Nat) : Option Candidate :=
  if p.forest.isCandidate id then Candidate.extract? (p.resolveWith ix) id else none

theorem candidates_eq (p : Program) (ix : TypeIndex) :
    p.forest.candidates.filterMap (Candidate.extract? (p.resolveWith ix)) =
      p.forest.ids.filterMap (candidateAt p ix) := by
  rw [Forest.candidates, List.filterMap_filter]
  rfl

/-- The candidate that a method is below its owner. -/
def Method.candidate (m : Method) (owner : Owner) (node : Nat) : Candidate :=
  { node, owner, simpleName := m.name, parameters := m.parameters, returnType := m.returnType
    modifiers := m.modifiers }

/-- The owner that a container with the number `node` is. -/
def Host.owner (h : Host) (node : Nat) : Owner :=
  { node, name := h.name, qualifiedName := h.qualifiedName }

theorem Host.owner_node (h : Host) (node : Nat) : (h.owner node).node = node := rfl

section

variable {p : Program} {parent start : Nat} {s : Place} {u : Usings} {item : OutlineItem}
  {items : List OutlineItem}

/-- A node inside an owner resolves by its item alone. -/
theorem resolveWith_of_holds (h : p.Holds parent start (item :: items)) (hs : Stands p parent s u)
    (hk : item.kind ≠ .compilationUnit) (ix : TypeIndex) (named : item.name.isEmpty = false) :
    p.resolveWith ix start = (owner? p parent).bind fun o => item.signature.map fun sig =>
      { name := item.name
        parameters := sig.parameters.map fun q =>
          { q with ty := TypeName.canonical { usings := u, index := ix } q.ty }
        returnType := TypeName.canonical { usings := u, index := ix } sig.returnType
        containingType := o
        modifiers := item.modifiers } := by
  have usings := hs.usings start (parent?_of_holds h) (by rw [kind?_of_holds h]; simpa using hk)
  have named : ¬ item.name = "" := by simpa [String.isEmpty_iff] using named
  rw [Program.resolveWith, h.get?, h.signature?, usings, owner?, typeAt]
  cases item.signature <;> cases node : p.forest.get? parent <;>
    cases name : p.qualifiedName? parent <;> simp [named, node, name]

theorem kind?_of_owner? {o : Owner} (h : owner? p parent = some o) :
    p.forest.kind? parent = some .container := by
  obtain ⟨names, types, _⟩ := Option.map_eq_some_iff.mp h
  rw [typeAt] at types
  split at types
  · rename_i n q node name
    rw [Program.qualifiedName?, node] at name
    simp only [Option.ite_none_right_eq_some, Bool.and_eq_true, decide_eq_true_eq] at name
    rw [Forest.kind?, node, Option.map_some, name.1.1]
  · cases types

/-- A node is a candidate exactly if it stands in an owner and its item is a method to forward. -/
theorem candidateAt_of_holds (h : p.Holds parent start (item :: items)) (hs : Stands p parent s u)
    (hk : item.kind ≠ .compilationUnit) (ix : TypeIndex) :
    candidateAt p ix start = (owner? p parent).bind fun o =>
      (method? { usings := u, index := ix } item).map (·.candidate o start) := by
  rw [candidateAt, Forest.isCandidate, h.get?]
  simp only [OutlineItem.node_kind, OutlineItem.node_name, OutlineItem.node_parent,
    Node.hasModifier, OutlineItem.node_modifiers, Option.bind_some]
  by_cases marked : (decide (item.kind = .method) && item.modifiers.contains "static" &&
      hasExtensionSuffix item.name) = true
  · have suffix : hasExtensionSuffix item.name = true := (Bool.and_eq_true_iff.mp marked).2
    have named : item.name.isEmpty = false := by
      obtain ⟨front, same⟩ := (hasExtensionSuffix_iff _).mp suffix
      simp [same, extensionSuffix]
    rw [Candidate.extract?, resolveWith_of_holds h hs hk ix named, method?, if_pos marked]
    cases owner : owner? p parent with
    | none => simp
    | some o =>
      rw [marked, kind?_of_owner? owner]
      cases item.signature <;> simp [Candidate.ofSymbol?, suffix, Method.candidate]
  · rw [method?, if_neg marked, Bool.eq_false_iff.mpr marked]
    simp

/-- What an item is to the methods directly inside it. -/
theorem owner?_of_holds (h : p.Holds parent start (item :: items)) (hs : Stands p parent s u) :
    owner? p start = (s.host? item).map (·.owner start) := by
  rw [owner?, typeAt_of_holds h hs, Option.map_map]
  rfl

end

/-! ### Going through the numbers -/

mutual

/-- The candidates inside an item with the number `start`, as they are met on the way down. -/
def candidatesIn (ctx : TypeName.Context) (s : Place) (start : Nat) :
    OutlineItem → List Candidate
  | { kind, name, modifiers, span, signature, children } =>
    let item : OutlineItem := { kind, name, modifiers, span, signature, children }
    candidates ctx ((s.host? item).map (·.owner start)) (s.enter item) (start + 1) children

/-- The candidates among neighbouring items and inside them. -/
def candidates (ctx : TypeName.Context) (owner : Option Owner) (s : Place) (start : Nat) :
    List OutlineItem → List Candidate
  | [] => []
  | item :: items =>
    (owner.bind fun o => (method? ctx item).map (·.candidate o start)).toList ++
      (candidatesIn ctx s start item ++ candidates ctx owner s (start + item.size) items)

end

/-- The numbers of neighbouring items: that of the first, those inside it and those behind it. -/
theorem filterMap_range_items {α : Type} (g : Nat → Option α) (start : Nat) (item : OutlineItem)
    (items : List OutlineItem) :
    (List.range' start (itemsSize (item :: items))).filterMap g =
      (g start).toList ++ ((List.range' (start + 1) (itemsSize item.children)).filterMap g ++
        (List.range' (start + item.size) (itemsSize items)).filterMap g) := by
  rw [itemsSize, ← List.range'_append_1, List.filterMap_append, item.size_eq, List.range'_succ,
    List.filterMap_cons]
  cases g start <;> rfl

theorem filterMap_typeAt (items : List OutlineItem) (p : Program) (parent start : Nat) (s : Place)
    (u : Usings) (hf : p.forest.ParentsFirst) (h : p.Holds parent start items)
    (hs : Stands p parent s u) (free : unitFree items = true) :
    (List.range' start (itemsSize items)).filterMap (typeAt p) = types s items := by
  induction items using itemsInduction generalizing parent start s with
  | nil => rfl
  | cons kind name modifiers span signature children items inside behind =>
    obtain ⟨hk, below, after⟩ := (unitFree_cons _ _).mp free
    rw [filterMap_range_items, typeAt_of_holds h hs, types, typesIn, List.append_assoc,
      inside _ _ _ h.inside (hs.enter hf h hk) below, behind _ _ _ h.behind hs after]

theorem filterMap_candidateAt (items : List OutlineItem) (p : Program) (ix : TypeIndex)
    (parent start : Nat) (s : Place) (u : Usings) (hf : p.forest.ParentsFirst)
    (h : p.Holds parent start items) (hs : Stands p parent s u) (free : unitFree items = true) :
    (List.range' start (itemsSize items)).filterMap (candidateAt p ix) =
      candidates { usings := u, index := ix } (owner? p parent) s start items := by
  induction items using itemsInduction generalizing parent start s with
  | nil => rfl
  | cons kind name modifiers span signature children items inside behind =>
    obtain ⟨hk, below, after⟩ := (unitFree_cons _ _).mp free
    rw [filterMap_range_items, candidateAt_of_holds h hs hk, candidates, candidatesIn,
      inside _ _ _ h.inside (hs.enter hf h hk) below, behind _ _ _ h.behind hs after,
      owner?_of_holds h hs]

/-! ### Source files -/

section

variable {p : Program} {start : Nat} {o : Outline} {os : List Outline}

/-- The items of a source file stand at the empty place. -/
theorem stands_of_holdsFiles (hf : p.forest.ParentsFirst) (h : p.HoldsFiles start (o :: os)) :
    Stands p start {} o.usings := by
  have unit : p.forest.kind? start = some .compilationUnit := by rw [Forest.kind?, h.get?]; rfl
  have root : p.forest.parent? start = none := by rw [Forest.parent?, h.get?]; rfl
  refine ⟨?_, ?_, ?_, ?_⟩
  · simp [unit]
  · intro id hid
    exact (Forest.namespacePath_of_parent hf hid h.get?).trans (Forest.namespacePath_of_root hf root)
  · intro id hid
    exact Forest.around_of_parent hf hid h.get?
  · intro id hid hk
    rw [Program.usingsAt, Forest.unitOf?_of_parent hf hid hk, Forest.unitOf?, if_pos unit,
      Option.bind_some, h.usings]
    rfl

theorem typeAt_of_holdsFiles (h : p.HoldsFiles start (o :: os)) : typeAt p start = none := by
  rw [typeAt, Program.qualifiedName?, h.get?]
  rfl

theorem candidateAt_of_holdsFiles (h : p.HoldsFiles start (o :: os)) (ix : TypeIndex) :
    candidateAt p ix start = none := by
  rw [candidateAt, Forest.isCandidate, h.get?]
  rfl

theorem owner?_of_holdsFiles (h : p.HoldsFiles start (o :: os)) : owner? p start = none := by
  rw [owner?, typeAt_of_holdsFiles h]
  rfl

end

/-- The numbers of source files: that of the first, those inside it and those behind it. -/
theorem filterMap_range_files {α : Type} (g : Nat → Option α) (start : Nat) (o : Outline)
    (os : List Outline) :
    (List.range' start (filesSize (o :: os))).filterMap g =
      (g start).toList ++ ((List.range' (start + 1) (itemsSize o.items)).filterMap g ++
        (List.range' (start + o.size) (filesSize os)).filterMap g) := by
  rw [filesSize, ← List.range'_append_1, List.filterMap_append, Outline.size, List.range'_succ,
    List.filterMap_cons]
  cases g start <;> rfl

theorem filterMap_typeAt_files (os : List Outline) (p : Program) (start : Nat)
    (hf : p.forest.ParentsFirst) (h : p.HoldsFiles start os)
    (free : ∀ o ∈ os, unitFree o.items = true) :
    (List.range' start (filesSize os)).filterMap (typeAt p) =
      os.flatMap fun o => types {} o.items := by
  induction os generalizing start with
  | nil => rfl
  | cons o os ih =>
    obtain ⟨first, others⟩ := List.forall_mem_cons.mp free
    rw [filterMap_range_files, typeAt_of_holdsFiles h, List.flatMap_cons,
      filterMap_typeAt _ _ _ _ _ _ hf h.items (stands_of_holdsFiles hf h) first,
      ih _ h.behind others]
    rfl

/-- The candidates of some source files, numbered from `start` on. -/
def fileCandidates (ix : TypeIndex) (start : Nat) : List Outline → List Candidate
  | [] => []
  | o :: os =>
    candidates { usings := o.usings, index := ix } none {} (start + 1) o.items ++
      fileCandidates ix (start + o.size) os

theorem filterMap_candidateAt_files (os : List Outline) (p : Program) (ix : TypeIndex)
    (start : Nat) (hf : p.forest.ParentsFirst) (h : p.HoldsFiles start os)
    (free : ∀ o ∈ os, unitFree o.items = true) :
    (List.range' start (filesSize os)).filterMap (candidateAt p ix) =
      fileCandidates ix start os := by
  induction os generalizing start with
  | nil => rfl
  | cons o os ih =>
    obtain ⟨first, others⟩ := List.forall_mem_cons.mp free
    rw [filterMap_range_files, candidateAt_of_holdsFiles h, fileCandidates,
      filterMap_candidateAt _ _ _ _ _ _ _ hf h.items (stands_of_holdsFiles hf h) first,
      owner?_of_holdsFiles h, ih _ h.behind others]
    rfl

/-- The index that a program makes is the one read off its outlines. -/
theorem typeIndex_ofOutlines (os : List Outline) (free : ∀ o ∈ os, unitFree o.items = true) :
    (Program.ofOutlines os).typeIndex = index os := by
  rw [index, ← filterMap_typeAt_files os _ 0 (Program.parentsFirst_ofOutlines os)
    (Program.ofOutlines_holdsFiles os) free, ← Program.ids_ofOutlines]
  rfl

/-- The candidates that a program finds are those met on the way down. -/
theorem candidates_ofOutlines (os : List Outline) (free : ∀ o ∈ os, unitFree o.items = true)
    (ix : TypeIndex) :
    (Program.ofOutlines os).forest.candidates.filterMap
        (Candidate.extract? ((Program.ofOutlines os).resolveWith ix)) =
      fileCandidates ix 0 os := by
  rw [candidates_eq, Program.ids_ofOutlines, filterMap_candidateAt_files os _ ix 0
    (Program.parentsFirst_ofOutlines os) (Program.ofOutlines_holdsFiles os) free]

end TopDown

end Forwarding
