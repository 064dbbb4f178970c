import Forwarding.Proofs.Forest.Growth

/-!
The numbering of a program. An item's number is followed by the numbers of all that it holds, in the
order of the source, before the next item is numbered. So the nodes of a program and its two tables
are listed here straight from the outlines, and `ofOutlines_forest`, `ofOutlines_signatures` and
`ofOutlines_usings` show that adding the items one by one makes these lists.
-/

namespace Forwarding

/-- Induction on neighbouring items: what holds of the items inside the first one and of the items
behind it holds of them all. -/
@[elab_as_elim]
theorem itemsInduction {motive : List OutlineItem → Prop} (nil : motive [])
    (cons : ∀ kind name modifiers span signature children items, motive children → motive items →
      motive ({ kind, name, modifiers, span, signature, children } :: items)) :
    ∀ items, motive items
  | [] => nil
  | ⟨_, _, _, _, _, children⟩ :: items =>
    cons _ _ _ _ _ _ _ (itemsInduction nil cons children) (itemsInduction nil cons items)

/-! ### The lists -/

mutual

/-- How many numbers an item takes up with all that it holds. -/
def OutlineItem.size : OutlineItem → Nat
  | { children, .. } => itemsSize children + 1

def itemsSize : List OutlineItem → Nat
  | [] => 0
  | item :: items => item.size + itemsSize items

end

/-- The numbers of neighbouring items when the first one gets `start`. -/
def itemNumbers (start : Nat) : List OutlineItem → List NodeId
  | [] => []
  | item :: items => start :: itemNumbers (start + item.size) items

/-- The node of an item below `parent` that gets the number `start`. -/
def OutlineItem.node (item : OutlineItem) (parent start : Nat) : Node :=
  { kind := item.kind, name := item.name, modifiers := item.modifiers, parent := some parent
    children := itemNumbers (start + 1) item.children, span := item.span }

namespace OutlineItem

@[simp] theorem node_kind (item : OutlineItem) (parent start : Nat) :
    (item.node parent start).kind = item.kind := by
  simp only [node]

@[simp] theorem node_name (item : OutlineItem) (parent start : Nat) :
    (item.node parent start).name = item.name := by
  simp only [node]

@[simp] theorem node_modifiers (item : OutlineItem) (parent start : Nat) :
    (item.node parent start).modifiers = item.modifiers := by
  simp only [node]

@[simp] theorem node_parent (item : OutlineItem) (parent start : Nat) :
    (item.node parent start).parent = some parent := by
  simp only [node]

end OutlineItem

mutual

/-- The nodes of an item below `parent` and of all that it holds, numbered from `start` on. -/
def OutlineItem.nodes (parent start : Nat) : OutlineItem → List Node
  | { kind, name, modifiers, span, signature, children } =>
    OutlineItem.node { kind, name, modifiers, span, signature, children } parent start ::
      itemNodes start (start + 1) children

def itemNodes (parent start : Nat) : List OutlineItem → List Node
  | [] => []
  | item :: items => item.nodes parent start ++ itemNodes parent (start + item.size) items

end

mutual

/-- The signatures of an item and of all that it holds, by their numbers. -/
def OutlineItem.signatures (start : Nat) : OutlineItem → List (NodeId × Signature)
  | { signature, children, .. } =>
    (signature.map fun s => (start, s)).toList ++ itemSignatures (start + 1) children

def itemSignatures (start : Nat) : List OutlineItem → List (NodeId × Signature)
  | [] => []
  | item :: items => item.signatures start ++ itemSignatures (start + item.size) items

end

theorem OutlineItem.size_eq (item : OutlineItem) : item.size = itemsSize item.children + 1 := by
  cases item; rfl

theorem itemNodes_cons (parent start : Nat) (item : OutlineItem) (items : List OutlineItem) :
    itemNodes parent start (item :: items) =
      item.node parent start ::
        (itemNodes start (start + 1) item.children ++
          itemNodes parent (start + item.size) items) := by
  cases item; rfl

theorem itemSignatures_cons (start : Nat) (item : OutlineItem) (items : List OutlineItem) :
    itemSignatures start (item :: items) =
      (item.signature.map fun s => (start, s)).toList ++
        (itemSignatures (start + 1) item.children ++
          itemSignatures (start + item.size) items) := by
  cases item
  rw [itemSignatures, OutlineItem.signatures, List.append_assoc]

namespace Outline

def size (o : Outline) : Nat :=
  itemsSize o.items + 1

/-- The node of a source file that gets the number `start`. -/
def node (o : Outline) (start : Nat) : Node :=
  { kind := .compilationUnit, name := o.path, children := itemNumbers (start + 1) o.items }

/-- The nodes of a source file, numbered from `start` on. -/
def nodes (start : Nat) (o : Outline) : List Node :=
  o.node start :: itemNodes start (start + 1) o.items

end Outline

/-- How many numbers some source files take up. -/
def filesSize : List Outline → Nat
  | [] => 0
  | o :: os => o.size + filesSize os

/-- The nodes of some source files. -/
def outlineNodes (start : Nat) : List Outline → List Node
  | [] => []
  | o :: os => o.nodes start ++ outlineNodes (start + o.size) os

def outlineSignatures (start : Nat) : List Outline → List (NodeId × Signature)
  | [] => []
  | o :: os => itemSignatures (start + 1) o.items ++ outlineSignatures (start + o.size) os

def outlineUsings (start : Nat) : List Outline → List (NodeId × Usings)
  | [] => []
  | o :: os => (start, o.usings) :: outlineUsings (start + o.size) os

theorem length_itemNodes (items : List OutlineItem) (parent start : Nat) :
    (itemNodes parent start items).length = itemsSize items := by
  induction items using itemsInduction generalizing parent start with
  | nil => rfl
  | cons kind name modifiers span signature children items inside behind =>
    simp only [itemNodes, OutlineItem.nodes, List.length_append, List.length_cons, inside, behind,
      itemsSize, OutlineItem.size]

theorem length_nodes (o : Outline) (start : Nat) : (o.nodes start).length = o.size := by
  simp only [Outline.nodes, List.length_cons, length_itemNodes, Outline.size]

/-! ### Adding items makes the lists -/

theorem modify_append_left {α : Type} (g : α → α) (i : Nat) (xs ys : List α) (h : i < xs.length) :
    (xs ++ ys).modify i g = xs.modify i g ++ ys := by
  induction xs generalizing i with
  | nil => simp at h
  | cons x xs ih =>
    cases i with
    | zero => rfl
    | succ i => simp [ih i (by simpa using h)]

theorem modify_append_cons {α : Type} (g : α → α) (xs ys : List α) (y : α) (i : Nat)
    (h : xs.length = i) : (xs ++ y :: ys).modify i g = xs ++ g y :: ys := by
  subst h
  induction xs with
  | nil => rfl
  | cons x xs ih => simp [ih]

/-- Lists further children of a node. -/
def Node.adopt (ids : List NodeId) (n : Node) : Node :=
  { n with children := n.children ++ ids }

theorem modify_adopt_adopt (ns : List Node) (i : Nat) (xs ys : List NodeId) :
    (ns.modify i (Node.adopt xs)).modify i (Node.adopt ys) = ns.modify i (Node.adopt (xs ++ ys)) := by
  rw [List.modify_modify_eq]
  congr 1
  funext n
  simp [Node.adopt]

theorem toList_addUnit (f : Forest) (path : String) :
    (f.addUnit path).nodes.toList =
      f.nodes.toList ++ [{ kind := .compilationUnit, name := path }] := by
  simp only [Forest.addUnit, Array.toList_push]

theorem toList_addChild (f : Forest) (parent : Nat) (kind : NodeKind) (name : String)
    (modifiers : List String) (span : Span) (h : parent < f.size) :
    (f.addChild parent kind name modifiers span).nodes.toList =
      f.nodes.toList.modify parent (Node.adopt [f.size]) ++
        [{ kind, name, modifiers, parent := some parent, span }] := by
  simp only [Forest.addChild, if_pos h, Forest.link, Array.toList_push, Array.toList_modify]
  rfl

namespace Program

theorem addItems_cons (p : Program) (parent : Nat) (kind : NodeKind) (name : String)
    (modifiers : List String) (span : Span) (signature : Option Signature)
    (children items : List OutlineItem) :
    p.addItems parent ({ kind, name, modifiers, span, signature, children } :: items) =
      (addItems {
        p with
        forest := p.forest.addChild parent kind name modifiers span
        signatures := p.signatures ++ (signature.map fun s => (p.forest.size, s)).toList }
        p.forest.size children).addItems parent items := rfl

@[simp] theorem addItems_nil (p : Program) (parent : Nat) : p.addItems parent [] = p := rfl

theorem size_addItems (items : List OutlineItem) (p : Program) (parent : Nat) :
    (p.addItems parent items).forest.size = p.forest.size + itemsSize items := by
  induction items using itemsInduction generalizing p parent with
  | nil => rfl
  | cons kind name modifiers span signature children items inside behind =>
    simp only [addItems_cons, behind, inside, Forest.size_addChild, itemsSize, OutlineItem.size]
    omega

theorem addItems_usings (items : List OutlineItem) (p : Program) (parent : Nat) :
    (p.addItems parent items).usings = p.usings := by
  induction items using itemsInduction generalizing p parent with
  | nil => rfl
  | cons kind name modifiers span signature children items inside behind =>
    rw [addItems_cons, behind, inside]

theorem addItems_signatures (items : List OutlineItem) (p : Program) (parent : Nat) :
    (p.addItems parent items).signatures = p.signatures ++ itemSignatures p.forest.size items := by
  induction items using itemsInduction generalizing p parent with
  | nil => simp [itemSignatures]
  | cons kind name modifiers span signature children items inside behind =>
    rw [addItems_cons, behind, inside, size_addItems]
    simp only [Forest.size_addChild, itemSignatures, OutlineItem.signatures, OutlineItem.size,
      List.append_assoc]
    congr 4
    omega

/-- Adding items lists the first level of them as children of the parent and appends their nodes. -/
theorem addItems_forest (items : List OutlineItem) (p : Program) (parent : Nat)
    (h : parent < p.forest.size) :
    (p.addItems parent items).forest.nodes.toList =
      p.forest.nodes.toList.modify parent (Node.adopt (itemNumbers p.forest.size items)) ++
        itemNodes parent p.forest.size items := by
  induction items using itemsInduction generalizing p parent with
  | nil => 
    have idle : Node.adopt [] = id := by funext n; simp [Node.adopt]
    simp [itemNumbers, itemNodes, idle]
  | cons kind name modifiers span signature children items inside behind =>
    have length : p.forest.nodes.toList.length = p.forest.size := Array.length_toList
    have size : p.forest.size + 1 + itemsSize children = p.forest.size + (itemsSize children + 1) := by
      omega
    rw [addItems_cons, behind _ _ (by simp only [size_addItems, Forest.size_addChild]; omega),
      inside _ _ (by simp), toList_addChild _ _ _ _ _ _ h, size_addItems]
    simp only [Forest.size_addChild, itemNumbers, itemNodes, OutlineItem.nodes, OutlineItem.size, size]
    generalize hA : p.forest.nodes.toList.modify parent (Node.adopt [p.forest.size]) = old
    have oldLength : old.length = p.forest.size := by rw [← hA, List.length_modify, length]
    -- The new node stands right behind the old ones, the parent among the old ones.
    rw [modify_append_cons _ _ _ _ _ oldLength, List.append_assoc,
      modify_append_left _ _ _ _ (by omega), ← hA, modify_adopt_adopt]
    simp only [Node.adopt, OutlineItem.node, List.nil_append, List.cons_append, List.append_assoc]

theorem addOutline_forest (p : Program) (o : Outline) :
    (p.addOutline o).forest.nodes.toList =
      p.forest.nodes.toList ++ o.nodes p.forest.size := by
  have length : p.forest.nodes.toList.length = p.forest.size := Array.length_toList
  rw [addOutline, addItems_forest _ _ _ (by simp), toList_addUnit, Forest.size_addUnit,
    modify_append_cons _ _ _ _ _ length]
  simp only [Node.adopt, Outline.nodes, Outline.node, List.nil_append, List.cons_append,
    List.append_assoc]

theorem size_addOutline (p : Program) (o : Outline) :
    (p.addOutline o).forest.size = p.forest.size + o.size := by
  simp only [addOutline, size_addItems, Forest.size_addUnit, Outline.size]
  omega

/-- What a program holds after some source files were added to it. -/
theorem addOutlines (os : List Outline) (p : Program) :
    (os.foldl addOutline p).forest.nodes.toList =
        p.forest.nodes.toList ++ outlineNodes p.forest.size os ∧
      (os.foldl addOutline p).signatures = p.signatures ++ outlineSignatures p.forest.size os ∧
      (os.foldl addOutline p).usings = p.usings ++ outlineUsings p.forest.size os := by
  induction os generalizing p with
  | nil => simp [outlineNodes, outlineSignatures, outlineUsings]
  | cons o os ih =>
    obtain ⟨nodes, signatures, usings⟩ := ih (p.addOutline o)
    rw [List.foldl_cons, nodes, signatures, usings, addOutline_forest, size_addOutline]
    refine ⟨?_, ?_, ?_⟩
    · rw [outlineNodes, List.append_assoc]
    · rw [addOutline, addItems_signatures, outlineSignatures, List.append_assoc,
        Forest.size_addUnit]
    · rw [addOutline, addItems_usings, outlineUsings, List.append_assoc, List.singleton_append]

theorem ofOutlines_forest (os : List Outline) :
    (ofOutlines os).forest.nodes.toList = outlineNodes 0 os :=
  (addOutlines os {}).1

theorem length_outlineNodes (os : List Outline) (start : Nat) :
    (outlineNodes start os).length = filesSize os := by
  induction os generalizing start with
  | nil => rfl
  | cons o os ih => rw [outlineNodes, List.length_append, length_nodes, ih, filesSize]

theorem ids_ofOutlines (os : List Outline) :
    (ofOutlines os).forest.ids = List.range' 0 (filesSize os) := by
  rw [Forest.ids, List.range_eq_range', Forest.size, ← Array.length_toList, ofOutlines_forest,
    length_outlineNodes]

theorem ofOutlines_signatures (os : List Outline) :
    (ofOutlines os).signatures = outlineSignatures 0 os :=
  (addOutlines os {}).2.1

theorem ofOutlines_usings (os : List Outline) : (ofOutlines os).usings = outlineUsings 0 os :=
  (addOutlines os {}).2.2

/-! ### Reading the lists -/

theorem mem_itemSignatures (items : List OutlineItem) (start id : Nat) (s : Signature)
    (h : (id, s) ∈ itemSignatures start items) : start ≤ id ∧ id < start + itemsSize items := by
  induction items using itemsInduction generalizing start with
  | nil => simp [itemSignatures] at h
  | cons kind name modifiers span signature children items inside behind =>
    simp only [itemSignatures, OutlineItem.signatures, List.mem_append, Option.mem_toList,
      Option.map_eq_some_iff, Prod.mk.injEq, OutlineItem.size, itemsSize] at h ⊢
    rcases h with (⟨_, _, rfl, _⟩ | within) | after
    · omega
    · have := inside _ within; omega
    · have := behind _ after; omega

theorem mem_outlineSignatures (os : List Outline) (start id : Nat) (s : Signature)
    (h : (id, s) ∈ outlineSignatures start os) : start ≤ id ∧ id < start + filesSize os := by
  induction os generalizing start with
  | nil => simp [outlineSignatures] at h
  | cons o os ih =>
    rw [filesSize, Outline.size]
    rw [outlineSignatures, Outline.size] at h
    rcases List.mem_append.mp h with within | after
    · have := mem_itemSignatures _ _ _ _ within; omega
    · have := ih _ after; omega

theorem lookup_absent {α : Type} (es : List (NodeId × α)) (start : Nat)
    (other : ∀ (id : Nat) x, (id, x) ∈ es → id ≠ start) : es.lookup start = none := by
  rw [List.lookup_eq_none_iff]
  intro e he
  simpa using fun same => other e.1 e.2 he same.symm

/-- The program keeps these items below `parent`, numbered from `start` on: their nodes stand in a
row in the forest, and the signatures at these numbers are theirs alone. -/
def Holds (p : Program) (parent start : Nat) (items : List OutlineItem) : Prop :=
  (∃ before after, before.length = start ∧
    p.forest.nodes.toList = before ++ itemNodes parent start items ++ after) ∧
  ∃ before after, p.signatures = before ++ itemSignatures start items ++ after ∧
    (∀ (id : Nat) s, (id, s) ∈ before → id < start) ∧
    ∀ (id : Nat) s, (id, s) ∈ after → start + itemsSize items ≤ id

/-- The first of the items stands at `start`. -/
theorem Holds.get? {p : Program} {parent start : Nat} {item : OutlineItem}
    {items : List OutlineItem} (h : p.Holds parent start (item :: items)) :
    p.forest.get? start = some (item.node parent start) := by
  obtain ⟨⟨before, after, length, nodes⟩, _⟩ := h
  rw [Forest.get?, ← Array.getElem?_toList, nodes, itemNodes_cons]
  simp [← length]

theorem Holds.signature? {p : Program} {parent start : Nat} {item : OutlineItem}
    {items : List OutlineItem} (h : p.Holds parent start (item :: items)) :
    p.signature? start = item.signature := by
  obtain ⟨_, before, after, signatures, below, above⟩ := h
  have size := item.size_eq
  simp only [itemsSize] at above
  rw [Program.signature?, signatures, itemSignatures_cons]
  simp only [List.lookup_append]
  rw [lookup_absent before start (fun id s he => by have := below id s he; omega),
    lookup_absent (itemSignatures (start + 1) item.children) start
      (fun id s he => by have := mem_itemSignatures _ _ _ _ he; omega),
    lookup_absent (itemSignatures (start + item.size) items) start
      (fun id s he => by have := mem_itemSignatures _ _ _ _ he; omega),
    lookup_absent after start (fun id s he => by have := above id s he; omega)]
  cases item.signature <;> simp

/-- The items inside the first one follow it. -/
theorem Holds.inside {p : Program} {parent start : Nat} {item : OutlineItem}
    {items : List OutlineItem} (h : p.Holds parent start (item :: items)) :
    p.Holds start (start + 1) item.children := by
  obtain ⟨⟨before, after, length, nodes⟩, before', after', signatures, below, above⟩ := h
  rw [itemNodes_cons] at nodes
  rw [itemSignatures_cons] at signatures
  simp only [itemsSize, item.size_eq] at above
  refine ⟨⟨before ++ [item.node parent start], itemNodes parent (start + item.size) items ++ after, ?_, ?_⟩,
    before' ++ (item.signature.map fun s => (start, s)).toList,
    itemSignatures (start + item.size) items ++ after', ?_, ?_, ?_⟩
  · simp [length]
  · simpa using nodes
  · simpa using signatures
  · intro id s he
    simp only [List.mem_append, Option.mem_toList, Option.map_eq_some_iff, Prod.mk.injEq] at he
    rcases he with old | ⟨_, _, rfl, _⟩
    · have := below id s old; omega
    · omega
  · intro id s he
    rcases List.mem_append.mp he with next | last
    · have := mem_itemSignatures _ _ _ _ next
      have := item.size_eq
      omega
    · have := above id s last; omega

/-- The items behind the first one follow all that it holds. -/
theorem Holds.behind {p : Program} {parent start : Nat} {item : OutlineItem}
    {items : List OutlineItem} (h : p.Holds parent start (item :: items)) :
    p.Holds parent (start + item.size) items := by
  obtain ⟨⟨before, after, length, nodes⟩, before', after', signatures, below, above⟩ := h
  have size := item.size_eq
  rw [itemNodes_cons] at nodes
  rw [itemSignatures_cons] at signatures
  simp only [itemsSize] at above
  refine ⟨⟨before ++ item.node parent start :: itemNodes start (start + 1) item.children, after, ?_, ?_⟩,
    before' ++ ((item.signature.map fun s => (start, s)).toList ++
      itemSignatures (start + 1) item.children), after', ?_, ?_, ?_⟩
  · simp only [List.length_append, List.length_cons, length_itemNodes]; omega
  · simpa using nodes
  · simpa using signatures
  · intro id s he
    simp only [List.mem_append, Option.mem_toList, Option.map_eq_some_iff, Prod.mk.injEq] at he
    rcases he with old | ⟨_, _, rfl, _⟩ | within
    · have := below id s old; omega
    · omega
    · have := mem_itemSignatures _ _ _ _ within; omega
  · intro id s he
    have := above id s he
    omega

/-- The program ends with these source files, numbered from `start` on. -/
def HoldsFiles (p : Program) (start : Nat) (os : List Outline) : Prop :=
  (∃ before, before.length = start ∧ p.forest.nodes.toList = before ++ outlineNodes start os) ∧
  (∃ before, p.signatures = before ++ outlineSignatures start os ∧
    ∀ (id : Nat) s, (id, s) ∈ before → id < start) ∧
  ∃ before, p.usings = before ++ outlineUsings start os ∧
    ∀ (id : Nat) u, (id, u) ∈ before → id < start

theorem ofOutlines_holdsFiles (os : List Outline) : (ofOutlines os).HoldsFiles 0 os :=
  ⟨⟨[], rfl, ofOutlines_forest os⟩, ⟨[], ofOutlines_signatures os, by simp⟩,
    [], ofOutlines_usings os, by simp⟩

/-- The node of the first file stands at `start`. -/
theorem HoldsFiles.get? {p : Program} {start : Nat} {o : Outline} {os : List Outline}
    (h : p.HoldsFiles start (o :: os)) :
    p.forest.get? start = some (o.node start) := by
  obtain ⟨⟨before, length, nodes⟩, _⟩ := h
  rw [Forest.get?, ← Array.getElem?_toList, nodes, outlineNodes, Outline.nodes]
  simp [← length]

theorem HoldsFiles.usings {p : Program} {start : Nat} {o : Outline} {os : List Outline}
    (h : p.HoldsFiles start (o :: os)) : p.usings.lookup start = some o.usings := by
  obtain ⟨_, _, before, usings, below⟩ := h
  have absent := lookup_absent before start (fun id u he => by have := below id u he; omega)
  simp [usings, outlineUsings, List.lookup_append, absent]

theorem HoldsFiles.items {p : Program} {start : Nat} {o : Outline} {os : List Outline}
    (h : p.HoldsFiles start (o :: os)) : p.Holds start (start + 1) o.items := by
  obtain ⟨⟨before, length, nodes⟩, ⟨before', signatures, below⟩, _⟩ := h
  rw [outlineNodes, Outline.nodes] at nodes
  refine ⟨⟨before ++ [o.node start], outlineNodes (start + o.size) os, ?_, nodes.trans ?_⟩,
    before', outlineSignatures (start + o.size) os, ?_, ?_, ?_⟩
  · simp [length]
  · simp
  · simpa [outlineSignatures] using signatures
  · intro id s he
    have := below id s he
    omega
  · intro id s he
    have := mem_outlineSignatures _ _ _ _ he
    simp only [Outline.size] at this
    omega

theorem HoldsFiles.behind {p : Program} {start : Nat} {o : Outline} {os : List Outline}
    (h : p.HoldsFiles start (o :: os)) : p.HoldsFiles (start + o.size) os := by
  obtain ⟨⟨before, length, nodes⟩, ⟨before', signatures, below⟩, before'', usings, below'⟩ := h
  refine ⟨⟨before ++ o.nodes start, ?_, ?_⟩,
    ⟨before' ++ itemSignatures (start + 1) o.items, ?_, ?_⟩,
    before'' ++ [(start, o.usings)], ?_, ?_⟩
  · rw [List.length_append, length_nodes, length]
  · simpa [outlineNodes] using nodes
  · simpa [outlineSignatures] using signatures
  · intro id s he
    have size : o.size = itemsSize o.items + 1 := rfl
    rcases List.mem_append.mp he with old | new
    · have := below id s old; omega
    · have := mem_itemSignatures _ _ _ _ new; omega
  · simpa [outlineUsings] using usings
  · intro id u he
    have size : o.size = itemsSize o.items + 1 := rfl
    rcases List.mem_append.mp he with old | new
    · have := below' id u old; omega
    · cases List.mem_singleton.mp new; omega

/-! ### The forest is well formed -/

theorem wellFormed_addItems (items : List OutlineItem) (p : Program) (parent : Nat)
    (h : p.forest.WellFormed) : (p.addItems parent items).forest.WellFormed := by
  induction items using itemsInduction generalizing p parent with
  | nil => exact h
  | cons kind name modifiers span signature children items inside behind =>
    rw [addItems_cons]
    exact behind _ _ (inside _ _ (h.add (.child parent kind name modifiers span)))

theorem wellFormed_ofOutlines (os : List Outline) : (ofOutlines os).forest.WellFormed := by
  have step (p : Program) (h : p.forest.WellFormed) :
      (os.foldl addOutline p).forest.WellFormed := by
    induction os generalizing p with
    | nil => exact h
    | cons o os ih => exact ih _ (wellFormed_addItems _ _ _ (h.add (.unit o.path)))
  exact step {} Forest.wellFormed_empty

theorem parentsFirst_ofOutlines (os : List Outline) : (ofOutlines os).forest.ParentsFirst :=
  (wellFormed_ofOutlines os).parentsFirst

end Program

end Forwarding
