import Forwarding.Proofs.Program.Numbering

/-!
Nothing is lost in a program. Its numbers run through the source files and, behind each file, through
its items in the order of the source, an item before those it holds (`entries`). A node and the two
tables keep what stands at its number, the numbers below a node follow it in a row, and going down
the lists of children from the nodes without a parent gives the outlines back.
-/

namespace Forwarding

/-! ### What gets a number -/

mutual

/-- An item and all that it holds, in the order of the source. -/
def OutlineItem.preorder : OutlineItem → List OutlineItem
  | { kind, name, modifiers, span, signature, children } =>
    { kind, name, modifiers, span, signature, children } :: itemsPreorder children

def itemsPreorder : List OutlineItem → List OutlineItem
  | [] => []
  | item :: items => item.preorder ++ itemsPreorder items

end

/-- A source file or an item of one. -/
inductive Entry where
  | file (o : Outline)
  | item (i : OutlineItem)

namespace Entry

def isFile : Entry → Bool
  | file _ => true
  | item _ => false

def kind : Entry → NodeKind
  | file _ => .compilationUnit
  | item i => i.kind

/-- A source file is named by its path. -/
def name : Entry → String
  | file o => o.path
  | item i => i.name

def modifiers : Entry → List String
  | file _ => []
  | item i => i.modifiers

def span : Entry → Span
  | file _ => {}
  | item i => i.span

def signature? : Entry → Option Signature
  | file _ => none
  | item i => i.signature

def usings? : Entry → Option Usings
  | file o => some o.usings
  | item _ => none

/-- The items directly inside. -/
def items : Entry → List OutlineItem
  | file o => o.items
  | item i => i.children

end Entry

/-- Source files, each followed by all of its items. -/
def entries (os : List Outline) : List Entry :=
  os.flatMap fun o => .file o :: (itemsPreorder o.items).map .item

/-- The nodes that have `id` above them, in document order. -/
def Forest.descendants (f : Forest) (id : NodeId) : List NodeId :=
  f.ids.filter fun j => id ∈ f.ancestors j

namespace Program

/-! ### Going down the lists of children -/

/-- The item at a node, without those inside it. -/
def leafAt (p : Program) (id : NodeId) : OutlineItem :=
  let n := (p.forest.get? id).getD default
  { kind := n.kind, name := n.name, modifiers := n.modifiers, span := n.span
    signature := p.signature? id }

/-- The item at a node with those inside it, `depth` levels down. -/
def itemAt (p : Program) : Nat → NodeId → OutlineItem
  | 0, id => p.leafAt id
  | depth + 1, id => { p.leafAt id with children := (p.forest.children id).map (p.itemAt depth) }

/-- The outline of the source file at a node. -/
def outlineAt (p : Program) (id : NodeId) : Outline :=
  { path := ((p.forest.get? id).map (·.name)).getD ""
    usings := (p.usings.lookup id).getD {}
    items := (p.forest.children id).map (p.itemAt p.forest.size) }

/-- The outlines of all nodes without a parent. -/
def outlines (p : Program) : List Outline :=
  (p.forest.ids.filter fun id => (p.forest.parent? id).isNone).map p.outlineAt

/-- Nodes and tables keep the entry at its number, and all that it holds follows it in a row. -/
structure Keeps (p : Program) (id : NodeId) (e : Entry) : Prop where
  node : ∃ n, p.forest.get? id = some n ∧ n.kind = e.kind ∧ n.name = e.name ∧
    n.modifiers = e.modifiers ∧ n.span = e.span ∧ (n.parent = none ↔ e.isFile = true)
  signature : p.signature? id = e.signature?
  usings : p.usings.lookup id = e.usings?
  descendants : p.forest.descendants id = List.range' (id + 1) (itemsSize e.items)

/-- The program is a numbering of these source files from which they can be had back. -/
structure Lossless (p : Program) (os : List Outline) : Prop where
  keeps : ∀ id e, (entries os)[id]? = some e → p.Keeps id e
  /-- Other numbers have neither a node nor an entry in a table. -/
  nothingElse : ∀ id, (entries os)[id]? = none →
    p.forest.get? id = none ∧ p.signature? id = none ∧ p.usings.lookup id = none
  rebuilt : p.outlines.map (fun o => (o.path, o.usings, o.items)) =
    os.map fun o => (o.path, o.usings, o.items)

/-! ### Entries in a program -/

theorem length_itemsPreorder (items : List OutlineItem) :
    (itemsPreorder items).length = itemsSize items := by
  induction items using itemsInduction with
  | nil => rfl
  | cons kind name modifiers span signature children items inside behind =>
    simp only [itemsPreorder, OutlineItem.preorder, List.length_append, List.length_cons, inside,
      behind, itemsSize, OutlineItem.size]

theorem length_entries (os : List Outline) : (entries os).length = filesSize os := by
  induction os with
  | nil => rfl
  | cons o os ih =>
    rw [entries, List.flatMap_cons, List.length_append, ← entries, ih, List.length_cons,
      List.length_map, length_itemsPreorder, filesSize, Outline.size]

/-- The program has this entry at `id`, and what the entry holds behind it. -/
def Stores (p : Program) (id : NodeId) : Entry → Prop
  | .file o => ∃ os, p.HoldsFiles id (o :: os)
  | .item i => ∃ parent items, p.Holds parent id (i :: items)

/-- What stands at a place is the first, inside what follows it, or behind that. -/
theorem getElem?_cons_append {α : Type} {a x : α} {xs ys : List α} {k : Nat}
    (h : (a :: (xs ++ ys))[k]? = some x) :
    (k = 0 ∧ x = a) ∨ (∃ j, k = 1 + j ∧ xs[j]? = some x) ∨
      ∃ j, k = xs.length + 1 + j ∧ ys[j]? = some x := by
  cases k with
  | zero =>
    rw [List.getElem?_cons_zero, Option.some.injEq] at h
    exact .inl ⟨rfl, h.symm⟩
  | succ k =>
    rw [List.getElem?_cons_succ] at h
    by_cases within : k < xs.length
    · rw [List.getElem?_append_left within] at h
      exact .inr (.inl ⟨k, Nat.add_comm k 1, h⟩)
    · rw [List.getElem?_append_right (Nat.le_of_not_lt within)] at h
      exact .inr (.inr ⟨k - xs.length, by omega, h⟩)

theorem Holds.stores {p : Program} {parent start : Nat} {items : List OutlineItem}
    (h : p.Holds parent start items) {k : Nat} {i : OutlineItem}
    (hk : (itemsPreorder items)[k]? = some i) : p.Stores (start + k) (.item i) := by
  induction items using itemsInduction generalizing parent start k with
  | nil => cases hk
  | cons kind name modifiers span signature children items inside behind =>
    rw [itemsPreorder, OutlineItem.preorder, List.cons_append] at hk
    rcases getElem?_cons_append hk with ⟨rfl, rfl⟩ | ⟨j, rfl, within⟩ | ⟨j, rfl, after⟩
    · exact ⟨parent, items, h⟩
    · rw [← Nat.add_assoc]
      exact inside h.inside within
    · rw [length_itemsPreorder, ← Nat.add_assoc]
      exact behind h.behind after

theorem HoldsFiles.stores {p : Program} {start : Nat} {os : List Outline}
    (h : p.HoldsFiles start os) {k : Nat} {e : Entry} (hk : (entries os)[k]? = some e) :
    p.Stores (start + k) e := by
  induction os generalizing start k with
  | nil => cases hk
  | cons o os ih =>
    rw [entries, List.flatMap_cons, ← entries, List.cons_append] at hk
    rcases getElem?_cons_append hk with ⟨rfl, rfl⟩ | ⟨j, rfl, within⟩ | ⟨j, rfl, after⟩
    · exact ⟨os, h⟩
    · rw [List.getElem?_map, Option.map_eq_some_iff] at within
      obtain ⟨i, found, rfl⟩ := within
      rw [← Nat.add_assoc]
      exact h.items.stores found
    · rw [List.length_map, length_itemsPreorder, ← Nat.add_assoc]
      exact ih h.behind after

theorem stores_ofOutlines {os : List Outline} {id : Nat} {e : Entry}
    (h : (entries os)[id]? = some e) : (ofOutlines os).Stores id e := by
  have := (ofOutlines_holdsFiles os).stores h
  rwa [Nat.zero_add] at this

theorem size_ofOutlines (os : List Outline) : (ofOutlines os).forest.size = (entries os).length := by
  rw [Forest.size, ← Array.length_toList, ofOutlines_forest, length_outlineNodes, length_entries]

namespace Stores

variable {p : Program} {id : Nat} {e : Entry}

theorem inside (h : p.Stores id e) : p.Holds id (id + 1) e.items := by
  cases e with
  | file o =>
    obtain ⟨os, held⟩ := h
    exact held.items
  | item i =>
    obtain ⟨parent, items, held⟩ := h
    exact held.inside

theorem node (h : p.Stores id e) :
    ∃ n, p.forest.get? id = some n ∧ n.kind = e.kind ∧ n.name = e.name ∧
      n.modifiers = e.modifiers ∧ n.span = e.span ∧ (n.parent = none ↔ e.isFile = true) := by
  cases e with
  | file o =>
    obtain ⟨os, held⟩ := h
    exact ⟨_, held.get?, rfl, rfl, rfl, rfl, by simp [Outline.node, Entry.isFile]⟩
  | item i =>
    obtain ⟨parent, items, held⟩ := h
    exact ⟨_, held.get?, rfl, rfl, rfl, rfl, by simp [Entry.isFile]⟩

theorem children (h : p.Stores id e) : p.forest.children id = itemNumbers (id + 1) e.items := by
  cases e with
  | file o =>
    obtain ⟨os, held⟩ := h
    rw [Forest.children, held.get?]
    rfl
  | item i =>
    obtain ⟨parent, items, held⟩ := h
    rw [Forest.children, held.get?]
    rfl

theorem signature (h : p.Stores id e) : p.signature? id = e.signature? := by
  cases e with
  | item i =>
    obtain ⟨parent, items, held⟩ := h
    exact held.signature?
  | file o =>
    obtain ⟨os, _, ⟨before, signatures, below⟩, _⟩ := h
    rw [signature?, signatures, outlineSignatures]
    apply lookup_absent
    intro id' s he
    rcases List.mem_append.mp he with old | new
    · exact Nat.ne_of_lt (below id' s old)
    · rcases List.mem_append.mp new with within | after
      · have := mem_itemSignatures _ _ _ _ within
        omega
      · have := mem_outlineSignatures _ _ _ _ after
        rw [Outline.size] at this
        omega

end Stores

/-- The table of directives speaks of source files only. -/
theorem HoldsFiles.of_mem_usings {p : Program} {start : Nat} {os : List Outline}
    (h : p.HoldsFiles start os) {id : Nat} {u : Usings} (hu : (id, u) ∈ outlineUsings start os) :
    ∃ o, p.Stores id (.file o) := by
  induction os generalizing start with
  | nil => cases hu
  | cons o os ih =>
    rcases List.mem_cons.mp hu with first | later
    · cases first
      exact ⟨o, os, h⟩
    · exact ih h.behind later

theorem Stores.usings {os : List Outline} {id : Nat} {e : Entry}
    (h : (ofOutlines os).Stores id e) : (ofOutlines os).usings.lookup id = e.usings? := by
  cases e with
  | file o =>
    obtain ⟨rest, held⟩ := h
    exact held.usings
  | item i =>
    apply lookup_absent
    rintro id' u hu rfl
    rw [ofOutlines_usings] at hu
    obtain ⟨o, file⟩ := (ofOutlines_holdsFiles os).of_mem_usings hu
    obtain ⟨n, found, _, _, _, _, root⟩ := h.node
    obtain ⟨n', found', _, _, _, _, root'⟩ := file.node
    rw [found, Option.some.injEq] at found'
    subst found'
    have : n.parent = none := root'.mpr rfl
    exact absurd (root.mp this) (by simp [Entry.isFile])

/-! ### What lies below a node -/

/-- All that is held below a node has the node above it. -/
theorem Holds.mem_ancestors {p : Program} (hf : p.forest.ParentsFirst) {parent start : Nat}
    {items : List OutlineItem} (h : p.Holds parent start items) {j : Nat}
    (hj : j ∈ List.range' start (itemsSize items)) : parent ∈ p.forest.ancestors j := by
  induction items using itemsInduction generalizing parent start with
  | nil => cases hj
  | cons kind name modifiers span signature children items inside behind =>
    have up : p.forest.parent? start = some parent := by
      rw [Forest.parent?, h.get?]
      rfl
    have first : parent ∈ p.forest.ancestors start := by
      rw [Forest.ancestors_of_parent hf up]
      exact List.mem_cons_self
    rw [List.mem_range'_1, itemsSize, OutlineItem.size] at hj
    by_cases here : j = start
    · exact here ▸ first
    · by_cases within : j < start + (itemsSize children + 1)
      · have below := inside h.inside (List.mem_range'_1.mpr ⟨by omega, by omega⟩)
        exact Forest.mem_ancestors_trans hf first below
      · exact behind h.behind (List.mem_range'_1.mpr ⟨by rw [OutlineItem.size]; omega,
          by rw [OutlineItem.size]; omega⟩)

/-- A child is stored with all that it holds before the last number of its parent. -/
theorem Holds.of_mem_itemNumbers {p : Program} {parent start : Nat} {items : List OutlineItem}
    (h : p.Holds parent start items) {j : Nat} (hj : j ∈ itemNumbers start items) :
    ∃ i, p.Stores j (.item i) ∧ j + i.size ≤ start + itemsSize items := by
  induction items generalizing start with
  | nil => cases hj
  | cons item items ih =>
    rw [itemsSize]
    rcases List.mem_cons.mp hj with rfl | later
    · exact ⟨item, ⟨parent, items, h⟩, by omega⟩
    · obtain ⟨i, stored, high⟩ := ih h.behind later
      exact ⟨i, stored, by omega⟩

theorem Holds.end_le {p : Program} {parent start : Nat} {items : List OutlineItem}
    (h : p.Holds parent start items) : start + itemsSize items ≤ p.forest.size := by
  obtain ⟨⟨before, after, length, nodes⟩, _⟩ := h
  rw [Forest.size, ← Array.length_toList, nodes, List.length_append, List.length_append, length,
    length_itemNodes]
  omega

/-- What has a node above it lies, with all that it holds itself, in the numbers of that node. -/
theorem end_le_of_mem_ancestors {p : Program} (hf : p.forest.WellFormed) {id j : Nat} {e : Entry}
    (he : p.Stores id e) (above : id ∈ p.forest.ancestors j) :
    ∃ i, p.Stores j (.item i) ∧ j + itemsSize i.children ≤ id + itemsSize e.items := by
  have child {q j : Nat} {d : Entry} (hd : p.Stores q d) (up : p.forest.parent? j = some q) :
      ∃ i, p.Stores j (.item i) ∧ j + itemsSize i.children ≤ q + itemsSize d.items := by
    have listed := hf.mem_children.mpr up
    rw [hd.children] at listed
    obtain ⟨i, stored, high⟩ := hd.inside.of_mem_itemNumbers listed
    rw [i.size_eq] at high
    exact ⟨i, stored, by omega⟩
  -- each step of the walk from `j` leads to a node whose numbers take in those of the one before
  induction j using Nat.strongRecOn with
  | ind j ih =>
    cases up : p.forest.parent? j with
    | none =>
      rw [Forest.ancestors_eq hf.parentsFirst, up] at above
      cases above
    | some q =>
      rw [Forest.ancestors_of_parent hf.parentsFirst up] at above
      rcases List.mem_cons.mp above with rfl | higher
      · exact child he up
      · obtain ⟨d, stored, within⟩ := ih q (hf.parentsFirst j q up) higher
        obtain ⟨i, found, below⟩ := child stored up
        exact ⟨i, found, Nat.le_trans below within⟩

theorem Stores.descendants {p : Program} (hf : p.forest.WellFormed) {id : Nat} {e : Entry}
    (h : p.Stores id e) :
    p.forest.descendants id = List.range' (id + 1) (itemsSize e.items) := by
  -- the numbers up to `id`, those of its own items, and those behind: only the middle ones lie below
  obtain ⟨rest, size⟩ := Nat.exists_eq_add_of_le h.inside.end_le
  have outside {start n : Nat} (out : start + n ≤ id + 1 ∨ id + 1 + itemsSize e.items ≤ start) :
      (List.range' start n).filter (fun j => id ∈ p.forest.ancestors j) = [] := by
    rw [List.filter_eq_nil_iff]
    intro j hj above
    have above := of_decide_eq_true above
    have low := Forest.lt_of_mem_ancestors hf.parentsFirst above
    obtain ⟨i, _, high⟩ := end_le_of_mem_ancestors hf h above
    have := List.mem_range'_1.mp hj
    omega
  have all : (List.range' (id + 1) (itemsSize e.items)).filter
      (fun j => id ∈ p.forest.ancestors j) = List.range' (id + 1) (itemsSize e.items) := by
    rw [List.filter_eq_self]
    intro j hj
    exact decide_eq_true (h.inside.mem_ancestors hf.parentsFirst hj)
  have split : p.forest.ids = List.range' 0 (id + 1) ++
      (List.range' (id + 1) (itemsSize e.items) ++
        List.range' (id + 1 + itemsSize e.items) rest) := by
    have first := List.range'_append_1 (s := 0) (m := id + 1) (n := itemsSize e.items + rest)
    have second := List.range'_append_1 (s := id + 1) (m := itemsSize e.items) (n := rest)
    rw [Nat.zero_add] at first
    rw [second, first, Forest.ids, size, List.range_eq_range', Nat.add_assoc]
  rw [Forest.descendants, split, List.filter_append, List.filter_append, outside (.inl (by omega)),
    all, outside (.inr (Nat.le_refl _)), List.nil_append, List.append_nil]

/-! ### Going back to the outlines -/

theorem leafAt_of_holds {p : Program} {parent start : Nat} {item : OutlineItem}
    {items : List OutlineItem} (h : p.Holds parent start (item :: items)) :
    p.leafAt start = { item with children := [] } := by
  simp only [leafAt, h.get?, h.signature?, Option.getD_some]
  rfl

/-- Items held by the program are read back if the way down is long enough. -/
theorem map_itemAt {p : Program} {parent start : Nat} {items : List OutlineItem}
    (h : p.Holds parent start items) (depth : Nat) (deep : itemsSize items ≤ depth) :
    (itemNumbers start items).map (p.itemAt depth) = items := by
  induction items using itemsInduction generalizing parent start depth with
  | nil => rfl
  | cons kind name modifiers span signature children items inside behind =>
    rw [itemsSize, OutlineItem.size] at deep
    have rest := behind h.behind depth (by omega)
    have listed : p.forest.children start = itemNumbers (start + 1) children :=
      Stores.children (e := .item ⟨kind, name, modifiers, span, signature, children⟩) ⟨parent, items, h⟩
    cases depth with
    | zero => omega
    | succ depth =>
      have first := inside h.inside depth (by omega)
      rw [itemNumbers, List.map_cons, rest, itemAt, listed, leafAt_of_holds h]
      simp only [first]

theorem outlineAt_of_holdsFiles {p : Program} {start : Nat} {o : Outline} {os : List Outline}
    (h : p.HoldsFiles start (o :: os)) : p.outlineAt start = { o with hasErrors := false } := by
  have listed : p.forest.children start = itemNumbers (start + 1) o.items :=
    Stores.children (e := .file o) ⟨os, h⟩
  have deep := h.items.end_le
  rw [outlineAt, h.get?, h.usings, listed, map_itemAt h.items _ (by omega)]
  rfl

theorem outlines_of_holdsFiles {p : Program} (hf : p.forest.ParentsFirst) {start : Nat}
    {os : List Outline} (h : p.HoldsFiles start os) :
    ((List.range' start (filesSize os)).filter fun id => (p.forest.parent? id).isNone).map
      p.outlineAt = os.map fun o => { o with hasErrors := false } := by
  induction os generalizing start with
  | nil => rfl
  | cons o os ih =>
    have root : (p.forest.parent? start).isNone = true := by
      rw [Forest.parent?, h.get?]
      rfl
    have inner : (List.range' (start + 1) (itemsSize o.items)).filter
        (fun id => (p.forest.parent? id).isNone) = [] := by
      rw [List.filter_eq_nil_iff]
      intro j hj noParent
      have above := h.items.mem_ancestors hf hj
      rw [Forest.ancestors_eq hf, Option.isNone_iff_eq_none.mp noParent] at above
      cases above
    rw [filesSize, Outline.size, ← List.range'_append_1, List.range'_succ, List.cons_append,
      List.filter_cons_of_pos (by exact root), List.filter_append, inner, List.nil_append, List.map_cons,
      outlineAt_of_holdsFiles h, List.map_cons]
    exact congrArg _ (ih h.behind)

/-- **A program keeps its source files whole**: every number stands for a file or an item of one, in
the order of the source, and the files can be read back. -/
theorem ofOutlines_lossless (os : List Outline) : (ofOutlines os).Lossless os where
  keeps := by
    intro id e h
    have stored := stores_ofOutlines h
    exact ⟨stored.node, stored.signature, stored.usings, stored.descendants (wellFormed_ofOutlines os)⟩
  nothingElse := by
    intro id h
    rw [List.getElem?_eq_none_iff, ← size_ofOutlines] at h
    refine ⟨Forest.get?_of_size_le _ id h, ?_, ?_⟩
    · rw [signature?, ofOutlines_signatures]
      apply lookup_absent
      rintro _ s hs rfl
      have := mem_outlineSignatures _ _ _ _ hs
      rw [size_ofOutlines, length_entries] at h
      omega
    · apply lookup_absent
      rintro _ u hu rfl
      rw [ofOutlines_usings] at hu
      obtain ⟨o, file⟩ := (ofOutlines_holdsFiles os).of_mem_usings hu
      obtain ⟨n, found, _⟩ := file.node
      exact absurd (Forest.lt_size_of_get? found) (Nat.not_lt.mpr h)
  rebuilt := by
    rw [outlines, ids_ofOutlines, outlines_of_holdsFiles (parentsFirst_ofOutlines os)
      (ofOutlines_holdsFiles os), List.map_map]
    rfl

end Program

end Forwarding
