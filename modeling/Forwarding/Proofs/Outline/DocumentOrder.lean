import Forwarding.Proofs.Outline.Bodies
import Forwarding.Proofs.Program.Rebuilding
import Forwarding.Proofs.Syntax.Apart
import Forwarding.Proofs.Syntax.Positions

/-!
Outlines follow the source. An item stands in front of all that it holds and of all that comes after
it, so the numbers that a program gives out within a file follow the places in that file. What a
namespace without a body holds stands behind it and not in it.
-/

namespace Forwarding

open Syntax

/-! ### Items in the order of the source -/

/-- The items with all that they hold are in the order of the source. -/
structure DocumentOrder (items : List OutlineItem) : Prop where
  starts : ((itemsPreorder items).map (·.span.startByte)).Pairwise (· < ·)
  spans : ∀ i ∈ itemsPreorder items,
    i.span.startByte < i.span.endByte ∧ i.span.startLine ≤ i.span.endLine
  apart : items.Pairwise fun a b => a.span.endByte ≤ b.span.startByte
  childrenApart : ∀ i ∈ itemsPreorder items,
    i.children.Pairwise fun a b => a.span.endByte ≤ b.span.startByte
  within : ∀ i ∈ itemsPreorder items, i.kind ≠ .fileNamespace → ∀ c ∈ i.children,
    i.span.startByte ≤ c.span.startByte ∧ c.span.endByte ≤ i.span.endByte
  adopted : ∀ i ∈ itemsPreorder items, i.kind = .fileNamespace → ∀ c ∈ i.children,
    i.span.endByte ≤ c.span.startByte

/-- The bytes between which the children of an item may stand: those of the item itself or, for a
namespace without a body, those behind it up to `middle`. -/
def OutlineItem.room (item : OutlineItem) (middle : Nat) : Nat × Nat :=
  if item.kind = .fileNamespace then (item.span.endByte, middle)
  else (item.span.startByte + 1, item.span.endByte)

/-- The items stand one behind another between two bytes, and so do the children of each of them in
the room that they have. -/
inductive Spread : Nat → Nat → List OutlineItem → Prop where
  | nil {lo hi} (le : lo ≤ hi) : Spread lo hi []
  | cons {lo middle hi item items} (after : lo ≤ item.span.startByte)
      (length : item.span.startByte < item.span.endByte) (passed : item.span.endByte ≤ middle)
      (lines : item.span.startLine ≤ item.span.endLine)
      (children : Spread (item.room middle).1 (item.room middle).2 item.children)
      (others : Spread middle hi items) : Spread lo hi (item :: items)

/-- The room of an item's children starts behind the start of the item. -/
theorem OutlineItem.room_bounds {item : OutlineItem} {middle : Nat}
    (length : item.span.startByte < item.span.endByte) (passed : item.span.endByte ≤ middle) :
    item.span.startByte < (item.room middle).1 ∧ (item.room middle).2 ≤ middle := by
  unfold room
  split
  · exact ⟨length, Nat.le_refl _⟩
  · exact ⟨Nat.lt_succ_self _, passed⟩

theorem itemsPreorder_cons (item : OutlineItem) (items : List OutlineItem) :
    itemsPreorder (item :: items) = item :: (itemsPreorder item.children ++ itemsPreorder items) := by
  cases item
  rfl

theorem mem_itemsPreorder {item : OutlineItem} {items : List OutlineItem} (mem : item ∈ items) :
    item ∈ itemsPreorder items := by
  induction items with
  | nil => cases mem
  | cons first items ih =>
    rw [itemsPreorder_cons]
    cases mem with
    | head => exact List.mem_cons_self
    | tail _ mem => exact List.mem_cons_of_mem _ (List.mem_append_right _ (ih mem))

namespace Spread

variable {lo hi : Nat} {items : List OutlineItem}

theorem le (h : Spread lo hi items) : lo ≤ hi := by
  induction h with
  | nil le => exact le
  | cons => omega

theorem widen_left {lo' : Nat} (h : Spread lo hi items) (le : lo' ≤ lo) : Spread lo' hi items := by
  cases h with
  | nil le' => exact .nil (Nat.le_trans le le')
  | cons after length passed lines children others =>
    exact .cons (Nat.le_trans le after) length passed lines children others

theorem widen_right {hi' : Nat} (h : Spread lo hi items) (le : hi ≤ hi') : Spread lo hi' items := by
  induction h with
  | nil le' => exact .nil (Nat.le_trans le' le)
  | cons after length passed lines children _ _ others =>
    exact .cons after length passed lines children (others le)

theorem append {middle : Nat} {others : List OutlineItem} (h : Spread lo middle items)
    (k : Spread middle hi others) : Spread lo hi (items ++ others) := by
  induction h with
  | nil le => exact k.widen_left le
  | cons after length passed lines children _ _ ih =>
    exact .cons after length passed lines children (ih k)

/-- All that the items hold lies between the two bytes. -/
theorem bounds (h : Spread lo hi items) {i : OutlineItem} (mem : i ∈ itemsPreorder items) :
    lo ≤ i.span.startByte ∧ i.span.endByte ≤ hi := by
  induction h with
  | nil => cases mem
  | cons after length passed lines children others inside behind =>
    have room := OutlineItem.room_bounds length passed
    have := others.le
    rw [itemsPreorder_cons, List.mem_cons, List.mem_append] at mem
    rcases mem with rfl | mem | mem
    · omega
    · have := inside mem
      omega
    · have := behind mem
      omega

theorem spans (h : Spread lo hi items) {i : OutlineItem} (mem : i ∈ itemsPreorder items) :
    i.span.startByte < i.span.endByte ∧ i.span.startLine ≤ i.span.endLine := by
  induction h with
  | nil => cases mem
  | cons after length passed lines children others inside behind =>
    rw [itemsPreorder_cons, List.mem_cons, List.mem_append] at mem
    rcases mem with rfl | mem | mem
    · exact ⟨length, lines⟩
    · exact inside mem
    · exact behind mem

theorem starts (h : Spread lo hi items) :
    ((itemsPreorder items).map (·.span.startByte)).Pairwise (· < ·) := by
  induction h with
  | nil => exact .nil
  | cons after length passed lines children others inside behind =>
    have room := OutlineItem.room_bounds length passed
    rw [itemsPreorder_cons, List.map_cons, List.map_append, List.pairwise_cons,
      List.pairwise_append]
    refine ⟨?_, inside, behind, ?_⟩
    · intro start mem
      rw [← List.map_append, List.mem_map] at mem
      obtain ⟨i, mem, rfl⟩ := mem
      rcases List.mem_append.mp mem with mem | mem
      · have := children.bounds mem
        omega
      · have := others.bounds mem
        omega
    · intro start mem start' mem'
      obtain ⟨i, held, rfl⟩ := List.mem_map.mp mem
      obtain ⟨j, later, rfl⟩ := List.mem_map.mp mem'
      have := children.bounds held
      have := children.spans held
      have := others.bounds later
      omega

theorem apart (h : Spread lo hi items) :
    items.Pairwise fun a b => a.span.endByte ≤ b.span.startByte := by
  induction h with
  | nil => exact .nil
  | cons after length passed lines children others inside behind =>
    refine List.pairwise_cons.mpr ⟨?_, behind⟩
    intro b mem
    have := others.bounds (mem_itemsPreorder mem)
    omega

/-- The children of an item stand in the room that it has for them. -/
theorem children (h : Spread lo hi items) {i : OutlineItem} (mem : i ∈ itemsPreorder items) :
    ∃ middle, Spread (i.room middle).1 (i.room middle).2 i.children := by
  induction h with
  | nil => cases mem
  | cons after length passed lines children others inside behind =>
    rw [itemsPreorder_cons, List.mem_cons, List.mem_append] at mem
    rcases mem with rfl | mem | mem
    · exact ⟨_, children⟩
    · exact inside mem
    · exact behind mem

theorem documentOrder (h : Spread lo hi items) : DocumentOrder items where
  starts := h.starts
  spans i mem := h.spans mem
  apart := h.apart
  childrenApart i mem := by
    obtain ⟨middle, spread⟩ := h.children mem
    exact spread.apart
  within i mem kind c child := by
    obtain ⟨middle, spread⟩ := h.children mem
    rw [OutlineItem.room, if_neg kind] at spread
    have := spread.bounds (mem_itemsPreorder child)
    omega
  adopted i mem kind c child := by
    obtain ⟨middle, spread⟩ := h.children mem
    rw [OutlineItem.room, if_pos kind] at spread
    exact (spread.bounds (mem_itemsPreorder child)).1

end Spread

/-! ### Trees in the order of the source -/

/-- The nodes of a row of trees stand one behind another from `p` up to `q`; its leaves may stand
anywhere. -/
def Standing (p q : Position) : List Tree → Prop
  | [] => p ≤ q
  | .leaf _ :: ts => Standing p q ts
  | .node _ parts :: ts => ∃ middle, Row p middle (tokensOf parts) ∧ Standing middle q ts

theorem Standing.widen_left {p p' q : Position} {ts : List Tree} (h : Standing p q ts)
    (le : p' ≤ p) : Standing p' q ts := by
  induction ts with
  | nil => exact Position.le_trans le h
  | cons t ts ih =>
    cases t with
    | leaf t => exact ih h
    | node part parts =>
      obtain ⟨middle, row, behind⟩ := h
      exact ⟨middle, row.widen_left le, behind⟩

theorem standing_of_row {p q : Position} {ts : List Tree} (h : Row p q (tokensOf ts)) :
    Standing p q ts := by
  induction ts generalizing p with
  | nil => exact h
  | cons t ts ih =>
    cases t with
    | leaf t =>
      have passed : p ≤ t.stop := Position.le_trans h.1 t.start_le_stop
      exact Standing.widen_left (ih h.2.2) passed
    | node part parts =>
      obtain ⟨middle, front, back⟩ := Row.split h
      exact ⟨middle, front, ih back⟩

/-- The body of a declaration is empty, or it stands behind the start of the declaration. -/
theorem standing_bodyOf {p q : Position} {parts : List Tree}
    (shaped : AllShaped Grammar.shape parts) (row : Row p q (tokensOf parts)) :
    bodyOf parts = [] ∨ ∃ p' q', p.byte < p'.byte ∧ q' ≤ q ∧ Standing p' q' (bodyOf parts) := by
  induction parts generalizing p with
  | nil => exact .inl rfl
  | cons t ts ih =>
    have parted : Row p q (t.tokens ++ tokensOf ts) := row
    obtain ⟨middle, front, back⟩ := parted.split
    rcases bodyOf_cases t ts with ⟨inner, rfl⟩ | ⟨next, _⟩
    · obtain ⟨t, more, rfl⟩ := shaped.1.1.1 rfl
      have standing : Standing t.stop middle more := standing_of_row front.2.2
      refine .inr ⟨t.stop, middle, ?_, back.le, standing⟩
      exact Nat.lt_of_le_of_lt front.1.1 front.2.1
    · rw [next]
      refine (ih shaped.2 back).imp_right ?_
      rintro ⟨p', q', after, before, standing⟩
      exact ⟨p', q', Nat.lt_of_le_of_lt front.le.1 after, before, standing⟩

/-! ### From trees to items -/

/-- The stretch of an item whose parts are not empty. -/
theorem span_of_row {p q : Position} {parts : List Tree} (item : OutlineItem)
    (row : Row p q (tokensOf parts)) (taken : tokensOf parts ≠ [])
    (covers : item.span = (spanOf? (tokensOf parts)).getD {}) :
    p.byte ≤ item.span.startByte ∧ item.span.startByte < item.span.endByte ∧
      item.span.endByte ≤ q.byte ∧ item.span.startLine ≤ item.span.endLine ∧
      ∃ a b, a.byte = item.span.startByte ∧ b.byte = item.span.endByte ∧
        Row a b (tokensOf parts) := by
  obtain ⟨a, b, after, before, length, within, covered⟩ := row.span taken
  rw [covered, Option.getD_some] at covers
  rw [covers]
  exact ⟨after.1, length, before.1, within.le.2, a, b, rfl, rfl, within⟩

/-- What is spread over a body is spread over the room of the item that has the body. -/
theorem spread_cons {part : Part} {p middle q : Position} {parts : List Tree} {item : OutlineItem}
    {items : List OutlineItem} (shaped : (Syntax.Tree.node part parts).Shaped Grammar.shape)
    (listed : part ∈ Grammar.itemParts) (row : Row p middle (tokensOf parts))
    (covers : item.span = (spanOf? (tokensOf parts)).getD {}) (kind : item.kind ≠ .fileNamespace)
    (children : ∀ p' q', AllShaped Grammar.shape (bodyOf parts) → Standing p' q' (bodyOf parts) →
      Spread p'.byte q'.byte item.children)
    (others : Spread middle.byte q.byte items) : Spread p.byte q.byte (item :: items) := by
  obtain ⟨after, length, passed, lines, a, b, start, stop, within⟩ :=
    span_of_row item row (shaped.1.2 listed) covers
  have shaped' := allShaped_bodyOf shaped.2
  have body := standing_bodyOf shaped.2 within
  refine .cons after length passed lines ?_ others
  rw [OutlineItem.room, if_neg kind, ← start, ← stop]
  rcases body with empty | ⟨p', q', low, high, standing⟩
  · -- Nothing stands in an empty body, so any place in the item will do.
    have standing : Standing { byte := a.byte + 1 } { byte := b.byte } (bodyOf parts) := by
      rw [empty]
      exact ⟨show a.byte + 1 ≤ b.byte by omega, Nat.le_refl 1⟩
    exact children _ _ shaped' standing
  · exact ((children p' q' shaped' standing).widen_left low).widen_right high.1

theorem spread_localFunctionsOf (ts : List Tree) {p q : Position} {items : List OutlineItem}
    (shaped : AllShaped Grammar.shape ts) (standing : Standing p q ts)
    (read : localFunctionsOf ts = .ok items) : Spread p.byte q.byte items := by
  induction ts using bodiesInduction generalizing p q items with
  | nil =>
    rw [localFunctionsOf] at read
    cases read
    exact .nil standing.1
  | leaf t ts behind =>
    rw [localFunctionsOf_leaf] at read
    exact behind shaped.2 standing read
  | node part parts ts inside body behind =>
    obtain ⟨middle, row, standing⟩ := standing
    by_cases function : part = .localFunction
    · subst function
      rw [localFunctionsOf_function] at read
      obtain ⟨children, nested, read⟩ := bind_eq_ok read
      obtain ⟨item, made, read⟩ := bind_eq_ok read
      obtain ⟨rest, others, same⟩ := bind_eq_ok read
      cases same
      obtain ⟨kind, covers, rfl⟩ := methodOf_eq_ok made
      exact spread_cons shaped.1 (by decide) row covers (by simp [kind])
        (fun _ _ shaped' standing' => body shaped' standing' nested)
        (behind shaped.2 standing others)
    · rw [localFunctionsOf_node function] at read
      obtain ⟨front, first, read⟩ := bind_eq_ok read
      obtain ⟨rest, others, same⟩ := bind_eq_ok read
      cases same
      exact (inside shaped.1.2 (standing_of_row row) first).append (behind shaped.2 standing others)

/-- A row without parts in which items are looked for has none. -/
theorem itemsOf_of_apart {ts : List Tree} (h : ∀ t ∈ ts, ∀ p ∈ holdingParts, t.hasPart p = false) :
    itemsOf ts = .ok [] := by
  induction ts with
  | nil => rw [itemsOf]
  | cons t ts ih =>
    obtain ⟨here, others⟩ := List.forall_mem_cons.mp h
    cases t with
    | leaf t => rw [itemsOf_leaf, ih others]
    | node p parts =>
      have other : p ∉ holdingParts := fun holds => by simpa [Tree.hasPart] using here p holds
      rw [itemsOf_other other, ih others]

theorem spread_itemsOf (ts : List Tree) {p q : Position} {items : List OutlineItem}
    (shaped : AllShaped Grammar.shape ts) (apart : AllShaped Grammar.apart ts)
    (standing : Standing p q ts) (read : itemsOf ts = .ok items) :
    Spread p.byte q.byte items := by
  induction ts using bodiesInduction generalizing p q items with
  | nil =>
    rw [itemsOf] at read
    cases read
    exact .nil standing.1
  | leaf t ts behind =>
    rw [itemsOf_leaf] at read
    exact behind shaped.2 apart.2 standing read
  | node part parts ts inside body behind =>
    obtain ⟨middle, row, standing⟩ := standing
    by_cases holds : part ∈ holdingParts
    · cases part with
      | fileNamespace =>
        -- Nothing stands in the namespace itself, so its children are those that follow it.
        have inner : itemsOf parts = .ok [] := itemsOf_of_apart fun t mem part holds =>
          apart.1.1.1 rfl t mem part (by revert part; decide)
        rw [itemsOf_fileNamespace, inner] at read
        obtain ⟨own, same, read⟩ := bind_eq_ok read
        cases same
        obtain ⟨children, following, same⟩ := bind_eq_ok read
        cases same
        have adopted : Spread middle.byte q.byte children :=
          behind shaped.2 apart.2 standing following
        obtain ⟨after, length, passed, lines, _⟩ :=
          span_of_row { itemOf .fileNamespace (namespaceNameOf parts) parts with children } row
            (shaped.1.1.2 (by decide)) rfl
        exact .cons after length (Nat.le_trans passed adopted.le) lines
          (adopted.widen_left passed) (.nil (Nat.le_refl q.byte))
      | blockNamespace =>
        rw [itemsOf_blockNamespace] at read
        obtain ⟨children, nested, read⟩ := bind_eq_ok read
        obtain ⟨rest, others, same⟩ := bind_eq_ok read
        cases same
        exact spread_cons shaped.1 (by decide) row rfl NodeKind.noConfusion
          (fun _ _ shaped' standing' => body shaped' (allShaped_bodyOf apart.1.2) standing' nested)
          (behind shaped.2 apart.2 standing others)
      | container =>
        rw [itemsOf_container] at read
        obtain ⟨children, nested, read⟩ := bind_eq_ok read
        obtain ⟨rest, others, same⟩ := bind_eq_ok read
        cases same
        exact spread_cons shaped.1 (by decide) row rfl NodeKind.noConfusion
          (fun _ _ shaped' standing' => body shaped' (allShaped_bodyOf apart.1.2) standing' nested)
          (behind shaped.2 apart.2 standing others)
      | method | localFunction =>
        rw [itemsOf_function (by simp)] at read
        obtain ⟨children, nested, read⟩ := bind_eq_ok read
        obtain ⟨item, made, read⟩ := bind_eq_ok read
        obtain ⟨rest, others, same⟩ := bind_eq_ok read
        cases same
        obtain ⟨kind, covers, rfl⟩ := methodOf_eq_ok made
        exact spread_cons shaped.1 (by decide) row covers (by simp [kind])
          (fun _ _ shaped' standing' => spread_localFunctionsOf _ shaped' standing' nested)
          (behind shaped.2 apart.2 standing others)
      | topStatement =>
        rw [itemsOf_topStatement] at read
        obtain ⟨front, first, read⟩ := bind_eq_ok read
        obtain ⟨rest, others, same⟩ := bind_eq_ok read
        cases same
        have first := spread_localFunctionsOf _ shaped.1.2 (standing_of_row row) first
        exact first.append (behind shaped.2 apart.2 standing others)
      | _ => exact absurd holds (by decide)
    · rw [itemsOf_other holds] at read
      exact (behind shaped.2 apart.2 standing read).widen_left row.le.1

/-- The items of a source that is well formed follow the source. -/
theorem documentOrder_items {path source : String} {o : Outline}
    (read : Outline.ofSource path source = .ok o) : DocumentOrder o.items := by
  obtain ⟨items, made, rfl⟩ := ofSource_eq_ok.mp read
  cases parsed : parse? source with
  | none =>
    have empty : readTrees source .nothing = [] := by
      rw [readTrees, parsed]
      rfl
    rw [empty, itemsOf] at made
    cases made
    exact (Spread.nil (Nat.le_refl 0)).documentOrder
  | some trees =>
    rw [readTrees_of_parse? parsed] at made
    obtain ⟨q, row⟩ := exists_row_lex source
    rw [← tokensOf_of_parse? parsed] at row
    exact (spread_itemsOf trees (shaped_of_parse? parsed) (apart_of_parse? parsed)
      (standing_of_row row) made).documentOrder

/-! ### Numbers in the order of the source -/

/-- A source file gets the first number that those before it leave free. -/
theorem Program.stores_file (before after : List Outline) (o : Outline) :
    (ofOutlines (before ++ o :: after)).Stores (ofOutlines before).forest.size (.file o) := by
  apply stores_ofOutlines
  rw [size_ofOutlines, entries, List.flatMap_append, List.flatMap_cons, ← entries,
    List.getElem?_append_right (Nat.le_refl _), Nat.sub_self]
  rfl

/-- The node of each item below a file keeps the stretch of the item. -/
theorem Program.Stores.spans {p : Program} {unit : NodeId} {o : Outline}
    (hf : p.forest.WellFormed) (h : p.Stores unit (.file o)) {i : NodeId}
    (below : i ∈ p.forest.descendants unit) :
    ∃ k n item, i = unit + 1 + k ∧ p.forest.get? i = some n ∧
      (itemsPreorder o.items)[k]? = some item ∧ n.span = item.span := by
  rw [h.descendants hf, List.mem_range'_1] at below
  obtain ⟨k, rfl⟩ := Nat.exists_eq_add_of_le below.1
  have within : k < (itemsPreorder o.items).length := by
    rw [length_itemsPreorder]
    exact Nat.add_lt_add_iff_left.mp below.2
  have found := List.getElem?_eq_getElem within
  obtain ⟨n, node, _, _, _, span, _⟩ := (h.inside.stores found).node
  exact ⟨k, n, _, rfl, node, found, span⟩

/-- The outline of a source follows the source, and so do the numbers that its items get, whatever
files come before and after it. -/
theorem documentOrder_ofSource {path source : String} {o : Outline}
    (read : Outline.ofSource path source = .ok o) :
    DocumentOrder o.items ∧ ∀ before after : List Outline,
      let f := (Program.ofOutlines (before ++ o :: after)).forest
      let unit := (Program.ofOutlines before).forest.size
      ∀ i ∈ f.descendants unit, ∀ j ∈ f.descendants unit, i < j →
        ∃ n m, f.get? i = some n ∧ f.get? j = some m ∧ n.span.startByte < m.span.startByte := by
  have ordered := documentOrder_items read
  refine ⟨ordered, ?_⟩
  intro before after f unit i below j below' lt
  have hf := Program.wellFormed_ofOutlines (before ++ o :: after)
  have stored := Program.stores_file before after o
  obtain ⟨k, n, a, rfl, node, found, span⟩ := stored.spans hf below
  obtain ⟨l, m, b, rfl, node', found', span'⟩ := stored.spans hf below'
  refine ⟨n, m, node, node', ?_⟩
  obtain ⟨first, rfl⟩ := List.getElem?_eq_some_iff.mp found
  obtain ⟨second, rfl⟩ := List.getElem?_eq_some_iff.mp found'
  have ascending := List.pairwise_iff_getElem.mp (List.pairwise_map.mp ordered.starts)
  rw [span, span']
  exact ascending k l first second (Nat.add_lt_add_iff_left.mp lt)

/-- A namespace without a body that adopts a class, in which a method holds a local function that
holds another one behind a lambda. -/
def nestedSource : String :=
  "using System;\nnamespace A.B;\nstatic class C\n\x7b\n  void M()\n  \x7b\n    " ++
  "void F() \x7b Run(() => \x7b int G() => 1; \x7d); \x7d\n  \x7d\n  void N() => M();\n\x7d\n"

theorem documentOrder_nestedSource :
    ∃ o, Outline.ofSource "a.cs" nestedSource = .ok o ∧
      (itemsPreorder o.items).map (fun i => (i.name, i.span.startByte, i.span.endByte)) =
        [("A.B", 14, 28), ("C", 29, 132), ("M", 48, 111), ("F", 65, 107), ("G", 88, 101),
          ("N", 114, 130)] ∧
      DocumentOrder o.items ∧
      ∃ n m, (Program.ofOutlines [o]).forest.get? 5 = some n ∧
        (Program.ofOutlines [o]).forest.get? 6 = some m ∧ n.span.startByte < m.span.startByte := by
  have evaluated : (Outline.ofSource "a.cs" nestedSource).toOption.map (fun o =>
      (itemsPreorder o.items).map fun i => (i.name, i.span.startByte, i.span.endByte)) =
        some [("A.B", 14, 28), ("C", 29, 132), ("M", 48, 111), ("F", 65, 107), ("G", 88, 101),
          ("N", 114, 130)] := by
    decide +kernel
  cases read : Outline.ofSource "a.cs" nestedSource with
  | error e =>
    rw [read] at evaluated
    cases evaluated
  | ok o =>
    rw [read] at evaluated
    have listed := Option.some.inj evaluated
    have six : itemsSize o.items = 6 := by
      rw [← Program.length_itemsPreorder]
      simpa using congrArg List.length listed
    have below := (Program.stores_file [] [] o).descendants (Program.wellFormed_ofOutlines [o])
    have numbers := below.trans (congrArg (List.range' 1) six)
    obtain ⟨ordered, ascending⟩ := documentOrder_ofSource read
    refine ⟨o, rfl, listed, ordered, ascending [] [] 5 ?_ 6 ?_ (by decide)⟩
    · rw [List.nil_append, numbers]
      decide
    · rw [List.nil_append, numbers]
      decide

end Forwarding
