import Forwarding.Proofs.Outline.LocalFunctions

/-!
Local functions in a program. Each gets one node in its file, and the parent of that node is no type
unless the function stands as a member of a type, which it does in no source that is well formed. So
it is no candidate and has no owner to forward to, whatever it is called and whatever else the program
holds.
-/

namespace Forwarding

open Syntax

/-! ### Nodes and their parents -/

/-- Only a method right below a type is a candidate or resolves. -/
theorem Program.hidden_of_parent {p : Program} {id q : NodeId}
    (up : p.forest.parent? id = some q) (kind : p.forest.kind? q ≠ some .container) :
    p.forest.isCandidate id = false ∧ p.resolver id = none := by
  obtain ⟨n, found, parent⟩ := Option.bind_eq_some_iff.mp up
  have unnamed : p.qualifiedName? q = none := by
    unfold qualifiedName?
    cases owner : p.forest.get? q with
    | none => rfl
    | some m =>
      have other : m.kind ≠ .container := by
        intro same
        rw [Forest.kind?, owner, Option.map_some, same] at kind
        exact kind rfl
      simp [other]
  constructor
  · simp [Forest.isCandidate, found, parent, kind]
  · rw [resolver, resolveWith, found]
    cases p.signature? id <;> cases p.forest.get? q <;> simp [parent, unnamed]

theorem Program.Stores.kind? {p : Program} {id : NodeId} {e : Entry} (h : p.Stores id e) :
    p.forest.kind? id = some e.kind := by
  obtain ⟨n, found, kind, _⟩ := h.node
  rw [Forest.kind?, found, Option.map_some, kind]

/-- The node has the item, below a node of the kind. -/
structure Program.Carries (p : Program) (id : NodeId) (e : NodeKind × OutlineItem) : Prop where
  stored : p.Stores id (.item e.2)
  parent : ∃ q, p.forest.parent? id = some q ∧ p.forest.kind? q = some e.1

theorem Program.Holds.carries {p : Program} {parent start : NodeId} {items : List OutlineItem}
    (h : p.Holds parent start items) {kind : NodeKind} (above : p.forest.kind? parent = some kind) :
    List.Forall₂ p.Carries (List.range' start (itemsSize items)) (withParents kind items) := by
  induction items using itemsInduction generalizing parent start kind with
  | nil => exact .nil
  | cons itemKind name modifiers span signature children items inside behind =>
    have stored : p.Stores start
        (.item { kind := itemKind, name, modifiers, span, signature, children }) :=
      ⟨parent, items, h⟩
    have up : p.forest.parent? start = some parent := by
      rw [Forest.parent?, h.get?]
      rfl
    have numbers : List.range' start (itemsSize children + 1 + itemsSize items) =
        start :: (List.range' (start + 1) (itemsSize children) ++
          List.range' (start + 1 + itemsSize children) (itemsSize items)) := by
      rw [List.range'_append_1, Nat.add_right_comm, List.range'_succ]
    have behind := behind h.behind above
    rw [OutlineItem.size_eq, Nat.add_comm (itemsSize _), ← Nat.add_assoc] at behind
    rw [withParents_cons, itemsSize, OutlineItem.size_eq, numbers]
    exact .cons ⟨stored, parent, up, above⟩
      (List.rel_append (inside h.inside stored.kind?) behind)

/-! ### Local functions of a source -/

/-- A row of all functions that are listed, none of them twice. -/
structure Enumerates (trees : List Tree) (fs : List Found) : Prop where
  listed : ∀ f, f ∈ fs ↔ Listed trees f
  once : (fs.map (·.place)).Nodup

/-- The item of a function has those of the functions next inside it as its children. -/
structure KeptAs (fs : List Found) (f : Found) (item : OutlineItem) : Prop where
  shows : ItemFor f.tree item
  children : List.Forall₂ (fun g child => ItemFor g.tree child)
    (fs.filter (·.holder = .function f.place)) item.children

/-- The node of a function. To a local function that is no member of a type nothing is forwarded. -/
structure LoweredTo (p : Program) (f : Found) (id : NodeId) : Prop where
  node : ∃ n, p.forest.get? id = some n ∧ n.kind = .method ∧ n.name = nameOf f.tree.children ∧
    n.modifiers = modifiersOf f.tree.children ∧ n.span = f.tree.span?.getD {}
  hidden : f.tree.hasPart .localFunction = true → f.holder ≠ .type →
    p.forest.isCandidate id = false ∧ p.resolver id = none

/-- Rows that go with a third one by one go with each other. -/
theorem forall₂_meet {α β γ : Type} {R : α → β → Prop} {S : γ → β → Prop} {T : α → γ → Prop}
    (meet : ∀ a b c, R a b → S c b → T a c) {as : List α} {bs : List β} {cs : List γ}
    (h : List.Forall₂ R as bs) (h' : List.Forall₂ S cs bs) : List.Forall₂ T as cs := by
  induction h generalizing cs with
  | nil =>
    cases h'
    exact .nil
  | cons first _ ih =>
    cases h' with
    | cons first' rest => exact .cons (meet _ _ _ first first') (ih rest)

theorem enumerates_listedFunctions (trees : List Tree) :
    Enumerates trees (listedFunctions trees) :=
  ⟨fun _ => mem_listedFunctions, nodup_listedFunctions trees⟩

section InProgram

variable {trees : List Tree} {o : Outline}

theorem shows_listedFunctions (read : itemsOf trees = .ok o.items) :
    List.Forall₂ Shows (listedFunctions trees)
      ((withParents .compilationUnit o.items).filter (·.2.kind = .method)) :=
  shows_itemsOf [] .outside 0 .compilationUnit trees read (by simp) (by simp)

theorem keptAs_listedFunctions (read : itemsOf trees = .ok o.items) :
    List.Forall₂ (KeptAs (listedFunctions trees)) (listedFunctions trees)
      ((itemsPreorder o.items).filter (·.kind = .method)) := by
  rw [← map_withParents .compilationUnit, List.filter_map, List.forall₂_map_right_iff]
  have shows := (List.forall₂_and_left _ _).mpr ⟨fun f mem => mem, shows_listedFunctions read⟩
  refine shows.imp fun f e ⟨mem, shows⟩ => ⟨shows.item, ?_⟩
  rw [filter_holder mem]
  exact shows.children

theorem loweredTo_of_shows {p : Program} {f : Found} {e : NodeKind × OutlineItem} {id : NodeId}
    (shows : Shows f e) (carries : p.Carries id e) : LoweredTo p f id := by
  obtain ⟨n, found, kind, name, modifiers, span, _⟩ := carries.stored.node
  obtain ⟨q, up, above⟩ := carries.parent
  constructor
  · exact ⟨n, found, kind.trans shows.item.kind, name.trans shows.item.name,
      modifiers.trans shows.item.modifiers, span.trans shows.item.span⟩
  · intro _ outside
    refine Program.hidden_of_parent up ?_
    rw [above]
    exact fun same => shows.parent outside (Option.some.inj same)

theorem loweredTo_listedFunctions {p : Program} {unit : NodeId} (hf : p.forest.WellFormed)
    (stored : p.Stores unit (.file o)) (read : itemsOf trees = .ok o.items) :
    List.Forall₂ (LoweredTo p) (listedFunctions trees)
      ((p.forest.descendants unit).filter (p.forest.kind? · = some .method)) := by
  have carries := stored.inside.carries stored.kind?
  have methods : List.Forall₂ p.Carries
      ((p.forest.descendants unit).filter (p.forest.kind? · = some .method))
      ((withParents .compilationUnit o.items).filter (·.2.kind = .method)) := by
    rw [stored.descendants hf]
    refine List.rel_filter (fun id e h => ?_) carries
    show decide (p.forest.kind? id = some .method) = true ↔ decide (e.2.kind = .method) = true
    rw [h.stored.kind?]
    simp [Entry.kind]
  refine forall₂_meet ?_ (shows_listedFunctions read) methods
  exact fun _ _ _ => loweredTo_of_shows

end InProgram

/-- **Local functions are kept once and never exposed.** The functions that are listed in the trees
of a source go with the method items of its outline one by one, and the functions next in a function
are the children of its item. Whatever files come before and after its own, they go with the method
nodes of the file in the same way, and no local function is a candidate or resolves unless it stands
as a member of a type. In a source that is well formed none does. -/
theorem localFunctions_kept {path source : String} {recover : Recovery} {o : Outline}
    (read : Outline.ofSource path source recover = .ok o) :
    let trees := readTrees source recover
    let fs := listedFunctions trees
    Enumerates trees fs ∧
      List.Forall₂ (KeptAs fs) fs ((itemsPreorder o.items).filter (·.kind = .method)) ∧
      (∀ before after : List Outline,
        let p := Program.ofOutlines (before ++ o :: after)
        let unit := (Program.ofOutlines before).forest.size
        List.Forall₂ (LoweredTo p) fs
          ((p.forest.descendants unit).filter (p.forest.kind? · = some .method))) ∧
      ((parse? source).isSome → ∀ f ∈ fs, f.tree.hasPart .localFunction = true →
        f.holder ≠ .type) := by
  intro trees fs
  obtain ⟨items, made, rfl⟩ := ofSource_eq_ok.mp read
  refine ⟨enumerates_listedFunctions trees, keptAs_listedFunctions made, ?_, ?_⟩
  · intro before after p unit
    exact loweredTo_listedFunctions (Program.wellFormed_ofOutlines _)
      (Program.stores_file before after _) made
  · intro wellFormed f mem part
    obtain ⟨trees', parsed⟩ := Option.isSome_iff_exists.mp wellFormed
    have apart : AllShaped Grammar.apart trees := by
      rw [show trees = trees' from readTrees_of_parse? parsed recover]
      exact apart_of_parse? parsed
    exact listed_outside apart (mem_listedFunctions.mp mem) part

/-- A function at the top of a file, and one of a method in conditional code. Their names and
modifiers are those of forwarded methods. -/
def layeredSource : String :=
  "static int TopExtension(int x) => x;\nclass C \x7b\n  void Run() \x7b\n#if A\n" ++
  "    static int InExtension(int x) => x;\n#endif\n  \x7d\n\x7d\n"

/-- The same with a brace too many. -/
def unbalancedSource : String :=
  layeredSource ++ "\x7d"

/-- The trees of the well-formed source also stand in for those of the other one. -/
theorem localFunctions_kept_layeredSource :
    ∃ trees, parse? layeredSource = some trees ∧ parse? unbalancedSource = none ∧
      (listedFunctions trees).map (fun f => (nameOf f.tree.children, f.holder)) =
        [("TopExtension", .outside), ("Run", .type), ("InExtension", .function [1, 2, 1])] ∧
      ∀ source ∈ [layeredSource, unbalancedSource], ∃ o,
        Outline.ofSource "a.cs" source (fun _ => trees) = .ok o ∧
        List.Forall₂ (KeptAs (listedFunctions trees)) (listedFunctions trees)
          ((itemsPreorder o.items).filter (·.kind = .method)) ∧
        ∀ before after : List Outline,
          List.Forall₂ (LoweredTo (.ofOutlines (before ++ o :: after))) (listedFunctions trees)
            (((Program.ofOutlines (before ++ o :: after)).forest.descendants
              (Program.ofOutlines before).forest.size).filter
              ((Program.ofOutlines (before ++ o :: after)).forest.kind? · = some .method)) := by
  have evaluated : (parse? layeredSource).map (fun trees => ((itemsOf trees).toOption.isSome,
      (listedFunctions trees).map fun f => (nameOf f.tree.children, f.holder))) =
      some (true,
        [("TopExtension", .outside), ("Run", .type), ("InExtension", .function [1, 2, 1])]) := by
    decide +kernel
  have unbalanced : (parse? unbalancedSource).isNone = true := by
    decide +kernel
  obtain ⟨trees, parsed, found⟩ := Option.map_eq_some_iff.mp evaluated
  obtain ⟨fine, functions⟩ := Prod.mk.inj found
  refine ⟨trees, parsed, Option.isNone_iff_eq_none.mp unbalanced, functions, ?_⟩
  intro source either
  have same : readTrees source (fun _ => trees) = trees := by
    rcases List.mem_pair.mp either with rfl | rfl
    · exact readTrees_of_parse? parsed _
    · rw [readTrees, Option.isNone_iff_eq_none.mp unbalanced]
      rfl
  cases made : itemsOf trees with
  | error e =>
    rw [made] at fine
    cases fine
  | ok items =>
    have read : Outline.ofSource "a.cs" source (fun _ => trees) = .ok _ :=
      ofSource_eq_ok.mpr ⟨items, same.symm ▸ made, rfl⟩
    rw [same] at read
    obtain ⟨_, kept, lowered, _⟩ := localFunctions_kept read
    rw [same] at kept lowered
    exact ⟨_, read, kept, lowered⟩

/-- A function in a local function of a constructor, and one in a method in conditional code. -/
def unlistedSource : String :=
  "class C \x7b\n  C() \x7b void L() \x7b void K() \x7b \x7d \x7d \x7d\n" ++
  "#if A\n  void M() \x7b void F() \x7b \x7d \x7d\n#endif\n\x7d\n"

theorem exists_reached {through : Tree → Bool} {ts : List Tree} {t : Tree} (mem : t ∈ ts) :
    ∃ place, Reached through ts place t := by
  obtain ⟨i, stands⟩ := List.mem_iff_getElem?.mp mem
  exact ⟨[i], .here stands⟩

theorem exists_reached_deeper {ts : List Tree} {s t : Tree} (mem : s ∈ ts)
    (inside : ∃ place, Reached (fun _ => true) s.children place t) :
    ∃ place, Reached (fun _ => true) ts place t := by
  obtain ⟨i, stands⟩ := List.mem_iff_getElem?.mp mem
  obtain ⟨place, inside⟩ := inside
  exact ⟨i :: place, .deeper stands rfl inside⟩

/-- Functions in the local functions of members that are no methods are not kept, nor are those in
methods that stand in conditional code. -/
theorem localFunctions_unlistedSource :
    ∃ trees o, parse? unlistedSource = some trees ∧
      Outline.ofSource "a.cs" unlistedSource = .ok o ∧
      (∃ place s below t, Reached (fun _ => true) trees place s ∧ s.hasPart .localFunction = true ∧
        Outermost (bodyOf s.children) below t ∧ nameOf t.children = "K" ∧
        ∀ item ∈ itemsPreorder o.items, ¬ ItemFor t item) ∧
      ∃ place s below t, Reached (fun _ => true) trees place s ∧ s.hasPart .method = true ∧
        Outermost (bodyOf s.children) below t ∧ nameOf t.children = "F" ∧
        ∀ item ∈ itemsPreorder o.items, ¬ ItemFor t item := by
  have evaluated : (parse? unlistedSource).map (fun trees =>
      ((itemsOf trees).toOption.map fun items => (itemsPreorder items).map (·.kind),
      trees.flatMap fun c => c.children.flatMap fun body => body.children.flatMap fun m =>
        m.children.flatMap fun inner => (inner.children.filter (·.hasPart .localFunction)).flatMap
          fun s => ((bodyOf s.children).filter (·.hasPart .localFunction)).map fun t =>
            nameOf t.children,
      trees.flatMap fun c => c.children.flatMap fun body => body.children.flatMap fun region =>
        (region.children.filter (·.hasPart .method)).flatMap fun s =>
          ((bodyOf s.children).filter (·.hasPart .localFunction)).map fun t => nameOf t.children)) =
      some (some [.container], ["K"], ["F"]) := by
    decide +kernel
  obtain ⟨trees, parsed, found⟩ := Option.map_eq_some_iff.mp evaluated
  obtain ⟨kinds, found⟩ := Prod.mk.inj found
  obtain ⟨inner, conditional⟩ := Prod.mk.inj found
  have inner := inner ▸ List.mem_singleton_self _
  have conditional := conditional ▸ List.mem_singleton_self _
  simp only [List.mem_flatMap, List.mem_filter, List.mem_map] at inner conditional
  obtain ⟨c, hc, body, hb, m, hm, block, hi, s, ⟨hs, part⟩, t, ⟨ht, part'⟩, named⟩ := inner
  obtain ⟨c', hc', body', hb', r, hr, s', ⟨hs', method⟩, t', ⟨ht', part''⟩, named'⟩ := conditional
  cases made : itemsOf trees with
  | error e =>
    rw [made] at kinds
    cases kinds
  | ok items =>
    rw [made] at kinds
    have kinds : (itemsPreorder items).map (·.kind) = [.container] := Option.some.inj kinds
    have noItem (t : Tree) (item : OutlineItem) (mem : item ∈ itemsPreorder items) :
        ¬ ItemFor t item := by
      intro shows
      have kind : item.kind ∈ [.container] := kinds ▸ List.mem_map.mpr ⟨item, mem, rfl⟩
      rw [shows.kind] at kind
      exact absurd kind (by decide)
    have read : Outline.ofSource "a.cs" unlistedSource = .ok _ :=
      ofSource_eq_ok.mpr ⟨items, (readTrees_of_parse? parsed .nothing).symm ▸ made, rfl⟩
    obtain ⟨place, reached⟩ := exists_reached_deeper hc (exists_reached_deeper hb
      (exists_reached_deeper hm (exists_reached_deeper hi (exists_reached hs))))
    obtain ⟨place', reached'⟩ := exists_reached_deeper hc' (exists_reached_deeper hb'
      (exists_reached_deeper hr (exists_reached hs')))
    obtain ⟨below, next⟩ := exists_reached ht
    obtain ⟨below', next'⟩ := exists_reached ht'
    exact ⟨trees, _, parsed, read,
      ⟨place, s, below, t, reached, part, ⟨next, part'⟩, named, noItem t⟩,
      place', s', below', t', reached', method, ⟨next', part''⟩, named', noItem t'⟩

end Forwarding
