import Forwarding.Proofs.Generation.InputOrder
import Forwarding.Proofs.Generation.Locality
import Forwarding.Proofs.Outline.Uncommented

/-!
Comments and the generated unit. What is generated does not depend on where declarations stand, so
white space in the place of comments changes nothing unless a comment stands inside a text that is
taken over as it is written. There it is taken over as well: it hides a type from the tables that
types are looked up in, and it shows in the forwarder.
-/

namespace Forwarding

open Syntax

/-! ### Outlines at other places -/

namespace TopDown

variable {items items' : List OutlineItem}

theorem host?_of_like {item item' : OutlineItem} (kind : item'.kind = item.kind)
    (name : item'.name = item.name) (modifiers : item'.modifiers = item.modifiers) (s : Place) :
    s.host? item' = s.host? item ∧ s.enter item' = s.enter item := by
  simp only [Place.host?, Place.enter, kind, name, modifiers, and_self]

theorem types_cons (s : Place) (item : OutlineItem) (items : List OutlineItem) :
    types s (item :: items) =
      ((s.host? item).map fun h => (h.name, h.qualifiedName)).toList ++
        types (s.enter item) item.children ++ types s items := by
  cases item
  rfl

theorem output_cons (ctx : TypeName.Context) (s : Place) (pending : Output) (item : OutlineItem)
    (items : List OutlineItem) :
    output ctx s pending (item :: items) =
      let inside := output ctx (s.enter item) (wrapper ctx (s.host? item) item.children)
        item.children
      if (method? ctx item).isSome then pending ++ (inside ++ output ctx s {} items)
      else inside ++ output ctx s pending items := by
  cases item
  rfl

theorem types_of_like (h : ItemsLike items items') (s : Place) : types s items' = types s items := by
  induction h generalizing s with
  | nil => rfl
  | cons kind name modifiers _ _ _ inside behind =>
    obtain ⟨host, enter⟩ := host?_of_like kind name modifiers s
    rw [types_cons, types_cons, host, enter, inside, behind]

theorem method?_of_like {item item' : OutlineItem} (kind : item'.kind = item.kind)
    (name : item'.name = item.name) (modifiers : item'.modifiers = item.modifiers)
    (signature : item'.signature = item.signature) (ctx : TypeName.Context) :
    method? ctx item' = method? ctx item := by
  simp only [method?, kind, name, modifiers, signature]

theorem wrapper_of_like (h : ItemsLike items items') (ctx : TypeName.Context)
    (host : Option Host) : wrapper ctx host items' = wrapper ctx host items := by
  have methods : items'.filterMap (method? ctx) = items.filterMap (method? ctx) := by
    induction h with
    | nil => rfl
    | cons kind name modifiers signature _ _ _ behind =>
      rw [List.filterMap_cons, List.filterMap_cons, behind,
        method?_of_like kind name modifiers signature]
  cases host with
  | none => rfl
  | some h => simp only [wrapper, methods]

theorem output_of_like (h : ItemsLike items items') (ctx : TypeName.Context) (s : Place)
    (pending : Output) : output ctx s pending items' = output ctx s pending items := by
  induction h generalizing s pending with
  | nil => rfl
  | cons kind name modifiers signature children _ inside behind =>
    obtain ⟨host, enter⟩ := host?_of_like kind name modifiers s
    rw [output_cons, output_cons, method?_of_like kind name modifiers signature, host, enter,
      wrapper_of_like children]
    simp only [inside, behind]

end TopDown

/-! ### Outlines of sources -/

theorem unitFree_append {items others : List OutlineItem} (h : unitFree items = true)
    (h' : unitFree others = true) : unitFree (items ++ others) = true := by
  induction items with
  | nil => exact h'
  | cons item items ih =>
    obtain ⟨kind, children, rest⟩ := (unitFree_cons ..).mp h
    exact (unitFree_cons ..).mpr ⟨kind, children, ih rest⟩

theorem unitFree_itemOf {kind : NodeKind} (declared : kind ≠ .compilationUnit) {name : String}
    {parts : List Tree} {children : List OutlineItem} (inside : unitFree children = true) :
    unitFree [{ itemOf kind name parts with children }] = true :=
  (unitFree_cons ..).mpr ⟨declared, inside, rfl⟩

theorem unitFree_method {parts : List Tree} {children : List OutlineItem} {item : OutlineItem}
    (made : methodOf parts children = .ok item) (inside : unitFree children = true) :
    unitFree [item] = true := by
  obtain ⟨kind, _, same⟩ := methodOf_eq_ok made
  exact (unitFree_cons ..).mpr ⟨by rw [kind]; decide, by rw [same, inside], rfl⟩

theorem unitFree_localFunctionsOf (ts : List Tree) {items : List OutlineItem}
    (read : localFunctionsOf ts = .ok items) : unitFree items = true := by
  induction ts using bodiesInduction generalizing items with
  | nil =>
    rw [localFunctionsOf] at read
    cases read
    rfl
  | leaf t ts behind =>
    rw [localFunctionsOf_leaf] at read
    exact behind read
  | node p parts ts inside body behind =>
    by_cases function : p = .localFunction
    · subst function
      rw [localFunctionsOf_function] at read
      obtain ⟨children, inner, read⟩ := bind_eq_ok read
      obtain ⟨item, made, read⟩ := bind_eq_ok read
      obtain ⟨rest, others, same⟩ := bind_eq_ok read
      cases same
      exact unitFree_append (unitFree_method made (body inner)) (behind others)
    · rw [localFunctionsOf_node function] at read
      obtain ⟨front, inner, read⟩ := bind_eq_ok read
      obtain ⟨rest, others, same⟩ := bind_eq_ok read
      cases same
      exact unitFree_append (inside inner) (behind others)

theorem unitFree_itemsOf (ts : List Tree) {items : List OutlineItem}
    (read : itemsOf ts = .ok items) : unitFree items = true := by
  induction ts using bodiesInduction generalizing items with
  | nil =>
    rw [itemsOf] at read
    cases read
    rfl
  | leaf t ts behind =>
    rw [itemsOf_leaf] at read
    exact behind read
  | node p parts ts inside body behind =>
    have function_free (function : p = .method ∨ p = .localFunction) : unitFree items = true := by
      rw [itemsOf_function function] at read
      obtain ⟨children, inner, read⟩ := bind_eq_ok read
      obtain ⟨item, made, read⟩ := bind_eq_ok read
      obtain ⟨rest, others, same⟩ := bind_eq_ok read
      cases same
      exact unitFree_append (unitFree_method made (unitFree_localFunctionsOf _ inner))
        (behind others)
    by_cases holding : p ∈ holdingParts
    · simp only [holdingParts, List.mem_cons, List.not_mem_nil, or_false] at holding
      rcases holding with rfl | rfl | rfl | function | function | rfl
      · rw [itemsOf_fileNamespace] at read
        obtain ⟨own, inner, read⟩ := bind_eq_ok read
        obtain ⟨adopted, others, same⟩ := bind_eq_ok read
        cases same
        exact unitFree_itemOf (by decide) (unitFree_append (inside inner) (behind others))
      · rw [itemsOf_blockNamespace] at read
        obtain ⟨children, inner, read⟩ := bind_eq_ok read
        obtain ⟨rest, others, same⟩ := bind_eq_ok read
        cases same
        exact unitFree_append (unitFree_itemOf (by decide) (body inner)) (behind others)
      · rw [itemsOf_container] at read
        obtain ⟨children, inner, read⟩ := bind_eq_ok read
        obtain ⟨rest, others, same⟩ := bind_eq_ok read
        cases same
        exact unitFree_append (unitFree_itemOf (by decide) (body inner)) (behind others)
      · exact function_free (.inl function)
      · exact function_free (.inr function)
      · rw [itemsOf_topStatement] at read
        obtain ⟨front, inner, read⟩ := bind_eq_ok read
        obtain ⟨rest, others, same⟩ := bind_eq_ok read
        cases same
        exact unitFree_append (unitFree_localFunctionsOf _ inner) (behind others)
    · rw [itemsOf_other holding] at read
      exact behind read

/-- No declaration of a source claims to be a source file. -/
theorem unitFree_ofSource {path source : String} {recover : Recovery} {o : Outline}
    (read : Outline.ofSource path source recover = .ok o) : unitFree o.items = true := by
  obtain ⟨items, made, rfl⟩ := ofSource_eq_ok.mp read
  exact unitFree_itemsOf _ made

/-! ### Alike outlines -/

section Alike

variable {os os' : List Outline}

theorem map_of_like {α : Type} {f : Outline → α} (h : List.Forall₂ Outline.Like os os')
    (same : ∀ o o', o.Like o' → f o' = f o) : os'.map f = os.map f := by
  induction h with
  | nil => rfl
  | cons first _ ih => rw [List.map_cons, List.map_cons, same _ _ first, ih]

/-- Sorting by the path takes outlines that are alike to the same places. -/
theorem sortOutlines_of_like (h : List.Forall₂ Outline.Like os os') :
    List.Forall₂ Outline.Like (sortOutlines os) (sortOutlines os') := by
  obtain ⟨lengths, alike⟩ := List.forall₂_iff_zip.mp h
  let sorted := (os.zip os').mergeSort fun a b => decide (a.1.path ≤ b.1.path)
  have left : sorted.map Prod.fst = sortOutlines os := by
    have fst := List.map_mergeSort (f := Prod.fst) (l := os.zip os')
      (s := fun a b : Outline => decide (a.path ≤ b.path)) fun _ _ _ _ => rfl
    rwa [List.map_fst_zip lengths.le] at fst
  have right : sorted.map Prod.snd = sortOutlines os' := by
    have snd := List.map_mergeSort (f := Prod.snd) (l := os.zip os')
      (r := fun a b => decide (a.1.path ≤ b.1.path))
      (s := fun a b : Outline => decide (a.path ≤ b.path)) ?_
    · rwa [List.map_snd_zip lengths.ge] at snd
    · intro a ha b hb
      rw [(alike ha).path, (alike hb).path]
  rw [← left, ← right, List.forall₂_map_left_iff, List.forall₂_map_right_iff, List.forall₂_same]
  exact fun pair mem => alike (List.mem_mergeSort.mp mem)

theorem unit_of_like (h : List.Forall₂ Outline.Like os os')
    (free : ∀ o ∈ os, unitFree o.items = true) (free' : ∀ o ∈ os', unitFree o.items = true) :
    (Program.ofOutlines os').emission.unit = (Program.ofOutlines os).emission.unit := by
  have types : TopDown.index os' = TopDown.index os := by
    simp only [TopDown.index, List.flatMap_def]
    rw [map_of_like h fun o o' like => TopDown.types_of_like like.items {}]
  have outputs (ix : TypeIndex) :
      os'.map (TopDown.fileOutput ix) = os.map (TopDown.fileOutput ix) := by
    refine map_of_like h fun o o' like => ?_
    rw [TopDown.fileOutput, TopDown.fileOutput, like.usings, TopDown.output_of_like like.items]
  obtain ⟨text, groups, members, _⟩ := TopDown.generate_resolveWith os free (TopDown.index os)
  obtain ⟨text', groups', members', _⟩ := TopDown.generate_resolveWith os' free' (TopDown.index os)
  rw [outputs] at text' groups' members'
  rw [Program.emission, Program.emission, TopDown.typeIndex_ofOutlines os free,
    TopDown.typeIndex_ofOutlines os' free', types]
  exact GeneratedUnit.eq_of_parts (text'.trans text.symm) (groups'.trans groups.symm)
    (members'.trans members.symm)

end Alike

theorem mapM_of_like {α β ε : Type} {related : β → β → Prop} {f : α → Except ε β} {xs ys : List α}
    (h : List.Forall₂ (fun x y => ResultsLike related (f x) (f y)) xs ys) :
    ResultsLike (List.Forall₂ related) (xs.mapM f) (ys.mapM f) := by
  induction h with
  | nil => exact .ok .nil
  | cons first _ ih =>
    rw [List.mapM_cons, List.mapM_cons]
    exact first.bind fun _ _ one => ih.bind fun _ _ others => .ok (.cons one others)

theorem unitFree_of_mapM {files : List (String × String)} {recover : Recovery} {os : List Outline}
    (read : (files.mapM fun f => Outline.ofSource f.1 f.2 recover) = .ok os) :
    ∀ o ∈ sortOutlines os, unitFree o.items = true := by
  have free : ∀ o ∈ os, unitFree o.items = true := by
    have made := (mapM_eq_ok_iff ..).mp read
    clear read
    induction made with
    | nil => simp
    | cons made _ ih => exact List.forall_mem_cons.mpr ⟨unitFree_ofSource made, ih⟩
  exact fun o mem => free o (List.mem_mergeSort.mp mem)

theorem generateSources_eq (files : List (String × String)) (recover : Recovery) :
    generateSources files recover = (files.mapM fun f => Outline.ofSource f.1 f.2 recover).map
      fun os => (Program.ofSorted os).emission := by
  unfold generateSources
  cases files.mapM fun f => Outline.ofSource f.1 f.2 recover <;> rfl

/-- Sources that are read alike generate the same unit. -/
theorem unit_generateSources_of_like {files files' : List (String × String)} {recover : Recovery}
    (h : List.Forall₂ (fun f f' => ResultsLike Outline.Like (Outline.ofSource f.1 f.2 recover)
      (Outline.ofSource f'.1 f'.2 recover)) files files') :
    (generateSources files' recover).map (·.unit) =
      (generateSources files recover).map (·.unit) := by
  rw [generateSources_eq, generateSources_eq]
  obtain ⟨os, os', read, read', like⟩ | ⟨e, read, read'⟩ := (mapM_of_like h).cases_eq
  · rw [read, read']
    exact congrArg Except.ok (unit_of_like (sortOutlines_of_like like) (unitFree_of_mapM read)
      (unitFree_of_mapM read'))
  · rw [read, read']

/-- **Comments do not show**, unless one of them stands inside a text that is taken over as it is
written: the sources around may be anything, and the outcome is the same unit or the same error. -/
theorem generateSources_uncommented (w : Filler) (before after : List (String × String))
    (path : String) {source : String} {trees : List Tree} (read : parse? source = some trees)
    (plain : Undisturbed trees) (recover : Recovery) :
    (generateSources (before ++ (path, uncommented w source) :: after) recover).map (·.unit) =
      (generateSources (before ++ (path, source) :: after) recover).map (·.unit) := by
  have same (files : List (String × String)) : List.Forall₂ (fun f f' => ResultsLike Outline.Like
      (Outline.ofSource f.1 f.2 recover) (Outline.ofSource f'.1 f'.2 recover)) files files :=
    List.forall₂_same.mpr fun f _ => .refl Outline.Like.refl _
  apply unit_generateSources_of_like
  exact List.rel_append (same before)
    (.cons (ofSource_uncommented w path read plain recover) (same after))

/-- A source with comments in many places, none of them inside a text that is taken over. -/
def remarkedSource : String :=
  "using System; // directives\n/* a type */ class C \x7b\n" ++
    "  static /* pure */ int TwiceExtension(int x /* number */) => x /* times */ * 2; // doubled\n" ++
    "\x7d"

theorem exists_undisturbed_remarkedSource :
    ∃ trees ∈ parse? remarkedSource, Undisturbed trees := by
  decide +kernel

theorem generateSources_uncommented_remarkedSource :
    ∃ trees, parse? remarkedSource = some trees ∧ Undisturbed trees ∧
      (generateSources [("C.cs", uncommented .blank remarkedSource)]).map (·.unit) =
        (generateSources [("C.cs", remarkedSource)]).map (·.unit) := by
  obtain ⟨trees, read, plain⟩ := exists_undisturbed_remarkedSource
  exact ⟨trees, read, plain, generateSources_uncommented .blank [] [] "C.cs" read plain .nothing⟩

/-- A comment stands inside a directive and another one inside the type of a parameter. -/
def disturbedSource : String :=
  "using /* c */ System;\n" ++
    "class C \x7b static Int32 TwiceExtension(List</* c */ int> xs) => 1; \x7d"

/-- The unit with one forwarder that starts with these types. -/
def twiceUnit (returnType receiver : String) : GeneratedUnit :=
  { text := "// <auto-generated/>\n\nstatic class CExtensions\n\x7b\n    static " ++ returnType ++
      " Twice(this " ++ receiver ++ " xs) => C.TwiceExtension(xs);\n\x7d\n"
    groups := 1
    members := 1 }

/-- The directive is lost with its comment, and the type goes into the forwarder with its own. -/
theorem generateSources_disturbedSource :
    ∃ e e', generateSources [("a.cs", disturbedSource)] = .ok e ∧
      generateSources [("a.cs", uncommented .blank disturbedSource)] = .ok e' ∧
      e.unit = twiceUnit "Int32" "List</*c*/int>" ∧ e'.unit = twiceUnit "int" "List<int>" := by
  have commented : ∃ e, generateSources [("a.cs", disturbedSource)] = .ok e ∧
      e.unit = twiceUnit "Int32" "List</*c*/int>" :=
    exists_emission (List.pairwise_singleton _ _) (by decide +kernel)
  have blanked : ∃ e, generateSources [("a.cs", uncommented .blank disturbedSource)] = .ok e ∧
      e.unit = twiceUnit "int" "List<int>" :=
    exists_emission (List.pairwise_singleton _ _) (by decide +kernel)
  obtain ⟨e, generated, unit⟩ := commented
  obtain ⟨e', generated', unit'⟩ := blanked
  exact ⟨e, e', generated, generated', unit, unit'⟩

end Forwarding
