import Forwarding.Proofs.Generation.Agreement
import Forwarding.Proofs.Program.Rebuilding
import Forwarding.Proofs.Text.Lines

/-!
Generation file by file. The numbers of a declaration, the owners and the groups depend on all files
before it, but what is generated for a file does not: the unit of a program is the header and then,
for each file, what that file alone is generated to. The files share nothing but the index of types,
so a file that declares no type can come and go without a trace.
-/

namespace Forwarding

namespace Emission

/-- The first line of a unit with its line break. -/
def headerLine : String := unitHeader ++ "\n"

/-- The generated text behind the header line. -/
def body (e : Emission) : String :=
  Text.cut headerLine e.unit.text

/-- The diagnostics without the numbers of their nodes. -/
def remarks (e : Emission) : List (DiagnosticCode × String) :=
  e.diagnostics.map fun d => (d.code, d.message)

/-- The emission is these parts one behind the other, under one header. -/
structure Joins (e : Emission) (parts : List Emission) : Prop where
  headed : ∀ part ∈ parts, part.unit.text = headerLine ++ part.body
  text : e.unit.text = headerLine ++ String.join (parts.map (·.body))
  groups : e.unit.groups = (parts.map (·.unit.groups)).foldr (· + ·) 0
  members : e.unit.members = (parts.map (·.unit.members)).foldr (· + ·) 0
  remarks : e.remarks = parts.flatMap (·.remarks)

end Emission

theorem GeneratedUnit.eq_of_parts {u v : GeneratedUnit} (text : u.text = v.text)
    (groups : u.groups = v.groups) (members : u.members = v.members) : u = v := by
  cases u
  cases v
  simp only [GeneratedUnit.mk.injEq]
  exact ⟨text, groups, members⟩

/-- What is generated for a source file alone when its types are resolved against `ix`. -/
def Outline.emission (o : Outline) (ix : TypeIndex) : Emission :=
  let p := Program.ofOutlines [o]
  generate p.forest (p.resolveWith ix)

namespace TopDown

/-! ### Outputs file by file -/

namespace Output

theorem append_empty (a : Output) : a ++ ({} : Output) = a := by
  show Output.append a {} = a
  simp only [Output.append, List.append_nil, Nat.add_zero]

theorem classes_join (os : List Output) :
    (join os).classes = (os.map (·.classes)).foldr (· + ·) 0 := by
  induction os with
  | nil => rfl
  | cons o os ih => exact congrArg (o.classes + ·) ih

theorem forwarders_join (os : List Output) :
    (join os).forwarders = (os.map (·.forwarders)).foldr (· + ·) 0 := by
  induction os with
  | nil => rfl
  | cons o os ih => exact congrArg (o.forwarders + ·) ih

theorem remarks_join (os : List Output) : (join os).remarks = (os.map (·.remarks)).flatten := by
  induction os with
  | nil => rfl
  | cons o os ih => exact congrArg (o.remarks ++ ·) ih

theorem text_append (a b : Output) : (a ++ b).text = a.text ++ b.text :=
  Text.joinLines_append a.lines b.lines

theorem text_join (os : List Output) : (join os).text = String.join (os.map (·.text)) := by
  induction os with
  | nil => rfl
  | cons o os ih => rw [join, text_append, ih, List.map_cons, String.join_cons]

theorem text_header (a : Output) :
    ({ lines := [unitHeader] } ++ a : Output).text = Emission.headerLine ++ a.text := by
  rw [text_append]
  rfl

end Output

section

variable {o : Outline} (free : unitFree o.items = true) (ix : TypeIndex)

include free

/-- One file alone is generated to what going down it writes. -/
theorem emission_file :
    (o.emission ix).unit.text = Emission.headerLine ++ (fileOutput ix o).text ∧
      (o.emission ix).unit.groups = (fileOutput ix o).classes ∧
      (o.emission ix).unit.members = (fileOutput ix o).forwarders ∧
      (o.emission ix).remarks = (fileOutput ix o).remarks := by
  obtain ⟨text, groups, members, remarks⟩ :=
    generate_resolveWith [o] (List.forall_mem_singleton.mpr free) ix
  have single : Output.join ([o].map (fileOutput ix)) = fileOutput ix o :=
    Output.append_empty (fileOutput ix o)
  rw [single] at text groups members remarks
  rw [Output.text_header] at text
  exact ⟨text, groups, members, remarks⟩

theorem body_file : (o.emission ix).body = (fileOutput ix o).text := by
  rw [Emission.body, (emission_file free ix).1, Text.cut_append]

end

/-- What is generated for some files is what each of them is generated to, whatever index types are
resolved against. -/
theorem joins_files (os : List Outline) (free : ∀ o ∈ os, unitFree o.items = true)
    (ix : TypeIndex) :
    (Forwarding.generate (Program.ofOutlines os).forest
      ((Program.ofOutlines os).resolveWith ix)).Joins (os.map (·.emission ix)) := by
  obtain ⟨text, groups, members, remarks⟩ := generate_resolveWith os free ix
  refine ⟨?_, ?_, ?_, ?_, ?_⟩
  · intro part hpart
    obtain ⟨o, ho, rfl⟩ := List.mem_map.mp hpart
    rw [body_file (free o ho), (emission_file (free o ho) ix).1]
  · have bodies : os.map ((·.body) ∘ (·.emission ix)) = os.map ((·.text) ∘ fileOutput ix) :=
      List.map_congr_left fun o ho => body_file (free o ho) ix
    rw [text, Output.text_header, Output.text_join, List.map_map, List.map_map, bodies]
  · have counts : os.map ((·.unit.groups) ∘ (·.emission ix)) = os.map ((·.classes) ∘ fileOutput ix) :=
      List.map_congr_left fun o ho => (emission_file (free o ho) ix).2.1
    rw [groups, Output.classes_join, List.map_map, List.map_map, counts]
  · have counts : os.map ((·.unit.members) ∘ (·.emission ix)) =
        os.map ((·.forwarders) ∘ fileOutput ix) :=
      List.map_congr_left fun o ho => (emission_file (free o ho) ix).2.2.1
    rw [members, Output.forwarders_join, List.map_map, List.map_map, counts]
  · have same : os.map ((·.remarks) ∘ (·.emission ix)) = os.map ((·.remarks) ∘ fileOutput ix) :=
      List.map_congr_left fun o ho => (emission_file (free o ho) ix).2.2.2
    rw [Emission.remarks, remarks, Output.remarks_join, List.map_map, ← same, List.flatMap_def,
      List.map_map]

/-! ### Files without containers -/

/-- There is no container among these items or inside them. -/
def Containerless (items : List OutlineItem) : Prop :=
  ∀ i ∈ itemsPreorder items, i.kind ≠ .container

instance (items : List OutlineItem) : Decidable (Containerless items) :=
  inferInstanceAs (Decidable (∀ i ∈ itemsPreorder items, i.kind ≠ .container))

theorem containerless_cons (item : OutlineItem) (items : List OutlineItem) :
    Containerless (item :: items) ↔
      item.kind ≠ .container ∧ Containerless item.children ∧ Containerless items := by
  cases item
  simp [Containerless, itemsPreorder, OutlineItem.preorder, or_imp, forall_and]

theorem host?_of_kind_ne (s : Place) {item : OutlineItem} (h : item.kind ≠ .container) :
    s.host? item = none := by
  simp [Place.host?, h]

theorem output_containerless (items : List OutlineItem) (h : Containerless items)
    (ctx : TypeName.Context) (s : Place) : output ctx s {} items = {} := by
  induction items using itemsInduction generalizing s with
  | nil => rfl
  | cons kind name modifiers span signature children items inside behind =>
    obtain ⟨hk, below, after⟩ := (containerless_cons _ _).mp h
    have within := inside below (s.enter ⟨kind, name, modifiers, span, signature, children⟩)
    rw [output, outputIn, host?_of_kind_ne s hk, wrapper, within, behind after]
    split <;> rfl

theorem types_containerless (items : List OutlineItem) (h : Containerless items) (s : Place) :
    types s items = [] := by
  induction items using itemsInduction generalizing s with
  | nil => rfl
  | cons kind name modifiers span signature children items inside behind =>
    obtain ⟨hk, below, after⟩ := (containerless_cons _ _).mp h
    have within := inside below (s.enter ⟨kind, name, modifiers, span, signature, children⟩)
    rw [types, typesIn, host?_of_kind_ne s hk, within, behind after]
    rfl

section

variable {before after : List Outline} {o : Outline}
  (free : ∀ p ∈ before ++ after, unitFree p.items = true) (single : unitFree o.items = true)

include free single

theorem unitFree_insert : ∀ p ∈ before ++ o :: after, unitFree p.items = true := by
  intro p hp
  rcases List.mem_append.mp hp with front | behind
  · exact free p (List.mem_append_left _ front)
  · rcases List.mem_cons.mp behind with rfl | back
    · exact single
    · exact free p (List.mem_append_right _ back)

theorem typeIndex_insert (typeless : Containerless o.items) :
    (Program.ofOutlines (before ++ o :: after)).typeIndex =
      (Program.ofOutlines (before ++ after)).typeIndex := by
  rw [typeIndex_ofOutlines _ (unitFree_insert free single), typeIndex_ofOutlines _ free, index,
    index, List.flatMap_append, List.flatMap_cons, types_containerless _ typeless, List.nil_append,
    List.flatMap_append]

/-- A source file without containers leaves no trace in the emission. -/
theorem emission_insert (typeless : Containerless o.items) :
    (Program.ofOutlines (before ++ o :: after)).emission.unit =
        (Program.ofOutlines (before ++ after)).emission.unit ∧
      (Program.ofOutlines (before ++ o :: after)).emission.remarks =
        (Program.ofOutlines (before ++ after)).emission.remarks := by
  let p := Program.ofOutlines (before ++ o :: after)
  let ix := (Program.ofOutlines (before ++ after)).typeIndex
  have same : Output.join ((before ++ o :: after).map (fileOutput ix)) =
      Output.join ((before ++ after).map (fileOutput ix)) := by
    have idle : fileOutput ix o = {} := output_containerless o.items typeless _ _
    rw [List.map_append, List.map_cons, Output.join_append, Output.join, idle, Output.empty_append,
      List.map_append, Output.join_append]
  have found : p.emission = Forwarding.generate p.forest (p.resolveWith ix) := by
    rw [Program.emission, typeIndex_insert free single typeless]
  obtain ⟨text, groups, members, remarks⟩ :=
    generate_resolveWith _ (unitFree_insert free single) ix
  obtain ⟨text', groups', members', remarks'⟩ := generate_resolveWith _ free ix
  rw [same, ← text', ← found] at text
  rw [same, ← groups', ← found] at groups
  rw [same, ← members', ← found] at members
  rw [same, ← remarks', ← found] at remarks
  exact ⟨GeneratedUnit.eq_of_parts text groups members, remarks⟩

end

end TopDown

/-- **Generation is local to each source file**: the emission of a program is put together from what
each file alone is generated to against the program's index of types, and a file that declares no
container changes nothing wherever it is put in. -/
theorem emission_local (os : List Outline) (free : ∀ o ∈ os, unitFree o.items = true) :
    (Program.ofOutlines os).emission.Joins
        (os.map (·.emission (Program.ofOutlines os).typeIndex)) ∧
      ∀ before after o, os = before ++ after → unitFree o.items = true →
        TopDown.Containerless o.items →
          (Program.ofOutlines (before ++ o :: after)).emission.unit =
              (Program.ofOutlines os).emission.unit ∧
            (Program.ofOutlines (before ++ o :: after)).emission.remarks =
              (Program.ofOutlines os).emission.remarks := by
  refine ⟨TopDown.joins_files os free _, ?_⟩
  rintro before after o rfl single typeless
  exact TopDown.emission_insert free single typeless

/-- A type in one file, and in another a method that takes it by its simple name. -/
def vectors : List Outline :=
  [{ path := "Vector.cs"
     items := [{
       kind := .blockNamespace, name := "Geometry"
       children := [{ kind := .container, name := "Vector" }] }] },
   { path := "VectorOps.cs"
     usings := { namespaces := ["Geometry"] }
     items := [{
       kind := .container, name := "VectorOps"
       children := [{
         kind := .method, name := "LengthExtension", modifiers := ["static"]
         signature := some { returnType := "int", parameters := [{ name := "v", ty := "Vector" }] } }] }] }]

/-- Directives and a method outside any type, but no container. -/
def scripting : Outline :=
  { path := "Script.cs"
    usings := { aliases := [("Vector", "Other.Vector")], namespaces := ["Other"] }
    items := [{ kind := .method, name := "MainExtension", modifiers := ["static"] }] }

theorem emission_local_vectors :
    (∀ o ∈ vectors, unitFree o.items = true) ∧
      (Program.ofOutlines vectors).emission.Joins
        (vectors.map (·.emission (Program.ofOutlines vectors).typeIndex)) ∧
      (Program.ofOutlines (vectors.take 1 ++ scripting :: vectors.drop 1)).emission.unit =
        (Program.ofOutlines vectors).emission.unit :=
  have split := emission_local vectors (by decide)
  ⟨by decide, split.1, (split.2 (vectors.take 1) (vectors.drop 1) scripting rfl (by decide)
    (by decide)).1⟩

end Forwarding
