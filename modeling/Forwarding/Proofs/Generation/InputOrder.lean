import Forwarding.Proofs.Outline.Bodies
import Forwarding.Proofs.Sorting
import Forwarding.Program.Resolver
import Mathlib.Data.List.Forall2
import Mathlib.Data.List.Perm.Basic

/-!
The order in which sources are given. Numbers, the index of types and the groups all follow the order
of the outlines, but the outlines are sorted by their paths before any of these is made. So sources
with different paths generate the same emission in whatever order they come.
-/

namespace Forwarding

/-- Reading a list of sources succeeds with the outlines of all of them, or not at all. -/
theorem mapM_eq_ok_iff {α β ε : Type} (f : α → Except ε β) (as : List α) (bs : List β) :
    as.mapM f = .ok bs ↔ List.Forall₂ (fun a b => f a = .ok b) as bs := by
  induction as generalizing bs with
  | nil =>
    rw [List.mapM_nil, List.forall₂_nil_left_iff]
    exact ⟨fun h => (Except.ok.inj h).symm, fun h => h ▸ rfl⟩
  | cons a as ih =>
    rw [List.mapM_cons, List.forall₂_cons_left_iff]
    cases first : f a with
    | error e =>
      constructor
      · intro h
        cases h
      · rintro ⟨b, _, h, _⟩
        cases h
    | ok b =>
      cases rest : as.mapM f with
      | error e =>
        constructor
        · intro h
          cases h
        · rintro ⟨_, bs', _, h, _⟩
          rw [(ih bs').mpr h] at rest
          cases rest
      | ok bs' =>
        constructor
        · intro h
          cases h
          exact ⟨b, bs', rfl, (ih bs').mp rest, rfl⟩
        · rintro ⟨b', bs'', hb, h, rfl⟩
          rw [(ih bs'').mpr h] at rest
          cases rest
          cases hb
          rfl

theorem path_of_ofSource {path source : String} {recover : Recovery} {o : Outline}
    (h : Outline.ofSource path source recover = .ok o) : o.path = path := by
  obtain ⟨items, _, rfl⟩ := ofSource_eq_ok.mp h
  rfl

section

variable (recover : Recovery)

/-- The paths of the outlines are those of the sources. -/
theorem map_path_of_forall₂ {files : List (String × String)} {os : List Outline}
    (h : List.Forall₂ (fun f o => Outline.ofSource f.1 f.2 recover = .ok o) files os) :
    os.map (·.path) = files.map (·.1) := by
  induction h with
  | nil => rfl
  | cons first _ ih => rw [List.map_cons, List.map_cons, path_of_ofSource first, ih]

theorem generateSources_eq_ok_iff (files : List (String × String)) (e : Emission) :
    generateSources files recover = .ok e ↔
      ∃ os, List.Forall₂ (fun f o => Outline.ofSource f.1 f.2 recover = .ok o) files os ∧
        (Program.ofSorted os).emission = e := by
  unfold generateSources
  cases read : files.mapM fun f => Outline.ofSource f.1 f.2 recover with
  | error cause =>
    constructor
    · intro h
      cases h
    · rintro ⟨os, h, _⟩
      rw [(mapM_eq_ok_iff ..).mpr h] at read
      cases read
  | ok os =>
    constructor
    · intro h
      exact ⟨os, (mapM_eq_ok_iff ..).mp read, Except.ok.inj h⟩
    · rintro ⟨os', h, rfl⟩
      rw [(mapM_eq_ok_iff ..).mpr h] at read
      cases read
      rfl

/-- Sources that come in the order of their paths are taken as they come. -/
theorem generateSources_of_pairwise {files : List (String × String)}
    (sorted : files.Pairwise fun f g => f.1 ≤ g.1) :
    generateSources files recover = (files.mapM fun f => Outline.ofSource f.1 f.2 recover).map
      fun os => (Program.ofOutlines os).emission := by
  unfold generateSources
  cases read : files.mapM fun f => Outline.ofSource f.1 f.2 recover with
  | error cause => rfl
  | ok os =>
    have paths := map_path_of_forall₂ recover ((mapM_eq_ok_iff ..).mp read)
    have inOrder : os.Pairwise fun a b => decide (a.path ≤ b.path) = true := by
      have := List.pairwise_map.mpr sorted
      rw [← paths, List.pairwise_map] at this
      exact this.imp decide_eq_true
    have same : sortOutlines os = os := List.mergeSort_of_pairwise inOrder
    show Except.ok (Program.ofOutlines (sortOutlines os)).emission = _
    rw [same]
    rfl

/-- The emission of sources that come in the order of their paths, found by evaluation. -/
theorem exists_emission {files : List (String × String)}
    (sorted : files.Pairwise fun f g => f.1 ≤ g.1) {unit : GeneratedUnit}
    (evaluated : ((files.mapM fun f => Outline.ofSource f.1 f.2).map
      fun os => (Program.ofOutlines os).emission.unit).toOption = some unit) :
    ∃ e, generateSources files = .ok e ∧ e.unit = unit := by
  rw [generateSources_of_pairwise .nothing sorted]
  cases read : files.mapM fun f => Outline.ofSource f.1 f.2 with
  | error cause =>
    rw [read] at evaluated
    cases evaluated
  | ok os =>
    rw [read] at evaluated
    exact ⟨_, rfl, Option.some.inj evaluated⟩

/-- What sources generate, the same sources generate in another order. -/
theorem generateSources_ok_of_perm {files files' : List (String × String)}
    (order : files'.Perm files) (distinct : (files.map (·.1)).Nodup) {e : Emission}
    (h : generateSources files recover = .ok e) : generateSources files' recover = .ok e := by
  obtain ⟨os, read, generated⟩ := (generateSources_eq_ok_iff ..).mp h
  obtain ⟨os', read', same⟩ := List.perm_comp_forall₂ order read
  refine (generateSources_eq_ok_iff ..).mpr ⟨os', read', ?_⟩
  have apart : (os'.map (·.path)).Nodup := by
    rw [map_path_of_forall₂ recover read']
    exact (order.map _).nodup_iff.mpr distinct
  have sorted : sortOutlines os' = sortOutlines os :=
    sortByKey_eq_of_perm Outline.path same apart
  rw [Program.ofSorted, sorted]
  exact generated

/-- **The order of the sources does not show.** Sources with different paths give the same outcome in
any order: the same text, the same counts and the same diagnostics at the same nodes. -/
theorem generateSources_perm {files files' : List (String × String)} (order : files.Perm files')
    (distinct : (files.map (·.1)).Nodup) :
    generateSources files recover = generateSources files' recover := by
  have distinct' : (files'.map (·.1)).Nodup := (order.map _).nodup_iff.mp distinct
  cases given : generateSources files recover with
  | ok e => exact (generateSources_ok_of_perm recover order.symm distinct given).symm
  | error cause =>
    cases swapped : generateSources files' recover with
    | ok e =>
      rw [generateSources_ok_of_perm recover order distinct' swapped] at given
      cases given
    | error cause' =>
      cases cause
      cases cause'
      rfl

end

/-- Two files, the later path first; each declares a type that the other one uses. -/
def crossing : List (String × String) :=
  [("b/Words.cs", "class Words { static Sum CountExtension(Words w) => null; }"),
   ("a/Math.cs", "class Sum { static int Extension(); static Words SayExtension(Sum s) => null; }")]

theorem generateSources_crossing : ∃ e, generateSources crossing = .ok e := by
  have readable : (crossing.mapM fun f => Outline.ofSource f.1 f.2).toOption.isSome = true := by
    decide +kernel
  cases read : crossing.mapM fun f => Outline.ofSource f.1 f.2 with
  | error cause =>
    rw [read] at readable
    cases readable
  | ok os => exact ⟨_, (generateSources_eq_ok_iff ..).mpr ⟨os, (mapM_eq_ok_iff ..).mp read, rfl⟩⟩

theorem generateSources_perm_crossing :
    crossing.Perm crossing.reverse ∧ (crossing.map (·.1)).Nodup ∧
      ∃ e, generateSources crossing = .ok e ∧ generateSources crossing.reverse = .ok e := by
  have order : crossing.Perm crossing.reverse := (List.reverse_perm crossing).symm
  have distinct : (crossing.map (·.1)).Nodup := by decide
  obtain ⟨e, generated⟩ := generateSources_crossing
  exact ⟨order, distinct, e, generated, generateSources_perm .nothing order distinct ▸ generated⟩

end Forwarding
