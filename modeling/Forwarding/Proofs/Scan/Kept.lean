import Forwarding.Proofs.FileTree.Walking
import Forwarding.Proofs.Glob.Ending
import Forwarding.Proofs.Path.Below
import Forwarding.Scan
import Forwarding.Summary

/-!
The files that a scan keeps. Each file of the tree is kept or passed over by itself, so the kept files
are those of the tree in their order, sorted once. A kept file is read back from its path. The files
that the program writes are never kept: one is no source file, the other is taken for generated.
-/

namespace Forwarding

/-! ### Each file by itself -/

/-- The path and the size with which a scan meets a file, unless it passes it over. -/
def meets (root : String) (l : Location) (f : Location × Content) : Option (String × Nat) :=
  match namesBelow? l f.1 with
  | none => none
  | some [] => some (root, f.2.size)
  | some names =>
    if names.dropLast.any skippedFolders.contains then none
    else some (Path.join root ("/".intercalate names), f.2.size)

theorem filesBelow_eq (t : FileTree) (root : String) (l : Location) :
    t.filesBelow root l = t.files.filterMap (meets root l) := rfl

/-- The file as the scan of `root` keeps it, if it does. -/
def keeps (settings : Settings) (root : String) (l : Location) (f : Location × Content) :
    Option ScannedFile :=
  (meets root l f).bind fun (path, size) =>
    let file : ScannedFile := { path, relative := Path.relative root path, size }
    if Path.isSource path && verdict settings.filters.patterns settings.limits file == .kept
    then some file else none

theorem keeps_eq_some {settings : Settings} {root : String} {l : Location}
    {f : Location × Content} {file : ScannedFile} (h : keeps settings root l f = some file) :
    meets root l f = some (file.path, file.size) ∧
      file.relative = Path.relative root file.path ∧ Path.isSource file.path = true ∧
      verdict settings.filters.patterns settings.limits file = .kept := by
  obtain ⟨⟨path, size⟩, met, chosen⟩ := Option.bind_eq_some_iff.mp h
  dsimp only at chosen
  split at chosen
  · rename_i good
    cases chosen
    rw [Bool.and_eq_true, beq_iff_eq] at good
    exact ⟨met, rfl, good⟩
  · cases chosen

/-- The files of a scan in the order of their relative paths. -/
def keptFiles (t : FileTree) (settings : Settings) (root : String) (l : Location) :
    List ScannedFile :=
  (t.files.filterMap (keeps settings root l)).mergeSort fun a b => a.relative ≤ b.relative

/-- **Each file is kept or passed over by itself.** -/
theorem classify_files (settings : Settings) (t : FileTree) (root : String) (l : Location) :
    (classify settings (sourceFiles root (t.filesBelow root l))).files =
      keptFiles t settings root l := by
  have each : ∀ fs : List (Location × Content),
      (((sourceFiles root (fs.filterMap (meets root l))).map fun f =>
        (f, verdict settings.filters.patterns settings.limits f)).filter
          (·.2 == .kept)).map (·.1) = fs.filterMap (keeps settings root l) := by
    intro fs
    induction fs with
    | nil => rfl
    | cons f fs ih =>
      cases met : meets root l f with
      | none =>
        rw [List.filterMap_cons_none met, ih, List.filterMap_cons_none (by rw [keeps, met]; rfl)]
      | some entry =>
        rw [List.filterMap_cons_some met, List.filterMap_cons, ← ih, keeps, met, Option.bind_some]
        cases source : Path.isSource entry.1 with
        | false => simp [sourceFiles, source]
        | true =>
          cases kept : verdict settings.filters.patterns settings.limits
            { path := entry.1, relative := Path.relative root entry.1, size := entry.2 } == .kept <;>
            simp [sourceFiles, source, kept]
  rw [keptFiles, filesBelow_eq, ← each]
  rfl

/-! ### Where kept files lie -/

theorem namesBelow?_iff {root l names : Location} :
    namesBelow? root l = some names ↔ l = root ++ names := by
  unfold namesBelow?
  constructor
  · intro h
    split at h
    · rename_i front
      cases h
      exact (List.prefix_iff_eq_append.mp (List.isPrefixOf_iff_prefix.mp front)).symm
    · cases h
  · rintro rfl
    rw [if_pos (List.isPrefixOf_iff_prefix.mpr (List.prefix_append _ _)), List.drop_left]

/-- The path of what lies at `names` below what a path leads to. -/
def pathBelow (root : String) : List String → String
  | [] => root
  | names => Path.join root ("/".intercalate names)

theorem pathBelow_of_ne_nil {root : String} {names : List String} (nonempty : names ≠ []) :
    pathBelow root names = Path.join root ("/".intercalate names) := by
  cases names with
  | nil => exact absurd rfl nonempty
  | cons name names => rfl

/-- A scan meets what lies below its root and in no folder that is never entered. -/
theorem meets_iff {root : String} {l m : Location} {content : Content} {path : String}
    {size : Nat} :
    meets root l (m, content) = some (path, size) ↔
      ∃ names, m = l ++ names ∧ (∀ name ∈ names.dropLast, name ∉ skippedFolders) ∧
        path = pathBelow root names ∧ size = content.size := by
  unfold meets
  constructor
  · intro h
    split at h
    · cases h
    · rename_i below
      cases h
      exact ⟨[], namesBelow?_iff.mp below, by simp, rfl, rfl⟩
    · rename_i names nonempty below
      split at h
      · cases h
      · rename_i entered
        cases h
        have filled : names ≠ [] := fun empty => nonempty (by rw [empty])
        refine ⟨names, namesBelow?_iff.mp below, ?_, (pathBelow_of_ne_nil filled).symm, rfl⟩
        simpa using entered
  · rintro ⟨names, split, entered, rfl, rfl⟩
    rw [namesBelow?_iff.mpr split]
    cases names with
    | nil => rfl
    | cons name names =>
      dsimp only
      rw [if_neg (by simpa using entered)]
      rfl

/-- A scan from an absolute path meets each file under its own absolute path. -/
theorem meets_absolute {l m : Location} {content : Content} {path : String} {size : Nat}
    (good : ∀ name ∈ m, FileTree.isEntryName name = true)
    (h : meets (FileTree.absolute l) l (m, content) = some (path, size)) :
    (∃ names, m = l ++ names) ∧ path = FileTree.absolute m ∧ size = content.size := by
  obtain ⟨names, rfl, _, rfl, rfl⟩ := meets_iff.mp h
  refine ⟨⟨names, rfl⟩, ?_, rfl⟩
  by_cases empty : names = []
  · rw [empty, List.append_nil]
    rfl
  · have plain := FileTree.isName_of_names good
    rw [pathBelow_of_ne_nil empty]
    exact Path.join_absolute (fun name hn => plain name (List.mem_append_left _ hn))
      (fun name hn => plain name (List.mem_append_right _ hn)) empty

theorem scan_of_find {t : FileTree} {root : String} {l : Location} (found : t.find root = .ok l)
    (settings : Settings) :
    ∃ r, scan t settings root = .ok r ∧ r.files = keptFiles t settings root l := by
  refine ⟨_, ?_, classify_files settings t root l⟩
  rw [scan, found]

theorem files_of_scan {t : FileTree} {root : String} {l : Location} (found : t.find root = .ok l)
    {settings : Settings} {r : ScanResult} (h : scan t settings root = .ok r) :
    r.files = keptFiles t settings root l := by
  obtain ⟨r', scanned, files⟩ := scan_of_find found settings
  rw [h] at scanned
  cases scanned
  exact files

/-- What the path and the size of a kept file stand for. -/
theorem kept_entry {t : FileTree} (wf : t.WellFormed) {settings : Settings} {l : Location}
    {file : ScannedFile} (h : file ∈ keptFiles t settings (FileTree.absolute l) l) :
    ∃ m content, (m, content) ∈ t.files ∧
      keeps settings (FileTree.absolute l) l (m, content) = some file ∧
      file.path = FileTree.absolute m ∧ file.size = content.size := by
  obtain ⟨⟨m, content⟩, listed, kept⟩ := List.mem_filterMap.mp (List.mem_mergeSort.mp h)
  have good := wf.names m (List.mem_append_right _ (List.mem_map.mpr ⟨_, listed, rfl⟩))
  exact ⟨m, content, listed, kept, (meets_absolute good (keeps_eq_some kept).1).2⟩

/-! ### The program's own files -/

/-- Whether a file is a source file shows in its name alone. -/
theorem isSource_absolute {l : Location} {name : String}
    (h : ∀ n ∈ l ++ [name], Path.isName n = true) :
    Path.isSource (FileTree.absolute (l ++ [name])) = Path.isSource (FileTree.absolute [name]) := by
  have single : ∀ n ∈ [name], Path.isName n = true := fun n hn => h n (List.mem_append_right _ hn)
  rw [Path.isSource, Path.isSource, Path.extension?, Path.extension?, Path.components_absolute h,
    Path.components_absolute single, List.map_append, List.map_singleton, ← List.cons_append,
    List.getLast?_concat]
  rfl

/-- Without backslashes there is nothing to replace. -/
theorem map_slashes {cs : List Char} (plain : '\\' ∉ cs) :
    cs.map (fun c => if c == '\\' then '/' else c) = cs := by
  refine (List.map_congr_left fun c hc => ?_).trans cs.map_id
  rw [if_neg]
  · rfl
  · rw [beq_iff_eq]
    rintro rfl
    exact plain hc

/-- What a name ends with, the path below a folder ends with. -/
theorem relative_ends {l names : Location} {name : String} {stem ending : List Char}
    (h : ∀ n ∈ l ++ (names ++ [name]), Path.isName n = true) (ends : name.toList = stem ++ ending)
    (plain : '\\' ∉ ending) :
    ∃ front, (Path.relative (FileTree.absolute l)
      (FileTree.absolute (l ++ (names ++ [name])))).toList = front ++ ending := by
  obtain ⟨front, joined⟩ := Path.exists_joinPieces_concat (names.map String.toList) name.toList
  rw [Path.relative_absolute (fun n hn => h n (List.mem_append_left _ hn))
    (fun n hn => h n (List.mem_append_right _ hn)) (by simp), Path.withSlashes,
    String.toList_ofList, Path.toList_intercalate, List.map_append, List.map_singleton, joined, ends,
    ← List.append_assoc, List.map_append, map_slashes plain]
  exact ⟨_, rfl⟩

/-- With the default filters, a file whose name ends with `.g.cs` is taken for generated. -/
theorem verdict_generated {limits : Limits} {file : ScannedFile} {front : List Char}
    (h : file.relative.toList = front ++ ".g.cs".toList) :
    verdict ({} : Filters).patterns limits file ≠ .kept := by
  obtain ⟨ps, listed⟩ : ∃ ps, ({} : Filters).patterns.generated =
      some (Glob.Pattern.ofEnding (".g.c".toList ++ ['s']) :: ps) := ⟨_, rfl⟩
  have generated : Glob.anyMatches ({} : Filters).patterns.generated file.relative = true := by
    have found := @Glob.matchesBytes_ofEnding ".g.c".toList 's' (by decide)
      (front.flatMap String.utf8EncodeChar)
    rw [← List.flatMap_append] at found
    rw [listed, Glob.anyMatches, Option.any_some, List.any_cons, Text.utf8, h]
    exact Bool.or_eq_true_iff.mpr (.inl found)
  rw [verdict, generated]
  split <;> simp

/-- The unit is taken for generated wherever it lies, unless it is itself what is scanned. -/
theorem keeps_unit {settings : Settings} (filters : settings.filters = {}) {l folder : Location}
    (good : ∀ name ∈ folder ++ [generatedUnitName], FileTree.isEntryName name = true)
    (other : l ≠ folder ++ [generatedUnitName]) (content : Content) :
    keeps settings (FileTree.absolute l) l (folder ++ [generatedUnitName], content) = none := by
  refine Option.eq_none_iff_forall_not_mem.mpr fun file kept => ?_
  obtain ⟨met, relative, _, chosen⟩ := keeps_eq_some (Option.mem_def.mp kept)
  obtain ⟨⟨names, below⟩, path, _⟩ := meets_absolute good met
  have nonempty : names ≠ [] := by
    rintro rfl
    exact other (by rw [below, List.append_nil])
  -- The last of the names below the project is the unit's own, so the relative path ends with it.
  obtain ⟨init, last, rfl⟩ : ∃ init last, names = init ++ [last] :=
    ⟨_, _, (List.dropLast_concat_getLast nonempty).symm⟩
  have unit : generatedUnitName = last := by
    rw [← List.append_assoc] at below
    exact List.singleton_inj.mp (List.append_inj' below rfl).2
  have plain := FileTree.isName_of_names good
  rw [path, below] at relative
  rw [below] at plain
  obtain ⟨front, ends⟩ := @relative_ends l init last "ExtensionMethods".toList ".g.cs".toList plain
    (by rw [← unit]; rfl) (by decide)
  rw [filters] at chosen
  exact verdict_generated (relative ▸ ends) chosen

/-- The summary is no source file. -/
theorem keeps_summary (settings : Settings) {l folder : Location}
    (good : ∀ name ∈ folder ++ [summaryFileName], FileTree.isEntryName name = true)
    (content : Content) :
    keeps settings (FileTree.absolute l) l (folder ++ [summaryFileName], content) = none := by
  refine Option.eq_none_iff_forall_not_mem.mpr fun file kept => ?_
  obtain ⟨met, _, source, _⟩ := keeps_eq_some (Option.mem_def.mp kept)
  obtain ⟨_, path, _⟩ := meets_absolute good met
  rw [path, isSource_absolute (FileTree.isName_of_names good)] at source
  exact absurd source (by decide)

end Forwarding
