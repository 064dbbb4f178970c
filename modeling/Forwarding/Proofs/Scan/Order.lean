import Forwarding.Proofs.Generation.InputOrder
import Forwarding.Proofs.Run.Reading
import Forwarding.Proofs.Scan.Kept

/-!
The order in which a scan meets the files of a project. A disk lists the entries of a folder in an
order of its own; the scan counts its files and sorts those it keeps by their relative paths. The
counts never show the order. The kept files show it exactly where two of them have the same relative
path, which happens when a name has a backslash: `a\b.cs` and `a/b.cs` are the same path then.
-/

namespace Forwarding

namespace FileTree

/-- The same files and folders, met in another order. -/
structure Reordered (t t' : FileTree) : Prop where
  files : t'.files.Perm t.files
  folders : t'.folders.Perm t.folders
  here : t'.here = t.here

namespace Reordered

variable {t t' : FileTree} (h : t.Reordered t')

include h

theorem symm : t'.Reordered t :=
  ⟨h.files.symm, h.folders.symm, h.here.symm⟩

theorem grows : t.Grows t' where
  here := h.here
  folders := by
    intro l folder
    rw [isFolder_iff] at folder ⊢
    exact folder.imp_right h.folders.mem_iff.mpr
  files := by
    intro l file
    rw [isFile_iff] at file ⊢
    obtain ⟨content, listed⟩ := file
    exact ⟨content, h.files.mem_iff.mpr listed⟩

theorem find_iff (p : String) (l : Location) : t'.find p = .ok l ↔ t.find p = .ok l :=
  ⟨h.symm.grows.find, h.grows.find⟩

theorem file? (once : (t.files.map (·.1)).Nodup) (l : Location) : t'.file? l = t.file? l := by
  have once' : (t'.files.map (·.1)).Nodup := (h.files.map _).nodup_iff.mpr once
  cases found : t.file? l with
  | some content =>
    obtain ⟨content', listed⟩ := (t.isFile_iff l).mp (by rw [isFile, found]; rfl)
    have same : t.file? l = some content' := Table.lookup_of_mem once listed
    rw [found] at same
    rw [same]
    exact Table.lookup_of_mem once' (h.files.mem_iff.mpr listed)
  | none =>
    cases found' : t'.file? l with
    | none => rfl
    | some content =>
      obtain ⟨content', listed⟩ := (t'.isFile_iff l).mp (by rw [isFile, found']; rfl)
      have : t.file? l = some content' := Table.lookup_of_mem once (h.files.mem_iff.mp listed)
      rw [found] at this
      cases this

/-- What a path leads to is read alike. -/
theorem readText? (once : (t.files.map (·.1)).Nodup) (p : String) :
    t'.readText? p = t.readText? p := by
  rw [FileTree.readText?, FileTree.readText?, readBytes, readBytes]
  cases found : t.find p with
  | ok l =>
    rw [(h.find_iff p l).mpr found]
    simp only [h.file? once]
  | error e =>
    cases found' : t'.find p with
    | ok l =>
      rw [(h.find_iff p l).mp found'] at found
      cases found
    | error e' => rfl

end Reordered

/-- The tree with its files listed from the last to the first. -/
def backwards (t : FileTree) : FileTree :=
  { t with files := t.files.reverse }

theorem reordered_backwards (t : FileTree) : t.Reordered t.backwards :=
  ⟨List.reverse_perm t.files, .refl _, rfl⟩

end FileTree

/-! ### Paths of different files -/

theorem intercalate_ne {names : Location} (good : ∀ name ∈ names, Path.isName name = true)
    (nonempty : names ≠ []) : "/".intercalate names ≠ "" := by
  obtain ⟨name, rest, rfl⟩ := List.exists_cons_of_ne_nil nonempty
  obtain ⟨first, _⟩ := List.forall_mem_cons.mp good
  intro empty
  have parted := Path.pieces_intercalate good nonempty
  rw [empty] at parted
  exact Path.ne_nil_of_isName first (List.cons.inj parted).1.symm

/-- Different names make different paths. -/
theorem intercalate_injective {names names' : Location}
    (good : ∀ name ∈ names, Path.isName name = true)
    (good' : ∀ name ∈ names', Path.isName name = true)
    (same : "/".intercalate names = "/".intercalate names') : names = names' := by
  by_cases empty : names = []
  · subst empty
    by_contra other
    exact intercalate_ne good' (Ne.symm other) same.symm
  · by_cases empty' : names' = []
    · subst empty'
      exact absurd same (intercalate_ne good empty)
    · have parted := Path.pieces_intercalate good empty
      rw [same, Path.pieces_intercalate good' empty'] at parted
      exact (List.map_injective_iff.mpr (fun _ _ => String.toList_inj.mp) parted).symm

/-- Names are put behind a path by a separator that depends on the path alone. -/
theorem exists_join (root : String) :
    ∃ front, (front = root ∨ front = root ++ "/") ∧ ∀ names : Location,
      (∀ name ∈ names, Path.isName name = true) → names ≠ [] →
        Path.join root ("/".intercalate names) = front ++ "/".intercalate names := by
  by_cases ended : (root.isEmpty || root.toList.getLast? == some '/') = true
  · refine ⟨root, .inl rfl, fun names good nonempty => ?_⟩
    rw [Path.join, Path.isAbsolute_intercalate good nonempty, if_neg Bool.false_ne_true,
      if_pos ended]
  · refine ⟨root ++ "/", .inr rfl, fun names good nonempty => ?_⟩
    rw [Path.join, Path.isAbsolute_intercalate good nonempty, if_neg Bool.false_ne_true,
      if_neg ended]

theorem meets_eq_some {root : String} {l : Location} {f : Location × Content} {path : String}
    {size : Nat} (h : meets root l f = some (path, size)) :
    ∃ names, f.1 = l ++ names ∧
      (names = [] ∧ path = root ∨ names ≠ [] ∧ path = Path.join root ("/".intercalate names)) := by
  obtain ⟨names, split, _, rfl, _⟩ := meets_iff.mp h
  by_cases empty : names = []
  · exact ⟨names, split, .inl ⟨empty, by rw [empty]; rfl⟩⟩
  · exact ⟨names, split, .inr ⟨empty, pathBelow_of_ne_nil empty⟩⟩

/-- A scan meets different files under different paths. -/
theorem meets_injective {root : String} {l : Location} {f g : Location × Content}
    (goodF : ∀ name ∈ f.1, FileTree.isEntryName name = true)
    (goodG : ∀ name ∈ g.1, FileTree.isEntryName name = true) {path : String} {m n : Nat}
    (hf : meets root l f = some (path, m)) (hg : meets root l g = some (path, n)) : f.1 = g.1 := by
  obtain ⟨names, split, place⟩ := meets_eq_some hf
  obtain ⟨names', split', place'⟩ := meets_eq_some hg
  have plain := FileTree.isName_of_names goodF
  have plain' := FileTree.isName_of_names goodG
  rw [split] at plain
  rw [split'] at plain'
  have good : ∀ name ∈ names, Path.isName name = true := fun name hn =>
    plain name (List.mem_append_right _ hn)
  have good' : ∀ name ∈ names', Path.isName name = true := fun name hn =>
    plain' name (List.mem_append_right _ hn)
  obtain ⟨front, separated, joined⟩ := exists_join root
  -- A path with names behind it is longer than the root, so it is never the root itself.
  have longer {ns : Location} (hn : ∀ name ∈ ns, Path.isName name = true) (nonempty : ns ≠ []) :
      Path.join root ("/".intercalate ns) ≠ root := by
    rw [joined ns hn nonempty]
    intro same
    have length := congrArg (fun s => s.toList.length) same
    have filled := mt String.toList_eq_nil_iff.mp (intercalate_ne hn nonempty)
    have positive := List.length_pos_of_ne_nil filled
    rw [String.toList_append, List.length_append] at length
    rcases separated with rfl | rfl
    · omega
    · rw [String.toList_append, List.length_append] at length
      omega
  rw [split, split']
  rcases place with ⟨rfl, rfl⟩ | ⟨nonempty, rfl⟩
  · rcases place' with ⟨rfl, _⟩ | ⟨nonempty', same⟩
    · rfl
    · exact absurd same.symm (longer good' nonempty')
  · rcases place' with ⟨rfl, same⟩ | ⟨nonempty', same⟩
    · exact absurd same (longer good nonempty)
    · rw [joined names good nonempty, joined names' good' nonempty'] at same
      rw [intercalate_injective good good' ((String.append_right_inj front).mp same)]

/-- No file is kept twice. -/
theorem nodup_keeps {t : FileTree} (wf : t.WellFormed) (settings : Settings) (root : String)
    (l : Location) : (t.files.filterMap (keeps settings root l)).Nodup := by
  have good {f : Location × Content} (hf : f ∈ t.files) :
      ∀ name ∈ f.1, FileTree.isEntryName name = true :=
    wf.names f.1 (List.mem_append_right _ (List.mem_map.mpr ⟨f, hf, rfl⟩))
  refine List.pairwise_filterMap.mpr ((List.pairwise_map.mp wf.once).imp_of_mem ?_)
  rintro f g hf hg apart file kept file' kept' rfl
  exact apart (meets_injective (good hf) (good hg) (keeps_eq_some kept).1 (keeps_eq_some kept').1)

/-! ### Relative paths -/

/-- The relative path of what lies at `names` below a folder, if no name has a backslash. -/
theorem relative_of_no_backslash {l names : Location} (hl : ∀ name ∈ l, Path.isName name = true)
    (hn : ∀ name ∈ names, Path.isName name = true)
    (plain : ∀ name ∈ names, '\\' ∉ name.toList) :
    Path.relative (FileTree.absolute l) (FileTree.absolute (l ++ names)) = "/".intercalate names := by
  by_cases empty : names = []
  · rw [empty, List.append_nil, Path.relative_self (by simp [FileTree.absolute])]
    rfl
  · rw [Path.relative_absolute hl hn empty]
    have unchanged : '\\' ∉ ("/".intercalate names).toList := by
      intro backslash
      rw [Path.toList_intercalate] at backslash
      rcases Path.mem_joinPieces backslash with slash | ⟨piece, hp, within⟩
      · exact absurd slash (by decide)
      · obtain ⟨name, hname, rfl⟩ := List.mem_map.mp hp
        exact plain name hname within
    rw [Path.withSlashes, map_slashes unchanged, String.ofList_toList]

/-- Where no name has a backslash, the files kept below a folder have different relative paths. -/
theorem nodup_relative {t : FileTree} (wf : t.WellFormed) {l : Location}
    (names : ∀ name ∈ l, FileTree.isEntryName name = true)
    (plain : ∀ f ∈ t.files, ∀ name ∈ f.1, '\\' ∉ name.toList) (settings : Settings) :
    ((keptFiles t settings (FileTree.absolute l) l).map (·.relative)).Nodup := by
  have placed {f : Location × Content} {file : ScannedFile} (hf : f ∈ t.files)
      (kept : keeps settings (FileTree.absolute l) l f = some file) :
      ∃ ns, f.1 = l ++ ns ∧ (∀ name ∈ ns, Path.isName name = true) ∧
        file.relative = "/".intercalate ns := by
    have good := wf.names f.1 (List.mem_append_right _ (List.mem_map.mpr ⟨f, hf, rfl⟩))
    obtain ⟨met, relative, _⟩ := keeps_eq_some kept
    obtain ⟨⟨ns, below⟩, path, _⟩ := meets_absolute good met
    have clean := plain f hf
    have all := FileTree.isName_of_names good
    rw [below] at clean all
    have hn : ∀ name ∈ ns, Path.isName name = true := fun name h =>
      all name (List.mem_append_right _ h)
    refine ⟨ns, below, hn, ?_⟩
    rw [relative, path, below]
    exact relative_of_no_backslash (FileTree.isName_of_names names) hn fun name h =>
      clean name (List.mem_append_right _ h)
  rw [keptFiles, ((List.mergeSort_perm ..).map _).nodup_iff]
  refine List.pairwise_map.mpr (List.pairwise_filterMap.mpr
    ((List.pairwise_map.mp wf.once).imp_of_mem ?_))
  intro f g hf hg apart file kept file' kept' same
  obtain ⟨ns, below, good, relative⟩ := placed hf kept
  obtain ⟨ns', below', good', relative'⟩ := placed hg kept'
  rw [relative, relative'] at same
  exact apart (by rw [below, below', intercalate_injective good good' same])

/-! ### Counts and kept files -/

/-- The counts of a scan do not depend on the order of the files, nor does what it keeps. -/
theorem classify_perm (settings : Settings) {files files' : List ScannedFile}
    (order : files'.Perm files) :
    let r := classify settings files
    let r' := classify settings files'
    r'.files.Perm r.files ∧ r'.ignored = r.ignored ∧ r'.generated = r.generated ∧
      r'.tooBig = r.tooBig := by
  have judged (v : Verdict) := (((order.map fun f =>
    (f, verdict settings.filters.patterns settings.limits f)).filter (·.2 == v)).map (·.1))
  refine ⟨?_, (judged .ignored).length_eq, (judged .generated).length_eq,
    (judged .tooBig).length_eq⟩
  exact (List.mergeSort_perm ..).trans ((judged .kept).trans (List.mergeSort_perm ..).symm)

theorem sourceFiles_perm (root : String) (l : Location) {t t' : FileTree} (h : t.Reordered t') :
    (sourceFiles root (t'.filesBelow root l)).Perm (sourceFiles root (t.filesBelow root l)) :=
  ((h.files.filterMap _).filter _).map _

theorem keptFiles_eq (t : FileTree) (settings : Settings) (root : String) (l : Location) :
    keptFiles t settings root l =
      sortByKey ScannedFile.relative (t.files.filterMap (keeps settings root l)) := rfl

/-- A list without repetitions that reads the same from both ends has at most one element. -/
theorem length_le_one_of_reverse_eq {α : Type} {l : List α} (once : l.Nodup)
    (same : l.reverse = l) : l.length ≤ 1 := by
  cases l with
  | nil => exact Nat.zero_le 1
  | cons a l =>
    cases l with
    | nil => exact Nat.le_refl 1
    | cons b l =>
      have ends : (a :: b :: l).getLast? = some a := by
        rw [← List.head?_reverse, same]
        rfl
      have last : a ∈ b :: l := List.mem_of_getLast? ends
      exact absurd last (List.nodup_cons.mp once).1

/-- If the kept files come out alike for both directions, their relative paths are distinct. -/
theorem nodup_of_backwards {t : FileTree} (wf : t.WellFormed) {settings : Settings} {root : String}
    {l : Location} (same : keptFiles t.backwards settings root l = keptFiles t settings root l) :
    ((keptFiles t settings root l).map (·.relative)).Nodup := by
  rw [keptFiles_eq, ((sortByKey_perm ScannedFile.relative _).map _).nodup_iff,
    List.nodup_iff_count_le_one]
  intro k
  rw [keptFiles_eq, keptFiles_eq] at same
  have single := congrArg (List.filter fun f : ScannedFile => f.relative = k) same
  rw [filter_sortByKey, filter_sortByKey, FileTree.backwards, List.filterMap_reverse,
    List.filter_reverse] at single
  have short := length_le_one_of_reverse_eq ((nodup_keeps wf settings root l).filter _) single
  rw [List.count, List.countP_map, List.countP_eq_length_filter]
  simpa [Function.comp_def, beq_eq_decide] using short

/-! ### What follows from a scan -/

/-- The scan of the project at `root`, and what the texts of the files it keeps are generated to. -/
def scanAndGenerate (t : FileTree) (settings : Settings) (root : String)
    (recover : Recovery := .nothing) :
    Except ScanError (ScanResult × Except ParameterError Emission) :=
  (scan t settings root).map fun r => (r, generateSources (readSources t r.files) recover)

theorem readSources_reordered {t t' : FileTree} (h : t.Reordered t')
    (once : (t.files.map (·.1)).Nodup) (files : List ScannedFile) :
    readSources t' files = readSources t files := by
  unfold readSources
  simp only [h.readText? once]

/-- What changes with the order is at most the order of the kept files. -/
theorem scan_perm {t t' : FileTree} (h : t.Reordered t') {settings : Settings} {root : String}
    {r : ScanResult} (scanned : scan t settings root = .ok r) :
    ∃ r', scan t' settings root = .ok r' ∧ r'.files.Perm r.files ∧ r'.ignored = r.ignored ∧
      r'.generated = r.generated ∧ r'.tooBig = r.tooBig := by
  unfold scan at scanned
  cases found : t.find root with
  | error e =>
    rw [found] at scanned
    cases scanned
  | ok l =>
    rw [found] at scanned
    cases scanned
    refine ⟨_, ?_, classify_perm settings (sourceFiles_perm root l h)⟩
    rw [scan, (h.find_iff root l).mpr found]

/-- Files with different relative paths are listed alike, whatever order they are met in. -/
theorem scan_of_nodup {t t' : FileTree} (h : t.Reordered t') {settings : Settings} {root : String}
    {r : ScanResult} (scanned : scan t settings root = .ok r)
    (distinct : (r.files.map (·.relative)).Nodup) : scan t' settings root = .ok r := by
  obtain ⟨r', scanned', order, ignored, generated, tooBig⟩ := scan_perm h scanned
  have sorted {t : FileTree} {r : ScanResult} (scanned : scan t settings root = .ok r) :
      r.files.Pairwise fun f g => f.relative ≤ g.relative := by
    unfold scan at scanned
    split at scanned
    · cases scanned
    · cases scanned
      exact pairwise_sortByKey ScannedFile.relative _
  have files : r.files = r'.files :=
    eq_of_perm_of_pairwise ScannedFile.relative order.symm (sorted scanned) (sorted scanned') distinct
  have same : r' = r := by
    cases r'
    cases r
    simp only [ScanResult.mk.injEq]
    exact ⟨files.symm, ignored, generated, tooBig⟩
  rw [scanned', same]

theorem scan_error_reordered {t t' : FileTree} (h : t.Reordered t') {settings : Settings}
    {root : String} {e : ScanError} (failed : scan t settings root = .error e) :
    scan t' settings root = .error e := by
  unfold scan at failed ⊢
  cases found' : t'.find root with
  | ok l =>
    rw [(h.find_iff root l).mp found'] at failed
    cases failed
  | error _ =>
    cases found : t.find root with
    | ok l =>
      rw [found] at failed
      cases failed
    | error _ =>
      rw [found] at failed
      exact failed

/-- Files with different relative paths lead to the same result in every order. -/
theorem scanAndGenerate_of_nodup {t t' : FileTree} (h : t.Reordered t')
    (once : (t.files.map (·.1)).Nodup) {settings : Settings} {root : String} {recover : Recovery}
    (distinct : ∀ r, scan t settings root = .ok r → (r.files.map (·.relative)).Nodup) :
    scanAndGenerate t' settings root recover = scanAndGenerate t settings root recover := by
  unfold scanAndGenerate
  cases scanned : scan t settings root with
  | error e =>
    rw [scan_error_reordered h scanned]
    rfl
  | ok r =>
    rw [scan_of_nodup h scanned (distinct r scanned)]
    simp only [Except.map, readSources_reordered h once]

/-- **When the order of a disk shows.** Met in another order, the files of a project are counted alike
and the same ones are kept. The scan and what is generated from it are the same for every order
exactly when no two kept files have the same relative path. -/
theorem scanAndGenerate_reordered {t : FileTree} (wf : t.WellFormed) (settings : Settings)
    (root : String) (recover : Recovery) :
    (∀ t' r, t.Reordered t' → scan t settings root = .ok r →
      ∃ r', scan t' settings root = .ok r' ∧ r'.files.Perm r.files ∧ r'.ignored = r.ignored ∧
        r'.generated = r.generated ∧ r'.tooBig = r.tooBig) ∧
    ((∀ t', t.Reordered t' →
        scanAndGenerate t' settings root recover = scanAndGenerate t settings root recover) ↔
      ∀ r, scan t settings root = .ok r → (r.files.map (·.relative)).Nodup) := by
  refine ⟨fun t' r h scanned => scan_perm h scanned, ?_, ?_⟩
  · intro same r scanned
    obtain ⟨l, found⟩ : ∃ l, t.find root = .ok l := by
      unfold scan at scanned
      split at scanned
      · cases scanned
      · exact ⟨_, by assumption⟩
    -- The files met from the last to the first are one of the orders.
    have both := same t.backwards t.reordered_backwards
    obtain ⟨r', scanned', files'⟩ :=
      scan_of_find ((t.reordered_backwards.find_iff root l).mpr found) settings
    rw [scanAndGenerate, scanAndGenerate, scanned, scanned'] at both
    have equal : r' = r := congrArg Prod.fst (Except.ok.inj both)
    have files := files_of_scan found scanned
    rw [files]
    exact nodup_of_backwards wf (by rw [← files', ← files, equal])
  · exact fun distinct t' h => scanAndGenerate_of_nodup h wf.once distinct

/-! ### Two files -/

def textOne : String := "class A { static int OneExtension(int x); }"

def textTwo : String := "class B { static int TwoExtension(int x); }"

/-- A file in a folder, and one beside the folder with a name of its own. -/
def siblings : FileTree :=
  { files := [(["p", "a", "b.cs"], .bytes (Text.utf8 textOne)), (["p", "a_b.cs"], .bytes (Text.utf8 textTwo))]
    folders := [["p"], ["p", "a"]] }

theorem wellFormed_siblings : siblings.WellFormed :=
  ⟨by decide +kernel, by decide +kernel, by decide +kernel, by decide +kernel⟩

theorem scanAndGenerate_reordered_siblings :
    siblings.WellFormed ∧ siblings.find "/p" = .ok ["p"] ∧
      ∀ t', siblings.Reordered t' → scanAndGenerate t' {} "/p" = scanAndGenerate siblings {} "/p" := by
  have found : siblings.find "/p" = .ok ["p"] := rfl
  refine ⟨wellFormed_siblings, found, ?_⟩
  refine (scanAndGenerate_reordered wellFormed_siblings {} "/p" .nothing).2.mpr fun r scanned => ?_
  rw [files_of_scan found scanned]
  exact nodup_relative wellFormed_siblings (by decide +kernel) (by decide +kernel) {}

/-- A file in a folder, and one beside the folder whose name has a backslash for the slash. -/
def twins : FileTree :=
  { files := [(["p", "a", "b.cs"], .bytes (Text.utf8 textOne)), (["p", "a\\b.cs"], .bytes (Text.utf8 textTwo))]
    folders := [["p"], ["p", "a"]] }

theorem wellFormed_twins : twins.WellFormed :=
  ⟨by decide +kernel, by decide +kernel, by decide +kernel, by decide +kernel⟩

/-- Files that are met in the order of their relative paths are kept in that order. -/
theorem scan_of_keeps {t : FileTree} {root : String} {l : Location} (found : t.find root = .ok l)
    {settings : Settings} {files : List ScannedFile}
    (kept : t.files.filterMap (keeps settings root l) = files)
    (sorted : files.Pairwise fun f g => decide (f.relative ≤ g.relative) = true) :
    ∃ r, scan t settings root = .ok r ∧ r.files = files := by
  obtain ⟨r, scanned, listed⟩ := scan_of_find found settings
  refine ⟨r, scanned, ?_⟩
  rw [listed, keptFiles, kept]
  exact List.mergeSort_of_pairwise sorted

/-- The two files come out in the order in which they are met, and so do their forwarders. -/
theorem scanAndGenerate_twins :
    twins.WellFormed ∧ twins.Reordered twins.backwards ∧
      ∃ r r' e e', scanAndGenerate twins {} "/p" = .ok (r, .ok e) ∧
        scanAndGenerate twins.backwards {} "/p" = .ok (r', .ok e') ∧
        r.files.map (·.path) = ["/p/a/b.cs", "/p/a\\b.cs"] ∧
        r'.files.map (·.path) = ["/p/a\\b.cs", "/p/a/b.cs"] ∧ e.unit.text ≠ e'.unit.text := by
  let inside : ScannedFile := ⟨"/p/a/b.cs", "a/b.cs", 43⟩
  let beside : ScannedFile := ⟨"/p/a\\b.cs", "a/b.cs", 43⟩
  obtain ⟨r, scanned, files⟩ := @scan_of_keeps twins "/p" ["p"] rfl {} [inside, beside]
    (by decide +kernel) (by decide +kernel)
  obtain ⟨r', scanned', files'⟩ := @scan_of_keeps twins.backwards "/p" ["p"] rfl {} [beside, inside]
    (by decide +kernel) (by decide +kernel)
  have sources : readSources twins r.files = [("a/b.cs", textOne), ("a/b.cs", textTwo)] := by
    rw [files]
    decide +kernel
  have sources' : readSources twins.backwards r'.files =
      [("a/b.cs", textTwo), ("a/b.cs", textOne)] := by
    rw [files']
    decide +kernel
  obtain ⟨e, generated, unit⟩ := @exists_emission [("a/b.cs", textOne), ("a/b.cs", textTwo)]
    (by decide +kernel)
    ⟨"// <auto-generated/>\n\n" ++
      "static class AExtensions\n\x7b\n    static int One(this int x) => A.OneExtension(x);\n\x7d\n\n" ++
      "static class BExtensions\n\x7b\n    static int Two(this int x) => B.TwoExtension(x);\n\x7d\n",
      2, 2⟩ (by decide +kernel)
  obtain ⟨e', generated', unit'⟩ := @exists_emission [("a/b.cs", textTwo), ("a/b.cs", textOne)]
    (by decide +kernel)
    ⟨"// <auto-generated/>\n\n" ++
      "static class BExtensions\n\x7b\n    static int Two(this int x) => B.TwoExtension(x);\n\x7d\n\n" ++
      "static class AExtensions\n\x7b\n    static int One(this int x) => A.OneExtension(x);\n\x7d\n",
      2, 2⟩ (by decide +kernel)
  refine ⟨wellFormed_twins, twins.reordered_backwards, r, r', e, e', ?_, ?_, ?_, ?_, ?_⟩
  · rw [scanAndGenerate, scanned, Except.map, sources, generated]
  · rw [scanAndGenerate, scanned', Except.map, sources', generated']
  · rw [files]
    rfl
  · rw [files']
    rfl
  · rw [unit, unit']
    decide +kernel

end Forwarding
