import Forwarding.Proofs.Scan.Order
import Forwarding.Proofs.Text.ByteOrder
import Mathlib.Data.Set.Card

/-!
A scan accounts for every source file of a project once. Which files a project has, and what the
settings make of each, is said here without the scan: by the folders that a file lies in, by its name,
and by the first of the reasons to leave it out that applies. The scan counts the files with each
reason, lists the others by paths that lead back to them, and passes nothing over.
-/

namespace Forwarding

/-! ### What a scan is to tell -/

namespace FileTree

/-- A tree as a disk has it, where nothing is a file and a folder at once. -/
structure OnDisk (t : FileTree) : Prop extends WellFormed t where
  apart : ∀ l, t.isFile l = true → t.isFolder l = false

/-- The source files of the project at `l`, which may be a folder or a single file. -/
structure InProject (t : FileTree) (l m : Location) : Prop where
  file : t.isFile m = true
  below : l <+: m
  source : ∃ folder name, m = folder ++ [name] ∧ Path.IsSourceName name.toList
  /-- No folder below the project's own that the file lies in is one that is never entered. -/
  entered : ∀ folder name, l <+: folder → folder ++ [name] <+: m → folder ++ [name] ≠ m →
    name ∉ skippedFolders

end FileTree

/-- One of the patterns that are neither blank nor malformed matches the path. -/
def Glob.Covers (globs : List String) (path : String) : Prop :=
  ∃ text ∈ globs, (∃ c ∈ text.toList, Text.isBlank c = false) ∧
    ∃ p, Pattern.ofString text = .ok p ∧ p.matchesBytes (Text.utf8 path) = true

/-- The file is taken for generated, if such files are to be left out at all. -/
def Filters.TakesForGenerated (f : Filters) (path : String) : Prop :=
  f.excludeGenerated = true ∧ Glob.Covers f.generatedGlobs path

/-- What the settings make of a file with this relative path and size. -/
def Settings.Deems (settings : Settings) (path : String) (size : Nat) : Verdict → Prop
  | .ignored => Glob.Covers settings.filters.ignoreGlobs path
  | .generated => ¬Glob.Covers settings.filters.ignoreGlobs path ∧
      settings.filters.TakesForGenerated path
  | .tooBig => ¬Glob.Covers settings.filters.ignoreGlobs path ∧
      ¬settings.filters.TakesForGenerated path ∧ settings.limits.maxFileBytes < size
  | .kept => ¬Glob.Covers settings.filters.ignoreGlobs path ∧
      ¬settings.filters.TakesForGenerated path ∧ size ≤ settings.limits.maxFileBytes

/-- The names that lead from `l` down to `m`, as a path with forward slashes. -/
def relativePath (l m : Location) : String :=
  Path.withSlashes ("/".intercalate (m.drop l.length))

/-- The file at `m` is a source file of the project at `l`, and this is what becomes of it. -/
def FileTree.Judged (t : FileTree) (settings : Settings) (l m : Location) (v : Verdict) : Prop :=
  t.InProject l m ∧ ∃ content, t.file? m = some content ∧
    settings.Deems (relativePath l m) content.size v

/-- The entry tells of the file at `m`: its path leads there, and it has the file's relative path and
size. -/
structure FileTree.Tells (t : FileTree) (l m : Location) (f : ScannedFile) : Prop where
  path : t.find f.path = .ok m
  relative : f.relative = relativePath l m
  size : ∃ content, t.file? m = some content ∧ f.size = content.size

/-- What a scan of the project at `l` is to tell. -/
structure FileTree.Accounts (t : FileTree) (settings : Settings) (l : Location) (r : ScanResult) :
    Prop where
  one : ∀ m, t.InProject l m → ∃! v, t.Judged settings l m v
  ignored : {m | t.Judged settings l m .ignored}.encard = r.ignored
  generated : {m | t.Judged settings l m .generated}.encard = r.generated
  tooBig : {m | t.Judged settings l m .tooBig}.encard = r.tooBig
  total : {m | t.InProject l m}.encard =
    (r.ignored + r.generated + r.tooBig + r.files.length : Nat)
  listed : ∀ f ∈ r.files, ∃ m, t.Judged settings l m .kept ∧ t.Tells l m f
  complete : ∀ m, t.Judged settings l m .kept → ∃ f ∈ r.files, t.Tells l m f
  once : (r.files.map fun f => t.find f.path).Nodup
  sorted : r.files.Pairwise fun f g =>
    ¬Text.BytesBefore (Text.utf8 g.relative) (Text.utf8 f.relative)

/-! ### Verdicts -/

theorem Glob.anyMatches_patterns? (globs : List String) (path : String) :
    anyMatches (patterns? globs) path = true ↔ Covers globs path := by
  unfold patterns? Covers
  cases globs with
  | nil => simp [anyMatches]
  | cons glob globs =>
    rw [if_neg (by simp), anyMatches, Option.any_some, List.any_eq_true]
    constructor
    · rintro ⟨p, listed, matched⟩
      obtain ⟨text, kept, made⟩ := List.mem_filterMap.mp listed
      obtain ⟨given, visible⟩ := List.mem_filter.mp kept
      refine ⟨text, given, by simpa using visible, p, ?_, matched⟩
      cases read : Pattern.ofString text with
      | error e => rw [read] at made; cases made
      | ok q => rw [read] at made; cases made; rfl
    · rintro ⟨text, given, visible, p, read, matched⟩
      refine ⟨p, List.mem_filterMap.mpr ⟨text, List.mem_filter.mpr ⟨given, ?_⟩, ?_⟩, matched⟩
      · simpa using visible
      · rw [read]; rfl

theorem Filters.anyMatches_generated (f : Filters) (path : String) :
    Glob.anyMatches f.patterns.generated path = true ↔ f.TakesForGenerated path := by
  unfold Filters.patterns TakesForGenerated
  cases f.excludeGenerated with
  | false => simp [Glob.anyMatches]
  | true =>
    rw [← Glob.anyMatches_patterns?]
    simp

/-- **The first reason that applies is the verdict.** -/
theorem verdict_eq_iff (settings : Settings) (f : ScannedFile) (v : Verdict) :
    verdict settings.filters.patterns settings.limits f = v ↔
      settings.Deems f.relative f.size v := by
  have ignore : Glob.anyMatches settings.filters.patterns.ignore f.relative = true ↔
      Glob.Covers settings.filters.ignoreGlobs f.relative := Glob.anyMatches_patterns? _ _
  have generated := settings.filters.anyMatches_generated f.relative
  unfold verdict
  by_cases first : Glob.Covers settings.filters.ignoreGlobs f.relative
  · rw [if_pos (ignore.mpr first)]
    cases v <;> simp [Settings.Deems, first]
  rw [if_neg (mt ignore.mp first)]
  by_cases second : settings.filters.TakesForGenerated f.relative
  · rw [if_pos (generated.mpr second)]
    cases v <;> simp [Settings.Deems, first, second]
  rw [if_neg (mt generated.mp second)]
  by_cases third : settings.limits.maxFileBytes < f.size
  · rw [if_pos third]
    cases v <;> simp [Settings.Deems, first, second, third]
  · rw [if_neg third]
    cases v <;> simp [Settings.Deems, first, second, third, Nat.le_of_not_lt third]

/-! ### Paths of a scan -/

/-- The folders that are never entered show in the names below the project. -/
theorem entered_iff {l names : Location} :
    (∀ folder name, l <+: folder → folder ++ [name] <+: l ++ names →
      folder ++ [name] ≠ l ++ names → name ∉ skippedFolders) ↔
    ∀ name ∈ names.dropLast, name ∉ skippedFolders := by
  constructor
  · intro entered name inner
    cases names using List.reverseRecOn with
    | nil => cases inner
    | append_singleton init last _ =>
      rw [List.dropLast_concat] at inner
      obtain ⟨before, after, rfl⟩ := List.append_of_mem inner
      refine entered (l ++ before) name (List.prefix_append _ _) ⟨after ++ [last], by simp⟩ ?_
      simp
  · rintro entered folder name ⟨before, rfl⟩ ⟨after, split⟩ other
    rw [List.append_assoc, List.append_assoc, List.append_cancel_left_eq] at split
    apply entered
    cases after using List.reverseRecOn with
    | nil =>
      rw [List.append_nil] at split
      exact absurd (by rw [List.append_assoc, split]) other
    | append_singleton after last _ =>
      rw [← split, ← List.append_assoc, ← List.append_assoc, List.dropLast_concat]
      simp

namespace FileTree

variable {t : FileTree} {root : String} {l m : Location} {content : Content}

/-- A path that leads to a file ends with the file's name. -/
theorem OnDisk.getLast?_components (disk : t.OnDisk) (found : t.find root = .ok l)
    (file : t.isFile l = true) :
    ∃ folder name, l = folder ++ [name] ∧
      (Path.components root).getLast? = some (.name name.toList) := by
  obtain ⟨filled, _, walked⟩ := (t.locate_eq_ok ..).mp ((t.find_eq_ok ..).mp found).1
  have other : t.isFolder l ≠ true := by
    rw [disk.apart l file]
    exact Bool.false_ne_true
  obtain ⟨steps, c, split⟩ : ∃ steps c, Path.components root = steps ++ [c] :=
    ⟨_, _, (List.dropLast_concat_getLast (Path.components_ne_nil filled)).symm⟩
  rw [split] at walked
  obtain ⟨k, _, last⟩ := (t.walk_append ..).mp walked
  obtain ⟨l', step, rest⟩ := (t.walk_cons ..).mp last
  cases rest
  have step := (t.step_eq_ok ..).mp step
  rw [split, List.getLast?_concat]
  cases c with
  | root => exact absurd (by rw [step]; rfl) other
  | current => exact absurd (by rw [step.2]; exact step.1) other
  | parent => exact absurd (by rw [step.2]; exact disk.folder_above step.1) other
  | name text => exact ⟨k, String.ofList text, step.2.2, by rw [String.toList_ofList]⟩

/-- Names behind a path lead further down from where the path leads. -/
theorem WellFormed.find_join (wf : t.WellFormed) (located : t.locate root = .ok l)
    {names : List String} (nonempty : names ≠ []) (file : (l ++ names, content) ∈ t.files) :
    t.find (Path.join root ("/".intercalate names)) = .ok (l ++ names) := by
  have entry : l ++ names ∈ t.entries := List.mem_append_right _ (List.mem_map.mpr ⟨_, file, rfl⟩)
  have good : ∀ name ∈ names, isEntryName name = true := fun name hn =>
    wf.names _ entry name (List.mem_append_right _ hn)
  have plain := isName_of_names good
  obtain ⟨filled, clean, walked⟩ := (t.locate_eq_ok root l).mp located
  have relative := Path.isAbsolute_intercalate plain nonempty
  obtain ⟨init, joined, _⟩ := Path.toList_join_relative filled relative
  have clear : Char.ofNat 0 ∉ ("/".intercalate names).toList := by
    have absolute := not_mem_absolute good
    rw [Path.toList_absolute, ← Path.toList_intercalate] at absolute
    exact fun inside => absolute (List.mem_cons_of_mem _ inside)
  apply (t.find_eq_ok ..).mpr
  refine ⟨(t.locate_eq_ok ..).mpr ⟨?_, ?_, ?_⟩, .inr ⟨(t.isFile_iff _).mpr ⟨content, file⟩, ?_⟩⟩
  · intro empty
    rw [empty] at joined
    simp at joined
  · intro zero
    rcases Path.mem_join_relative filled relative zero with before | slash | behind
    · exact clean before
    · exact absurd slash (by decide)
    · exact clear behind
  · rw [Path.components_join_names plain filled nonempty]
    exact (t.walk_append ..).mpr ⟨l, walked, wf.walk_down names l good (wf.around _ entry)⟩
  · obtain ⟨above, last, rfl⟩ : ∃ above last, names = above ++ [last] :=
      ⟨_, _, (List.dropLast_concat_getLast nonempty).symm⟩
    rw [endsInFolder, joined, Path.pieces_append, Path.pieces_intercalate plain nonempty,
      List.map_append, List.map_singleton, ← List.append_assoc, List.getLast?_concat]
    exact Path.isIdle_of_isName (plain last (by simp))

section

variable (disk : t.OnDisk) (found : t.find root = .ok l) {names : List String}
  (file : (l ++ names, content) ∈ t.files)

include disk found file

theorem OnDisk.find_pathBelow : t.find (pathBelow root names) = .ok (l ++ names) := by
  by_cases empty : names = []
  · rw [empty, List.append_nil]
    exact found
  · rw [pathBelow_of_ne_nil empty]
    exact disk.find_join ((t.find_eq_ok ..).mp found).1 empty file

theorem OnDisk.relative_pathBelow :
    Path.relative root (pathBelow root names) = relativePath l (l ++ names) := by
  have filled := ((t.locate_eq_ok ..).mp ((t.find_eq_ok ..).mp found).1).1
  rw [relativePath, List.drop_left]
  by_cases empty : names = []
  · rw [empty]
    exact Path.relative_self filled
  · have entry := disk.names (l ++ names) (List.mem_append_right _ (List.mem_map.mpr ⟨_, file, rfl⟩))
    rw [pathBelow_of_ne_nil empty]
    exact Path.relative_join filled
      (fun name hn => isName_of_names entry name (List.mem_append_right _ hn)) empty

theorem OnDisk.isSource_pathBelow :
    Path.isSource (pathBelow root names) = true ↔
      ∃ folder name, l ++ names = folder ++ [name] ∧ Path.IsSourceName name.toList := by
  have filled := ((t.locate_eq_ok ..).mp ((t.find_eq_ok ..).mp found).1).1
  obtain ⟨folder, name, split, last⟩ : ∃ folder name, l ++ names = folder ++ [name] ∧
      (Path.components (pathBelow root names)).getLast? = some (.name name.toList) := by
    by_cases empty : names = []
    · rw [empty, List.append_nil] at file ⊢
      exact disk.getLast?_components found ((t.isFile_iff l).mpr ⟨content, file⟩)
    · have entry := disk.names (l ++ names)
        (List.mem_append_right _ (List.mem_map.mpr ⟨_, file, rfl⟩))
      obtain ⟨above, name, rfl⟩ : ∃ above name, names = above ++ [name] :=
        ⟨_, _, (List.dropLast_concat_getLast empty).symm⟩
      refine ⟨l ++ above, name, by rw [List.append_assoc], ?_⟩
      rw [pathBelow_of_ne_nil empty, Path.components_join_names
        (fun name hn => isName_of_names entry name (List.mem_append_right _ hn)) filled empty,
        List.map_append, List.map_singleton, ← List.append_assoc, List.getLast?_concat]
  rw [Path.isSource_iff last]
  constructor
  · exact fun source => ⟨folder, name, split, source⟩
  · rintro ⟨folder', name', split', source⟩
    rw [split] at split'
    rwa [List.singleton_inj.mp (List.append_inj' split' rfl).2]

end

/-! ### The source files with their locations -/

/-- The location of a file and what the scan makes of it, if the scan meets it as a source file. -/
def sourceAt (root : String) (l : Location) (f : Location × Content) :
    Option (Location × ScannedFile) :=
  ((meets root l f).filter fun e => Path.isSource e.1).map fun e =>
    (f.1, { path := e.1, relative := Path.relative root e.1, size := e.2 })

def sources (t : FileTree) (root : String) (l : Location) : List (Location × ScannedFile) :=
  t.files.filterMap (sourceAt root l)

theorem map_snd_sources (t : FileTree) (root : String) (l : Location) :
    (t.sources root l).map (·.2) = sourceFiles root (t.filesBelow root l) := by
  rw [sources, sourceFiles, filesBelow_eq, List.filter_filterMap, List.map_filterMap,
    List.map_filterMap]
  simp only [sourceAt, Option.map_map]
  rfl

theorem sourceAt_eq_some {f : Location × Content} {e : Location × ScannedFile} :
    sourceAt root l f = some e ↔
      e.1 = f.1 ∧ meets root l f = some (e.2.path, e.2.size) ∧ Path.isSource e.2.path = true ∧
        e.2.relative = Path.relative root e.2.path := by
  obtain ⟨m, file⟩ := e
  rw [sourceAt, Option.map_eq_some_iff]
  constructor
  · rintro ⟨⟨path, size⟩, met, same⟩
    cases same
    obtain ⟨met, source⟩ := Option.filter_eq_some_iff.mp met
    exact ⟨rfl, met, source, rfl⟩
  · rintro ⟨rfl, met, source, relative⟩
    refine ⟨(file.path, file.size), Option.filter_eq_some_iff.mpr ⟨met, source⟩, ?_⟩
    dsimp only at relative ⊢
    rw [← relative]

theorem WellFormed.nodup_sources (wf : t.WellFormed) (root : String) (l : Location) :
    ((t.sources root l).map (·.1)).Nodup := by
  refine List.pairwise_map.mpr (List.pairwise_filterMap.mpr ((List.pairwise_map.mp wf.once).imp ?_))
  intro f g apart e he e' he'
  rw [(sourceAt_eq_some.mp he).1, (sourceAt_eq_some.mp he').1]
  exact apart

section

variable (disk : t.OnDisk) (found : t.find root = .ok l)

include disk found

/-- What the scan makes of a file tells of that file. -/
theorem OnDisk.tells_of_mem_sources {f : ScannedFile} (h : (m, f) ∈ t.sources root l) :
    t.InProject l m ∧ t.Tells l m f := by
  obtain ⟨⟨m', content⟩, file, made⟩ := List.mem_filterMap.mp h
  obtain ⟨rfl, met, source, relative⟩ := sourceAt_eq_some.mp made
  obtain ⟨names, rfl, entered, path, size⟩ := meets_iff.mp met
  dsimp only at path size relative source file
  rw [path] at source relative
  constructor
  · exact ⟨(t.isFile_iff _).mpr ⟨content, file⟩, List.prefix_append _ _,
      (disk.isSource_pathBelow found file).mp source, entered_iff.mpr entered⟩
  · refine ⟨?_, ?_, content, Table.lookup_of_mem disk.once file, size⟩
    · rw [path]
      exact disk.find_pathBelow found file
    · rw [relative]
      exact disk.relative_pathBelow found file

/-- The scan meets every source file of the project. -/
theorem OnDisk.exists_mem_sources (h : t.InProject l m) : ∃ f, (m, f) ∈ t.sources root l := by
  obtain ⟨names, rfl⟩ := h.below
  obtain ⟨content, file⟩ := (t.isFile_iff _).mp h.file
  let path := pathBelow root names
  refine ⟨⟨path, Path.relative root path, content.size⟩, List.mem_filterMap.mpr ⟨_, file, ?_⟩⟩
  apply sourceAt_eq_some.mpr
  refine ⟨rfl, meets_iff.mpr ⟨names, rfl, entered_iff.mp h.entered, rfl, rfl⟩, ?_, rfl⟩
  exact (disk.isSource_pathBelow found file).mpr h.source

end

theorem judged_iff {f : ScannedFile} (stored : t.file? m = some content)
    (relative : f.relative = relativePath l m) (size : f.size = content.size) (settings : Settings)
    (v : Verdict) :
    t.Judged settings l m v ↔
      t.InProject l m ∧ verdict settings.filters.patterns settings.limits f = v := by
  rw [verdict_eq_iff, relative, size, Judged, stored]
  simp

/-- One thing becomes of each file. -/
theorem InProject.existsUnique_judged (h : t.InProject l m) (settings : Settings) :
    ∃! v, t.Judged settings l m v := by
  obtain ⟨content, stored⟩ := Option.isSome_iff_exists.mp h.file
  let f : ScannedFile := { path := "", relative := relativePath l m, size := content.size }
  have judged := @judged_iff t l m content f stored rfl rfl settings
  exact ⟨_, (judged _).mpr ⟨h, rfl⟩, fun v hv => ((judged v).mp hv).2.symm⟩

theorem Tells.judged_iff {f : ScannedFile} (tells : t.Tells l m f) (settings : Settings)
    (v : Verdict) :
    t.Judged settings l m v ↔
      t.InProject l m ∧ verdict settings.filters.patterns settings.limits f = v := by
  obtain ⟨content, stored, size⟩ := tells.size
  exact FileTree.judged_iff stored tells.relative size settings v

end FileTree

/-! ### Counting -/

theorem encard_of_nodup {α : Type} {s : Set α} {as : List α} (once : as.Nodup)
    (same : ∀ a, a ∈ s ↔ a ∈ as) : s.encard = as.length := by
  classical
  have coe : s = (as.toFinset : Set α) := by
    ext a
    simp [same a]
  rw [coe, Set.encard_coe_eq_coe_finsetCard, List.toFinset_card_of_nodup once]

/-- The files with one verdict. -/
def having (settings : Settings) (v : Verdict) (files : List ScannedFile) : List ScannedFile :=
  files.filter fun f => verdict settings.filters.patterns settings.limits f == v

theorem classify_eq (settings : Settings) (files : List ScannedFile) :
    classify settings files =
      { files := sortByKey ScannedFile.relative (having settings .kept files)
        ignored := (having settings .ignored files).length
        generated := (having settings .generated files).length
        tooBig := (having settings .tooBig files).length } := by
  simp [classify, having, sortByKey, List.filter_map, Function.comp_def]

/-- Every file has one of the verdicts. -/
theorem length_having (settings : Settings) (files : List ScannedFile) :
    (having settings .ignored files).length + (having settings .generated files).length +
      (having settings .tooBig files).length + (having settings .kept files).length =
        files.length := by
  induction files with
  | nil => rfl
  | cons f files ih =>
    simp only [having] at ih ⊢
    cases judged : verdict settings.filters.patterns settings.limits f <;>
      simp [judged] <;> omega

section

variable {t : FileTree} {root : String} {l : Location} (disk : t.OnDisk)
  (found : t.find root = .ok l)

include disk found

/-- Files are counted by what the scan makes of them. -/
theorem encard_eq_length_filter {s : Set Location} {q : ScannedFile → Bool}
    (within : ∀ m ∈ s, t.InProject l m)
    (agree : ∀ m f, (m, f) ∈ t.sources root l → (m ∈ s ↔ q f = true)) :
    s.encard = ((sourceFiles root (t.filesBelow root l)).filter q).length := by
  let chosen := (t.sources root l).filter fun e => q e.2
  have once : (chosen.map (·.1)).Nodup :=
    (disk.nodup_sources root l).sublist (List.filter_sublist.map _)
  have counted : (sourceFiles root (t.filesBelow root l)).filter q = chosen.map (·.2) := by
    rw [← t.map_snd_sources, List.filter_map]
    rfl
  rw [counted, List.length_map, ← List.length_map (·.1)]
  apply encard_of_nodup once
  intro m
  constructor
  · intro hm
    obtain ⟨f, listed⟩ := disk.exists_mem_sources found (within m hm)
    have picked : (m, f) ∈ chosen := List.mem_filter.mpr ⟨listed, (agree m f listed).mp hm⟩
    exact List.mem_map.mpr ⟨(m, f), picked, rfl⟩
  · intro hm
    obtain ⟨⟨m', f⟩, picked, rfl⟩ := List.mem_map.mp hm
    obtain ⟨listed, good⟩ := List.mem_filter.mp picked
    exact (agree m' f listed).mpr good

theorem encard_judged (settings : Settings) (v : Verdict) :
    {m | t.Judged settings l m v}.encard =
      (having settings v (sourceFiles root (t.filesBelow root l))).length := by
  apply encard_eq_length_filter disk found
  · intro m judged
    exact judged.1
  · intro m f listed
    obtain ⟨inside, tells⟩ := disk.tells_of_mem_sources found listed
    rw [beq_iff_eq]
    exact (tells.judged_iff settings v).trans (and_iff_right inside)

theorem encard_inProject :
    {m | t.InProject l m}.encard = (sourceFiles root (t.filesBelow root l)).length := by
  have all : (sourceFiles root (t.filesBelow root l)).filter (fun _ => true) =
      sourceFiles root (t.filesBelow root l) := List.filter_true _
  rw [← all]
  apply encard_eq_length_filter disk found (fun m inside => inside)
  intro m f listed
  exact ⟨fun _ => rfl, fun _ => (disk.tells_of_mem_sources found listed).1⟩

theorem mem_having {settings : Settings} {v : Verdict} {f : ScannedFile} :
    f ∈ having settings v (sourceFiles root (t.filesBelow root l)) ↔
      ∃ m, t.Judged settings l m v ∧ (m, f) ∈ t.sources root l := by
  rw [having, List.mem_filter, beq_iff_eq, ← t.map_snd_sources, List.mem_map]
  constructor
  · rintro ⟨⟨⟨m, f⟩, listed, rfl⟩, judged⟩
    obtain ⟨inside, tells⟩ := disk.tells_of_mem_sources found listed
    exact ⟨m, (tells.judged_iff settings v).mpr ⟨inside, judged⟩, listed⟩
  · rintro ⟨m, judged, listed⟩
    have tells := (disk.tells_of_mem_sources found listed).2
    exact ⟨⟨(m, f), listed, rfl⟩, ((tells.judged_iff settings v).mp judged).2⟩

/-- The paths of the source files lead to different files. -/
theorem nodup_find : ((sourceFiles root (t.filesBelow root l)).map fun f => t.find f.path).Nodup := by
  have places : (t.sources root l).map (fun e => t.find e.2.path) =
      ((t.sources root l).map (·.1)).map Except.ok := by
    rw [List.map_map]
    apply List.map_congr_left
    intro e listed
    exact (disk.tells_of_mem_sources found listed).2.path
  rw [← t.map_snd_sources, List.map_map]
  show ((t.sources root l).map fun e => t.find e.2.path).Nodup
  rw [places]
  exact (disk.nodup_sources root l).map fun _ _ => Except.ok.inj

/-- **A scan accounts for every source file of a project once.** Each source file that lies in no
folder that is never entered is counted under the first reason to leave it out, or else it is listed
once, with its size and under a path that leads to it. Nothing else is counted or listed, so the
counts and the listed files add up to all these files. The list is in the order of the bytes of the
relative paths. -/
theorem scan_accounts (settings : Settings) :
    ∃ r, scan t settings root = .ok r ∧ t.Accounts settings l r := by
  refine ⟨classify settings (sourceFiles root (t.filesBelow root l)), by rw [scan, found], ?_⟩
  rw [classify_eq]
  have order := sortByKey_perm ScannedFile.relative
    (having settings .kept (sourceFiles root (t.filesBelow root l)))
  exact {
    one := fun m inside => inside.existsUnique_judged settings
    ignored := encard_judged disk found settings .ignored
    generated := encard_judged disk found settings .generated
    tooBig := encard_judged disk found settings .tooBig
    total := by
      rw [encard_inProject disk found, order.length_eq, length_having]
    listed := by
      intro f kept
      obtain ⟨m, judged, listed⟩ := (mem_having disk found).mp (order.mem_iff.mp kept)
      exact ⟨m, judged, (disk.tells_of_mem_sources found listed).2⟩
    complete := by
      intro m judged
      obtain ⟨f, listed⟩ := disk.exists_mem_sources found judged.1
      refine ⟨f, order.mem_iff.mpr ((mem_having disk found).mpr ⟨m, judged, listed⟩), ?_⟩
      exact (disk.tells_of_mem_sources found listed).2
    once := by
      apply (order.map _).nodup_iff.mpr
      exact (nodup_find disk found).sublist (List.filter_sublist.map _)
    sorted := by
      apply (pairwise_sortByKey ScannedFile.relative _).imp
      intro f g le
      exact (Text.le_iff_not_bytesBefore _ _).mp le }

end

/-! ### A project with a file of every kind -/

/-- The project's own folder has a name that is never entered below it. Besides a file for each
verdict there are one in such a folder, one with another ending and one that is all ending. -/
def mixedProject : FileTree :=
  { files := [
      (["w", "bin", "src", "B.CS"], .bytes (Text.utf8 "abc")),
      (["w", "bin", "A.cs"], .bytes (Text.utf8 "ab")),
      (["w", "bin", "src", "Big.cs"], .bytes (Text.utf8 "abcd")),
      (["w", "bin", "X.g.cs"], .bytes (Text.utf8 "abcd")),
      (["w", "bin", "old", "Z.g.cs"], .bytes []), (["w", "bin", "src", "obj", "Y.cs"], .bytes []),
      (["w", "bin", "notes.txt"], .bytes []), (["w", "bin", ".cs"], .bytes []),
      (["w", "C.cs"], .bytes [])]
    folders := [["w"], ["w", "bin"], ["w", "bin", "src"], ["w", "bin", "src", "obj"],
      ["w", "bin", "old"]]
    here := ["w"] }

/-- Of the patterns to ignore, one is blank and one malformed. -/
def narrowSettings : Settings :=
  { filters := { ignoreGlobs := ["  ", "[", "old/**"] }, limits := { maxFileBytes := 3 } }

theorem onDisk_mixedProject : mixedProject.OnDisk where
  toWellFormed := ⟨by decide +kernel, by decide +kernel, by decide +kernel, by decide +kernel⟩
  apart := by
    have apart : ∀ f ∈ mixedProject.files, mixedProject.isFolder f.1 = false := by decide +kernel
    intro l file
    obtain ⟨content, listed⟩ := (mixedProject.isFile_iff l).mp file
    exact apart (l, content) listed

theorem scan_accounts_mixedProject :
    mixedProject.OnDisk ∧ mixedProject.find "../w/./bin/" = .ok ["w", "bin"] ∧
      ∃ r, scan mixedProject narrowSettings "../w/./bin/" = .ok r ∧
        mixedProject.Accounts narrowSettings ["w", "bin"] r ∧
        r.ignored = 1 ∧ r.generated = 1 ∧ r.tooBig = 1 ∧
        r.files = [⟨"../w/./bin/A.cs", "A.cs", 2⟩, ⟨"../w/./bin/src/B.CS", "src/B.CS", 3⟩] := by
  have found : mixedProject.find "../w/./bin/" = .ok ["w", "bin"] := by decide +kernel
  obtain ⟨r, scanned, accounts⟩ := scan_accounts onDisk_mixedProject found narrowSettings
  have result : r = classify narrowSettings
      (sourceFiles "../w/./bin/" (mixedProject.filesBelow "../w/./bin/" ["w", "bin"])) := by
    rw [scan, found] at scanned
    exact (Except.ok.inj scanned).symm
  let a : ScannedFile := ⟨"../w/./bin/A.cs", "A.cs", 2⟩
  let b : ScannedFile := ⟨"../w/./bin/src/B.CS", "src/B.CS", 3⟩
  have kept : having narrowSettings .kept (sourceFiles "../w/./bin/"
      (mixedProject.filesBelow "../w/./bin/" ["w", "bin"])) = [b, a] := by decide +kernel
  have sorted : sortByKey ScannedFile.relative [b, a] = [a, b] :=
    eq_of_perm_of_pairwise _ ((sortByKey_perm _ _).trans (.swap a b []))
      (pairwise_sortByKey _ _) (by decide +kernel)
      ((sortByKey_perm ScannedFile.relative [b, a]).map _ |>.nodup_iff.mpr (by decide +kernel))
  refine ⟨onDisk_mixedProject, found, r, scanned, accounts, ?_⟩
  rw [result, classify_eq, kept, sorted]
  decide +kernel

end Forwarding
