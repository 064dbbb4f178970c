import Forwarding.Proofs.Path.Absolute
import Forwarding.Table
import Mathlib.Data.List.Induction

/-!
Following paths in a tree of files. A path that leads somewhere leads there also when folders and
files are added, it passes through names that an entry can have, and the absolute path of an entry
leads back to the entry.
-/

namespace Forwarding.FileTree

/-! ### Trees as a disk has them -/

/-- A name that a file or folder can have. -/
def isEntryName (name : String) : Bool :=
  Path.isName name && !name.toList.contains (Char.ofNat 0) &&
    decide ((Text.utf8 name).length ≤ maxNameBytes)

theorem isName_of_isEntryName {name : String} (h : isEntryName name = true) :
    Path.isName name = true := by
  simp only [isEntryName, Bool.and_eq_true] at h
  exact h.1.1

/-- The locations of all files and folders. -/
def entries (t : FileTree) : List Location :=
  t.folders ++ t.files.map (·.1)

/-- Every entry has a name and lies in a folder, no two files share a location, and relative paths
start from a folder. -/
structure WellFormed (t : FileTree) : Prop where
  names : ∀ l ∈ t.entries, ∀ name ∈ l, isEntryName name = true
  around : ∀ l ∈ t.entries, t.isFolder l.dropLast = true
  once : (t.files.map (·.1)).Nodup
  here : t.isFolder t.here = true

theorem isFolder_iff (t : FileTree) (l : Location) :
    t.isFolder l = true ↔ l = [] ∨ l ∈ t.folders := by
  simp [isFolder]

theorem isFile_iff (t : FileTree) (l : Location) :
    t.isFile l = true ↔ ∃ content, (l, content) ∈ t.files := by
  rw [isFile, file?, List.lookup_isSome_iff]
  constructor
  · rintro ⟨⟨l', content⟩, h, same⟩
    exact ⟨content, eq_of_beq same ▸ h⟩
  · rintro ⟨content, h⟩
    exact ⟨(l, content), h, beq_self_eq_true l⟩

namespace WellFormed

variable {t : FileTree} (h : t.WellFormed)

include h

theorem folder_names {l : Location} (folder : t.isFolder l = true) :
    ∀ name ∈ l, isEntryName name = true := by
  rcases (t.isFolder_iff l).mp folder with rfl | listed
  · simp
  · exact h.names l (List.mem_append_left _ listed)

theorem folder_above {l : Location} (folder : t.isFolder l = true) :
    t.isFolder l.dropLast = true := by
  rcases (t.isFolder_iff l).mp folder with rfl | listed
  · rfl
  · exact h.around l (List.mem_append_left _ listed)

/-- The folders on the way to a folder. -/
theorem folder_prefix (l : Location) (names : List String) (folder : t.isFolder (l ++ names) = true) :
    t.isFolder l = true := by
  induction names using List.reverseRecOn with
  | nil => rwa [List.append_nil] at folder
  | append_singleton names name ih =>
    have above := h.folder_above folder
    rw [← List.append_assoc, List.dropLast_concat] at above
    exact ih above

end WellFormed

/-! ### Steps -/

theorem checkFolder_eq_ok (t : FileTree) (l : Location) :
    t.checkFolder l = .ok () ↔ t.isFolder l = true := by
  unfold checkFolder
  cases t.isFolder l <;> cases t.isFile l <;> simp

/-- A step leads up, down or nowhere from a folder, and back to the root from anywhere. -/
theorem step_eq_ok (t : FileTree) (l m : Location) (c : Path.Component) :
    t.step l c = .ok m ↔
      match c with
      | .root => m = []
      | .current => t.isFolder l = true ∧ m = l
      | .parent => t.isFolder l = true ∧ m = l.dropLast
      | .name text => t.isFolder l = true ∧
          (Text.utf8 (String.ofList text)).length ≤ maxNameBytes ∧ m = l ++ [String.ofList text] := by
  rw [← checkFolder_eq_ok]
  cases c with
  | root => simp [step, eq_comm]
  | current => cases h : t.checkFolder l <;> simp [step, h, Except.map, eq_comm]
  | parent => cases h : t.checkFolder l <;> simp [step, h, Except.map, eq_comm]
  | name text =>
    cases h : t.checkFolder l with
    | error e => simp [step, h]
    | ok _ =>
      by_cases long : maxNameBytes < (Text.utf8 (String.ofList text)).length
      · simp [step, h, long, Nat.not_le_of_lt long]
      · simp [step, h, long, Nat.le_of_not_lt long, eq_comm]

/-- A walk is its first step and the walk from there. -/
theorem walk_cons (t : FileTree) (l m : Location) (c : Path.Component) (cs : List Path.Component) :
    t.walk l (c :: cs) = .ok m ↔ ∃ k, t.step l c = .ok k ∧ t.walk k cs = .ok m := by
  rw [walk]
  cases t.step l c <;> simp

theorem walk_append (t : FileTree) (l m : Location) (cs ds : List Path.Component) :
    t.walk l (cs ++ ds) = .ok m ↔ ∃ k, t.walk l cs = .ok k ∧ t.walk k ds = .ok m := by
  induction cs generalizing l with
  | nil => simp [walk]
  | cons c cs ih =>
    rw [List.cons_append, walk_cons]
    constructor
    · rintro ⟨k, first, rest⟩
      obtain ⟨k', before, after⟩ := (ih k).mp rest
      exact ⟨k', (t.walk_cons l k' c cs).mpr ⟨k, first, before⟩, after⟩
    · rintro ⟨k', before, after⟩
      obtain ⟨k, first, rest⟩ := (t.walk_cons l k' c cs).mp before
      exact ⟨k, first, (ih k).mpr ⟨k', rest, after⟩⟩

theorem locate_eq_ok (t : FileTree) (p : String) (l : Location) :
    t.locate p = .ok l ↔
      p ≠ "" ∧ Char.ofNat 0 ∉ p.toList ∧ t.walk t.here (Path.components p) = .ok l := by
  unfold locate
  by_cases empty : p = ""
  · simp [empty]
  · by_cases zero : Char.ofNat 0 ∈ p.toList <;> simp [empty, zero]

theorem find_eq_ok (t : FileTree) (p : String) (l : Location) :
    t.find p = .ok l ↔ t.locate p = .ok l ∧
      (t.isFolder l = true ∨ t.isFile l = true ∧ endsInFolder p = false) := by
  unfold find
  cases located : t.locate p with
  | error e => simp
  | ok k =>
    dsimp only
    by_cases same : k = l
    · subst same
      cases t.isFolder k <;> cases t.isFile k <;> cases endsInFolder p <;> simp
    · cases t.isFolder k <;> cases t.isFile k <;> cases endsInFolder p <;> simp [same]

/-! ### Growing trees -/

/-- The tree `t'` has at least the folders and files of `t`. -/
structure Grows (t t' : FileTree) : Prop where
  here : t'.here = t.here
  folders : ∀ l, t.isFolder l = true → t'.isFolder l = true
  files : ∀ l, t.isFile l = true → t'.isFile l = true

theorem Grows.refl (t : FileTree) : t.Grows t :=
  ⟨rfl, fun _ h => h, fun _ h => h⟩

theorem Grows.trans {t t' t'' : FileTree} (h : t.Grows t') (h' : t'.Grows t'') : t.Grows t'' :=
  ⟨h'.here.trans h.here, fun l hl => h'.folders l (h.folders l hl),
    fun l hl => h'.files l (h.files l hl)⟩

section

variable {t t' : FileTree} (grows : t.Grows t')

include grows

theorem Grows.step {l m : Location} {c : Path.Component} (h : t.step l c = .ok m) :
    t'.step l c = .ok m := by
  have step := (t.step_eq_ok l m c).mp h
  refine (t'.step_eq_ok l m c).mpr ?_
  cases c with
  | root => exact step
  | current | parent | name => exact ⟨grows.folders l step.1, step.2⟩

theorem Grows.walk {l m : Location} {cs : List Path.Component} (h : t.walk l cs = .ok m) :
    t'.walk l cs = .ok m := by
  induction cs generalizing l with
  | nil => exact h
  | cons c cs ih =>
    obtain ⟨k, first, rest⟩ := (t.walk_cons l m c cs).mp h
    exact (t'.walk_cons l m c cs).mpr ⟨k, grows.step first, ih rest⟩

theorem Grows.locate {p : String} {l : Location} (h : t.locate p = .ok l) : t'.locate p = .ok l := by
  obtain ⟨filled, clean, walked⟩ := (t.locate_eq_ok p l).mp h
  refine (t'.locate_eq_ok p l).mpr ⟨filled, clean, ?_⟩
  rw [grows.here]
  exact grows.walk walked

theorem Grows.find {p : String} {l : Location} (h : t.find p = .ok l) : t'.find p = .ok l := by
  obtain ⟨located, there⟩ := (t.find_eq_ok p l).mp h
  refine (t'.find_eq_ok p l).mpr ⟨grows.locate located, ?_⟩
  exact there.imp (grows.folders l) fun ⟨file, name⟩ => ⟨grows.files l file, name⟩

end

/-! ### Names on the way -/

theorem mem_pieces {cs piece : List Char} (h : piece ∈ Path.pieces cs) :
    '/' ∉ piece ∧ ∀ c ∈ piece, c ∈ cs := by
  induction cs generalizing piece with
  | nil =>
    rw [List.mem_singleton.mp h]
    simp
  | cons c cs ih =>
    by_cases slash : c = '/'
    · rw [slash, Path.pieces_slash, List.mem_cons] at h
      rcases h with rfl | h
      · simp
      · exact ⟨(ih h).1, fun d hd => List.mem_cons_of_mem _ ((ih h).2 d hd)⟩
    · obtain ⟨w, ws, pieces⟩ := Path.exists_pieces cs
      rw [Path.pieces_cons slash pieces, List.mem_cons] at h
      rw [pieces] at ih
      rcases h with rfl | h
      · obtain ⟨clean, within⟩ := ih List.mem_cons_self
        refine ⟨by simpa [Ne.symm slash] using clean, fun d hd => ?_⟩
        rcases List.mem_cons.mp hd with rfl | hd
        · exact List.mem_cons_self
        · exact List.mem_cons_of_mem _ (within d hd)
      · obtain ⟨clean, within⟩ := ih (List.mem_cons_of_mem _ h)
        exact ⟨clean, fun d hd => List.mem_cons_of_mem _ (within d hd)⟩

/-- The names among the components of a path can be names of entries, but for their length. -/
theorem mem_components {p : String} {text : List Char} (clean : Char.ofNat 0 ∉ p.toList)
    (h : Path.Component.name text ∈ Path.components p) :
    Path.isName (String.ofList text) = true ∧ Char.ofNat 0 ∉ text := by
  have inHead : Path.Component.name text ∉ Path.head p.toList := by
    unfold Path.head
    split
    · simp
    · split <;> simp
  rw [Path.components, List.mem_append] at h
  obtain ⟨piece, hp, same⟩ := List.mem_map.mp (h.resolve_left inHead)
  obtain ⟨found, busy⟩ := List.mem_filter.mp hp
  obtain ⟨slash, within⟩ := mem_pieces found
  split at same
  · cases same
  · rename_i parent
    cases same
    refine ⟨?_, fun zero => clean (within _ zero)⟩
    simp only [Path.isName, String.toList_ofList, busy, Bool.true_and, Bool.and_eq_true,
      Bool.not_eq_true', List.contains_eq_mem, decide_eq_false_iff_not]
    exact ⟨by simpa using parent, slash⟩

theorem step_names {t : FileTree} {p : String} (clean : Char.ofNat 0 ∉ p.toList)
    {c : Path.Component} (within : c ∈ Path.components p) {l m : Location}
    (start : ∀ name ∈ l, isEntryName name = true) (h : t.step l c = .ok m) :
    ∀ name ∈ m, isEntryName name = true := by
  have step := (t.step_eq_ok l m c).mp h
  cases c with
  | root => cases step; simp
  | current => rw [step.2]; exact start
  | parent => rw [step.2]; exact fun name hn => start name (List.dropLast_subset l hn)
  | name text =>
    obtain ⟨_, short, rfl⟩ := step
    obtain ⟨plain, zero⟩ := mem_components clean within
    intro name hn
    rcases List.mem_append.mp hn with old | new
    · exact start name old
    · rw [List.mem_singleton.mp new, isEntryName, plain]
      simpa [zero] using short

theorem walk_names {t : FileTree} {p : String} (clean : Char.ofNat 0 ∉ p.toList)
    {cs : List Path.Component} (within : ∀ c ∈ cs, c ∈ Path.components p) {l m : Location}
    (start : ∀ name ∈ l, isEntryName name = true) (h : t.walk l cs = .ok m) :
    ∀ name ∈ m, isEntryName name = true := by
  induction cs generalizing l with
  | nil => cases h; exact start
  | cons c cs ih =>
    obtain ⟨k, first, rest⟩ := (t.walk_cons l m c cs).mp h
    obtain ⟨here, later⟩ := List.forall_mem_cons.mp within
    exact ih later (step_names clean here start first) rest

/-- A path leads through proper names only. -/
theorem locate_names {t : FileTree} (start : ∀ name ∈ t.here, isEntryName name = true) {p : String}
    {l : Location} (h : t.locate p = .ok l) : ∀ name ∈ l, isEntryName name = true := by
  obtain ⟨_, clean, walked⟩ := (t.locate_eq_ok p l).mp h
  exact walk_names clean (fun _ hc => hc) start walked

/-! ### The absolute path of an entry -/

theorem isName_of_names {l : Location} (h : ∀ name ∈ l, isEntryName name = true) :
    ∀ name ∈ l, Path.isName name = true :=
  fun name hn => isName_of_isEntryName (h name hn)

/-- Going down from a folder by the names of what lies in it. -/
theorem WellFormed.walk_down {t : FileTree} (wf : t.WellFormed) (names : List String) (l : Location)
    (good : ∀ name ∈ names, isEntryName name = true)
    (folder : t.isFolder (l ++ names).dropLast = true) :
    t.walk l (names.map fun name => .name name.toList) = .ok (l ++ names) := by
  induction names generalizing l with
  | nil => rw [List.append_nil]; rfl
  | cons name names ih =>
    obtain ⟨first, others⟩ := List.forall_mem_cons.mp good
    have here : t.isFolder l = true := by
      rw [List.dropLast_append_of_ne_nil (by simp)] at folder
      exact wf.folder_prefix _ _ folder
    have short : (Text.utf8 name).length ≤ maxNameBytes := by
      simp only [isEntryName, Bool.and_eq_true, decide_eq_true_eq] at first
      exact first.2
    have rest := ih (l ++ [name]) others (by simpa using folder)
    rw [List.map_cons, walk_cons]
    refine ⟨l ++ [name], (t.step_eq_ok ..).mpr ⟨here, ?_, ?_⟩, by simpa using rest⟩
    · rwa [String.ofList_toList]
    · rw [String.ofList_toList]

theorem not_mem_absolute {l : Location} (h : ∀ name ∈ l, isEntryName name = true) :
    Char.ofNat 0 ∉ (absolute l).toList := by
  rw [Path.toList_absolute, List.mem_cons, not_or]
  refine ⟨by decide, fun zero => ?_⟩
  rcases Path.mem_joinPieces zero with slash | ⟨piece, hp, within⟩
  · exact absurd slash (by decide)
  · obtain ⟨name, hn, rfl⟩ := List.mem_map.mp hp
    have := h name hn
    simp only [isEntryName, Bool.and_eq_true, Bool.not_eq_true', List.contains_eq_mem,
      decide_eq_false_iff_not] at this
    exact this.1.2 within

theorem WellFormed.locate_absolute {t : FileTree} (wf : t.WellFormed) {l : Location}
    (good : ∀ name ∈ l, isEntryName name = true) (folder : t.isFolder l.dropLast = true) :
    t.locate (absolute l) = .ok l := by
  refine (t.locate_eq_ok ..).mpr ⟨by simp [absolute], not_mem_absolute good, ?_⟩
  rw [Path.components_absolute (isName_of_names good)]
  exact (t.walk_cons ..).mpr ⟨[], rfl, by simpa using wf.walk_down l [] good folder⟩

theorem endsInFolder_absolute {l : Location} (h : ∀ name ∈ l, isEntryName name = true)
    (nonempty : l ≠ []) : endsInFolder (absolute l) = false := by
  obtain ⟨init, last, rfl⟩ : ∃ init last, l = init ++ [last] :=
    ⟨_, _, (List.dropLast_concat_getLast nonempty).symm⟩
  have name := isName_of_names h last (by simp)
  rw [endsInFolder, Path.pieces_absolute (isName_of_names h) nonempty, List.map_append,
    List.map_singleton, ← List.cons_append, List.getLast?_concat]
  exact Path.isIdle_of_isName name

/-- **The absolute path of an entry leads to it.** -/
theorem WellFormed.find_absolute {t : FileTree} (wf : t.WellFormed) {l : Location}
    (h : t.isFolder l = true ∨ t.isFile l = true) : t.find (absolute l) = .ok l := by
  rcases h with folder | file
  · exact (t.find_eq_ok ..).mpr
      ⟨wf.locate_absolute (wf.folder_names folder) (wf.folder_above folder), .inl folder⟩
  · obtain ⟨content, listed⟩ := (t.isFile_iff l).mp file
    have entry : l ∈ t.entries := List.mem_append_right _ (List.mem_map.mpr ⟨_, listed, rfl⟩)
    have good := wf.names l entry
    refine (t.find_eq_ok ..).mpr ⟨wf.locate_absolute good (wf.around l entry), ?_⟩
    by_cases root : l = []
    · exact .inl ((t.isFolder_iff l).mpr (.inl root))
    · exact .inr ⟨file, endsInFolder_absolute good root⟩

/-- The absolute path of what a path leads to leads there too. -/
theorem WellFormed.find_again {t : FileTree} (wf : t.WellFormed) {p : String} {l : Location}
    (h : t.find p = .ok l) : t.find (absolute l) = .ok l :=
  wf.find_absolute (((t.find_eq_ok p l).mp h).2.imp_right And.left)

end Forwarding.FileTree
