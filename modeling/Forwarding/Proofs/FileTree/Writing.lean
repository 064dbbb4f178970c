import Forwarding.OutputFolder
import Forwarding.Proofs.FileTree.Walking
import Forwarding.Proofs.Text.Utf8

/-!
Writing a text to a file of a folder that is made if need be. Making folders adds folders and touches
no file, a folder that is there already is left as it is, and writing changes one file.
-/

namespace Forwarding.FileTree

/-! ### Making folders -/

theorem hasFolder_iff (t : FileTree) (p : String) :
    t.hasFolder p = true ↔ ∃ l, t.locate p = .ok l ∧ t.isFolder l = true := by
  rw [hasFolder]
  constructor
  · intro h
    cases found : t.find p with
    | error e => rw [found] at h; cases h
    | ok l =>
      rw [found] at h
      exact ⟨l, ((t.find_eq_ok p l).mp found).1, h⟩
  · rintro ⟨l, located, folder⟩
    rw [(t.find_eq_ok p l).mpr ⟨located, .inl folder⟩]
    exact folder

/-- Only folders are added. -/
structure OnlyFolders (t t' : FileTree) : Prop where
  grows : t.Grows t'
  files : t'.files = t.files

theorem OnlyFolders.refl (t : FileTree) : t.OnlyFolders t :=
  ⟨.refl t, rfl⟩

theorem OnlyFolders.trans {t t' t'' : FileTree} (h : t.OnlyFolders t') (h' : t'.OnlyFolders t'') :
    t.OnlyFolders t'' :=
  ⟨h.grows.trans h'.grows, h'.files.trans h.files⟩

theorem OnlyFolders.file? {t t' : FileTree} (h : t.OnlyFolders t') (l : Location) :
    t'.file? l = t.file? l := by
  rw [FileTree.file?, h.files, FileTree.file?]

/-- A folder is made at a free place inside a folder. -/
theorem makeFolderAt_eq_ok {t t' : FileTree} {l : Location} {dotted : Bool}
    (h : t.makeFolderAt l dotted = .ok t') :
    t.isFolder l.dropLast = true ∧ t' = { t with folders := t.folders ++ [l] } := by
  unfold makeFolderAt at h
  split at h
  · split at h <;> cases h
  split at h
  · cases h
  split at h
  · cases h
  rename_i around
  cases h
  exact ⟨(t.checkFolder_eq_ok _).mp around, rfl⟩

theorem onlyFolders_of_makeFolderAt {t t' : FileTree} {l : Location} {dotted : Bool}
    (h : t.makeFolderAt l dotted = .ok t') : t.OnlyFolders t' ∧ t'.isFolder l = true := by
  obtain ⟨_, rfl⟩ := makeFolderAt_eq_ok h
  refine ⟨⟨⟨rfl, fun m hm => ?_, fun _ hm => hm⟩, rfl⟩, (isFolder_iff ..).mpr (.inr (by simp))⟩
  rw [isFolder_iff] at hm ⊢
  exact hm.imp_right (List.mem_append_left _)

theorem makeFolder_eq_ok (t t' : FileTree) (p : String) :
    t.makeFolder p = .ok t' ↔
      ∃ l, t.locate p = .ok l ∧ t.makeFolderAt l (endsInDot p) = .ok t' := by
  rw [makeFolder]
  cases t.locate p <;> simp

theorem makeFolder_ok {t t' : FileTree} {p : String} (h : t.makeFolder p = .ok t') :
    t.OnlyFolders t' ∧ t'.hasFolder p = true := by
  obtain ⟨l, located, made⟩ := (t.makeFolder_eq_ok t' p).mp h
  obtain ⟨only, there⟩ := onlyFolders_of_makeFolderAt made
  exact ⟨only, (hasFolder_iff ..).mpr ⟨l, only.grows.locate located, there⟩⟩

/-- A folder that is there is not made again. -/
theorem makeFolder_of_hasFolder {t : FileTree} {p : String} (h : t.hasFolder p = true) :
    ∃ e, t.makeFolder p = .error e ∧ e ≠ .missing := by
  obtain ⟨l, located, folder⟩ := (t.hasFolder_iff p).mp h
  rw [makeFolder, located]
  simp only [makeFolderAt, folder, Bool.true_or, if_true]
  split
  · exact ⟨_, rfl, by decide⟩
  · exact ⟨_, rfl, by decide⟩

/-- What was made stays, and in the end the folder is there. -/
theorem makeFolders_ok {n : Nat} {t t' : FileTree} {p : String}
    (h : FileSystem.makeFolders n t p = (t', .ok ())) :
    t.OnlyFolders t' ∧ (p ≠ "" → t'.hasFolder p = true) := by
  induction n generalizing t t' p with
  | zero => cases h
  | succ n ih =>
    rw [FileSystem.makeFolders] at h
    split at h
    · rename_i empty
      cases h
      exact ⟨.refl t, fun filled => absurd (String.isEmpty_iff.mp empty) filled⟩
    split at h
    · rename_i made
      cases h
      exact ⟨(makeFolder_ok made).1, fun _ => (makeFolder_ok made).2⟩
    · split at h
      · cases h
      split at h
      · cases h
      rename_i parent _ t₁ _ above
      have before := (ih above).1
      split at h
      · rename_i made
        cases h
        exact ⟨before.trans (makeFolder_ok made).1, fun _ => (makeFolder_ok made).2⟩
      · split at h
        · rename_i there
          cases h
          exact ⟨before, fun _ => there⟩
        · cases h
    · split at h
      · rename_i there
        cases h
        exact ⟨.refl t, fun _ => there⟩
      · cases h

theorem ensureFolder_ok {t t' : FileTree} {p : String} (h : t.ensureFolder p = (t', .ok ()))
    (filled : p ≠ "") : t.OnlyFolders t' ∧ t'.hasFolder p = true :=
  ⟨(makeFolders_ok h).1, (makeFolders_ok h).2 filled⟩

theorem ensureFolder_of_hasFolder {t : FileTree} {p : String} (h : t.hasFolder p = true) :
    t.ensureFolder p = (t, .ok ()) := by
  obtain ⟨e, refused, other⟩ := makeFolder_of_hasFolder h
  rw [ensureFolder, FileSystem.ensureFolder, FileSystem.makeFolders]
  by_cases empty : p.isEmpty = true
  · rw [if_pos empty]
  · have refused : FileSystem.makeFolder t p = .error e := refused
    rw [if_neg empty, refused]
    cases e with
    | missing => exact absurd rfl other
    | _ => exact if_pos h

/-! ### Writing files -/

theorem file?_withFile_self (t : FileTree) (l : Location) (content : Content) :
    (t.withFile l content).file? l = some content :=
  Table.lookup_put_self l content t.files

theorem file?_withFile_ne (t : FileTree) {l m : Location} (h : m ≠ l) (content : Content) :
    (t.withFile l content).file? m = t.file? m :=
  Table.lookup_put_ne h content t.files

theorem grows_withFile (t : FileTree) (l : Location) (content : Content) :
    t.Grows (t.withFile l content) := by
  refine ⟨rfl, fun _ hm => hm, fun m hm => ?_⟩
  by_cases same : m = l
  · rw [same, isFile, file?_withFile_self]
    rfl
  · rwa [isFile, file?_withFile_ne t same]

theorem writeAt_eq_ok (t t' : FileTree) (l : Location) (folder : Bool) (bytes : List UInt8) :
    t.writeAt l folder bytes = .ok t' ↔
      t.isFolder l = false ∧ folder = false ∧ t.isFolder l.dropLast = true ∧
        t.isClosed l = false ∧ t' = t.withFile l (.bytes bytes) := by
  have around := t.checkFolder_eq_ok l.dropLast
  rw [writeAt]
  cases t.isFolder l with
  | true => simp
  | false =>
    cases folder with
    | true => cases t.isFile l <;> simp
    | false =>
      cases check : t.checkFolder l.dropLast with
      | error e =>
        have missing : t.isFolder l.dropLast ≠ true := by
          intro there
          rw [← around, check] at there
          cases there
        simp [missing]
      | ok _ => cases t.isClosed l <;> simp [around.mp check, eq_comm]

theorem writeBytes_eq_ok (t t' : FileTree) (p : String) (bytes : List UInt8) :
    t.writeBytes p bytes = .ok t' ↔
      ∃ l, t.locate p = .ok l ∧ t.writeAt l (endsInFolder p) bytes = .ok t' := by
  rw [writeBytes]
  cases t.locate p <;> simp

theorem writeText_eq_ok (t t' : FileTree) (p text : String) :
    t.writeText p text = .ok t' ↔
      ∃ l, t.locate p = .ok l ∧ t.isFolder l = false ∧ endsInFolder p = false ∧
        t.isFolder l.dropLast = true ∧ t.isClosed l = false ∧
        t' = t.withFile l (.bytes (Text.utf8 text)) := by
  rw [writeText, writeBytes_eq_ok]
  simp only [writeAt_eq_ok]

/-- What was written is found where it was written. -/
theorem find_of_writeText {t t' : FileTree} {p text : String} (h : t.writeText p text = .ok t') :
    ∃ l, t'.find p = .ok l ∧ t' = t.withFile l (.bytes (Text.utf8 text)) ∧
      t.isFolder l = false := by
  obtain ⟨l, located, free, file, _, _, rfl⟩ := (t.writeText_eq_ok t' p text).mp h
  refine ⟨l, ?_, rfl, free⟩
  apply (find_eq_ok ..).mpr
  refine ⟨(t.grows_withFile l _).locate located, .inr ⟨?_, file⟩⟩
  rw [isFile, file?_withFile_self]
  rfl

theorem readText?_of_find {t : FileTree} {p text : String} {l : Location}
    (found : t.find p = .ok l) (holds : t.file? l = some (.bytes (Text.utf8 text))) :
    t.readText? p = some text := by
  have bytes : t.readBytes p = .ok (Text.utf8 text) := by
    rw [readBytes, found]
    simp only [holds, Content.read]
  rw [readText?, bytes]
  exact (Text.ofUtf8?_eq_some_iff _ _).mpr rfl

/-- A text that was written is read back. -/
theorem readText?_of_writeText {t t' : FileTree} {p text : String}
    (h : t.writeText p text = .ok t') : t'.readText? p = some text := by
  obtain ⟨l, found, rfl, _⟩ := find_of_writeText h
  exact readText?_of_find found (file?_withFile_self ..)

/-- A text is written to the file `name` of a folder, which is made if need be. -/
def Saves (t : FileTree) (folder name text : String) (t' : FileTree) : Prop :=
  ∃ t₁, t.ensureFolder folder = (t₁, .ok ()) ∧
    t₁.writeText (Path.join folder name) text = .ok t'

theorem locate_join {t : FileTree} {folder name : String} {l : Location}
    (located : t.locate folder = .ok l) (there : t.isFolder l = true)
    (h : isEntryName name = true) : t.locate (Path.join folder name) = .ok (l ++ [name]) := by
  obtain ⟨filled, clean, walked⟩ := (t.locate_eq_ok folder l).mp located
  have plain := isName_of_isEntryName h
  simp only [isEntryName, Bool.and_eq_true, Bool.not_eq_true', List.contains_eq_mem,
    decide_eq_false_iff_not, decide_eq_true_eq] at h
  have steps := Path.components_join filled plain
  refine (t.locate_eq_ok ..).mpr ⟨?_, fun zero => ?_, ?_⟩
  · intro empty
    rw [empty] at steps
    exact absurd steps (by simp [show Path.components "" = [] from rfl])
  · rcases Path.mem_join filled plain zero with before | slash | within
    · exact clean before
    · exact absurd slash (by decide)
    · exact h.1.2 within
  · rw [steps, walk_append]
    refine ⟨l, walked, (t.walk_cons ..).mpr ⟨l ++ [name], (t.step_eq_ok ..).mpr ?_, rfl⟩⟩
    refine ⟨there, ?_, ?_⟩
    · rw [String.ofList_toList]
      exact h.2
    · rw [String.ofList_toList]

theorem endsInFolder_join {folder name : String} (filled : folder ≠ "")
    (h : isEntryName name = true) :
    endsInFolder (Path.join folder name) = false := by
  have plain := isName_of_isEntryName h
  rw [endsInFolder, Path.getLast?_pieces_join filled plain]
  exact Path.isIdle_of_isName plain

section

variable {t : FileTree} {folder name : String} {l : Location} (located : t.locate folder = .ok l)
  (there : t.isFolder l = true) (plain : isEntryName name = true)

include located there plain

theorem readBytes_join {bytes : List UInt8} (h : t.file? (l ++ [name]) = some (.bytes bytes)) :
    t.readBytes (Path.join folder name) = .ok bytes := by
  have filled := ((t.locate_eq_ok folder l).mp located).1
  have found : t.find (Path.join folder name) = .ok (l ++ [name]) :=
    (t.find_eq_ok ..).mpr ⟨locate_join located there plain,
      .inr ⟨by rw [isFile, h]; rfl, endsInFolder_join filled plain⟩⟩
  rw [readBytes, found]
  simp only [h, Content.read]

theorem writeText_join (text : String) (t' : FileTree) :
    t.writeText (Path.join folder name) text = .ok t' ↔ t.isFolder (l ++ [name]) = false ∧
      t.isClosed (l ++ [name]) = false ∧
      t' = t.withFile (l ++ [name]) (.bytes (Text.utf8 text)) := by
  have filled := ((t.locate_eq_ok folder l).mp located).1
  rw [writeText_eq_ok]
  constructor
  · rintro ⟨m, hm, free, _, _, writable, rfl⟩
    rw [locate_join located there plain] at hm
    cases hm
    exact ⟨free, writable, rfl⟩
  · rintro ⟨free, writable, rfl⟩
    exact ⟨l ++ [name], locate_join located there plain, free, endsInFolder_join filled plain,
      by rwa [List.dropLast_concat], writable, rfl⟩

/-- In a folder that is there already, a file is saved unless a folder or a closed file has its
name. -/
theorem saves_iff (text : String) (t' : FileTree) :
    t.Saves folder name text t' ↔ t.isFolder (l ++ [name]) = false ∧
      t.isClosed (l ++ [name]) = false ∧
      t' = t.withFile (l ++ [name]) (.bytes (Text.utf8 text)) := by
  have made := ensureFolder_of_hasFolder ((t.hasFolder_iff folder).mpr ⟨l, located, there⟩)
  rw [← writeText_join located there plain]
  constructor
  · rintro ⟨t₁, made', written⟩
    rw [made] at made'
    cases made'
    exact written
  · exact fun written => ⟨t, made, written⟩

end

/-- Saving first adds folders, and then saves in a folder that is there. -/
theorem Saves.folders_first {t t' : FileTree} {folder name text : String}
    (h : t.Saves folder name text t') (filled : folder ≠ "") :
    ∃ t₀ l, t.OnlyFolders t₀ ∧ t₀.locate folder = .ok l ∧ t₀.isFolder l = true ∧
      t₀.Saves folder name text t' := by
  obtain ⟨t₀, made, written⟩ := h
  obtain ⟨only, there⟩ := ensureFolder_ok made filled
  obtain ⟨l, located, folderThere⟩ := (t₀.hasFolder_iff folder).mp there
  exact ⟨t₀, l, only, located, folderThere, t₀, ensureFolder_of_hasFolder there, written⟩

/-- A text goes to an output folder in a tree: a write that fails leaves the tree as it is. -/
theorem add_outputFolder (o : OutputFolder) (t : FileTree) (name text : String) :
    o.add t name text =
      if !OutputFolder.isPlainName name then (t, .error (.notPlainName name))
      else
        match t.ensureFolder o.path with
        | (t, .error e) => (t, .error (.folderNotMade name o.path e))
        | (t, .ok _) =>
          match t.writeText (Path.join o.path name) text with
          | .error e => (t, .error (.fileNotWritten name (Path.join o.path name) e))
          | .ok t => (t, .ok { o with written := o.written ++ [Path.join o.path name] }) := by
  unfold OutputFolder.add ensureFolder
  split
  · rfl
  rcases FileSystem.ensureFolder t o.path with ⟨t₁, _ | _⟩
  · rfl
  have wrote : FileSystem.writeText t₁ (Path.join o.path name) text =
      match t₁.writeText (Path.join o.path name) text with
      | .error e => (t₁, .error e)
      | .ok t => (t, .ok ()) := rfl
  simp only [wrote]
  cases t₁.writeText (Path.join o.path name) text <;> rfl

end Forwarding.FileTree
