import Forwarding.Proofs.FileSystem.Laws
import Forwarding.Proofs.FileTree.Writing

/-!
The files directly inside a folder that a path names. Making folders and writing files keep a tree as
a disk has it. A piece without slashes behind the path of a folder leads to an entry of that folder
or, if it is a dot or two, to a folder, where no file can be written.
-/

namespace Forwarding.FileTree

/-! ### Trees stay as a disk has them -/

theorem WellFormed.makeFolderAt {t t' : FileTree} (wf : t.WellFormed) {l : Location}
    {dotted : Bool} (names : ∀ name ∈ l, isEntryName name = true)
    (h : t.makeFolderAt l dotted = .ok t') : t'.WellFormed := by
  obtain ⟨around, rfl⟩ := makeFolderAt_eq_ok h
  have grows (m : Location) (hm : t.isFolder m = true) :
      ({ t with folders := t.folders ++ [l] } : FileTree).isFolder m = true := by
    rw [isFolder_iff] at hm ⊢
    exact hm.imp_right (List.mem_append_left _)
  -- The new entry is the folder at the end of the path; all others were there before.
  have entry {m : Location} (hm : m ∈ entries { t with folders := t.folders ++ [l] }) :
      m = l ∨ m ∈ t.entries := by
    simp only [entries, List.mem_append, List.mem_singleton] at hm ⊢
    rcases hm with (old | new) | file
    · exact .inr (.inl old)
    · exact .inl new
    · exact .inr (.inr file)
  refine ⟨?_, ?_, wf.once, grows _ wf.here⟩
  · intro m hm
    rcases entry hm with rfl | old
    · exact names
    · exact wf.names m old
  · intro m hm
    apply grows
    rcases entry hm with rfl | old
    · exact around
    · exact wf.around m old

theorem WellFormed.makeFolder {t t' : FileTree} (wf : t.WellFormed) {p : String}
    (h : t.makeFolder p = .ok t') : t'.WellFormed := by
  obtain ⟨l, located, made⟩ := (t.makeFolder_eq_ok t' p).mp h
  exact wf.makeFolderAt (locate_names (wf.folder_names wf.here) located) made

theorem ensureFolder_onlyFolders (t : FileTree) (p : String) :
    t.OnlyFolders (t.ensureFolder p).1 :=
  FileSystem.makeFolders_closure OnlyFolders.refl OnlyFolders.trans (fun h => (makeFolder_ok h).1) _
    t p

theorem WellFormed.ensureFolder {t : FileTree} (wf : t.WellFormed) (p : String) :
    (t.ensureFolder p).1.WellFormed := by
  refine FileSystem.makeFolders_closure (R := fun t t' => t.WellFormed → t'.WellFormed)
    (fun _ h => h) (fun h h' wf => h' (h wf)) (fun h wf => wf.makeFolder h) _ t p wf

theorem WellFormed.withFile {t : FileTree} (wf : t.WellFormed) {l : Location} {name : String}
    (folder : t.isFolder l = true) (entry : isEntryName name = true) (content : Content) :
    (t.withFile (l ++ [name]) content).WellFormed := by
  have keys := Table.keys_put (l ++ [name]) content t.files
  have listed {m : Location} (hm : m ∈ (t.withFile (l ++ [name]) content).entries) :
      m = l ++ [name] ∨ m ∈ t.entries := by
    rw [entries, List.mem_append] at hm ⊢
    rcases hm with old | file
    · exact .inr (.inl old)
    · have file' : m ∈ (Table.put (l ++ [name]) content t.files).map (·.1) := file
      rw [keys] at file'
      split at file'
      · exact .inr (.inr file')
      · rcases List.mem_append.mp file' with old | new
        · exact .inr (.inr old)
        · exact .inl (List.mem_singleton.mp new)
  refine ⟨?_, ?_, ?_, wf.here⟩
  · intro m hm n hn
    rcases listed hm with rfl | old
    · rcases List.mem_append.mp hn with above | last
      · exact wf.folder_names folder n above
      · rw [List.mem_singleton.mp last]
        exact entry
    · exact wf.names m old n hn
  · intro m hm
    rcases listed hm with rfl | old
    · rw [List.dropLast_concat]
      exact folder
    · exact wf.around m old
  · show ((Table.put (l ++ [name]) content t.files).map (·.1)).Nodup
    rw [keys]
    split
    · exact wf.once
    · rename_i fresh
      apply List.nodup_append.mpr
      refine ⟨wf.once, by simp, ?_⟩
      intro a ha b hb same
      rw [List.mem_singleton.mp hb] at same
      exact fresh (same ▸ ha)

/-! ### The folder at a path -/

/-- The path names the folder `l`; the empty path names the folder that relative paths start from. -/
def FolderAt (t : FileTree) (p : String) (l : Location) : Prop :=
  t.isFolder l = true ∧ (p = "" ∧ l = t.here ∨ t.locate p = .ok l)

theorem FolderAt.unique {t : FileTree} {p : String} {l m : Location} (h : t.FolderAt p l)
    (h' : t.FolderAt p m) : l = m := by
  rcases h.2 with ⟨rfl, here⟩ | located
  · rcases h'.2 with ⟨_, here'⟩ | located
    · rw [here, here']
    · exact absurd rfl ((t.locate_eq_ok ..).mp located).1
  · rcases h'.2 with ⟨rfl, _⟩ | located'
    · exact absurd rfl ((t.locate_eq_ok ..).mp located).1
    · rw [located] at located'
      exact Except.ok.inj located'

theorem Grows.folderAt {t t' : FileTree} (grows : t.Grows t') {p : String} {l : Location}
    (h : t.FolderAt p l) : t'.FolderAt p l := by
  refine ⟨grows.folders l h.1, ?_⟩
  rcases h.2 with ⟨empty, here⟩ | located
  · exact .inl ⟨empty, by rw [here, grows.here]⟩
  · exact .inr (grows.locate located)

/-- A folder that was made is there. -/
theorem exists_folderAt_of_ensureFolder {t t' : FileTree} (wf : t'.WellFormed) {p : String}
    (h : t.ensureFolder p = (t', .ok ())) : ∃ l, t'.FolderAt p l := by
  by_cases empty : p = ""
  · exact ⟨t'.here, wf.here, .inl ⟨empty, rfl⟩⟩
  · obtain ⟨l, located, folder⟩ := (t'.hasFolder_iff p).mp (ensureFolder_ok h empty).2
    exact ⟨l, folder, .inr located⟩

/-- A piece without slashes, taken by itself, is one step. -/
theorem components_piece {name : String} (slash : '/' ∉ name.toList) (other : name ≠ ".") :
    Path.components name = Path.pieceSteps [name.toList] := by
  have current : Path.startsCurrent name.toList = false := by
    rw [Path.startsCurrent, Path.pieces_of_no_slash slash]
    have dot : name.toList ≠ ['.'] := fun same => other (String.toList_inj.mp same)
    simpa using dot
  have lead : Path.head name.toList = [] := by
    unfold Path.head
    split
    · rename_i rest chars
      rw [chars] at slash
      exact absurd List.mem_cons_self slash
    · rw [current]
      rfl
  rw [Path.components_eq, lead, Path.pieces_of_no_slash slash, List.nil_append]

theorem join_empty {name : String} (slash : '/' ∉ name.toList) : Path.join "" name = name := by
  simp [Path.join, Path.isAbsolute_of_no_slash slash]

theorem getLast?_pieces_join_piece (p : String) {name : String} (slash : '/' ∉ name.toList) :
    (Path.pieces (Path.join p name).toList).getLast? = some name.toList := by
  by_cases empty : p = ""
  · rw [empty, join_empty slash, Path.pieces_of_no_slash slash]
    rfl
  · exact Path.getLast?_pieces_join_relative empty slash

theorem endsInFolder_join_piece (p : String) {name : String} (slash : '/' ∉ name.toList) :
    endsInFolder (Path.join p name) = Path.isIdle name.toList := by
  rw [endsInFolder, getLast?_pieces_join_piece p slash]
  rfl

theorem isName_of_endsInName {p name : String} (slash : '/' ∉ name.toList)
    (h : Path.EndsInName (Path.join p name)) : Path.isName name = true := by
  obtain ⟨last, final, plain⟩ := h
  rw [getLast?_pieces_join_piece p slash] at final
  cases final
  rwa [String.ofList_toList] at plain

/-- Where a piece without slashes leads behind the path of a folder, it leads from the folder. -/
theorem FolderAt.locate_iff {t : FileTree} {p : String} {l : Location} (place : t.FolderAt p l)
    {name : String} (slash : '/' ∉ name.toList) (filled : name ≠ "") (other : name ≠ ".")
    (m : Location) :
    t.locate (Path.join p name) = .ok m ↔
      Char.ofNat 0 ∉ name.toList ∧ t.walk l (Path.pieceSteps [name.toList]) = .ok m := by
  rcases place.2 with ⟨rfl, rfl⟩ | located
  · rw [join_empty slash, locate_eq_ok, components_piece slash other]
    simp [filled]
  · have relative := Path.isAbsolute_of_no_slash slash
    obtain ⟨filled, clean, walked⟩ := (t.locate_eq_ok p l).mp located
    obtain ⟨init, joined, _⟩ := Path.toList_join_relative filled relative
    have nonempty : Path.join p name ≠ "" := by
      intro empty
      rw [empty] at joined
      simp at joined
    have zero : Char.ofNat 0 ∉ (Path.join p name).toList ↔ Char.ofNat 0 ∉ name.toList := by
      constructor
      · intro clear inside
        apply clear
        rw [joined]
        exact List.mem_append_right _ (List.mem_cons_of_mem _ inside)
      · intro clear inside
        rcases Path.mem_join_relative filled relative inside with before | slash | behind
        · exact clean before
        · exact absurd slash (by decide)
        · exact clear behind
    rw [locate_eq_ok, zero, Path.components_join_relative filled relative,
      Path.pieces_of_no_slash slash, walk_append]
    constructor
    · rintro ⟨_, clear, k, first, rest⟩
      rw [walked] at first
      cases first
      exact ⟨clear, rest⟩
    · rintro ⟨clear, rest⟩
      exact ⟨nonempty, clear, l, walked, rest⟩

theorem no_slash_of_isPlainName {name : String} (h : OutputFolder.isPlainName name = true) :
    name ≠ "" ∧ '/' ∉ name.toList := by
  simp only [OutputFolder.isPlainName, Bool.and_eq_true, Bool.not_eq_true', List.any_eq_false] at h
  refine ⟨?_, fun slash => h.2 '/' slash rfl⟩
  rintro rfl
  exact absurd h.1 (by decide)

section

variable {t : FileTree} {p : String} {l : Location} (place : t.FolderAt p l) {name : String}

include place

/-- A name that an entry can have leads to that entry of the folder. -/
theorem FolderAt.locate (entry : isEntryName name = true) :
    t.locate (Path.join p name) = .ok (l ++ [name]) := by
  have plain := isName_of_isEntryName entry
  have steps : Path.pieceSteps [name.toList] = [.name name.toList] :=
    @Path.pieceSteps_names [name] (by simpa using plain)
  simp only [isEntryName, Bool.and_eq_true, Bool.not_eq_true', List.contains_eq_mem,
    decide_eq_false_iff_not, decide_eq_true_eq] at entry
  have filled : name ≠ "" := by
    rintro rfl
    exact absurd plain (by decide)
  have other : name ≠ "." := by
    rintro rfl
    exact absurd plain (by decide)
  apply (place.locate_iff (Path.no_slash_of_isName plain) filled other _).mpr
  rw [steps, walk_cons]
  refine ⟨entry.1.2, l ++ [name], (t.step_eq_ok ..).mpr ⟨place.1, ?_, ?_⟩, rfl⟩
  · rw [String.ofList_toList]
    exact entry.2
  · rw [String.ofList_toList]

theorem FolderAt.find (entry : isEntryName name = true) (file : t.isFile (l ++ [name]) = true) :
    t.find (Path.join p name) = .ok (l ++ [name]) := by
  have plain := isName_of_isEntryName entry
  apply (t.find_eq_ok ..).mpr
  refine ⟨place.locate entry, .inr ⟨file, ?_⟩⟩
  rw [endsInFolder_join_piece p (Path.no_slash_of_isName plain)]
  exact Path.isIdle_of_isName plain

/-- A piece without slashes that leads to no folder is a name that an entry can have. -/
theorem FolderAt.isEntryName_of_locate (wf : t.WellFormed) (filled : name ≠ "")
    (slash : '/' ∉ name.toList) {m : Location} (located : t.locate (Path.join p name) = .ok m)
    (free : t.isFolder m = false) (file : endsInFolder (Path.join p name) = false) :
    isEntryName name = true := by
  rw [endsInFolder_join_piece p slash] at file
  have other : name ≠ "." := by
    rintro rfl
    exact absurd file (by decide)
  obtain ⟨zero, walked⟩ := (place.locate_iff slash filled other m).mp located
  have parent : name.toList ≠ ['.', '.'] := by
    intro up
    rw [up] at walked
    obtain ⟨k, first, rest⟩ := (t.walk_cons ..).mp walked
    cases rest
    obtain ⟨_, rfl⟩ := (t.step_eq_ok l m .parent).mp first
    rw [wf.folder_above place.1] at free
    cases free
  have plain : Path.isName name = true := by simp [Path.isName, file, parent, slash]
  have steps : Path.pieceSteps [name.toList] = [.name name.toList] :=
    @Path.pieceSteps_names [name] (by simpa using plain)
  rw [steps] at walked
  obtain ⟨k, first, _⟩ := (t.walk_cons ..).mp walked
  obtain ⟨_, short, _⟩ := (t.step_eq_ok ..).mp first
  rw [String.ofList_toList] at short
  simp [isEntryName, plain, zero, short]

/-- **A text is written to a piece behind the path of a folder exactly if the piece is a name that an
entry can have and neither a folder nor a closed file has it.** -/
theorem FolderAt.writeText_iff (wf : t.WellFormed) (plain : OutputFolder.isPlainName name = true)
    (text : String) (t' : FileTree) :
    t.writeText (Path.join p name) text = .ok t' ↔ isEntryName name = true ∧
      t.isFolder (l ++ [name]) = false ∧ t.isClosed (l ++ [name]) = false ∧
      t' = t.withFile (l ++ [name]) (.bytes (Text.utf8 text)) := by
  obtain ⟨filled, slash⟩ := no_slash_of_isPlainName plain
  rw [writeText_eq_ok]
  constructor
  · rintro ⟨m, located, free, file, _, writable, rfl⟩
    have entry := place.isEntryName_of_locate wf filled slash located free file
    rw [place.locate entry] at located
    cases located
    exact ⟨entry, free, writable, rfl⟩
  · rintro ⟨entry, free, writable, rfl⟩
    refine ⟨l ++ [name], place.locate entry, free, ?_, ?_, writable, rfl⟩
    · rw [endsInFolder_join_piece p slash]
      exact Path.isIdle_of_isName (isName_of_isEntryName entry)
    · rw [List.dropLast_concat]
      exact place.1

end

end Forwarding.FileTree
