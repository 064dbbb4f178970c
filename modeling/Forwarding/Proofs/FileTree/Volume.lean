import Forwarding.FileTree.Volume
import Forwarding.Proofs.FileTree.Members

/-!
Trees and volumes keep the laws of file systems. In a tree every file has one location and keeps what
is written to it. In a volume a path may go through links, so it may lead to a file elsewhere; a
device keeps nothing, and what does not fit is cut off.
-/

namespace Forwarding

open FileTree (endsInFolder isEntryName)

/-! ### The end of a path -/

/-- A path demands a folder, goes up with its last step, or ends in a name. -/
theorem Path.end_cases (q : String) :
    endsInFolder q = true ∨ (∃ cs, Path.components q = cs ++ [.parent]) ∨ Path.EndsInName q := by
  obtain ⟨w, ws, first⟩ := Path.exists_pieces q.toList
  obtain ⟨front, last, parted⟩ : ∃ front last, Path.pieces q.toList = front ++ [last] :=
    ⟨_, _, (List.dropLast_concat_getLast (by rw [first]; exact List.cons_ne_nil w ws)).symm⟩
  have final : (Path.pieces q.toList).getLast? = some last := by
    rw [parted, List.getLast?_concat]
  cases idle : Path.isIdle last with
  | true => exact .inl (by rw [endsInFolder, final]; exact idle)
  | false =>
    by_cases up : last = ['.', '.']
    · refine .inr (.inl ⟨Path.head q.toList ++ Path.pieceSteps front, ?_⟩)
      rw [Path.components_eq, parted, Path.pieceSteps_append, List.append_assoc, up]
      rfl
    · refine .inr (.inr ⟨last, final, ?_⟩)
      have mem : last ∈ Path.pieces q.toList := by
        rw [parted]
        exact List.mem_concat_self
      have slash : '/' ∉ last := (FileTree.mem_pieces mem).1
      simp [Path.isName, idle, up, slash]

/-! ### Trees -/

/-- The bytes of a file that can be read. -/
def Content.bytes? : Content → Option (List UInt8)
  | .bytes bs => some bs
  | .closed _ => none

namespace FileTree

/-- The bytes of the file at a location. -/
def bytes? (t : FileTree) (l : Location) : Option (List UInt8) :=
  (t.file? l).bind Content.bytes?

theorem OnlyFolders.bytes? {t t' : FileTree} (h : t.OnlyFolders t') (l : Location) :
    t'.bytes? l = t.bytes? l := by
  rw [FileTree.bytes?, FileTree.bytes?, h.file?]

theorem bytes?_withFile (t : FileTree) (l m : Location) (bytes : List UInt8) :
    (t.withFile l (.bytes bytes)).bytes? m = if m = l then some bytes else t.bytes? m := by
  unfold bytes?
  by_cases same : m = l
  · rw [if_pos same, same, file?_withFile_self]
    rfl
  · rw [if_neg same, file?_withFile_ne t same]

theorem isFile_withFile (t : FileTree) (l : Location) (content : Content) :
    (t.withFile l content).isFile l = true := by
  rw [isFile, file?_withFile_self]
  rfl

/-- The file at the location that a path was followed to, if the path may lead to a file. -/
def fileAt? (t : FileTree) (p : String) (located : Except FileError Location) : Option Location :=
  match located with
  | .ok l => if t.isFile l && !endsInFolder p then some l else none
  | .error _ => none

theorem fileAt?_eq_some {t : FileTree} {p : String} {located : Except FileError Location}
    {l : Location} :
    t.fileAt? p located = some l ↔
      located = .ok l ∧ t.isFile l = true ∧ endsInFolder p = false := by
  cases located with
  | error e => simp [fileAt?]
  | ok m =>
    simp only [fileAt?, Option.ite_none_right_eq_some, Bool.and_eq_true, Bool.not_eq_true',
      Option.some.injEq, Except.ok.injEq]
    constructor
    · rintro ⟨⟨file, name⟩, rfl⟩
      exact ⟨rfl, file, name⟩
    · rintro ⟨rfl, file, name⟩
      exact ⟨⟨file, name⟩, rfl⟩

/-- A file is written at a proper location. -/
theorem WellFormed.writeAt {t t' : FileTree} (wf : t.WellFormed) {l : Location} {folder : Bool}
    {bytes : List UInt8} (names : ∀ name ∈ l, isEntryName name = true)
    (h : t.writeAt l folder bytes = .ok t') : t'.WellFormed := by
  obtain ⟨free, _, around, _, rfl⟩ := (t.writeAt_eq_ok t' l folder bytes).mp h
  have filled : l ≠ [] := by
    rintro rfl
    cases free
  obtain ⟨front, name, rfl⟩ : ∃ front name, l = front ++ [name] :=
    ⟨_, _, (List.dropLast_concat_getLast filled).symm⟩
  rw [List.dropLast_concat] at around
  exact wf.withFile around (names name List.mem_concat_self) _

/-- What a path leads to, it leads to in a larger tree, if it is followed there in the same way. -/
theorem Grows.fileAt? {t t' : FileTree} (grows : t.Grows t') {p : String}
    {located located' : Except FileError Location} (same : ∀ l, located = .ok l → located' = .ok l)
    {l : Location} (led : t.fileAt? p located = some l) : t'.fileAt? p located' = some l := by
  obtain ⟨found, file, name⟩ := fileAt?_eq_some.mp led
  exact fileAt?_eq_some.mpr ⟨same l found, grows.files l file, name⟩

instance : FileView FileTree where
  File := Location
  Sound := WellFormed
  leadsTo t p := t.fileAt? p (t.locate p)
  held := bytes?
  Keeps _ _ := True

/-- No file is written through a path that goes up with its last step: the folder above a folder is
there. -/
theorem endsInName_of_locate {t : FileTree} (wf : t.WellFormed) {p : String} {l : Location}
    (located : t.locate p = .ok l) (free : t.isFolder l = false) (name : endsInFolder p = false) :
    Path.EndsInName p := by
  rcases Path.end_cases p with folder | ⟨cs, up⟩ | named
  · rw [name] at folder
    cases folder
  · have walked := ((t.locate_eq_ok p l).mp located).2.2
    rw [up, walk_append] at walked
    obtain ⟨k, _, last⟩ := walked
    obtain ⟨m, step, rest⟩ := (t.walk_cons ..).mp last
    cases rest
    obtain ⟨folder, rfl⟩ := (t.step_eq_ok k l .parent).mp step
    rw [wf.folder_above folder] at free
    cases free
  · exact named

/-- A write to a tree changes nothing, or it is done. -/
theorem writeBytes_cases {t t' : FileTree} {p : String} {bytes : List UInt8}
    {result : Except FileError Unit} (wrote : FileSystem.writeBytes t p bytes = (t', result)) :
    (t' = t ∧ result ≠ .ok ()) ∨ result = .ok () ∧ t.writeBytes p bytes = .ok t' := by
  cases written : t.writeBytes p bytes with
  | error e =>
    simp only [FileSystem.writeBytes, written, Prod.mk.injEq] at wrote
    obtain ⟨rfl, rfl⟩ := wrote
    exact .inl ⟨rfl, by simp⟩
  | ok t₁ =>
    simp only [FileSystem.writeBytes, written, Prod.mk.injEq] at wrote
    obtain ⟨rfl, rfl⟩ := wrote
    exact .inr ⟨rfl, rfl⟩

instance : LawfulFileSystem FileTree where
  makeFolder := by
    intro t t' p wf made
    have only := (makeFolder_ok made).1
    refine ⟨⟨fun _ => wf.makeFolder made, ?_, fun _ => .rfl⟩, only.bytes?⟩
    exact fun q l led => only.grows.fileAt? (fun _ => only.grows.locate) led
  writeBytes := by
    intro t t' p bytes result wf wrote
    rcases writeBytes_cases wrote with ⟨rfl, _⟩ | ⟨_, written⟩
    · exact ⟨.refl t', fun _ => .inl rfl⟩
    · obtain ⟨l, located, put⟩ := (t.writeBytes_eq_ok t' p bytes).mp written
      have sound := wf.writeAt (locate_names (wf.folder_names wf.here) located) put
      obtain ⟨_, name, _, _, rfl⟩ := (t.writeAt_eq_ok t' l _ bytes).mp put
      have grows := t.grows_withFile l (.bytes bytes)
      refine ⟨⟨fun _ => sound, ?_, fun _ => .rfl⟩, ?_⟩
      · exact fun q m led => grows.fileAt? (fun _ => grows.locate) led
      · intro m
        show (t.withFile l (.bytes bytes)).bytes? m = t.bytes? m ∨ _
        rw [bytes?_withFile]
        split
        · rename_i same
          subst same
          refine .inr ⟨fileAt?_eq_some.mpr ⟨grows.locate located, isFile_withFile .., name⟩,
            bytes.length, ?_⟩
          show (t.withFile m (.bytes bytes)).bytes? m = _
          rw [bytes?_withFile, if_pos rfl, List.take_length]
        · exact .inl rfl
  written := by
    intro t t' p bytes wf wrote
    obtain ⟨_, failed⟩ | ⟨_, written⟩ := writeBytes_cases wrote
    · exact absurd rfl failed
    · obtain ⟨l, located, put⟩ := (t.writeBytes_eq_ok t' p bytes).mp written
      obtain ⟨free, name, _, _, rfl⟩ := (t.writeAt_eq_ok t' l _ bytes).mp put
      have grows := t.grows_withFile l (.bytes bytes)
      refine ⟨endsInName_of_locate wf located free name, l,
        fileAt?_eq_some.mpr ⟨grows.locate located, isFile_withFile .., name⟩, fun _ => ?_⟩
      show (t.withFile l (.bytes bytes)).bytes? l = some bytes
      rw [bytes?_withFile, if_pos rfl]

end FileTree

/-! ### Volumes -/

namespace Volume

/-- The tree is one as a disk has it, links stand where no folder is and lead to places that an entry
can have, and devices are files. -/
structure Sound (v : Volume) : Prop where
  tree : v.tree.WellFormed
  apart : ∀ e ∈ v.links, v.tree.isFolder e.1 = false
  targets : ∀ e ∈ v.links, ∀ name ∈ e.2, isEntryName name = true
  devices : ∀ l ∈ v.devices, v.tree.isFile l = true

instance : FileView Volume where
  File := Location
  Sound := Sound
  leadsTo v p := v.tree.fileAt? p (v.locate p)
  held v := v.tree.bytes?
  Keeps v l := v.devices.contains l = false

theorem follow_cases (v : Volume) (l : Location) :
    v.follow l = l ∨ (l, v.follow l) ∈ v.links := by
  unfold follow
  cases found : v.links.lookup l with
  | none => exact .inl rfl
  | some m => exact .inr (Table.mem_of_lookup found)

theorem walk_cons (v : Volume) (l m : Location) (c : Path.Component) (cs : List Path.Component) :
    v.walk l (c :: cs) = .ok m ↔
      ∃ k, v.tree.step l c = .ok k ∧ v.walk (v.follow k) cs = .ok m := by
  rw [walk]
  cases v.tree.step l c <;> simp

theorem walk_append (v : Volume) (l m : Location) (cs ds : List Path.Component) :
    v.walk l (cs ++ ds) = .ok m ↔ ∃ k, v.walk l cs = .ok k ∧ v.walk k ds = .ok m := by
  induction cs generalizing l with
  | nil => simp [walk]
  | cons c cs ih =>
    simp only [List.cons_append, walk_cons, ih]
    constructor
    · rintro ⟨k, first, k', before, after⟩
      exact ⟨k', ⟨k, first, before⟩, after⟩
    · rintro ⟨k', ⟨k, first, before⟩, after⟩
      exact ⟨k, first, k', before, after⟩

theorem locate_eq_ok (v : Volume) (p : String) (l : Location) :
    v.locate p = .ok l ↔
      p ≠ "" ∧ Char.ofNat 0 ∉ p.toList ∧ v.walk v.tree.here (Path.components p) = .ok l := by
  unfold locate locateBy
  by_cases empty : p = ""
  · simp [empty]
  · by_cases zero : Char.ofNat 0 ∈ p.toList <;> simp [empty, zero]

/-- A path is followed in the same way when the tree grows. -/
theorem locate_grows {v : Volume} {tree : FileTree} (grows : v.tree.Grows tree) {p : String}
    {l : Location} (h : v.locate p = .ok l) : ({ v with tree } : Volume).locate p = .ok l := by
  have walk {a b : Location} {cs : List Path.Component} (walked : v.walk a cs = .ok b) :
      ({ v with tree } : Volume).walk a cs = .ok b := by
    induction cs generalizing a with
    | nil => exact walked
    | cons c cs ih =>
      obtain ⟨k, first, rest⟩ := (v.walk_cons a b c cs).mp walked
      exact (walk_cons ..).mpr ⟨k, grows.step first, ih rest⟩
  obtain ⟨filled, clean, walked⟩ := (v.locate_eq_ok p l).mp h
  refine (locate_eq_ok ..).mpr ⟨filled, clean, ?_⟩
  rw [← grows.here] at walked
  exact walk walked

namespace Sound

variable {v : Volume} (sound : v.Sound)

include sound

/-- No link stands in place of a folder. -/
theorem follow_folder {l : Location} (folder : v.tree.isFolder l = true) : v.follow l = l := by
  rcases v.follow_cases l with same | link
  · exact same
  · have apart := sound.apart _ link
    rw [folder] at apart
    cases apart

theorem follow_names {l : Location} (names : ∀ name ∈ l, isEntryName name = true) :
    ∀ name ∈ v.follow l, isEntryName name = true := by
  rcases v.follow_cases l with same | link
  · rwa [same]
  · exact sound.targets _ link

theorem start_names : ∀ name ∈ v.tree.here, isEntryName name = true :=
  sound.tree.folder_names sound.tree.here

theorem locate_names {p : String} {l : Location} (h : v.locate p = .ok l) :
    ∀ name ∈ l, isEntryName name = true := by
  obtain ⟨_, clean, walked⟩ := (v.locate_eq_ok p l).mp h
  have names {a b : Location} {cs : List Path.Component}
      (within : ∀ c ∈ cs, c ∈ Path.components p) (start : ∀ name ∈ a, isEntryName name = true)
      (walked : v.walk a cs = .ok b) : ∀ name ∈ b, isEntryName name = true := by
    induction cs generalizing a with
    | nil => cases walked; exact start
    | cons c cs ih =>
      obtain ⟨k, first, rest⟩ := (v.walk_cons a b c cs).mp walked
      obtain ⟨here, later⟩ := List.forall_mem_cons.mp within
      exact ih later (sound.follow_names (FileTree.step_names clean here start first)) rest
  exact names (fun _ hc => hc) sound.start_names walked

theorem entry_names {p : String} {l : Location} (h : v.locateBy v.walkToEntry p = .ok l) :
    ∀ name ∈ l, isEntryName name = true := by
  have names {a b : Location} {cs : List Path.Component} (clean : Char.ofNat 0 ∉ p.toList)
      (within : ∀ c ∈ cs, c ∈ Path.components p) (start : ∀ name ∈ a, isEntryName name = true)
      (walked : v.walkToEntry a cs = .ok b) : ∀ name ∈ b, isEntryName name = true := by
    fun_induction walkToEntry v a cs with
    | case1 => cases walked; exact start
    | case2 a c => exact FileTree.step_names clean (within c List.mem_cons_self) start walked
    | case3 => cases walked
    | case4 a c cs _ k first ih =>
      obtain ⟨here, later⟩ := List.forall_mem_cons.mp within
      exact ih later (sound.follow_names (FileTree.step_names clean here start first)) walked
  unfold locateBy at h
  split at h
  · cases h
  split at h
  · cases h
  rename_i clean
  exact names (by simpa using clean) (fun _ hc => hc) sound.start_names h

/-- No file is written through a path that goes up with its last step. -/
theorem endsInName {p : String} {l : Location} (located : v.locate p = .ok l)
    (free : v.tree.isFolder l = false) (name : endsInFolder p = false) : Path.EndsInName p := by
  rcases Path.end_cases p with folder | ⟨cs, up⟩ | named
  · rw [name] at folder
    cases folder
  · have walked := ((v.locate_eq_ok p l).mp located).2.2
    rw [up, walk_append] at walked
    obtain ⟨k, _, last⟩ := walked
    obtain ⟨m, step, rest⟩ := (v.walk_cons ..).mp last
    cases rest
    obtain ⟨folder, rfl⟩ := (v.tree.step_eq_ok k m .parent).mp step
    have above := sound.tree.folder_above folder
    rw [sound.follow_folder above, above] at free
    cases free
  · exact named

end Sound

/-- What a write to a volume can do: nothing, also because a device is written to, or it puts the
bytes that fit at the place that its path leads to. -/
theorem writeBytes_cases {v v' : Volume} {p : String} {bytes : List UInt8}
    {result : Except FileError Unit} (wrote : v.writeBytes p bytes = (v', result)) :
    (v' = v ∧ (result = .ok () → ∃ l, v.locate p = .ok l ∧ v.devices.contains l = true ∧
      v.tree.isFolder l = false ∧ endsInFolder p = false)) ∨
    ∃ l tree, v.locate p = .ok l ∧ v.devices.contains l = false ∧
      v.tree.writeAt l (endsInFolder p) (v.fitting bytes) = .ok tree ∧ v' = { v with tree } ∧
      (result = .ok () → v.fitting bytes = bytes) := by
  unfold writeBytes at wrote
  split at wrote
  · cases wrote
    exact .inl ⟨rfl, by simp⟩
  rename_i l located
  split at wrote
  · cases wrote
    exact .inl ⟨rfl, by simp⟩
  rename_i tree put
  obtain ⟨free, name, _⟩ := (v.tree.writeAt_eq_ok tree l _ _).mp put
  split at wrote
  · rename_i device
    cases wrote
    exact .inl ⟨rfl, fun _ => ⟨l, located, device, free, name⟩⟩
  · rename_i kept
    cases wrote
    refine .inr ⟨l, tree, located, by simpa using kept, put, rfl, ?_⟩
    intro done
    split at done
    · cases done
    · rename_i whole
      unfold fitting at whole ⊢
      cases bound : v.maxFileBytes with
      | none => rfl
      | some n =>
        rw [bound, List.length_take] at whole
        exact List.take_of_length_le (by omega)

theorem fitting_eq_take (v : Volume) (bytes : List UInt8) :
    ∃ n, v.fitting bytes = bytes.take n := by
  unfold fitting
  cases v.maxFileBytes with
  | none => exact ⟨bytes.length, List.take_length.symm⟩
  | some n => exact ⟨n, rfl⟩

/-- A larger tree in which no folder stands in place of a link makes a volume as steady. -/
theorem steady_of_grows {v : Volume} {tree : FileTree} (grows : v.tree.Grows tree)
    (wf : v.Sound → tree.WellFormed)
    (apart : v.Sound → ∀ e ∈ v.links, tree.isFolder e.1 = false) :
    FileView.Steady v { v with tree } where
  sound sound := {
    tree := wf sound
    apart := apart sound
    targets := sound.targets
    devices := fun l device => grows.files l (sound.devices l device) }
  leads _ _ led := grows.fileAt? (fun _ => locate_grows grows) led
  keeps _ := .rfl

theorem makeFolder_eq_ok {v v' : Volume} {p : String} (h : v.makeFolder p = .ok v') :
    ∃ l tree, v.locateBy v.walkToEntry p = .ok l ∧ v.links.lookup l = none ∧
      v.tree.makeFolderAt l (FileTree.endsInDot p) = .ok tree ∧ v' = { v with tree } := by
  unfold makeFolder at h
  split at h
  · cases h
  rename_i l located
  split at h
  · cases h
  rename_i free
  cases made : v.tree.makeFolderAt l (FileTree.endsInDot p) with
  | error e =>
    rw [made] at h
    cases h
  | ok tree =>
    rw [made] at h
    cases h
    exact ⟨l, tree, located, Option.not_isSome_iff_eq_none.mp free, made, rfl⟩

instance : LawfulFileSystem Volume where
  makeFolder := by
    intro v v' p sound made
    obtain ⟨l, tree, located, free, put, rfl⟩ := makeFolder_eq_ok made
    have only := (FileTree.onlyFolders_of_makeFolderAt put).1
    refine ⟨steady_of_grows only.grows (fun sound =>
      sound.tree.makeFolderAt (sound.entry_names located) put) ?_, only.bytes?⟩
    -- The one new folder stands where no link is.
    intro sound e link
    obtain ⟨_, rfl⟩ := FileTree.makeFolderAt_eq_ok put
    have other : e.1 ≠ l := by
      intro same
      rw [List.lookup_eq_none_iff] at free
      simpa [same] using free e link
    have before := sound.apart e link
    rw [Bool.eq_false_iff, ne_eq, FileTree.isFolder_iff] at before ⊢
    simpa [other] using before
  writeBytes := by
    intro v v' p bytes result sound wrote
    rcases writeBytes_cases wrote with ⟨rfl, _⟩ | ⟨l, tree, located, _, put, rfl, _⟩
    · exact ⟨.refl v', fun _ => .inl rfl⟩
    · have wf (sound : v.Sound) := sound.tree.writeAt (sound.locate_names located) put
      obtain ⟨_, name, _, _, rfl⟩ := (v.tree.writeAt_eq_ok tree l _ _).mp put
      have grows := v.tree.grows_withFile l (.bytes (v.fitting bytes))
      refine ⟨steady_of_grows grows wf Sound.apart, ?_⟩
      intro m
      show (v.tree.withFile l (.bytes (v.fitting bytes))).bytes? m = v.tree.bytes? m ∨ _
      rw [FileTree.bytes?_withFile]
      split
      · rename_i same
        subst same
        obtain ⟨n, front⟩ := v.fitting_eq_take bytes
        refine .inr ⟨FileTree.fileAt?_eq_some.mpr
          ⟨locate_grows grows located, FileTree.isFile_withFile .., name⟩, n, ?_⟩
        show (v.tree.withFile m (.bytes (v.fitting bytes))).bytes? m = _
        rw [FileTree.bytes?_withFile, if_pos rfl, front]
      · exact .inl rfl
  written := by
    intro v v' p bytes sound wrote
    rcases writeBytes_cases wrote with
      ⟨rfl, toDevice⟩ | ⟨l, tree, located, kept, put, rfl, whole⟩
    · obtain ⟨l, located, device, free, name⟩ := toDevice rfl
      refine ⟨sound.endsInName located free name, l, FileTree.fileAt?_eq_some.mpr
        ⟨located, sound.devices l (by simpa using device), name⟩, ?_⟩
      intro keeps
      rw [show v'.devices.contains l = false from keeps] at device
      cases device
    · obtain ⟨free, name, _, _, rfl⟩ := (v.tree.writeAt_eq_ok tree l _ _).mp put
      have grows := v.tree.grows_withFile l (.bytes (v.fitting bytes))
      refine ⟨sound.endsInName located free name, l, FileTree.fileAt?_eq_some.mpr
        ⟨locate_grows grows located, FileTree.isFile_withFile .., name⟩, fun _ => ?_⟩
      show (v.tree.withFile l (.bytes (v.fitting bytes))).bytes? l = some bytes
      rw [FileTree.bytes?_withFile, if_pos rfl, whole rfl]

end Volume

end Forwarding
