import Forwarding.Proofs.FileTree.Volume
import Forwarding.Proofs.OutputFolder.Session

/-!
What a run of texts leaves in a plain tree. There a call either succeeds and writes one file directly
inside the folder, or it fails and leaves all files as they were, with at most some folders made. So
the files that a run has written hold their last texts, and nothing else has changed. Main statement:
this, and what remains of it on a file system that has links and devices and on which a write can fail
halfway.
-/

namespace Forwarding.OutputFolder

open FileTree (isEntryName)

/-! ### One call on a tree -/

/-- The folder can be made, and the name has no separators, can be that of an entry, and is not that
of a folder or of a closed file inside. -/
def Takes (o : OutputFolder) (t : FileTree) (name : String) : Prop :=
  isPlainName name = true ∧ isEntryName name = true ∧
    ∃ t₁ l, t.ensureFolder o.path = (t₁, .ok ()) ∧ t₁.FolderAt o.path l ∧
      t₁.isFolder (l ++ [name]) = false ∧ t₁.isClosed (l ++ [name]) = false

/-- **What a call can do.** It fails with at most some folders made, or it makes the folder and writes
the text to the entry of that name. -/
theorem add_cases (o : OutputFolder) {t : FileTree} (wf : t.WellFormed) (name text : String) :
    (¬o.Takes t name ∧ ∃ t₁ e, o.add t name text = (t₁, .error e) ∧ t.OnlyFolders t₁ ∧
      t₁.WellFormed) ∨
    (o.Takes t name ∧ ∃ t₁ l,
      o.add t name text = (t₁.withFile (l ++ [name]) (.bytes (Text.utf8 text)),
        .ok { o with written := o.written ++ [Path.join o.path name] }) ∧
      t.OnlyFolders t₁ ∧ t₁.WellFormed ∧ t₁.FolderAt o.path l ∧ isEntryName name = true) := by
  have only := t.ensureFolder_onlyFolders o.path
  have kept := wf.ensureFolder o.path
  rw [FileTree.add_outputFolder]
  unfold Takes
  cases plain : isPlainName name with
  | false => exact .inl ⟨by simp, t, _, rfl, .refl t, wf⟩
  | true =>
    rcases made : t.ensureFolder o.path with ⟨t₁, e | _⟩
    · rw [made] at only kept
      exact .inl ⟨by simp, t₁, _, rfl, only, kept⟩
    · rw [made] at only kept
      obtain ⟨l, place⟩ := FileTree.exists_folderAt_of_ensureFolder kept made
      have writes := place.writeText_iff kept plain text
      cases written : t₁.writeText (Path.join o.path name) text with
      | error e =>
        refine .inl ⟨?_, t₁, .fileNotWritten name (Path.join o.path name) e, ?_, only, kept⟩
        · rintro ⟨_, entry, t₂, m, same, place', free, writable⟩
          cases same
          rw [place'.unique place] at free writable
          have done := (writes _).mpr ⟨entry, free, writable, rfl⟩
          rw [written] at done
          cases done
        · simp [written]
      | ok t' =>
        obtain ⟨entry, free, writable, rfl⟩ := (writes t').mp written
        exact .inr ⟨⟨rfl, entry, t₁, l, rfl, place, free, writable⟩, t₁, l, by simp [written],
          only, kept, place, entry⟩

/-- A refused text leaves every file as it was. -/
theorem files_of_add_error {o : OutputFolder} {t t' : FileTree} {name text : String}
    {e : OutputError} (wf : t.WellFormed) (failed : o.add t name text = (t', .error e)) :
    t'.files = t.files := by
  rcases o.add_cases wf name text with ⟨_, t₁, e', same, only, _⟩ | ⟨_, t₁, l, same, _⟩
  · rw [failed] at same
    cases same
    exact only.files
  · rw [failed] at same
    cases same

/-! ### A run of calls on a tree -/

/-- The text of the last call with a name. -/
def lastText (calls : List (String × String)) (name : String) : Option String :=
  calls.reverse.lookup name

theorem lastText_concat (calls : List (String × String)) (c : String × String) (name : String) :
    lastText (calls ++ [c]) name = if name = c.1 then some c.2 else lastText calls name := by
  unfold lastText
  rw [List.reverse_concat, List.lookup_cons]
  by_cases same : name = c.1
  · simp [same]
  · rw [if_neg same, beq_eq_false_iff_ne.mpr same]

namespace Session

theorem accepted_call_ok {s : Session FileTree} {c : String × String} {t' : FileTree}
    {o : OutputFolder} (done : s.folder.add s.system c.1 c.2 = (t', .ok o)) :
    (s.call c).accepted = s.accepted ++ [c] ∧ (s.call c).folder = o ∧ (s.call c).system = t' := by
  simp [call, done, accepted, Call.taken]

theorem accepted_call_error {s : Session FileTree} {c : String × String} {t' : FileTree}
    {e : OutputError} (failed : s.folder.add s.system c.1 c.2 = (t', .error e)) :
    (s.call c).accepted = s.accepted ∧ (s.call c).folder = s.folder ∧
      (s.call c).system = t' := by
  simp [call, failed, accepted, Call.taken]

/-- What holds of a tree that was `t` when the session started. -/
structure Consistent (t : FileTree) (p : String) (now : FileTree)
    (accepted : List (String × String)) : Prop where
  wellFormed : now.WellFormed
  inside : ∀ c ∈ accepted, ∃ l, now.FolderAt p l ∧ isEntryName c.1 = true ∧
    now.find (Path.join p c.1) = .ok (l ++ [c.1])
  latest : ∀ name text, lastText accepted name = some text →
    ∃ l, now.find (Path.join p name) = .ok l ∧ now.file? l = some (.bytes (Text.utf8 text))
  others : ∀ m, (∀ c ∈ accepted, now.find (Path.join p c.1) ≠ .ok m) → now.file? m = t.file? m

theorem consistent_start {t : FileTree} (wf : t.WellFormed) (p : String) :
    Consistent t p t [] where
  wellFormed := wf
  inside _ h := by cases h
  latest _ _ h := by cases h
  others _ _ := rfl

section

variable {t now : FileTree} {p : String} {accepted : List (String × String)}
  (h : Consistent t p now accepted)

include h

/-- Further folders change nothing. -/
theorem Consistent.onlyFolders {t₁ : FileTree} (only : now.OnlyFolders t₁) (wf : t₁.WellFormed) :
    Consistent t p t₁ accepted where
  wellFormed := wf
  inside := by
    intro c hc
    obtain ⟨l, place, entry, found⟩ := h.inside c hc
    exact ⟨l, only.grows.folderAt place, entry, only.grows.find found⟩
  latest := by
    intro name text last
    obtain ⟨l, found, holds⟩ := h.latest name text last
    exact ⟨l, only.grows.find found, by rw [only.file?, holds]⟩
  others := by
    intro m outside
    rw [only.file?]
    apply h.others m
    intro c hc found
    exact outside c hc (only.grows.find found)

/-- A file of the folder is added, or its text replaced. -/
theorem Consistent.withFile {l : Location} {name : String} (place : now.FolderAt p l)
    (entry : isEntryName name = true) (text : String) :
    Consistent t p (now.withFile (l ++ [name]) (.bytes (Text.utf8 text)))
      (accepted ++ [(name, text)]) := by
  have grows := now.grows_withFile (l ++ [name]) (.bytes (Text.utf8 text))
  have holds := now.file?_withFile_self (l ++ [name]) (.bytes (Text.utf8 text))
  have found : (now.withFile (l ++ [name]) (.bytes (Text.utf8 text))).find (Path.join p name) =
      .ok (l ++ [name]) := by
    apply (grows.folderAt place).find entry
    rw [FileTree.isFile, holds]
    rfl
  constructor
  · exact h.wellFormed.withFile place.1 entry _
  · intro c hc
    rcases List.mem_append.mp hc with old | new
    · obtain ⟨l', place', entry', found'⟩ := h.inside c old
      exact ⟨l', grows.folderAt place', entry', grows.find found'⟩
    · rw [List.mem_singleton.mp new]
      exact ⟨l, grows.folderAt place, entry, found⟩
  · intro name' text' last
    rw [lastText_concat] at last
    split at last
    · rename_i same
      cases last
      exact ⟨l ++ [name], by rw [same]; exact found, holds⟩
    · rename_i other
      obtain ⟨m, found', holds'⟩ := h.latest name' text' last
      -- The earlier file lies in the same folder under another name.
      have listed := List.mem_reverse.mp (Table.mem_of_lookup last)
      obtain ⟨l', place', _, found''⟩ := h.inside _ listed
      rw [found'', place'.unique place] at found'
      cases found'
      have apart : l ++ [name'] ≠ l ++ [name] := by
        intro same
        exact other (List.singleton_inj.mp (List.append_cancel_left same))
      refine ⟨l ++ [name'], ?_, ?_⟩
      · rw [place'.unique place] at found''
        exact grows.find found''
      · rw [FileTree.file?_withFile_ne _ apart, holds']
  · intro m outside
    have apart : m ≠ l ++ [name] := by
      rintro rfl
      exact outside (name, text) (by simp) found
    rw [FileTree.file?_withFile_ne _ apart]
    apply h.others m
    intro c hc found'
    exact outside c (List.mem_append_left _ hc) (grows.find found')

end

theorem Consistent.call {t : FileTree} {p : String} {s : Session FileTree}
    (path : s.folder.path = p) (h : Consistent t p s.system s.accepted) (c : String × String) :
    (s.call c).folder.path = p ∧ Consistent t p (s.call c).system (s.call c).accepted := by
  rcases s.folder.add_cases h.wellFormed c.1 c.2 with
    ⟨_, t₁, e, failed, only, wf⟩ | ⟨_, t₁, l, done, only, wf, place, entry⟩
  · obtain ⟨accepted, folder, system⟩ := accepted_call_error failed
    rw [accepted, folder, system]
    exact ⟨path, h.onlyFolders only wf⟩
  · obtain ⟨accepted, folder, system⟩ := accepted_call_ok done
    rw [accepted, folder, system]
    rw [path] at place
    exact ⟨path, (h.onlyFolders only wf).withFile place entry c.2⟩

/-- A call counts among those that succeeded exactly if the folder takes its name. -/
theorem accepted_call_iff {s : Session FileTree} (wf : s.system.WellFormed) (c : String × String) :
    (s.call c).accepted = s.accepted ++ [c] ↔ s.folder.Takes s.system c.1 := by
  rcases s.folder.add_cases wf c.1 c.2 with ⟨refused, t₁, e, failed, _⟩ | ⟨taken, t₁, l, done, _⟩
  · simp [accepted_call_error failed, refused]
  · simp [accepted_call_ok done, taken]

theorem consistent_run {t : FileTree} (wf : t.WellFormed) (p : String)
    (calls : List (String × String)) :
    Consistent t p (run t p calls).system (run t p calls).accepted :=
  (run_induction (motive := fun s => s.folder.path = p ∧ Consistent t p s.system s.accepted)
    ⟨rfl, consistent_start wf p⟩ (fun _ c h => h.2.call h.1 c) calls).2

/-! ### Both kinds of systems -/

open FileView

/-- **An output folder is confined, whatever is written to it and wherever.** On every lawful file
system, all that `Confined` says holds after any run of calls, and a call that fails adds no path and
changes no file, except that a write that failed may leave the front part of its text in the file that
its path leads to. In a plain tree nothing is left behind: after any run the written paths lead to
entries directly inside the folder, which hold the texts of the last calls that succeeded; every other
file is as it was; the next call succeeds if the folder takes its name; if it fails, it adds no path
and changes no file. -/
theorem run_confined :
    (∀ (S : Type) [FileSystem S] [LawfulFileSystem S] (start : S), Sound start →
      ∀ (p : String) (calls : List (String × String)),
      let s := run start p calls
      s.log.map (fun c => (c.name, c.text)) = calls ∧ Confined start p s ∧
      ∀ name text s' e, s.folder.add s.system name text = (s', .error e) →
        (s.call (name, text)).folder = s.folder ∧ ∀ f, held s' f = held s.system f ∨
          (∃ cause, e = .fileNotWritten name (Path.join p name) cause) ∧
            leadsTo s' (Path.join p name) = some f ∧
            ∃ n, held s' f = some ((Text.utf8 text).take n)) ∧
    ∀ t : FileTree, t.WellFormed → ∀ (p : String) (calls : List (String × String)),
      let s := run t p calls
      s.folder.written = s.accepted.map (fun c => Path.join p c.1) ∧
      (∀ name text, lastText s.accepted name = some text →
        s.system.readText? (Path.join p name) = some text) ∧
      (∀ c ∈ s.accepted, ∃ l, s.system.FolderAt p l ∧ isEntryName c.1 = true ∧
        s.system.find (Path.join p c.1) = .ok (l ++ [c.1])) ∧
      (∀ m, (∀ path ∈ s.folder.written, s.system.find path ≠ .ok m) →
        s.system.file? m = t.file? m) ∧
      (∀ name text, (s.call (name, text)).accepted = s.accepted ++ [(name, text)] ↔
        s.folder.Takes s.system name) ∧
      ∀ name text t' e, s.folder.add s.system name text = (t', .error e) →
        (s.call (name, text)).folder = s.folder ∧ t'.files = s.system.files := by
  constructor
  · intro S _ _ start sound p calls s
    have h : Confined start p s := confined_run sound p calls
    refine ⟨log_run start p calls, h, fun name text s' e failed => ⟨?_, ?_⟩⟩
    · rw [call, failed]
    · have effect := s.folder.add_effect h.sound name text
      rw [failed] at effect
      have left := effect.failed e rfl
      rwa [h.path] at left
  · intro t wf p calls s
    have h : Consistent t p s.system s.accepted := consistent_run wf p calls
    have confined : Confined t p s := confined_run wf p calls
    have written := confined.written
    refine ⟨written, ?_, h.inside, ?_, ?_, ?_⟩
    · intro name text last
      obtain ⟨l, found, holds⟩ := h.latest name text last
      exact FileTree.readText?_of_find found holds
    · intro m outside
      apply h.others m
      intro c hc
      apply outside
      rw [written]
      exact List.mem_map.mpr ⟨c, hc, rfl⟩
    · intro name text
      exact accepted_call_iff h.wellFormed (name, text)
    · intro name text t' e failed
      exact ⟨(accepted_call_error failed).2.1, files_of_add_error h.wellFormed failed⟩

/-- A project with a folder `d` in its output folder. -/
def project : FileTree :=
  { files := [(["p", "a.cs"], .bytes (Text.utf8 "old"))]
    folders := [["p"], ["p", "out"], ["p", "out", "d"]] }

/-- Texts under names of all kinds. -/
def mixedCalls : List (String × String) :=
  [("a.cs", "first"), ("", "x"), ("..", "x"), (".", "x"), ("../a.cs", "x"), ("b\\c", "x"), ("d", "x"),
    ("é.cs", "other"), ("a.cs", "second")]

/-- The output folder has a link to a file outside and a device, and no file has more than three
bytes. -/
def linkedProject : Volume :=
  { tree := {
      files := [
        (["p", "a.cs"], .bytes (Text.utf8 "old")),
        (["p", "out", "null"], .bytes []),
        (["p", "out", "b.cs"], .bytes (Text.utf8 "one"))]
      folders := [["p"], ["p", "out"]] }
    links := [(["p", "out", "link.cs"], ["p", "a.cs"])]
    devices := [["p", "out", "null"]]
    maxFileBytes := some 3 }

/-- A text that is written through the link, one that the device takes in, and one that is too
long. -/
def linkedCalls : List (String × String) :=
  [("link.cs", "new"), ("null", "x"), ("b.cs", "long")]

theorem run_confined_mixedCalls :
    project.WellFormed ∧ linkedProject.Sound ∧
    (run project "/p/out" mixedCalls).folder.written =
      ["/p/out/a.cs", "/p/out/é.cs", "/p/out/a.cs"] ∧
    (run project "/p/out" mixedCalls).system.readText? "/p/out/a.cs" = some "second" ∧
    (run project "/p/out" mixedCalls).system.file? ["p", "a.cs"] =
      some (.bytes (Text.utf8 "old")) ∧
    (run linkedProject "/p/out" linkedCalls).folder.written = ["/p/out/link.cs", "/p/out/null"] ∧
    Confined linkedProject "/p/out" (run linkedProject "/p/out" linkedCalls) := by
  have wf : project.WellFormed :=
    ⟨by decide +kernel, by decide +kernel, by decide +kernel, by decide +kernel⟩
  have sound : linkedProject.Sound :=
    ⟨⟨by decide +kernel, by decide +kernel, by decide +kernel, by decide +kernel⟩,
      by decide +kernel, by decide +kernel, by decide +kernel⟩
  have accepted : (run project "/p/out" mixedCalls).accepted =
      [("a.cs", "first"), ("é.cs", "other"), ("a.cs", "second")] := by decide +kernel
  have accepted' : (run linkedProject "/p/out" linkedCalls).accepted =
      [("link.cs", "new"), ("null", "x")] := by decide +kernel
  obtain ⟨written, latest, _, others, _⟩ := run_confined.2 project wf "/p/out" mixedCalls
  obtain ⟨_, confined, _⟩ := run_confined.1 Volume linkedProject sound "/p/out" linkedCalls
  have written' := confined.written
  rw [accepted] at written latest
  rw [accepted'] at written'
  refine ⟨wf, sound, written, latest "a.cs" "second" rfl, ?_, written', confined⟩
  apply others
  rw [written]
  decide +kernel

/-- Where there are links and devices, a written path need not hold the text of its last call, a file
that is not at a written path need not be as it was, and a call that fails can change a file. -/
theorem run_unconfined_linkedProject :
    let s := run linkedProject "/p/out" linkedCalls
    ¬(∀ name text, lastText s.accepted name = some text →
      s.system.readBytes (Path.join "/p/out" name) = .ok (Text.utf8 text)) ∧
    ¬(∀ path, path ∉ s.folder.written → s.system.readBytes path = linkedProject.readBytes path) ∧
    ¬(∀ name text v e, s.folder.add s.system name text = (v, .error e) →
      ∀ path, v.readBytes path = s.system.readBytes path) := by
  refine ⟨fun h => ?_, fun h => ?_, fun h => ?_⟩
  · have holds := congrArg Except.toOption (h "null" "x" (by decide +kernel))
    revert holds
    decide +kernel
  · have same := congrArg Except.toOption (h "/p/a.cs" (by decide +kernel))
    revert same
    decide +kernel
  · have refused : ((run linkedProject "/p/out" linkedCalls).folder.add
        (run linkedProject "/p/out" linkedCalls).system "b.cs" "other").2.toOption = none := by
      decide +kernel
    have changed : (((run linkedProject "/p/out" linkedCalls).folder.add
        (run linkedProject "/p/out" linkedCalls).system "b.cs" "other").1.readBytes
          "/p/out/b.cs").toOption ≠
        ((run linkedProject "/p/out" linkedCalls).system.readBytes "/p/out/b.cs").toOption := by
      decide +kernel
    generalize run linkedProject "/p/out" linkedCalls = s at h refused changed
    rcases added : s.folder.add s.system "b.cs" "other" with ⟨v, e | o⟩
    · rw [added] at changed
      exact changed (congrArg _ (h _ _ _ _ added _))
    · rw [added] at refused
      cases refused

end Session

end Forwarding.OutputFolder
