import Forwarding.Proofs.Run.Outcome

/-!
A second run on what the first one left. With the default filters the program passes over its own
files, so the second run reads what the first one read and writes what the first one wrote.
-/

namespace Forwarding

open FileTree (absolute isEntryName)

section

variable {t t₀ : FileTree} (wf : t.WellFormed) (only : t.OnlyFolders t₀) {settings : Settings}
  (filters : settings.filters = {}) {l m : Location} {folder : String} (ready : t₀.Ready folder m)
  (project : t.isFolder l = true) (unit summary : String)

include wf only ready

theorem names_of_ready {name : String} (plain : isEntryName name = true) :
    ∀ n ∈ m ++ [name], isEntryName n = true := by
  have start : ∀ n ∈ t₀.here, isEntryName n = true := by
    rw [only.grows.here]
    exact wf.folder_names wf.here
  intro n hn
  rcases List.mem_append.mp hn with inside | last
  · exact FileTree.locate_names start ready.located n inside
  · exact List.mem_singleton.mp last ▸ plain

include filters project

/-- Neither file is kept, whatever it holds. -/
theorem keeps_own (content : Content) :
    keeps settings (absolute l) l (m ++ [generatedUnitName], content) = none ∧
      keeps settings (absolute l) l (m ++ [summaryFileName], content) = none := by
  -- The project is a folder, and no folder has the name that the unit was written under.
  have other : l ≠ m ++ [generatedUnitName] := by
    rintro rfl
    have there := only.grows.folders _ project
    rw [ready.unitFree] at there
    cases there
  exact ⟨keeps_unit filters (names_of_ready wf only ready isEntryName_unit) other content,
    keeps_summary settings (names_of_ready wf only ready isEntryName_summary) content⟩

/-- The scan keeps the same files as before. -/
theorem keptFiles_deliver :
    keptFiles (t₀.deliver m unit summary) settings (absolute l) l =
      keptFiles t settings (absolute l) l := by
  have own := keeps_own wf only filters ready project
  have files : (t₀.deliver m unit summary).files = Table.put (m ++ [summaryFileName])
      (.bytes (Text.utf8 summary))
      (Table.put (m ++ [generatedUnitName]) (.bytes (Text.utf8 unit)) t.files) := by
    rw [← only.files]
    rfl
  rw [keptFiles, files, Table.filterMap_put fun content => (own content).2,
    Table.filterMap_put fun content => (own content).1, keptFiles]

/-- The kept files hold what they held before. -/
theorem readText?_deliver {file : ScannedFile} (h : file ∈ keptFiles t settings (absolute l) l) :
    (t₀.deliver m unit summary).readText? file.path = t.readText? file.path := by
  obtain ⟨a, content, listed, kept, path, _⟩ := kept_entry wf h
  have own := keeps_own wf only filters ready project content
  have grows := only.grows.trans (t₀.grows_deliver m unit summary)
  have found := wf.find_absolute (.inr ((t.isFile_iff a).mpr ⟨content, listed⟩))
  -- A kept file is neither of the two, so nothing was written over it.
  have same : (t₀.deliver m unit summary).file? a = t.file? a := by
    rw [FileTree.file?_deliver_other, only.file?]
    · rintro rfl
      exact absurd kept (by simp [own.1])
    · rintro rfl
      exact absurd kept (by simp [own.2])
  rw [FileTree.readText?, FileTree.readText?, FileTree.readBytes, FileTree.readBytes, path,
    grows.find found, found]
  simp only [same]

/-- So a scan finds what the first one found. -/
theorem scan_deliver (found : t.find (absolute l) = .ok l) {r : ScanResult}
    (scanned : scan t settings (absolute l) = .ok r) (recover : Recovery) :
    ∃ r', scan (t₀.deliver m unit summary) settings (absolute l) = .ok r' ∧ r'.files = r.files ∧
      parseFiles (t₀.deliver m unit summary) recover r'.files = parseFiles t recover r.files := by
  have grows := only.grows.trans (t₀.grows_deliver m unit summary)
  have files := files_of_scan found scanned
  obtain ⟨r', scanned', files'⟩ := scan_of_find (grows.find found) settings
  have same : r'.files = r.files := by
    rw [files', files, keptFiles_deliver wf only filters ready project]
  refine ⟨r', scanned', same, ?_⟩
  rw [same]
  exact parseFiles_congr t recover fun file hf =>
    readText?_deliver wf only filters ready project unit summary (files ▸ hf)

end

/-- A summary depends on the files that were kept, and shows when it was made in its times alone. -/
theorem summarize_again {r r' : ScanResult} (files : r'.files = r.files) (clock clock' : Clock)
    (root folder : String) (parsed : Parsed) (p : Program) (e : Emission) :
    { summarize clock root folder r parsed p e with
      generatedAt := clock'.generatedAt, timings := clock'.timings } =
      summarize clock' root folder r' parsed p e := by
  rw [summarize, summarize, files]
  rfl

/-- **A second run gives what the first one gave.** It succeeds with the same summary, the times
apart, it leaves the unit as it is, and no file but the unit and the summary differs from what it was
before the first run. -/
theorem run_again {t t' : FileTree} {settings : Settings} {clock : Clock} {root : String}
    {recover : Recovery} {s : Summary} (wf : t.WellFormed) (project : t.hasFolder root = true)
    (filters : settings.filters = {}) (h : run t settings clock root recover = (t', .ok s))
    (clock' : Clock) :
    ∃ t'' m bytes,
      run t' settings clock' root recover =
        (t'', .ok { s with generatedAt := clock'.generatedAt, timings := clock'.timings }) ∧
      s.outputFile = Path.join (settings.outputFolder s.root) generatedUnitName ∧
      t'.readBytes s.outputFile = .ok bytes ∧ t''.readBytes s.outputFile = .ok bytes ∧
      t'.locate (settings.outputFolder s.root) = .ok m ∧
      ∀ a, a ≠ m ++ [generatedUnitName] → a ≠ m ++ [summaryFileName] → t''.file? a = t.file? a := by
  obtain ⟨l, r, p, t₀, m, found, scanned, parsed, rfl, only, ready, rfl⟩ := run_delivers h
  have folder : t.isFolder l = true := by
    obtain ⟨l', located, folder⟩ := (t.hasFolder_iff root).mp project
    rw [((t.find_eq_ok root l).mp found).1] at located
    cases located
    exact folder
  let u := (Program.ofSorted p.outlines).emission.unit.text
  let s := summarize clock (absolute l) (settings.outputFolder (absolute l)) r p
    (Program.ofSorted p.outlines) (Program.ofSorted p.outlines).emission
  let t' := t₀.deliver m u s.text
  have grows : t.Grows t' := only.grows.trans (t₀.grows_deliver m u s.text)
  obtain ⟨r', scanned', sameFiles, sameParsed⟩ :=
    scan_deliver wf only filters ready folder u s.text (wf.find_again found) scanned recover
  let s' : Summary := { s with generatedAt := clock'.generatedAt, timings := clock'.timings }
  -- The first run has made the output folder, so the second one adds no folder.
  have ready' : t'.Ready _ m := ready.deliver u s.text
  obtain ⟨t₁, saved, saved'⟩ := ready'.saves u s'.text
  refine ⟨t'.deliver m u s'.text, m, Text.utf8 u, ?_, rfl, ready.readBytes_unit ..,
    ready'.readBytes_unit .., ready'.located, ?_⟩
  · refine (run_eq_ok ..).mpr ⟨l, r', p, t₁, grows.find found, scanned', ?_, saved, ?_, saved'⟩
    · rw [sameParsed, parsed]
    · exact summarize_again sameFiles ..
  · intro a hu hs
    rw [FileTree.file?_deliver_other _ _ _ hu hs, FileTree.file?_deliver_other _ _ _ hu hs,
      only.file?]

theorem run_again_sample :
    sample.WellFormed ∧ sample.hasFolder "/p" = true ∧
      ∃ t' s, run sample {} { generatedAt := "first" } "/p" = (t', .ok s) ∧
        ∃ t'' m bytes,
          run t' {} { generatedAt := "second" } "/p" =
            (t'', .ok { s with generatedAt := "second", timings := {} }) ∧
          s.outputFile = Path.join (Settings.outputFolder {} s.root) generatedUnitName ∧
          t'.readBytes s.outputFile = .ok bytes ∧ t''.readBytes s.outputFile = .ok bytes ∧
          t'.locate (Settings.outputFolder {} s.root) = .ok m ∧
          ∀ a, a ≠ m ++ [generatedUnitName] → a ≠ m ++ [summaryFileName] →
            t''.file? a = sample.file? a := by
  obtain ⟨t', s, ran, _⟩ := run_sample { generatedAt := "first" }
  have project : sample.hasFolder "/p" = true := by decide +kernel
  exact ⟨wellFormed_sample, project, t', s, ran,
    run_again wellFormed_sample project rfl ran { generatedAt := "second" }⟩

end Forwarding
