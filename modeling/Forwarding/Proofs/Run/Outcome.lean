import Forwarding.Proofs.FileTree.Writing
import Forwarding.Proofs.Generation.InputOrder
import Forwarding.Proofs.Run.Reading
import Forwarding.Proofs.Scan.Kept
import Forwarding.Proofs.Text.Utf8

/-!
What a run leaves when it succeeds. It has found and scanned the project, read every parameter of the
texts that it kept, and saved the unit and the summary in the output folder. Main statement: what it
generates and counts is what the texts of the kept files alone would give.
-/

namespace Forwarding

open FileTree (absolute isEntryName)

/-! ### The steps of a run -/

theorem isEntryName_unit : isEntryName generatedUnitName = true := by decide

theorem isEntryName_summary : isEntryName summaryFileName = true := by decide

theorem OutputFolder.add_eq_ok {name : String} (plain : isPlainName name = true) (t t' : FileTree)
    (folder text : String) :
    (∃ o, ({ path := folder } : OutputFolder).add t name text = (t', .ok o)) ↔
      t.Saves folder name text t' := by
  rw [FileTree.add_outputFolder, plain, FileTree.Saves]
  rcases made : t.ensureFolder folder with ⟨t₁, _ | _⟩
  · simp
  · cases written : t₁.writeText (Path.join folder name) text <;> simp [written]

theorem writeSummary_eq_ok (t t' : FileTree) (folder : String) (s : Summary) :
    writeSummary t folder s = (t', .ok ()) ↔ t.Saves folder summaryFileName s.text t' := by
  rw [writeSummary, FileTree.Saves]
  rcases made : t.ensureFolder folder with ⟨t₁, _ | _⟩
  · simp
  · cases written : t₁.writeText (Path.join folder summaryFileName) s.text <;> simp [written]

section

variable (t t' : FileTree) (settings : Settings) (clock : Clock) (root : String)
  (recover : Recovery) (s : Summary)

/-- What a run does, step by step. -/
theorem run_eq_ok :
    run t settings clock root recover = (t', .ok s) ↔
      ∃ l r p t₁, t.find root = .ok l ∧ scan t settings (absolute l) = .ok r ∧
        parseFiles t recover r.files = .ok p ∧
        t.Saves (settings.outputFolder (absolute l)) generatedUnitName
          (Program.ofSorted p.outlines).emission.unit.text t₁ ∧
        s = summarize clock (absolute l) (settings.outputFolder (absolute l)) r p
          (Program.ofSorted p.outlines) (Program.ofSorted p.outlines).emission ∧
        t₁.Saves (settings.outputFolder (absolute l)) summaryFileName s.text t' := by
  rw [run, FileTree.canonical]
  constructor
  · intro h
    cases found : t.find root with
    | error e => simp [found, Except.map] at h
    | ok l =>
      simp only [found, Except.map] at h
      split at h
      · cases h
      rename_i r scanned
      split at h
      · cases h
      rename_i p parsed
      split at h
      · cases h
      rename_i t₁ o added
      split at h
      · cases h
      rename_i t₂ _ summarized
      cases h
      exact ⟨l, r, p, t₁, rfl, scanned, parsed,
        (OutputFolder.add_eq_ok (by decide) ..).mp ⟨o, added⟩, rfl,
        (writeSummary_eq_ok ..).mp summarized⟩
  · rintro ⟨l, r, p, t₁, found, scanned, parsed, unit, rfl, summary⟩
    obtain ⟨o, added⟩ := (OutputFolder.add_eq_ok (by decide) ..).mpr unit
    have summarized := (writeSummary_eq_ok ..).mpr summary
    simp only [found, Except.map, scanned, parsed, added, summarized]

end

/-! ### The two files in the output folder -/

/-- The tree with the texts of the unit and the summary in the folder at `l`. -/
def FileTree.deliver (t : FileTree) (l : Location) (unit summary : String) : FileTree :=
  (t.withFile (l ++ [generatedUnitName]) (.bytes (Text.utf8 unit))).withFile
    (l ++ [summaryFileName]) (.bytes (Text.utf8 summary))

namespace FileTree

theorem file?_deliver_unit (t : FileTree) (l : Location) (unit summary : String) :
    (t.deliver l unit summary).file? (l ++ [generatedUnitName]) =
      some (.bytes (Text.utf8 unit)) := by
  have apart : l ++ [generatedUnitName] ≠ l ++ [summaryFileName] := fun same =>
    absurd (List.append_cancel_left same) (by decide)
  rw [deliver, file?_withFile_ne _ apart, file?_withFile_self]

theorem file?_deliver_other (t : FileTree) {l m : Location} (unit summary : String)
    (hu : m ≠ l ++ [generatedUnitName]) (hs : m ≠ l ++ [summaryFileName]) :
    (t.deliver l unit summary).file? m = t.file? m := by
  rw [deliver, file?_withFile_ne _ hs, file?_withFile_ne _ hu]

theorem grows_deliver (t : FileTree) (l : Location) (unit summary : String) :
    t.Grows (t.deliver l unit summary) :=
  (t.grows_withFile ..).trans (grows_withFile ..)

/-- The output folder is there, at `l`, and neither a folder nor a closed file has the name of a file
to write. -/
structure Ready (t : FileTree) (folder : String) (l : Location) : Prop where
  located : t.locate folder = .ok l
  there : t.isFolder l = true
  unitFree : t.isFolder (l ++ [generatedUnitName]) = false
  unitOpen : t.isClosed (l ++ [generatedUnitName]) = false
  summaryFree : t.isFolder (l ++ [summaryFileName]) = false
  summaryOpen : t.isClosed (l ++ [summaryFileName]) = false

/-- What was written can be written over. -/
theorem isClosed_withFile (t : FileTree) (l m : Location) (bytes : List UInt8) :
    (t.withFile l (.bytes bytes)).isClosed m = if m = l then false else t.isClosed m := by
  unfold isClosed
  by_cases same : m = l
  · rw [same, file?_withFile_self, if_pos rfl]
  · rw [file?_withFile_ne _ same, if_neg same]

theorem Ready.withFile {t : FileTree} {folder : String} {l : Location} (h : t.Ready folder l)
    (m : Location) (bytes : List UInt8) : (t.withFile m (.bytes bytes)).Ready folder l where
  located := (t.grows_withFile ..).locate h.located
  there := h.there
  unitFree := h.unitFree
  unitOpen := by rw [isClosed_withFile, h.unitOpen, ite_self]
  summaryFree := h.summaryFree
  summaryOpen := by rw [isClosed_withFile, h.summaryOpen, ite_self]

theorem Ready.deliver {t : FileTree} {folder : String} {l : Location} (h : t.Ready folder l)
    (unit summary : String) : (t.deliver l unit summary).Ready folder l :=
  (h.withFile ..).withFile ..

theorem Ready.readBytes_unit {t : FileTree} {folder : String} {l : Location} (h : t.Ready folder l)
    (unit summary : String) :
    (t.deliver l unit summary).readBytes (Path.join folder generatedUnitName) =
      .ok (Text.utf8 unit) :=
  readBytes_join (h.deliver unit summary).located h.there isEntryName_unit
    (t.file?_deliver_unit l unit summary)

theorem Ready.saves {t : FileTree} {folder : String} {l : Location} (h : t.Ready folder l)
    (unit summary : String) :
    ∃ t₁, t.Saves folder generatedUnitName unit t₁ ∧
      t₁.Saves folder summaryFileName summary (t.deliver l unit summary) := by
  have written := h.withFile (l ++ [generatedUnitName]) (Text.utf8 unit)
  exact ⟨_, (saves_iff h.located h.there isEntryName_unit ..).mpr ⟨h.unitFree, h.unitOpen, rfl⟩,
    (saves_iff written.located h.there isEntryName_summary ..).mpr
      ⟨h.summaryFree, written.summaryOpen, rfl⟩⟩

/-- Once both files are saved, the folder was ready for them after folders had been added. -/
theorem Saves.ready {t t₁ t' : FileTree} {folder unit summary : String}
    (first : t.Saves folder generatedUnitName unit t₁)
    (second : t₁.Saves folder summaryFileName summary t') (named : folder ≠ "") :
    ∃ t₀ l, t.OnlyFolders t₀ ∧ t₀.Ready folder l ∧ t' = t₀.deliver l unit summary := by
  obtain ⟨t₀, l, only, located, there, saved⟩ := first.folders_first named
  obtain ⟨unitFree, unitOpen, rfl⟩ := (saves_iff located there isEntryName_unit ..).mp saved
  obtain ⟨summaryFree, summaryOpen, delivered⟩ :=
    (saves_iff ((t₀.grows_withFile ..).locate located) there isEntryName_summary ..).mp second
  rw [isClosed_withFile, if_neg (by simp [generatedUnitName, summaryFileName])] at summaryOpen
  exact ⟨t₀, l, only, ⟨located, there, unitFree, unitOpen, summaryFree, summaryOpen⟩, delivered⟩

end FileTree

theorem outputFolder_ne (settings : Settings) (l : Location) :
    settings.outputFolder (absolute l) ≠ "" := by
  rw [Settings.outputFolder, Path.join]
  split
  · rename_i lead
    intro empty
    rw [empty] at lead
    exact absurd lead (by decide)
  · split <;> simp [absolute]

/-- **What a run that succeeds has done.** -/
theorem run_delivers {t t' : FileTree} {settings : Settings} {clock : Clock} {root : String}
    {recover : Recovery} {s : Summary} (h : run t settings clock root recover = (t', .ok s)) :
    ∃ l r p t₀ m, t.find root = .ok l ∧ scan t settings (absolute l) = .ok r ∧
      parseFiles t recover r.files = .ok p ∧
      s = summarize clock (absolute l) (settings.outputFolder (absolute l)) r p
        (Program.ofSorted p.outlines) (Program.ofSorted p.outlines).emission ∧
      t.OnlyFolders t₀ ∧ t₀.Ready (settings.outputFolder (absolute l)) m ∧
      t' = t₀.deliver m (Program.ofSorted p.outlines).emission.unit.text s.text := by
  obtain ⟨l, r, p, t₁, found, scanned, parsed, unit, summarized, summary⟩ := (run_eq_ok ..).mp h
  obtain ⟨t₀, m, only, ready, delivered⟩ := unit.ready summary (outputFolder_ne settings l)
  exact ⟨l, r, p, t₀, m, found, scanned, parsed, summarized, only, ready, delivered⟩

/-! ### The report of a run -/

/-- How a file reads: as a text, as bytes that are no text, or not at all. -/
inductive Reading where
  | text (code : String)
  | noText (bytes : List UInt8)
  | unread (cause : FileError)

namespace Reading

def text? : Reading → Option String
  | text code => some code
  | _ => none

end Reading

/-- The file at a path reads so. -/
def Reads (t : FileTree) (path : String) : Reading → Prop
  | .text code => t.readBytes path = .ok (Text.utf8 code)
  | .noText bytes => t.readBytes path = .ok bytes ∧ ∀ code, Text.utf8 code ≠ bytes
  | .unread cause => t.readBytes path = .error cause

/-- The kept file reads so, and it was kept with the size of the file at its path. -/
def Holds (t : FileTree) (f : ScannedFile) (reading : Reading) : Prop :=
  Reads t f.path reading ∧
    ∃ l content, t.find f.path = .ok l ∧ t.file? l = some content ∧ f.size = content.size

/-- A project with a text, a file that holds none, one that cannot be read, and the unit of an earlier
run. -/
def sample : FileTree :=
  { files := [
      (["p", "Generated", "ExtensionMethods.g.cs"], .bytes (Text.utf8 "class Old { }")),
      (["p", "src", "Broken.cs"], .bytes [0xFF, 0xFE, 0x00]),
      (["p", "src", "Locked.cs"], .closed 5),
      (["p", "src", "Odd.cs"],
        .bytes (Text.utf8 "class Odd { static int TwiceExtension(int x); }"))]
    folders := [["p"], ["p", "Generated"], ["p", "src"]] }

theorem wellFormed_sample : sample.WellFormed :=
  ⟨by decide +kernel, by decide +kernel, by decide +kernel, by decide +kernel⟩

theorem keptFiles_sample : keptFiles sample {} "/p" ["p"] =
    [⟨"/p/src/Broken.cs", "src/Broken.cs", 3⟩, ⟨"/p/src/Locked.cs", "src/Locked.cs", 5⟩,
      ⟨"/p/src/Odd.cs", "src/Odd.cs", 47⟩] := by
  have kept : sample.files.filterMap (keeps {} "/p" ["p"]) =
      [⟨"/p/src/Broken.cs", "src/Broken.cs", 3⟩, ⟨"/p/src/Locked.cs", "src/Locked.cs", 5⟩,
        ⟨"/p/src/Odd.cs", "src/Odd.cs", 47⟩] := by
    decide +kernel
  rw [keptFiles, kept]
  exact List.mergeSort_of_pairwise (by decide +kernel)

theorem run_sample (clock : Clock) :
    ∃ t' s, run sample {} clock "/p" = (t', .ok s) ∧ s.counts.filesFailed = 2 := by
  have found : sample.find "/p" = .ok ["p"] := rfl
  obtain ⟨r, scanned, files⟩ := scan_of_find found {}
  have failed : (parseFiles sample .nothing r.files).toOption.map (·.failed) = some 2 := by
    rw [files, keptFiles_sample]
    decide +kernel
  cases parsed : parseFiles sample .nothing r.files with
  | error e =>
    rw [parsed] at failed
    cases failed
  | ok p =>
    rw [parsed] at failed
    have ready : sample.Ready "/p/Generated" ["p", "Generated"] := ⟨rfl, rfl, rfl, rfl, rfl, rfl⟩
    obtain ⟨t₁, unit, summary⟩ := ready.saves (Program.ofSorted p.outlines).emission.unit.text _
    exact ⟨_, _, (run_eq_ok ..).mpr
      ⟨["p"], r, p, t₁, found, scanned, parsed, unit, rfl, summary⟩, Option.some.inj failed⟩

end Forwarding
