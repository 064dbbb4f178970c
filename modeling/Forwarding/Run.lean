import Forwarding.FileTree.Basic
import Forwarding.OutputFolder
import Forwarding.Scan
import Forwarding.Program.Resolver
import Forwarding.Summary

/-!
A run on a project folder: scan it, generate, and write the unit and the summary of the run to the
output folder.
-/

namespace Forwarding

inductive RunError where
  | missingRoot (root : String)
  | scan (cause : ScanError)
  /-- A parameter could not be read at all. -/
  | parameter (cause : ParameterError)
  | output (cause : OutputError)
  | folderNotMade (folder : String) (cause : FileError)
  | summaryNotWritten (path : String) (cause : FileError)
  deriving DecidableEq, Repr, Inhabited

def RunError.message : RunError → String
  | .missingRoot root => "canonicalize root " ++ root
  | .scan cause => cause.message
  | .parameter _ => "parse task panicked"
  | .output cause => cause.message
  | .folderNotMade folder _ => "create_dir_all " ++ folder
  | .summaryNotWritten path _ => "write " ++ path

/-- When a run took place and how long it took. -/
structure Clock where
  generatedAt : String
  timings : Timings := {}
  deriving DecidableEq, Repr, Inhabited

/-- What has become of the kept files. -/
structure Parsed where
  outlines : List Outline := []
  /-- Files that cannot be read or whose bytes are no text. -/
  failed : Nat := 0
  deriving Repr, Inhabited

/-- Takes in the outline of a kept file, or counts the file as failed. -/
def parseFile (t : FileTree) (recover : Recovery) (p : Parsed) (f : ScannedFile) :
    Except ParameterError Parsed :=
  match t.readText? f.path with
  | none => .ok { p with failed := p.failed + 1 }
  | some text =>
    (Outline.ofSource f.relative text recover).map fun o => { p with outlines := p.outlines ++ [o] }

/-- Reads and parses the kept files, one after another. -/
def parseFiles (t : FileTree) (recover : Recovery) (files : List ScannedFile) :
    Except ParameterError Parsed :=
  files.foldlM (parseFile t recover) {}

/-- Writes the summary to the output folder. -/
def writeSummary (t : FileTree) (folder : String) (s : Summary) :
    FileTree × Except RunError Unit :=
  match t.ensureFolder folder with
  | (t, .error e) => (t, .error (.folderNotMade folder e))
  | (t, .ok _) =>
    let path := Path.join folder summaryFileName
    match t.writeText path s.text with
    | .error e => (t, .error (.summaryNotWritten path e))
    | .ok t => (t, .ok ())

/-- The summary of a run at `root` that kept `scanned` and made `parsed` of it. -/
def summarize (clock : Clock) (root folder : String) (scanned : ScanResult) (parsed : Parsed)
    (p : Program) (e : Emission) : Summary :=
  Summary.ofEmission clock.generatedAt root (Path.join folder generatedUnitName)
    { filesScanned := scanned.files.length
      bytesScanned := scanned.files.foldl (fun n f => n + f.size) 0
      filesParsed := parsed.outlines.length
      filesFailed := parsed.failed
      forestNodes := p.forest.size }
    e clock.timings

/-- Runs on the project at `root`. What was written before something failed stays. -/
def run (t : FileTree) (settings : Settings) (clock : Clock) (root : String)
    (recover : Recovery := .nothing) : FileTree × Except RunError Summary :=
  match t.canonical root with
  | .error _ => (t, .error (.missingRoot root))
  | .ok root =>
    match scan t settings root with
    | .error e => (t, .error (.scan e))
    | .ok scanned =>
      match parseFiles t recover scanned.files with
      | .error e => (t, .error (.parameter e))
      | .ok parsed =>
        let p := Program.ofSorted parsed.outlines
        let e := p.emission
        let folder := settings.outputFolder root
        match ({ path := folder } : OutputFolder).add t generatedUnitName e.unit.text with
        | (t, .error cause) => (t, .error (.output cause))
        | (t, .ok _) =>
          let s := summarize clock root folder scanned parsed p e
          match writeSummary t folder s with
          | (t, .error cause) => (t, .error cause)
          | (t, .ok _) => (t, .ok s)

end Forwarding
