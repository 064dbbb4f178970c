import Forwarding.FileTree.Basic
import Forwarding.Glob.Match
import Forwarding.Settings.Basic

/-!
The scan of a project for its source files. Each source file below the project's folder, those in
build and tool folders apart, is kept or counted under the first reason to leave it out.
-/

namespace Forwarding

structure ScannedFile where
  path : String
  /-- The path below the project's folder with forward slashes. -/
  relative : String
  size : Nat
  deriving DecidableEq, Repr, Inhabited

structure ScanResult where
  /-- In the order of their relative paths. -/
  files : List ScannedFile := []
  ignored : Nat := 0
  generated : Nat := 0
  tooBig : Nat := 0
  deriving DecidableEq, Repr, Inhabited

inductive ScanError where
  | missingRoot (root : String)
  deriving DecidableEq, Repr, Inhabited

def ScanError.message : ScanError → String
  | .missingRoot root => "fs_scan: root does not exist: " ++ root

/-- The folders that are never entered. -/
def skippedFolders : List String :=
  [".git", "bin", "obj", "node_modules", ".vs", ".idea", ".vscode"]

/-- The names of the folders between `root` and a location below it, and the location's own name. -/
def namesBelow? (root l : Location) : Option (List String) :=
  if root.isPrefixOf l then some (l.drop root.length) else none

/-- The files below a location that the scan meets, each with its path and size. -/
def FileTree.filesBelow (t : FileTree) (root : String) (l : Location) : List (String × Nat) :=
  t.files.filterMap fun (file, content) =>
    match namesBelow? l file with
    | none => none
    | some [] => some (root, content.size)
    | some names =>
      if names.dropLast.any skippedFolders.contains then none
      else some (Path.join root ("/".intercalate names), content.size)

/-- What the scan does with a source file. -/
inductive Verdict where
  | ignored
  | generated
  | tooBig
  | kept
  deriving DecidableEq, Repr, Inhabited

/-- The patterns of some settings, made ready. -/
structure Patterns where
  ignore : Option (List Glob.Pattern)
  generated : Option (List Glob.Pattern)
  deriving Repr, Inhabited

def Filters.patterns (f : Filters) : Patterns :=
  { ignore := Glob.patterns? f.ignoreGlobs
    generated := if f.excludeGenerated then Glob.patterns? f.generatedGlobs else none }

/-- The first reason to leave a file out, if there is one. -/
def verdict (ps : Patterns) (limits : Limits) (f : ScannedFile) : Verdict :=
  if Glob.anyMatches ps.ignore f.relative then .ignored
  else if Glob.anyMatches ps.generated f.relative then .generated
  else if limits.maxFileBytes < f.size then .tooBig
  else .kept

/-- Sorts files that the scan has met, in whatever order. -/
def classify (settings : Settings) (files : List ScannedFile) : ScanResult :=
  let ps := settings.filters.patterns
  let judged := files.map fun f => (f, verdict ps settings.limits f)
  let having (v : Verdict) := (judged.filter (·.2 == v)).map (·.1)
  { files := (having .kept).mergeSort fun a b => a.relative ≤ b.relative
    ignored := (having .ignored).length
    generated := (having .generated).length
    tooBig := (having .tooBig).length }

/-- The source files among the files that the scan meets. -/
def sourceFiles (root : String) (met : List (String × Nat)) : List ScannedFile :=
  (met.filter fun f => Path.isSource f.1).map fun (path, size) =>
    { path, relative := Path.relative root path, size }

/-- Scans the project at `root`. -/
def scan (t : FileTree) (settings : Settings) (root : String) : Except ScanError ScanResult :=
  match t.find root with
  | .error _ => .error (.missingRoot root)
  | .ok l => .ok (classify settings (sourceFiles root (t.filesBelow root l)))

end Forwarding
