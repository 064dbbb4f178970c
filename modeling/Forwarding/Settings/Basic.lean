import Forwarding.Path

/-!
The settings of a run.
-/

namespace Forwarding

/-- Which source files are left out. -/
structure Filters where
  /-- Leave out generated files, the program's own output among them. -/
  excludeGenerated : Bool := true
  generatedGlobs : List String := ["**/*.g.cs", "**/*.generated.cs"]
  ignoreGlobs : List String := ["**/bin/**", "**/obj/**", "**/.git/**"]
  deriving DecidableEq, Repr, Inhabited

structure Limits where
  /-- The size up to which a source file is read. -/
  maxFileBytes : Nat := 2 * 1024 * 1024
  /-- The number of files that may be read at the same time; the result does not depend on it. -/
  maxConcurrency : Nat := 8
  deriving DecidableEq, Repr, Inhabited

structure Output where
  /-- The folder for the generated unit, seen from the project's folder. -/
  folder : String := "Generated"
  deriving DecidableEq, Repr, Inhabited

structure Settings where
  filters : Filters := {}
  limits : Limits := {}
  output : Output := {}
  deriving DecidableEq, Repr, Inhabited

inductive SettingsError where
  | zeroFileLimit
  | emptyFolder
  deriving DecidableEq, Repr, Inhabited

def SettingsError.message : SettingsError → String
  | .zeroFileLimit => "`max_file_bytes` must be greater than 0"
  | .emptyFolder => "`output.out_dir` must not be empty"

namespace Settings

/-- Settings under which nothing could be generated are refused. -/
def validate (s : Settings) : Except SettingsError Unit :=
  if s.limits.maxFileBytes = 0 then .error .zeroFileLimit
  else if s.output.folder.isEmpty then .error .emptyFolder
  else .ok ()

/-- The output folder of the project at `root`. -/
def outputFolder (s : Settings) (root : String) : String :=
  Path.join root s.output.folder

end Settings

end Forwarding
