import Forwarding.CommandLine
import Forwarding.Disk
import Forwarding.Timestamp
import Std.Time.DateTime.Timestamp

/-!
The command. It takes in what a run looks at, runs, and writes what the run made.
-/

namespace Forwarding.CommandLine

/-- The variables that a run can ask for: its own, and those that a file of variables refers to. -/
def readVariables (t : FileTree) : IO Environment := do
  let files := (Environment.upwards t.here).map fun l => FileTree.absolute (l ++ [".env"])
  let mentioned := files.flatMap fun path =>
    Environment.mentioned ((t.readText? path).getD "").toList
  let mut env := []
  for name in ["EXTGEN_ROOT", "EXTGEN_CONFIG"] ++ mentioned do
    if let some value ← IO.getEnv name then env := env ++ [(name, value)]
  return env

/-- Takes in the project, its settings, and what stands where the output goes. -/
def readProject (t : FileTree) (env : Environment) : IO FileTree := do
  let root := projectRoot env
  let mut t ← Disk.addPath t root
  t ← Disk.addPath t ((namedSettings env).getD (Path.join root settingsFileName))
  match t.find root, loadSettings t root (namedSettings env) with
  | .ok l, .ok settings =>
    t ← Disk.addBelow t [] l
    let folder := settings.outputFolder (FileTree.absolute l)
    t ← Disk.addPath t (Path.join folder generatedUnitName)
    Disk.addPath t (Path.join folder summaryFileName)
  | _, _ => return t

def readClock (start : Nat) : IO Clock := do
  let now ← Std.Time.Timestamp.now
  let elapsed := (← IO.monoMsNow) - start
  return {
    generatedAt := Timestamp.text now.toNanosecondsSinceUnixEpoch.val.toNat
    timings := { scan := elapsed, total := elapsed } }

end Forwarding.CommandLine

open Forwarding in
def main : IO UInt32 := do
  let start ← IO.monoMsNow
  let mut t ← Disk.emptyTree
  t ← Disk.addPath t (FileTree.absolute t.here)
  for l in Environment.upwards t.here do
    t ← Disk.addEntry t (l ++ [".env"])
  let env ← CommandLine.readVariables t
  t ← CommandLine.readProject t (env.withFile t)
  let (after, result) := CommandLine.execute t env (← CommandLine.readClock start)
  Disk.writeChanges t after
  match result with
  | .ok _ => return 0
  | .error e =>
    IO.eprintln ("Error: " ++ e.message)
    return 1
