import Forwarding.FileTree.Basic
import Forwarding.Settings.OfYaml

/-!
Loading settings from a file: the one that is named, or else the one with the usual name in the
project's folder, if it is there.
-/

namespace Forwarding

inductive LoadError where
  | notRead (path : String)
  | notParsed (path : String)
  | invalid (cause : SettingsError)
  deriving DecidableEq, Repr, Inhabited

def LoadError.message : LoadError → String
  | .notRead path => "read config " ++ path
  | .notParsed path => "parse config " ++ path
  | .invalid cause => cause.message

/-- The usual name of the file with the settings. -/
def settingsFileName : String := "extgen.yml"

/-- The file to load; a file that is named has to exist. -/
def settingsFile? (t : FileTree) (root : String) (named : Option String) : Option String :=
  match named with
  | some path => some path
  | none =>
    let path := Path.join root settingsFileName
    if t.hasFile path then some path else none

def readSettings (t : FileTree) (path : String) : Except LoadError Settings :=
  match t.readText? path with
  | none => .error (.notRead path)
  | some text =>
    match Settings.ofText? text with
    | none => .error (.notParsed path)
    | some settings => .ok settings

/-- The settings of the project at `root`. -/
def loadSettings (t : FileTree) (root : String) (named : Option String) :
    Except LoadError Settings := do
  let settings ← match settingsFile? t root named with
    | some path => readSettings t path
    | none => .ok {}
  match settings.validate with
  | .ok _ => .ok settings
  | .error cause => .error (.invalid cause)

end Forwarding
