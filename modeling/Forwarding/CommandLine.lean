import Forwarding.Environment
import Forwarding.Run
import Forwarding.Settings.Load

/-!
The program as it is called: the project and the file with the settings are named by environment
variables.
-/

namespace Forwarding.CommandLine

inductive Failure where
  | load (cause : LoadError)
  | run (cause : RunError)
  deriving DecidableEq, Repr, Inhabited

def Failure.message : Failure → String
  | .load cause => cause.message
  | .run cause => cause.message

/-- The project's folder; the current one if none is named. -/
def projectRoot (env : Environment) : String :=
  (env.lookup "EXTGEN_ROOT").getD "."

/-- The file with the settings, if one is named. -/
def namedSettings (env : Environment) : Option String :=
  env.lookup "EXTGEN_CONFIG"

/-- Loads the settings and runs. -/
def execute (t : FileTree) (env : Environment) (clock : Clock) :
    FileTree × Except Failure Summary :=
  let env := env.withFile t
  match loadSettings t (projectRoot env) (namedSettings env) with
  | .error e => (t, .error (.load e))
  | .ok settings =>
    match run t settings clock (projectRoot env) with
    | (t, .error e) => (t, .error (.run e))
    | (t, .ok s) => (t, .ok s)

end Forwarding.CommandLine
