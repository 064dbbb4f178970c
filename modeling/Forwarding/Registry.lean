import Forwarding.Emission
import Forwarding.Table
import Forwarding.Text.Blank

/-!
A registry of generated texts by name, kept in memory.
-/

namespace Forwarding

/-- Why a text was not taken. -/
inductive RegistryError where
  | blankName (name : String)
  deriving DecidableEq, Repr, Inhabited

def RegistryError.message : RegistryError → String
  | .blankName name => "host sink rejected `" ++ name ++ "`: empty hint name"

/-- The texts registered so far, each name once. -/
structure Registry where
  entries : List (String × String) := []
  deriving DecidableEq, Repr, Inhabited

namespace Registry

def get? (r : Registry) (name : String) : Option String :=
  r.entries.lookup name

def size (r : Registry) : Nat :=
  r.entries.length

/-- Registers a text; a later one of the same name replaces it. -/
def add (r : Registry) (name text : String) : Except RegistryError Registry :=
  if (Text.trim name.toList).isEmpty then .error (.blankName name)
  else .ok ⟨Table.put name text r.entries⟩

end Registry

/-- Generates and registers the unit, also when it holds no group. -/
def generateInto (f : Forest) (resolve : Resolver) (r : Registry) :
    Except RegistryError (Emission × Registry) :=
  let e := generate f resolve
  (r.add generatedUnitName e.unit.text).map fun r => (e, r)

end Forwarding
