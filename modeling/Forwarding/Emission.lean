import Forwarding.Group

/-!
The generated source unit. Each group with a member left to forward becomes one wrapper class,
inside its namespace if it has one, and groups are set apart by blank lines:

```text
// <auto-generated/>

namespace Util
{
    public static class MathOpsExtensions
    {
        public static int Add(this int x, int y) => Util.MathOps.AddExtension(x, y);
    }
}
```
-/

namespace Forwarding

/-- The fixed name under which the generated unit is registered. -/
def generatedUnitName : String := "ExtensionMethods.g.cs"

/-- Why a candidate was not forwarded as it stands. -/
inductive DiagnosticCode where
  /-- Nothing is left of the name without the suffix, so there is no forwarder. -/
  | emptyForwardName
  /-- There is no parameter to extend, so the forwarder has no receiver. -/
  | missingReceiver
  deriving DecidableEq, Repr, Inhabited

structure Diagnostic where
  code : DiagnosticCode
  message : String
  node : NodeId
  deriving DecidableEq, Repr, Inhabited

/-- The generated text with the numbers of wrapper classes and forwarders in it. -/
structure GeneratedUnit where
  text : String
  groups : Nat
  members : Nat
  deriving DecidableEq, Repr, Inhabited

structure Emission where
  unit : GeneratedUnit
  diagnostics : List Diagnostic
  deriving DecidableEq, Repr, Inhabited

namespace Candidate

def emptyNameDiagnostic (c : Candidate) : Diagnostic :=
  { code := .emptyForwardName
    message := "`" ++ c.owner.qualifiedName ++ "." ++ c.simpleName ++
      "` has no name left once the suffix is removed; no forwarder generated"
    node := c.node }

def missingReceiverDiagnostic (c : Candidate) : Diagnostic :=
  { code := .missingReceiver
    message := "`" ++ c.owner.qualifiedName ++ "." ++ c.simpleName ++
      "` has no parameters; forwarded without a receiver"
    node := c.node }

end Candidate

namespace Parameter

/-- A parameter as the forwarder declares it; the first one is the receiver. -/
def declared (p : Parameter) (receiver : Bool) : String :=
  " ".intercalate ((if receiver then ["this"] else []) ++ p.modifiers ++ [p.ty, p.name])

/-- The passing keywords that a call repeats. -/
def isCallKeyword (m : String) : Bool :=
  m == "ref" || m == "out" || m == "in"

/-- A parameter as the forwarder passes it on. -/
def argument (p : Parameter) : String :=
  match p.modifiers.find? isCallKeyword with
  | some m => m ++ " " ++ p.name
  | none => p.name

/-- The parameter list of a forwarder. -/
def declareAll : List Parameter → List String
  | [] => []
  | p :: ps => p.declared true :: ps.map (·.declared false)

end Parameter

/-- The forwarder as one line of source, without indentation. -/
def Candidate.forwarder (c : Candidate) : String :=
  " ".intercalate (c.modifiers ++ [c.returnType, c.forwardName]) ++
    "(" ++ ", ".intercalate (Parameter.declareAll c.parameters) ++ ") => " ++
    c.owner.qualifiedName ++ "." ++ c.simpleName ++
    "(" ++ ", ".intercalate (c.parameters.map (·.argument)) ++ ");"

namespace Group

/-- The members that have a forwarder. -/
def rendered (g : Group) : List Candidate :=
  g.members.filter fun c => !c.forwardName.isEmpty

/-- The owner's modifiers; a wrapper class is always static. -/
def wrapperModifiers (g : Group) : List String :=
  if g.ownerModifiers.contains "static" then g.ownerModifiers else g.ownerModifiers ++ ["static"]

/-- The line that declares the wrapper class, without indentation. -/
def wrapperLine (g : Group) : String :=
  " ".intercalate g.wrapperModifiers ++ " class " ++ g.wrapperName

/-- The wrapper class, each line indented by `pad`. -/
def classLines (g : Group) (pad : String) : List String :=
  [pad ++ g.wrapperLine, pad ++ "\x7b"] ++
    g.rendered.map (fun c => pad ++ "    " ++ c.forwarder) ++ [pad ++ "\x7d"]

/-- The lines of a group that has members to forward. -/
def lines (g : Group) : List String :=
  if g.namespacePath.isEmpty then g.classLines ""
  else ["namespace " ++ g.namespacePath, "\x7b"] ++ g.classLines "    " ++ ["\x7d"]

/-- A group takes up space only if it has a member to forward; a blank line comes first. -/
def block (g : Group) : List String :=
  if g.rendered.isEmpty then [] else "" :: g.lines

/-- The rejected members come first, then the forwarded ones that lack a receiver. -/
def diagnostics (g : Group) : List Diagnostic :=
  (g.members.filter fun c => c.forwardName.isEmpty).map (·.emptyNameDiagnostic) ++
    (g.rendered.filter fun c => c.parameters.isEmpty).map (·.missingReceiverDiagnostic)

end Group

/-- The first line of every generated unit. -/
def unitHeader : String := "// <auto-generated/>"

/-- The lines of the unit generated for `gs`. -/
def unitLines (gs : List Group) : List String :=
  unitHeader :: gs.flatMap (·.block)

/-- A text of whole lines. -/
def joinLines (ls : List String) : String :=
  String.join (ls.map (· ++ "\n"))

/-- Renders the groups in order into one unit. -/
def emit (gs : List Group) : Emission :=
  { unit := {
      text := joinLines (unitLines gs)
      groups := (gs.filter fun g => !g.rendered.isEmpty).length
      members := (gs.flatMap (·.rendered)).length }
    diagnostics := gs.flatMap (·.diagnostics) }

/-- The whole way from a forest to its generated unit. -/
def generate (f : Forest) (resolve : Resolver) : Emission :=
  emit (f.group (f.candidates.filterMap (Candidate.extract? resolve)))

end Forwarding
