import Forwarding.Forest.Basic
import Forwarding.Text.Blank

/-!
Methods with their types resolved, and the candidates among them: the static methods of type
declarations whose names end in `Extension`. A forwarder carries the name without that suffix.
-/

namespace Forwarding

/-- A parameter: its name, the text of its type and its passing keywords such as `ref`. -/
structure Parameter where
  name : String
  ty : String
  modifiers : List String := []
  deriving DecidableEq, Repr, Inhabited

/-- The type that declares a method. -/
structure Owner where
  node : NodeId
  /-- The simple name, such as `MathOps`. -/
  name : String
  /-- The name used at call sites, such as `Util.MathOps`. -/
  qualifiedName : String
  deriving DecidableEq, Repr, Inhabited

structure MethodSymbol where
  name : String
  parameters : List Parameter
  returnType : String
  containingType : Owner
  modifiers : List String
  deriving DecidableEq, Repr, Inhabited

/-- The method behind a declaration, for those declarations that have one. -/
abbrev Resolver := NodeId → Option MethodSymbol

/-- The end of a name that marks a method for forwarding. -/
def extensionSuffix : String := "Extension"

def hasExtensionSuffix (name : String) : Bool :=
  extensionSuffix.toList.isSuffixOf name.toList

/-- A static method with a marked name whose parent is a type declaration. -/
def Forest.isCandidate (f : Forest) (id : NodeId) : Bool :=
  match f.get? id with
  | none => false
  | some n =>
    n.kind = .method && n.hasModifier "static" && hasExtensionSuffix n.name &&
      (n.parent.bind f.kind?) = some .container

/-- The candidates of a forest in document order. -/
def Forest.candidates (f : Forest) : List NodeId :=
  f.ids.filter f.isCandidate

/-- A resolved method that is to be forwarded. -/
structure Candidate where
  node : NodeId
  owner : Owner
  simpleName : String
  parameters : List Parameter
  returnType : String
  modifiers : List String
  deriving DecidableEq, Repr, Inhabited

namespace Candidate

/-- Refuses a symbol whose name lacks the suffix. -/
def ofSymbol? (node : NodeId) (s : MethodSymbol) : Option Candidate :=
  if hasExtensionSuffix s.name then
    some {
      node, owner := s.containingType, simpleName := s.name, parameters := s.parameters,
      returnType := s.returnType, modifiers := s.modifiers }
  else none

/-- The name of the forwarder: the simple name up to the last occurrence of the suffix. -/
def forwardName (c : Candidate) : String :=
  match Text.beforeLast extensionSuffix.toList c.simpleName.toList with
  | some before => String.ofList before
  | none => c.simpleName

/-- The candidate behind a declaration that resolves to a method with a marked name. -/
def extract? (resolve : Resolver) (id : NodeId) : Option Candidate :=
  (resolve id).bind (ofSymbol? id)

end Candidate

end Forwarding
