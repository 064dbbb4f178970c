import Forwarding.Emission
import Forwarding.Outline.OfTree
import Forwarding.Program.Basic
import Forwarding.TypeName.Canonical

/-!
Resolving the methods of a program. Types are resolved by their text, with the directives of the
file and the index of all types the program declares. Sources are taken in the order of their paths,
so the order in which they are given does not show in the generated unit.
-/

namespace Forwarding

/-- The namespace of a container, the containers directly around it from the outside in, and its
own name. -/
def Forest.qualifiedName (f : Forest) (id : NodeId) : String :=
  let around := (f.ancestors id).takeWhile fun a => f.kind? a = some .container
  let ns := f.namespacePath id
  ".".intercalate (
    (if ns.isEmpty then [] else [ns]) ++
      around.reverse.filterMap (fun a => (f.get? a).map (·.name)) ++
      ((f.get? id).map (·.name)).toList)

namespace Program

/-- The qualified name of a node that declares a type with a name. -/
def qualifiedName? (p : Program) (id : NodeId) : Option String :=
  match p.forest.get? id with
  | some n =>
    if n.kind = .container && !n.name.isEmpty then some (p.forest.qualifiedName id) else none
  | none => none

/-- The index of all types the program declares. -/
def typeIndex (p : Program) : TypeIndex :=
  TypeIndex.ofList (p.forest.ids.filterMap fun id =>
    match p.forest.get? id, p.qualifiedName? id with
    | some n, some q => some (n.name, q)
    | _, _ => none)

/-- A method by its declaration, its types resolved against `index`. Only a method directly inside
a type has an owner to forward to. -/
def resolveWith (p : Program) (index : TypeIndex) (id : NodeId) : Option MethodSymbol := do
  let node ← p.forest.get? id
  let signature ← p.signature? id
  if node.name.isEmpty then none
  let ownerId ← node.parent
  let owner ← p.forest.get? ownerId
  let qualifiedName ← p.qualifiedName? ownerId
  let ctx : TypeName.Context := { usings := p.usingsAt id, index }
  return {
    name := node.name
    parameters := signature.parameters.map fun q => { q with ty := TypeName.canonical ctx q.ty }
    returnType := TypeName.canonical ctx signature.returnType
    containingType := { node := ownerId, name := owner.name, qualifiedName }
    modifiers := node.modifiers }

/-- The methods of a program. -/
def resolver (p : Program) : Resolver :=
  p.resolveWith p.typeIndex

/-- What is generated for a program. The index is made once for all methods. -/
def emission (p : Program) : Emission :=
  let index := p.typeIndex
  generate p.forest (p.resolveWith index)

end Program

/-- Outlines in the order of their paths; equal paths keep their order. -/
def sortOutlines (os : List Outline) : List Outline :=
  os.mergeSort fun a b => a.path ≤ b.path

/-- The program of some outlines, whatever order they come in. -/
def Program.ofSorted (os : List Outline) : Program :=
  Program.ofOutlines (sortOutlines os)

/-- What is generated for sources given as paths and texts. -/
def generateSources (files : List (String × String)) (recover : Recovery := .nothing) :
    Except ParameterError Emission := do
  let outlines ← files.mapM fun (path, source) => Outline.ofSource path source recover
  return (Program.ofSorted outlines).emission

end Forwarding
