import Forwarding.Usings
import Forwarding.Outline.Parameter
import Forwarding.Syntax.Grammar

/-!
The outline of a syntax tree. Namespaces, containers and methods are items; the local functions of a
method are its children, however deep they lie in its body, and those of a statement outside all
declarations stand beside the other items. Conditional code is not looked into, except inside method
bodies. A source that is not well formed has the outline of the trees that a parser could make of it
all the same.
-/

namespace Forwarding

open Syntax

/-- The text of a part with its runs of blanks made single spaces. -/
def squashedText (t : Tree) : String :=
  String.ofList (Text.squash t.text.toList)

/-- The modifiers among the parts of a declaration. -/
def modifiersOf (parts : List Tree) : List String :=
  (parts.filter (·.hasPart .modifier)).map Tree.text

def partText? (parts : List Tree) (p : Part) : Option String :=
  (parts.find? (·.hasPart p)).map Tree.text

/-- The name among the parts of a declaration. -/
def nameOf (parts : List Tree) : String :=
  ((partText? parts .name).map fun s => String.ofList (Text.trim s.toList)).getD ""

/-- The name of a namespace has no blanks. -/
def namespaceNameOf (parts : List Tree) : String :=
  ((partText? parts .name).map fun s => String.ofList (Text.removeBlanks s.toList)).getD ""

/-! ### Signatures -/

/-- A parameter from its parts; where the type is left out its text is read instead. -/
def parameterOf (t : Tree) : Except ParameterError (Option Parameter) :=
  match t.child? .name, t.child? .type with
  | some name, some type =>
    let modifiers := (modifiersOf t.children).filter fun m =>
      passingKeywords.contains m && m != "this"
    let (ty, modifiers) := hoistKeywords (squashedText type) modifiers
    .ok (some { name := name.text, ty, modifiers })
  | _, _ => Parameter.ofText t.text

/-- The parameter that collects the remaining arguments. -/
def parameterArrayOf? (t : Tree) : Option Parameter :=
  match t.child? .name, t.child? .type with
  | some name, some type =>
    some { name := name.text, ty := squashedText type, modifiers := ["params"] }
  | _, _ => none

/-- The parameters of a list in order, or nothing when one of them cannot be read. -/
def parametersOf : List Tree → Except ParameterError (Option (List Parameter))
  | [] => .ok (some [])
  | t :: ts =>
    if t.hasPart .parameter then
      match parameterOf t with
      | .error e => .error e
      | .ok none => .ok none
      | .ok (some p) => (parametersOf ts).map (·.map (p :: ·))
    else (parametersOf ts).map (·.map ((parameterArrayOf? t).toList ++ ·))

/-- The signature among the parts of a method. -/
def signatureOf (parts : List Tree) : Except ParameterError (Option Signature) :=
  match parts.find? (·.hasPart .type), parts.find? (·.hasPart .parameters) with
  | some type, some list =>
    (parametersOf list.children).map (·.map fun parameters =>
      { returnType := squashedText type, parameters })
  | _, _ => .ok none

/-! ### Items -/

/-- The item of a declaration with these parts, its children and signature left out. -/
def itemOf (kind : NodeKind) (name : String) (parts : List Tree) : OutlineItem :=
  { kind, name
    modifiers := modifiersOf parts
    span := (spanOf? (tokensOf parts)).getD {} }

/-- The item of a method with these parts around the local functions `children`. -/
def methodOf (parts : List Tree) (children : List OutlineItem) :
    Except ParameterError OutlineItem :=
  (signatureOf parts).map fun signature =>
    { itemOf .method (nameOf parts) parts with signature, children }

mutual

/-- The local functions in a tree that lie in no other local function of it. -/
def localFunctions : Tree → Except ParameterError (List OutlineItem)
  | .leaf _ => .ok []
  | .node part parts =>
    if part = .localFunction then do
      let inner ← bodyFunctions parts
      return [← methodOf parts inner]
    else localFunctionsOf parts

def localFunctionsOf : List Tree → Except ParameterError (List OutlineItem)
  | [] => .ok []
  | t :: ts => do
    let front ← localFunctions t
    return front ++ (← localFunctionsOf ts)

/-- The local functions in the first body among the parts of a declaration. -/
def bodyFunctions : List Tree → Except ParameterError (List OutlineItem)
  | [] => .ok []
  | .node .body inner :: _ => localFunctionsOf inner
  | _ :: ts => bodyFunctions ts

end

mutual

/-- The items of neighbouring trees. A namespace without a body has what stands in it and adopts all
that follows it. -/
def itemsOf : List Tree → Except ParameterError (List OutlineItem)
  | [] => .ok []
  | .node .fileNamespace parts :: ts => do
    let inside ← itemsOf parts
    let children := inside ++ (← itemsOf ts)
    return [{ itemOf .fileNamespace (namespaceNameOf parts) parts with children }]
  | .node .blockNamespace parts :: ts => do
    let children ← bodyItems parts
    return { itemOf .blockNamespace (namespaceNameOf parts) parts with children } :: (← itemsOf ts)
  | .node .container parts :: ts => do
    let children ← bodyItems parts
    return { itemOf .container (nameOf parts) parts with children } :: (← itemsOf ts)
  | .node .method parts :: ts | .node .localFunction parts :: ts => do
    let item ← methodOf parts (← bodyFunctions parts)
    return item :: (← itemsOf ts)
  | .node .topStatement parts :: ts => do
    let front ← localFunctionsOf parts
    return front ++ (← itemsOf ts)
  | _ :: ts => itemsOf ts

/-- The items in the first body among the parts of a declaration. -/
def bodyItems : List Tree → Except ParameterError (List OutlineItem)
  | [] => .ok []
  | .node .body inner :: _ => itemsOf inner
  | _ :: ts => bodyItems ts

end

mutual

/-- The texts of the `using` directives of neighbouring trees and of the bodies in them. -/
def directivesOf : List Tree → List String
  | [] => []
  | .node .usingDirective parts :: ts => sourceOf (tokensOf parts) :: directivesOf ts
  | .node .fileNamespace parts :: ts => directivesOf parts ++ directivesOf ts
  | .node .blockNamespace parts :: ts => bodyDirectives parts ++ directivesOf ts
  | .node .container parts :: ts => bodyDirectives parts ++ directivesOf ts
  | _ :: ts => directivesOf ts

def bodyDirectives : List Tree → List String
  | [] => []
  | .node .body inner :: _ => directivesOf inner
  | _ :: ts => bodyDirectives ts

end

/-- What a parser makes of a source that is not well formed: trees of what it could read. -/
abbrev Recovery := String → List Tree

/-- Nothing is made of such a source. -/
def Recovery.nothing : Recovery := fun _ => []

/-- The outline of a source file that was read as these trees. -/
def Outline.ofTrees (path : String) (trees : List Tree) (hasErrors : Bool) :
    Except ParameterError Outline := do
  return {
    path, usings := Usings.ofDirectives (directivesOf trees), items := ← itemsOf trees, hasErrors }

/-- The outline of a source file. -/
def Outline.ofSource (path source : String) (recover : Recovery := .nothing) :
    Except ParameterError Outline :=
  let parsed := parse? source
  ofTrees path (parsed.getD (recover source)) parsed.isNone

end Forwarding
