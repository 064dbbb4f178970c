import Forwarding.Syntax.Tree

/-!
The declaration forest: every source file is a root, and namespaces, type declarations and methods
hang below it. Nodes are numbered in the order in which they are added, so a parent always has a
smaller number than its children and ascending numbers are document order. The namespace that a
declaration lives in is read off the nodes above it.
-/

namespace Forwarding

/-- The number of a node; it need not exist in a given forest. -/
abbrev NodeId := Nat

/-- What a node of the forest declares. -/
inductive NodeKind where
  /-- One source file, named by its path. -/
  | compilationUnit
  /-- A namespace with a body, `namespace A { }`. -/
  | blockNamespace
  /-- A namespace that covers the rest of its file, `namespace A;`. -/
  | fileNamespace
  /-- A class, structure, record or interface. -/
  | container
  /-- A method or local function. -/
  | method
  deriving DecidableEq, Repr, Inhabited

def NodeKind.isNamespace : NodeKind → Bool
  | .blockNamespace | .fileNamespace => true
  | _ => false

/-- A declaration with its links: the parent, and the children in the order of their numbers. -/
structure Node where
  kind : NodeKind
  name : String
  modifiers : List String := []
  parent : Option NodeId := none
  children : List NodeId := []
  span : Span := {}
  deriving DecidableEq, Repr, Inhabited

def Node.hasModifier (n : Node) (token : String) : Bool :=
  n.modifiers.contains token

/-- The nodes of all source files of one compilation, by number. -/
structure Forest where
  nodes : Array Node := #[]
  deriving DecidableEq, Repr, Inhabited

namespace Forest

def empty : Forest := {}

def size (f : Forest) : Nat :=
  f.nodes.size

def get? (f : Forest) (id : NodeId) : Option Node :=
  f.nodes[id]?

def kind? (f : Forest) (id : NodeId) : Option NodeKind :=
  (f.get? id).map (·.kind)

def parent? (f : Forest) (id : NodeId) : Option NodeId :=
  (f.get? id).bind (·.parent)

/-- All numbers in use, in document order. -/
def ids (f : Forest) : List NodeId :=
  List.range f.size

/-- Adds a source file; its number is the old size. -/
def addUnit (f : Forest) (path : String) : Forest :=
  ⟨f.nodes.push { kind := .compilationUnit, name := path }⟩

/-- Lists `child` as the last child of `parent`. -/
def link (f : Forest) (parent child : NodeId) : Forest :=
  ⟨f.nodes.modify parent fun n => { n with children := n.children ++ [child] }⟩

/-- Adds a declaration below `parent`; its number is the old size. A parent that does not exist
leaves the declaration without one. -/
def addChild (f : Forest) (parent : NodeId) (kind : NodeKind) (name : String)
    (modifiers : List String) (span : Span) : Forest :=
  if parent < f.size then
    let f' := f.link parent f.size
    ⟨f'.nodes.push { kind, name, modifiers, parent := some parent, span }⟩
  else
    ⟨f.nodes.push { kind, name, modifiers, span }⟩

/-- The first `n` steps of the walk from `id` towards its root. -/
def climb (f : Forest) : Nat → NodeId → List NodeId
  | 0, _ => []
  | n + 1, id =>
    match f.parent? id with
    | none => []
    | some p => p :: f.climb n p

/-- The nodes above `id`, nearest first. A parent precedes its child, so the walk is shorter than
the forest is large. -/
def ancestors (f : Forest) (id : NodeId) : List NodeId :=
  f.climb f.size id

/-- The source file that holds `id`, which may be `id` itself. -/
def unitOf? (f : Forest) (id : NodeId) : Option NodeId :=
  if f.kind? id = some .compilationUnit then some id
  else (f.ancestors id).find? fun a => f.kind? a = some .compilationUnit

/-- The names of the block namespaces at the front of a walk upwards, outermost last. -/
def blockNames (f : Forest) : List NodeId → List String
  | [] => []
  | a :: rest =>
    match f.get? a with
    | some n => if n.kind = .blockNamespace then n.name :: f.blockNames rest else []
    | none => []

/-- The namespace path read off a walk upwards. -/
def namespaceAlong (f : Forest) : List NodeId → String
  | [] => ""
  | a :: rest =>
    match f.get? a with
    | none => f.namespaceAlong rest
    | some n =>
      match n.kind with
      | .fileNamespace => n.name
      | .blockNamespace => ".".intercalate (n.name :: f.blockNames rest).reverse
      | _ => f.namespaceAlong rest

/-- The dotted namespace path that encloses `id`, or the empty text. The nearest namespace decides:
a file namespace is the whole path, a block namespace is preceded by the block namespaces that
directly enclose it. -/
def namespacePath (f : Forest) (id : NodeId) : String :=
  f.namespaceAlong (f.ancestors id)

end Forest

end Forwarding
