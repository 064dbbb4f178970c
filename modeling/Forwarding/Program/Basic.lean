import Forwarding.Outline.Basic

/-!
A program: the forest of several outlines in one numbering, with tables for what the forest has no
room for. Items are numbered as they are met, so numbers follow the order of the outlines and,
inside an outline, the order of the source.
-/

namespace Forwarding

structure Program where
  forest : Forest := {}
  /-- The signatures of methods by their nodes. -/
  signatures : List (NodeId × Signature) := []
  /-- The directives of source files by their nodes. -/
  usings : List (NodeId × Usings) := []
  deriving Repr, Inhabited

namespace Program

mutual

/-- Adds an item and all that it holds below `parent`. -/
def addItem (p : Program) (parent : NodeId) : OutlineItem → Program
  | { kind, name, modifiers, span, signature, children } =>
    let id := p.forest.size
    addItems {
      p with
      forest := p.forest.addChild parent kind name modifiers span
      signatures := p.signatures ++ (signature.map fun s => (id, s)).toList } id children

def addItems (p : Program) (parent : NodeId) : List OutlineItem → Program
  | [] => p
  | item :: items => addItems (addItem p parent item) parent items

end

/-- Adds a source file. -/
def addOutline (p : Program) (o : Outline) : Program :=
  let id := p.forest.size
  addItems {
    p with
    forest := p.forest.addUnit o.path
    usings := p.usings ++ [(id, o.usings)] } id o.items

/-- The program of some source files in the order given. -/
def ofOutlines (os : List Outline) : Program :=
  os.foldl addOutline {}

def signature? (p : Program) (id : NodeId) : Option Signature :=
  p.signatures.lookup id

/-- The directives in force at a node: those of its source file. -/
def usingsAt (p : Program) (id : NodeId) : Usings :=
  ((p.forest.unitOf? id).bind fun unit => p.usings.lookup unit).getD {}

end Program

end Forwarding
