import Forwarding.Syntax.Token

/-!
Syntax trees. The leaves are tokens; a node is marked only where something later asks for it, and
all else is left as a flat run of leaves and nodes.
-/

namespace Forwarding

/-- A stretch of source: lines count from one, byte offsets from zero, the end is exclusive. -/
structure Span where
  startLine : Nat := 0
  endLine : Nat := 0
  startByte : Nat := 0
  endByte : Nat := 0
  deriving DecidableEq, Repr, Inhabited

namespace Syntax

/-- What a node of a syntax tree is. -/
inductive Part where
  | usingDirective
  | blockNamespace
  | fileNamespace
  /-- A class, structure, record or interface. -/
  | container
  | method
  | localFunction
  /-- Any other declaration; in a source that is not well formed, also what fits no rule. -/
  | member
  /-- A statement outside all declarations. -/
  | topStatement
  /-- The code between `#if` and `#endif`. -/
  | region
  | modifier
  | type
  | name
  | parameters
  | parameter
  /-- A parameter that collects the remaining arguments, `params int[] rest`. -/
  | parameterArray
  /-- A function without a name inside an expression. -/
  | lambda
  | body
  deriving DecidableEq, Repr, Inhabited

inductive Tree where
  | leaf (t : Token)
  | node (part : Part) (children : List Tree)
  deriving Repr, Inhabited

mutual

/-- The leaves of a tree from left to right. -/
def Tree.tokens : Tree → List Token
  | .leaf t => [t]
  | .node _ children => tokensOf children

/-- The leaves of a row of trees from left to right. -/
def tokensOf : List Tree → List Token
  | [] => []
  | t :: ts => t.tokens ++ tokensOf ts

end

/-- The source from the first to the last of some neighbouring tokens. -/
def sourceOf : List Token → String
  | [] => ""
  | t :: ts => t.text ++ String.join (ts.map fun u => u.lead ++ u.text)

/-- The stretch from the first to the last of some neighbouring tokens. -/
def spanOf? (ts : List Token) : Option Span :=
  match ts.head?, ts.getLast? with
  | some first, some last =>
    some {
      startLine := first.start.line, endLine := last.stop.line
      startByte := first.start.byte, endByte := last.stop.byte }
  | _, _ => none

namespace Tree

/-- The source a tree covers, comments inside it included. -/
def text (t : Tree) : String :=
  sourceOf t.tokens

def span? (t : Tree) : Option Span :=
  spanOf? t.tokens

def hasPart (p : Part) : Tree → Bool
  | .node q _ => p = q
  | .leaf _ => false

def children : Tree → List Tree
  | .node _ children => children
  | .leaf _ => []

/-- The first child that is the given part. -/
def child? (t : Tree) (p : Part) : Option Tree :=
  t.children.find? (·.hasPart p)

end Tree

end Syntax

end Forwarding
