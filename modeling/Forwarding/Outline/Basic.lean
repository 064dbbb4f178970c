import Forwarding.Candidate
import Forwarding.Usings

/-!
The outline of a source file: its `using` directives and its declarations, each nested in the one
that holds it, with types as they are written.
-/

namespace Forwarding

/-- The types and parameters of a method as written. -/
structure Signature where
  returnType : String
  parameters : List Parameter
  deriving DecidableEq, Repr, Inhabited

/-- A declaration with the declarations inside it. -/
structure OutlineItem where
  kind : NodeKind
  /-- The simple name; a namespace keeps its dotted name. -/
  name : String
  modifiers : List String := []
  span : Span := {}
  /-- Present for methods whose parameters could all be read. -/
  signature : Option Signature := none
  children : List OutlineItem := []
  deriving Repr, Inhabited

structure Outline where
  path : String
  usings : Usings := {}
  items : List OutlineItem := []
  /-- The source was not well formed. -/
  hasErrors : Bool := false
  deriving Repr, Inhabited

end Forwarding
