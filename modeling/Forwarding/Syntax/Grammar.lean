import Forwarding.Syntax.Grammar.Declarations
import Forwarding.Syntax.Lexer

/-!
The grammar as a whole, and the syntax tree of a source.
-/

namespace Forwarding.Syntax

/-- The rule of each symbol. -/
def grammar : Sym → SyntaxRule
  | .type => Grammar.type
  | .typeArguments => Grammar.typeArguments
  | .expression => Grammar.expression
  | .guard => Grammar.guard
  | .operand => Grammar.operand
  | .guardOperand => Grammar.guardOperand
  | .primary => Grammar.primary
  | .argument => Grammar.argument
  | .initializer => Grammar.initializer
  | .pattern => Grammar.pattern
  | .tuplePattern => Grammar.tuplePattern
  | .afterCall => Grammar.afterCall
  | .afterName => Grammar.afterName
  | .parameterList => Grammar.parameterList
  | .attributes => Grammar.attributes
  | .block => Grammar.block
  | .statement => Grammar.statement
  | .condition => Grammar.condition
  | .declaration => Grammar.declaration
  | .topItem => Grammar.topItem

/-- No chain of rules goes this deep without taking a token. -/
def depthPerToken : Nat := 500

/-- The items of a source file as trees, or nothing when the source is not well formed. -/
def parse? (source : String) : Option (List Tree) :=
  let ts := lex source
  (Grammar.compilationUnit.parse grammar (depthPerToken * (ts.length + 1)) ts).map (·.1)

end Forwarding.Syntax
