import Forwarding.Table
import Forwarding.Text.Blank

/-!
The `using` directives of a source file and how they are read from their text.
-/

namespace Forwarding

structure Usings where
  /-- `using Alias = Target;`, each alias once. -/
  aliases : List (String × String) := []
  /-- `using Some.Namespace;` in source order. -/
  namespaces : List String := []
  deriving DecidableEq, Repr, Inhabited

namespace Usings

def imports (u : Usings) (ns : String) : Bool :=
  u.namespaces.contains ns

def alias? (u : Usings) (name : String) : Option String :=
  u.aliases.lookup name

/-- A later directive for the same alias wins. -/
def addAlias (u : Usings) (name target : String) : Usings :=
  { u with aliases := Table.put name target u.aliases }

def addNamespace (u : Usings) (ns : String) : Usings :=
  { u with namespaces := u.namespaces ++ [ns] }

/-- The namespaces without the aliases. -/
def withoutAliases (u : Usings) : Usings :=
  { u with aliases := [] }

end Usings

/-- What follows `piece` at the front of a text. -/
def afterPiece? (piece : String) (cs : List Char) : Option (List Char) :=
  if piece.toList.isPrefixOf cs then some (cs.drop piece.toList.length) else none

/-- What a `using` directive names, without the keywords and the semicolons around it. -/
def directiveBody? (raw : String) : Option (List Char) :=
  let cs := Text.trim raw.toList
  let cs := ((afterPiece? "global" cs).map Text.trimStart).getD cs
  (afterPiece? "using" cs).map fun rest =>
    Text.trim ((Text.trim rest).reverse.dropWhile (· == ';')).reverse

/-- Takes in one directive. Static directives name members, not types, and are left out. -/
def Usings.addDirective (u : Usings) (raw : String) : Usings :=
  match directiveBody? raw with
  | none => u
  | some body =>
    if "static ".toList.isPrefixOf body then u
    else
      match Text.splitAtFirst (· == '=') body with
      | some (name, target) =>
        u.addAlias (String.ofList (Text.trim name)) (String.ofList (Text.squash target))
      | none =>
        if body.isEmpty then u else u.addNamespace (String.ofList (Text.squash body))

/-- The directives of a file, later ones winning where aliases clash. -/
def Usings.ofDirectives (raws : List String) : Usings :=
  raws.foldl Usings.addDirective {}

end Forwarding
