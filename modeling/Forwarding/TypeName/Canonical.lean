import Forwarding.TypeName.Token
import Forwarding.Usings

/-!
The canonical text of a type: aliases are expanded once, the primitive types of `System` are shown
by their keywords, types of the project by their qualified names, and white space is laid out in
one way. What cannot be placed is kept as written. The types of the project are known by an index of
their simple names.
-/

namespace Forwarding

/-- The pairs of simple and qualified names inserted so far, each once. -/
structure TypeIndex where
  entries : List (String × String) := []
  deriving DecidableEq, Repr, Inhabited

namespace TypeIndex

def insert (ix : TypeIndex) (simple qualified : String) : TypeIndex :=
  if ix.entries.contains (simple, qualified) then ix
  else ⟨ix.entries ++ [(simple, qualified)]⟩

def ofList (pairs : List (String × String)) : TypeIndex :=
  pairs.foldl (fun ix p => ix.insert p.1 p.2) {}

/-- The qualified name, if exactly one type of the project has this simple name. -/
def unique? (ix : TypeIndex) (simple : String) : Option String :=
  match ix.entries.filter (fun e => e.1 = simple) with
  | [e] => some e.2
  | _ => none

end TypeIndex

namespace TypeName

/-- What a type text is read against. -/
structure Context where
  usings : Usings := {}
  index : TypeIndex := {}

/-- The primitive types of `System` with their keywords. -/
def keywordTypes : List (String × String) := [
  ("Boolean", "bool"), ("Byte", "byte"), ("SByte", "sbyte"), ("Char", "char"),
  ("Decimal", "decimal"), ("Double", "double"), ("Single", "float"), ("Int16", "short"),
  ("UInt16", "ushort"), ("Int32", "int"), ("UInt32", "uint"), ("Int64", "long"),
  ("UInt64", "ulong"), ("Object", "object"), ("String", "string"), ("Void", "void")]

/-- The keyword of a primitive type, given with `System.` in front or bare where `System` is
imported. -/
def keyword? (u : Usings) (chain : List Char) : Option (List Char) :=
  match "System.".toList.isPrefixOf? chain with
  | some simple => (keywordTypes.lookup (String.ofList simple)).map (·.toList)
  | none =>
    if u.imports "System" then (keywordTypes.lookup (String.ofList chain)).map (·.toList) else none

/-- The part of a chain before its first dot, and what follows that dot. -/
def headTail (chain : List Char) : List Char × Option (List Char) :=
  match Text.splitAtFirst (· == '.') chain with
  | some (head, tail) => (head, some tail)
  | none => (chain, none)

/-- A chain that starts at the root of all namespaces, without its `global::`. -/
def rooted? (chain : List Char) : Option (List Char) :=
  "global::".toList.isPrefixOf? chain

/-- The canonical name of a rooted chain, given without its `global::`. -/
def rootedName (ctx : Context) (rest : List Char) : List Char :=
  (keyword? ctx.usings rest).getD rest

/-- The canonical name of a chain that is neither rooted nor an alias: a keyword, the qualified name
of a project type, or the chain itself. -/
def placedName (ctx : Context) (chain : List Char) : List Char :=
  match keyword? ctx.usings chain with
  | some keyword => keyword
  | none =>
    match (headTail chain).2 with
    | some _ => chain
    | none => ((ctx.index.unique? (String.ofList chain)).map (·.toList)).getD chain

/-- Lays out tokens with `rename` applied to the names in type position. A name that follows a name
is an element name of a tuple and stays as it is. A comma is followed by a space, except between the
brackets of an array rank. -/
def layout (rename : List Char → List Char) : Bool → Nat → List Token → List Char
  | _, _, [] => []
  | afterName, rank, .name chain :: rest =>
    (if afterName then ' ' :: chain else rename chain) ++ layout rename true rank rest
  | _, rank, .mark ',' :: rest =>
    (if rank = 0 then [',', ' '] else [',']) ++ layout rename false rank rest
  | _, rank, .mark '[' :: rest => '[' :: layout rename false (rank + 1) rest
  | _, rank, .mark ']' :: rest => ']' :: layout rename false (rank - 1) rest
  | _, rank, .mark c :: rest => c :: layout rename false rank rest

/-- The canonical name of a chain where aliases are not expanded. -/
def plainName (ctx : Context) (chain : List Char) : List Char :=
  match rooted? chain with
  | some rest => rootedName ctx rest
  | none => placedName ctx chain

/-- The canonical text of an alias's target; aliases in it are not expanded again. -/
def aliasText (ctx : Context) (target : String) : List Char :=
  layout (plainName ctx) false 0 (tokenize target.toList)

/-- The canonical name of a chain, whose head may be an alias. -/
def canonicalName (ctx : Context) (chain : List Char) : List Char :=
  match rooted? chain with
  | some rest => rootedName ctx rest
  | none =>
    match ctx.usings.alias? (String.ofList (headTail chain).1) with
    | some target =>
      match (headTail chain).2 with
      | some tail => aliasText ctx target ++ '.' :: tail
      | none => aliasText ctx target
    | none => placedName ctx chain

/-- The canonical form of a type text. -/
def canonical (ctx : Context) (raw : String) : String :=
  String.ofList (layout (canonicalName ctx) false 0 (tokenize raw.toList))

end TypeName

end Forwarding
