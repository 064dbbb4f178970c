import Forwarding.Text.Blank

/-!
Paths as texts with slashes between names. A path that starts with a slash is absolute; repeated
slashes and single dots between names do not matter.
-/

namespace Forwarding.Path

inductive Component where
  /-- The slash in front of an absolute path. -/
  | root
  /-- A dot in front of a relative path. -/
  | current
  /-- Two dots. -/
  | parent
  | name (text : List Char)
  deriving DecidableEq, Repr, Inhabited

def isAbsolute (p : String) : Bool :=
  "/".toList.isPrefixOf p.toList

/-- The texts between the slashes. -/
def pieces (cs : List Char) : List (List Char) :=
  Text.splitAll (· == '/') cs

def joinPieces (ps : List (List Char)) : List Char :=
  ['/'].intercalate ps

/-- A piece that leads nowhere. -/
def isIdle (piece : List Char) : Bool :=
  piece == [] || piece == ['.']

def dropIdleEnd (ps : List (List Char)) : List (List Char) :=
  (ps.reverse.dropWhile isIdle).reverse

def startsCurrent (cs : List Char) : Bool :=
  (pieces cs).head? == some ['.']

/-- The first component of a path when it is not a name. -/
def head (cs : List Char) : List Component :=
  match cs with
  | '/' :: _ => [.root]
  | _ => if startsCurrent cs then [.current] else []

def components (p : String) : List Component :=
  head p.toList ++ ((pieces p.toList).filter fun x => !isIdle x).map fun x =>
    if x == ['.', '.'] then .parent else .name x

/-! ### Cutting paths -/

/-- The text of a path without idle pieces at its end. -/
def trimEnd (cs : List Char) : List Char :=
  match cs with
  | '/' :: rest => '/' :: joinPieces (dropIdleEnd (pieces rest))
  | _ =>
    if startsCurrent cs then '.' :: joinPieces (dropIdleEnd (pieces (cs.drop 1)))
    else joinPieces (dropIdleEnd (pieces cs))

/-- Drops `n` names with the idle pieces before them. -/
def dropNames : Nat → List (List Char) → List (List Char)
  | 0, ps => ps
  | n + 1, ps => dropNames n ((ps.dropWhile isIdle).drop 1)

/-- The path below `root` that leads to `p`. -/
def below? (root p : String) : Option String :=
  let rs := components root
  if rs.isEmpty then some (String.ofList (trimEnd p.toList))
  else if rs.isPrefixOf (components p) then
    let names := rs.length - (head root.toList).length
    let rest := (dropNames names (pieces p.toList)).dropWhile isIdle
    some (String.ofList (joinPieces (dropIdleEnd rest)))
  else none

/-- The folder that holds a path; the root and the empty path have none. -/
def parent? (p : String) : Option String :=
  let cs := p.toList
  match (components p).getLast? with
  | none | some .root => none
  | some .current => some ""
  | some _ =>
    let lead := if isAbsolute p then ['/'] else if startsCurrent cs then ['.'] else []
    let rest := (dropIdleEnd (pieces (cs.drop lead.length))).dropLast
    some (String.ofList (lead ++ joinPieces (dropIdleEnd rest)))

/-! ### Joining and reading paths -/

/-- The path `p` taken from the folder `base`; an absolute path stays itself. -/
def join (base p : String) : String :=
  if isAbsolute p then p
  else if base.isEmpty || base.toList.getLast? == some '/' then base ++ p
  else base ++ "/" ++ p

/-- The path with forward slashes only. -/
def withSlashes (p : String) : String :=
  String.ofList (p.toList.map fun c => if c == '\\' then '/' else c)

/-- The path of `p` below `root` with forward slashes, or `p` itself when it lies elsewhere. -/
def relative (root p : String) : String :=
  withSlashes ((below? root p).getD p)

/-- What follows the last dot of the last name, unless the name starts with that dot. -/
def extension? (p : String) : Option (List Char) :=
  match (components p).getLast? with
  | some (.name text) =>
    match Text.beforeLast ['.'] text with
    | some (c :: before) => some (text.drop ((c :: before).length + 1))
    | _ => none
  | _ => none

/-- Source files end in `.cs`, whatever the case of the letters. -/
def isSource (p : String) : Bool :=
  (extension? p).map (·.map Char.toLower) == some ['c', 's']

end Forwarding.Path
