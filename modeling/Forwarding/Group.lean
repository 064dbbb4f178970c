import Forwarding.Candidate
import Forwarding.Forest.Basic

/-!
Groups: the candidates of one type declaration, which share a wrapper class.
-/

namespace Forwarding

/-- What tells two groups apart. -/
structure GroupKey where
  namespacePath : String
  containerName : String
  declaration : NodeId
  deriving DecidableEq, Repr, Inhabited

/-- The candidates of one owner in document order. -/
structure Group where
  key : GroupKey
  owner : Owner
  ownerModifiers : List String
  /-- Empty when the owner lives outside any namespace. -/
  namespacePath : String
  members : List Candidate
  deriving DecidableEq, Repr, Inhabited

namespace Group

/-- The name of the class that holds the forwarders. -/
def wrapperName (g : Group) : String :=
  g.owner.name ++ "Extensions"

end Group

/-- The group that `c` belongs to. -/
def Forest.groupKey (f : Forest) (c : Candidate) : GroupKey :=
  { namespacePath := f.namespacePath c.owner.node
    containerName := c.owner.name
    declaration := c.owner.node }

/-- A group with `c` as its first member. -/
def Forest.openGroup (f : Forest) (c : Candidate) : Group :=
  { key := f.groupKey c
    owner := c.owner
    ownerModifiers := ((f.get? c.owner.node).map (·.modifiers)).getD []
    namespacePath := f.namespacePath c.owner.node
    members := [c] }

/-- Adds `c` to its group, which is opened behind the others when `c` is its first member. -/
def Forest.place (f : Forest) (c : Candidate) : List Group → List Group
  | [] => [f.openGroup c]
  | g :: gs =>
    if g.key = f.groupKey c then { g with members := g.members ++ [c] } :: gs
    else g :: f.place c gs

/-- Groups candidates by owner; groups and members keep the order in which they first occur. -/
def Forest.group (f : Forest) (cs : List Candidate) : List Group :=
  cs.foldl (fun gs c => f.place c gs) []

end Forwarding
