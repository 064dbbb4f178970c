import Forwarding.FileTree.Basic

/-!
A disk that has more than files and folders. Links lead elsewhere, devices take in all bytes and hold
none of them, and where a file may have only so many bytes, a write that fails has written the front
part of them.
-/

namespace Forwarding

structure Volume where
  tree : FileTree := {}
  /-- The links with the locations that they lead to in the end. -/
  links : List (Location × Location) := []
  /-- The files of the tree that keep nothing of what is written to them. -/
  devices : List Location := []
  /-- The most bytes that a file may have, if there is a bound. -/
  maxFileBytes : Option Nat := none
  deriving DecidableEq, Repr, Inhabited

namespace Volume

/-- The location itself, or where the link that stands there leads. -/
def follow (v : Volume) (l : Location) : Location :=
  (v.links.lookup l).getD l

/-- Follows the steps of a path, and the links that they lead to. -/
def walk (v : Volume) : Location → List Path.Component → Except FileError Location
  | l, [] => .ok l
  | l, c :: cs =>
    match v.tree.step l c with
    | .error e => .error e
    | .ok l => v.walk (v.follow l) cs

/-- Follows the steps of a path to an entry, which may be a link itself. -/
def walkToEntry (v : Volume) : Location → List Path.Component → Except FileError Location
  | l, [] => .ok l
  | l, [c] => v.tree.step l c
  | l, c :: cs =>
    match v.tree.step l c with
    | .error e => .error e
    | .ok l => v.walkToEntry (v.follow l) cs

/-- Follows a path by one of the two ways. -/
def locateBy (v : Volume) (way : Location → List Path.Component → Except FileError Location)
    (p : String) : Except FileError Location :=
  if p.isEmpty then .error .missing
  else if p.toList.contains (Char.ofNat 0) then .error .zeroCharacter
  else way v.tree.here (Path.components p)

/-- Where a path leads, whether something is there or not. -/
def locate (v : Volume) (p : String) : Except FileError Location :=
  v.locateBy v.walk p

def hasFolder (v : Volume) (p : String) : Bool :=
  (v.locate p).toOption.any v.tree.isFolder

/-- Makes the folder that a path leads to. A link is no place for a folder. -/
def makeFolder (v : Volume) (p : String) : Except FileError Volume :=
  match v.locateBy v.walkToEntry p with
  | .error e => .error e
  | .ok l =>
    if (v.links.lookup l).isSome then .error .alreadyThere
    else (v.tree.makeFolderAt l (FileTree.endsInDot p)).map fun tree => { v with tree }

/-- The bytes that fit into a file. -/
def fitting (v : Volume) (bytes : List UInt8) : List UInt8 :=
  match v.maxFileBytes with
  | none => bytes
  | some n => bytes.take n

/-- Writes a file, in place of the one that is there. What does not fit is left out, and the write
fails. -/
def writeBytes (v : Volume) (p : String) (bytes : List UInt8) : Volume × Except FileError Unit :=
  match v.locate p with
  | .error e => (v, .error e)
  | .ok l =>
    match v.tree.writeAt l (FileTree.endsInFolder p) (v.fitting bytes) with
    | .error e => (v, .error e)
    | .ok tree =>
      if v.devices.contains l then (v, .ok ())
      else
        ({ v with tree },
          if (v.fitting bytes).length < bytes.length then .error .tooLarge else .ok ())

/-- What a file holds; a device holds nothing. -/
def readBytes (v : Volume) (p : String) : Except FileError (List UInt8) :=
  match v.locate p with
  | .error e => .error e
  | .ok l => v.tree.readBytes (FileTree.absolute l)

instance : FileSystem Volume where
  makeFolder := makeFolder
  hasFolder := hasFolder
  writeBytes := writeBytes

end Volume

end Forwarding
