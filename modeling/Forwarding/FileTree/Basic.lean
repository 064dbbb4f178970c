import Forwarding.FileSystem
import Forwarding.Table

/-!
A tree of files and folders, and the operations on it that the program needs. Files and folders are
kept by their locations, the names on the way down from the root. Paths are followed step by step:
every step but the last needs a folder to start from, and two dots go up.
-/

namespace Forwarding

/-- The names on the way from the root to a file or folder. -/
abbrev Location := List String

/-- What a file shows of itself. -/
inductive Content where
  | bytes (bs : List UInt8)
  /-- The file can be neither read nor written; its size is known all the same. -/
  | closed (size : Nat)
  deriving DecidableEq, Repr, Inhabited

def Content.size : Content → Nat
  | .bytes bs => bs.length
  | .closed n => n

def Content.read : Content → Except FileError (List UInt8)
  | .bytes bs => .ok bs
  | .closed _ => .error .denied

structure FileTree where
  /-- The files with what they hold, each location once. -/
  files : List (Location × Content) := []
  /-- The folders without the root, which is always there. -/
  folders : List Location := []
  /-- The folder that relative paths start from. -/
  here : Location := []
  deriving DecidableEq, Repr, Inhabited

namespace FileTree

def file? (t : FileTree) (l : Location) : Option Content :=
  t.files.lookup l

def isFolder (t : FileTree) (l : Location) : Bool :=
  l.isEmpty || t.folders.contains l

def isFile (t : FileTree) (l : Location) : Bool :=
  (t.file? l).isSome

def isClosed (t : FileTree) (l : Location) : Bool :=
  match t.file? l with
  | some (.closed _) => true
  | _ => false

/-- The most bytes that a name may have. -/
def maxNameBytes : Nat := 255

/-! ### Following paths -/

/-- Something can be looked up below a folder only. -/
def checkFolder (t : FileTree) (l : Location) : Except FileError Unit :=
  if t.isFolder l then .ok ()
  else if t.isFile l then .error .notFolder
  else .error .missing

/-- Where one step of a path leads. Every step but the one to the root starts from a folder. -/
def step (t : FileTree) (l : Location) : Path.Component → Except FileError Location
  | .root => .ok []
  | .current => (t.checkFolder l).map fun _ => l
  | .parent => (t.checkFolder l).map fun _ => l.dropLast
  | .name text =>
    match t.checkFolder l with
    | .error e => .error e
    | .ok _ =>
      if maxNameBytes < (Text.utf8 (String.ofList text)).length then .error .nameTooLong
      else .ok (l ++ [String.ofList text])

/-- Follows the steps of a path. What the last step leads to need not exist. -/
def walk (t : FileTree) : Location → List Path.Component → Except FileError Location
  | l, [] => .ok l
  | l, c :: cs =>
    match t.step l c with
    | .error e => .error e
    | .ok l => t.walk l cs

/-- The path demands a folder: it ends with a slash or a dot. -/
def endsInFolder (p : String) : Bool :=
  (Path.pieces p.toList).getLast?.any Path.isIdle

/-- Where a path leads, whether something is there or not. -/
def locate (t : FileTree) (p : String) : Except FileError Location :=
  if p.isEmpty then .error .missing
  else if p.toList.contains (Char.ofNat 0) then .error .zeroCharacter
  else t.walk t.here (Path.components p)

/-- Where a path leads, if something is there. -/
def find (t : FileTree) (p : String) : Except FileError Location :=
  match t.locate p with
  | .error e => .error e
  | .ok l =>
    if t.isFolder l then .ok l
    else if t.isFile l then
      if endsInFolder p then .error .notFolder else .ok l
    else .error .missing

def hasFolder (t : FileTree) (p : String) : Bool :=
  (t.find p).toOption.any t.isFolder

def hasFile (t : FileTree) (p : String) : Bool :=
  (t.find p).toOption.any t.isFile

/-- The absolute path of a location. -/
def absolute (l : Location) : String :=
  "/" ++ "/".intercalate l

/-- The absolute path of what a path leads to. -/
def canonical (t : FileTree) (p : String) : Except FileError String :=
  (t.find p).map absolute

/-! ### Reading and writing -/

def readBytes (t : FileTree) (p : String) : Except FileError (List UInt8) :=
  match t.find p with
  | .error e => .error e
  | .ok l =>
    match t.file? l with
    | some content => content.read
    | none => .error .isFolder

/-- The text of a file; there is none when it cannot be read or its bytes are no text. -/
def readText? (t : FileTree) (p : String) : Option String :=
  (t.readBytes p).toOption.bind Text.ofUtf8?

/-- Makes the folder at a location; `dotted` says that its path ends in a dot. -/
def makeFolderAt (t : FileTree) (l : Location) (dotted : Bool) : Except FileError FileTree :=
  if t.isFolder l || t.isFile l then
    if dotted && t.isFile l then .error .notFolder else .error .alreadyThere
  else if dotted then .error .missing
  else
    match t.checkFolder l.dropLast with
    | .error e => .error e
    | .ok _ => .ok { t with folders := t.folders ++ [l] }

def endsInDot (p : String) : Bool :=
  (Path.pieces p.toList).getLast? == some ['.']

/-- Makes the folder that a path leads to. The folder around it has to exist. -/
def makeFolder (t : FileTree) (p : String) : Except FileError FileTree :=
  match t.locate p with
  | .error e => .error e
  | .ok l => t.makeFolderAt l (endsInDot p)

/-- The tree with a file, in place of the one that is there. -/
def withFile (t : FileTree) (l : Location) (content : Content) : FileTree :=
  { t with files := Table.put l content t.files }

/-- Writes the file at a location; `folder` says that its path demands a folder. -/
def writeAt (t : FileTree) (l : Location) (folder : Bool) (bytes : List UInt8) :
    Except FileError FileTree :=
  if t.isFolder l then .error .isFolder
  else if folder then
    if t.isFile l then .error .notFolder else .error .isFolder
  else
    match t.checkFolder l.dropLast with
    | .error e => .error e
    | .ok _ => if t.isClosed l then .error .denied else .ok (t.withFile l (.bytes bytes))

/-- Writes a file, in place of the one that is there. -/
def writeBytes (t : FileTree) (p : String) (bytes : List UInt8) : Except FileError FileTree :=
  match t.locate p with
  | .error e => .error e
  | .ok l => t.writeAt l (endsInFolder p) bytes

def writeText (t : FileTree) (p text : String) : Except FileError FileTree :=
  t.writeBytes p (Text.utf8 text)

/-- A tree has room for everything, so a write that fails has changed nothing. -/
instance : FileSystem FileTree where
  makeFolder := makeFolder
  hasFolder := hasFolder
  writeBytes t p bytes :=
    match t.writeBytes p bytes with
    | .error e => (t, .error e)
    | .ok t => (t, .ok ())

/-- Makes a folder with all folders around it. -/
def ensureFolder (t : FileTree) (p : String) : FileTree × Except FileError Unit :=
  FileSystem.ensureFolder t p

/-- Removes a file; a folder stays. -/
def removeFile (t : FileTree) (p : String) : Except FileError FileTree :=
  match t.find p with
  | .error e => .error e
  | .ok l =>
    if t.isFile l then .ok { t with files := t.files.filter (·.1 != l) } else .error .isFolder

end FileTree

end Forwarding
