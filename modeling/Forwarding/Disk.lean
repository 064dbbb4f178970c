import Forwarding.Scan

/-!
The part of the disk that a run looks at, taken in as a tree of files, and the changes to that tree
brought back to the disk.
-/

namespace Forwarding.Disk

/-- The tree without files, in the folder that the program was called from. -/
def emptyTree : IO FileTree := do
  let here ← IO.currentDir
  return { here := (Path.components here.toString).filterMap fun
    | .name text => some (String.ofList text)
    | _ => none }

/-- Takes in the file or folder at a location. Nothing there is nothing to take in. -/
def addEntry (t : FileTree) (l : Location) : IO FileTree := do
  if t.isFolder l || t.isFile l then return t
  let path := (← IO.currentDir) / FileTree.absolute l
  match ← path.metadata.toBaseIO with
  | .error _ => return t
  | .ok m =>
    match m.type with
    | .dir => return { t with folders := t.folders ++ [l] }
    | .file =>
      let content := match ← (IO.FS.readBinFile path).toBaseIO with
        | .ok data => .bytes data.data.toList
        | .error _ => .closed m.byteSize.toNat
      return { t with files := t.files ++ [(l, content)] }
    | _ => return t

/-- Takes in what stands along a path. -/
def addPath (t : FileTree) (p : String) : IO FileTree := do
  let mut t := t
  let mut l := t.here
  for c in Path.components p do
    l := match c with
      | .root => []
      | .current => l
      | .parent => l.dropLast
      | .name text => l ++ [String.ofList text]
    t ← addEntry t l
  return t

/-- Takes in the folders and source files below a folder. A link that leads back to one of the
folders `above` is not followed. -/
partial def addBelow (t : FileTree) (above : List String) (l : Location) : IO FileTree := do
  let path := (← IO.currentDir) / FileTree.absolute l
  let real := (← IO.FS.realPath path).toString
  if above.contains real || !(← path.isDir) then return t
  let mut t := t
  for entry in ← path.readDir do
    let inner := l ++ [entry.fileName]
    if ← entry.path.isDir then
      if !skippedFolders.contains entry.fileName then
        t ← addBelow (← addEntry t inner) (real :: above) inner
    else if Path.isSource entry.fileName then
      t ← addEntry t inner
  return t

/-- Brings what is new in a tree to the disk. -/
def writeChanges (before after : FileTree) : IO Unit := do
  for l in after.folders do
    if !before.folders.contains l then IO.FS.createDirAll (FileTree.absolute l)
  for (l, content) in after.files do
    if before.file? l != some content then
      if let .bytes bs := content then
        IO.FS.writeBinFile (FileTree.absolute l) ⟨bs.toArray⟩

end Forwarding.Disk
