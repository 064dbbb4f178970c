import Forwarding.FileSystem

/-!
The folder that generated texts are written to. A text goes to a file directly inside the folder, in
place of an earlier one of the same name.
-/

namespace Forwarding

/-- Why a text was not written. -/
inductive OutputError where
  /-- The name leads elsewhere. -/
  | notPlainName (name : String)
  | folderNotMade (name folder : String) (cause : FileError)
  | fileNotWritten (name path : String) (cause : FileError)
  deriving DecidableEq, Repr, Inhabited

def OutputError.message : OutputError → String
  | .notPlainName name => "host sink rejected `" ++ name ++ "`: hint name must be a plain file name"
  | .folderNotMade name folder cause =>
    "host sink rejected `" ++ name ++ "`: create_dir_all " ++ folder ++ ": " ++ cause.message
  | .fileNotWritten name path cause =>
    "host sink rejected `" ++ name ++ "`: write " ++ path ++ ": " ++ cause.message

structure OutputFolder where
  path : String
  /-- The paths written so far, in order. -/
  written : List String := []
  deriving DecidableEq, Repr, Inhabited

namespace OutputFolder

/-- A name without separators. -/
def isPlainName (name : String) : Bool :=
  !name.isEmpty && !name.toList.any fun c => c == '/' || c == '\\'

/-- Writes a text to the file `name` of the folder, which is made if need be. -/
def add {S : Type} [FileSystem S] (o : OutputFolder) (s : S) (name text : String) :
    S × Except OutputError OutputFolder :=
  if !isPlainName name then (s, .error (.notPlainName name))
  else
    match FileSystem.ensureFolder s o.path with
    | (s, .error e) => (s, .error (.folderNotMade name o.path e))
    | (s, .ok _) =>
      let path := Path.join o.path name
      match FileSystem.writeText s path text with
      | (s, .error e) => (s, .error (.fileNotWritten name path e))
      | (s, .ok _) => (s, .ok { o with written := o.written ++ [path] })

end OutputFolder

end Forwarding
