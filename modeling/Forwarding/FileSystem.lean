import Forwarding.Path
import Forwarding.Text.Utf8

/-!
What the program asks of a file system where it writes, and what it makes of that: a folder with all
the folders around it, and texts as bytes.
-/

namespace Forwarding

/-- Why an operation on files was refused. -/
inductive FileError where
  | missing
  | alreadyThere
  | notFolder
  | isFolder
  | nameTooLong
  | denied
  | tooLarge
  /-- The path has a character that no path can have. -/
  | zeroCharacter
  deriving DecidableEq, Repr, Inhabited

def FileError.message : FileError → String
  | .missing => "No such file or directory (os error 2)"
  | .alreadyThere => "File exists (os error 17)"
  | .notFolder => "Not a directory (os error 20)"
  | .isFolder => "Is a directory (os error 21)"
  | .nameTooLong => "File name too long (os error 36)"
  | .denied => "Permission denied (os error 13)"
  | .tooLarge => "File too large (os error 27)"
  | .zeroCharacter => "file name contained an unexpected NUL byte"

/-- The operations that writing needs. An operation that fails may have changed something. -/
class FileSystem (S : Type) where
  /-- Makes the folder that a path leads to, in a folder that is there. -/
  makeFolder : S → String → Except FileError S
  hasFolder : S → String → Bool
  /-- Writes a file, in place of the one that is there. -/
  writeBytes : S → String → List UInt8 → S × Except FileError Unit

namespace FileSystem

variable {S : Type} [FileSystem S]

/-- Makes the folder that a path leads to and, at most `n` levels up, the folders around it. What
was made before something failed stays. -/
def makeFolders : Nat → S → String → S × Except FileError Unit
  | 0, s, _ => (s, .error .missing)
  | n + 1, s, p =>
    if p.isEmpty then (s, .ok ())
    else
      match makeFolder s p with
      | .ok s => (s, .ok ())
      | .error .missing =>
        match Path.parent? p with
        | none => (s, .error .missing)
        | some parent =>
          match makeFolders n s parent with
          | (s, .error e) => (s, .error e)
          | (s, .ok _) =>
            match makeFolder s p with
            | .ok s => (s, .ok ())
            | .error e => if hasFolder s p then (s, .ok ()) else (s, .error e)
      | .error e => if hasFolder s p then (s, .ok ()) else (s, .error e)

/-- Makes a folder with all folders around it. -/
def ensureFolder (s : S) (p : String) : S × Except FileError Unit :=
  makeFolders (p.toList.length + 1) s p

def writeText (s : S) (p text : String) : S × Except FileError Unit :=
  writeBytes s p (Text.utf8 text)

end FileSystem

end Forwarding
