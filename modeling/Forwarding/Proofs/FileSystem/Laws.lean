import Forwarding.FileSystem
import Forwarding.Proofs.Path.Absolute

/-!
What a file system has to grant to a program that writes to it. A file is told apart by itself and
not by a path: several paths may lead to one file, and none need lead to it. No operation changes
where a path leads once it leads to a file, making folders changes no file, and a write changes at
most the file that its path leads to. If the write fails, this file may be left with the front part
of what was to be written.
-/

namespace Forwarding

namespace FileSystem

/-- What holds between a state and itself, and along every folder that is made, holds for all that
making folders leaves behind, also when it fails. -/
theorem makeFolders_closure {S : Type} [FileSystem S] {R : S → S → Prop} (refl : ∀ s, R s s)
    (trans : ∀ {s s' s''}, R s s' → R s' s'' → R s s'')
    (made : ∀ {s s' p}, makeFolder s p = .ok s' → R s s') (n : Nat) (s : S) (p : String) :
    R s (makeFolders n s p).1 := by
  induction n generalizing s p with
  | zero => exact refl s
  | succ n ih =>
    rw [makeFolders]
    split
    · exact refl s
    split
    · rename_i h
      exact made h
    · split
      · exact refl s
      rename_i parent _
      have above := ih s parent
      split
      · rename_i h
        rw [h] at above
        exact above
      · rename_i h
        rw [h] at above
        split
        · rename_i h'
          exact trans above (made h')
        · split <;> exact above
    · split <;> exact refl s

end FileSystem

/-- How the files of a file system are seen. -/
class FileView (S : Type) where
  /-- What tells files apart. -/
  File : Type
  /-- The states that the file system can be in. -/
  Sound : S → Prop
  /-- The file that a path leads to, through links if there are any. -/
  leadsTo : S → String → Option File
  /-- The bytes of a file, if it has any to show. -/
  held : S → File → Option (List UInt8)
  /-- The file keeps what is written to it; a device does not. -/
  Keeps : S → File → Prop

namespace FileView

variable {S : Type} [FileView S]

/-- Paths lead to the files that they led to, and devices stay devices. -/
structure Steady (s s' : S) : Prop where
  sound : Sound s → Sound s'
  leads : ∀ q f, leadsTo s q = some f → leadsTo s' q = some f
  keeps : ∀ f, Keeps s' f ↔ Keeps s f

theorem Steady.refl (s : S) : Steady s s :=
  ⟨id, fun _ _ h => h, fun _ => .rfl⟩

theorem Steady.trans {s s' s'' : S} (h : Steady s s') (h' : Steady s' s'') : Steady s s'' :=
  ⟨h'.sound ∘ h.sound, fun q f led => h'.leads q f (h.leads q f led),
    fun f => (h'.keeps f).trans (h.keeps f)⟩

/-- A path that led to no file in the end never led to one. -/
theorem Steady.ne {s s' : S} (h : Steady s s') {q : String} {f : File S}
    (other : leadsTo s' q ≠ some f) : leadsTo s q ≠ some f :=
  fun led => other (h.leads q f led)

end FileView

open FileView

/-- The path ends in a name, and not in a slash, a dot or two dots. -/
def Path.EndsInName (q : String) : Prop :=
  ∃ name, (Path.pieces q.toList).getLast? = some name ∧ Path.isName (String.ofList name) = true

/-- The laws of the operations that writing needs. -/
class LawfulFileSystem (S : Type) [FileSystem S] extends FileView S where
  makeFolder {s s' : S} {p : String} (sound : Sound s) (made : FileSystem.makeFolder s p = .ok s') :
    Steady s s' ∧ ∀ f, held s' f = held s f
  writeBytes {s s' : S} {p : String} {bytes : List UInt8} {result : Except FileError Unit}
    (sound : Sound s) (wrote : FileSystem.writeBytes s p bytes = (s', result)) :
    Steady s s' ∧ ∀ f, held s' f = held s f ∨
      leadsTo s' p = some f ∧ ∃ n, held s' f = some (bytes.take n)
  written {s s' : S} {p : String} {bytes : List UInt8} (sound : Sound s)
    (wrote : FileSystem.writeBytes s p bytes = (s', .ok ())) :
    Path.EndsInName p ∧ ∃ f, leadsTo s' p = some f ∧ (Keeps s' f → held s' f = some bytes)

/-- Making folders changes no file, also when it fails. -/
theorem LawfulFileSystem.ensureFolder {S : Type} [FileSystem S] [LawfulFileSystem S] {s : S}
    (sound : Sound s) (p : String) :
    Steady s (FileSystem.ensureFolder s p).1 ∧
      ∀ f, held (FileSystem.ensureFolder s p).1 f = held s f := by
  refine FileSystem.makeFolders_closure
    (R := fun s s' => Sound s → Steady s s' ∧ ∀ f, held s' f = held s f)
    (fun s _ => ⟨.refl s, fun _ => rfl⟩) ?_ (fun made sound => makeFolder sound made) _ s p sound
  intro s s' s'' first second sound
  obtain ⟨steady, same⟩ := first sound
  obtain ⟨steady', same'⟩ := second (steady.sound sound)
  exact ⟨steady.trans steady', fun f => (same' f).trans (same f)⟩

end Forwarding
