import Forwarding.Run
import Mathlib.Data.List.Basic

/-!
What a run makes of the files that it has kept. The loop over them takes in an outline for every file
that reads as a text and counts the others, so its outlines are those of the texts alone.
-/

namespace Forwarding

/-- The texts of the kept files by their relative paths; files without one are left out. -/
def readSources (t : FileTree) (files : List ScannedFile) : List (String × String) :=
  files.filterMap fun f => (t.readText? f.path).map (f.relative, ·)

/-- The number of the files that are counted as failed. -/
def countFailed (t : FileTree) (files : List ScannedFile) : Nat :=
  files.countP fun f => (t.readText? f.path).isNone

section

variable (t : FileTree) (recover : Recovery)

theorem foldlM_parseFile (files : List ScannedFile) (p : Parsed) :
    files.foldlM (parseFile t recover) p =
      ((readSources t files).mapM fun f => Outline.ofSource f.1 f.2 recover).map fun os =>
        { outlines := p.outlines ++ os, failed := p.failed + countFailed t files } := by
  induction files generalizing p with
  | nil => simp [readSources, countFailed, pure, Except.pure, Except.map]
  | cons f files ih =>
    rw [List.foldlM_cons, parseFile, readSources, countFailed]
    cases text : t.readText? f.path with
    | none =>
      rw [List.filterMap_cons_none (by rw [text]; rfl), List.countP_cons_of_pos (by rw [text]; rfl)]
      refine (ih _).trans (congrArg (Except.map · _) (funext fun os => ?_))
      rw [countFailed, Nat.add_right_comm, Nat.add_assoc]
    | some code =>
      rw [List.filterMap_cons_some (by rw [text]; rfl), List.mapM_cons,
        List.countP_cons_of_neg (by rw [text]; simp)]
      dsimp only
      cases Outline.ofSource f.relative code recover with
      | error e => rfl
      | ok o =>
        refine (ih _).trans ?_
        rw [← readSources, ← countFailed]
        cases (readSources t files).mapM fun f => Outline.ofSource f.1 f.2 recover with
        | error e => rfl
        | ok os => simp [Except.map, bind, Except.bind, pure, Except.pure]

/-- **The kept files are parsed as their texts are, and every other one is counted.** -/
theorem parseFiles_eq (files : List ScannedFile) :
    parseFiles t recover files =
      ((readSources t files).mapM fun f => Outline.ofSource f.1 f.2 recover).map fun os =>
        { outlines := os, failed := countFailed t files } := by
  refine (foldlM_parseFile t recover files {}).trans ?_
  simp

/-- Nothing else of a tree shows in what is made of the kept files. -/
theorem parseFiles_congr {t' : FileTree} {files : List ScannedFile}
    (same : ∀ f ∈ files, t'.readText? f.path = t.readText? f.path) :
    parseFiles t' recover files = parseFiles t recover files := by
  have sources : readSources t' files = readSources t files :=
    List.filterMap_congr fun f hf => by rw [same f hf]
  have failed : countFailed t' files = countFailed t files :=
    List.countP_congr fun f hf => by rw [same f hf]
  rw [parseFiles_eq, parseFiles_eq, sources, failed]

end

end Forwarding
