import Forwarding.Glob.Match

/-!
Patterns that ask for an ending: `**/*` with plain characters behind it matches every path that ends
with them, in whatever folder.
-/

namespace Forwarding.Glob

theorem mem_distinct (x : List UInt8) (xs : List (List UInt8)) : x ∈ distinct xs ↔ x ∈ xs := by
  induction xs with
  | nil => rfl
  | cons y ys ih =>
    simp only [distinct]
    split
    · rename_i again
      rw [List.contains_eq_mem, decide_eq_true_eq] at again
      rw [List.mem_cons, ← ih]
      exact ⟨.inr, fun h => h.elim (fun same => same ▸ again) id⟩
    · rw [List.mem_cons, List.mem_cons, ih]

/-- With more texts to start from, there is at least as much left. -/
theorem patternRests_mono {ps : List Piece} {xs ys : List (List UInt8)} (h : ∀ x ∈ xs, x ∈ ys)
    {rest : List UInt8} (left : rest ∈ patternRests ps xs) : rest ∈ patternRests ps ys := by
  induction ps generalizing xs ys with
  | nil =>
    rw [patternRests] at left ⊢
    exact h rest left
  | cons p ps ih =>
    rw [patternRests] at left ⊢
    refine ih (fun x hx => ?_) left
    rw [mem_distinct] at hx ⊢
    obtain ⟨y, hy, hx⟩ := List.mem_flatMap.mp hx
    exact List.mem_flatMap.mpr ⟨y, h y hy, hx⟩

theorem mem_patternRests_cons {p : Piece} {ps : List Piece} {text rest last : List UInt8}
    (first : rest ∈ p.rests text) (behind : last ∈ patternRests ps [rest]) :
    last ∈ patternRests (p :: ps) [text] := by
  rw [patternRests]
  refine patternRests_mono (fun x hx => ?_) behind
  rw [List.mem_singleton.mp hx, mem_distinct]
  exact List.mem_flatMap.mpr ⟨text, List.mem_singleton_self text, first⟩

theorem mem_suffixes (front rest : List UInt8) : rest ∈ suffixes (front ++ rest) := by
  induction front with
  | nil => cases rest <;> simp [suffixes]
  | cons b front ih => exact List.mem_cons_of_mem _ ih

theorem nil_mem_patternRests_chars (cs : List Char) :
    [] ∈ patternRests (cs.map .char) [cs.flatMap String.utf8EncodeChar] := by
  induction cs with
  | nil => simp [patternRests]
  | cons c cs ih =>
    refine mem_patternRests_cons ?_ ih
    rw [Piece.rests, afterFront, List.flatMap_cons,
      if_pos (List.isPrefixOf_iff_prefix.mpr (List.prefix_append _ _)), List.drop_left]
    exact List.mem_singleton_self _

/-- The pattern `**/*` with `ending` behind it. -/
def Pattern.ofEnding (ending : List Char) : Pattern :=
  .foldersBefore :: .anyRun :: ending.map .char

theorem endsInDot_ofEnding {init : List Char} {c : Char} (h : c ≠ '.') :
    Pattern.matchesBytes.endsInDot (Pattern.ofEnding (init ++ [c])) = false := by
  rw [Pattern.matchesBytes.endsInDot, Pattern.ofEnding, List.map_append, List.map_singleton,
    ← List.cons_append, ← List.cons_append, List.getLast?_concat]
  simp [h]

/-- **Every path with the ending matches**, unless the ending closes with a dot. -/
theorem matchesBytes_ofEnding {init : List Char} {c : Char} (h : c ≠ '.') (front : List UInt8) :
    (Pattern.ofEnding (init ++ [c])).matchesBytes
      (front ++ (init ++ [c]).flatMap String.utf8EncodeChar) = true := by
  let ending := (init ++ [c]).flatMap String.utf8EncodeChar
  have run : ending ∈ Piece.rests .anyRun (front ++ ending) := by
    rw [Piece.rests]
    exact mem_suffixes front ending
  have folders : front ++ ending ∈ Piece.rests .foldersBefore (front ++ ending) := by
    rw [Piece.rests]
    exact List.mem_cons_self
  have all : [] ∈ patternRests (Pattern.ofEnding (init ++ [c])) [front ++ ending] :=
    mem_patternRests_cons folders (mem_patternRests_cons run (nil_mem_patternRests_chars _))
  rw [Pattern.matchesBytes, endsInDot_ofEnding h, Bool.and_false, Bool.false_and, Bool.not_false,
    Bool.and_true, List.contains_eq_mem, decide_eq_true all, Bool.or_true]

end Forwarding.Glob
