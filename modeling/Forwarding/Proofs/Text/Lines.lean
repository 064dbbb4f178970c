import Forwarding.Emission

/-!
Texts put together from pieces. A character of the whole is one of a piece or of what stands between
the pieces, and a text of whole lines is read back as these lines.
-/

namespace Forwarding.Text

theorem mem_intercalate {α : Type} {sep : List α} {ls : List (List α)} {c : α}
    (h : c ∈ sep.intercalate ls) : c ∈ sep ∨ ∃ l ∈ ls, c ∈ l := by
  induction ls with
  | nil => cases h
  | cons l ls ih =>
    cases ls with
    | nil => exact .inr ⟨l, List.mem_cons_self, by rwa [List.intercalate_singleton] at h⟩
    | cons m ms =>
      rw [List.intercalate_cons_cons, List.mem_append, List.mem_append] at h
      rcases h with (first | between) | later
      · exact .inr ⟨l, List.mem_cons_self, first⟩
      · exact .inl between
      · exact (ih later).imp_right fun ⟨r, hr, hc⟩ => ⟨r, List.mem_cons_of_mem _ hr, hc⟩

theorem not_mem_append {c : Char} {a b : String} :
    c ∉ (a ++ b).toList ↔ c ∉ a.toList ∧ c ∉ b.toList := by
  rw [String.toList_append, List.mem_append, not_or]

theorem not_mem_join {c : Char} {sep : String} {ls : List String} (hsep : c ∉ sep.toList)
    (h : ∀ l ∈ ls, c ∉ l.toList) : c ∉ (sep.intercalate ls).toList := by
  rw [String.toList_intercalate]
  intro hc
  rcases mem_intercalate hc with between | ⟨cs, hcs, within⟩
  · exact hsep between
  · obtain ⟨l, hl, rfl⟩ := List.mem_map.mp hcs
    exact h l hl within

theorem intercalate_eq_flatMap {α : Type} (x : α) (l : List α) (ls : List (List α)) :
    [x].intercalate (l :: ls) = l ++ ls.flatMap (x :: ·) := by
  induction ls generalizing l with
  | nil => rw [List.intercalate_singleton, List.flatMap_nil, List.append_nil]
  | cons m ms ih =>
    rw [List.intercalate_cons_cons, ih, List.flatMap_cons, List.append_assoc, List.singleton_append,
      List.cons_append]

/-- The text without as many characters at its front as `front` has. -/
def cut (front text : String) : String :=
  String.ofList (text.toList.drop front.toList.length)

theorem cut_append (front text : String) : cut front (front ++ text) = text := by
  rw [cut, String.toList_append, List.drop_left, String.ofList_toList]

theorem joinLines_append (ls ms : List String) :
    joinLines (ls ++ ms) = joinLines ls ++ joinLines ms := by
  rw [joinLines, List.map_append, String.join_append]
  rfl

/-- The lines of a text of whole lines. -/
def linesOf (text : String) : List String :=
  (List.splitOn '\n' text.toList).dropLast.map String.ofList

theorem toList_joinLines (ls : List String) :
    (joinLines ls).toList = ['\n'].intercalate (ls.map String.toList ++ [[]]) := by
  rw [joinLines, String.toList_join, List.flatMap_map]
  induction ls with
  | nil => rfl
  | cons l ls ih =>
    rw [List.flatMap_cons, ih, List.map_cons, List.cons_append,
      List.intercalate_cons_of_ne_nil (by simp), String.toList_append]
    rfl

theorem linesOf_joinLines (ls : List String) (h : ∀ l ∈ ls, '\n' ∉ l.toList) :
    linesOf (joinLines ls) = ls := by
  have apart : ∀ cs ∈ ls.map String.toList ++ [[]], '\n' ∉ cs := by
    intro cs hcs
    rcases List.mem_append.mp hcs with line | last
    · obtain ⟨l, hl, rfl⟩ := List.mem_map.mp line
      exact h l hl
    · rw [List.mem_singleton.mp last]
      exact List.not_mem_nil
  rw [linesOf, toList_joinLines, List.splitOn_intercalate _ apart (by simp), List.dropLast_concat,
    List.map_map]
  exact (List.map_congr_left fun l _ => String.ofList_toList).trans (List.map_id' ls)

end Forwarding.Text
