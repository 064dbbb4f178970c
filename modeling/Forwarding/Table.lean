/-!
Small tables: lists of pairs in which each key occurs once. What is put under a key is found there,
and nothing else is changed.
-/

namespace Forwarding.Table

/-- Replaces the value of `key`, or adds the pair behind the others. -/
def put {α β : Type} [DecidableEq α] (key : α) (value : β) : List (α × β) → List (α × β)
  | [] => [(key, value)]
  | e :: es => if e.1 = key then (key, value) :: es else e :: put key value es

section

variable {α β : Type} [DecidableEq α] [BEq α] [LawfulBEq α]

omit [DecidableEq α] in
theorem lookup_of_mem {es : List (α × β)} (once : (es.map (·.1)).Nodup) {key : α} {value : β}
    (h : (key, value) ∈ es) : es.lookup key = some value := by
  induction es with
  | nil => cases h
  | cons e es ih =>
    rw [List.map_cons, List.nodup_cons] at once
    rcases List.mem_cons.mp h with rfl | later
    · exact List.lookup_cons_self
    · have differ : key ≠ e.1 := by
        rintro rfl
        exact once.1 (List.mem_map.mpr ⟨_, later, rfl⟩)
      rw [List.lookup_cons, beq_eq_false_iff_ne.mpr differ]
      exact ih once.2 later

omit [DecidableEq α] in
theorem mem_of_lookup {es : List (α × β)} {key : α} {value : β}
    (found : es.lookup key = some value) : (key, value) ∈ es := by
  obtain ⟨front, back, whole, _⟩ := List.lookup_eq_some_iff.mp found
  rw [whole]
  exact List.mem_append_right front List.mem_cons_self

theorem lookup_put_self (key : α) (value : β) (es : List (α × β)) :
    (put key value es).lookup key = some value := by
  induction es with
  | nil => exact List.lookup_cons_self
  | cons e es ih =>
    rw [put]
    split
    · exact List.lookup_cons_self
    · rename_i differ
      rw [List.lookup_cons, beq_eq_false_iff_ne.mpr (Ne.symm differ)]
      exact ih

theorem lookup_put_ne {key other : α} (h : other ≠ key) (value : β) (es : List (α × β)) :
    (put key value es).lookup other = es.lookup other := by
  induction es with
  | nil =>
    rw [put, List.lookup_cons, beq_eq_false_iff_ne.mpr h]
  | cons e es ih =>
    rw [put]
    split
    · rename_i same
      rw [List.lookup_cons, List.lookup_cons, same, beq_eq_false_iff_ne.mpr h]
    · rw [List.lookup_cons, List.lookup_cons, ih]

end

/-- Putting adds a key that was missing and no other. -/
theorem keys_put {α β : Type} [DecidableEq α] (key : α) (value : β) (es : List (α × β)) :
    (put key value es).map (·.1) =
      if key ∈ es.map (·.1) then es.map (·.1) else es.map (·.1) ++ [key] := by
  induction es with
  | nil => rfl
  | cons e es ih =>
    rw [put]
    by_cases same : e.1 = key
    · simp [same]
    · rw [if_neg same, List.map_cons, ih, List.map_cons]
      by_cases later : key ∈ es.map (·.1)
      · rw [if_pos later, if_pos (List.mem_cons_of_mem _ later)]
      · have fresh : key ∉ e.1 :: es.map (·.1) := by
          rw [List.mem_cons, not_or]
          exact ⟨Ne.symm same, later⟩
        rw [if_neg later, if_neg fresh, List.cons_append]

/-- What is put under a key does not matter to a function that passes over that key. -/
theorem filterMap_put {α β γ : Type} [DecidableEq α] {g : α × β → Option γ} {key : α}
    (skips : ∀ value, g (key, value) = none) (value : β) (es : List (α × β)) :
    (put key value es).filterMap g = es.filterMap g := by
  induction es with
  | nil => rw [put, List.filterMap_cons_none (skips value)]
  | cons e es ih =>
    rw [put]
    split
    · rename_i same
      obtain ⟨k, v⟩ := e
      cases same
      rw [List.filterMap_cons_none (skips value), List.filterMap_cons_none (skips v)]
    · rw [List.filterMap_cons, List.filterMap_cons, ih]

end Forwarding.Table
