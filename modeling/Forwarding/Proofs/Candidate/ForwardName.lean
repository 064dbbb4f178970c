import Forwarding.Candidate

/-!
The names of forwarders. A candidate's name is its forwarder's name with the suffix behind it, so
the forwarder has no name exactly if the candidate is called `Extension`.
-/

namespace Forwarding

namespace Text

theorem append_prefix_of_beforeLast {piece cs before : List Char}
    (h : beforeLast piece cs = some before) : before ++ piece <+: cs := by
  induction cs generalizing before with
  | nil =>
    simp only [beforeLast, Option.ite_none_right_eq_some, Option.some.injEq] at h
    obtain ⟨empty, rfl⟩ := h
    rw [List.isEmpty_iff.mp empty]
    exact List.nil_prefix
  | cons c cs ih =>
    simp only [beforeLast] at h
    split at h
    · rename_i inner found
      rw [← Option.some.inj h]
      exact List.cons_prefix_cons.mpr ⟨rfl, ih found⟩
    · simp only [Option.ite_none_right_eq_some, Option.some.injEq] at h
      obtain ⟨front, rfl⟩ := h
      exact List.isPrefixOf_iff_prefix.mp front

theorem length_le_of_beforeLast {piece cs before : List Char}
    (h : beforeLast piece cs = some before) : piece.length ≤ cs.length := by
  have length := (append_prefix_of_beforeLast h).length_le
  rw [List.length_append] at length
  omega

theorem prefix_of_beforeLast {piece cs before : List Char}
    (h : beforeLast piece cs = some before) : before <+: cs :=
  (List.prefix_append before piece).trans (append_prefix_of_beforeLast h)

/-- A piece at the end of a text is its last occurrence. -/
theorem beforeLast_append (piece before : List Char) (h : piece ≠ []) :
    beforeLast piece (before ++ piece) = some before := by
  induction before with
  | nil =>
    cases piece with
    | nil => exact absurd rfl h
    | cons c cs =>
      have unending : beforeLast (c :: cs) cs = none := by
        cases found : beforeLast (c :: cs) cs with
        | none => rfl
        | some before =>
          have := length_le_of_beforeLast found
          simp only [List.length_cons] at this
          omega
      simp [beforeLast, unending]
  | cons c cs ih => simp [beforeLast, ih]

end Text

theorem hasExtensionSuffix_iff (name : String) :
    hasExtensionSuffix name = true ↔ ∃ front : String, name = front ++ extensionSuffix := by
  rw [hasExtensionSuffix, List.isSuffixOf_iff_suffix]
  constructor
  · rintro ⟨front, h⟩
    refine ⟨String.ofList front, ?_⟩
    rw [← String.toList_inj, String.toList_append, String.toList_ofList, h]
  · rintro ⟨front, rfl⟩
    exact ⟨front.toList, by rw [String.toList_append]⟩

namespace Candidate

/-- The forwarder's name is what the suffix leaves of the candidate's name. -/
theorem forwardName_of_append (c : Candidate) (front : String)
    (h : c.simpleName = front ++ extensionSuffix) : c.forwardName = front := by
  rw [forwardName, h, String.toList_append, Text.beforeLast_append _ _ (by decide)]
  exact String.ofList_toList

theorem forwardName_isEmpty (c : Candidate) (h : hasExtensionSuffix c.simpleName = true) :
    c.forwardName.isEmpty = true ↔ c.simpleName = extensionSuffix := by
  obtain ⟨front, hf⟩ := (hasExtensionSuffix_iff _).mp h
  rw [forwardName_of_append c front hf, hf, String.isEmpty_iff]
  constructor
  · rintro rfl; rfl
  · intro same
    have length := congrArg (fun s => s.toList.length) same
    simp only [String.toList_append, List.length_append] at length
    exact String.toList_eq_nil_iff.mp (List.length_eq_zero_iff.mp (by omega))

end Candidate

end Forwarding
