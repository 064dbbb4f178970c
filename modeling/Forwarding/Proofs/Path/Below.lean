import Forwarding.Proofs.Candidate.ForwardName
import Forwarding.Proofs.Path.Absolute

/-!
Paths below a folder. Whatever text the folder's path is, the path of what lies under it has the names
in between behind that text, and they are read off again as its relative path. The last name tells
whether it is the path of a source file.
-/

namespace Forwarding.Path

/-! ### Names behind a path -/

section

variable {names : Location} (h : ∀ name ∈ names, isName name = true)

include h

theorem dropWhile_names : (names.map String.toList).dropWhile isIdle = names.map String.toList := by
  cases names with
  | nil => rfl
  | cons name names =>
    rw [List.map_cons, List.dropWhile_cons_of_neg]
    rw [isIdle_of_isName (h name List.mem_cons_self)]
    exact Bool.false_ne_true

theorem dropIdleEnd_names : dropIdleEnd (names.map String.toList) = names.map String.toList := by
  have reversed := dropWhile_names fun name hn => h name (List.mem_reverse.mp hn)
  rw [List.map_reverse] at reversed
  rw [dropIdleEnd, reversed, List.reverse_reverse]

theorem components_join_names {root : String} (filled : root ≠ "") (nonempty : names ≠ []) :
    components (join root ("/".intercalate names)) =
      components root ++ names.map fun name => .name name.toList := by
  rw [components_join_relative filled (isAbsolute_intercalate h nonempty),
    pieces_intercalate h nonempty, pieceSteps_names h]

end

/-- Dropping as many names as some pieces have leaves what follows them. -/
theorem dropNames_append (ps qs : List (List Char)) :
    (dropNames (pieceSteps ps).length (ps ++ qs)).dropWhile isIdle = qs.dropWhile isIdle := by
  induction ps with
  | nil => rfl
  | cons p ps ih =>
    cases idle : isIdle p with
    | true =>
      have same : pieceSteps (p :: ps) = pieceSteps ps := by simp [pieceSteps, idle]
      rw [same, List.cons_append]
      cases count : (pieceSteps ps).length with
      | zero =>
        rw [count] at ih
        rw [dropNames, List.dropWhile_cons_of_pos idle]
        exact ih
      | succ n =>
        rw [count] at ih
        rw [dropNames, List.dropWhile_cons_of_pos idle]
        exact ih
    | false =>
      have more : (pieceSteps (p :: ps)).length = (pieceSteps ps).length + 1 := by
        simp [pieceSteps, idle]
      rw [more, dropNames, List.cons_append, List.dropWhile_cons_of_neg (by simp [idle]),
        List.drop_succ_cons, List.drop_zero]
      exact ih

theorem components_ne_nil {p : String} (filled : p ≠ "") : components p ≠ [] := by
  obtain ⟨c, cs, chars⟩ := List.exists_cons_of_ne_nil (mt String.toList_eq_nil_iff.mp filled)
  rw [components_eq, chars]
  by_cases slash : c = '/'
  · rw [slash]
    simp [head]
  · obtain ⟨w, ws, parted⟩ := exists_pieces cs
    have first := pieces_cons slash parted
    cases idle : isIdle (c :: w) with
    | true =>
      have current : startsCurrent (c :: cs) = true := by
        rw [startsCurrent, first]
        simpa [isIdle] using idle
      simp [head, slash, current]
    | false => simp [first, pieceSteps, idle]

/-- What lies below a folder is found by the steps behind those of the folder. -/
theorem relative_of_pieces {root p : String} (filled : root ≠ "") {ps qs : List (List Char)}
    (within : components root <+: components p)
    (steps : pieceSteps (pieces root.toList) = pieceSteps ps)
    (parted : pieces p.toList = ps ++ qs) :
    relative root p =
      withSlashes (String.ofList (joinPieces (dropIdleEnd (qs.dropWhile isIdle)))) := by
  have count : (components root).length - (head root.toList).length = (pieceSteps ps).length := by
    rw [components_eq, List.length_append, steps]
    omega
  have nonempty : (components root).isEmpty = false := by simpa using components_ne_nil filled
  rw [relative, below?, if_neg (by rw [nonempty]; exact Bool.false_ne_true),
    if_pos (List.isPrefixOf_iff_prefix.mpr within)]
  simp only [count, parted, dropNames_append, Option.getD_some]

theorem relative_self {root : String} (filled : root ≠ "") : relative root root = "" := by
  rw [@relative_of_pieces root root filled (pieces root.toList) [] (List.prefix_refl _) rfl
    (List.append_nil _).symm]
  rfl

/-- **Below a folder, the path of what lies under it is the names in between.** -/
theorem relative_join {root : String} (filled : root ≠ "") {names : Location}
    (h : ∀ name ∈ names, isName name = true) (nonempty : names ≠ []) :
    relative root (join root ("/".intercalate names)) = withSlashes ("/".intercalate names) := by
  have within : components root <+: components (join root ("/".intercalate names)) := by
    rw [components_join_names h filled nonempty]
    exact List.prefix_append _ _
  obtain ⟨init, joined, same⟩ := toList_join_relative filled (isAbsolute_intercalate h nonempty)
  have steps : pieceSteps (pieces root.toList) = pieceSteps (pieces init) := by
    rcases same with same | ⟨same, _⟩
    · rw [same, pieces_append, pieceSteps_append]
      exact List.append_nil _
    · rw [same]
  have parted : pieces (join root ("/".intercalate names)).toList =
      pieces init ++ names.map String.toList := by
    rw [joined, pieces_append, pieces_intercalate h nonempty]
  rw [relative_of_pieces filled within steps parted, dropWhile_names h, dropIdleEnd_names h,
    ← toList_intercalate, String.ofList_toList]

theorem relative_absolute {l names : Location} (hl : ∀ name ∈ l, isName name = true)
    (hn : ∀ name ∈ names, isName name = true) (nonempty : names ≠ []) :
    relative (FileTree.absolute l) (FileTree.absolute (l ++ names)) =
      withSlashes ("/".intercalate names) := by
  rw [← join_absolute hl hn nonempty]
  exact relative_join (by simp [FileTree.absolute]) hn nonempty

/-! ### Source files -/

/-- The name of a source file: `.cs` stands behind something, in letters of either case. -/
def IsSourceName (name : List Char) : Prop :=
  ∃ stem c s, stem ≠ [] ∧ (c = 'c' ∨ c = 'C') ∧ (s = 's' ∨ s = 'S') ∧ name = stem ++ ['.', c, s]

theorem beforeLast_dot {after : List Char} (h : '.' ∉ after) (before : List Char) :
    Text.beforeLast ['.'] (before ++ '.' :: after) = some before := by
  have undotted : Text.beforeLast ['.'] after = none := by
    cases found : Text.beforeLast ['.'] after with
    | none => rfl
    | some front =>
      have dot : '.' ∈ front ++ ['.'] := List.mem_append_right _ List.mem_cons_self
      exact absurd ((Text.append_prefix_of_beforeLast found).subset dot) h
  induction before with
  | nil => simp [Text.beforeLast, undotted]
  | cons c before ih => simp [Text.beforeLast, ih]

theorem toNat_toLower (c : Char) :
    c.toLower.val.toNat =
      if 65 ≤ c.val.toNat ∧ c.val.toNat ≤ 90 then c.val.toNat + 32 else c.val.toNat := by
  have capital : (c.val ≥ 'A'.val ∧ c.val ≤ 'Z'.val) ↔ 65 ≤ c.val.toNat ∧ c.val.toNat ≤ 90 := by
    rw [ge_iff_le, UInt32.le_iff_toNat_le, UInt32.le_iff_toNat_le]
    exact Iff.rfl
  by_cases h : c.val ≥ 'A'.val ∧ c.val ≤ 'Z'.val
  · have shifted : c.toLower.val = c.val + ('a'.val - 'A'.val) := congrArg Char.val (dif_pos h)
    have shift : ('a'.val - 'A'.val).toNat = 32 := rfl
    have bound := (capital.mp h).2
    rw [if_pos (capital.mp h), shifted, UInt32.toNat_add]
    omega
  · have same : c.toLower = c := dif_neg h
    rw [if_neg (mt capital.mpr h), same]

/-- A small letter is the form of itself and of its capital alone. -/
theorem toLower_eq_iff {c small capital : Char}
    (letter : 65 ≤ capital.val.toNat ∧ capital.val.toNat ≤ 90)
    (h : small.val.toNat = capital.val.toNat + 32) : c.toLower = small ↔ c = small ∨ c = capital := by
  have same (a b : Char) : a = b ↔ a.val.toNat = b.val.toNat := by
    rw [Char.ext_iff, UInt32.toNat_inj]
  rw [same, same, same, toNat_toLower, h]
  split <;> omega

/-- The last name tells whether a path is that of a source file. -/
theorem isSource_iff {p : String} {text : List Char}
    (last : (components p).getLast? = some (.name text)) :
    isSource p = true ↔ IsSourceName text := by
  have letterC {c : Char} : c.toLower = 'c' ↔ c = 'c' ∨ c = 'C' := toLower_eq_iff (by decide) rfl
  have letterS {s : Char} : s.toLower = 's' ↔ s = 's' ∨ s = 'S' := toLower_eq_iff (by decide) rfl
  rw [isSource, beq_iff_eq, extension?, last]
  constructor
  · intro ending
    dsimp only at ending
    split at ending
    · rename_i b before found
      obtain ⟨after, rfl⟩ := Text.append_prefix_of_beforeLast found
      have rest : ((b :: before) ++ ['.'] ++ after).drop ((b :: before).length + 1) = after :=
        List.drop_left' (by simp)
      rw [rest, Option.map_some, Option.some.injEq] at ending
      obtain ⟨c, tail, rfl, hc, lower⟩ := List.map_eq_cons_iff.mp ending
      obtain ⟨s, tail', rfl, hs, lower'⟩ := List.map_eq_cons_iff.mp lower
      rw [List.map_eq_nil_iff.mp lower', List.append_assoc]
      exact ⟨b :: before, c, s, by simp, letterC.mp hc, letterS.mp hs, rfl⟩
    · cases ending
  · rintro ⟨stem, c, s, stemmed, hc, hs, rfl⟩
    have plain : '.' ∉ [c, s] := by
      rcases hc with rfl | rfl <;> rcases hs with rfl | rfl <;> decide
    obtain ⟨b, before, rfl⟩ := List.exists_cons_of_ne_nil stemmed
    have rest : ((b :: before) ++ ['.', c, s]).drop ((b :: before).length + 1) = [c, s] := by
      rw [← List.drop_drop, List.drop_left, List.drop_succ_cons, List.drop_zero]
    dsimp only
    rw [beforeLast_dot plain]
    dsimp only
    rw [rest, Option.map_some, List.map_cons, List.map_singleton, letterC.mpr hc, letterS.mpr hs]

end Forwarding.Path
