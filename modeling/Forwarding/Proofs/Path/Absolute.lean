import Forwarding.FileTree.Basic
import Forwarding.Proofs.Text.Lines

/-!
The texts of paths. An absolute path is read back as the names it was made of, and a path behind
another one is taken as further steps; a plain name is one more step.
-/

namespace Forwarding.Path

/-- A text that stands for itself as a step of a path. -/
def isName (s : String) : Bool :=
  !isIdle s.toList && s.toList != ['.', '.'] && !s.toList.contains '/'

section

variable {s : String} (h : isName s = true)

include h

theorem isIdle_of_isName : isIdle s.toList = false := by
  simp only [isName, Bool.and_eq_true, Bool.not_eq_true'] at h
  exact h.1.1

theorem ne_parent_of_isName : s.toList ≠ ['.', '.'] := by
  simp only [isName, Bool.and_eq_true, bne_iff_ne] at h
  exact h.1.2

theorem no_slash_of_isName : '/' ∉ s.toList := by
  simp only [isName, Bool.and_eq_true, Bool.not_eq_true', List.contains_eq_mem,
    decide_eq_false_iff_not] at h
  exact h.2

theorem ne_nil_of_isName : s.toList ≠ [] := by
  intro empty
  have := isIdle_of_isName h
  rw [empty] at this
  cases this

end

/-! ### Pieces -/

theorem pieces_slash (cs : List Char) : pieces ('/' :: cs) = [] :: pieces cs := rfl

theorem pieces_cons {c : Char} {cs : List Char} {w : List Char} {ws : List (List Char)}
    (hc : c ≠ '/') (h : pieces cs = w :: ws) : pieces (c :: cs) = (c :: w) :: ws := by
  rw [pieces] at h
  simp [pieces, Text.splitAll, hc, h]

theorem exists_pieces (cs : List Char) : ∃ w ws, pieces cs = w :: ws := by
  induction cs with
  | nil => exact ⟨[], [], rfl⟩
  | cons c cs ih =>
    obtain ⟨w, ws, h⟩ := ih
    by_cases slash : c = '/'
    · exact ⟨[], pieces cs, by rw [slash, pieces_slash]⟩
    · exact ⟨c :: w, ws, pieces_cons slash h⟩

/-- A slash parts a path. -/
theorem pieces_append (xs ys : List Char) : pieces (xs ++ '/' :: ys) = pieces xs ++ pieces ys := by
  induction xs with
  | nil => rfl
  | cons x xs ih =>
    by_cases slash : x = '/'
    · rw [slash, List.cons_append, pieces_slash, pieces_slash, ih, List.cons_append]
    · obtain ⟨w, ws, h⟩ := exists_pieces xs
      rw [h, List.cons_append] at ih
      rw [List.cons_append, pieces_cons slash ih, pieces_cons slash h, List.cons_append]

theorem pieces_of_no_slash {cs : List Char} (h : '/' ∉ cs) : pieces cs = [cs] := by
  induction cs with
  | nil => rfl
  | cons c cs ih =>
    rw [List.mem_cons, not_or] at h
    exact pieces_cons (Ne.symm h.1) (ih h.2)

theorem joinPieces_cons (p q : List Char) (ps : List (List Char)) :
    joinPieces (p :: q :: ps) = p ++ '/' :: joinPieces (q :: ps) := by
  simp [joinPieces, List.intercalate, List.intersperse]

theorem mem_joinPieces {ps : List (List Char)} {c : Char} (h : c ∈ joinPieces ps) :
    c = '/' ∨ ∃ p ∈ ps, c ∈ p :=
  (Text.mem_intercalate h).imp_left List.mem_singleton.mp

/-- Names joined by slashes are parted into the same names. -/
theorem pieces_joinPieces (ps : List (List Char)) (nonempty : ps ≠ []) (h : ∀ p ∈ ps, '/' ∉ p) :
    pieces (joinPieces ps) = ps := by
  induction ps with
  | nil => exact absurd rfl nonempty
  | cons p ps ih =>
    obtain ⟨hp, hps⟩ := List.forall_mem_cons.mp h
    cases ps with
    | nil =>
      rw [show joinPieces [p] = p by simp [joinPieces, List.intercalate], pieces_of_no_slash hp]
    | cons q qs =>
      rw [joinPieces_cons, pieces_append, pieces_of_no_slash hp, ih (by simp) hps,
        List.singleton_append]

/-! ### Steps -/

/-- The steps that pieces stand for: names and steps up. -/
def pieceSteps (ps : List (List Char)) : List Component :=
  (ps.filter fun x => !isIdle x).map fun x => if x == ['.', '.'] then .parent else .name x

theorem pieceSteps_append (ps qs : List (List Char)) :
    pieceSteps (ps ++ qs) = pieceSteps ps ++ pieceSteps qs := by
  rw [pieceSteps, List.filter_append, List.map_append]
  rfl

theorem components_eq (p : String) :
    components p = head p.toList ++ pieceSteps (pieces p.toList) := rfl

/-! ### Absolute paths -/

theorem toList_intercalate (l : Location) :
    ("/".intercalate l).toList = joinPieces (l.map String.toList) := by
  rw [String.toList_intercalate]
  rfl

theorem toList_absolute (l : Location) :
    (FileTree.absolute l).toList = '/' :: joinPieces (l.map String.toList) := by
  rw [FileTree.absolute, String.toList_append, toList_intercalate]
  rfl

section

variable {l : Location} (h : ∀ name ∈ l, isName name = true)

include h

theorem filter_names :
    (l.map String.toList).filter (fun x => !isIdle x) = l.map String.toList := by
  rw [List.filter_eq_self]
  intro x hx
  obtain ⟨name, hn, rfl⟩ := List.mem_map.mp hx
  rw [isIdle_of_isName (h name hn), Bool.not_false]

theorem pieces_intercalate (nonempty : l ≠ []) :
    pieces ("/".intercalate l).toList = l.map String.toList := by
  rw [toList_intercalate, pieces_joinPieces]
  · simpa using nonempty
  · intro x hx
    obtain ⟨name, hn, rfl⟩ := List.mem_map.mp hx
    exact no_slash_of_isName (h name hn)

theorem pieces_absolute (nonempty : l ≠ []) :
    pieces (FileTree.absolute l).toList = [] :: l.map String.toList := by
  rw [toList_absolute, pieces_slash, ← toList_intercalate, pieces_intercalate h nonempty]

theorem pieceSteps_names :
    pieceSteps (l.map String.toList) = l.map fun name => .name name.toList := by
  rw [pieceSteps, filter_names h, List.map_map]
  apply List.map_congr_left
  intro name hn
  rw [Function.comp_apply, if_neg (by simpa using ne_parent_of_isName (h name hn))]

/-- An absolute path leads from the root through its names. -/
theorem components_absolute :
    components (FileTree.absolute l) = .root :: l.map fun name => .name name.toList := by
  have lead : head (FileTree.absolute l).toList = [.root] := by rw [toList_absolute]; rfl
  have steps : pieceSteps (pieces (FileTree.absolute l).toList) =
      pieceSteps (l.map String.toList) := by
    cases l with
    | nil => rfl
    | cons name l =>
      rw [pieces_absolute h (by simp)]
      rfl
  rw [components_eq, lead, steps, pieceSteps_names h, List.singleton_append]

end

theorem joinPieces_append {ps qs : List (List Char)} (hp : ps ≠ []) (hq : qs ≠ []) :
    joinPieces (ps ++ qs) = joinPieces ps ++ '/' :: joinPieces qs := by
  induction ps with
  | nil => exact absurd rfl hp
  | cons p ps ih =>
    cases ps with
    | nil =>
      obtain ⟨q, qs, rfl⟩ := List.exists_cons_of_ne_nil hq
      rw [List.singleton_append, joinPieces_cons]
      simp [joinPieces, List.intercalate]
    | cons p' ps =>
      rw [List.cons_append, List.cons_append, joinPieces_cons, joinPieces_cons, ← List.cons_append,
        ih (by simp), List.append_assoc, List.cons_append]

theorem exists_joinPieces_concat (ps : List (List Char)) (p : List Char) :
    ∃ front, joinPieces (ps ++ [p]) = front ++ p := by
  have single : joinPieces [p] = p := by simp [joinPieces, List.intercalate]
  cases ps with
  | nil => exact ⟨[], single⟩
  | cons q qs =>
    refine ⟨joinPieces (q :: qs) ++ ['/'], ?_⟩
    rw [joinPieces_append (by simp) (by simp), single, List.append_assoc, List.singleton_append]

theorem getLast?_joinPieces {ps : List (List Char)} {p : List Char} (hp : p ≠ []) :
    (joinPieces (ps ++ [p])).getLast? = p.getLast? := by
  obtain ⟨front, joined⟩ := exists_joinPieces_concat ps p
  rw [joined, List.getLast?_append, List.getLast?_eq_some_getLast hp, Option.some_or]

theorem isAbsolute_intercalate {names : Location} (h : ∀ name ∈ names, isName name = true)
    (nonempty : names ≠ []) : isAbsolute ("/".intercalate names) = false := by
  obtain ⟨name, rest, rfl⟩ := List.exists_cons_of_ne_nil nonempty
  have slash := no_slash_of_isName (h name List.mem_cons_self)
  obtain ⟨c, cs, hc⟩ := List.exists_cons_of_ne_nil (ne_nil_of_isName (h name List.mem_cons_self))
  have first : ∃ ds, ("/".intercalate (name :: rest)).toList = c :: ds := by
    rw [toList_intercalate, List.map_cons, hc]
    cases rest with
    | nil => exact ⟨cs, by simp [joinPieces, List.intercalate]⟩
    | cons name' rest =>
      rw [List.map_cons, joinPieces_cons, List.cons_append]
      exact ⟨_, rfl⟩
  obtain ⟨ds, hd⟩ := first
  rw [hc, List.mem_cons, not_or] at slash
  rw [isAbsolute, hd]
  show ('/' == c && _) = false
  rw [beq_eq_false_iff_ne.mpr slash.1, Bool.false_and]

theorem getLast?_absolute {l : Location} (h : ∀ name ∈ l, isName name = true) (nonempty : l ≠ []) :
    (FileTree.absolute l).toList.getLast? ≠ .some '/' := by
  obtain ⟨init, last, rfl⟩ : ∃ init last, l = init ++ [last] :=
    ⟨_, _, (List.dropLast_concat_getLast nonempty).symm⟩
  have name := h last (by simp)
  have hc := List.getLast?_eq_some_getLast (ne_nil_of_isName name)
  rw [toList_absolute, List.map_append, List.map_singleton, List.getLast?_cons,
    getLast?_joinPieces (ne_nil_of_isName name), hc, Option.getD_some, ne_eq, Option.some.injEq]
  intro slash
  rw [slash] at hc
  exact no_slash_of_isName name (List.mem_of_getLast? hc)

/-- Names behind an absolute path lead further down. -/
theorem join_absolute {l names : Location} (hl : ∀ name ∈ l, isName name = true)
    (hn : ∀ name ∈ names, isName name = true) (nonempty : names ≠ []) :
    join (FileTree.absolute l) ("/".intercalate names) = FileTree.absolute (l ++ names) := by
  rw [join, if_neg (by rw [isAbsolute_intercalate hn nonempty]; exact Bool.false_ne_true)]
  cases l with
  | nil => rfl
  | cons name l =>
    have unslashed : ((FileTree.absolute (name :: l)).isEmpty ||
        (FileTree.absolute (name :: l)).toList.getLast? == .some '/') = false := by
      rw [Bool.or_eq_false_iff]
      refine ⟨?_, by simpa using getLast?_absolute hl (by simp)⟩
      simp [FileTree.absolute]
    rw [unslashed, if_neg Bool.false_ne_true, ← String.toList_inj, String.toList_append,
      String.toList_append, toList_absolute, toList_absolute, toList_intercalate, List.map_append,
      joinPieces_append (by simp) (by simpa using nonempty)]
    simp

/-! ### One more name -/

theorem startsCurrent_append (xs ys : List Char) :
    startsCurrent (xs ++ '/' :: ys) = startsCurrent xs := by
  obtain ⟨w, ws, h⟩ := exists_pieces xs
  rw [startsCurrent, startsCurrent, pieces_append, h]
  rfl

theorem head_append {xs : List Char} (nonempty : xs ≠ []) (ys : List Char) :
    head (xs ++ '/' :: ys) = head xs := by
  obtain ⟨x, xs, rfl⟩ := List.exists_cons_of_ne_nil nonempty
  by_cases slash : x = '/'
  · rw [slash]; rfl
  · have other (zs : List Char) :
        head (x :: zs) = if startsCurrent (x :: zs) then [.current] else [] := by
      simp [head, slash]
    rw [List.cons_append, other, other, ← List.cons_append, startsCurrent_append]

theorem isAbsolute_of_no_slash {name : String} (h : '/' ∉ name.toList) : isAbsolute name = false := by
  rw [isAbsolute]
  cases chars : name.toList with
  | nil => rfl
  | cons c cs =>
    rw [chars, List.mem_cons, not_or] at h
    show ('/' == c && _) = false
    rw [beq_eq_false_iff_ne.mpr h.1, Bool.false_and]

/-- A path is put behind another by a slash, unless that one ends with it. -/
theorem toList_join_relative {folder p : String} (filled : folder ≠ "") (h : isAbsolute p = false) :
    ∃ init, (join folder p).toList = init ++ '/' :: p.toList ∧
      (folder.toList = init ++ ['/'] ∨ folder.toList = init ∧ init ≠ []) := by
  have empty : folder.isEmpty = false := by simpa [String.isEmpty_iff] using filled
  rw [join, if_neg (by rw [h]; exact Bool.false_ne_true), empty, Bool.false_or]
  split
  · rename_i slash
    obtain ⟨init, hi⟩ := List.getLast?_eq_some_iff.mp (eq_of_beq slash)
    exact ⟨init, by rw [String.toList_append, hi, List.append_assoc, List.singleton_append],
      .inl hi⟩
  · refine ⟨folder.toList, by simp [String.toList_append], .inr ⟨rfl, fun nil => ?_⟩⟩
    exact filled (String.toList_eq_nil_iff.mp nil)

theorem mem_join_relative {folder p : String} (filled : folder ≠ "") (h : isAbsolute p = false)
    {c : Char} (hc : c ∈ (join folder p).toList) : c ∈ folder.toList ∨ c = '/' ∨ c ∈ p.toList := by
  obtain ⟨init, joined, same⟩ := toList_join_relative filled h
  rw [joined, List.mem_append, List.mem_cons] at hc
  refine hc.imp_left fun before => ?_
  rcases same with same | ⟨same, _⟩
  · rw [same]; exact List.mem_append_left _ before
  · rw [same]; exact before

theorem mem_join {folder name : String} (filled : folder ≠ "") (h : isName name = true) {c : Char}
    (hc : c ∈ (join folder name).toList) : c ∈ folder.toList ∨ c = '/' ∨ c ∈ name.toList :=
  mem_join_relative filled (isAbsolute_of_no_slash (no_slash_of_isName h)) hc

theorem getLast?_pieces_join_relative {folder name : String} (filled : folder ≠ "")
    (h : '/' ∉ name.toList) : (pieces (join folder name).toList).getLast? = .some name.toList := by
  obtain ⟨init, joined, _⟩ := toList_join_relative filled (isAbsolute_of_no_slash h)
  rw [joined, pieces_append, pieces_of_no_slash h, List.getLast?_concat]

theorem getLast?_pieces_join {folder name : String} (filled : folder ≠ "")
    (h : isName name = true) :
    (pieces (join folder name).toList).getLast? = .some name.toList :=
  getLast?_pieces_join_relative filled (no_slash_of_isName h)

/-- A path behind another is taken as further steps. -/
theorem components_join_relative {folder p : String} (filled : folder ≠ "")
    (h : isAbsolute p = false) :
    components (join folder p) = components folder ++ pieceSteps (pieces p.toList) := by
  obtain ⟨init, joined, same | ⟨same, filled⟩⟩ := toList_join_relative filled h
  · have lead : head (init ++ '/' :: p.toList) = head (init ++ ['/']) := by
      cases init with
      | nil => rfl
      | cons c init => rw [head_append (by simp), head_append (by simp)]
    have idle : pieceSteps (pieces (init ++ ['/'])) = pieceSteps (pieces init) := by
      rw [pieces_append, pieceSteps_append]
      exact List.append_nil _
    rw [components_eq, components_eq, joined, same, lead, idle, pieces_append, pieceSteps_append,
      List.append_assoc]
  · rw [components_eq, components_eq, joined, same, head_append filled, pieces_append,
      pieceSteps_append, List.append_assoc]

/-- A plain name behind a path is one more step. -/
theorem components_join {folder name : String} (filled : folder ≠ "") (h : isName name = true) :
    components (join folder name) = components folder ++ [.name name.toList] := by
  have slash := no_slash_of_isName h
  have single : pieceSteps [name.toList] = [.name name.toList] :=
    @pieceSteps_names [name] (by simpa using h)
  rw [components_join_relative filled (isAbsolute_of_no_slash slash), pieces_of_no_slash slash,
    single]

end Forwarding.Path
