import Forwarding.Proofs.Syntax.Scanning
import Mathlib.Data.List.Forall2
import Mathlib.Data.List.TakeWhile

/-!
A source without its comments. White space takes the place of every comment, and the tokens stay what
they are: only what stands in front of them changes, and that only where a comment stood.
-/

namespace Forwarding.Syntax

/-- What is written in the place of comments. -/
structure Filler where
  /-- The white space for the comment at the front of a text; in the condition of a directive it has
  to stay on the line. -/
  fill : Bool → List Char → List Char
  ne_nil : ∀ withinLine cs, fill withinLine cs ≠ []
  isSpace : ∀ withinLine cs, ∀ c ∈ fill withinLine cs, Syntax.isSpace c = true
  oneLine : ∀ cs, '\n' ∉ fill true cs

/-- One blank for every comment. -/
def Filler.blank : Filler where
  fill _ _ := [' ']
  ne_nil := by simp
  isSpace := by simp [Syntax.isSpace]
  oneLine := by simp

/-- The trivia at the front of a text, with white space for its comments; directives stay with all
that is on their line. The first `pending` characters belong to a remark that is done with. -/
def blankFrom (w : Filler) (withinLine : Bool) : Nat → List Char → List Char
  | _, [] => []
  | pending + 1, _ :: cs => blankFrom w withinLine pending cs
  | 0, c :: cs =>
    if isSpace c && !(withinLine && c == '\n') then c :: blankFrom w withinLine 0 cs
    else
      match remarkLength? (c :: cs) with
      | some (n + 1) =>
        (if c == '/' then w.fill withinLine (c :: cs) else c :: cs.take n) ++
          blankFrom w withinLine n cs
      | _ => []

/-- The trivia in front of the next token, with white space for its comments. -/
def LexState.blankLead (s : LexState) (w : Filler) (cs : List Char) : List Char :=
  if s.inText then [] else blankFrom w s.inCondition 0 cs

/-- The text that starts in the state `s`, with white space for its comments. A token has at least
one character, so `fuel` as large as the text reaches its end. -/
def uncommentFrom (w : Filler) : Nat → LexState → List Char → List Char
  | 0, _, cs => cs
  | fuel + 1, s, cs =>
    match cs.drop (s.triviaLength cs) with
    | [] => s.blankLead w cs
    | c :: rest =>
      let (_, n, next) := s.scan (c :: rest)
      s.blankLead w cs ++
        c :: (rest.take (n - 1) ++ uncommentFrom w fuel next (rest.drop (n - 1)))

/-- A source with white space for its comments. -/
def uncommented (w : Filler) (source : String) : String :=
  let cs := source.toList
  let n := shebangLength cs
  String.ofList (cs.take n ++ uncommentFrom w (cs.length + 1) {} (cs.drop n))

/-! ### Trivia, piece by piece -/

theorem remarkLength?_of_ne {c : Char} (slash : c ≠ '/') (hash : c ≠ '#') (cs : List Char) :
    remarkLength? (c :: cs) = none := by
  unfold remarkLength?
  split <;> simp_all

theorem blockCommentRest_bounds {n : Nat} {cs : List Char} (found : blockCommentRest cs = some n) :
    n ≤ cs.length := by
  fun_induction blockCommentRest cs generalizing n with
  | case1 => cases found
  | case2 => cases found; simp
  | case3 c cs _ ih =>
    obtain ⟨m, inner, rfl⟩ := Option.map_eq_some_iff.mp found
    have := ih inner
    simp only [List.length_cons]
    omega

/-- A remark has at least two characters. -/
theorem remarkLength?_bounds {n : Nat} {cs : List Char} (found : remarkLength? cs = some n) :
    2 ≤ n ∧ n ≤ cs.length := by
  unfold remarkLength? at found
  split at found
  · rename_i cs
    cases found
    have := (List.takeWhile_sublist (fun c => c != '\n' && c != '\r') (l := cs)).length_le
    simp only [List.length_cons]
    omega
  · obtain ⟨m, inner, rfl⟩ := Option.map_eq_some_iff.mp found
    have := blockCommentRest_bounds inner
    simp only [List.length_cons]
    omega
  · obtain ⟨conditions, same⟩ := Option.ite_none_right_eq_some.mp found
    cases same
    simp only [Bool.and_eq_true, decide_eq_true_eq] at conditions
    simp only [List.length_cons]
    omega
  · cases found

theorem head_of_remarkLength? {n : Nat} {c : Char} {cs : List Char}
    (found : remarkLength? (c :: cs) = some n) : c = '/' ∨ c = '#' := by
  by_contra other
  rw [not_or] at other
  rw [remarkLength?_of_ne other.1 other.2] at found
  cases found

theorem triviaFrom_pending (withinLine : Bool) {n : Nat} {cs : List Char} (enough : n ≤ cs.length) :
    triviaFrom withinLine n cs = n + triviaFrom withinLine 0 (cs.drop n) := by
  induction n generalizing cs with
  | zero => simp
  | succ n ih =>
    cases cs with
    | nil => exact absurd enough (Nat.not_succ_le_zero n)
    | cons c cs =>
      rw [triviaFrom, ih (Nat.le_of_succ_le_succ enough), List.drop_succ_cons]
      omega

theorem blankFrom_pending (w : Filler) (withinLine : Bool) {n : Nat} {cs : List Char} :
    blankFrom w withinLine n cs = blankFrom w withinLine 0 (cs.drop n) := by
  induction n generalizing cs with
  | zero => simp
  | succ n ih =>
    cases cs with
    | nil => simp [blankFrom]
    | cons c cs => rw [blankFrom, ih, List.drop_succ_cons]

section Pieces

variable {withinLine : Bool} {c : Char} {r cs : List Char}

theorem triviaFrom_space (space : (isSpace c && !(withinLine && c == '\n')) = true) :
    triviaFrom withinLine 0 (c :: cs) = triviaFrom withinLine 0 cs + 1 := by
  rw [triviaFrom, if_pos space]

theorem blankFrom_space (w : Filler) (space : (isSpace c && !(withinLine && c == '\n')) = true) :
    blankFrom w withinLine 0 (c :: cs) = c :: blankFrom w withinLine 0 cs := by
  rw [blankFrom, if_pos space]

theorem not_space_of_remarkLength? {n : Nat} (found : remarkLength? (c :: cs) = some n) :
    isSpace c = false := by
  rcases head_of_remarkLength? found with rfl | rfl <;> decide

theorem triviaFrom_remark (found : remarkLength? (c :: (r ++ cs)) = some (r.length + 1)) :
    triviaFrom withinLine 0 (c :: (r ++ cs)) = r.length + 1 + triviaFrom withinLine 0 cs := by
  have enough : r.length ≤ (r ++ cs).length := by simp
  rw [triviaFrom, not_space_of_remarkLength? found, found]
  simp only [triviaFrom_pending withinLine enough, List.drop_left]
  simp only [Bool.false_and, Bool.false_eq_true, if_false]
  omega

theorem blankFrom_comment (w : Filler)
    (found : remarkLength? ('/' :: (r ++ cs)) = some (r.length + 1)) :
    blankFrom w withinLine 0 ('/' :: (r ++ cs)) =
      w.fill withinLine ('/' :: (r ++ cs)) ++ blankFrom w withinLine 0 cs := by
  rw [blankFrom, not_space_of_remarkLength? found, found]
  simp [blankFrom_pending w withinLine (n := r.length)]

theorem blankFrom_directive (w : Filler)
    (found : remarkLength? ('#' :: (r ++ cs)) = some (r.length + 1)) :
    blankFrom w withinLine 0 ('#' :: (r ++ cs)) = '#' :: (r ++ blankFrom w withinLine 0 cs) := by
  rw [blankFrom, not_space_of_remarkLength? found, found]
  simp [blankFrom_pending w withinLine (n := r.length)]

theorem triviaFrom_eq_zero_iff :
    triviaFrom withinLine 0 (c :: cs) = 0 ↔
      (isSpace c && !(withinLine && c == '\n')) = false ∧ remarkLength? (c :: cs) = none := by
  rw [triviaFrom]
  cases space : (isSpace c && !(withinLine && c == '\n')) with
  | true => simp
  | false =>
    cases found : remarkLength? (c :: cs) with
    | none => simp
    | some n =>
      have := (remarkLength?_bounds found).1
      obtain ⟨n, rfl⟩ : ∃ m, n = m + 1 := ⟨n - 1, by omega⟩
      simp

theorem blankFrom_of_triviaFrom (w : Filler) (fromBlank : triviaFrom withinLine 0 cs = 0) :
    blankFrom w withinLine 0 cs = [] := by
  cases cs with
  | nil => rfl
  | cons c cs =>
    obtain ⟨space, remark⟩ := triviaFrom_eq_zero_iff.mp fromBlank
    rw [blankFrom, space, remark]
    rfl

end Pieces

/-- Trivia is white space and remarks, up to where it stops. -/
@[elab_as_elim]
theorem triviaInduction (withinLine : Bool) {motive : List Char → Prop}
    (stop : ∀ cs, triviaFrom withinLine 0 cs = 0 → motive cs)
    (space : ∀ c cs, (isSpace c && !(withinLine && c == '\n')) = true → motive cs → motive (c :: cs))
    (remark : ∀ c r cs, remarkLength? (c :: (r ++ cs)) = some (r.length + 1) → motive cs →
      motive (c :: (r ++ cs)))
    (cs : List Char) : motive cs := by
  induction size : cs.length using Nat.strongRecOn generalizing cs with
  | ind size ih =>
    cases cs with
    | nil => exact stop [] rfl
    | cons c cs =>
      rw [List.length_cons] at size
      cases blank : (isSpace c && !(withinLine && c == '\n')) with
      | true => exact space c cs blank (ih cs.length (by omega) cs rfl)
      | false =>
        cases found : remarkLength? (c :: cs) with
        | none => exact stop _ (triviaFrom_eq_zero_iff.mpr ⟨blank, found⟩)
        | some n =>
          obtain ⟨low, high⟩ := remarkLength?_bounds found
          have length : (cs.take (n - 1)).length + 1 = n := by
            rw [List.length_take, Nat.min_eq_left] <;> simp only [List.length_cons] at high <;> omega
          rw [← List.take_append_drop (n - 1) cs]
          refine remark c _ _ ?_ (ih _ ?_ _ rfl)
          · rw [List.take_append_drop, length, found]
          · rw [List.length_drop]
            omega

/-! ### Trivia without its comments -/

theorem takeWhile_append_stop {p : Char → Bool} {d : Char} (stop : p d = false) (l x : List Char) :
    (l ++ d :: x).takeWhile p = l.takeWhile p := by
  induction l with
  | nil => simp [stop]
  | cons c l ih => simp [List.takeWhile_cons, ih]

theorem dropWhile_append_stop {p : Char → Bool} {d : Char} (stop : p d = false) (l x : List Char) :
    (l ++ d :: x).dropWhile p = l.dropWhile p ++ d :: x := by
  induction l with
  | nil => simp [stop]
  | cons c l ih =>
    by_cases more : p c = true
    · simp [more, ih]
    · simp [more]

/-- What a directive says is on its line. -/
theorem directiveParts_append (line x : List Char) :
    directiveParts (line ++ '\n' :: x) = directiveParts (line ++ ['\n']) := by
  have gap : ('\n' == ' ' || '\n' == '\t') = false := rfl
  have letter : Char.isAlpha '\n' = false := rfl
  have same : ('\n' != '\n') = false := rfl
  simp only [directiveParts, dropWhile_append_stop, takeWhile_append_stop, gap, letter, same]

theorem exists_line {cs : List Char} (short : (cs.takeWhile (· != '\n')).length < cs.length) :
    ∃ x, cs = cs.takeWhile (· != '\n') ++ '\n' :: x := by
  induction cs with
  | nil => simp at short
  | cons c cs ih =>
    by_cases newline : c = '\n'
    · exact ⟨cs, by simp [newline]⟩
    · have more : (c != '\n') = true := bne_iff_ne.mpr newline
      rw [List.takeWhile_cons_of_pos (p := (· != '\n')) more] at short ⊢
      obtain ⟨x, same⟩ := ih (Nat.lt_of_succ_lt_succ short)
      exact ⟨x, by rw [List.cons_append, ← same]⟩

theorem remarkLength?_hash (cs : List Char) :
    remarkLength? ('#' :: cs) =
      if isSkippedDirective (directiveParts cs).1 (directiveParts cs).2 &&
          (cs.takeWhile (· != '\n')).length < cs.length then
        some ((cs.takeWhile (· != '\n')).length + 2)
      else none := rfl

/-- A skipped directive is one whatever follows its line. -/
theorem remarkLength?_directive {r cs : List Char} (tail : List Char)
    (found : remarkLength? ('#' :: (r ++ cs)) = some (r.length + 1)) :
    remarkLength? ('#' :: (r ++ tail)) = some (r.length + 1) := by
  simp only [remarkLength?_hash, Option.ite_none_right_eq_some, Bool.and_eq_true,
    decide_eq_true_eq] at found
  obtain ⟨⟨skipped, short⟩, length⟩ := found
  obtain ⟨x, whole⟩ := exists_line short
  generalize lineEq : (r ++ cs).takeWhile (· != '\n') = line at *
  have own : line.takeWhile (· != '\n') = line := by
    rw [List.takeWhile_eq_self_iff, ← lineEq]
    exact fun c mem => List.mem_takeWhile_imp (p := (· != '\n')) mem
  -- The remark is the line with its end.
  obtain ⟨rfl, rfl⟩ : r = line ++ ['\n'] ∧ cs = x := by
    apply List.append_inj
    · rw [whole, List.append_assoc, List.singleton_append]
    · simp only [Option.some.injEq] at length
      simp only [List.length_append, List.length_singleton]
      omega
  rw [List.append_assoc, List.singleton_append, directiveParts_append] at skipped
  rw [List.append_assoc, List.singleton_append, remarkLength?_hash, directiveParts_append, skipped,
    takeWhile_append_stop (p := (· != '\n')) rfl, own]
  simp

theorem triviaFrom_spaces {withinLine : Bool} {l : List Char}
    (spaces : ∀ c ∈ l, (isSpace c && !(withinLine && c == '\n')) = true) (tail : List Char) :
    triviaFrom withinLine 0 (l ++ tail) = l.length + triviaFrom withinLine 0 tail := by
  induction l with
  | nil => simp
  | cons c l ih =>
    rw [List.forall_mem_cons] at spaces
    rw [List.cons_append, triviaFrom_space spaces.1, ih spaces.2, List.length_cons]
    omega

theorem Filler.spaces (w : Filler) (withinLine : Bool) (cs : List Char) :
    ∀ c ∈ w.fill withinLine cs, (Syntax.isSpace c && !(withinLine && c == '\n')) = true := by
  intro c mem
  have space := w.isSpace withinLine cs c mem
  cases withinLine with
  | false => simp [space]
  | true =>
    have : c ≠ '\n' := fun same => w.oneLine cs (same ▸ mem)
    simp [space, this]

theorem triviaFrom_blankFrom (w : Filler) (withinLine : Bool) (cs tail : List Char) :
    triviaFrom withinLine 0 (blankFrom w withinLine 0 cs ++ tail) =
      (blankFrom w withinLine 0 cs).length + triviaFrom withinLine 0 tail := by
  induction cs using triviaInduction withinLine with
  | stop cs fromBlank => simp [blankFrom_of_triviaFrom w fromBlank]
  | space c cs space ih =>
    rw [blankFrom_space w space, List.cons_append, triviaFrom_space space, ih, List.length_cons]
    omega
  | remark c r cs found ih =>
    rcases head_of_remarkLength? found with rfl | rfl
    · rw [blankFrom_comment w found, List.append_assoc, triviaFrom_spaces (w.spaces _ _), ih,
        List.length_append]
      omega
    · have kept := remarkLength?_directive (blankFrom w withinLine 0 cs ++ tail) found
      rw [blankFrom_directive w found, List.cons_append, List.append_assoc, triviaFrom_remark kept,
        ih, List.length_cons, List.length_append]
      omega

theorem take_remark (c : Char) (r cs : List Char) (n : Nat) :
    (c :: (r ++ cs)).take (r.length + 1 + n) = c :: (r ++ cs.take n) := by
  rw [Nat.add_right_comm, List.take_succ_cons, List.take_length_add_append]

theorem drop_remark (c : Char) (r cs : List Char) (n : Nat) :
    (c :: (r ++ cs)).drop (r.length + 1 + n) = cs.drop n := by
  rw [Nat.add_right_comm, List.drop_succ_cons, List.drop_length_add_append]

theorem agree_append (l : List Char) {a b : List Char} (h : Agree a b) :
    Agree (l ++ a) (l ++ b) := by
  induction l with
  | nil => exact h
  | cons c l ih => exact .cons c ih

theorem agree_blankFrom (w : Filler) (withinLine : Bool) {cs tail : List Char}
    (h : Agree (cs.drop (triviaFrom withinLine 0 cs)) tail) :
    Agree cs (blankFrom w withinLine 0 cs ++ tail) := by
  induction cs using triviaInduction withinLine with
  | stop cs fromBlank =>
    rw [fromBlank] at h
    rw [blankFrom_of_triviaFrom w fromBlank]
    exact h
  | space c cs space ih =>
    rw [triviaFrom_space space] at h
    rw [blankFrom_space w space]
    exact .cons c (ih h)
  | remark c r cs found ih =>
    rw [triviaFrom_remark found] at h
    rcases head_of_remarkLength? found with rfl | rfl
    · rw [blankFrom_comment w found]
      obtain ⟨d, l, filled⟩ := List.exists_cons_of_ne_nil (w.ne_nil withinLine ('/' :: (r ++ cs)))
      rw [filled]
      exact .apart (w.isSpace _ _ d (filled ▸ List.mem_cons_self))
    · rw [blankFrom_directive w found]
      rw [drop_remark] at h
      rw [List.cons_append, List.append_assoc]
      exact .cons '#' (agree_append r (ih h))

/-- Where no comment stands nothing changes. -/
theorem blankFrom_eq_nil_iff (w : Filler) (withinLine : Bool) (cs : List Char) :
    blankFrom w withinLine 0 cs = [] ↔ triviaFrom withinLine 0 cs = 0 := by
  refine ⟨?_, blankFrom_of_triviaFrom w⟩
  induction cs using triviaInduction withinLine with
  | stop cs fromBlank => exact fun _ => fromBlank
  | space c cs space ih =>
    rw [blankFrom_space w space]
    exact fun empty => nomatch empty
  | remark c r cs found ih =>
    rcases head_of_remarkLength? found with rfl | rfl
    · rw [blankFrom_comment w found]
      intro empty
      exact absurd (List.append_eq_nil_iff.mp empty).1 (w.ne_nil _ _)
    · rw [blankFrom_directive w found]
      exact fun empty => nomatch empty

/-- A comment starts somewhere in a text. -/
def opensComment : List Char → Bool
  | '/' :: '/' :: _ => true
  | '/' :: '*' :: _ => true
  | _ :: cs => opensComment cs
  | [] => false

theorem opensComment_tail {c : Char} {cs : List Char} (unopened : opensComment (c :: cs) = false) :
    opensComment cs = false := by
  unfold opensComment at unopened
  split at unopened <;> simp_all

theorem opensComment_append {a b : List Char} (unopened : opensComment (a ++ b) = false) :
    opensComment b = false := by
  induction a with
  | nil => exact unopened
  | cons c a ih => exact ih (opensComment_tail unopened)

theorem opensComment_comment {r cs : List Char}
    (found : remarkLength? ('/' :: (r ++ cs)) = some (r.length + 1)) (tail : List Char) :
    opensComment ('/' :: (r ++ tail)) = true := by
  have long := (remarkLength?_bounds found).1
  cases r with
  | nil => simp at long
  | cons d r =>
    by_cases line : d = '/'
    · rw [line]
      rfl
    · by_cases block : d = '*'
      · rw [block]
        rfl
      · simp [remarkLength?, line, block] at found

theorem blankFrom_of_opensComment (w : Filler) (withinLine : Bool) {cs : List Char}
    (unopened : opensComment (cs.take (triviaFrom withinLine 0 cs)) = false) :
    blankFrom w withinLine 0 cs = cs.take (triviaFrom withinLine 0 cs) := by
  induction cs using triviaInduction withinLine with
  | stop cs stop => rw [stop, blankFrom_of_triviaFrom w stop, List.take_zero]
  | space c cs space ih =>
    rw [triviaFrom_space space, List.take_succ_cons] at unopened ⊢
    rw [blankFrom_space w space, ih (opensComment_tail unopened)]
  | remark c r cs found ih =>
    rw [triviaFrom_remark found, take_remark] at unopened ⊢
    rcases head_of_remarkLength? found with rfl | rfl
    · rw [opensComment_comment found] at unopened
      cases unopened
    · rw [blankFrom_directive w found, ih (opensComment_append (opensComment_tail unopened))]

theorem triviaFrom_drop (withinLine : Bool) (cs : List Char) :
    triviaFrom withinLine 0 (cs.drop (triviaFrom withinLine 0 cs)) = 0 := by
  induction cs using triviaInduction withinLine with
  | stop cs stop => rw [stop, List.drop_zero, stop]
  | space c cs space ih => rw [triviaFrom_space space, List.drop_succ_cons, ih]
  | remark c r cs found ih => rw [triviaFrom_remark found, drop_remark, ih]

namespace LexState

variable (s : LexState) (w : Filler)

theorem triviaLength_drop (cs : List Char) : s.triviaLength (cs.drop (s.triviaLength cs)) = 0 := by
  unfold triviaLength
  split
  · rfl
  · exact triviaFrom_drop s.inCondition cs

theorem triviaLength_blankLead (cs tail : List Char) :
    s.triviaLength (s.blankLead w cs ++ tail) =
      (s.blankLead w cs).length + s.triviaLength tail := by
  unfold triviaLength blankLead
  split
  · rfl
  · exact triviaFrom_blankFrom w s.inCondition cs tail

theorem agree_blankLead {cs tail : List Char} (h : Agree (cs.drop (s.triviaLength cs)) tail) :
    Agree cs (s.blankLead w cs ++ tail) := by
  unfold triviaLength at h
  unfold blankLead
  split_ifs at h ⊢
  · exact h
  · exact agree_blankFrom w s.inCondition h

theorem blankLead_eq_nil_iff (cs : List Char) :
    s.blankLead w cs = [] ↔ s.triviaLength cs = 0 := by
  unfold triviaLength blankLead
  split
  · simp
  · exact blankFrom_eq_nil_iff w s.inCondition cs

theorem blankLead_of_opensComment {cs : List Char}
    (unopened : opensComment (cs.take (s.triviaLength cs)) = false) :
    s.blankLead w cs = cs.take (s.triviaLength cs) := by
  unfold triviaLength at unopened ⊢
  unfold blankLead
  split_ifs at unopened ⊢
  · rfl
  · exact blankFrom_of_opensComment w s.inCondition unopened

end LexState

end Forwarding.Syntax
