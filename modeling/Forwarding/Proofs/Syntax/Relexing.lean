import Forwarding.Proofs.Syntax.Comments
import Forwarding.Proofs.Syntax.GrammarLaws

/-!
The tokens of a source without its comments. They are the tokens of the source, in the same order;
only the lead of a token changes, and only where it holds a comment.
-/

namespace Forwarding.Syntax

/-- A comment stands in front of the token. -/
def Token.isCommented (t : Token) : Bool :=
  opensComment t.lead.toList

/-- The second token is the first one once the comments are blanked. -/
structure Token.Blanked (t u : Token) : Prop extends Token.Alike t u where
  lead : t.isCommented = false → u.lead = t.lead

/-! ### Where tokens start -/

theorem directiveParts_fst (cs : List Char) :
    (directiveParts cs).1 =
      String.ofList ((cs.drop (cs.takeWhile fun c => c == ' ' || c == '\t').length).takeWhile
        Char.isAlpha) := by
  have same (p : Char → Bool) : cs.dropWhile p = cs.drop (cs.takeWhile p).length := by
    have split := List.takeWhile_append_dropWhile (p := p) (l := cs)
    calc cs.dropWhile p = (cs.takeWhile p ++ cs.dropWhile p).drop (cs.takeWhile p).length :=
          List.drop_left.symm
      _ = cs.drop (cs.takeWhile p).length := by rw [split]
  rw [directiveParts, same]

/-- A directive that selects code is not skipped. -/
theorem remarkLength?_of_directive? {cs : List Char} {name : String} {n : Nat}
    (found : directive? ('#' :: cs) = some (name, n)) : remarkLength? ('#' :: cs) = none := by
  simp only [directive?, Option.ite_none_right_eq_some, Option.some.injEq, Prod.mk.injEq,
    ← directiveParts_fst] at found
  obtain ⟨listed, -, -⟩ := found
  have selects : isSkippedDirective (directiveParts cs).1 (directiveParts cs).2 = false := by
    simp only [List.contains_eq_mem, decide_eq_true_eq, List.mem_cons, List.not_mem_nil,
      or_false] at listed
    rcases listed with same | same | same | same <;> rw [same] <;> rfl
  rw [remarkLength?_hash, selects]
  rfl

namespace LexState

variable {s : LexState} {c : Char} {a b : List Char}

theorem remarkLength?_slash_of_ne {d : Char} (line : d ≠ '/') (block : d ≠ '*') (cs : List Char) :
    remarkLength? ('/' :: d :: cs) = none := by
  unfold remarkLength?
  split <;> simp_all

theorem remarkLength?_of_agreeFor (stop : remarkLength? (c :: a) = none)
    (valid : (s.scanCode (c :: a)).1 ≠ .invalid)
    (h : AgreeFor ((s.scanCode (c :: a)).2.1 - 1) a b) : remarkLength? (c :: b) = none := by
  by_cases slash : c = '/'
  · subst slash
    cases h.agree with
    | nil => exact stop
    | cons d rest =>
      by_cases line : d = '/'
      · subst line
        cases stop
      · by_cases block : d = '*'
        · subst block
          exact absurd rfl valid
        · exact remarkLength?_slash_of_ne line block _
    | apart space =>
      exact remarkLength?_slash_of_ne (ne_of_space space rfl) (ne_of_space space rfl) _
  · by_cases hash : c = '#'
    · subst hash
      cases found : directive? ('#' :: a) with
      | none => exact absurd (s.scanCode_hash found) valid
      | some named =>
        rw [scanCode_eq, found] at h
        exact remarkLength?_of_directive? (directive?_of_agreeFor found h)
    · exact remarkLength?_of_ne slash hash b

/-- White space in the place of comments does not hide the start of a token. -/
theorem triviaLength_of_agreeFor (stop : s.triviaLength (c :: a) = 0)
    (valid : (s.scan (c :: a)).1 ≠ .invalid) (h : AgreeFor ((s.scan (c :: a)).2.1 - 1) a b) :
    s.triviaLength (c :: b) = 0 := by
  unfold triviaLength at stop ⊢
  cases inText : s.inText with
  | true => rfl
  | false =>
    simp only [inText, Bool.false_eq_true, if_false, triviaFrom_eq_zero_iff] at stop ⊢
    simp only [scan, inText] at valid h
    exact ⟨stop.1, remarkLength?_of_agreeFor stop.2 valid h⟩

end LexState

/-! ### The run of the lexer -/

theorem agreeFor_take (n : Nat) {a b : List Char} (h : Agree (a.drop n) b) :
    AgreeFor n a (a.take n ++ b) := by
  induction n generalizing a with
  | zero => exact h
  | succ n ih =>
    cases a with
    | nil =>
      cases (show Agree [] b from h)
      rfl
    | cons c a => exact ⟨_, rfl, ih h⟩

section Uncommenting

variable {w : Filler} {fuel : Nat} {s : LexState} {c : Char} {cs rest : List Char}

theorem uncommentFrom_done (behind : cs.drop (s.triviaLength cs) = []) :
    uncommentFrom w (fuel + 1) s cs = s.blankLead w cs := by
  rw [uncommentFrom, behind]

/-- What is left of the text behind the first character of its first token. -/
def uncommentRest (w : Filler) (fuel : Nat) (s : LexState) (c : Char) (rest : List Char) :
    List Char :=
  let n := (s.scan (c :: rest)).2.1 - 1
  rest.take n ++ uncommentFrom w fuel (s.scan (c :: rest)).2.2 (rest.drop n)

theorem uncommentFrom_token (behind : cs.drop (s.triviaLength cs) = c :: rest) :
    uncommentFrom w (fuel + 1) s cs = s.blankLead w cs ++ c :: uncommentRest w fuel s c rest := by
  rw [uncommentFrom, behind]
  rfl

end Uncommenting

theorem agree_uncommentFrom (w : Filler) (fuel : Nat) (s : LexState) (cs : List Char) :
    Agree cs (uncommentFrom w fuel s cs) := by
  induction fuel generalizing s cs with
  | zero => exact agree_refl cs
  | succ fuel ih =>
    cases behind : cs.drop (s.triviaLength cs) with
    | nil =>
      have stop : Agree (cs.drop (s.triviaLength cs)) [] := behind ▸ .nil
      rw [uncommentFrom_done behind, ← List.append_nil (s.blankLead w cs)]
      exact s.agree_blankLead w stop
    | cons c rest =>
      rw [uncommentFrom_token behind]
      apply s.agree_blankLead w
      rw [behind]
      exact .cons c (agreeFor_take _ (ih _ _)).agree

theorem drop_take_append {n : Nat} {a b : List Char} (h : Agree (a.drop n) b) :
    (a.take n ++ b).drop n = b ∧ (a.take n ++ b).take n = a.take n := by
  by_cases enough : n ≤ a.length
  · have length : (a.take n).length = n := List.length_take_of_le enough
    exact ⟨List.drop_left' length, List.take_left' length⟩
  · rw [List.drop_of_length_le (by omega)] at h
    cases h
    simp [List.drop_of_length_le, Nat.le_of_not_le enough, List.take_take]

theorem take_uncommentRest (w : Filler) (fuel : Nat) (s : LexState) (c : Char) (rest : List Char) :
    (uncommentRest w fuel s c rest).take ((s.scan (c :: rest)).2.1 - 1) =
      rest.take ((s.scan (c :: rest)).2.1 - 1) :=
  (drop_take_append (agree_uncommentFrom w fuel _ _)).2

theorem drop_uncommentRest (w : Filler) (fuel : Nat) (s : LexState) (c : Char) (rest : List Char) :
    (uncommentRest w fuel s c rest).drop ((s.scan (c :: rest)).2.1 - 1) =
      uncommentFrom w fuel (s.scan (c :: rest)).2.2 (rest.drop ((s.scan (c :: rest)).2.1 - 1)) :=
  (drop_take_append (agree_uncommentFrom w fuel _ _)).1

theorem agreeFor_uncommentRest (w : Filler) (fuel : Nat) (s : LexState) (c : Char)
    (rest : List Char) :
    AgreeFor ((s.scan (c :: rest)).2.1 - 1) rest (uncommentRest w fuel s c rest) :=
  agreeFor_take _ (agree_uncommentFrom w fuel _ _)

theorem lexFrom_done {fuel n : Nat} {s : LexState} {p : Position} {front cs : List Char}
    (behind : cs.drop n = []) : lexFrom fuel s p (front.length + n) (front ++ cs) = [] := by
  cases fuel with
  | zero => rfl
  | succ fuel => rw [lexFrom, List.drop_length_add_append, behind]

/-- The token at the front of `c :: rest`, behind the lead that is given. -/
def tokenAt (s : LexState) (p : Position) (lead : List Char) (c : Char) (rest : List Char) : Token :=
  { kind := (s.scan (c :: rest)).1
    lead := String.ofList lead
    text := String.ofList (c :: rest.take ((s.scan (c :: rest)).2.1 - 1))
    start := p.after (String.ofList lead) }

theorem isAdjacent_tokenAt (s : LexState) (p : Position) (lead : List Char) (c : Char)
    (rest : List Char) : (tokenAt s p lead c rest).isAdjacent = lead.isEmpty := by
  cases lead with
  | nil => rfl
  | cons d lead => simp [tokenAt, Token.isAdjacent]

theorem isCommented_tokenAt (s : LexState) (p : Position) (lead : List Char) (c : Char)
    (rest : List Char) : (tokenAt s p lead c rest).isCommented = opensComment lead := by
  simp [tokenAt, Token.isCommented]

theorem blanked_tokenAt (w : Filler) (fuel : Nat) {s : LexState} {p p' : Position} {c : Char}
    {front cs rest : List Char} (scanned : s.scan (c :: uncommentRest w fuel s c rest) =
      s.scan (c :: rest)) :
    (tokenAt s p (front ++ cs.take (s.triviaLength cs)) c rest).Blanked
      (tokenAt s p' (front ++ s.blankLead w cs) c (uncommentRest w fuel s c rest)) where
  kind := by simp only [tokenAt, scanned]
  text := by simp only [tokenAt, scanned, take_uncommentRest]
  adjacent := by
    have atEnd : s.triviaLength [] = 0 := by simp [LexState.triviaLength, triviaFrom]
    have empty : cs.take (s.triviaLength cs) = [] ↔ s.blankLead w cs = [] := by
      rw [s.blankLead_eq_nil_iff, List.take_eq_nil_iff]
      exact ⟨fun h => h.elim id fun nil => nil ▸ atEnd, .inl⟩
    rw [isAdjacent_tokenAt, isAdjacent_tokenAt, Bool.eq_iff_iff]
    simp only [List.isEmpty_iff, List.append_eq_nil_iff, empty]
  lead := by
    rw [isCommented_tokenAt]
    intro plain
    simp only [tokenAt, s.blankLead_of_opensComment w (opensComment_append plain)]

theorem lexFrom_token {fuel n : Nat} {s : LexState} {p : Position} {front cs rest : List Char}
    {c : Char} (behind : cs.drop n = c :: rest) :
    lexFrom (fuel + 1) s p (front.length + n) (front ++ cs) =
      let token := tokenAt s p (front ++ cs.take n) c rest
      let next := (s.scan (c :: rest)).2.2
      let more := rest.drop ((s.scan (c :: rest)).2.1 - 1)
      token :: lexFrom fuel next token.stop (next.triviaLength more) more := by
  rw [lexFrom, List.drop_length_add_append, behind, List.take_length_add_append]
  rfl

/-- Lexing starts behind `front`, which no comment of the text reaches into. -/
theorem blanked_lexFrom (w : Filler) {fuel fuel' : Nat} {s : LexState} {p p' : Position}
    {front cs : List Char} (enough : cs.length < fuel)
    (enough' : (uncommentFrom w fuel s cs).length < fuel')
    (valid : ∀ t ∈ lexFrom fuel s p (front.length + s.triviaLength cs) (front ++ cs),
      t.kind ≠ .invalid) :
    List.Forall₂ Token.Blanked
      (lexFrom fuel s p (front.length + s.triviaLength cs) (front ++ cs))
      (lexFrom fuel' s p' (front.length + s.triviaLength (uncommentFrom w fuel s cs))
        (front ++ uncommentFrom w fuel s cs)) := by
  induction fuel generalizing fuel' s p p' front cs with
  | zero => exact absurd enough (Nat.not_lt_zero _)
  | succ fuel ih =>
    cases fuel' with
    | zero => exact absurd enough' (Nat.not_lt_zero _)
    | succ fuel' =>
      cases behind : cs.drop (s.triviaLength cs) with
      | nil =>
        have blank := s.triviaLength_blankLead w cs []
        rw [List.append_nil] at blank
        rw [uncommentFrom_done behind, lexFrom_done behind, lexFrom_done]
        · exact .nil
        · exact List.drop_of_length_le (by omega)
      | cons c rest =>
        have starts := s.triviaLength_drop cs
        rw [behind] at starts
        have agree := agreeFor_uncommentRest w fuel s c rest
        rw [lexFrom_token behind] at valid ⊢
        have good : (s.scan (c :: rest)).1 ≠ .invalid := valid _ List.mem_cons_self
        have scanned := s.scan_of_agreeFor good agree
        have starts' := LexState.triviaLength_of_agreeFor starts good agree
        rw [uncommentFrom_token behind] at enough' ⊢
        have blank := s.triviaLength_blankLead w cs (c :: uncommentRest w fuel s c rest)
        rw [starts', Nat.add_zero] at blank
        rw [blank, lexFrom_token List.drop_left, List.take_left]
        refine .cons (blanked_tokenAt w fuel scanned) ?_
        simp only [scanned, drop_uncommentRest]
        have shorter := congrArg List.length behind
        simp only [List.length_drop, List.length_cons] at shorter
        have shorter' := congrArg List.length (drop_uncommentRest w fuel s c rest)
        simp only [List.length_drop] at shorter'
        simp only [List.length_append, List.length_cons] at enough'
        -- The tokens that follow have nothing in front of their leads.
        have later := @ih fuel' (s.scan (c :: rest)).2.2
          (tokenAt s p (front ++ cs.take (s.triviaLength cs)) c rest).stop
          (tokenAt s p' (front ++ s.blankLead w cs) c (uncommentRest w fuel s c rest)).stop
          [] (rest.drop ((s.scan (c :: rest)).2.1 - 1)) (by rw [List.length_drop]; omega) (by omega)
        simp only [List.length_nil, Nat.zero_add, List.nil_append] at later
        exact later fun t mem => valid t (List.mem_cons_of_mem _ mem)

theorem shebangLength_of_not {cs : List Char} (other : ∀ rest, cs ≠ '#' :: '!' :: rest) :
    shebangLength cs = 0 := by
  unfold shebangLength
  split
  · exact absurd rfl (other _)
  · rfl

theorem shebangLength_le (cs : List Char) : shebangLength cs ≤ cs.length := by
  unfold shebangLength
  split
  · rename_i rest
    have := (List.takeWhile_sublist (· != '\n') (l := rest)).length_le
    simp only [List.length_cons]
    omega
  · exact Nat.zero_le _

theorem shebangLength_of_agreeFor {a b : List Char} (h : AgreeFor (shebangLength a) a b) :
    shebangLength b = shebangLength a := by
  by_cases marked : ∃ rest, a = '#' :: '!' :: rest
  · obtain ⟨rest, rfl⟩ := marked
    rw [shebangLength, Nat.add_comm] at h
    obtain ⟨_, rfl, _, rfl, line⟩ := h
    rw [shebangLength, shebangLength, takeWhile_of_agreeFor rfl line]
  · rw [not_exists] at marked
    rw [shebangLength_of_not marked]
    apply shebangLength_of_not
    rintro rest rfl
    cases h.agree with
    | cons _ first =>
      cases first with
      | cons _ second => exact marked _ rfl
      | apart space => cases space
    | apart space => cases space

/-- Blanking the comments of a source leaves its tokens, up to the comments in front of them. -/
theorem blanked_lex (w : Filler) {source : String} (valid : ∀ t ∈ lex source, t.kind ≠ .invalid) :
    List.Forall₂ Token.Blanked (lex source) (lex (uncommented w source)) := by
  unfold lex at valid ⊢
  unfold uncommented
  generalize source.toList = cs at *
  have front : (cs.take (shebangLength cs)).length = shebangLength cs :=
    List.length_take_of_le (shebangLength_le cs)
  have agree := agree_uncommentFrom w (cs.length + 1) {} (cs.drop (shebangLength cs))
  have shebang := shebangLength_of_agreeFor (agreeFor_take (shebangLength cs) agree)
  have behind := (drop_take_append agree).1
  simp only [String.toList_ofList, shebang, behind]
  have run := @blanked_lexFrom w (cs.length + 1)
    ((cs.take (shebangLength cs) ++
      uncommentFrom w (cs.length + 1) {} (cs.drop (shebangLength cs))).length + 1) {} {} {}
    (cs.take (shebangLength cs)) (cs.drop (shebangLength cs))
    (by rw [List.length_drop]; omega) (by rw [List.length_append]; omega)
  rw [front, List.take_append_drop] at run
  exact run valid

end Forwarding.Syntax
