import Forwarding.Proofs.Syntax.Lookahead

/-!
How far the lexer looks ahead in character literals and strings. Whatever stands between the quotes
belongs to the literal, a comment or white space as well, so here two texts have to agree as far as
the literal reaches.
-/

namespace Forwarding.Syntax

/-! ### Characters and strings -/

theorem escapeLength?_of_ne {c : Char} (hex : c ≠ 'x') (small : c ≠ 'u') (big : c ≠ 'U')
    (cs : List Char) : escapeLength? (c :: cs) = some 1 := by
  unfold escapeLength?
  split <;> simp_all

theorem escapeLength?_cons_of_agree (c : Char) {a b : List Char} (h : Agree a b) :
    escapeLength? (c :: b) = escapeLength? (c :: a) := by
  by_cases hex : c = 'x'
  · subst hex
    rw [escapeLength?, escapeLength?, (startsWithHex_of_agree 1 h).1]
  · by_cases small : c = 'u'
    · subst small
      rw [escapeLength?, escapeLength?, (startsWithHex_of_agree 4 h).1]
    · by_cases big : c = 'U'
      · subst big
        rw [escapeLength?, escapeLength?, (startsWithHex_of_agree 8 h).1]
      · rw [escapeLength?_of_ne hex small big, escapeLength?_of_ne hex small big]

theorem escapeLength?_eq_none_of_agree {a b : List Char} (h : Agree a b)
    (missing : escapeLength? a = none) : escapeLength? b = none := by
  cases h with
  | nil => exact missing
  | cons c rest => rw [escapeLength?_cons_of_agree c rest, missing]
  | apart space => cases missing

/-- An escape sequence takes at least one character and no more than there are. -/
theorem escapeLength?_bounds {cs : List Char} {n : Nat} (found : escapeLength? cs = some n) :
    1 ≤ n ∧ n ≤ cs.length := by
  unfold escapeLength? at found
  split at found
  · cases found
  · grind [startsWithHex]
  · grind [startsWithHex]
  · grind [startsWithHex]
  · grind

theorem escapeLength?_of_agreeFor {a b : List Char} {n : Nat} (found : escapeLength? a = some n)
    (h : AgreeFor n a b) : escapeLength? b = some n := by
  obtain ⟨low, high⟩ := escapeLength?_bounds found
  cases a with
  | nil => cases found
  | cons c a =>
    obtain ⟨b, rfl, rest⟩ := h.mono low
    rw [escapeLength?_cons_of_agree c rest, found]

theorem steady_bytesMarkLength : Steady bytesMarkLength := by
  have letter : Shut fun u => u == 'u' || u == 'U' := shut_of_spaces (by decide)
  have digit : Shut (· == '8') := shut_of_spaces (by decide)
  have marked := (steady_oneChar letter).addGuarded (steady_oneChar digit) digit
  apply (marked.choose .zero letter).of_eq
  intro cs
  unfold bytesMarkLength
  split
  · rename_i u rest
    cases found : u == 'u' || u == 'U' <;> simp [found]
  · rename_i other
    match cs with
    | [] => rfl
    | [u] => cases found : u == 'u' || u == 'U' <;> simp [found]
    | u :: d :: rest =>
      have noDigit : d ≠ '8' := by
        rintro rfl
        exact other u rest rfl
      cases found : u == 'u' || u == 'U' <;> simp [found, noDigit]

/-- What is pending belongs to the string. -/
theorem stringRest?_le {n m : Nat} {cs : List Char} (found : stringRest? n cs = some m) : n ≤ m := by
  induction cs generalizing n m with
  | nil => cases found
  | cons c cs ih =>
    cases n with
    | zero => exact Nat.zero_le m
    | succ n =>
      obtain ⟨k, inner, rfl⟩ := Option.map_eq_some_iff.mp found
      exact Nat.succ_le_succ (ih inner)

theorem stringRest?_of_agreeFor {n m : Nat} {a b : List Char} (found : stringRest? n a = some m)
    (h : AgreeFor m a b) : stringRest? n b = some m := by
  induction a generalizing n m b with
  | nil => cases found
  | cons c a ih =>
    cases n with
    | succ n =>
      obtain ⟨k, inner, rfl⟩ := Option.map_eq_some_iff.mp found
      obtain ⟨b, rfl, rest⟩ := h
      rw [stringRest?, ih inner rest]
      rfl
    | zero =>
      rw [stringRest?] at found
      split at found
      · rename_i quote
        cases found
        rw [Nat.add_comm] at h
        obtain ⟨b, rfl, rest⟩ := h
        rw [stringRest?, if_pos quote, (steady_bytesMarkLength rest.agree).1]
      · rename_i noQuote
        split at found
        · cases found
        · rename_i noEnd
          split at found
          · rename_i escape
            split at found
            · rename_i n escaped
              obtain ⟨k, inner, rfl⟩ := Option.map_eq_some_iff.mp found
              obtain ⟨b, rfl, rest⟩ := h
              have escaped := escapeLength?_of_agreeFor escaped (rest.mono (stringRest?_le inner))
              rw [stringRest?, if_neg noQuote, if_neg noEnd, if_pos escape, escaped]
              simp only [ih inner rest]
              rfl
            · cases found
          · rename_i noEscape
            obtain ⟨k, inner, rfl⟩ := Option.map_eq_some_iff.mp found
            obtain ⟨b, rfl, rest⟩ := h
            rw [stringRest?, if_neg noQuote, if_neg noEnd, if_neg noEscape, ih inner rest]
            rfl

theorem verbatimRest?_of_ne {c : Char} (other : c ≠ '"') (cs : List Char) :
    verbatimRest? (c :: cs) = (verbatimRest? cs).map (· + 1) := by
  rw [verbatimRest?]
  · simp_all
  · simp_all

theorem verbatimRest?_close {cs : List Char} (last : startsWith (· == '"') cs = false) :
    verbatimRest? ('"' :: cs) = some (1 + bytesMarkLength cs) := by
  rw [verbatimRest?]
  rintro more rfl
  cases last

theorem verbatimRest?_of_agreeFor {m : Nat} {a b : List Char} (found : verbatimRest? a = some m)
    (h : AgreeFor m a b) : verbatimRest? b = some m := by
  fun_induction verbatimRest? a generalizing m b with
  | case1 => cases found
  | case2 cs ih =>
    obtain ⟨k, inner, rfl⟩ := Option.map_eq_some_iff.mp found
    obtain ⟨_, rfl, _, rfl, rest⟩ := h
    rw [verbatimRest?, ih inner rest]
    rfl
  | case3 cs last =>
    cases found
    rw [Nat.add_comm] at h
    obtain ⟨b, rfl, rest⟩ := h
    have shut : Shut (· == '"') := shut_of_spaces (by decide)
    have open' : startsWith (· == '"') cs = false := by
      cases cs with
      | nil => rfl
      | cons c cs =>
        rw [startsWith_cons, beq_eq_false_iff_ne]
        rintro rfl
        exact last cs rfl
    rw [← (startsWith_of_agree shut rest.agree).1] at open'
    rw [verbatimRest?_close open', (steady_bytesMarkLength rest.agree).1]
  | case4 c cs noPair noQuote ih =>
    obtain ⟨k, inner, rfl⟩ := Option.map_eq_some_iff.mp found
    obtain ⟨b, rfl, rest⟩ := h
    rw [verbatimRest?_of_ne (fun same => noQuote same), ih inner rest]
    rfl

theorem rawRest?_of_agreeFor {quotes m : Nat} {a b : List Char}
    (found : rawRest? quotes a = some m) (h : AgreeFor m a b) : rawRest? quotes b = some m := by
  have steady : Steady (runLength '"') := steady_runLength (shut_of_spaces (by decide))
  induction a generalizing m b with
  | nil => cases found
  | cons c a ih =>
    obtain ⟨same, _⟩ := steady h.agree
    rw [rawRest?] at found
    split at found
    · rename_i enough
      cases found
      have bytes := (steady_bytesMarkLength (h.mono (Nat.le_add_right _ _)).behind).1
      cases b with
      | nil => cases h.agree
      | cons d b => rw [rawRest?, same, if_pos enough, bytes]
    · rename_i few
      obtain ⟨k, inner, rfl⟩ := Option.map_eq_some_iff.mp found
      obtain ⟨b, rfl, rest⟩ := h
      rw [rawRest?, same, if_neg few, ih inner rest]
      rfl

theorem head?_of_agreeFor {n : Nat} {a b : List Char} (h : AgreeFor (n + 1) a b) :
    b.head? = a.head? := by
  cases a with
  | nil => rw [show b = [] from h]
  | cons c a =>
    obtain ⟨b, rfl, _⟩ := h
    rfl

/-- The hexadecimal digits that an escape sequence may have behind its first one. -/
def moreHexLength (cs : List Char) : Nat :=
  if cs.head? = some 'x' then min 3 ((cs.drop 2).takeWhile isHexDigit).length else 0

theorem characterRest?_escape (cs : List Char) :
    characterRest? ('\\' :: cs) =
      match escapeLength? cs with
      | none => none
      | some n =>
        if (cs.drop (n + moreHexLength cs)).head? = some '\'' then some (n + moreHexLength cs + 2)
        else none := rfl

theorem characterRest?_of_ne {c : Char} (quote : c ≠ '\'') (escape : c ≠ '\\') (cs : List Char) :
    characterRest? (c :: cs) = if cs.head? = some '\'' then some 2 else none := by
  unfold characterRest?
  split <;> simp_all

theorem moreHexLength_of_agreeFor {n : Nat} {a b : List Char} (escaped : escapeLength? a = some n)
    (h : AgreeFor n a b) : moreHexLength b = moreHexLength a := by
  cases a with
  | nil => cases escaped
  | cons c a =>
    obtain ⟨b, rfl, _⟩ := h.mono (escapeLength?_bounds escaped).1
    by_cases hex : c = 'x'
    · subst hex
      obtain ⟨_, same⟩ := Option.ite_none_right_eq_some.mp escaped
      cases same
      simp only [moreHexLength, List.head?_cons, (takeWhile_of_agree shut_isHexDigit h.behind).1]
    · simp [moreHexLength, hex]

theorem characterRest?_of_agreeFor {m : Nat} {a b : List Char} (found : characterRest? a = some m)
    (h : AgreeFor m a b) : characterRest? b = some m := by
  cases a with
  | nil => cases found
  | cons c a =>
    by_cases quote : c = '\''
    · subst quote
      cases found
    · by_cases escape : c = '\\'
      · subst escape
        rw [characterRest?_escape] at found
        split at found
        · cases found
        · rename_i n escaped
          obtain ⟨closed, same⟩ := Option.ite_none_right_eq_some.mp found
          cases same
          obtain ⟨b, rfl, rest⟩ := h
          have known : AgreeFor n a b := rest.mono (by omega)
          have escaped' := escapeLength?_of_agreeFor escaped known
          have more := moreHexLength_of_agreeFor escaped known
          have head := head?_of_agreeFor (n := 0) (AgreeFor.drop (m := n + moreHexLength a) rest)
          simp only [characterRest?_escape, escaped', more, head, closed, if_true]
      · rw [characterRest?_of_ne quote escape] at found
        obtain ⟨closed, same⟩ := Option.ite_none_right_eq_some.mp found
        cases same
        obtain ⟨b, rfl, rest⟩ := h
        rw [characterRest?_of_ne quote escape, head?_of_agreeFor rest, if_pos closed]

/-! ### Strings with holes -/

/-- A character that belongs to a text only when it is written twice, and what is pending behind
it. -/
def doubled? (c : Char) (cs : List Char) : Option Nat :=
  if startsWith (· == c) cs then some 1 else none

/-- How many characters are pending behind `c`; none where the text ends at `c`. -/
def textStep? (t : OpenText) (c : Char) (cs : List Char) : Option Nat :=
  match t.style with
  | .raw quotes =>
    if quotes ≤ runLength '"' (c :: cs) || runLength '\x7b' (c :: cs) = t.braces then none
    else some 0
  | .verbatim =>
    if c == '"' || c == '\x7b' || c == '\x7d' then doubled? c cs else some 0
  | .regular =>
    if c == '"' || c == '\n' then none
    else if c == '\\' then escapeLength? cs
    else if c == '\x7b' || c == '\x7d' then doubled? c cs
    else some 0

theorem textPartLength_cons (t : OpenText) (c : Char) (cs : List Char) :
    textPartLength t 0 (c :: cs) =
      match textStep? t c cs with
      | some n => textPartLength t n cs + 1
      | none => 0 := by
  have head (d : Char) : (cs.head? = some d) = (startsWith (· == d) cs = true) := by
    cases cs <;> simp
  rw [textPartLength, textStep?]
  cases t.style with
  | raw quotes =>
    by_cases close : quotes ≤ runLength '"' (c :: cs)
    · simp [close]
    · by_cases hole : runLength '\x7b' (c :: cs) = t.braces <;> simp [close, hole]
  | verbatim =>
    simp only [textPartLength.braceOr, doubled?, head]
    by_cases quote : c = '"'
    · subst quote
      by_cases twice : startsWith (· == '"') cs = true <;> simp [twice]
    · by_cases brace : c = '\x7b' ∨ c = '\x7d'
      · by_cases twice : startsWith (· == c) cs = true <;> simp [quote, brace, twice]
      · simp [quote, brace]
  | regular =>
    simp only [textPartLength.braceOr, doubled?, head]
    by_cases quote : c = '"' ∨ c = '\n'
    · simp [quote]
    · by_cases escape : c = '\\'
      · subst escape
        cases escapeLength? cs <;> rfl
      · by_cases brace : c = '\x7b' ∨ c = '\x7d'
        · by_cases twice : startsWith (· == c) cs = true <;> simp [quote, escape, brace, twice]
        · simp [quote, escape, brace]

theorem doubled?_of_agreeFor {c : Char} {n : Nat} {a b : List Char} (found : doubled? c a = some n)
    (h : AgreeFor n a b) : doubled? c b = some n := by
  obtain ⟨twice, same⟩ := Option.ite_none_right_eq_some.mp found
  cases same
  rw [doubled?, startsWith, head?_of_agreeFor h]
  exact if_pos twice

theorem doubled?_eq_none_of_agree {c : Char} (shut : Shut (· == c)) {a b : List Char}
    (missing : doubled? c a = none) (h : Agree a b) : doubled? c b = none := by
  rw [doubled?, (startsWith_of_agree shut h).1]
  exact missing

theorem doubled?_le {c : Char} {n : Nat} {cs : List Char} (found : doubled? c cs = some n) :
    n ≤ cs.length := by
  cases cs with
  | nil => cases found
  | cons d cs =>
    obtain ⟨_, same⟩ := Option.ite_none_right_eq_some.mp found
    cases same
    simp

theorem runLength_cons_of_agree {c : Char} (shut : Shut (· == c)) (d : Char) {a b : List Char}
    (h : Agree a b) : runLength c (d :: b) = runLength c (d :: a) :=
  (steady_runLength shut (.cons d h)).1

theorem textStep?_le {t : OpenText} {c : Char} {n : Nat} {cs : List Char}
    (found : textStep? t c cs = some n) : n ≤ cs.length := by
  unfold textStep? at found
  split at found
  · split_ifs at found
    cases found
    exact Nat.zero_le _
  · split_ifs at found
    · exact doubled?_le found
    · cases found
      exact Nat.zero_le _
  · split_ifs at found
    · exact (escapeLength?_bounds found).2
    · exact doubled?_le found
    · cases found
      exact Nat.zero_le _

theorem textStep?_of_agreeFor {t : OpenText} {c : Char} {n : Nat} {a b : List Char}
    (found : textStep? t c a = some n) (h : AgreeFor n a b) : textStep? t c b = some n := by
  have quote : Shut (· == '"') := shut_of_spaces (by decide)
  have brace : Shut (· == '\x7b') := shut_of_spaces (by decide)
  unfold textStep? at found ⊢
  cases style : t.style with
  | raw quotes =>
    simp only [style] at found ⊢
    rw [runLength_cons_of_agree quote c h.agree, runLength_cons_of_agree brace c h.agree]
    exact found
  | verbatim =>
    simp only [style] at found ⊢
    split_ifs at found ⊢
    · exact doubled?_of_agreeFor found h
    · exact found
  | regular =>
    simp only [style] at found ⊢
    split_ifs at found ⊢
    · exact escapeLength?_of_agreeFor found h
    · exact doubled?_of_agreeFor found h
    · exact found

theorem textStep?_eq_none_of_agree {t : OpenText} {c : Char} {a b : List Char}
    (missing : textStep? t c a = none) (h : Agree a b) : textStep? t c b = none := by
  have quote : Shut (· == '"') := shut_of_spaces (by decide)
  have brace : Shut (· == '\x7b') := shut_of_spaces (by decide)
  have close : Shut (· == '\x7d') := shut_of_spaces (by decide)
  unfold textStep? at missing ⊢
  cases style : t.style with
  | raw quotes =>
    simp only [style] at missing ⊢
    rw [runLength_cons_of_agree quote c h, runLength_cons_of_agree brace c h]
    exact missing
  | verbatim =>
    simp only [style] at missing ⊢
    split_ifs at missing ⊢ with double
    simp only [Bool.or_eq_true, beq_iff_eq] at double
    rcases double with (rfl | rfl) | rfl
    · exact doubled?_eq_none_of_agree quote missing h
    · exact doubled?_eq_none_of_agree brace missing h
    · exact doubled?_eq_none_of_agree close missing h
  | regular =>
    simp only [style] at missing ⊢
    split_ifs at missing ⊢ with stop escape double
    · rfl
    · exact escapeLength?_eq_none_of_agree h missing
    · simp only [Bool.or_eq_true, beq_iff_eq] at double
      rcases double with rfl | rfl
      · exact doubled?_eq_none_of_agree brace missing h
      · exact doubled?_eq_none_of_agree close missing h

/-- A text that ends at a comment would end at white space as well. -/
theorem textStep?_eq_none_of_space {t : OpenText} {c : Char} {a b : List Char}
    (space : isSpace c = true) (missing : textStep? t '/' a = none) : textStep? t c b = none := by
  have quote : Shut (· == '"') := shut_of_spaces (by decide)
  have brace : Shut (· == '\x7b') := shut_of_spaces (by decide)
  unfold textStep? at missing ⊢
  cases style : t.style with
  | raw quotes =>
    simp only [style] at missing ⊢
    simpa [runLength, quote.2 c space, brace.2 c space] using missing
  | verbatim => simp [style] at missing
  | regular => simp [style] at missing

/-- What is pending belongs to the text, as far as there is any. -/
theorem le_textPartLength (t : OpenText) {n : Nat} {cs : List Char} (enough : n ≤ cs.length) :
    n ≤ textPartLength t n cs := by
  induction n generalizing cs with
  | zero => exact Nat.zero_le _
  | succ n ih =>
    cases cs with
    | nil => exact absurd enough (Nat.not_succ_le_zero n)
    | cons c cs =>
      rw [textPartLength]
      exact Nat.succ_le_succ (ih (Nat.le_of_succ_le_succ enough))

theorem textPartLength_of_agreeFor (t : OpenText) {n : Nat} {a b : List Char}
    (h : AgreeFor (textPartLength t n a) a b) : textPartLength t n b = textPartLength t n a := by
  induction a generalizing n b with
  | nil =>
    have empty : textPartLength t n [] = 0 := by cases n <;> rw [textPartLength]
    rw [empty] at h
    cases (show Agree [] b from h)
    rfl
  | cons c a ih =>
    cases n with
    | succ n =>
      rw [textPartLength] at h
      obtain ⟨b, rfl, rest⟩ := h
      rw [textPartLength, textPartLength, ih rest]
    | zero =>
      rw [textPartLength_cons] at h
      cases step : textStep? t c a with
      | some n =>
        simp only [step] at h
        obtain ⟨b, rfl, rest⟩ := h
        have known : AgreeFor n a b := rest.mono (le_textPartLength t (textStep?_le step))
        simp only [textPartLength_cons, step, textStep?_of_agreeFor step known, ih rest]
      | none =>
        simp only [step] at h
        rw [textPartLength_cons, step]
        cases (show Agree (c :: a) b from h) with
        | cons _ rest => rw [textPartLength_cons, textStep?_eq_none_of_agree step rest]
        | apart space => rw [textPartLength_cons, textStep?_eq_none_of_space space step]

theorem steady_closeLength (t : OpenText) : Steady t.closeLength := by
  have quote : Shut (· == '"') := shut_of_spaces (by decide)
  have single : Steady fun cs : List Char =>
      if cs.head? = some '"' then 1 + bytesMarkLength (cs.drop 1) else 0 := by
    apply (((steady_oneChar quote).add steady_bytesMarkLength).choose .zero quote).of_eq
    intro cs
    cases cs with
    | nil => rfl
    | cons c cs =>
      by_cases first : c = '"'
      · simp [first]
      · simp [first]
  unfold OpenText.closeLength
  cases t.style with
  | regular => exact single
  | verbatim => exact single
  | raw quotes =>
    intro a b h
    obtain ⟨same, agree⟩ := steady_runLength quote h
    by_cases close : quotes ≤ runLength '"' a
    · have known : AgreeFor quotes a b := agree.mono close
      obtain ⟨bytes, more⟩ := steady_bytesMarkLength known.behind
      simp only [same, close, if_true, bytes, true_and]
      exact known.add more
    · simp only [same, close, if_false, true_and]
      exact h

end Forwarding.Syntax
