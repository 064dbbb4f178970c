import Forwarding.Syntax.Lexer
import Mathlib.Tactic.SplitIfs

/-!
How far the lexer looks ahead. A token is found at the front of a text, but the lexer looks at what
follows to see where the token ends. It makes no difference there whether a comment follows or white
space does.
-/

namespace Forwarding.Syntax

/-! ### Texts that agree up to a comment -/

/-- All characters of the language's white space. -/
def spaces : List Char :=
  [' ', '\t', '\n', '\x0b', '\x0c', '\r', '\u00A0', '\uFEFF', '\u3000']

theorem mem_spaces {c : Char} (h : isSpace c = true) : c ∈ spaces := by
  simp only [isSpace, Bool.or_eq_true, Bool.and_eq_true, beq_iff_eq, decide_eq_true_eq] at h
  rcases h with (((rfl | ⟨low, high⟩) | rfl) | rfl) | rfl
  · decide
  · have codes : c.toNat = 9 ∨ c.toNat = 10 ∨ c.toNat = 11 ∨ c.toNat = 12 ∨ c.toNat = 13 := by omega
    rw [← Char.ofNat_toNat c]
    rcases codes with code | code | code | code | code <;> rw [code] <;> decide
  · decide
  · decide
  · decide

/-- Two texts agree, or they agree up to a place where a comment follows in the first and white space
in the second. -/
inductive Agree : List Char → List Char → Prop where
  | nil : Agree [] []
  | cons {a b} (c : Char) (rest : Agree a b) : Agree (c :: a) (c :: b)
  | apart {a b c} (space : isSpace c = true) : Agree ('/' :: a) (c :: b)

/-- The texts agree at least in their first `n` characters. -/
def AgreeFor : Nat → List Char → List Char → Prop
  | 0, a, b => Agree a b
  | _ + 1, [], b => b = []
  | n + 1, c :: a, b => ∃ b', b = c :: b' ∧ AgreeFor n a b'

theorem agree_refl (a : List Char) : Agree a a := by
  induction a with
  | nil => exact .nil
  | cons c a ih => exact .cons c ih

namespace AgreeFor

variable {m n : Nat} {a b : List Char}

theorem agree (h : AgreeFor n a b) : Agree a b := by
  induction n generalizing a b with
  | zero => exact h
  | succ n ih =>
    cases a with
    | nil =>
      rw [show b = [] from h]
      exact .nil
    | cons c a =>
      obtain ⟨b, rfl, rest⟩ := h
      exact .cons c (ih rest)

theorem drop (h : AgreeFor (m + n) a b) : AgreeFor n (a.drop m) (b.drop m) := by
  induction m generalizing a b with
  | zero => simpa using h
  | succ m ih =>
    rw [Nat.succ_add] at h
    cases a with
    | nil =>
      rw [show b = [] from h, List.drop_nil]
      cases n with
      | zero => exact .nil
      | succ n => exact rfl
    | cons c a =>
      obtain ⟨b, rfl, rest⟩ := h
      exact ih rest

theorem behind (h : AgreeFor n a b) : Agree (a.drop n) (b.drop n) :=
  drop (n := 0) h

theorem mono (h : AgreeFor n a b) (le : m ≤ n) : AgreeFor m a b := by
  induction m generalizing n a b with
  | zero => exact h.agree
  | succ m ih =>
    obtain ⟨n, rfl⟩ := Nat.exists_eq_add_of_lt le
    cases a with
    | nil => exact h
    | cons c a =>
      obtain ⟨b, rfl, rest⟩ := h
      exact ⟨b, rfl, ih rest (Nat.le_add_right m n)⟩

theorem add (h : AgreeFor m a b) (k : AgreeFor n (a.drop m) (b.drop m)) : AgreeFor (m + n) a b := by
  induction m generalizing a b with
  | zero => simpa using k
  | succ m ih =>
    rw [Nat.succ_add]
    cases a with
    | nil => exact h
    | cons c a =>
      obtain ⟨b, rfl, rest⟩ := h
      exact ⟨b, rfl, ih rest k⟩

end AgreeFor

/-! ### Scanners that see no difference -/

theorem ne_of_space {c d : Char} (space : isSpace c = true) (other : isSpace d = false) : c ≠ d := by
  rintro rfl
  rw [space] at other
  cases other

/-- The predicate accepts neither white space nor the start of a comment. -/
def Shut (p : Char → Bool) : Prop :=
  p '/' = false ∧ ∀ c, isSpace c = true → p c = false

theorem shut_of_spaces {p : Char → Bool} (h : ('/' :: spaces).all (!p ·) = true) : Shut p := by
  have closed : ∀ c ∈ '/' :: spaces, p c = false := by simpa using h
  exact ⟨closed '/' List.mem_cons_self,
    fun c space => closed c (List.mem_cons_of_mem _ (mem_spaces space))⟩

theorem takeWhile_of_agree {p : Char → Bool} (shut : Shut p) {a b : List Char} (h : Agree a b) :
    b.takeWhile p = a.takeWhile p ∧ AgreeFor (a.takeWhile p).length a b := by
  induction h with
  | nil => exact ⟨rfl, .nil⟩
  | cons c rest ih =>
    simp only [List.takeWhile_cons]
    split
    · exact ⟨by rw [ih.1], _, rfl, ih.2⟩
    · exact ⟨rfl, .cons c rest⟩
  | apart space =>
    simp only [List.takeWhile_cons, shut.1, shut.2 _ space]
    exact ⟨rfl, .apart space⟩

/-- The scanner finds the same in texts that agree, and they agree over what it finds. -/
def Steady (f : List Char → Nat) : Prop :=
  ∀ ⦃a b⦄, Agree a b → f b = f a ∧ AgreeFor (f a) a b

theorem steady_takeWhile {p : Char → Bool} (shut : Shut p) :
    Steady fun cs => (cs.takeWhile p).length := by
  intro a b h
  obtain ⟨same, agree⟩ := takeWhile_of_agree shut h
  exact ⟨by simp only [same], agree⟩

theorem steady_runLength {c : Char} (shut : Shut (· == c)) : Steady (runLength c) :=
  steady_takeWhile shut

/-! ### Putting scanners together -/

/-- Whether the first character has the property. -/
def startsWith (p : Char → Bool) (cs : List Char) : Bool :=
  (cs.head?.map p).getD false

@[simp]
theorem startsWith_nil (p : Char → Bool) : startsWith p [] = false := rfl

@[simp]
theorem startsWith_cons (p : Char → Bool) (c : Char) (cs : List Char) :
    startsWith p (c :: cs) = p c := rfl

theorem startsWith_of_agree {p : Char → Bool} (shut : Shut p) {a b : List Char} (h : Agree a b) :
    startsWith p b = startsWith p a ∧ (startsWith p a = true → AgreeFor 1 a b) := by
  cases h with
  | nil => exact ⟨rfl, fun _ => rfl⟩
  | cons c rest => exact ⟨rfl, fun _ => ⟨_, rfl, rest⟩⟩
  | apart space =>
    rw [startsWith_cons, startsWith_cons, shut.1, shut.2 _ space]
    exact ⟨rfl, fun found => absurd found Bool.false_ne_true⟩

/-- The scanner of one character. -/
def oneChar (p : Char → Bool) (cs : List Char) : Nat :=
  if startsWith p cs then 1 else 0

@[simp]
theorem oneChar_nil (p : Char → Bool) : oneChar p [] = 0 := rfl

@[simp]
theorem oneChar_cons (p : Char → Bool) (c : Char) (cs : List Char) :
    oneChar p (c :: cs) = if p c then 1 else 0 := rfl

theorem steady_oneChar {p : Char → Bool} (shut : Shut p) : Steady (oneChar p) := by
  intro a b h
  obtain ⟨same, agree⟩ := startsWith_of_agree shut h
  refine ⟨by rw [oneChar, oneChar, same], ?_⟩
  rw [oneChar]
  split
  · rename_i found
    exact agree found
  · exact h

namespace Steady

variable {f g : List Char → Nat} {p : Char → Bool}

theorem of_eq (hf : Steady f) (same : ∀ cs, g cs = f cs) : Steady g :=
  funext same ▸ hf

theorem zero : Steady fun _ => 0 := by
  intro a b h
  exact ⟨rfl, h⟩

/-- A choice by the first character. -/
theorem choose (hf : Steady f) (hg : Steady g) (shut : Shut p) :
    Steady fun cs => if startsWith p cs then f cs else g cs := by
  intro a b h
  obtain ⟨same, _⟩ := startsWith_of_agree shut h
  obtain ⟨sameThen, agreeThen⟩ := hf h
  obtain ⟨sameElse, agreeElse⟩ := hg h
  refine ⟨by simp only [same, sameThen, sameElse], ?_⟩
  dsimp only
  split
  · exact agreeThen
  · exact agreeElse

/-- One scanner behind another. -/
theorem add (hf : Steady f) (hg : Steady g) : Steady fun cs => f cs + g (cs.drop (f cs)) := by
  intro a b h
  obtain ⟨same, agree⟩ := hf h
  obtain ⟨same', agree'⟩ := hg agree.behind
  exact ⟨by simp only [same, same'], agree.add agree'⟩

/-- One scanner behind another, where the second must find something. -/
theorem addFound (hf : Steady f) (hg : Steady g) :
    Steady fun cs => if g (cs.drop (f cs)) = 0 then 0 else f cs + g (cs.drop (f cs)) := by
  intro a b h
  obtain ⟨same, agree⟩ := hf h
  obtain ⟨same', agree'⟩ := hg agree.behind
  refine ⟨by simp only [same, same'], ?_⟩
  dsimp only
  split
  · exact h
  · exact agree.add agree'

/-- One scanner behind another, if what the second finds starts with the right character. -/
theorem addGuarded (hf : Steady f) (hg : Steady g) (shut : Shut p) :
    Steady fun cs => if startsWith p (cs.drop (f cs)) then f cs + g (cs.drop (f cs)) else 0 := by
  intro a b h
  obtain ⟨same, agree⟩ := hf h
  obtain ⟨same', agree'⟩ := hg agree.behind
  obtain ⟨starts, _⟩ := startsWith_of_agree shut agree.behind
  refine ⟨by simp only [same, same', starts], ?_⟩
  dsimp only
  split
  · exact agree.add agree'
  · exact h

end Steady

/-! ### Identifiers -/

theorem shut_isHexDigit : Shut isHexDigit :=
  shut_of_spaces (by decide)

theorem startsWithHex_cons (n : Nat) (c : Char) (cs : List Char) :
    startsWithHex (n + 1) (c :: cs) = (isHexDigit c && startsWithHex n cs) := by
  simp [startsWithHex, Bool.and_left_comm]

theorem startsWithHex_of_agree (n : Nat) {a b : List Char} (h : Agree a b) :
    startsWithHex n b = startsWithHex n a ∧ (startsWithHex n a = true → AgreeFor n a b) := by
  induction n generalizing a b with
  | zero => exact ⟨by simp [startsWithHex], fun _ => h⟩
  | succ n ih =>
    cases h with
    | nil => exact ⟨rfl, fun _ => rfl⟩
    | cons c rest =>
      obtain ⟨same, agree⟩ := ih rest
      rw [startsWithHex_cons, startsWithHex_cons, same]
      refine ⟨rfl, fun found => ⟨_, rfl, agree ?_⟩⟩
      exact (Bool.and_eq_true_iff.mp found).2
    | apart space =>
      rw [startsWithHex_cons, startsWithHex_cons, shut_isHexDigit.1, shut_isHexDigit.2 _ space]
      exact ⟨rfl, fun found => absurd found Bool.false_ne_true⟩

/-- A character that is written with `n` hexadecimal digits behind two other characters. -/
theorem agreeFor_hex (n : Nat) {a b : List Char} (c d : Char) (h : Agree a b) :
    (if startsWithHex n b then n + 2 else 0) = (if startsWithHex n a then n + 2 else 0) ∧
      AgreeFor (if startsWithHex n a then n + 2 else 0) (c :: d :: a) (c :: d :: b) := by
  obtain ⟨same, agree⟩ := startsWithHex_of_agree n h
  refine ⟨by rw [same], ?_⟩
  split
  · rename_i found
    exact ⟨_, rfl, _, rfl, agree found⟩
  · exact .cons c (.cons d h)

theorem codePointLength_of_ne {c : Char} (other : c ≠ '\\') (cs : List Char) :
    codePointLength (c :: cs) = 0 := by
  unfold codePointLength
  split <;> simp_all

theorem codePointLength_escape_of_ne {c : Char} (small : c ≠ 'u') (big : c ≠ 'U') (cs : List Char) :
    codePointLength ('\\' :: c :: cs) = 0 := by
  unfold codePointLength
  split <;> simp_all

theorem steady_codePointLength : Steady codePointLength := by
  intro a b h
  cases h with
  | nil => exact ⟨rfl, .nil⟩
  | apart space =>
    exact ⟨codePointLength_of_ne (ne_of_space space (by decide)) _, .apart space⟩
  | cons c rest =>
    by_cases escape : c = '\\'
    · subst escape
      cases rest with
      | nil => exact ⟨rfl, .cons _ .nil⟩
      | apart space =>
        have small := ne_of_space space (d := 'u') (by decide)
        have big := ne_of_space space (d := 'U') (by decide)
        exact ⟨codePointLength_escape_of_ne small big _, .cons _ (.apart space)⟩
      | cons d rest =>
        by_cases small : d = 'u'
        · subst small
          exact agreeFor_hex 4 '\\' 'u' rest
        · by_cases big : d = 'U'
          · subst big
            exact agreeFor_hex 8 '\\' 'U' rest
          · rw [codePointLength_escape_of_ne small big, codePointLength_escape_of_ne small big]
            exact ⟨rfl, .cons _ (.cons d rest)⟩
    · rw [codePointLength_of_ne escape, codePointLength_of_ne escape]
      exact ⟨rfl, .cons c rest⟩

theorem shut_isIdentifierPart : Shut Text.isIdentifierPart := by
  apply shut_of_spaces
  simp only [Text.isIdentifierPart, ← Array.any_toList]
  decide +kernel

theorem shut_isIdentifierStart : Shut Text.isIdentifierStart := by
  apply shut_of_spaces
  simp only [Text.isIdentifierStart, ← Array.any_toList]
  decide +kernel

/-- The rest of an identifier is found alike where the texts agree over the part already known. -/
theorem identifierRest_of_agree {n : Nat} {a b : List Char} (h : AgreeFor n a b) :
    identifierRest n b = identifierRest n a ∧ AgreeFor (identifierRest n a) a b := by
  induction a generalizing n b with
  | nil =>
    cases n with
    | zero =>
      cases h
      exact ⟨rfl, .nil⟩
    | succ n =>
      rw [show b = [] from h]
      exact ⟨rfl, .nil⟩
  | cons c a ih =>
    cases n with
    | succ n =>
      obtain ⟨b, rfl, rest⟩ := h
      obtain ⟨same, agree⟩ := ih rest
      exact ⟨by rw [identifierRest, identifierRest, same], _, rfl, agree⟩
    | zero =>
      obtain ⟨sameCode, agreeCode⟩ := steady_codePointLength h
      cases h with
      | apart space =>
        simp only [identifierRest, shut_isIdentifierPart.1, shut_isIdentifierPart.2 _ space, sameCode]
        exact ⟨rfl, .apart space⟩
      | cons _ rest =>
        simp only [identifierRest, sameCode]
        split
        · obtain ⟨same, agree⟩ := ih (n := 0) rest
          exact ⟨by rw [same], _, rfl, agree⟩
        · split
          · exact ⟨rfl, .cons c rest⟩
          · rename_i code
            rw [code] at agreeCode
            obtain ⟨_, same, agreeCode⟩ := agreeCode
            cases same
            obtain ⟨same, agree⟩ := ih agreeCode
            exact ⟨by rw [same], _, rfl, agree⟩

theorem steady_bareIdentifierLength : Steady bareIdentifierLength := by
  intro a b h
  obtain ⟨sameCode, agreeCode⟩ := steady_codePointLength h
  cases h with
  | nil => exact ⟨rfl, .nil⟩
  | apart space =>
    simp only [bareIdentifierLength, shut_isIdentifierStart.1, shut_isIdentifierStart.2 _ space,
      sameCode]
    exact ⟨rfl, .apart space⟩
  | cons c rest =>
    simp only [bareIdentifierLength, sameCode]
    split
    · obtain ⟨same, agree⟩ := identifierRest_of_agree (n := 0) rest
      exact ⟨by rw [same], _, rfl, agree⟩
    · split
      · exact ⟨rfl, .cons c rest⟩
      · rename_i code
        rw [code] at agreeCode
        obtain ⟨_, same, agreeCode⟩ := agreeCode
        cases same
        obtain ⟨same, agree⟩ := identifierRest_of_agree agreeCode
        exact ⟨by rw [same], _, rfl, agree⟩

theorem steady_identifierLength : Steady identifierLength := by
  have shut : Shut (· == '@') := shut_of_spaces (by decide)
  have marked := (steady_oneChar shut).addFound steady_bareIdentifierLength
  apply (marked.choose steady_bareIdentifierLength shut).of_eq
  intro cs
  unfold identifierLength
  split
  · rename_i cs
    cases found : bareIdentifierLength cs <;> simp [found, Nat.add_comm]
  · rename_i other
    have plain : startsWith (· == '@') cs = false := by
      cases cs with
      | nil => rfl
      | cons c cs =>
        rw [startsWith_cons, beq_eq_false_iff_ne]
        rintro rfl
        exact other cs rfl
    simp [plain]

/-! ### Numbers -/

theorem steady_digitsLength {isDigit : Char → Bool} (shut : Shut fun c => isDigit c || c == '_') :
    Steady (digitsLength isDigit) := by
  intro a b h
  obtain ⟨same, agree⟩ := takeWhile_of_agree shut h
  refine ⟨by rw [digitsLength, digitsLength, same], agree.mono ?_⟩
  calc digitsLength isDigit a
    _ ≤ (a.takeWhile fun c => isDigit c || c == '_').reverse.length :=
      (List.dropWhile_sublist _).length_le
    _ = (a.takeWhile fun c => isDigit c || c == '_').length := List.length_reverse

theorem shut_isDigit : Shut Char.isDigit :=
  shut_of_spaces (by decide)

theorem steady_decimalDigits : Steady (digitsLength Char.isDigit) :=
  steady_digitsLength (shut_of_spaces (by decide))

theorem steady_fractionLength : Steady fractionLength := by
  have shut : Shut (· == '.') := shut_of_spaces (by decide)
  have pointed := (steady_oneChar shut).addGuarded steady_decimalDigits shut_isDigit
  apply (pointed.choose .zero shut).of_eq
  intro cs
  unfold fractionLength
  split
  · simp
  · rename_i other
    cases cs with
    | nil => rfl
    | cons c cs =>
      by_cases point : c = '.'
      · subst point
        cases cs with
        | nil => rfl
        | cons d cs => exact absurd rfl (other d cs)
      · simp [point]

theorem steady_exponentDigitsLength : Steady exponentDigitsLength := by
  have shut : Shut fun c => c.isDigit || c == '_' := shut_of_spaces (by decide)
  have digits := (steady_oneChar shut_isDigit).add (steady_takeWhile shut)
  apply (digits.choose .zero shut_isDigit).of_eq
  intro cs
  cases cs with
  | nil => rfl
  | cons d cs =>
    cases digit : d.isDigit <;> simp [exponentDigitsLength, digit]

/-- The sign in front of an exponent. -/
def isSign (c : Char) : Bool := c == '+' || c == '-'

theorem exponentLength_cons (e : Char) (cs : List Char) :
    exponentLength (e :: cs) =
      if e == 'e' || e == 'E' then
        match exponentDigitsLength (cs.drop (oneChar isSign cs)) with
        | 0 => 0
        | n => 1 + oneChar isSign cs + n
      else 0 := by
  cases cs <;> rfl

theorem steady_exponentLength : Steady exponentLength := by
  have mark : Shut fun e => e == 'e' || e == 'E' := shut_of_spaces (by decide)
  have sign : Shut isSign := shut_of_spaces (by decide)
  have signed := (steady_oneChar mark).add (steady_oneChar sign)
  have whole := signed.addFound steady_exponentDigitsLength
  apply (whole.choose .zero mark).of_eq
  intro cs
  cases cs with
  | nil => rfl
  | cons e cs =>
    rw [exponentLength_cons, startsWith_cons, oneChar_cons]
    split
    · rw [List.drop_one, List.tail_cons, Nat.add_comm 1, List.drop_succ_cons]
      split
      · rename_i absent
        rw [if_pos absent]
      · rename_i present
        rw [if_neg present]
    · rfl

theorem steady_integerSuffixLength : Steady integerSuffixLength := by
  have unsigned : Shut fun c => c == 'u' || c == 'U' := shut_of_spaces (by decide)
  have long : Shut fun c => c == 'l' || c == 'L' := shut_of_spaces (by decide)
  have unsignedLong := (steady_oneChar unsigned).add (steady_oneChar long)
  have longUnsigned := (steady_oneChar long).add (steady_oneChar unsigned)
  apply (unsignedLong.choose (longUnsigned.choose .zero long) unsigned).of_eq
  intro cs
  match cs with
  | [] => rfl
  | [c] =>
    simp only [integerSuffixLength, startsWith_cons, oneChar_cons]
    grind [oneChar_nil]
  | c :: d :: rest =>
    simp only [integerSuffixLength, startsWith_cons, oneChar_cons]
    grind [oneChar_cons]

theorem steady_realSuffixLength : Steady realSuffixLength := by
  have shut : Shut ("fFdDmM".toList.contains ·) := shut_of_spaces (by decide)
  apply (steady_oneChar shut).of_eq
  intro cs
  cases cs <;> rfl

/-- The length of the digits in front of the point. -/
def wholeLength (cs : List Char) : Nat :=
  if startsWith Char.isDigit cs then digitsLength Char.isDigit cs else 0

theorem steady_wholeLength : Steady wholeLength :=
  steady_decimalDigits.choose .zero shut_isDigit

theorem decimalLength_eq (cs : List Char) :
    decimalLength cs =
      let fraction := fractionLength (cs.drop (wholeLength cs))
      let exponent := exponentLength (cs.drop (wholeLength cs + fraction))
      let n := wholeLength cs + fraction + exponent
      if fraction + exponent + realSuffixLength (cs.drop n) = 0 then
        n + integerSuffixLength (cs.drop n)
      else n + realSuffixLength (cs.drop n) := rfl

theorem steady_decimalLength : Steady decimalLength := by
  intro a b h
  obtain ⟨whole, agree⟩ := steady_wholeLength h
  obtain ⟨fraction, more⟩ := steady_fractionLength agree.behind
  have agree := agree.add more
  obtain ⟨exponent, more⟩ := steady_exponentLength agree.behind
  have agree := agree.add more
  obtain ⟨real, agreeReal⟩ := steady_realSuffixLength agree.behind
  obtain ⟨integer, agreeInteger⟩ := steady_integerSuffixLength agree.behind
  rw [decimalLength_eq, decimalLength_eq]
  simp only [whole, fraction, exponent, real, integer]
  refine ⟨trivial, ?_⟩
  split
  · exact agree.add agreeInteger
  · exact agree.add agreeReal

theorem basedRest?_eq (isDigit : Char → Bool) (cs : List Char) :
    basedRest? isDigit cs =
      if digitsLength isDigit cs = 0 then none
      else some (digitsLength isDigit cs +
        integerSuffixLength (cs.drop (digitsLength isDigit cs))) := by
  unfold basedRest?
  split <;> simp_all

theorem basedRest?_of_agree {isDigit : Char → Bool} (shut : Shut fun c => isDigit c || c == '_')
    {a b : List Char} (h : Agree a b) :
    basedRest? isDigit b = basedRest? isDigit a ∧
      ∀ n, basedRest? isDigit a = some n → AgreeFor n a b := by
  obtain ⟨digits, agree⟩ := steady_digitsLength shut h
  obtain ⟨suffix, more⟩ := steady_integerSuffixLength agree.behind
  rw [basedRest?_eq, basedRest?_eq, digits, suffix]
  refine ⟨rfl, ?_⟩
  intro n found
  split at found
  · cases found
  · cases found
    exact agree.add more

/-- The number behind the two characters that name its base. -/
def based? (x : Char) (rest : List Char) : Option Nat :=
  if x == 'x' || x == 'X' then basedRest? isHexDigit rest
  else if x == 'b' || x == 'B' then basedRest? (fun c => c == '0' || c == '1') rest
  else none

theorem based?_of_agree (x : Char) {a b : List Char} (h : Agree a b) :
    based? x b = based? x a ∧ ∀ n, based? x a = some n → AgreeFor n a b := by
  unfold based?
  split
  · exact basedRest?_of_agree (shut_of_spaces (by decide)) h
  · split
    · exact basedRest?_of_agree (shut_of_spaces (by decide)) h
    · exact ⟨rfl, fun n found => nomatch found⟩

theorem based?_of_space {x : Char} (space : isSpace x = true) (rest : List Char) :
    based? x rest = none := by
  have hex : Shut fun x => x == 'x' || x == 'X' := shut_of_spaces (by decide)
  have binary : Shut fun x => x == 'b' || x == 'B' := shut_of_spaces (by decide)
  have noHex := hex.2 x space
  have noBinary := binary.2 x space
  simp only at noHex noBinary
  simp [based?, noHex, noBinary]

theorem numberLength_zero (x : Char) (rest : List Char) :
    numberLength ('0' :: x :: rest) =
      match based? x rest with
      | some n => 2 + n
      | none => decimalLength ('0' :: x :: rest) := rfl

theorem numberLength_of_ne {c : Char} (other : c ≠ '0') (cs : List Char) :
    numberLength (c :: cs) =
      if c.isDigit || fractionLength (c :: cs) ≠ 0 then decimalLength (c :: cs) else 0 := by
  unfold numberLength
  split <;> simp_all

theorem steady_numberLength : Steady numberLength := by
  intro a b h
  have decimal := steady_decimalLength h
  obtain ⟨fraction, _⟩ := steady_fractionLength h
  cases h with
  | nil => exact ⟨rfl, .nil⟩
  | apart space =>
    rw [numberLength_of_ne (ne_of_space space (by decide)),
      numberLength_of_ne (show '/' ≠ '0' by decide), fraction, decimal.1, shut_isDigit.1,
      shut_isDigit.2 _ space]
    refine ⟨rfl, ?_⟩
    split
    · exact decimal.2
    · exact .apart space
  | cons c rest =>
    by_cases zero : c = '0'
    · subst zero
      cases rest with
      | nil => exact decimal
      | apart space =>
        rw [numberLength_zero, numberLength_zero, based?_of_space space,
          show based? '/' _ = none from rfl]
        exact decimal
      | cons x rest =>
        obtain ⟨same, agree⟩ := based?_of_agree x rest
        rw [numberLength_zero, numberLength_zero, decimal.1, same]
        refine ⟨rfl, ?_⟩
        split
        · rename_i n found
          rw [Nat.add_comm]
          exact ⟨_, rfl, _, rfl, agree n found⟩
        · exact decimal.2
    · rw [numberLength_of_ne zero, numberLength_of_ne zero, fraction, decimal.1]
      refine ⟨rfl, ?_⟩
      split
      · exact decimal.2
      · exact .cons c rest

end Forwarding.Syntax
