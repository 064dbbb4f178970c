import Forwarding.Proofs.Syntax.Quotes

/-!
Every token but an invalid one is found from its own text: behind it the lexer cannot tell a comment
from white space.
-/

namespace Forwarding.Syntax

/-! ### Marks -/

/-- What a comment or white space starts with. -/
def isBreak (c : Char) : Bool :=
  ('/' :: spaces).contains c

/-- A piece without such characters is found at the front of both texts or of neither. -/
theorem isPrefixOf_of_agree {m : List Char} (closed : m.all (!isBreak ·) = true) {a b : List Char}
    (h : Agree a b) :
    m.isPrefixOf b = m.isPrefixOf a ∧ (m.isPrefixOf a = true → AgreeFor m.length a b) := by
  induction m generalizing a b with
  | nil => exact ⟨rfl, fun _ => h⟩
  | cons c m ih =>
    rw [List.all_cons, Bool.and_eq_true] at closed
    cases h with
    | nil => exact ⟨rfl, fun found => nomatch found⟩
    | apart space =>
      have other : c ∉ '/' :: spaces := by simpa [isBreak] using closed.1
      have noSlash : c ≠ '/' := fun same => other (same ▸ List.mem_cons_self)
      have noSpace : c ≠ _ := fun same => other (same ▸ List.mem_cons_of_mem _ (mem_spaces space))
      simp [List.isPrefixOf, beq_eq_false_iff_ne.mpr noSlash, beq_eq_false_iff_ne.mpr noSpace]
    | cons d rest =>
      obtain ⟨same, agree⟩ := ih closed.2 rest
      simp only [List.isPrefixOf, same, Bool.and_eq_true]
      exact ⟨trivial, fun found => ⟨_, rfl, agree found.2⟩⟩

/-- Behind their first character marks hold nothing that a comment starts with. -/
theorem longMarks_closed : ∀ m ∈ longMarks, m.toList.tail.all (!isBreak ·) = true := by
  decide

theorem longMark_of_agree {m : String} (listed : m ∈ longMarks) (c : Char) {a b : List Char}
    (h : Agree a b) :
    m.toList.isPrefixOf (c :: b) = m.toList.isPrefixOf (c :: a) ∧
      (m.toList.isPrefixOf (c :: a) = true → AgreeFor m.length (c :: a) (c :: b)) := by
  have closed := longMarks_closed m listed
  rw [← String.length_toList]
  cases chars : m.toList with
  | nil => exact ⟨rfl, fun _ => .cons c h⟩
  | cons d more =>
    rw [chars, List.tail_cons] at closed
    obtain ⟨same, agree⟩ := isPrefixOf_of_agree closed h
    simp only [List.isPrefixOf, same, Bool.and_eq_true]
    exact ⟨trivial, fun found => ⟨_, rfl, agree found.2⟩⟩

theorem find?_congr {α : Type} {p q : α → Bool} {l : List α} (h : ∀ x ∈ l, p x = q x) :
    l.find? p = l.find? q := by
  induction l with
  | nil => rfl
  | cons x l ih =>
    rw [List.find?_cons, List.find?_cons, h x List.mem_cons_self,
      ih fun y mem => h y (List.mem_cons_of_mem x mem)]

theorem markLength_of_agree (c : Char) {a b : List Char} (h : Agree a b) :
    markLength (c :: b) = markLength (c :: a) ∧
      AgreeFor (markLength (c :: a)) (c :: a) (c :: b) := by
  have same : longMarks.find? (fun m => m.toList.isPrefixOf (c :: b)) =
      longMarks.find? (fun m => m.toList.isPrefixOf (c :: a)) :=
    find?_congr fun m listed => (longMark_of_agree listed c h).1
  refine ⟨by rw [markLength, markLength, same]; rfl, ?_⟩
  unfold markLength
  split
  · rename_i m found
    have listed := List.mem_of_find?_eq_some found
    have matched := List.find?_some found
    exact (longMark_of_agree listed c h).2 matched
  · split
    · exact ⟨_, rfl, h⟩
    · exact .cons c h

/-! ### Openings and directives -/

theorem textOpen?_eq (cs : List Char) :
    textOpen? cs =
      if ['@', '$', '"'].isPrefixOf cs || ['$', '@', '"'].isPrefixOf cs then
        some ({ style := .verbatim, braces := 1 }, 3)
      else if startsWith (· == '$') cs then
        let dollars := runLength '$' cs
        let quotes := runLength '"' (cs.drop dollars)
        if 3 ≤ quotes then some ({ style := .raw quotes, braces := dollars }, dollars + quotes)
        else if dollars = 1 && 1 ≤ quotes then some ({ style := .regular, braces := 1 }, 2)
        else none
      else none := by
  unfold textOpen?
  split
  · rfl
  · rfl
  · rename_i other
    have second : ¬ ['@', '"'] <+: _ := fun ⟨tail, same⟩ => other tail same.symm
    simp [List.isPrefixOf, second]
  · rename_i verbatim _ other
    have first : ¬ ['@', '$', '"'] <+: cs := by
      rintro ⟨tail, rfl⟩
      exact verbatim tail rfl
    have second : ¬ ['$', '@', '"'] <+: cs := by
      rintro ⟨tail, rfl⟩
      exact other _ rfl
    have third : startsWith (· == '$') cs = false := by
      cases cs with
      | nil => rfl
      | cons c cs =>
        rw [startsWith_cons, beq_eq_false_iff_ne]
        rintro rfl
        exact other cs rfl
    simp [first, second, third]

theorem textOpen?_of_agree {a b : List Char} (h : Agree a b) :
    textOpen? b = textOpen? a := by
  have dollar : Shut (· == '$') := shut_of_spaces (by decide)
  have quote : Shut (· == '"') := shut_of_spaces (by decide)
  obtain ⟨dollars, agree⟩ := steady_runLength dollar h
  have quotes := (steady_runLength quote agree.behind).1
  rw [textOpen?_eq, textOpen?_eq, (isPrefixOf_of_agree (by decide) h).1,
    (isPrefixOf_of_agree (by decide) h).1, (startsWith_of_agree dollar h).1]
  simp only [dollars, quotes]

theorem takeWhile_of_agreeFor_succ {p : Char → Bool} {a b : List Char}
    (h : AgreeFor ((a.takeWhile p).length + 1) a b) : b.takeWhile p = a.takeWhile p := by
  induction a generalizing b with
  | nil => rw [show b = [] from h]
  | cons c a ih =>
    obtain ⟨b, rfl, rest⟩ := h
    by_cases more : p c = true
    · simp only [List.takeWhile_cons_of_pos more, List.length_cons] at rest ⊢
      rw [ih rest]
    · simp only [List.takeWhile_cons_of_neg more]

theorem takeWhile_of_agreeFor {p : Char → Bool} (slash : p '/' = true) {a b : List Char}
    (h : AgreeFor (a.takeWhile p).length a b) : b.takeWhile p = a.takeWhile p := by
  induction a generalizing b with
  | nil =>
    cases (show Agree [] b from h)
    rfl
  | cons c a ih =>
    by_cases more : p c = true
    · simp only [List.takeWhile_cons_of_pos more, List.length_cons] at h ⊢
      obtain ⟨b, rfl, rest⟩ := h
      rw [List.takeWhile_cons_of_pos more, ih rest]
    · rw [List.takeWhile_cons_of_neg more] at h ⊢
      cases (show Agree (c :: a) b from h) with
      | cons _ rest => rw [List.takeWhile_cons_of_neg more]
      | apart space => exact absurd slash more

theorem directive?_of_ne {c : Char} (other : c ≠ '#') (cs : List Char) :
    directive? (c :: cs) = none := by
  unfold directive?
  split <;> simp_all

theorem directive?_of_agreeFor {a b : List Char} {name : String} {n : Nat}
    (found : directive? ('#' :: a) = some (name, n)) (h : AgreeFor (n - 1) a b) :
    directive? ('#' :: b) = some (name, n) := by
  have letter : Shut Char.isAlpha := shut_of_spaces (by decide)
  simp only [directive?, Option.ite_none_right_eq_some, Option.some.injEq, Prod.mk.injEq] at found ⊢
  obtain ⟨listed, rfl, length⟩ := found
  simp only [String.length_ofList] at length
  have named : 0 < ((a.drop (a.takeWhile fun c => c == ' ' || c == '\t').length).takeWhile
      Char.isAlpha).length := by
    apply List.length_pos_iff.mpr
    intro empty
    rw [empty] at listed
    cases listed
  have gap := takeWhile_of_agreeFor_succ
    (p := fun c => c == ' ' || c == '\t') (h.mono (by omega))
  have known : AgreeFor (a.takeWhile fun c => c == ' ' || c == '\t').length a b :=
    h.mono (by omega)
  rw [gap, (takeWhile_of_agree letter known.behind).1]
  exact ⟨listed, rfl, by simp only [String.length_ofList, length]⟩

/-! ### The scanners of the lexer -/

theorem head?_ne_iff {c : Char} {cs : List Char} :
    cs.head? ≠ some c ↔ ¬ startsWith (· == c) cs = true := by
  cases cs <;> simp

theorem exists_cons_of_startsWith {c : Char} {cs : List Char}
    (first : startsWith (· == c) cs = true) : ∃ rest, cs = c :: rest := by
  cases cs with
  | nil => cases first
  | cons d rest => exact ⟨rest, by rw [eq_of_beq first]⟩

namespace LexState

variable (s : LexState) {c : Char} {a b : List Char}

theorem scanText_of_agreeFor (t : OpenText) (outer : List OpenText)
    (h : AgreeFor ((s.scanText t outer (c :: a)).2.1 - 1) a b) :
    s.scanText t outer (c :: b) = s.scanText t outer (c :: a) := by
  have open' : Shut (· == '\x7b') := shut_of_spaces (by decide)
  have agree : Agree (c :: a) (c :: b) := .cons c h.agree
  have part : textPartLength t 0 (c :: b) = textPartLength t 0 (c :: a) := by
    apply textPartLength_of_agreeFor
    cases length : textPartLength t 0 (c :: a) with
    | zero => exact agree
    | succ n =>
      simp only [scanText, length] at h
      exact ⟨b, rfl, h⟩
  simp only [scanText, part, (steady_closeLength t agree).1, (steady_runLength open' agree).1]

theorem scanMark_of_agreeFor (h : AgreeFor ((s.scanMark (c :: a)).2.1 - 1) a b) :
    s.scanMark (c :: b) = s.scanMark (c :: a) := by
  have close : Shut (· == '\x7d') := shut_of_spaces (by decide)
  have colon : Shut (· == ':') := shut_of_spaces (by decide)
  have agree : Agree (c :: a) (c :: b) := .cons c h.agree
  have mark := (markLength_of_agree c h.agree).1
  have braces := (steady_runLength close agree).1
  have head : (b.head? ≠ some ':') = (a.head? ≠ some ':') := by
    rw [head?_ne_iff, head?_ne_iff, (startsWith_of_agree colon h.agree).1]
  cases texts : s.texts with
  | nil => simp only [scanMark, texts, mark]
  | cons t outer =>
    simp only [scanMark, texts, head, mark, braces] at h ⊢
    split_ifs at h ⊢
    · rfl
    · rfl
    · rfl
    · rfl
    · rw [takeWhile_of_agreeFor rfl (h.mono (by simp))]
    · rfl

/-- The token at the front that is neither a literal nor a mark of its own. -/
def scanPlain (cs : List Char) : TokenKind × Nat × LexState :=
  match identifierLength cs, numberLength cs, markLength cs with
  | n + 1, _, _ => (.word, n + 1, s)
  | 0, n + 1, _ => (.number, n + 1, s)
  | 0, 0, _ + 1 => s.scanMark cs
  | 0, 0, 0 => (.invalid, 1, s)

/-- The token at the front where no directive and no string with holes starts. -/
def scanBare (c : Char) (cs : List Char) : TokenKind × Nat × LexState :=
  if c = '\n' then (.lineEnd, 1, { s with inCondition := false })
  else if c = '\'' then s.literal .character (characterRest? cs) 1
  else if c = '@' ∧ startsWith (· == '"') cs then s.literal .text (verbatimRest? (cs.drop 1)) 2
  else if c = '"' then
    if 3 ≤ runLength '"' (c :: cs) then
      s.literal .text (rawRest? (runLength '"' (c :: cs)) ((c :: cs).drop (runLength '"' (c :: cs))))
        (runLength '"' (c :: cs))
    else s.literal .text (stringRest? 0 cs) 1
  else if c = '/' ∧ startsWith (· == '*') cs then (.invalid, 1, s)
  else s.scanPlain (c :: cs)

theorem scanCode_eq (c : Char) (cs : List Char) :
    s.scanCode (c :: cs) =
      match directive? (c :: cs), textOpen? (c :: cs) with
      | some (name, n), _ =>
        (.directive, n, { s with inCondition := name == "if" || name == "elif" })
      | none, some (t, n) => (.textOpen, n, { s with texts := t :: s.texts, inText := true })
      | none, none => s.scanBare c cs := by
  unfold scanCode
  cases directive? (c :: cs) with
  | some found => rfl
  | none =>
    cases textOpen? (c :: cs) with
    | some found => rfl
    | none =>
      simp only
      split
      · rename_i same
        cases same
        rfl
      · rename_i same
        cases same
        rfl
      · rename_i same
        cases same
        rfl
      · rename_i same
        cases same
        rfl
      · rename_i same
        cases same
        rfl
      · rename_i newline character verbatim text comment
        have notVerbatim : ¬ (c = '@' ∧ startsWith (· == '"') cs = true) := by
          rintro ⟨rfl, second⟩
          obtain ⟨rest, rfl⟩ := exists_cons_of_startsWith second
          exact verbatim rest rfl
        have notComment : ¬ (c = '/' ∧ startsWith (· == '*') cs = true) := by
          rintro ⟨rfl, second⟩
          obtain ⟨rest, rfl⟩ := exists_cons_of_startsWith second
          exact comment rest rfl
        rw [scanBare, if_neg (by rintro rfl; exact newline cs rfl),
          if_neg (by rintro rfl; exact character cs rfl), if_neg notVerbatim,
          if_neg (by rintro rfl; exact text cs rfl), if_neg notComment]
        rfl

theorem scanPlain_of_agreeFor (h : AgreeFor ((s.scanPlain (c :: a)).2.1 - 1) a b) :
    s.scanPlain (c :: b) = s.scanPlain (c :: a) := by
  have agree : Agree (c :: a) (c :: b) := .cons c h.agree
  unfold scanPlain at h ⊢
  rw [(steady_identifierLength agree).1, (steady_numberLength agree).1,
    (markLength_of_agree c h.agree).1]
  split
  · rfl
  · rfl
  · rename_i word number mark
    rw [word, number, mark] at h
    exact s.scanMark_of_agreeFor h
  · rfl

theorem literal_of_agreeFor {kind : TokenKind} {f : List Char → Option Nat} {front : Nat}
    (settled : ∀ ⦃n a b⦄, f a = some n → AgreeFor n a b → f b = some n)
    (valid : (s.literal kind (f a) front).1 ≠ .invalid)
    (h : AgreeFor ((s.literal kind (f a) front).2.1 - front) a b) :
    s.literal kind (f b) front = s.literal kind (f a) front := by
  cases found : f a with
  | none =>
    rw [found] at valid
    exact absurd rfl valid
  | some n =>
    rw [found] at h
    rw [settled found (h.mono (by simp [literal]))]

theorem le_length_literal {kind : TokenKind} {rest : Option Nat} {front : Nat}
    (valid : (s.literal kind rest front).1 ≠ .invalid) :
    front ≤ (s.literal kind rest front).2.1 := by
  cases rest with
  | none => exact absurd rfl valid
  | some n => exact Nat.le_add_left front n

theorem scanBare_of_agreeFor (valid : (s.scanBare c a).1 ≠ .invalid)
    (h : AgreeFor ((s.scanBare c a).2.1 - 1) a b) : s.scanBare c b = s.scanBare c a := by
  have quote : Shut (· == '"') := shut_of_spaces (by decide)
  have star : Shut (· == '*') := shut_of_spaces (by decide)
  have agree : Agree (c :: a) (c :: b) := .cons c h.agree
  unfold scanBare at valid h ⊢
  rw [(startsWith_of_agree quote h.agree).1, (startsWith_of_agree star h.agree).1,
    (steady_runLength quote agree).1]
  split_ifs at valid h ⊢ with newline character verbatim text raw comment
  · rfl
  · exact s.literal_of_agreeFor (fun _ _ _ => characterRest?_of_agreeFor) valid h
  · have front := s.le_length_literal valid
    apply s.literal_of_agreeFor (fun _ _ _ => verbatimRest?_of_agreeFor) valid
    exact (h.mono (by omega)).drop
  · have front := s.le_length_literal valid
    have whole : AgreeFor (_ - 1 + 1) (c :: a) (c :: b) := ⟨b, rfl, h⟩
    apply s.literal_of_agreeFor (fun _ _ _ => rawRest?_of_agreeFor) valid
    exact (whole.mono (by omega)).drop
  · exact s.literal_of_agreeFor (fun _ _ _ => stringRest?_of_agreeFor) valid h
  · exact absurd rfl valid
  · exact s.scanPlain_of_agreeFor h

/-- Behind a `#` that starts no directive there is no token. -/
theorem scanCode_hash (missing : directive? ('#' :: a) = none) :
    (s.scanCode ('#' :: a)).1 = .invalid := by
  have start : Text.isIdentifierStart '#' = false := by
    simp only [Text.isIdentifierStart, ← Array.any_toList]
    decide +kernel
  have word : identifierLength ('#' :: a) = 0 := by
    simp [identifierLength, bareIdentifierLength, start, codePointLength]
  have number : numberLength ('#' :: a) = 0 := rfl
  have mark : markLength ('#' :: a) = 0 := rfl
  have text : textOpen? ('#' :: a) = none := rfl
  have plain : s.scanBare '#' a = s.scanPlain ('#' :: a) := rfl
  rw [scanCode_eq, missing, text]
  simp only [plain, scanPlain, word, number, mark]

theorem scanCode_of_agreeFor (valid : (s.scanCode (c :: a)).1 ≠ .invalid)
    (h : AgreeFor ((s.scanCode (c :: a)).2.1 - 1) a b) :
    s.scanCode (c :: b) = s.scanCode (c :: a) := by
  have text : textOpen? (c :: b) = textOpen? (c :: a) := textOpen?_of_agree (.cons c h.agree)
  by_cases hash : c = '#'
  · subst hash
    cases found : directive? ('#' :: a) with
    | none => exact absurd (s.scanCode_hash found) valid
    | some named =>
      rw [scanCode_eq, found] at h
      rw [scanCode_eq, scanCode_eq, found, directive?_of_agreeFor found h]
  · rw [scanCode_eq, directive?_of_ne hash] at valid h
    rw [scanCode_eq, scanCode_eq, directive?_of_ne hash, directive?_of_ne hash, text]
    cases found : textOpen? (c :: a) with
    | some opened => rfl
    | none =>
      rw [found] at valid h
      exact s.scanBare_of_agreeFor valid h

/-- A token that is not invalid is scanned without a look at what stands behind it, up to the
choice between a comment and white space. -/
theorem scan_of_agreeFor (valid : (s.scan (c :: a)).1 ≠ .invalid)
    (h : AgreeFor ((s.scan (c :: a)).2.1 - 1) a b) : s.scan (c :: b) = s.scan (c :: a) := by
  unfold scan at valid h ⊢
  cases inText : s.inText with
  | false =>
    simp only [inText] at valid h
    exact s.scanCode_of_agreeFor valid h
  | true =>
    cases texts : s.texts with
    | nil =>
      simp only [inText, texts] at valid h
      exact s.scanCode_of_agreeFor valid h
    | cons t outer =>
      simp only [inText, texts] at h
      exact s.scanText_of_agreeFor t outer h

end LexState

end Forwarding.Syntax
