import Forwarding.Proofs.TypeName.Layout
import Mathlib.Data.List.Basic

/-!
Where a type text can be cut. The lexemes of two texts in a row are those of the first and then
those of the second, unless a word or a double colon lies across the seam (`lexemes_append`). A
chain lies across it only if the second text starts with a word or a separator (`tokenize_append`).
Array ranks can be counted in the characters as well as in the tokens (`rankAfter_tokenize`).
-/

namespace Forwarding.TypeName

open Text (isBlank isNameChar)

/-! ### Characters -/

/-- The blanks above ASCII, as closed ranges of code points. -/
def blankRanges : List (Nat × Nat) :=
  [(0x85, 0x85), (0xA0, 0xA0), (0x1680, 0x1680), (0x2000, 0x200A), (0x2028, 0x2029),
    (0x202F, 0x202F), (0x205F, 0x205F), (0x3000, 0x3000)]

/-- The two tables do not meet. -/
theorem alphanumericRanges_blankless :
    (Text.alphanumericRanges.toList.all fun r =>
      blankRanges.all fun s => r.2.blt s.1 || s.2.blt r.1) = true := by
  decide +kernel

theorem not_isNameChar_of_isBlank {c : Char} (blank : isBlank c = true) : isNameChar c = false := by
  by_cases ascii : c.toNat < 0x80
  · have nameless : [9, 10, 11, 12, 13, 0x20].all (fun n => !isNameChar (Char.ofNat n)) := by decide
    have listed : c.toNat ∈ [9, 10, 11, 12, 13, 0x20] := by
      simp only [isBlank, Bool.or_eq_true, Bool.and_eq_true, decide_eq_true_eq, beq_iff_eq] at blank
      simp only [List.mem_cons, List.not_mem_nil, or_false]
      omega
    have here := List.all_eq_true.mp nameless c.toNat listed
    rwa [Char.ofNat_toNat, Bool.not_eq_true'] at here
  · obtain ⟨s, listed, low, high⟩ : ∃ s ∈ blankRanges, s.1 ≤ c.toNat ∧ c.toNat ≤ s.2 := by
      simp only [isBlank, Bool.or_eq_true, Bool.and_eq_true, decide_eq_true_eq, beq_iff_eq] at blank
      simp only [blankRanges, List.mem_cons, List.not_mem_nil, or_false, exists_eq_or_imp,
        exists_eq_left]
      omega
    have unlisted : Text.alphanumericRanges.any
        (fun r => r.1 ≤ c.toNat && c.toNat ≤ r.2) = false := by
      rw [← Array.any_toList, List.any_eq_false]
      intro r mem
      have apart := List.all_eq_true.mp
        (List.all_eq_true.mp alphanumericRanges_blankless r mem) s listed
      simp only [Bool.or_eq_true, Nat.blt_eq] at apart
      simp only [Bool.and_eq_true, decide_eq_true_eq, not_and]
      omega
    have others : c ≠ '_' ∧ c ≠ '@' := by
      constructor <;> (rintro rfl; exact ascii (by decide))
    simp [isNameChar, Text.isAlphanumeric, ascii, unlisted, others]

theorem not_isBlank_of_isNameChar {c : Char} (name : isNameChar c = true) : isBlank c = false := by
  cases blank : isBlank c with
  | false => rfl
  | true => rw [not_isNameChar_of_isBlank blank] at name; cases name

/-! ### Lexemes, one character at a time -/

@[simp]
theorem lexemes_nil : lexemes [] = [] := rfl

theorem lexemes_colons (cs : List Char) :
    lexemes (':' :: ':' :: cs) = .doubleColon :: lexemes cs := rfl

theorem head?_ne_colon {c : Char} {cs : List Char}
    (single : ∀ rest, c = ':' → cs = ':' :: rest → False) : c = ':' → cs.head? ≠ some ':' := by
  intro colon first
  obtain ⟨rest, next⟩ := List.head?_eq_some_iff.mp first
  exact single rest colon next

/-- Two colons are read together; every other character is read by what it is. -/
theorem lexemes_cons {c : Char} {cs : List Char} (single : c = ':' → cs.head? ≠ some ':') :
    lexemes (c :: cs) =
      if isBlank c then lexemes cs
      else if isNameChar c then
        if cs.head?.any isNameChar then Lexeme.extend c (lexemes cs) else .word [c] :: lexemes cs
      else .mark c :: lexemes cs := by
  conv_lhs => unfold lexemes
  split
  · rename_i eq
    cases eq
  · rename_i eq
    cases eq
    exact absurd rfl (single rfl)
  · rename_i eq
    cases eq
    cases cs <;> rfl

theorem lexemes_blank {c : Char} (blank : isBlank c = true) (cs : List Char) :
    lexemes (c :: cs) = lexemes cs := by
  rw [lexemes_cons, if_pos blank]
  rintro rfl
  exact absurd blank (by decide)

theorem lexemes_mark {c : Char} {cs : List Char} (visible : isBlank c = false)
    (nameless : isNameChar c = false) (single : c = ':' → cs.head? ≠ some ':') :
    lexemes (c :: cs) = .mark c :: lexemes cs := by
  simp only [lexemes_cons single, visible, nameless, Bool.false_eq_true, if_false]

theorem lexemes_name {c : Char} (name : isNameChar c = true) (cs : List Char) :
    lexemes (c :: cs) =
      if cs.head?.any isNameChar then Lexeme.extend c (lexemes cs)
      else .word [c] :: lexemes cs := by
  rw [lexemes_cons, if_neg (by simp [not_isBlank_of_isNameChar name]), if_pos name]
  rintro rfl
  exact absurd name (by decide)

theorem exists_word_of_name {c : Char} (name : isNameChar c = true) (cs : List Char) :
    ∃ w ls, lexemes (c :: cs) = .word w :: ls := by
  rw [lexemes_name name]
  split
  · cases lexemes cs with
    | nil => exact ⟨_, _, rfl⟩
    | cons l ls => cases l <;> exact ⟨_, _, rfl⟩
  · exact ⟨_, _, rfl⟩

/-! ### Lexemes of two texts in a row -/

/-- Neither a word nor a double colon lies across the seam of the two texts. -/
def Apart (a b : List Char) : Prop :=
  ∀ c ∈ a.getLast?, ∀ d ∈ b.head?,
    (isNameChar c = true → isNameChar d = false) ∧ (c = ':' → d ≠ ':')

theorem Apart.tail {c : Char} {a b : List Char} (h : Apart (c :: a) b) : Apart a b := by
  intro e last
  apply h
  rw [Option.mem_def, List.getLast?_cons, Option.mem_def.mp last]
  rfl

theorem apart_of_head {a b : List Char}
    (h : ∀ d ∈ b.head?, isNameChar d = false ∧ d ≠ ':') : Apart a b :=
  fun _ _ d first => ⟨fun _ => (h d first).1, fun _ => (h d first).2⟩

theorem lexemes_append {a b : List Char} (apart : Apart a b) :
    lexemes (a ++ b) = lexemes a ++ lexemes b := by
  induction a using lexemes.induct with
  | case1 => rfl
  | case2 cs ih =>
    rw [List.cons_append, List.cons_append, lexemes_colons, lexemes_colons, ih apart.tail.tail,
      List.cons_append]
  | case3 c cs _ blank ih =>
    rw [List.cons_append, lexemes_blank blank, lexemes_blank blank, ih apart.tail]
  | case4 c _ name _ =>
    have closed : b.head?.any isNameChar = false := by
      cases b with
      | nil => rfl
      | cons d b => exact (apart c rfl d rfl).1 name
    rw [List.singleton_append, lexemes_name name, lexemes_name name, closed]
    rfl
  | case5 c _ name d tail more _ ih =>
    -- The word at the seam grows to the left only, so the second text does not take part in it.
    obtain ⟨w, ls, word⟩ := exists_word_of_name more tail
    have joined : lexemes (d :: tail ++ b) = .word w :: (ls ++ lexemes b) := by
      rw [ih apart.tail, word, List.cons_append]
    rw [List.cons_append, lexemes_name name, lexemes_name name, joined, word]
    simp [more, Lexeme.extend]
  | case6 c _ name d tail stop _ ih =>
    rw [List.cons_append, lexemes_name name, lexemes_name name, ih apart.tail]
    simp [stop]
  | case7 c cs single visible nameless ih =>
    rw [Bool.not_eq_true] at visible nameless
    have alone := head?_ne_colon single
    have still : c = ':' → (cs ++ b).head? ≠ some ':' := by
      intro colon first
      cases cs with
      | nil => exact (apart c rfl ':' first).2 colon rfl
      | cons d cs => exact alone colon first
    rw [List.cons_append, lexemes_mark visible nameless alone, lexemes_mark visible nameless still,
      ih apart.tail, List.cons_append]

/-! ### Words -/

/-- A nonempty run of name characters. -/
structure Word where
  chars : List Char
  nonempty : chars ≠ []
  named : chars.all isNameChar = true

theorem not_mem_of_all {cs : List Char} (named : cs.all isNameChar = true) {c : Char}
    (other : isNameChar c = false) : c ∉ cs := by
  intro mem
  rw [List.all_eq_true.mp named c mem] at other
  cases other

theorem Word.isNameChar_of_mem (w : Word) {c : Char} (mem : c ∈ w.chars) : isNameChar c = true :=
  List.all_eq_true.mp w.named c mem

theorem Word.not_mem (w : Word) {c : Char} (other : isNameChar c = false) : c ∉ w.chars :=
  not_mem_of_all w.named other

theorem lexemes_run {cs : List Char} (nonempty : cs ≠ []) (named : cs.all isNameChar = true) :
    lexemes cs = [.word cs] := by
  induction cs with
  | nil => exact absurd rfl nonempty
  | cons c cs ih =>
    obtain ⟨name, named⟩ := Bool.and_eq_true_iff.mp named
    rw [lexemes_name name]
    cases cs with
    | nil => rfl
    | cons d cs =>
      rw [ih (List.cons_ne_nil d cs) named]
      simp [(Bool.and_eq_true_iff.mp named).1, Lexeme.extend]

/-- A word ends where its run of name characters ends. -/
theorem lexemes_word (w : Word) {cs : List Char} (stop : cs.head?.any isNameChar = false) :
    lexemes (w.chars ++ cs) = .word w.chars :: lexemes cs := by
  have apart : Apart w.chars cs := by
    intro c last d first
    have name := w.isNameChar_of_mem (List.mem_of_mem_getLast? last)
    rw [Option.mem_def.mp first] at stop
    refine ⟨fun _ => stop, ?_⟩
    rintro rfl
    exact absurd name (by decide)
  rw [lexemes_append apart, lexemes_run w.nonempty w.named, List.singleton_append]

theorem exists_leading_word {c : Char} (name : isNameChar c = true) (cs : List Char) :
    ∃ (w : Word) (rest : List Char), c :: cs = w.chars ++ rest ∧
      rest.head?.any isNameChar = false ∧ rest.length ≤ cs.length := by
  refine ⟨⟨c :: cs.takeWhile isNameChar, List.cons_ne_nil _ _, ?_⟩, cs.dropWhile isNameChar, ?_, ?_,
    (List.dropWhile_suffix isNameChar).length_le⟩
  · rw [List.all_cons, name, List.all_takeWhile, Bool.and_self]
  · rw [List.cons_append, List.takeWhile_append_dropWhile]
  · have stop := List.head?_dropWhile_not isNameChar cs
    cases first : (cs.dropWhile isNameChar).head? with
    | none => rfl
    | some d => simpa [first] using stop

/-- Reading a text from the left: a character that is in no word, or a whole word. -/
theorem wordInduction {motive : List Char → Prop} (nil : motive [])
    (other : ∀ c cs, isNameChar c = false → motive cs → motive (c :: cs))
    (word : ∀ (w : Word) cs, cs.head?.any isNameChar = false → motive cs → motive (w.chars ++ cs))
    (cs : List Char) : motive cs := by
  induction len : cs.length using Nat.strongRecOn generalizing cs with
  | ind n ih =>
    subst len
    cases cs with
    | nil => exact nil
    | cons c cs =>
      cases name : isNameChar c with
      | false => exact other c cs name (ih cs.length (Nat.lt_succ_self _) cs rfl)
      | true =>
        obtain ⟨w, rest, whole, stop, shorter⟩ := exists_leading_word name cs
        rw [whole]
        exact word w rest stop (ih rest.length (Nat.lt_succ_of_le shorter) rest rfl)

/-! ### Chains -/

/-- Only words and separators take part in chains. -/
def Lexeme.isCut : Lexeme → Bool
  | .mark c => c != '.'
  | _ => false

theorem joinChains_word {ls : List Lexeme} (w : List Char)
    (stop : ls.head? ≠ some (.mark '.') ∧ ls.head? ≠ some .doubleColon) :
    joinChains (.word w :: ls) = .name w :: joinChains ls := by
  rw [joinChains]
  · rintro rest rfl
    exact stop.1 rfl
  · rintro rest rfl
    exact stop.2 rfl

theorem Token.link_append (w sep : List Char) (ts : List Token) {us : List Token}
    (cut : ∀ t ∈ us.head?, ∃ c, t = .mark c) :
    Token.link w sep (ts ++ us) = Token.link w sep ts ++ us := by
  cases ts with
  | nil =>
    cases us with
    | nil => simp
    | cons t us =>
      obtain ⟨c, rfl⟩ := cut t rfl
      simp [Token.link]
  | cons t ts => cases t <;> simp [Token.link]

theorem head_joinChains_of_isCut {ls : List Lexeme} (cut : ls.head?.all Lexeme.isCut) :
    ∀ t ∈ (joinChains ls).head?, ∃ c, t = .mark c := by
  intro t first
  cases ls with
  | nil => cases first
  | cons l ls =>
    cases l with
    | word w => cases cut
    | doubleColon => cases cut
    | mark c =>
      cases first
      exact ⟨c, rfl⟩

theorem joinChains_append (ls : List Lexeme) {ms : List Lexeme}
    (cut : ms.head?.all Lexeme.isCut) :
    joinChains (ls ++ ms) = joinChains ls ++ joinChains ms := by
  induction ls using joinChains.induct with
  | case1 => rfl
  | case2 w rest ih =>
    rw [List.cons_append, List.cons_append, joinChains, joinChains, ih,
      Token.link_append _ _ _ (head_joinChains_of_isCut cut)]
  | case3 w rest ih =>
    rw [List.cons_append, List.cons_append, joinChains, joinChains, ih,
      Token.link_append _ _ _ (head_joinChains_of_isCut cut)]
  | case4 w rest dotless colonless ih =>
    have alone : rest.head? ≠ some (.mark '.') ∧ rest.head? ≠ some .doubleColon := by
      constructor <;> intro first <;> obtain ⟨ls, rfl⟩ := List.head?_eq_some_iff.mp first
      · exact dotless ls rfl
      · exact colonless ls rfl
    have still : (rest ++ ms).head? ≠ some (.mark '.') ∧
        (rest ++ ms).head? ≠ some .doubleColon := by
      cases rest with
      | nil => constructor <;> intro first <;> rw [List.nil_append] at first <;>
          rw [first] at cut <;> cases cut
      | cons l ls => exact alone
    rw [List.cons_append, joinChains_word w alone, joinChains_word w still, ih, List.cons_append]
  | case5 rest ih => rw [List.cons_append, joinChains, joinChains, ih]; rfl
  | case6 c rest ih => rw [List.cons_append, joinChains, joinChains, ih]; rfl

theorem tokenize_blank {c : Char} (blank : isBlank c = true) (cs : List Char) :
    tokenize (c :: cs) = tokenize cs := by
  rw [tokenize, lexemes_blank blank]
  rfl

theorem tokenize_mark {c : Char} (visible : isBlank c = false) (nameless : isNameChar c = false)
    (single : c ≠ ':') (cs : List Char) : tokenize (c :: cs) = .mark c :: tokenize cs := by
  rw [tokenize, lexemes_mark visible nameless fun colon => absurd colon single]
  rfl

theorem tokenize_append {a b : List Char} (apart : Apart a b)
    (cut : (lexemes b).head?.all Lexeme.isCut) :
    tokenize (a ++ b) = tokenize a ++ tokenize b := by
  rw [tokenize, lexemes_append apart, joinChains_append _ cut]
  rfl

/-! ### Array ranks -/

/-- How many array ranks are open behind a lexeme. -/
def Lexeme.rankBehind (rank : Nat) : Lexeme → Nat
  | .mark c => TypeName.rankBehind rank c
  | _ => rank

theorem rankAfter_link (rank : Nat) (w : List Char) {sep : List Char} (ts : List Token)
    (flat : ∀ c ∈ sep, ∀ r, rankBehind r c = r) :
    rankAfter rank (Token.link w sep ts) = rankAfter rank ts := by
  have skip (us : List Token) : rankAfter rank (sep.map .mark ++ us) = rankAfter rank us := by
    induction sep with
    | nil => rfl
    | cons c sep ih =>
      rw [List.map_cons, List.cons_append, rankAfter, flat c List.mem_cons_self]
      exact ih fun d mem => flat d (List.mem_cons_of_mem c mem)
  cases ts with
  | nil => exact skip []
  | cons t ts =>
    cases t with
    | name chain => rfl
    | mark c => exact skip (.mark c :: ts)

theorem rankAfter_joinChains (rank : Nat) (ls : List Lexeme) :
    rankAfter rank (joinChains ls) = ls.foldl Lexeme.rankBehind rank := by
  induction ls using joinChains.induct generalizing rank with
  | case1 => rfl
  | case2 w rest ih =>
    rw [joinChains, rankAfter_link rank w _ (by simp [rankBehind]), ih]
    rfl
  | case3 w rest ih =>
    rw [joinChains, rankAfter_link rank w _ (by simp [rankBehind]), ih]
    rfl
  | case4 w rest dotless colonless ih =>
    rw [joinChains, rankAfter, ih]
    · rfl
    · exact dotless
    · exact colonless
  | case5 rest ih => exact ih rank
  | case6 c rest ih => exact ih _

theorem rankBehind_of_ne {c : Char} (opening : c ≠ '[') (closing : c ≠ ']') (rank : Nat) :
    rankBehind rank c = rank := by
  rw [rankBehind, if_neg opening, if_neg closing]

theorem rankBehind_of_isNameChar {c : Char} (name : isNameChar c = true) (rank : Nat) :
    rankBehind rank c = rank := by
  apply rankBehind_of_ne <;> rintro rfl <;> exact absurd name (by decide)

theorem rankBehind_of_isBlank {c : Char} (blank : isBlank c = true) (rank : Nat) :
    rankBehind rank c = rank := by
  apply rankBehind_of_ne <;> rintro rfl <;> exact absurd blank (by decide)

theorem foldl_extend (rank : Nat) (c : Char) (ls : List Lexeme) :
    (Lexeme.extend c ls).foldl Lexeme.rankBehind rank = ls.foldl Lexeme.rankBehind rank := by
  cases ls with
  | nil => rfl
  | cons l ls => cases l <;> rfl

theorem foldl_lexemes_name {c : Char} (name : isNameChar c = true) (rank : Nat) (cs : List Char) :
    (lexemes (c :: cs)).foldl Lexeme.rankBehind rank =
      (lexemes cs).foldl Lexeme.rankBehind rank := by
  rw [lexemes_name name]
  split
  · exact foldl_extend rank c (lexemes cs)
  · rfl

theorem foldl_lexemes (rank : Nat) (cs : List Char) :
    (lexemes cs).foldl Lexeme.rankBehind rank = cs.foldl rankBehind rank := by
  induction cs using lexemes.induct generalizing rank with
  | case1 => rfl
  | case2 cs ih => exact ih rank
  | case3 c cs _ blank ih =>
    rw [lexemes_blank blank, List.foldl_cons, rankBehind_of_isBlank blank, ih]
  | case4 c _ name _ =>
    rw [foldl_lexemes_name name, List.foldl_cons, rankBehind_of_isNameChar name]
    rfl
  | case5 c _ name d tail _ _ ih =>
    rw [foldl_lexemes_name name, List.foldl_cons, rankBehind_of_isNameChar name, ih]
  | case6 c _ name d tail _ _ ih =>
    rw [foldl_lexemes_name name, List.foldl_cons, rankBehind_of_isNameChar name, ih]
  | case7 c cs single visible nameless ih =>
    rw [lexemes_cons (head?_ne_colon single), if_neg visible, if_neg nameless]
    exact ih _

/-- The open array ranks can be counted character by character. -/
theorem rankAfter_tokenize (rank : Nat) (cs : List Char) :
    rankAfter rank (tokenize cs) = cs.foldl rankBehind rank := by
  rw [tokenize, rankAfter_joinChains, foldl_lexemes]

end Forwarding.TypeName
