import Forwarding.Outline.Parameter
import Forwarding.Proofs.Text.Words
import Forwarding.Proofs.TypeName.Aliases

/-!
The passing keywords in front of a type. They are taken off word by word, as long as another word
follows, so that the width of the gaps makes no difference (`splitKeywords_squash`), and a type that
is a keyword itself stays a type.
-/

namespace Forwarding

open Text (Blank Trimmed IsWord isBlank trimStart words squash)

/-! ### One word at a time -/

/-- Each keyword takes at least one character, so a text's length is enough fuel. -/
theorem leadingKeywords_of_length_le {n : Nat} {cs : List Char} (enough : cs.length ≤ n) :
    leadingKeywords n cs = splitKeywords cs := by
  unfold splitKeywords
  generalize size : cs.length = m at enough
  replace size : cs.length ≤ m := by omega
  induction n generalizing m cs with
  | zero =>
    obtain rfl := Nat.le_zero.mp enough
    rfl
  | succ n ih =>
    cases m with
    | zero =>
      obtain rfl := List.length_eq_zero_iff.mp (Nat.le_zero.mp size)
      rfl
    | succ m =>
      unfold leadingKeywords
      split
      · rfl
      · rename_i word tail found
        have shorter : (trimStart tail).length ≤ m := by
          obtain ⟨c, -, rfl⟩ := TypeName.eq_of_splitAtFirst found
          have cut : (trimStart tail).length ≤ tail.length :=
            (List.dropWhile_sublist isBlank).length_le
          simp only [List.length_append, List.length_cons] at size
          omega
        rw [ih m (by omega) shorter]

theorem splitKeywords_word {w : List Char} (word : IsWord w) : splitKeywords w = ([], w) := by
  have unsplit := TypeName.splitAtFirst_append word.visible []
  rw [List.append_nil] at unsplit
  obtain ⟨n, size⟩ : ∃ n, w.length = n + 1 :=
    Nat.exists_eq_succ_of_ne_zero fun empty => word.filled (List.length_eq_zero_iff.mp empty)
  rw [splitKeywords, size, leadingKeywords, unsplit]
  rfl

theorem splitKeywords_gap {w gap rest : List Char} {b : Char} (word : IsWord w)
    (blank : isBlank b = true) (between : Blank gap) (trimmed : Trimmed rest) :
    splitKeywords (w ++ b :: (gap ++ rest)) =
      if passingKeywords.contains (String.ofList w) then
        (String.ofList w :: (splitKeywords rest).1, (splitKeywords rest).2)
      else ([], w ++ b :: (gap ++ rest)) := by
  have split : Text.splitAtFirst isBlank (w ++ b :: (gap ++ rest)) = some (w, gap ++ rest) := by
    rw [TypeName.splitAtFirst_append word.visible, Text.splitAtFirst, if_pos blank]
    simp
  have behind : trimStart (gap ++ rest) = rest := by
    rw [Text.trimStart_blank between, Text.trimStart_of_head trimmed.head]
  obtain ⟨n, size⟩ : ∃ n, (w ++ b :: (gap ++ rest)).length = n + 1 :=
    ⟨w.length + (gap ++ rest).length, by simp; omega⟩
  have enough : rest.length ≤ n := by
    simp only [List.length_append, List.length_cons] at size
    omega
  rw [splitKeywords, size, leadingKeywords, split]
  simp only [behind, leadingKeywords_of_length_le enough]

theorem splitKeywords_space {w rest : List Char} (word : IsWord w) (trimmed : Trimmed rest) :
    splitKeywords (w ++ ' ' :: rest) =
      if passingKeywords.contains (String.ofList w) then
        (String.ofList w :: (splitKeywords rest).1, (splitKeywords rest).2)
      else ([], w ++ ' ' :: rest) :=
  splitKeywords_gap word (by decide) Text.blank_nil trimmed

/-! ### The keywords of a text -/

/-- The words of a text that are passing keywords with another word behind them, up to the first
word that is none. -/
def keywordRun (cs : List Char) : List String :=
  ((words cs).map String.ofList).dropLast.takeWhile passingKeywords.contains

theorem splitKeywords_fst {cs : List Char} (trimmed : Trimmed cs) :
    (splitKeywords cs).1 = keywordRun cs := by
  induction cs, trimmed using Text.trimmedInduction with
  | nil => rfl
  | word w _ word =>
    rw [splitKeywords_word word, keywordRun, Text.words_of_isWord word]
    rfl
  | gap w b gap rest _ inner word blank between filled ih =>
    obtain ⟨v, vs, more⟩ := List.exists_cons_of_ne_nil (Text.words_ne_nil inner filled)
    rw [splitKeywords_gap word blank between inner, keywordRun, Text.words_gap word blank between,
      List.map_cons, more, List.map_cons, List.dropLast_cons_cons, ← List.map_cons, ← more]
    by_cases keyword : passingKeywords.contains (String.ofList w) = true
    · rw [if_pos keyword, List.takeWhile_cons_of_pos keyword, ih, keywordRun]
    · rw [if_neg keyword, List.takeWhile_cons_of_neg keyword]

/-- Squashing a text changes nothing but the gaps in its type. -/
theorem splitKeywords_squash {cs : List Char} (trimmed : Trimmed cs) :
    splitKeywords (squash cs) = ((splitKeywords cs).1, squash (splitKeywords cs).2) := by
  induction cs, trimmed using Text.trimmedInduction with
  | nil => rfl
  | word w _ word =>
    rw [Text.squash_of_isWord word, splitKeywords_word word, Text.squash_of_isWord word]
  | gap w b gap rest _ inner word blank between filled ih =>
    have squashed := Text.squash_words word blank between inner filled
    rw [squashed, splitKeywords_space word (Text.trimmed_squash rest),
      splitKeywords_gap word blank between inner, ih]
    split
    · rfl
    · rw [squashed]

/-! ### Modifiers -/

/-- Keywords are added behind the modifiers in the order of the text, and `this` is none of them. -/
theorem exists_addKeywords (modifiers keywords : List String) :
    ∃ added, addKeywords modifiers keywords = modifiers ++ added ∧
      added.Sublist (keywords.filter (· != "this")) := by
  unfold addKeywords
  induction keywords generalizing modifiers with
  | nil => exact ⟨[], by simp, by simp⟩
  | cons w keywords ih =>
    rw [List.foldl_cons]
    split
    · obtain ⟨added, whole, order⟩ := ih modifiers
      exact ⟨added, whole, order.trans ((List.sublist_cons_self ..).filter _)⟩
    · rename_i new
      obtain ⟨added, whole, order⟩ := ih (modifiers ++ [w])
      simp only [Bool.or_eq_true, beq_iff_eq, not_or] at new
      refine ⟨w :: added, by rw [whole]; simp, ?_⟩
      rw [List.filter_cons_of_pos (by simpa using new.1)]
      exact order.cons_cons w

theorem mem_addKeywords {modifiers keywords : List String} {m : String} :
    m ∈ addKeywords modifiers keywords ↔ m ∈ modifiers ∨ m ∈ keywords ∧ m ≠ "this" := by
  unfold addKeywords
  induction keywords generalizing modifiers with
  | nil => simp
  | cons w keywords ih =>
    rw [List.foldl_cons, ih]
    by_cases receiver : w = "this"
    · rw [if_pos (by simp [receiver])]
      grind
    · by_cases known : w ∈ modifiers
      · rw [if_pos (by simp [known])]
        grind
      · rw [if_neg (by simp [receiver, known])]
        grind

/-- Where no keyword is repeated, all are added. -/
theorem addKeywords_of_nodup {modifiers keywords : List String}
    (once : (modifiers ++ keywords).Nodup) :
    addKeywords modifiers keywords = modifiers ++ keywords.filter (· != "this") := by
  unfold addKeywords
  induction keywords generalizing modifiers with
  | nil => simp
  | cons w keywords ih =>
    rw [List.foldl_cons]
    by_cases receiver : w = "this"
    · have rest : (modifiers ++ keywords).Nodup :=
        once.sublist ((List.sublist_cons_self w keywords).append_left modifiers)
      rw [if_pos (by simp [receiver]), ih rest, List.filter_cons_of_neg (by simp [receiver])]
    · have fresh : w ∉ modifiers :=
        fun mem => (List.nodup_append.mp once).2.2 w mem w List.mem_cons_self rfl
      rw [List.append_cons] at once
      rw [if_neg (by simp [receiver, fresh]), ih once, List.filter_cons_of_pos (by simp [receiver])]
      simp

end Forwarding
