import Forwarding.Proofs.Text.Spacing
import Mathlib.Data.List.Basic

/-!
Words and the blanks around them. A text without blanks at its ends is a row of words with gaps
between them, and facts about such a text are shown word by word (`trimmedInduction`). Trimming and
squashing change the gaps and the ends of a text, never its words.
-/

namespace Forwarding.Text

/-! ### Trimming -/

/-- All characters are blanks. -/
def Blank (cs : List Char) : Prop :=
  ∀ c ∈ cs, isBlank c = true

theorem blank_nil : Blank [] := by
  intro c mem
  cases mem

theorem blank_space : Blank [' '] := by
  intro c mem
  rw [List.mem_singleton.mp mem]
  decide

/-- There is no blank at either end. -/
structure Trimmed (cs : List Char) : Prop where
  head : cs.head?.any isBlank = false
  last : cs.getLast?.any isBlank = false

instance (cs : List Char) : Decidable (Trimmed cs) :=
  decidable_of_iff (cs.head?.any isBlank = false ∧ cs.getLast?.any isBlank = false)
    ⟨fun ⟨head, last⟩ => ⟨head, last⟩, fun ⟨head, last⟩ => ⟨head, last⟩⟩

theorem trimStart_of_head {cs : List Char} (head : cs.head?.any isBlank = false) :
    trimStart cs = cs := by
  cases cs with
  | nil => rfl
  | cons c cs => exact List.dropWhile_cons_of_neg (by simpa using head)

theorem trimStart_blank {gap : List Char} (blank : Blank gap) (cs : List Char) :
    trimStart (gap ++ cs) = trimStart cs :=
  List.dropWhile_append_of_pos blank

theorem head_trimStart (cs : List Char) : (trimStart cs).head?.any isBlank = false := by
  induction cs with
  | nil => rfl
  | cons c cs ih =>
    cases blank : isBlank c with
    | true => simpa [trimStart, blank] using ih
    | false => simp [trimStart, blank]

/-- What is cut off in front is blank. -/
theorem exists_trimStart (cs : List Char) : ∃ gap, Blank gap ∧ cs = gap ++ trimStart cs := by
  refine ⟨cs.takeWhile isBlank, ?_, List.takeWhile_append_dropWhile.symm⟩
  intro c mem
  exact List.all_eq_true.mp List.all_takeWhile c mem

theorem trimEnd_eq (cs : List Char) : trimEnd cs = (trimStart cs.reverse).reverse := rfl

/-- A visible character keeps all that stands in front of it. -/
theorem trimEnd_append {c : Char} (visible : isBlank c = false) (a b : List Char) :
    trimEnd (a ++ c :: b) = a ++ c :: trimEnd b := by
  have stop : (b.reverse ++ c :: a.reverse).dropWhile isBlank =
      b.reverse.dropWhile isBlank ++ c :: a.reverse := by
    rw [List.dropWhile_append, List.dropWhile_cons_of_neg (by simp [visible])]
    split
    · rename_i empty
      rw [List.isEmpty_iff.mp empty, List.nil_append]
    · rfl
  simp [trimEnd, stop]

theorem trim_of_trimmed {cs : List Char} (trimmed : Trimmed cs) : trim cs = cs := by
  have back : trimStart cs.reverse = cs.reverse :=
    trimStart_of_head (by rw [List.head?_reverse]; exact trimmed.last)
  rw [trim, trimStart_of_head trimmed.head, trimEnd_eq, back, List.reverse_reverse]

theorem trimEnd_blank {gap : List Char} (blank : Blank gap) (cs : List Char) :
    trimEnd (cs ++ gap) = trimEnd cs := by
  have back : Blank gap.reverse := fun c mem => blank c (List.mem_reverse.mp mem)
  rw [trimEnd_eq, List.reverse_append, trimStart_blank back, ← trimEnd_eq]

theorem exists_trimEnd (cs : List Char) : ∃ gap, Blank gap ∧ cs = trimEnd cs ++ gap := by
  obtain ⟨gap, blank, whole⟩ := exists_trimStart cs.reverse
  refine ⟨gap.reverse, fun c mem => blank c (List.mem_reverse.mp mem), ?_⟩
  rw [trimEnd_eq, ← List.reverse_append, ← whole, List.reverse_reverse]

theorem trimmed_trim (cs : List Char) : Trimmed (trim cs) := by
  constructor
  · obtain ⟨gap, -, whole⟩ := exists_trimEnd (trimStart cs)
    have head := head_trimStart cs
    rw [whole, List.head?_append] at head
    rw [trim]
    cases first : (trimEnd (trimStart cs)).head? with
    | none => rfl
    | some c =>
      rw [first] at head
      exact head
  · rw [trim, trimEnd_eq, List.getLast?_reverse]
    exact head_trimStart _

/-- Trimming takes off blanks in front and behind. -/
theorem exists_trim (cs : List Char) :
    ∃ lead trail, Blank lead ∧ Blank trail ∧ cs = lead ++ (trim cs ++ trail) := by
  obtain ⟨lead, front, whole⟩ := exists_trimStart cs
  obtain ⟨trail, back, rest⟩ := exists_trimEnd (trimStart cs)
  refine ⟨lead, trail, front, back, ?_⟩
  rw [trim, ← rest, ← whole]

theorem trim_surrounded {lead cs trail : List Char} (front : Blank lead) (trimmed : Trimmed cs)
    (back : Blank trail) : trim (lead ++ (cs ++ trail)) = cs := by
  rw [trim, trimStart_blank front]
  cases cs with
  | nil =>
    have trimmed : trimStart trail = [] := by
      rw [← List.append_nil trail, trimStart_blank back]
      rfl
    rw [List.nil_append, trimmed]
    rfl
  | cons c cs =>
    have head : ((c :: cs) ++ trail).head?.any isBlank = false := trimmed.head
    rw [trimStart_of_head head, trimEnd_blank back]
    have whole := trim_of_trimmed trimmed
    rwa [trim, trimStart_of_head trimmed.head] at whole

theorem trim_append_blank {cs trail : List Char} (trimmed : Trimmed cs) (back : Blank trail) :
    trim (cs ++ trail) = cs :=
  trim_surrounded blank_nil trimmed back

/-- Behind a text without blanks at its ends only the end is trimmed. -/
theorem trim_append {a : List Char} (trimmed : Trimmed a) (filled : a ≠ []) (b : List Char) :
    trim (a ++ b) = a ++ trimEnd b := by
  have head : (a ++ b).head?.any isBlank = false := by
    rw [List.head?_append_of_ne_nil _ filled]
    exact trimmed.head
  rw [trim, trimStart_of_head head]
  obtain ⟨init, c, rfl⟩ := List.eq_nil_or_concat a |>.resolve_left filled
  have visible : isBlank c = false := by simpa using trimmed.last
  simp [trimEnd_append visible]

/-! ### Words -/

/-- A word of a text. -/
structure IsWord (w : List Char) : Prop where
  filled : w ≠ []
  visible : ∀ c ∈ w, isBlank c = false

theorem words_blank {c : Char} (blank : isBlank c = true) (cs : List Char) :
    words (c :: cs) = words cs := by
  rw [words.eq_def]
  simp only [blank, if_true]

theorem words_of_blank {gap : List Char} (blank : Blank gap) (cs : List Char) :
    words (gap ++ cs) = words cs := by
  induction gap with
  | nil => rfl
  | cons c gap ih =>
    rw [List.cons_append, words_blank (blank c List.mem_cons_self)]
    exact ih fun d mem => blank d (List.mem_cons_of_mem c mem)

/-- A word ends where the text ends or a blank follows. -/
theorem words_append {w rest : List Char} (word : IsWord w) (stop : rest.head?.all isBlank = true) :
    words (w ++ rest) = w :: words rest := by
  obtain ⟨filled, visible⟩ := word
  induction w with
  | nil => exact absurd rfl filled
  | cons c w ih =>
    have first : ¬ isBlank c = true := by simp [visible c List.mem_cons_self]
    cases w with
    | nil =>
      cases rest with
      | nil => simp [words, first]
      | cons b rest =>
        have blank : isBlank b = true := by simpa using stop
        rw [List.singleton_append, words, if_neg first, if_pos blank]
    | cons d w =>
      have second : ¬ isBlank d = true := by simp [visible d (by simp)]
      have inner := ih (by simp) fun e mem => visible e (List.mem_cons_of_mem c mem)
      rw [List.cons_append, List.cons_append, words, if_neg first, if_neg second,
        ← List.cons_append, inner, extendFirst]

theorem words_of_isWord {w : List Char} (word : IsWord w) : words w = [w] := by
  have alone : words (w ++ []) = w :: words [] := words_append word rfl
  rwa [List.append_nil] at alone

theorem words_append_blank {gap : List Char} (blank : Blank gap) (cs : List Char) :
    words (cs ++ gap) = words cs := by
  have wordless : words gap = [] := by
    have all := words_of_blank blank []
    rwa [List.append_nil] at all
  induction cs with
  | nil => exact wordless
  | cons c cs ih =>
    cases first : isBlank c with
    | true => rw [List.cons_append, words_blank first, words_blank first, ih]
    | false =>
      have visible : ¬ isBlank c = true := by simp [first]
      cases cs with
      | nil =>
        have word : IsWord [c] := ⟨by simp, by simpa using first⟩
        have stop : gap.head?.all isBlank = true := by
          cases gap with
          | nil => rfl
          | cons b gap => exact blank b List.mem_cons_self
        rw [words_append word stop, wordless, words_of_isWord word]
      | cons d cs =>
        rw [List.cons_append, List.cons_append, words, if_neg visible, words, if_neg visible,
          ← List.cons_append, ih]

theorem words_trim (cs : List Char) : words (trim cs) = words cs := by
  obtain ⟨lead, trail, front, back, whole⟩ := exists_trim cs
  have same := words_of_blank front (trim cs ++ trail)
  rw [← whole, words_append_blank back] at same
  exact same.symm

/-! ### Texts word by word -/

/-- The first word of a text that starts with a visible character. -/
theorem exists_first_word {c : Char} (visible : isBlank c = false) (cs : List Char) :
    ∃ w rest, IsWord w ∧ rest.head?.all isBlank = true ∧ c :: cs = w ++ rest := by
  have split : c :: cs = (c :: cs).takeWhile (!isBlank ·) ++ (c :: cs).dropWhile (!isBlank ·) :=
    List.takeWhile_append_dropWhile.symm
  refine ⟨_, _, ⟨?_, ?_⟩, ?_, split⟩
  · simp [visible]
  · intro d mem
    simpa using List.all_eq_true.mp List.all_takeWhile d mem
  · cases rest : (c :: cs).dropWhile (!isBlank ·) with
    | nil => rfl
    | cons d ds =>
      have stop := List.head?_dropWhile_not (!isBlank ·) (c :: cs)
      rw [rest] at stop
      simpa using stop

theorem Trimmed.of_append {a b : List Char} (trimmed : Trimmed (a ++ b))
    (head : b.head?.any isBlank = false) : Trimmed b := by
  refine ⟨head, ?_⟩
  have last := trimmed.last
  rw [List.getLast?_append] at last
  cases back : b.getLast? with
  | none => rfl
  | some c =>
    rw [back] at last
    exact last

/-- Induction over the words of a text without blanks at its ends. -/
@[elab_as_elim]
theorem trimmedInduction {motive : ∀ cs, Trimmed cs → Prop} (nil : ∀ whole, motive [] whole)
    (word : ∀ w whole, IsWord w → motive w whole)
    (gap : ∀ w b blanks rest whole inner, IsWord w → isBlank b = true → Blank blanks → rest ≠ [] →
      motive rest inner → motive (w ++ b :: (blanks ++ rest)) whole) :
    ∀ cs (trimmed : Trimmed cs), motive cs trimmed := by
  intro cs
  induction size : cs.length using Nat.strongRecOn generalizing cs with
  | ind n ih =>
    intro trimmed
    cases cs with
    | nil => exact nil trimmed
    | cons c cs =>
      have visible : isBlank c = false := by simpa using trimmed.head
      obtain ⟨w, rest, isWord, stop, whole⟩ := exists_first_word visible cs
      generalize c :: cs = text at trimmed size whole
      subst whole
      cases rest with
      | nil =>
        have single : w ++ [] = w := List.append_nil w
        generalize w ++ [] = text at trimmed single
        subst single
        exact word _ trimmed isWord
      | cons b tail =>
        have blank : isBlank b = true := by simpa using stop
        obtain ⟨blanks, between, split⟩ := exists_trimStart tail
        have head := head_trimStart tail
        generalize trimStart tail = rest at split head
        subst split
        have inner : Trimmed rest := by
          apply Trimmed.of_append (a := w ++ b :: blanks) _ head
          rwa [List.append_assoc, List.cons_append]
        -- The last character is visible, so a word follows the gap.
        have filled : rest ≠ [] := by
          rintro rfl
          have all : ∀ d ∈ b :: blanks, isBlank d = true :=
            List.forall_mem_cons.mpr ⟨blank, between⟩
          have final := all _ (List.getLast_mem (List.cons_ne_nil b blanks))
          have last := trimmed.last
          rw [List.append_nil, List.getLast?_append,
            List.getLast?_eq_some_getLast (List.cons_ne_nil b blanks), Option.some_or,
            Option.any_some, final] at last
          cases last
        refine gap w b blanks rest trimmed inner isWord blank between filled ?_
        apply ih rest.length _ rest rfl
        rw [← size]
        simp only [List.length_append, List.length_cons]
        omega

/-! ### Squashed texts, word by word -/

theorem squash_trim (cs : List Char) : squash (trim cs) = squash cs := by
  rw [squash, words_trim, squash]

theorem squash_of_isWord {w : List Char} (word : IsWord w) : squash w = w := by
  rw [squash, words_of_isWord word, List.intercalate_singleton]

theorem words_ne_nil {cs : List Char} (trimmed : Trimmed cs) (filled : cs ≠ []) :
    words cs ≠ [] := by
  induction cs, trimmed using trimmedInduction with
  | nil => exact absurd rfl filled
  | word w _ isWord =>
    rw [words_of_isWord isWord]
    simp
  | gap w b gap rest _ _ isWord blank =>
    rw [words_append isWord (by simpa using blank)]
    simp

theorem words_gap {w gap rest : List Char} {b : Char} (word : IsWord w) (blank : isBlank b = true)
    (between : Blank gap) : words (w ++ b :: (gap ++ rest)) = w :: words rest := by
  rw [words_append word (by simpa using blank), words_blank blank, words_of_blank between]

/-- A gap is squashed to one space. -/
theorem squash_words {w gap rest : List Char} {b : Char} (word : IsWord w)
    (blank : isBlank b = true) (between : Blank gap) (trimmed : Trimmed rest) (filled : rest ≠ []) :
    squash (w ++ b :: (gap ++ rest)) = w ++ ' ' :: squash rest := by
  obtain ⟨v, vs, more⟩ := List.exists_cons_of_ne_nil (words_ne_nil trimmed filled)
  rw [squash, words_gap word blank between, squash, more, List.intercalate_cons_cons]
  simp

theorem isWord_trimmed {w : List Char} (word : IsWord w) : Trimmed w := by
  constructor
  · cases first : w.head? with
    | none => rfl
    | some c => exact word.visible c (List.mem_of_mem_head? first)
  · cases last : w.getLast? with
    | none => rfl
    | some c => exact word.visible c (List.mem_of_getLast? last)

theorem Trimmed.append {a b : List Char} (front : Trimmed a) (filled : a ≠ []) (back : Trimmed b)
    (more : b ≠ []) (c : List Char) : Trimmed (a ++ c ++ b) := by
  constructor
  · rw [List.append_assoc, List.head?_append_of_ne_nil _ filled]
    exact front.head
  · rw [List.getLast?_append_of_ne_nil _ more]
    exact back.last

theorem Trimmed.squash {cs : List Char} (trimmed : Trimmed cs) :
    Trimmed (squash cs) ∧ (cs ≠ [] → Text.squash cs ≠ []) := by
  induction cs, trimmed using trimmedInduction with
  | nil => exact ⟨⟨rfl, rfl⟩, id⟩
  | word w whole isWord =>
    rw [squash_of_isWord isWord]
    exact ⟨whole, id⟩
  | gap w b blanks rest _ inner isWord blank between filled ih =>
    obtain ⟨squashed, more⟩ := ih
    rw [squash_words isWord blank between inner filled]
    refine ⟨?_, fun _ => by simp⟩
    have joined := (isWord_trimmed isWord).append isWord.filled squashed (more filled) [' ']
    rwa [List.append_assoc] at joined

theorem trimmed_squash (cs : List Char) : Trimmed (squash cs) := by
  rw [← squash_trim]
  exact (trimmed_trim cs).squash.1

end Forwarding.Text
