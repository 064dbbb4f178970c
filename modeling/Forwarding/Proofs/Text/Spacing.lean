import Forwarding.Text.Blank

/-!
White space in a text. A text is a row of visible characters with gaps between them, and in a gap
there are blanks or there are none. Two texts with the same visible characters are spaced alike if
they agree on the gaps that matter (`SameSpacing`), whatever blanks there are and how many.
Squashing a text keeps all its gaps between two characters (`sameSpacing_squash`).
-/

namespace Forwarding.Text

/-! ### Visible characters -/

theorem removeBlanks_blank {c : Char} (blank : isBlank c = true) (cs : List Char) :
    removeBlanks (c :: cs) = removeBlanks cs := by
  simp [removeBlanks, blank]

theorem removeBlanks_visible {c : Char} (visible : isBlank c = false) (cs : List Char) :
    removeBlanks (c :: cs) = c :: removeBlanks cs := by
  simp [removeBlanks, visible]

theorem removeBlanks_append (a b : List Char) :
    removeBlanks (a ++ b) = removeBlanks a ++ removeBlanks b :=
  List.filter_append ..

theorem removeBlanks_removeBlanks (cs : List Char) :
    removeBlanks (removeBlanks cs) = removeBlanks cs := by
  simp [removeBlanks]

/-! ### Gaps -/

/-- There is a blank with exactly `n` visible characters in front of it. -/
def Gap (cs : List Char) (n : Nat) : Prop :=
  ∃ front c back, cs = front ++ c :: back ∧ isBlank c = true ∧ (removeBlanks front).length = n

theorem not_gap_nil (n : Nat) : ¬ Gap [] n := by
  rintro ⟨front, c, back, whole, -⟩
  simp at whole

theorem gap_blank {c : Char} (blank : isBlank c = true) {cs : List Char} {n : Nat} :
    Gap (c :: cs) n ↔ n = 0 ∨ Gap cs n := by
  constructor
  · rintro ⟨front, d, back, whole, isGap, size⟩
    cases front with
    | nil => exact .inl size.symm
    | cons e front =>
      cases whole
      rw [removeBlanks_blank blank] at size
      exact .inr ⟨front, d, back, rfl, isGap, size⟩
  · rintro (rfl | ⟨front, d, back, rfl, isGap, size⟩)
    · exact ⟨[], c, cs, rfl, blank, rfl⟩
    · exact ⟨c :: front, d, back, rfl, isGap, by rw [removeBlanks_blank blank, size]⟩

theorem not_gap_zero {c : Char} (visible : isBlank c = false) (cs : List Char) :
    ¬ Gap (c :: cs) 0 := by
  rintro ⟨front, d, back, whole, isGap, size⟩
  cases front with
  | nil =>
    cases whole
    rw [visible] at isGap
    cases isGap
  | cons e front =>
    cases whole
    rw [removeBlanks_visible visible] at size
    cases size

theorem gap_succ {c : Char} (visible : isBlank c = false) {cs : List Char} {n : Nat} :
    Gap (c :: cs) (n + 1) ↔ Gap cs n := by
  constructor
  · rintro ⟨front, d, back, whole, isGap, size⟩
    cases front with
    | nil => cases size
    | cons e front =>
      cases whole
      rw [removeBlanks_visible visible] at size
      exact ⟨front, d, back, rfl, isGap, Nat.succ.inj size⟩
  · rintro ⟨front, d, back, rfl, isGap, size⟩
    exact ⟨c :: front, d, back, rfl, isGap, by rw [removeBlanks_visible visible]; simp [size]⟩

instance decidableGap : (cs : List Char) → (n : Nat) → Decidable (Gap cs n)
  | [], n => isFalse (not_gap_nil n)
  | c :: cs, n =>
    have := decidableGap cs
    if blank : isBlank c = true then decidable_of_iff (n = 0 ∨ Gap cs n) (gap_blank blank).symm
    else
      match n with
      | 0 => isFalse (not_gap_zero (Bool.eq_false_iff.mpr blank) cs)
      | m + 1 => decidable_of_iff (Gap cs m) (gap_succ (Bool.eq_false_iff.mpr blank)).symm

/-! ### Texts spaced alike -/

/-- The same visible characters, with blanks between two neighbours in the one text exactly if there
are blanks between them in the other one, as far as `sticks` holds of the two. -/
structure SameSpacing (sticks : Char → Char → Bool) (a b : List Char) : Prop where
  visible : removeBlanks a = removeBlanks b
  gaps : ∀ n, ∀ c ∈ (removeBlanks a)[n]?, ∀ d ∈ (removeBlanks a)[n + 1]?, sticks c d = true →
    (Gap a (n + 1) ↔ Gap b (n + 1))

theorem any_pair_iff {first second : Option Char} {sticks : Char → Char → Bool} {p : Prop} :
    ((first.any fun c => second.any (sticks c)) = true → p) ↔
      ∀ c ∈ first, ∀ d ∈ second, sticks c d = true → p := by
  cases first <;> cases second <;> simp

instance (sticks : Char → Char → Bool) (a b : List Char) : Decidable (SameSpacing sticks a b) :=
  decidable_of_iff (removeBlanks a = removeBlanks b ∧ ∀ n < (removeBlanks a).length,
      ((removeBlanks a)[n]?.any fun c => (removeBlanks a)[n + 1]?.any (sticks c)) = true →
        (Gap a (n + 1) ↔ Gap b (n + 1)))
    ⟨fun ⟨visible, gaps⟩ => ⟨visible, fun n c first =>
        any_pair_iff.mp (gaps n (List.getElem?_eq_some_iff.mp first).1) c first⟩,
      fun ⟨visible, gaps⟩ => ⟨visible, fun n _ => any_pair_iff.mpr (gaps n)⟩⟩

section

variable {sticks : Char → Char → Bool} {a b : List Char} {c : Char}

theorem SameSpacing.refl (a : List Char) : SameSpacing sticks a a :=
  ⟨rfl, fun _ _ _ _ _ _ => Iff.rfl⟩

theorem SameSpacing.symm (same : SameSpacing sticks a b) : SameSpacing sticks b a := by
  refine ⟨same.visible.symm, ?_⟩
  intro n c first d second close
  rw [← same.visible] at first second
  exact (same.gaps n c first d second close).symm

theorem sameSpacing_blank (blank : isBlank c = true) :
    SameSpacing sticks (c :: a) b ↔ SameSpacing sticks a b := by
  have inner (n : Nat) : Gap (c :: a) (n + 1) ↔ Gap a (n + 1) := by simp [gap_blank blank]
  constructor <;> rintro ⟨visible, gaps⟩ <;> refine ⟨?_, ?_⟩
  · rwa [removeBlanks_blank blank] at visible
  · simpa only [inner, removeBlanks_blank blank] using gaps
  · rwa [removeBlanks_blank blank]
  · simpa only [inner, removeBlanks_blank blank] using gaps

/-- With a visible character in front, one more gap is looked at. -/
theorem sameSpacing_visible (visible : isBlank c = false) :
    SameSpacing sticks (c :: a) (c :: b) ↔ SameSpacing sticks a b ∧
      ∀ d ∈ (removeBlanks a).head?, sticks c d = true → (Gap a 0 ↔ Gap b 0) := by
  constructor
  · rintro ⟨same, gaps⟩
    rw [removeBlanks_visible visible, removeBlanks_visible visible] at same
    simp only [removeBlanks_visible visible, gap_succ visible] at gaps
    refine ⟨⟨(List.cons.inj same).2, fun n => gaps (n + 1)⟩, ?_⟩
    intro d first
    rw [List.head?_eq_getElem?] at first
    exact gaps 0 c rfl d first
  · rintro ⟨⟨same, gaps⟩, front⟩
    refine ⟨by rw [removeBlanks_visible visible, removeBlanks_visible visible, same], ?_⟩
    simp only [removeBlanks_visible visible, gap_succ visible]
    intro n
    cases n with
    | zero =>
      intro e first d second
      cases first
      rw [List.getElem?_cons_succ, ← List.head?_eq_getElem?] at second
      exact front d second
    | succ n => exact gaps n

/-- The next character of the one text is the next character of the other, if it is one that sticks
to the character in front of it. -/
theorem SameSpacing.next (visible : isBlank c = false)
    (same : SameSpacing sticks (c :: a) (c :: b)) {d : Char} (shown : isBlank d = false)
    (close : sticks c d = true) (next : a.head? = some d) : b.head? = some d := by
  obtain ⟨⟨rest, -⟩, front⟩ := (sameSpacing_visible visible).mp same
  obtain ⟨a, rfl⟩ := List.head?_eq_some_iff.mp next
  rw [removeBlanks_visible shown] at rest front
  have tight : ¬ Gap b 0 := fun gap => not_gap_zero shown a ((front d rfl close).mpr gap)
  cases b with
  | nil => cases rest
  | cons e b =>
    cases blank : isBlank e with
    | true => exact absurd ((gap_blank blank).mpr (.inl rfl)) tight
    | false =>
      rw [removeBlanks_visible blank] at rest
      rw [(List.cons.inj rest).1]
      rfl

theorem SameSpacing.any_head? (visible : isBlank c = false)
    (same : SameSpacing sticks (c :: a) (c :: b)) {p : Char → Bool}
    (shown : ∀ d, p d = true → isBlank d = false) (close : ∀ d, p d = true → sticks c d = true) :
    a.head?.any p = b.head?.any p := by
  have step {a b : List Char} (same : SameSpacing sticks (c :: a) (c :: b))
      (first : a.head?.any p = true) : b.head?.any p = true := by
    cases next : a.head? with
    | none =>
      rw [next] at first
      cases first
    | some d =>
      rw [next] at first
      rw [same.next visible (shown d first) (close d first) next]
      exact first
  exact Bool.eq_iff_iff.mpr ⟨step same, step same.symm⟩

end

/-! ### Squashed texts -/

theorem squash_blank {c : Char} (blank : isBlank c = true) (cs : List Char) :
    squash (c :: cs) = squash cs := by
  rw [squash, words.eq_def]
  simp only [blank, if_true]
  rfl

theorem intercalate_extendFirst (c : Char) (ws : List (List Char)) :
    [' '].intercalate (extendFirst c ws) = c :: [' '].intercalate ws := by
  cases ws with
  | nil => rfl
  | cons w ws =>
    cases ws with
    | nil => rw [extendFirst, List.intercalate_singleton, List.intercalate_singleton]
    | cons v ws =>
      rw [extendFirst, List.intercalate_cons_cons, List.intercalate_cons_cons]
      rfl

theorem squash_visible {c d : Char} (first : isBlank c = false) (second : isBlank d = false)
    (cs : List Char) : squash (c :: d :: cs) = c :: squash (d :: cs) := by
  rw [squash, words, if_neg (by simp [first]), if_neg (by simp [second]), intercalate_extendFirst]
  rfl

/-- Behind a word the blanks are squashed to one space, or to none at the end of the text. -/
theorem squash_gap {c d : Char} (visible : isBlank c = false) (blank : isBlank d = true)
    (cs : List Char) :
    squash (c :: d :: cs) = [c] ∧ squash (d :: cs) = [] ∨
      squash (c :: d :: cs) = c :: ' ' :: squash (d :: cs) := by
  have whole : words (c :: d :: cs) = [c] :: words (d :: cs) := by
    rw [words, if_neg (by simp [visible]), if_pos blank]
  rw [squash, whole, squash]
  cases words (d :: cs) with
  | nil => exact .inl ⟨rfl, rfl⟩
  | cons w ws => exact .inr (List.intercalate_cons_cons ..)

theorem head?_squash {c : Char} (visible : isBlank c = false) (cs : List Char) :
    (squash (c :: cs)).head? = some c := by
  cases cs with
  | nil => simp [squash, words, visible]
  | cons d cs =>
    cases blank : isBlank d with
    | false => rw [squash_visible visible blank]; rfl
    | true =>
      rcases squash_gap visible blank cs with ⟨alone, -⟩ | spaced
      · rw [alone]; rfl
      · rw [spaced]; rfl

theorem sameSpacing_squash (sticks : Char → Char → Bool) (cs : List Char) :
    SameSpacing sticks (squash cs) cs := by
  induction cs with
  | nil => exact .refl []
  | cons c cs ih =>
    cases visible : isBlank c with
    | true =>
      rw [squash_blank visible]
      exact ((sameSpacing_blank visible).mpr ih.symm).symm
    | false =>
      cases cs with
      | nil =>
        have alone : squash [c] = [c] := by simp [squash, words, visible]
        rw [alone]
        exact .refl [c]
      | cons d cs =>
        cases blank : isBlank d with
        | false =>
          obtain ⟨rest, first⟩ := List.head?_eq_some_iff.mp (head?_squash blank cs)
          rw [squash_visible visible blank]
          refine (sameSpacing_visible visible).mpr ⟨ih, fun _ _ _ => ?_⟩
          rw [first]
          exact iff_of_false (not_gap_zero blank rest) (not_gap_zero blank cs)
        | true =>
          rcases squash_gap visible blank cs with ⟨alone, empty⟩ | spaced
          · rw [empty] at ih
            rw [alone]
            exact (sameSpacing_visible visible).mpr ⟨ih, fun _ first => by cases first⟩
          · rw [spaced]
            refine (sameSpacing_visible visible).mpr
              ⟨(sameSpacing_blank (by decide)).mpr ih, fun _ _ _ => ?_⟩
            exact iff_of_true ((gap_blank (by decide)).mpr (.inl rfl))
              ((gap_blank blank).mpr (.inl rfl))

end Forwarding.Text
