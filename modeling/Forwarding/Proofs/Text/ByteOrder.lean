import Forwarding.Proofs.Text.Utf8

/-!
The order of texts is the order of their bytes. A character with a larger number has an encoding that
is larger at the first byte where the two differ, so the first character in which two texts differ
decides for their bytes as well.
-/

namespace Forwarding.Text

/-- The bytes of `a` come before those of `b`: they have the smaller byte where they first differ, or
they end there. -/
def BytesBefore (a b : List UInt8) : Prop :=
  List.Lex (fun x y => x.toNat < y.toNat) a b

theorem BytesBefore.asymm {a b : List UInt8} (h : BytesBefore a b) : ¬BytesBefore b a :=
  List.lex_asymm (fun lt => Nat.lt_asymm lt) h

section

variable {xs ys : List UInt8}

theorem bytesBefore_append (zs : List UInt8) (h : BytesBefore xs ys) :
    BytesBefore (zs ++ xs) (zs ++ ys) := by
  induction zs with
  | nil => exact h
  | cons z zs ih => exact .cons ih

/-- The first bytes decide, unless they are the same. -/
theorem bytesBefore_cons {a b : Nat} (ha : a < 256) (hb : b < 256)
    (h : a < b ∨ a = b ∧ BytesBefore xs ys) :
    BytesBefore (UInt8.ofNat a :: xs) (UInt8.ofNat b :: ys) := by
  rcases h with lt | ⟨rfl, rest⟩
  · apply List.Lex.rel
    rw [toNat_byte a ha, toNat_byte b hb]
    exact lt
  · exact .cons rest

variable {v w : Nat}

theorem bytesBefore_last (h : v % 64 < w % 64) :
    BytesBefore (UInt8.ofNat (v % 64 + 128) :: xs) (UInt8.ofNat (w % 64 + 128) :: ys) :=
  bytesBefore_cons (by omega) (by omega) (.inl (by omega))

theorem bytesBefore_lastTwo (h : v % 4096 < w % 4096) :
    BytesBefore (UInt8.ofNat (v / 64 % 64 + 128) :: UInt8.ofNat (v % 64 + 128) :: xs)
      (UInt8.ofNat (w / 64 % 64 + 128) :: UInt8.ofNat (w % 64 + 128) :: ys) := by
  apply bytesBefore_cons (by omega) (by omega)
  by_cases same : v / 64 % 64 = w / 64 % 64
  · exact .inr ⟨by omega, bytesBefore_last (by omega)⟩
  · exact .inl (by omega)

theorem bytesBefore_lastThree (h : v % 262144 < w % 262144) :
    BytesBefore
      (UInt8.ofNat (v / 4096 % 64 + 128) :: UInt8.ofNat (v / 64 % 64 + 128) ::
        UInt8.ofNat (v % 64 + 128) :: xs)
      (UInt8.ofNat (w / 4096 % 64 + 128) :: UInt8.ofNat (w / 64 % 64 + 128) ::
        UInt8.ofNat (w % 64 + 128) :: ys) := by
  apply bytesBefore_cons (by omega) (by omega)
  by_cases same : v / 4096 % 64 = w / 4096 % 64
  · exact .inr ⟨by omega, bytesBefore_lastTwo (by omega)⟩
  · exact .inl (by omega)

/-- **The character with the smaller number has the smaller bytes**, whatever follows. -/
theorem bytesBefore_utf8EncodeChar {c d : Char} (h : c < d) :
    BytesBefore (String.utf8EncodeChar c ++ xs) (String.utf8EncodeChar d ++ ys) := by
  have lt : c.val.toNat < d.val.toNat := h
  have valid : d.val.toNat < 0x110000 := by
    rcases valid_iff d with low | ⟨_, high⟩
    · exact Nat.lt_trans low (by decide)
    · exact high
  unfold String.utf8EncodeChar
  generalize c.val.toNat = v at lt
  generalize d.val.toNat = w at lt valid
  -- Of encodings with different lengths the shorter one has the smaller first byte.
  dsimp only
  split
  · split
    · exact bytesBefore_cons (by omega) (by omega) (.inl (by omega))
    split
    · exact bytesBefore_cons (by omega) (by omega) (.inl (by omega))
    split
    · exact bytesBefore_cons (by omega) (by omega) (.inl (by omega))
    · exact bytesBefore_cons (by omega) (by omega) (.inl (by omega))
  split
  · rw [if_neg (by omega)]
    split
    · apply bytesBefore_cons (by omega) (by omega)
      by_cases same : v / 64 % 32 = w / 64 % 32
      · exact .inr ⟨by omega, bytesBefore_last (by omega)⟩
      · exact .inl (by omega)
    split
    · exact bytesBefore_cons (by omega) (by omega) (.inl (by omega))
    · exact bytesBefore_cons (by omega) (by omega) (.inl (by omega))
  split
  · rw [if_neg (by omega), if_neg (by omega)]
    split
    · apply bytesBefore_cons (by omega) (by omega)
      by_cases same : v / 4096 % 16 = w / 4096 % 16
      · exact .inr ⟨by omega, bytesBefore_lastTwo (by omega)⟩
      · exact .inl (by omega)
    · exact bytesBefore_cons (by omega) (by omega) (.inl (by omega))
  · rw [if_neg (by omega), if_neg (by omega), if_neg (by omega)]
    apply bytesBefore_cons (by omega) (by omega)
    by_cases same : v / 262144 % 8 = w / 262144 % 8
    · exact .inr ⟨by omega, bytesBefore_lastThree (by omega)⟩
    · exact .inl (by omega)

end

theorem bytesBefore_of_lt {a b : String} (h : a < b) : BytesBefore (utf8 a) (utf8 b) := by
  have lex : List.Lex (fun x y : Char => x < y) a.toList b.toList := h
  unfold utf8
  generalize a.toList = cs at lex
  generalize b.toList = ds at lex
  induction lex with
  | @nil d ds =>
    obtain ⟨x, xs, bytes, _⟩ := readChar_utf8EncodeChar d []
    rw [List.flatMap_nil, List.flatMap_cons, bytes]
    exact .nil
  | rel lt =>
    rw [List.flatMap_cons, List.flatMap_cons]
    exact bytesBefore_utf8EncodeChar lt
  | cons _ ih =>
    rw [List.flatMap_cons, List.flatMap_cons]
    exact bytesBefore_append _ ih

/-- **Texts are ordered as their bytes are.** -/
theorem le_iff_not_bytesBefore (a b : String) : a ≤ b ↔ ¬BytesBefore (utf8 b) (utf8 a) := by
  constructor
  · intro le before
    by_cases same : a = b
    · rw [same] at before
      exact before.asymm before
    · have lt : a < b := by
        rw [← String.not_le]
        intro ge
        exact same (String.le_antisymm le ge)
      exact before.asymm (bytesBefore_of_lt lt)
  · intro before
    rw [← String.not_lt]
    intro lt
    exact before (bytesBefore_of_lt lt)

end Forwarding.Text
