import Forwarding.Text.Utf8

/-!
Strict decoding accepts exactly the encodings: bytes are read as a text if and only if they are the
bytes of that text.
-/

namespace Forwarding.Text

/-! ### One character -/

theorem isContinuation_iff (b : UInt8) :
    isContinuation b = true ↔ 0x80 ≤ b.toNat ∧ b.toNat < 0xC0 := by
  simp only [isContinuation, Bool.and_eq_true, decide_eq_true_eq, UInt8.le_iff_toNat_le]
  show 128 ≤ b.toNat ∧ b.toNat ≤ 191 ↔ _
  omega

theorem isSecondByte_iff (b c : UInt8) :
    isSecondByte b c = true ↔ 0x80 ≤ c.toNat ∧ c.toNat < 0xC0 ∧
      (b.toNat = 0xE0 → 0xA0 ≤ c.toNat) ∧ (b.toNat = 0xED → c.toNat < 0xA0) ∧
      (b.toNat = 0xF0 → 0x90 ≤ c.toNat) ∧ (b.toNat = 0xF4 → c.toNat < 0x90) := by
  simp only [isSecondByte, beq_iff_eq, ← UInt8.toNat_inj, UInt8.reduceToNat]
  split
  · simp [UInt8.le_iff_toNat_le]; omega
  split
  · simp [UInt8.le_iff_toNat_le]; omega
  split
  · simp [UInt8.le_iff_toNat_le]; omega
  split
  · simp [UInt8.le_iff_toNat_le]; omega
  · rw [isContinuation_iff]; omega

/-- The ways to read a character: one byte, or a first byte with one, two or three more. -/
theorem readChar_eq_some_iff (b : UInt8) (bs : List UInt8) (c : Char) (rest : List UInt8) :
    readChar b bs = (some c, rest) ↔
      (b.toNat < 0x80 ∧ bs = rest ∧ Char.ofNat b.toNat = c) ∨
      (0xC2 ≤ b.toNat ∧ b.toNat < 0xE0 ∧ ∃ d, bs = d :: rest ∧ isContinuation d = true ∧
        Char.ofNat (b.toNat % 32 * 64 + payload d) = c) ∨
      (0xE0 ≤ b.toNat ∧ b.toNat < 0xF0 ∧ ∃ d e, bs = d :: e :: rest ∧ isSecondByte b d = true ∧
        isContinuation e = true ∧
        Char.ofNat ((b.toNat % 16 * 64 + payload d) * 64 + payload e) = c) ∨
      (0xF0 ≤ b.toNat ∧ b.toNat < 0xF5 ∧ ∃ d e g, bs = d :: e :: g :: rest ∧
        isSecondByte b d = true ∧ isContinuation e = true ∧ isContinuation g = true ∧
        Char.ofNat (((b.toNat % 8 * 64 + payload d) * 64 + payload e) * 64 + payload g) = c) := by
  have h80 : b < 0x80 ↔ b.toNat < 0x80 := UInt8.lt_iff_toNat_lt
  have hC2 : b < 0xC2 ↔ b.toNat < 0xC2 := UInt8.lt_iff_toNat_lt
  have hE0 : b < 0xE0 ↔ b.toNat < 0xE0 := UInt8.lt_iff_toNat_lt
  have hF0 : b < 0xF0 ↔ b.toNat < 0xF0 := UInt8.lt_iff_toNat_lt
  have hF4 : 0xF4 < b ↔ 0xF4 < b.toNat := UInt8.lt_iff_toNat_lt
  simp only [readChar, h80, hC2, hE0, hF0, hF4, Bool.or_eq_true, decide_eq_true_eq]
  by_cases one : b.toNat < 0x80
  · grind
  by_cases bad : b.toNat < 0xC2 ∨ 0xF4 < b.toNat
  · grind
  cases bs with
  | nil => simp [one, bad]
  | cons d ds =>
    by_cases two : b.toNat < 0xE0
    · simp only [one, bad, two, if_true, if_false]
      cases cont : isContinuation d <;> grind
    · simp only [one, bad, two, if_false]
      cases second : isSecondByte b d with
      | false => grind
      | true =>
        cases ds with
        | nil => simp
        | cons e es =>
          cases cont : isContinuation e with
          | false => grind
          | true =>
            by_cases four : b.toNat < 0xF0
            · simp only [four, if_true]
              grind
            · cases es with
              | nil => simp [four, cont]
              | cons g gs => cases last : isContinuation g <;> grind

theorem toNat_byte (n : Nat) (h : n < 256) : (UInt8.ofNat n).toNat = n :=
  UInt8.toNat_ofNat_of_lt' h

theorem valid_iff (c : Char) :
    c.toNat < 0xD800 ∨ 0xDFFF < c.toNat ∧ c.toNat < 0x110000 := c.valid

theorem ofNat_eq (c : Char) {n : Nat} (h : n = c.toNat) : Char.ofNat n = c := by
  rw [h, Char.ofNat_toNat]

/-- The encoding of a character is read as that character. -/
theorem readChar_utf8EncodeChar (c : Char) (rest : List UInt8) :
    ∃ b bs, String.utf8EncodeChar c = b :: bs ∧ readChar b (bs ++ rest) = (some c, rest) := by
  have valid := valid_iff c
  have same : c.val.toNat = c.toNat := rfl
  rw [String.utf8EncodeChar, same]
  split
  · rename_i one
    refine ⟨_, _, rfl, (readChar_eq_some_iff ..).mpr (.inl ?_)⟩
    rw [toNat_byte _ (by omega)]
    exact ⟨by omega, rfl, ofNat_eq c rfl⟩
  split
  · rename_i one two
    refine ⟨_, _, rfl, (readChar_eq_some_iff ..).mpr (.inr (.inl ?_))⟩
    rw [toNat_byte _ (by omega)]
    refine ⟨by omega, by omega, _, rfl, ?_, ofNat_eq c ?_⟩
    · rw [isContinuation_iff, toNat_byte _ (by omega)]; omega
    · rw [payload, toNat_byte _ (by omega)]; omega
  split
  · rename_i one two three
    refine ⟨_, _, rfl, (readChar_eq_some_iff ..).mpr (.inr (.inr (.inl ?_)))⟩
    rw [toNat_byte _ (by omega)]
    refine ⟨by omega, by omega, _, _, rfl, ?_, ?_, ofNat_eq c ?_⟩
    · rw [isSecondByte_iff, toNat_byte _ (by omega), toNat_byte _ (by omega)]; omega
    · rw [isContinuation_iff, toNat_byte _ (by omega)]; omega
    · rw [payload, payload, toNat_byte _ (by omega), toNat_byte _ (by omega)]; omega
  · rename_i one two three
    refine ⟨_, _, rfl, (readChar_eq_some_iff ..).mpr (.inr (.inr (.inr ?_)))⟩
    rw [toNat_byte _ (by omega)]
    refine ⟨by omega, by omega, _, _, _, rfl, ?_, ?_, ?_, ofNat_eq c ?_⟩
    · rw [isSecondByte_iff, toNat_byte _ (by omega), toNat_byte _ (by omega)]; omega
    · rw [isContinuation_iff, toNat_byte _ (by omega)]; omega
    · rw [isContinuation_iff, toNat_byte _ (by omega)]; omega
    · rw [payload, payload, payload, toNat_byte _ (by omega), toNat_byte _ (by omega),
        toNat_byte _ (by omega)]
      omega

theorem toNat_ofNat (n : Nat) (h : n < 0xD800 ∨ 0xDFFF < n ∧ n < 0x110000) :
    (Char.ofNat n).val.toNat = n := by
  have valid : n.isValidChar := h
  rw [Char.ofNat, dif_pos valid]
  rfl

theorem byte_eq {n : Nat} {b : UInt8} (h : n = b.toNat) : UInt8.ofNat n = b := by
  rw [h, UInt8.ofNat_toNat]

/-- What is read as a character is the encoding of that character. -/
theorem utf8EncodeChar_of_readChar {b : UInt8} {bs : List UInt8} {c : Char} {rest : List UInt8}
    (h : readChar b bs = (some c, rest)) : String.utf8EncodeChar c ++ rest = b :: bs := by
  rcases (readChar_eq_some_iff ..).mp h with ⟨one, rfl, rfl⟩ | ⟨low, high, d, rfl, hd, rfl⟩ |
    ⟨low, high, d, e, rfl, hd, he, rfl⟩ | ⟨low, high, d, e, g, rfl, hd, he, hg, rfl⟩
  · rw [String.utf8EncodeChar, toNat_ofNat _ (by omega), if_pos (by omega), byte_eq rfl]
    rfl
  · have := (isContinuation_iff d).mp hd
    have size : payload d = d.toNat % 64 := rfl
    rw [String.utf8EncodeChar, toNat_ofNat _ (by omega), if_neg (by omega), if_pos (by omega),
      @byte_eq _ b (by omega), @byte_eq _ d (by omega)]
    rfl
  · have := (isSecondByte_iff b d).mp hd
    have := (isContinuation_iff e).mp he
    have size : payload d = d.toNat % 64 := rfl
    have size' : payload e = e.toNat % 64 := rfl
    rw [String.utf8EncodeChar, toNat_ofNat _ (by omega), if_neg (by omega), if_neg (by omega),
      if_pos (by omega), @byte_eq _ b (by omega), @byte_eq _ d (by omega), @byte_eq _ e (by omega)]
    rfl
  · have := (isSecondByte_iff b d).mp hd
    have := (isContinuation_iff e).mp he
    have := (isContinuation_iff g).mp hg
    have size : payload d = d.toNat % 64 := rfl
    have size' : payload e = e.toNat % 64 := rfl
    have size'' : payload g = g.toNat % 64 := rfl
    rw [String.utf8EncodeChar, toNat_ofNat _ (by omega), if_neg (by omega), if_neg (by omega),
      if_neg (by omega), @byte_eq _ b (by omega), @byte_eq _ d (by omega), @byte_eq _ e (by omega),
      @byte_eq _ g (by omega)]
    rfl

/-! ### Texts -/

theorem mapM_id_eq_some {α : Type} (xs : List (Option α)) (ys : List α) :
    xs.mapM id = some ys ↔ xs = ys.map some := by
  induction xs generalizing ys with
  | nil => cases ys <;> simp
  | cons x xs ih =>
    cases x with
    | none => cases ys <;> simp
    | some x =>
      rw [List.mapM_cons]
      show ((xs.mapM id).bind fun zs => some (x :: zs)) = some ys ↔ _
      rw [Option.bind_eq_some_iff]
      constructor
      · rintro ⟨zs, hz, same⟩
        cases same
        rw [(ih zs).mp hz, List.map_cons]
      · intro same
        obtain ⟨y, zs, rfl, hy, hz⟩ := List.map_eq_cons_iff.mp same.symm
        exact ⟨zs, (ih zs).mpr hz.symm, by rw [Option.some.inj hy]⟩

theorem decodeSteps_cons {n : Nat} {b : UInt8} {bs : List UInt8} {c : Char} {rest : List UInt8}
    (read : readChar b bs = (some c, rest)) :
    decodeSteps (n + 1) (b :: bs) = some c :: decodeSteps n rest := by
  simp only [decodeSteps, read]

theorem decodeSteps_utf8 (cs : List Char) (n : Nat)
    (h : (cs.flatMap String.utf8EncodeChar).length ≤ n) :
    decodeSteps n (cs.flatMap String.utf8EncodeChar) = cs.map some := by
  induction cs generalizing n with
  | nil => cases n <;> rfl
  | cons c cs ih =>
    obtain ⟨b, bs, bytes, read⟩ := readChar_utf8EncodeChar c (cs.flatMap String.utf8EncodeChar)
    rw [List.flatMap_cons, bytes, List.cons_append] at h ⊢
    cases n with
    | zero => simp at h
    | succ n =>
      simp only [List.length_cons, List.length_append] at h
      rw [decodeSteps_cons read, List.map_cons, ih n (by omega)]

theorem utf8_of_decodeSteps (n : Nat) (bs : List UInt8) (cs : List Char) (h : bs.length ≤ n)
    (decoded : decodeSteps n bs = cs.map some) : cs.flatMap String.utf8EncodeChar = bs := by
  induction n generalizing bs cs with
  | zero =>
    obtain rfl := List.length_eq_zero_iff.mp (Nat.le_zero.mp h)
    cases cs with
    | nil => rfl
    | cons c cs => simp [decodeSteps] at decoded
  | succ n ih =>
    cases bs with
    | nil =>
      cases cs with
      | nil => rfl
      | cons c cs => simp [decodeSteps] at decoded
    | cons b bs =>
      cases cs with
      | nil => simp [decodeSteps] at decoded
      | cons c cs =>
        simp only [decodeSteps, List.map_cons, List.cons.injEq] at decoded
        have read : readChar b bs = (some c, (readChar b bs).2) := Prod.ext decoded.1 rfl
        have bytes := utf8EncodeChar_of_readChar read
        have shorter : (readChar b bs).2.length ≤ n := by
          obtain ⟨b', bs', first, _⟩ := readChar_utf8EncodeChar c []
          have length := congrArg List.length bytes
          simp only [first, List.length_cons, List.length_append] at length h
          omega
        rw [List.flatMap_cons, ih _ cs shorter decoded.2, bytes]

/-- **Bytes are read as a text exactly if they are its encoding.** -/
theorem ofUtf8?_eq_some_iff (bs : List UInt8) (s : String) : ofUtf8? bs = some s ↔ utf8 s = bs := by
  rw [ofUtf8?, Option.map_eq_some_iff, utf8]
  constructor
  · rintro ⟨cs, read, rfl⟩
    rw [String.toList_ofList]
    exact utf8_of_decodeSteps _ bs cs (Nat.le_refl _) ((mapM_id_eq_some _ _).mp read)
  · rintro rfl
    exact ⟨s.toList, (mapM_id_eq_some _ _).mpr (decodeSteps_utf8 _ _ (Nat.le_refl _)),
      String.ofList_toList⟩

end Forwarding.Text
