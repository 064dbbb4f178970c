import Forwarding.Json.Reader

/-!
A JSON value is read back from its layout. The reader takes each text, number, list and record up to
its end and leaves what follows, so the parts of a value are read one after another; the values are
those of the layout, whatever their depth and whatever the texts in them hold.
-/

namespace Forwarding.Json

/-! ### Texts -/

theorem hexValue?_hexDigit {n : Nat} (h : n < 16) : hexValue? (hexDigit n) = some n := by
  have all : ∀ k : Fin 16, hexValue? (hexDigit k) = some k.val := by decide
  exact all ⟨n, h⟩

/-- Two digits are enough for a control character. -/
theorem hexChar?_control {c : Char} (h : c.toNat < 32) :
    hexChar? '0' '0' (hexDigit (c.toNat / 16)) (hexDigit (c.toNat % 16)) = some c := by
  have zero : hexValue? '0' = some 0 := rfl
  have value : ((0 * 16 + 0) * 16 + c.toNat / 16) * 16 + c.toNat % 16 = c.toNat := by omega
  have valid : c.toNat.isValidChar := c.valid
  unfold hexChar?
  rw [zero, hexValue?_hexDigit (by omega), hexValue?_hexDigit (by omega)]
  simp only [value]
  rw [if_pos valid, Char.ofNat_toNat]

/-- A character that stands for itself is read as itself. -/
theorem readText_plain {c : Char} (quote : c ≠ '"') (backslash : c ≠ '\\') (high : 32 ≤ c.toNat)
    (cs : List Char) :
    readText (c :: cs) = (readText cs).map fun (text, rest) => (c :: text, rest) := by
  have printed : (decide (c.toNat < 32) || c == '\\') = false := by
    simp [backslash]
    omega
  rw [readText]
  · rw [printed]
    cases readText cs <;> rfl
  · exact quote
  · intro _ _ _ _ _ same
    exact absurd same backslash
  · intro _ _ same
    exact absurd same backslash

/-- A backslash with one character behind it. -/
theorem readText_short {d x : Char} (other : d ≠ 'u') (stands : unescape? d = some x)
    (cs : List Char) :
    readText ('\\' :: d :: cs) = (readText cs).map fun (text, rest) => (x :: text, rest) := by
  rw [readText]
  · rw [stands]
    cases readText cs <;> rfl
  · intro _ _ _ _ _ same
    exact absurd same other

theorem readText_hex {a b c d x : Char} (stands : hexChar? a b c d = some x) (cs : List Char) :
    readText ('\\' :: 'u' :: a :: b :: c :: d :: cs) =
      (readText cs).map fun (text, rest) => (x :: text, rest) := by
  rw [readText, stands]
  cases readText cs <;> rfl

/-- The short escapes stand for the characters with these numbers. -/
theorem unescape?_of_toNat {c d : Char} {n : Nat} (same : (c.toNat == n) = true)
    (stands : unescape? d = some (Char.ofNat n)) : unescape? d = some c := by
  rw [stands, ← eq_of_beq same, Char.ofNat_toNat]

/-- **Each character is read from what stands for it.** -/
theorem readText_escape (c : Char) (cs : List Char) :
    readText (escape c ++ cs) = (readText cs).map fun (text, rest) => (c :: text, rest) := by
  unfold escape
  split
  · rename_i quote
    rw [eq_of_beq quote]
    exact readText_short (by decide) rfl cs
  rename_i quote
  split
  · rename_i backslash
    rw [eq_of_beq backslash]
    exact readText_short (by decide) rfl cs
  rename_i backslash
  split
  · rename_i same
    exact readText_short (by decide) (unescape?_of_toNat same rfl) cs
  split
  · rename_i same
    exact readText_short (by decide) (unescape?_of_toNat same rfl) cs
  split
  · rename_i same
    exact readText_short (by decide) (unescape?_of_toNat same rfl) cs
  split
  · rename_i same
    exact readText_short (by decide) (unescape?_of_toNat same rfl) cs
  split
  · rename_i same
    exact readText_short (by decide) (unescape?_of_toNat same rfl) cs
  split
  · rename_i control
    exact readText_hex (hexChar?_control control) cs
  · rename_i printed
    exact readText_plain (by simpa using quote) (by simpa using backslash) (by omega) cs

theorem readText_escapes (text rest : List Char) :
    readText (text.flatMap escape ++ '"' :: rest) = some (text, rest) := by
  induction text with
  | nil => rfl
  | cons c text ih =>
    rw [List.flatMap_cons, List.append_assoc, readText_escape, ih]
    rfl

/-! ### Numbers -/

/-- Nothing that could go on with a number. -/
def EndsNumber (rest : List Char) : Prop :=
  ∀ c ∈ rest.head?, c.isDigit = false

theorem toDigits_head {n : Nat} (positive : 0 < n) : (Nat.toDigits 10 n).head? ≠ some '0' := by
  induction n using Nat.strongRecOn with
  | ind n ih =>
    rw [Nat.toDigits_eq_if (by decide)]
    split
    · intro zero
      have digit : Nat.digitChar n = '0' := by simpa using zero
      rw [Nat.digitChar_eq_zero] at digit
      omega
    · rename_i large
      have front := ih (n / 10) (by omega) (by omega)
      intro zero
      apply front
      obtain ⟨c, cs, digits⟩ := List.exists_cons_of_ne_nil (@Nat.toDigits_ne_nil (n / 10) 10)
      rw [digits] at zero ⊢
      exact zero

theorem digitsValue_toDigits (n : Nat) : digitsValue (Nat.toDigits 10 n) = n := by
  have value := @Nat.ofDigitChars_ten_toDigits n
  rw [Nat.ofDigitChars_eq_foldl] at value
  unfold digitsValue
  simpa only [Nat.mul_comm] using value

theorem readNumber?_toDigits (n : Nat) {rest : List Char} (ended : EndsNumber rest) :
    readNumber? (Nat.toDigits 10 n ++ rest) = some (n, rest) := by
  have digits : ∀ c ∈ Nat.toDigits 10 n, c.isDigit = true := fun c hc =>
    Nat.isDigit_of_mem_toDigits (by decide) (by decide) hc
  have stop : rest.takeWhile Char.isDigit = [] ∧ rest.dropWhile Char.isDigit = rest := by
    cases rest with
    | nil => exact ⟨rfl, rfl⟩
    | cons c rest =>
      have other := ended c rfl
      simp [other]
  have taken : (Nat.toDigits 10 n ++ rest).takeWhile Char.isDigit = Nat.toDigits 10 n := by
    rw [List.takeWhile_append_of_pos digits, stop.1, List.append_nil]
  have dropped : (Nat.toDigits 10 n ++ rest).dropWhile Char.isDigit = rest := by
    rw [List.dropWhile_append_of_pos digits, stop.2]
  unfold readNumber?
  rw [taken, dropped]
  by_cases zero : n = 0
  · subst zero
    rfl
  · have front := toDigits_head (Nat.pos_of_ne_zero zero)
    have value := digitsValue_toDigits n
    obtain ⟨c, cs, number⟩ := List.exists_cons_of_ne_nil (@Nat.toDigits_ne_nil n 10)
    rw [number] at front value ⊢
    have nonzero : c ≠ '0' := fun same => front (by rw [same]; rfl)
    split
    · contradiction
    · rename_i same
      exact absurd (List.cons.inj same).1 nonzero
    · rename_i same
      exact absurd (List.cons.inj same).1 nonzero
    · rw [value]

/-! ### Blanks -/

theorem skipBlanks_cons {c : Char} (h : isBlank c = false) (cs : List Char) :
    skipBlanks (c :: cs) = c :: cs := by
  simp [skipBlanks, h]

theorem skipBlanks_lineBreak (depth : Nat) (cs : List Char) :
    skipBlanks (lineBreak depth ++ cs) = skipBlanks cs := by
  unfold skipBlanks lineBreak
  rw [List.dropWhile_append_of_pos]
  intro c hc
  rcases List.mem_cons.mp hc with rfl | space
  · rfl
  · rw [List.eq_of_mem_replicate space]
    rfl

/-- Blanks in front of a value do not matter. -/
theorem readValue_congr {cs ds : List Char} (same : skipBlanks cs = skipBlanks ds) (n : Nat) :
    readValue n cs = readValue n ds := by
  cases n with
  | zero => rfl
  | succ n => rw [readValue, readValue, same]

/-! ### Values -/

/-- What holds of numbers and texts, and of lists and records whose parts have it, holds of all
values. -/
theorem valueInduction {P : Value → Prop} (number : ∀ n, P (.number n)) (text : ∀ s, P (.text s))
    (list : ∀ vs, (∀ v ∈ vs, P v) → P (.list vs))
    (record : ∀ fs, (∀ f ∈ fs, P f.2) → P (.record fs)) : ∀ v, P v
  | .number n => number n
  | .text s => text s
  | .list vs => list vs fun v _ => valueInduction number text list record v
  | .record fs => record fs fun (k, v) hf =>
    have smaller : sizeOf v < sizeOf fs := by
      have whole := List.sizeOf_lt_of_mem hf
      simp only [Prod.mk.sizeOf_spec] at whole
      omega
    valueInduction number text list record v

/-- The value is read from its layout, whatever follows. Each character of the layout pays for at
most one step down. -/
def ReadsBack (v : Value) : Prop :=
  ∀ (depth n : Nat) (rest : List Char), (layout depth v).length ≤ n → EndsNumber rest →
    readValue n (layout depth v ++ rest) = some (v, rest)

/-- A digit neither is a blank nor opens or closes anything. -/
theorem ne_of_isDigit {c : Char} (digit : c.isDigit = true) :
    isBlank c = false ∧ c ≠ '"' ∧ c ≠ '[' ∧ c ≠ '{' ∧ c ≠ ']' ∧ c ≠ '}' := by
  have other {d : Char} (h : d.isDigit = false) : c ≠ d := by
    rintro rfl
    rw [digit] at h
    cases h
  refine ⟨?_, other rfl, other rfl, other rfl, other rfl, other rfl⟩
  have space : c ≠ ' ' := other rfl
  have newline : c ≠ '\n' := other rfl
  have carriage : c ≠ '\r' := other rfl
  have tab : c ≠ '\t' := other rfl
  simp [isBlank, space, newline, carriage, tab]

theorem exists_toDigits (k : Nat) :
    ∃ c cs, Nat.toDigits 10 k = c :: cs ∧ c.isDigit = true := by
  obtain ⟨c, cs, digits⟩ := List.exists_cons_of_ne_nil (@Nat.toDigits_ne_nil k 10)
  have mem : c ∈ Nat.toDigits 10 k := by
    rw [digits]
    exact List.mem_cons_self
  exact ⟨c, cs, digits, Nat.isDigit_of_mem_toDigits (by decide) (by decide) mem⟩

/-- A value starts with a character that is no blank and closes nothing. -/
theorem layout_start (depth : Nat) (v : Value) :
    ∃ c cs, layout depth v = c :: cs ∧ isBlank c = false ∧ c ≠ ']' ∧ c ≠ '}' := by
  cases v with
  | number k =>
    obtain ⟨c, cs, digits, digit⟩ := exists_toDigits k
    obtain ⟨blank, _, _, _, bracket, brace⟩ := ne_of_isDigit digit
    exact ⟨c, cs, by rw [layout, digits], blank, bracket, brace⟩
  | text s => exact ⟨'"', _, by rw [layout, quoted]; rfl, rfl, by decide, by decide⟩
  | list vs =>
    have start : ∃ cs, layout depth (.list vs) = '[' :: cs := by
      cases vs with
      | nil => exact ⟨_, by rw [layout]⟩
      | cons v vs => exact ⟨_, by rw [layout]; rfl⟩
    obtain ⟨cs, shape⟩ := start
    exact ⟨'[', cs, shape, rfl, by decide, by decide⟩
  | record fs =>
    have start : ∃ cs, layout depth (.record fs) = '{' :: cs := by
      cases fs with
      | nil => exact ⟨_, by rw [layout]⟩
      | cons f fs => exact ⟨_, by rw [layout]; rfl⟩
    obtain ⟨cs, shape⟩ := start
    exact ⟨'{', cs, shape, rfl, by decide, by decide⟩

theorem readsBack_number (k : Nat) : ReadsBack (.number k) := by
  intro depth n rest fuel ended
  have read := readNumber?_toDigits k ended
  obtain ⟨c, cs, digits, digit⟩ := exists_toDigits k
  obtain ⟨blank, quote, bracket, brace, _⟩ := ne_of_isDigit digit
  rw [layout, digits] at fuel ⊢
  rw [digits, List.cons_append] at read
  cases n with
  | zero => simp at fuel
  | succ n =>
    rw [List.cons_append, readValue, skipBlanks_cons blank]
    split
    · rename_i same
      exact absurd (List.cons.inj same).1 quote
    · rename_i same
      exact absurd (List.cons.inj same).1 bracket
    · rename_i same
      exact absurd (List.cons.inj same).1 brace
    · rw [read]
      rfl

theorem readsBack_text (s : String) : ReadsBack (.text s) := by
  intro depth n rest fuel ended
  rw [layout] at fuel ⊢
  cases n with
  | zero => simp [quoted] at fuel
  | succ n =>
    have shape : quoted s ++ rest = '"' :: (s.toList.flatMap escape ++ '"' :: rest) := by
      simp [quoted]
    rw [shape, readValue, skipBlanks_cons (by decide)]
    simp only [readText_escapes, Option.map_some, String.ofList_toList]

/-! ### Lists -/

theorem endsNumber_items (depth outer : Nat) (vs : List Value) (rest : List Char) :
    EndsNumber (layoutItems depth vs ++ (lineBreak outer ++ rest)) := by
  intro c hc
  cases vs with
  | nil =>
    rw [layoutItems, lineBreak] at hc
    cases hc
    rfl
  | cons v vs =>
    rw [layoutItems] at hc
    cases hc
    rfl

/-- The items of a list are read one after another. -/
theorem readItems_layout {v : Value} {vs : List Value} (all : ∀ w ∈ v :: vs, ReadsBack w)
    (depth outer n : Nat) (rest : List Char)
    (fuel : (layout depth v).length + (layoutItems depth vs).length < n) :
    readItems n (lineBreak depth ++ (layout depth v ++
      (layoutItems depth vs ++ (lineBreak outer ++ ']' :: rest)))) = some (v :: vs, rest) := by
  induction vs generalizing v n with
  | nil =>
    obtain ⟨first, _⟩ := List.forall_mem_cons.mp all
    cases n with
    | zero => omega
    | succ n =>
      have read := first depth n _ (by omega) (endsNumber_items depth outer [] (']' :: rest))
      rw [readItems, readValue_congr (skipBlanks_lineBreak ..), read]
      simp only [layoutItems, List.nil_append, skipBlanks_lineBreak,
        skipBlanks_cons (show isBlank ']' = false from rfl)]
  | cons w ws ih =>
    obtain ⟨first, later⟩ := List.forall_mem_cons.mp all
    have shape : layoutItems depth (w :: ws) =
        ',' :: (lineBreak depth ++ (layout depth w ++ layoutItems depth ws)) := by
      simp [layoutItems]
    have shorter : (layout depth w).length + (layoutItems depth ws).length + 1 <
        (layoutItems depth (w :: ws)).length := by
      simp only [shape, lineBreak, List.length_cons, List.length_append]
      omega
    cases n with
    | zero => omega
    | succ n =>
      have read := first depth n _ (by omega) (endsNumber_items depth outer (w :: ws) (']' :: rest))
      have others := ih later n (by omega)
      rw [readItems, readValue_congr (skipBlanks_lineBreak ..), read]
      simp only [shape, List.cons_append, List.append_assoc,
        skipBlanks_cons (show isBlank ',' = false from rfl), others, Option.map_some]

theorem readsBack_list {vs : List Value} (all : ∀ v ∈ vs, ReadsBack v) : ReadsBack (.list vs) := by
  intro depth n rest fuel ended
  cases n with
  | zero =>
    obtain ⟨c, cs, shape, _⟩ := layout_start depth (.list vs)
    rw [shape] at fuel
    simp at fuel
  | succ n =>
    cases vs with
    | nil =>
      rw [layout, List.cons_append, readValue, skipBlanks_cons rfl]
      rfl
    | cons v vs =>
      have shape : layout depth (.list (v :: vs)) ++ rest = '[' :: (lineBreak (depth + 1) ++
          (layout (depth + 1) v ++ (layoutItems (depth + 1) vs ++
            (lineBreak depth ++ ']' :: rest)))) := by
        simp [layout]
      have items := readItems_layout all (depth + 1) depth n rest (by
        simp only [layout, List.length_cons, List.length_append] at fuel
        omega)
      obtain ⟨c, cs, start, blank, bracket, _⟩ := layout_start (depth + 1) v
      rw [shape, readValue, skipBlanks_cons rfl]
      simp only [items, Option.map_some, skipBlanks_lineBreak]
      rw [start, List.cons_append, skipBlanks_cons blank]
      split
      · rename_i same
        exact absurd (List.cons.inj same).1 bracket
      · rfl

/-! ### Records -/

theorem endsNumber_fields (depth outer : Nat) (fs : List (String × Value)) (rest : List Char) :
    EndsNumber (layoutFields depth fs ++ (lineBreak outer ++ rest)) := by
  intro c hc
  cases fs with
  | nil =>
    rw [layoutFields, lineBreak] at hc
    cases hc
    rfl
  | cons f fs =>
    rw [layoutFields] at hc
    cases hc
    rfl

theorem skipBlanks_key (depth : Nat) (k : String) (behind : List Char) :
    skipBlanks (lineBreak depth ++ (quoted k ++ behind)) =
      '"' :: (k.toList.flatMap escape ++ '"' :: behind) := by
  have shape : quoted k ++ behind = '"' :: (k.toList.flatMap escape ++ '"' :: behind) := by
    simp [quoted]
  rw [skipBlanks_lineBreak, shape, skipBlanks_cons rfl]

theorem skipBlanks_space (cs : List Char) : skipBlanks (' ' :: cs) = skipBlanks cs := rfl

/-- The fields of a record are read one after another. -/
theorem readFields_layout {k : String} {v : Value} {fs : List (String × Value)}
    (first : ReadsBack v) (later : ∀ f ∈ fs, ReadsBack f.2) (depth outer n : Nat)
    (rest : List Char) (fuel : (layout depth v).length + (layoutFields depth fs).length < n) :
    readFields n (lineBreak depth ++ (quoted k ++ (':' :: ' ' :: (layout depth v ++
      (layoutFields depth fs ++ (lineBreak outer ++ '}' :: rest)))))) =
        some ((k, v) :: fs, rest) := by
  induction fs generalizing k v n with
  | nil =>
    cases n with
    | zero => omega
    | succ n =>
      have read := first depth n _ (by omega) (endsNumber_fields depth outer [] ('}' :: rest))
      rw [readFields, skipBlanks_key]
      simp only [readText_escapes, skipBlanks_cons (show isBlank ':' = false from rfl),
        readValue_congr (skipBlanks_space _), read]
      simp only [layoutFields, List.nil_append, skipBlanks_lineBreak,
        skipBlanks_cons (show isBlank '}' = false from rfl), String.ofList_toList]
  | cons g gs ih =>
    obtain ⟨l, w⟩ := g
    obtain ⟨second, others⟩ := List.forall_mem_cons.mp later
    have shape : layoutFields depth ((l, w) :: gs) = ',' :: (lineBreak depth ++ (quoted l ++
        (':' :: ' ' :: (layout depth w ++ layoutFields depth gs)))) := by
      simp [layoutFields]
    have shorter : (layout depth w).length + (layoutFields depth gs).length + 1 <
        (layoutFields depth ((l, w) :: gs)).length := by
      simp only [shape, lineBreak, List.length_cons, List.length_append]
      omega
    cases n with
    | zero => omega
    | succ n =>
      have read := first depth n _ (by omega)
        (endsNumber_fields depth outer ((l, w) :: gs) ('}' :: rest))
      have behind := @ih l w second others n (by omega)
      rw [readFields, skipBlanks_key]
      simp only [readText_escapes, skipBlanks_cons (show isBlank ':' = false from rfl),
        readValue_congr (skipBlanks_space _), read]
      simp only [shape, List.cons_append, List.append_assoc,
        skipBlanks_cons (show isBlank ',' = false from rfl), behind, Option.map_some,
        String.ofList_toList]

theorem readsBack_record {fs : List (String × Value)} (all : ∀ f ∈ fs, ReadsBack f.2) :
    ReadsBack (.record fs) := by
  intro depth n rest fuel ended
  cases n with
  | zero =>
    obtain ⟨c, cs, shape, _⟩ := layout_start depth (.record fs)
    rw [shape] at fuel
    simp at fuel
  | succ n =>
    cases fs with
    | nil =>
      rw [layout, List.cons_append, readValue, skipBlanks_cons rfl]
      rfl
    | cons f fs =>
      obtain ⟨k, v⟩ := f
      obtain ⟨first, later⟩ := List.forall_mem_cons.mp all
      have shape : layout depth (.record ((k, v) :: fs)) ++ rest = '{' :: (lineBreak (depth + 1) ++
          (quoted k ++ (':' :: ' ' :: (layout (depth + 1) v ++ (layoutFields (depth + 1) fs ++
            (lineBreak depth ++ '}' :: rest)))))) := by
        simp [layout]
      have fields := @readFields_layout k v fs first later (depth + 1) depth n rest (by
        simp only [layout, List.length_cons, List.length_append] at fuel
        omega)
      rw [shape, readValue, skipBlanks_cons rfl]
      simp only [fields, Option.map_some, skipBlanks_key]
      rfl

/-- **Every value is read from its layout**, at any depth and whatever follows. -/
theorem readsBack (v : Value) : ReadsBack v := by
  induction v using valueInduction with
  | number k => exact readsBack_number k
  | text s => exact readsBack_text s
  | list vs ih => exact readsBack_list ih
  | record fs ih => exact readsBack_record ih

/-- **A value is read back from its text.** -/
theorem ofString?_pretty (v : Value) : Value.ofString? v.pretty = some v := by
  have ended : EndsNumber [] := by
    intro c hc
    cases hc
  have read := readsBack v 0 (2 * (layout 0 v).length + 1) [] (by omega) ended
  rw [List.append_nil] at read
  unfold Value.ofString? Value.pretty
  rw [String.toList_ofList, read]
  rfl

end Forwarding.Json
