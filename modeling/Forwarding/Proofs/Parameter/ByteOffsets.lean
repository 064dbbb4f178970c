import Forwarding.Proofs.Parameter.Parts
import Forwarding.Text.Utf8

/-!
Reading a parameter by byte offsets. `readAt` finds every part of the text as an offset in bytes,
cuts there only if the offset is no place inside a character, and counts open brackets in 32 bits.
It reads what `Parameter.ofText` reads, and the one thing that can go wrong in it is a wide
character in front of the name (`readAt_eq_ofText`).
-/

namespace Forwarding.ByteOffsets

open Text (Blank isNameChar trim trimStart)
open ParameterText (afterBracket beforeDefault bracketValue Stripped)

/-! ### Cutting at an offset -/

/-- The number of bytes of a text. -/
def byteLength : List Char → Nat
  | [] => 0
  | c :: cs => c.utf8Size + byteLength cs

theorem byteLength_append (a b : List Char) :
    byteLength (a ++ b) = byteLength a + byteLength b := by
  induction a with
  | nil => exact (Nat.zero_add _).symm
  | cons c a ih => simp only [List.cons_append, byteLength, ih, Nat.add_assoc]

theorem length_utf8 (s : String) : (Text.utf8 s).length = byteLength s.toList := by
  unfold Text.utf8
  induction s.toList with
  | nil => rfl
  | cons c cs ih =>
    rw [List.flatMap_cons, List.length_append, String.length_utf8EncodeChar, ih, byteLength]

/-- A text cut at an offset; there is no answer inside a character or behind the end. -/
def cutAt : Nat → List Char → Option (List Char × List Char)
  | 0, cs => some ([], cs)
  | _ + 1, [] => none
  | n + 1, c :: cs =>
    if c.utf8Size ≤ n + 1 then
      (cutAt (n + 1 - c.utf8Size) cs).map fun (a, b) => (c :: a, b)
    else none

theorem cutAt_append (front cs : List Char) (n : Nat) :
    cutAt (byteLength front + n) (front ++ cs) =
      (cutAt n cs).map fun (a, b) => (front ++ a, b) := by
  induction front with
  | nil => simp [byteLength]
  | cons c front ih =>
    have positive : 0 < c.utf8Size := c.utf8Size_pos
    obtain ⟨m, size⟩ : ∃ m, byteLength (c :: front) + n = m + 1 := by
      refine ⟨byteLength (c :: front) + n - 1, ?_⟩
      simp only [byteLength]
      omega
    have rest : m + 1 - c.utf8Size = byteLength front + n := by
      simp only [byteLength] at size
      omega
    have fits : c.utf8Size ≤ m + 1 := by
      simp only [byteLength] at size
      omega
    rw [size, List.cons_append, cutAt, if_pos fits, rest, ih, Option.map_map]
    rfl

theorem cutAt_boundary (front cs : List Char) :
    cutAt (byteLength front) (front ++ cs) = some (front, cs) := by
  have cut := cutAt_append front cs 0
  rw [Nat.add_zero, cutAt, Option.map_some] at cut
  simpa using cut

theorem cutAt_inside {c : Char} (wide : 1 < c.utf8Size) (front cs : List Char) :
    cutAt (byteLength front + 1) (front ++ c :: cs) = none := by
  rw [cutAt_append, cutAt, if_neg (by omega), Option.map_none]

/-! ### The reader -/

/-- The four places where a text is cut. -/
inductive Cut where
  | attribute
  | default
  | name
  | type
  deriving DecidableEq, Repr

/-- What can go wrong. -/
inductive Fault where
  /-- The text is to be cut inside a character or behind its end. -/
  | offBoundary (cut : Cut)
  /-- The number of open brackets does not fit in 32 bits. -/
  | overflow
  deriving DecidableEq, Repr

/-- What stands in front of an offset. -/
def sliceTo (cut : Cut) (n : Nat) (cs : List Char) : Except Fault (List Char) :=
  match cutAt n cs with
  | none => .error (.offBoundary cut)
  | some (front, _) => .ok front

/-- What stands behind an offset. -/
def sliceFrom (cut : Cut) (n : Nat) (cs : List Char) : Except Fault (List Char) :=
  match cutAt n cs with
  | none => .error (.offBoundary cut)
  | some (_, back) => .ok back

/-- The offset of the bracket that closes the first one, `depth` being open so far and `i` bytes
passed. -/
def closingOffset : Nat → Nat → List Char → Option Nat
  | _, _, [] => none
  | depth, i, c :: cs =>
    if c == '[' then closingOffset (depth + 1) (i + c.utf8Size) cs
    else if c == ']' then
      match depth with
      | 0 => none
      | 1 => some i
      | d + 2 => closingOffset (d + 1) (i + c.utf8Size) cs
    else closingOffset depth (i + c.utf8Size) cs

/-- Drops the attributes in front of a text, at most `n` of them. -/
def dropAttributesAt : Nat → List Char → Except Fault (Option (List Char))
  | 0, cs => .ok (some cs)
  | n + 1, cs =>
    if cs.head? = some '[' then
      match closingOffset 0 0 cs with
      | none => .ok none
      | some close => do
        let rest ← sliceFrom .attribute (close + 1) cs
        dropAttributesAt n (trimStart rest)
    else .ok (some cs)

/-- A counter of 32 bits. -/
def counted (depth : Int) : Except Fault Int :=
  if -0x80000000 ≤ depth ∧ depth < 0x80000000 then .ok depth else .error .overflow

/-- The offset of the first equals sign outside brackets of any kind. -/
def defaultOffset : Int → Nat → List Char → Except Fault (Option Nat)
  | _, _, [] => .ok none
  | depth, i, c :: cs =>
    if c = '=' ∧ depth = 0 then .ok (some i)
    else do
      let deeper ← counted (depth + bracketValue c)
      defaultOffset deeper (i + c.utf8Size) cs

def beforeDefaultAt (cs : List Char) : Except Fault (List Char) := do
  match ← defaultOffset 0 0 cs with
  | none => .ok cs
  | some i => sliceTo .default i cs

/-- The offset of the last character that belongs to no name, `i` bytes being passed. -/
def lastOther : Nat → List Char → Option Nat
  | _, [] => none
  | i, c :: cs =>
    (lastOther (i + c.utf8Size) cs).or (if isNameChar c then none else some i)

/-- The name is taken to start one byte behind the start of the character in front of it. -/
def nameOffset (cs : List Char) : Nat :=
  match lastOther 0 cs with
  | none => 0
  | some i => i + 1

/-- The parameter with this name whose keywords and type stand in `head`; neither may be empty. -/
def parameterFrom? (name head : List Char) : Option Parameter :=
  if name.isEmpty || head.isEmpty then none
  else
    let (words, ty) := splitKeywords head
    some {
      name := String.ofList name
      ty := String.ofList (Text.squash ty)
      modifiers := words.filter (· != "this") }

/-- A parameter from its text without attributes and default. -/
def readCoreAt (core : List Char) : Except Fault (Option Parameter) := do
  let name ← sliceFrom .name (nameOffset core) core
  let front ← sliceTo .type (nameOffset core) core
  return parameterFrom? name (trim front)

/-- A parameter from its text, every part of it being found as an offset. -/
def readAt (raw : String) : Except Fault (Option Parameter) := do
  let cs := trim raw.toList
  match ← dropAttributesAt cs.length cs with
  | none => .ok none
  | some rest => readCoreAt (trim (← beforeDefaultAt rest))

theorem sliceTo_boundary (cut : Cut) (front back : List Char) :
    sliceTo cut (byteLength front) (front ++ back) = .ok front := by
  rw [sliceTo, cutAt_boundary]

theorem sliceFrom_boundary (cut : Cut) (front back : List Char) :
    sliceFrom cut (byteLength front) (front ++ back) = .ok back := by
  rw [sliceFrom, cutAt_boundary]

/-! ### Attributes -/

/-- Two scans find no bracket, or the same one: its offset, and what stands behind it. -/
def SameBracket (i : Nat) (cs : List Char) (offset : Option Nat) (rest : Option (List Char)) :
    Prop :=
  offset = none ∧ rest = none ∨
    ∃ a b, cs = a ++ ']' :: b ∧ offset = some (i + byteLength a) ∧ rest = some b

theorem SameBracket.cons {i : Nat} {c : Char} {cs : List Char} {offset : Option Nat}
    {rest : Option (List Char)} (same : SameBracket (i + c.utf8Size) cs offset rest) :
    SameBracket i (c :: cs) offset rest := by
  rcases same with unclosed | ⟨a, b, rfl, found, left⟩
  · exact .inl unclosed
  · refine .inr ⟨c :: a, b, rfl, ?_, left⟩
    rw [found, byteLength, Nat.add_assoc]

theorem sameBracket_afterBracket (depth i : Nat) (cs : List Char) :
    SameBracket i cs (closingOffset (depth + 1) i cs) (afterBracket (depth + 1) cs) := by
  induction cs generalizing depth i with
  | nil => exact .inl ⟨rfl, rfl⟩
  | cons c cs ih =>
    by_cases opened : c = '['
    · subst opened
      exact (ih (depth + 1) _).cons
    · by_cases closed : c = ']'
      · subst closed
        cases depth with
        | zero => exact .inr ⟨[], cs, rfl, rfl, rfl⟩
        | succ d => exact (ih d _).cons
      · have offsets : closingOffset (depth + 1) i (c :: cs) =
            closingOffset (depth + 1) (i + c.utf8Size) cs := by
          simp [closingOffset, opened, closed]
        rw [offsets, ParameterText.afterBracket_other opened closed]
        exact (ih depth _).cons

theorem dropAttributesAt_eq (n : Nat) (cs : List Char) :
    dropAttributesAt n cs = .ok (ParameterText.dropAttributes n cs) := by
  induction n generalizing cs with
  | zero => rfl
  | succ n ih =>
    by_cases opened : cs.head? = some '['
    · obtain ⟨tail, rfl⟩ := List.head?_eq_some_iff.mp opened
      have dropped : ParameterText.dropAttributes (n + 1) ('[' :: tail) =
          (afterBracket 1 tail).bind fun r => ParameterText.dropAttributes n (trimStart r) := rfl
      have start : closingOffset 0 0 ('[' :: tail) = closingOffset 1 '['.utf8Size tail := rfl
      rw [dropAttributesAt, if_pos opened, start, dropped]
      rcases sameBracket_afterBracket 0 '['.utf8Size tail with
        ⟨missing, unclosed⟩ | ⟨a, b, rfl, found, left⟩
      · rw [missing, unclosed]
        rfl
      · -- The offset behind the bracket is that of all that stands up to it.
        have behind : '['.utf8Size + byteLength a + 1 = byteLength ('[' :: (a ++ [']'])) := by
          rw [byteLength, byteLength_append, ← Nat.add_assoc]
          rfl
        have rest : sliceFrom .attribute ('['.utf8Size + byteLength a + 1)
            ('[' :: (a ++ ']' :: b)) = .ok b := by
          have whole : '[' :: (a ++ ']' :: b) = '[' :: (a ++ [']']) ++ b := by simp
          rw [behind, whole, sliceFrom_boundary]
        rw [found, left]
        simp only [rest]
        exact ih (trimStart b)
    · rw [dropAttributesAt, if_neg opened, ParameterText.dropAttributes_bare opened]

/-! ### The default -/

theorem counted_of_lt {depth : Int} (fits : depth.natAbs < 0x80000000) :
    counted depth = .ok depth := by
  rw [counted, if_pos]
  omega

theorem bracketValue_le (c : Char) : (bracketValue c).natAbs ≤ c.utf8Size := by
  have positive : 0 < c.utf8Size := c.utf8Size_pos
  unfold bracketValue
  split
  · exact positive
  · split
    · exact positive
    · exact Nat.zero_le _

theorem defaultOffset_spec {depth : Int} {cs : List Char}
    (short : depth.natAbs + byteLength cs < 0x80000000) (i : Nat) :
    defaultOffset depth i cs = .ok none ∧ beforeDefault depth cs = cs ∨
      ∃ b, cs = beforeDefault depth cs ++ '=' :: b ∧
        defaultOffset depth i cs = .ok (some (i + byteLength (beforeDefault depth cs))) := by
  induction cs generalizing depth i with
  | nil => exact .inl ⟨rfl, rfl⟩
  | cons c cs ih =>
    rw [defaultOffset, ParameterText.beforeDefault_cons]
    split
    · rename_i here
      exact .inr ⟨cs, by rw [here.1]; rfl, rfl⟩
    · have value := bracketValue_le c
      rw [byteLength] at short
      have deeper : (depth + bracketValue c).natAbs + byteLength cs < 0x80000000 := by omega
      rw [counted_of_lt (by omega)]
      rcases ih deeper (i + c.utf8Size) with ⟨unfound, whole⟩ | ⟨b, whole, found⟩
      · exact .inl ⟨unfound, congrArg (c :: ·) whole⟩
      · refine .inr ⟨b, congrArg (c :: ·) whole, ?_⟩
        rw [byteLength, ← Nat.add_assoc]
        exact found

theorem beforeDefaultAt_eq {cs : List Char} (short : byteLength cs < 0x80000000) :
    beforeDefaultAt cs = .ok (beforeDefault 0 cs) := by
  have fits : (0 : Int).natAbs + byteLength cs < 0x80000000 := by omega
  rw [beforeDefaultAt]
  rcases defaultOffset_spec fits 0 with ⟨unfound, whole⟩ | ⟨b, whole, found⟩
  · rw [unfound, whole]
    rfl
  · rw [found, Nat.zero_add]
    show sliceTo .default (byteLength (beforeDefault 0 cs)) cs = _
    generalize beforeDefault 0 cs = front at whole
    rw [whole, sliceTo_boundary]

/-! ### The name -/

theorem lastOther_named {name : List Char} (named : ∀ d ∈ name, isNameChar d = true) (i : Nat) :
    lastOther i name = none := by
  induction name generalizing i with
  | nil => rfl
  | cons c name ih =>
    obtain ⟨first, others⟩ := List.forall_mem_cons.mp named
    rw [lastOther, ih others, if_pos first]
    rfl

theorem lastOther_append {front name : List Char} {c : Char} (other : isNameChar c = false)
    (named : ∀ d ∈ name, isNameChar d = true) (i : Nat) :
    lastOther i (front ++ c :: name) = some (i + byteLength front) := by
  induction front generalizing i with
  | nil =>
    rw [List.nil_append, lastOther, lastOther_named named, other]
    rfl
  | cons d front ih =>
    rw [List.cons_append, lastOther, ih, byteLength, ← Nat.add_assoc]
    rfl

theorem readCoreAt_named {name : List Char} (named : ∀ d ∈ name, isNameChar d = true) :
    readCoreAt name = .ok none := by
  have start : nameOffset name = 0 := by rw [nameOffset, lastOther_named named]
  have typeless : parameterFrom? name (trim []) = none := by
    have empty : (trim []).isEmpty = true := rfl
    rw [parameterFrom?, empty, Bool.or_true, if_pos rfl]
  rw [readCoreAt, start, sliceFrom, sliceTo, cutAt]
  exact congrArg Except.ok typeless

theorem readCoreAt_wide {front name : List Char} {c : Char} (other : isNameChar c = false)
    (named : ∀ d ∈ name, isNameChar d = true) (wide : 1 < c.utf8Size) :
    readCoreAt (front ++ c :: name) = .error (.offBoundary .name) := by
  have start : nameOffset (front ++ c :: name) = byteLength front + 1 := by
    rw [nameOffset, lastOther_append other named, Nat.zero_add]
  have inside : sliceFrom .name (nameOffset (front ++ c :: name)) (front ++ c :: name) =
      .error (.offBoundary .name) := by
    rw [start, sliceFrom, cutAt_inside wide]
  rw [readCoreAt, inside]
  rfl

theorem readCoreAt_narrow {front name : List Char} {c : Char} (other : isNameChar c = false)
    (named : ∀ d ∈ name, isNameChar d = true) (narrow : c.utf8Size = 1) :
    readCoreAt (front ++ c :: name) = .ok (parameterFrom? name (trim (front ++ [c]))) := by
  have start : nameOffset (front ++ c :: name) = byteLength (front ++ [c]) := by
    rw [nameOffset, lastOther_append other named, Nat.zero_add, byteLength_append, byteLength,
      byteLength, narrow]
  have whole : front ++ c :: name = front ++ [c] ++ name := by simp
  rw [readCoreAt, start, whole, sliceFrom_boundary, sliceTo_boundary]
  rfl

/-! ### The whole text -/

theorem readAt_eq {raw : String} (short : (Text.utf8 raw).length < 0x80000000) :
    readAt raw = match ParameterText.core? raw with
      | none => .ok none
      | some core => readCoreAt core := by
  unfold readAt ParameterText.core?
  simp only [dropAttributesAt_eq]
  cases dropped : ParameterText.dropAttributes (trim raw.toList).length (trim raw.toList) with
  | none => rfl
  | some rest =>
    have fits : byteLength rest < 0x80000000 := by
      obtain ⟨lead, trail, -, -, around⟩ := Text.exists_trim raw.toList
      obtain ⟨row, -, whole, -⟩ := ParameterText.exists_row_of_dropAttributes (Nat.le_refl _)
        (Text.trimmed_trim _).head dropped
      rw [length_utf8, around, whole] at short
      simp only [byteLength_append] at short
      omega
    show (do readCoreAt (trim (← beforeDefaultAt rest))) = _
    rw [beforeDefaultAt_eq fits]
    rfl

/-- The last character that belongs to no name, between the attributes and the default, takes up
more than one byte. -/
def NameInside (raw : String) : Prop :=
  ∃ front c name, Stripped raw (front ++ c :: name) ∧ isNameChar c = false ∧
    (∀ d ∈ name, isNameChar d = true) ∧ 1 < (String.utf8EncodeChar c).length

theorem ofText_of_nameInside {raw : String} (inside : NameInside raw) :
    Parameter.ofText raw = .error .nameInsideCharacter := by
  obtain ⟨front, c, name, stripped, other, named, wide⟩ := inside
  rw [String.length_utf8EncodeChar] at wide
  simp [Parameter.ofText, ParameterText.core?_eq_some_iff.mpr stripped,
    ParameterText.splitName_append other named, wide]

theorem readAt_of_nameInside {raw : String} (short : (Text.utf8 raw).length < 0x80000000)
    (inside : NameInside raw) : readAt raw = .error (.offBoundary .name) := by
  obtain ⟨front, c, name, stripped, other, named, wide⟩ := inside
  rw [String.length_utf8EncodeChar] at wide
  rw [readAt_eq short, ParameterText.core?_eq_some_iff.mpr stripped]
  exact readCoreAt_wide other named wide

theorem nameInside_or {raw : String} (short : (Text.utf8 raw).length < 0x80000000) :
    NameInside raw ∨ ∃ r, Parameter.ofText raw = .ok r ∧ readAt raw = .ok r := by
  rw [readAt_eq short, Parameter.ofText]
  cases found : ParameterText.core? raw with
  | none => exact .inr ⟨none, rfl, rfl⟩
  | some core =>
    have stripped := ParameterText.core?_eq_some_iff.mp found
    rcases ParameterText.name_cases core with named | ⟨front, c, name, rfl, other, named⟩
    · refine .inr ⟨none, ?_, readCoreAt_named named⟩
      have empty : trim [] = [] := rfl
      simp [ParameterText.splitName_of_named named, empty]
    · by_cases wide : 1 < c.utf8Size
      · exact .inl ⟨front, c, name, stripped, other, named, by rwa [String.length_utf8EncodeChar]⟩
      · have positive : 0 < c.utf8Size := c.utf8Size_pos
        have narrow : c.utf8Size = 1 := by omega
        refine .inr ⟨_, ?_, readCoreAt_narrow other named narrow⟩
        simp only [ParameterText.splitName_append other named, List.getLast?_concat,
          Option.any_some, narrow, parameterFrom?]
        rw [if_neg (by decide)]
        split <;> rfl

/-- **A wide character in front of the name is the one thing that can go wrong.** Where there is
one, the name cannot be cut off. In all other texts every offset lies between two characters, the
count of open brackets fits in 32 bits, and both readers give the same parameter or none. The text
is shorter than the 2^31 bytes that such a counter counts to. -/
theorem readAt_eq_ofText {raw : String} (short : (Text.utf8 raw).length < 0x80000000) :
    (Parameter.ofText raw = .error .nameInsideCharacter ↔ NameInside raw) ∧
      readAt raw = (Parameter.ofText raw).mapError (fun _ => .offBoundary .name) ∧
      (¬ NameInside raw → ∃ r, Parameter.ofText raw = .ok r ∧ readAt raw = .ok r) := by
  rcases nameInside_or short with inside | ⟨r, plain, checked⟩
  · have stopped := ofText_of_nameInside inside
    refine ⟨⟨fun _ => inside, fun _ => stopped⟩, ?_, fun outside => absurd inside outside⟩
    rw [stopped, readAt_of_nameInside short inside]
    rfl
  · refine ⟨⟨?_, ofText_of_nameInside⟩, ?_, fun _ => ⟨r, plain, checked⟩⟩
    · intro stopped
      rw [plain] at stopped
      cases stopped
    · rw [plain, checked]
      rfl

/-- A wide blank stops the reader only where it stands right in front of the name. -/
theorem readAt_eq_ofText_blank :
    let stopping := "[A]List<int>\u3000x = 1"
    let readable := "[\u3000]\u3000ref\u3000List<é> x = \u3000"
    ((Text.utf8 stopping).length < 0x80000000 ∧ NameInside stopping ∧
      readAt stopping = .error (.offBoundary .name)) ∧
    (Text.utf8 readable).length < 0x80000000 ∧ ¬ NameInside readable ∧
      readAt readable = .ok (some { name := "x", ty := "List<é>", modifiers := ["ref"] }) := by
  intro stopping readable
  have short : (Text.utf8 stopping).length < 0x80000000 := by decide
  have core : ParameterText.core? stopping =
      some ("List<int>".toList ++ '\u3000' :: "x".toList) := by
    decide
  have inside : NameInside stopping :=
    ⟨_, _, _, ParameterText.core?_eq_some_iff.mp core,
      TypeName.not_isNameChar_of_isBlank (by decide), List.all_eq_true.mp (by decide), by decide⟩
  have short' : (Text.utf8 readable).length < 0x80000000 := by decide
  have plain : Parameter.ofText readable =
      .ok (some { name := "x", ty := "List<é>", modifiers := ["ref"] }) := by
    decide +kernel
  obtain ⟨stops, checked, -⟩ := readAt_eq_ofText short
  obtain ⟨stops', checked', -⟩ := readAt_eq_ofText short'
  refine ⟨⟨short, inside, by rw [checked, stops.mpr inside]; rfl⟩, short', ?_, ?_⟩
  · intro inside'
    have stopped := stops'.mpr inside'
    rw [plain] at stopped
    cases stopped
  · rw [checked', plain]
    rfl

end Forwarding.ByteOffsets
