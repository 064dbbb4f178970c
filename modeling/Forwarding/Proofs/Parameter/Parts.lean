import Forwarding.Outline.Parameter
import Forwarding.Proofs.Text.Words
import Forwarding.Proofs.TypeName.Tokens

/-!
The parts of a parameter's text: attributes in front, a default behind, and the name at the end of
what is between them. Each part is said here without the scanner that finds it, and each scanner
finds exactly that part.
-/

namespace Forwarding.ParameterText

open Text (Blank Trimmed IsWord isBlank isNameChar trim trimStart)

/-! ### Attributes -/

/-- What may stand between the brackets of an attribute list: each bracket that is opened in it is
closed in it. -/
inductive Enclosed : List Char → Prop
  | nil : Enclosed []
  | other {c : Char} {cs : List Char} (unopened : c ≠ '[') (unclosed : c ≠ ']')
      (rest : Enclosed cs) : Enclosed (c :: cs)
  | group {inner cs : List Char} (inside : Enclosed inner) (rest : Enclosed cs) :
      Enclosed ('[' :: (inner ++ ']' :: cs))

theorem afterBracket_open (depth : Nat) (cs : List Char) :
    afterBracket depth ('[' :: cs) = afterBracket (depth + 1) cs := rfl

theorem afterBracket_close (depth : Nat) (cs : List Char) :
    afterBracket (depth + 2) (']' :: cs) = afterBracket (depth + 1) cs := rfl

theorem afterBracket_other {c : Char} (unopened : c ≠ '[') (unclosed : c ≠ ']') (depth : Nat)
    (cs : List Char) : afterBracket depth (c :: cs) = afterBracket depth cs := by
  simp [afterBracket, unopened, unclosed]

theorem afterBracket_enclosed {inner : List Char} (enclosed : Enclosed inner) (depth : Nat)
    (cs : List Char) : afterBracket (depth + 1) (inner ++ cs) = afterBracket (depth + 1) cs := by
  induction enclosed generalizing depth cs with
  | nil => rfl
  | other unopened unclosed _ ih =>
    rw [List.cons_append, afterBracket_other unopened unclosed, ih]
  | group _ _ inside rest =>
    rw [List.cons_append, afterBracket_open, List.append_assoc, inside, List.cons_append,
      afterBracket_close, rest]

/-- The first bracket that is closed from outside ends what is enclosed. -/
theorem exists_enclosed {depth : Nat} {cs rest : List Char}
    (found : afterBracket (depth + 1) cs = some rest) :
    ∃ inner back, Enclosed inner ∧ cs = inner ++ ']' :: back ∧
      (depth = 0 ∧ back = rest ∨ ∃ d, depth = d + 1 ∧ afterBracket (d + 1) back = some rest) := by
  induction size : cs.length using Nat.strongRecOn generalizing cs depth with
  | ind n ih =>
    cases cs with
    | nil => cases found
    | cons c cs =>
      have shorter : cs.length < n := by simp [← size]
      by_cases opened : c = '['
      · subst opened
        -- The brackets opened here come to an end first, and the search goes on behind them.
        have deeper : afterBracket (depth + 1 + 1) cs = some rest := found
        obtain ⟨inner, back, inside, rfl, behind⟩ := ih _ shorter deeper rfl
        obtain ⟨d, same, later⟩ := behind.resolve_left (by simp)
        obtain rfl := Nat.succ.inj same
        have within : back.length < n := by
          simp only [List.length_append, List.length_cons] at shorter
          omega
        obtain ⟨more, rest', outside, rfl, final⟩ := ih _ within later rfl
        exact ⟨'[' :: (inner ++ ']' :: more), rest', .group inside outside, by simp, final⟩
      · by_cases closed : c = ']'
        · subst closed
          refine ⟨[], cs, .nil, rfl, ?_⟩
          cases depth with
          | zero => exact .inl ⟨rfl, Option.some.inj found⟩
          | succ d => exact .inr ⟨d, rfl, found⟩
        · rw [afterBracket_other opened closed] at found
          obtain ⟨inner, back, inside, rfl, behind⟩ := ih _ shorter found rfl
          exact ⟨c :: inner, back, .other opened closed inside, rfl, behind⟩

instance (inner : List Char) : Decidable (Enclosed inner) :=
  decidable_of_iff (afterBracket 1 (inner ++ [']']) = some []) <| by
    constructor
    · intro found
      obtain ⟨front, back, enclosed, whole, last⟩ := exists_enclosed found
      obtain rfl := (last.resolve_right (by simp)).2
      rwa [List.append_cancel_right whole]
    · intro enclosed
      exact afterBracket_enclosed enclosed 0 [']']

/-- Any number of attribute lists with blanks behind them. -/
inductive AttributeRow : List Char → Prop
  | nil : AttributeRow []
  | cons {inner gap row : List Char} (inside : Enclosed inner) (between : Blank gap)
      (rest : AttributeRow row) : AttributeRow ('[' :: (inner ++ ']' :: (gap ++ row)))

/-- Neither an attribute list nor a blank comes first. -/
structure Bare (cs : List Char) : Prop where
  unopened : cs.head? ≠ some '['
  visible : cs.head?.any isBlank = false

theorem AttributeRow.head {row rest : List Char} (attributes : AttributeRow row)
    (visible : rest.head?.any isBlank = false) : (row ++ rest).head?.any isBlank = false := by
  cases attributes with
  | nil => exact visible
  | cons => rfl

theorem dropAttributes_bare {rest : List Char} (bare : rest.head? ≠ some '[') (n : Nat) :
    dropAttributes n rest = some rest := by
  cases n with
  | zero => rfl
  | succ n =>
    cases rest with
    | nil => rfl
    | cons c cs =>
      have other : c ≠ '[' := by simpa using bare
      unfold dropAttributes
      split
      · rename_i same
        exact absurd (List.cons.inj same).1 other
      · rfl

theorem dropAttributes_list {inner : List Char} (inside : Enclosed inner) (n : Nat)
    (cs : List Char) : dropAttributes (n + 1) ('[' :: (inner ++ ']' :: cs)) =
      dropAttributes n (trimStart cs) := by
  show (afterBracket (0 + 1) (inner ++ ']' :: cs)).bind _ = _
  rw [afterBracket_enclosed inside]
  rfl

theorem dropAttributes_row {row rest : List Char} (attributes : AttributeRow row)
    (bare : Bare rest) {n : Nat} (enough : row.length ≤ n) :
    dropAttributes n (row ++ rest) = some rest := by
  induction attributes generalizing n with
  | nil => exact dropAttributes_bare bare.unopened n
  | @cons inner gap row inside between attributes ih =>
    simp only [List.length_cons, List.length_append] at enough
    obtain ⟨n, rfl⟩ : ∃ m, n = m + 1 := ⟨n - 1, by omega⟩
    have behind : trimStart (gap ++ (row ++ rest)) = row ++ rest := by
      rw [Text.trimStart_blank between]
      exact Text.trimStart_of_head (attributes.head bare.visible)
    have whole : '[' :: (inner ++ ']' :: (gap ++ row)) ++ rest =
        '[' :: (inner ++ ']' :: (gap ++ (row ++ rest))) := by simp
    rw [whole, dropAttributes_list inside, behind]
    exact ih (by omega)

theorem exists_row_of_dropAttributes {n : Nat} {cs rest : List Char} (enough : cs.length ≤ n)
    (visible : cs.head?.any isBlank = false) (dropped : dropAttributes n cs = some rest) :
    ∃ row, AttributeRow row ∧ cs = row ++ rest ∧ Bare rest := by
  induction n generalizing cs with
  | zero =>
    obtain rfl := List.length_eq_zero_iff.mp (Nat.le_zero.mp enough)
    cases dropped
    exact ⟨[], .nil, rfl, by simp, rfl⟩
  | succ n ih =>
    by_cases opened : cs.head? = some '['
    · obtain ⟨tail, rfl⟩ := List.head?_eq_some_iff.mp opened
      obtain ⟨back, found, later⟩ := Option.bind_eq_some_iff.mp dropped
      obtain ⟨inner, behind, inside, rfl, last⟩ := exists_enclosed found
      obtain rfl := (last.resolve_right (by simp)).2
      obtain ⟨gap, between, split⟩ := Text.exists_trimStart behind
      have shorter : (trimStart behind).length ≤ n := by
        have sizes := congrArg List.length split
        simp only [List.length_cons, List.length_append] at enough sizes
        omega
      obtain ⟨row, attributes, whole, bare⟩ := ih shorter (Text.head_trimStart behind) later
      refine ⟨'[' :: (inner ++ ']' :: (gap ++ row)), .cons inside between attributes, ?_, bare⟩
      rw [split, whole]
      simp
    · rw [dropAttributes_bare opened] at dropped
      cases dropped
      exact ⟨[], .nil, rfl, opened, visible⟩

instance (row : List Char) : Decidable (AttributeRow row) :=
  decidable_of_iff (row.head?.any isBlank = false ∧ dropAttributes row.length row = some []) <| by
    constructor
    · rintro ⟨visible, dropped⟩
      obtain ⟨front, attributes, whole, -⟩ :=
        exists_row_of_dropAttributes (Nat.le_refl _) visible dropped
      rwa [whole, List.append_nil]
    · intro attributes
      have visible : (row ++ []).head?.any isBlank = false := attributes.head rfl
      have dropped : dropAttributes row.length (row ++ []) = some [] :=
        dropAttributes_row attributes ⟨by simp, rfl⟩ (Nat.le_refl _)
      rw [List.append_nil] at visible dropped
      exact ⟨visible, dropped⟩

/-! ### The default -/

/-- What a character adds to the number of open brackets; brackets of all kinds count alike. -/
def bracketValue (c : Char) : Int :=
  if c == '<' || c == '(' || c == '[' then 1
  else if c == '>' || c == ')' || c == ']' then -1
  else 0

/-- How many more brackets are opened than closed. -/
def nesting : List Char → Int
  | [] => 0
  | c :: cs => bracketValue c + nesting cs

/-- No equals sign stands outside of all brackets, where `depth` brackets are open in front. -/
def DefaultFree (depth : Int) (cs : List Char) : Prop :=
  ∀ a b, cs = a ++ '=' :: b → depth + nesting a ≠ 0

theorem defaultFree_cons {depth : Int} {c : Char} {cs : List Char} :
    DefaultFree depth (c :: cs) ↔
      (c = '=' → depth ≠ 0) ∧ DefaultFree (depth + bracketValue c) cs := by
  constructor
  · intro free
    constructor
    · rintro rfl
      simpa [nesting] using free [] cs rfl
    · rintro a b rfl
      have inner := free (c :: a) b rfl
      rwa [nesting, ← Int.add_assoc] at inner
  · rintro ⟨first, inner⟩ a b whole
    cases a with
    | nil =>
      cases whole
      simpa [nesting] using first rfl
    | cons d a =>
      cases whole
      rw [nesting, ← Int.add_assoc]
      exact inner a b rfl

theorem defaultFree_of_not_mem {cs : List Char} (absent : '=' ∉ cs) (depth : Int) :
    DefaultFree depth cs := by
  rintro a b rfl
  exact absurd (List.mem_append_right a List.mem_cons_self) absent

theorem beforeDefault_cons (depth : Int) (c : Char) (cs : List Char) :
    beforeDefault depth (c :: cs) =
      if c = '=' ∧ depth = 0 then [] else c :: beforeDefault (depth + bracketValue c) cs := by
  by_cases equals : c = '='
  · subst equals
    simp [beforeDefault, bracketValue]
  · simp only [beforeDefault, bracketValue, equals, false_and, if_false]
    split
    · rfl
    · split
      · rfl
      · simp [equals]

theorem beforeDefault_append {depth : Int} {front : List Char} (free : DefaultFree depth front)
    (rest : List Char) :
    beforeDefault depth (front ++ rest) = front ++ beforeDefault (depth + nesting front) rest := by
  induction front generalizing depth with
  | nil => simp [nesting]
  | cons c front ih =>
    obtain ⟨first, inner⟩ := defaultFree_cons.mp free
    rw [List.cons_append, beforeDefault_cons, if_neg fun both => first both.1 both.2, ih inner,
      nesting, Int.add_assoc, List.cons_append]

/-- A text on one level without an equals sign of that level stays as it is. -/
theorem beforeDefault_level {front : List Char} (free : DefaultFree 0 front)
    (level : nesting front = 0) (rest : List Char) :
    beforeDefault 0 (front ++ rest) = front ++ beforeDefault 0 rest := by
  rw [beforeDefault_append free, level, Int.add_zero]

/-- `front` is the part of a text before the first equals sign outside of all brackets, or the whole
text where there is none. -/
def CutAtDefault (cs front : List Char) : Prop :=
  DefaultFree 0 front ∧ (cs = front ∨ ∃ back, cs = front ++ '=' :: back ∧ nesting front = 0)

theorem exists_beforeDefault (depth : Int) (cs : List Char) :
    DefaultFree depth (beforeDefault depth cs) ∧
      (cs = beforeDefault depth cs ∨
        ∃ back, cs = beforeDefault depth cs ++ '=' :: back ∧
          depth + nesting (beforeDefault depth cs) = 0) := by
  induction cs generalizing depth with
  | nil => exact ⟨fun a b whole => by simp [beforeDefault] at whole, .inl rfl⟩
  | cons c cs ih =>
    rw [beforeDefault_cons]
    split
    · rename_i here
      obtain ⟨rfl, rfl⟩ := here
      exact ⟨fun a b whole => by simp at whole, .inr ⟨cs, rfl, rfl⟩⟩
    · rename_i other
      obtain ⟨free, whole⟩ := ih (depth + bracketValue c)
      refine ⟨defaultFree_cons.mpr ⟨fun equals zero => other ⟨equals, zero⟩, free⟩, ?_⟩
      rcases whole with same | ⟨back, same, closed⟩
      · exact .inl (congrArg (c :: ·) same)
      · refine .inr ⟨back, congrArg (c :: ·) same, ?_⟩
        rwa [nesting, ← Int.add_assoc]

theorem beforeDefault_eq_iff {cs front : List Char} :
    beforeDefault 0 cs = front ↔ CutAtDefault cs front := by
  constructor
  · rintro rfl
    simpa only [CutAtDefault, Int.zero_add] using exists_beforeDefault 0 cs
  · rintro ⟨free, rfl | ⟨back, rfl, closed⟩⟩
    · have whole := beforeDefault_append free []
      rwa [beforeDefault, List.append_nil] at whole
    · rw [beforeDefault_append free, closed, beforeDefault_cons, if_pos ⟨rfl, rfl⟩, List.append_nil]

/-! ### The name -/

theorem isWord_of_named {name : String} (filled : name ≠ "")
    (named : ∀ c ∈ name.toList, isNameChar c = true) : IsWord name.toList := by
  constructor
  · intro empty
    exact filled (String.toList_eq_nil_iff.mp empty)
  · intro c mem
    exact TypeName.not_isBlank_of_isNameChar (named c mem)

theorem splitName_append {front name : List Char} {c : Char} (other : isNameChar c = false)
    (named : ∀ d ∈ name, isNameChar d = true) :
    splitName (front ++ c :: name) = (front ++ [c], name) := by
  have back : ∀ d ∈ name.reverse, isNameChar d = true :=
    fun d mem => named d (List.mem_reverse.mp mem)
  simp [splitName, List.dropWhile_append_of_pos back, List.takeWhile_append_of_pos back, other]

theorem splitName_of_named {name : List Char} (named : ∀ d ∈ name, isNameChar d = true) :
    splitName name = ([], name) := by
  have back : ∀ d ∈ name.reverse, isNameChar d = true :=
    fun d mem => named d (List.mem_reverse.mp mem)
  have allName : (name.reverse ++ []).dropWhile isNameChar = [] := List.dropWhile_append_of_pos back
  have all : (name.reverse ++ []).takeWhile isNameChar = name.reverse ++ [] :=
    List.takeWhile_append_of_pos back
  rw [List.append_nil] at allName all
  rw [splitName, allName, all, List.reverse_nil, List.reverse_reverse]

theorem bracketValue_of_isNameChar {c : Char} (name : isNameChar c = true) :
    bracketValue c = 0 := by
  have apart : (['<', '(', '[', '>', ')', ']'].all fun d => !isNameChar d) = true := by decide
  have other (d : Char) (mem : d ∈ ['<', '(', '[', '>', ')', ']']) : c ≠ d := by
    rintro rfl
    simpa [name] using List.all_eq_true.mp apart c mem
  simp [bracketValue, other]

theorem nesting_of_named {name : List Char} (named : ∀ d ∈ name, isNameChar d = true) :
    nesting name = 0 := by
  induction name with
  | nil => rfl
  | cons c name ih =>
    obtain ⟨first, others⟩ := List.forall_mem_cons.mp named
    rw [nesting, bracketValue_of_isNameChar first, ih others]
    rfl

/-- A text is all name, or there is a last character that belongs to no name. -/
theorem name_cases (cs : List Char) :
    (∀ d ∈ cs, isNameChar d = true) ∨
      ∃ front c name, cs = front ++ c :: name ∧ isNameChar c = false ∧
        ∀ d ∈ name, isNameChar d = true := by
  induction cs with
  | nil => exact .inl (by simp)
  | cons c cs ih =>
    rcases ih with all | ⟨front, d, name, rfl, other, named⟩
    · cases own : isNameChar c with
      | true => exact .inl (List.forall_mem_cons.mpr ⟨own, all⟩)
      | false => exact .inr ⟨[], c, cs, rfl, own, all⟩
    · exact .inr ⟨c :: front, d, name, rfl, other, named⟩

/-! ### The whole text -/

/-- The text between the attributes and the default of a parameter. -/
inductive Stripped (raw : String) : List Char → Prop
  | intro {row rest front : List Char} (whole : trim raw.toList = row ++ rest)
      (attributes : AttributeRow row) (bare : Bare rest) (cut : CutAtDefault rest front) :
      Stripped raw (trim front)

theorem core?_eq_some_iff {raw : String} {core : List Char} :
    core? raw = some core ↔ Stripped raw core := by
  unfold core?
  rw [Option.map_eq_some_iff]
  constructor
  · rintro ⟨rest, dropped, rfl⟩
    obtain ⟨row, attributes, whole, bare⟩ :=
      exists_row_of_dropAttributes (Nat.le_refl _) (Text.trimmed_trim _).head dropped
    exact .intro whole attributes bare (beforeDefault_eq_iff.mp rfl)
  · rintro ⟨whole, attributes, bare, cut⟩
    refine ⟨_, ?_, by rw [beforeDefault_eq_iff.mpr cut]⟩
    rw [whole]
    exact dropAttributes_row attributes bare (by simp)

theorem ofText_of_core {raw : String} {front name : List Char} {c : Char}
    (core : core? raw = some (front ++ c :: name)) (other : isNameChar c = false)
    (named : ∀ d ∈ name, isNameChar d = true) (narrow : c.utf8Size = 1) (filled : name ≠ [])
    (typed : trim (front ++ [c]) ≠ []) :
    Parameter.ofText raw = .ok (some {
      name := String.ofList name
      ty := String.ofList (Text.squash (splitKeywords (trim (front ++ [c]))).2)
      modifiers := (splitKeywords (trim (front ++ [c]))).1.filter (· != "this") }) := by
  simp [Parameter.ofText, core, splitName_append other named, narrow, filled, typed]

end Forwarding.ParameterText
