import Forwarding.Emission
import Forwarding.Proofs.Parameter.Keywords
import Forwarding.Proofs.Parameter.Parts

/-!
Reading a parameter undoes declaring it. A declaration is a row of keywords, the type and the name
with single spaces between them; the scanners cut it at these spaces and nowhere else, whatever
attributes stand in front of it and whatever default behind it (`ofText_declared`).
-/

namespace Forwarding

open Text (Blank Trimmed IsWord isBlank isNameChar trim trimStart squash)
open ParameterText

namespace Parameter

/-- What a parameter has to be like for its declaration to be read back: the type is written with
single spaces, its brackets are balanced, and neither its start nor an equals sign in it can be
taken for another part of the text. -/
structure Plain (p : Parameter) : Prop where
  named : p.name ≠ ""
  nameChars : ∀ c ∈ p.name.toList, isNameChar c = true
  passing : ∀ m ∈ p.modifiers, m ∈ ["scoped", "ref", "out", "in", "params", "readonly"]
  typed : p.ty ≠ ""
  squashed : squash p.ty.toList = p.ty.toList
  unopened : p.ty.toList.head? ≠ some '['
  balanced : nesting p.ty.toList = 0
  defaultFree : ∀ a b, p.ty.toList = a ++ '=' :: b → nesting a ≠ 0
  keywordless : ∀ k ∈ passingKeywords, ¬ k.toList ++ [' '] <+: p.ty.toList

/-- The keywords in front of the type of a declaration. -/
def lead (p : Parameter) (receiver : Bool) : List String :=
  (if receiver then ["this"] else []) ++ p.modifiers

/-- The declaration without the name. -/
def front (p : Parameter) (receiver : Bool) : List Char :=
  (p.lead receiver).flatMap (fun k => k.toList ++ [' ']) ++ p.ty.toList

theorem intercalate_lead (ws : List (List Char)) (a b : List Char) :
    [' '].intercalate (ws ++ [a, b]) = ws.flatMap (· ++ [' ']) ++ (a ++ ' ' :: b) := by
  induction ws with
  | nil => simp [List.intercalate_cons_cons, List.intercalate_singleton]
  | cons w ws ih =>
    rw [List.cons_append, List.intercalate_cons_of_ne_nil (by simp), ih, List.flatMap_cons]
    simp

theorem toList_declared (p : Parameter) (receiver : Bool) :
    (p.declared receiver).toList = p.front receiver ++ ' ' :: p.name.toList := by
  rw [declared, String.toList_intercalate, List.map_append, List.map_cons, List.map_cons,
    List.map_nil]
  show [' '].intercalate (_ ++ _) = _
  rw [intercalate_lead, front, lead, List.flatMap_map]
  simp

end Parameter

/-! ### Keywords -/

/-- A keyword is a word without brackets and equals signs. -/
structure PlainKeyword (k : String) : Prop where
  word : IsWord k.toList
  unopened : k.toList.head? ≠ some '['
  listed : passingKeywords.contains k = true
  level : nesting (k.toList ++ [' ']) = 0
  undefaulted : '=' ∉ k.toList ++ [' ']

theorem plainKeyword_of_mem {k : String} (mem : k ∈ passingKeywords) : PlainKeyword k := by
  have each : ∀ k ∈ passingKeywords, k.toList ≠ [] ∧ (k.toList.all fun c => !isBlank c) = true ∧
      k.toList.head? ≠ some '[' ∧ nesting (k.toList ++ [' ']) = 0 ∧ '=' ∉ k.toList ++ [' '] := by
    decide
  obtain ⟨filled, all, unopened, level, undefaulted⟩ := each k mem
  refine ⟨⟨filled, ?_⟩, unopened, List.contains_iff_mem.mpr mem, level, undefaulted⟩
  intro c inside
  simpa using List.all_eq_true.mp all c inside

theorem splitKeywords_of_keywordless {ty : List Char} (squashed : squash ty = ty)
    (filled : ty ≠ []) (keywordless : ∀ k ∈ passingKeywords, ¬ k.toList ++ [' '] <+: ty) :
    splitKeywords ty = ([], ty) := by
  have trimmed : Trimmed ty := squashed ▸ Text.trimmed_squash ty
  induction ty, trimmed using Text.trimmedInduction with
  | nil => exact absurd rfl filled
  | word w _ word => exact splitKeywords_word word
  | gap w b gap rest _ inner word blank between more _ =>
    -- A squashed text has a space behind its first word.
    rw [Text.squash_words word blank between inner more] at squashed
    obtain ⟨rfl, -⟩ := List.cons.inj (List.append_cancel_left squashed)
    rw [splitKeywords_gap word blank between inner, if_neg]
    intro keyword
    apply keywordless (String.ofList w) (List.contains_iff_mem.mp keyword)
    rw [String.toList_ofList]
    exact ⟨gap ++ rest, by simp⟩

/-- Keywords in front of a text are taken off, all of them and no more. -/
theorem splitKeywords_lead {ks : List String} (plain : ∀ k ∈ ks, PlainKeyword k) {ty : List Char}
    (trimmed : Trimmed ty) (filled : ty ≠ []) (unsplit : splitKeywords ty = ([], ty)) :
    Trimmed (ks.flatMap (fun k => k.toList ++ [' ']) ++ ty) ∧
      ks.flatMap (fun k => k.toList ++ [' ']) ++ ty ≠ [] ∧
      splitKeywords (ks.flatMap (fun k => k.toList ++ [' ']) ++ ty) = (ks, ty) := by
  induction ks with
  | nil => exact ⟨trimmed, filled, unsplit⟩
  | cons k ks ih =>
    obtain ⟨first, others⟩ := List.forall_mem_cons.mp plain
    obtain ⟨inner, more, split⟩ := ih others
    have whole : (k :: ks).flatMap (fun k => k.toList ++ [' ']) ++ ty =
        k.toList ++ ' ' :: (ks.flatMap (fun k => k.toList ++ [' ']) ++ ty) := by simp
    rw [whole]
    refine ⟨?_, by simp, ?_⟩
    · have joined := (Text.isWord_trimmed first.word).append first.word.filled inner more [' ']
      rwa [List.append_assoc] at joined
    · rw [splitKeywords_space first.word inner, String.ofList_toList, if_pos first.listed, split]

theorem beforeDefault_lead {ks : List String} (plain : ∀ k ∈ ks, PlainKeyword k) (cs : List Char) :
    beforeDefault 0 (ks.flatMap (fun k => k.toList ++ [' ']) ++ cs) =
      ks.flatMap (fun k => k.toList ++ [' ']) ++ beforeDefault 0 cs := by
  induction ks with
  | nil => rfl
  | cons k ks ih =>
    obtain ⟨first, others⟩ := List.forall_mem_cons.mp plain
    rw [List.flatMap_cons, List.append_assoc,
      beforeDefault_level (defaultFree_of_not_mem first.undefaulted 0) first.level, ih others]
    simp only [List.append_assoc]

/-! ### The declaration in its text -/

namespace Parameter.Plain

variable {p : Parameter} (plain : p.Plain) (receiver : Bool)

include plain

theorem plainKeyword : ∀ k ∈ p.lead receiver, PlainKeyword k := by
  intro k mem
  apply plainKeyword_of_mem
  rcases List.mem_append.mp mem with front | own
  · cases receiver with
    | true => exact List.mem_singleton.mp front ▸ List.mem_cons_self
    | false => cases front
  · exact List.mem_cons_of_mem "this" (plain.passing k own)

theorem filter_lead : (p.lead receiver).filter (· != "this") = p.modifiers := by
  have kept : p.modifiers.filter (· != "this") = p.modifiers := by
    apply List.filter_eq_self.mpr
    intro m mem
    have others :
        ∀ k ∈ ["scoped", "ref", "out", "in", "params", "readonly"], (k != "this") = true := by
      decide
    exact others m (plain.passing m mem)
  rw [lead, List.filter_append, kept]
  cases receiver <;> rfl

theorem type_filled : p.ty.toList ≠ [] := by
  intro empty
  exact plain.typed (String.toList_eq_nil_iff.mp empty)

theorem isWord_name : IsWord p.name.toList :=
  isWord_of_named plain.named plain.nameChars

theorem front_spec : Trimmed (p.front receiver) ∧ p.front receiver ≠ [] ∧
    splitKeywords (p.front receiver) = (p.lead receiver, p.ty.toList) := by
  have trimmed : Trimmed p.ty.toList := plain.squashed ▸ Text.trimmed_squash _
  apply splitKeywords_lead (plain.plainKeyword receiver) trimmed plain.type_filled
  exact splitKeywords_of_keywordless plain.squashed plain.type_filled plain.keywordless

theorem trimmed_declared : Trimmed (p.declared receiver).toList := by
  obtain ⟨front, filled, -⟩ := plain.front_spec receiver
  have name := plain.isWord_name
  have joined := front.append filled (Text.isWord_trimmed name) name.filled [' ']
  rwa [List.append_assoc, List.singleton_append, ← toList_declared] at joined

/-- What is declared stands outside of all brackets and holds no equals sign there. -/
theorem beforeDefault_declared (back : List Char) :
    beforeDefault 0 ((p.declared receiver).toList ++ back) =
      (p.declared receiver).toList ++ beforeDefault 0 back := by
  have type : DefaultFree 0 p.ty.toList := fun a b whole => by
    simpa using plain.defaultFree a b whole
  have name : '=' ∉ ' ' :: p.name.toList := by
    intro mem
    rcases List.mem_cons.mp mem with space | inside
    · cases space
    · cases plain.nameChars _ inside
  have level : nesting (' ' :: p.name.toList) = 0 := by
    rw [nesting, nesting_of_named plain.nameChars]
    rfl
  rw [toList_declared, front, List.append_assoc, List.append_assoc,
    beforeDefault_lead (plain.plainKeyword receiver), List.append_assoc,
    beforeDefault_level type plain.balanced,
    beforeDefault_level (defaultFree_of_not_mem name 0) level]
  simp

theorem bare_declared (back : List Char) : Bare ((p.declared receiver).toList ++ back) := by
  obtain ⟨trimmed, filled, -⟩ := plain.front_spec receiver
  have head : ((p.declared receiver).toList ++ back).head? = (p.front receiver).head? := by
    rw [toList_declared, List.append_assoc, List.head?_append_of_ne_nil _ filled]
  constructor
  · rw [head, front]
    cases lead : p.lead receiver with
    | nil => exact plain.unopened
    | cons k ks =>
      have keyword : PlainKeyword k := plain.plainKeyword receiver k (lead ▸ List.mem_cons_self)
      rw [List.flatMap_cons, List.append_assoc, List.append_assoc,
        List.head?_append_of_ne_nil _ keyword.word.filled]
      exact keyword.unopened
  · rw [head]
    exact trimmed.head

end Parameter.Plain

/-! ### Attributes and a default around it -/

/-- A default as it is written behind a parameter. -/
def Parameter.defaultText (value : Option String) : String :=
  (value.map (" = " ++ ·)).getD ""

/-- A default is cut off, and at most the space in front of it is left. -/
theorem blank_beforeDefault (value : Option String) :
    Blank (beforeDefault 0 (Text.trimEnd (Parameter.defaultText value).toList)) := by
  cases value with
  | none =>
    intro c mem
    cases mem
  | some value =>
    have text : (Parameter.defaultText (some value)).toList =
        [' '] ++ '=' :: (' ' :: value.toList) := by
      simp [Parameter.defaultText]
    rw [text, Text.trimEnd_append (by decide)]
    intro c mem
    have space : c = ' ' := by simpa [beforeDefault] using mem
    rw [space]
    decide

theorem Parameter.Plain.core?_eq {p : Parameter} (plain : p.Plain) (receiver : Bool) {row : String}
    (attributes : AttributeRow row.toList) (value : Option String) :
    core? (row ++ p.declared receiver ++ defaultText value) =
      some (p.declared receiver).toList := by
  have trimmed := plain.trimmed_declared receiver
  have filled : (p.declared receiver).toList ≠ [] := by simp [toList_declared]
  have around : Trimmed (row.toList ++ (p.declared receiver).toList) := by
    refine ⟨attributes.head trimmed.head, ?_⟩
    rw [List.getLast?_append_of_ne_nil _ filled]
    exact trimmed.last
  have whole : trim (row ++ p.declared receiver ++ defaultText value).toList = row.toList ++
      ((p.declared receiver).toList ++ Text.trimEnd (defaultText value).toList) := by
    rw [String.toList_append, String.toList_append, Text.trim_append around (by simp [filled]),
      List.append_assoc]
  have cut := beforeDefault_eq_iff.mp (plain.beforeDefault_declared receiver
    (Text.trimEnd (defaultText value).toList))
  have stripped := Stripped.intro whole attributes (plain.bare_declared receiver _) cut
  rw [Text.trim_append_blank trimmed (blank_beforeDefault value)] at stripped
  exact core?_eq_some_iff.mpr stripped

/-- **Reading a parameter undoes declaring it.** A parameter with a squashed and balanced type is
read back from its declaration, as a receiver or not, whatever attribute lists stand in front and
whatever default behind. -/
theorem ofText_declared {p : Parameter} (plain : p.Plain) (receiver : Bool) {row : String}
    (attributes : AttributeRow row.toList) (value : Option String) :
    Parameter.ofText (row ++ p.declared receiver ++ Parameter.defaultText value) =
      .ok (some p) := by
  have core := plain.core?_eq receiver attributes value
  obtain ⟨trimmed, filled, split⟩ := plain.front_spec receiver
  have type : trim (p.front receiver ++ [' ']) = p.front receiver :=
    Text.trim_append_blank trimmed Text.blank_space
  rw [Parameter.toList_declared] at core
  rw [ofText_of_core core (by decide) plain.nameChars (by decide) plain.isWord_name.filled
    (by rwa [type]), type, split]
  simp only [plain.filter_lead receiver, plain.squashed, String.ofList_toList]

/-- A receiver whose type holds an array rank, an equals sign in brackets and a keyword at its end,
between attribute lists and a default with brackets that do not match. -/
theorem ofText_declared_map :
    let p : Parameter := {
      name := "map", ty := "Map<(int[,] a, F<x=1>), ref>", modifiers := ["scoped", "ref"] }
    p.Plain ∧ AttributeRow "[A(b[0])][return: B]\n ".toList ∧
      Parameter.ofText
        "[A(b[0])][return: B]\n this scoped ref Map<(int[,] a, F<x=1>), ref> map = x > [y" =
          .ok (some p) := by
  intro p
  have plain : p.Plain := by
    have nameChars : ∀ c ∈ p.name.toList, isNameChar c = true := List.all_eq_true.mp (by decide)
    refine ⟨by decide, nameChars, by decide, by decide, by decide, by decide, by decide, ?_,
      by decide⟩
    have free := (exists_beforeDefault 0 p.ty.toList).1
    have whole : beforeDefault 0 p.ty.toList = p.ty.toList := by decide
    rw [whole] at free
    simpa only [DefaultFree, Int.zero_add] using free
  have attributes : AttributeRow "[A(b[0])][return: B]\n ".toList := by decide
  exact ⟨plain, attributes, ofText_declared plain true attributes (some "x > [y")⟩

end Forwarding
