import Forwarding.Outline.OfTree
import Forwarding.Proofs.Parameter.Keywords
import Forwarding.Proofs.Parameter.Parts
import Forwarding.Proofs.Syntax.PartOrder

/-!
A parameter is read from its parts or, where the type is left out, from its text. Both readers take
the passing keywords off the front of the type; one squashes the blanks before that and one after,
and one adds a keyword only once. On a type in which no keyword comes twice they agree, and the
modifiers are always in the order of the source (`readers_agree`).
-/

namespace Forwarding

open Syntax
open Text (Blank Trimmed IsWord isBlank isNameChar trim words squash)
open ParameterText

/-! ### Modifiers in the order of the source -/

/-- The modifiers are the keywords in their order, all but `this`. A keyword that comes again may be
left out there. -/
structure KeptInOrder (modifiers keywords : List String) : Prop where
  order : modifiers.Sublist keywords
  mem_iff : ∀ m, m ∈ modifiers ↔ m ∈ keywords ∧ m ≠ "this"

theorem keptInOrder_filter (keywords : List String) :
    KeptInOrder (keywords.filter (· != "this")) keywords := by
  constructor
  · exact List.filter_sublist
  · intro m
    simp

theorem keptInOrder_addKeywords (own keywords : List String) :
    KeptInOrder (addKeywords (own.filter (· != "this")) keywords) (own ++ keywords) := by
  constructor
  · obtain ⟨added, whole, order⟩ := exists_addKeywords (own.filter (· != "this")) keywords
    rw [whole]
    exact List.filter_sublist.append (order.trans List.filter_sublist)
  · intro m
    rw [mem_addKeywords, (keptInOrder_filter own).mem_iff, List.mem_append, or_and_right]

/-! ### The text -/

theorem keywordRun_trim (cs : List Char) : keywordRun (trim cs) = keywordRun cs := by
  rw [keywordRun, Text.words_trim, keywordRun]

theorem splitKeywords_trim_fst (cs : List Char) : (splitKeywords (trim cs)).1 = keywordRun cs := by
  rw [splitKeywords_fst (Text.trimmed_trim cs), keywordRun_trim]

theorem splitKeywords_trim_squash (cs : List Char) :
    splitKeywords (trim (squash cs)) = (keywordRun cs, squash (splitKeywords (trim cs)).2) := by
  rw [Text.trim_of_trimmed (Text.trimmed_squash cs), ← Text.squash_trim,
    splitKeywords_squash (Text.trimmed_trim cs), splitKeywords_trim_fst]

theorem ofText_modifiers {raw : String} {p : Parameter}
    (read : Parameter.ofText raw = .ok (some p)) :
    ∃ core, core? raw = some core ∧ KeptInOrder p.modifiers (keywordRun (splitName core).1) := by
  unfold Parameter.ofText at read
  split at read
  · cases read
  · rename_i core found
    refine ⟨core, found, ?_⟩
    simp only at read
    split at read
    · cases read
    · split at read
      · cases read
      · cases read
        rw [splitKeywords_trim_fst]
        exact keptInOrder_filter _

/-- A type that is not taken for attributes or a default, with no passing keyword twice in front. -/
structure PlainType (ty : List Char) : Prop where
  filled : trim ty ≠ []
  unopened : (trim ty).head? ≠ some '['
  undefaulted : '=' ∉ ty
  once : (keywordRun ty).Nodup

theorem core?_typed {ty n : String} (plain : PlainType ty.toList) (named : n ≠ "")
    (nameChars : ∀ c ∈ n.toList, isNameChar c = true) :
    ∃ gap, Blank gap ∧
      core? (ty ++ " " ++ n) = some (trim ty.toList ++ gap ++ ' ' :: n.toList) := by
  obtain ⟨lead, gap, front, between, split⟩ := Text.exists_trim ty.toList
  have trimmed : Trimmed (trim ty.toList) := Text.trimmed_trim _
  have name : IsWord n.toList := isWord_of_named named nameChars
  have inner : Trimmed (trim ty.toList ++ (gap ++ ' ' :: n.toList)) := by
    have joined := trimmed.append plain.filled (Text.isWord_trimmed name) name.filled (gap ++ [' '])
    simpa using joined
  have whole : trim (ty ++ " " ++ n).toList =
      [] ++ (trim ty.toList ++ (gap ++ ' ' :: n.toList)) := by
    have surrounded := Text.trim_surrounded front inner Text.blank_nil
    rw [List.append_nil, ← List.append_assoc (trim ty.toList), ← List.append_assoc lead,
      ← split] at surrounded
    simpa using surrounded
  have bare : Bare (trim ty.toList ++ (gap ++ ' ' :: n.toList)) := by
    refine ⟨?_, inner.head⟩
    rw [List.head?_append_of_ne_nil _ plain.filled]
    exact plain.unopened
  have undefaulted : '=' ∉ trim ty.toList ++ (gap ++ ' ' :: n.toList) := by
    rw [← List.append_assoc, List.mem_append, List.mem_cons]
    rintro (mem | same | mem)
    · exact plain.undefaulted (split ▸ List.mem_append_right lead mem)
    · cases same
    · cases nameChars _ mem
  have stripped := Stripped.intro whole .nil bare ⟨defaultFree_of_not_mem undefaulted 0, .inl rfl⟩
  rw [Text.trim_of_trimmed inner] at stripped
  refine ⟨gap, between, core?_eq_some_iff.mpr ?_⟩
  rwa [List.append_assoc]

theorem ofText_typed {ty n : String} (plain : PlainType ty.toList) (named : n ≠ "")
    (nameChars : ∀ c ∈ n.toList, isNameChar c = true) :
    ∃ p, Parameter.ofText (ty ++ " " ++ n) = .ok (some p) ∧ p.name = n ∧
      hoistKeywords (String.ofList (squash ty.toList)) [] = (p.ty, p.modifiers) := by
  obtain ⟨gap, between, core⟩ := core?_typed plain named nameChars
  have space : Blank (gap ++ [' ']) := by
    intro c mem
    rcases List.mem_append.mp mem with inside | last
    · exact between c inside
    · exact Text.blank_space c last
  have front : trim (trim ty.toList ++ gap ++ [' ']) = trim ty.toList := by
    rw [List.append_assoc]
    exact Text.trim_append_blank (Text.trimmed_trim _) space
  have filled : n.toList ≠ [] := (isWord_of_named named nameChars).filled
  refine ⟨_, ofText_of_core core (by decide) nameChars (by decide) filled ?_, ?_, ?_⟩
  · rw [front]
    exact plain.filled
  · exact String.ofList_toList
  · have added : addKeywords [] (keywordRun ty.toList) =
        (keywordRun ty.toList).filter (· != "this") := by
      rw [addKeywords_of_nodup (by simpa using plain.once), List.nil_append]
    simp only [hoistKeywords, String.toList_ofList, splitKeywords_trim_squash, front,
      splitKeywords_trim_fst, added]

/-! ### The parts -/

/-- The passing keywords in some parts from left to right: modifiers, and what stands in front of a
type. -/
def keywordsOf (parts : List Tree) : List String :=
  parts.flatMap fun t =>
    if t.hasPart .modifier then [t.text].filter passingKeywords.contains
    else if t.hasPart .type then keywordRun t.text.toList
    else []

theorem keywordsOf_untyped {parts : List Tree} (untyped : ∀ t ∈ parts, t.hasPart .type = false) :
    keywordsOf parts = (modifiersOf parts).filter passingKeywords.contains := by
  induction parts with
  | nil => rfl
  | cons t parts ih =>
    obtain ⟨first, others⟩ := List.forall_mem_cons.mp untyped
    have rest := ih others
    unfold keywordsOf modifiersOf at rest ⊢
    rw [List.flatMap_cons, rest]
    cases own : t.hasPart .modifier with
    | true =>
      rw [List.filter_cons_of_pos own, List.map_cons, if_pos rfl]
      exact (List.filter_append [t.text] _).symm
    | false => simp [own, first]

/-- Where the type comes last, the keywords in front of it follow the modifiers. -/
theorem keywordsOf_typed {parts : List Tree} {type : Tree}
    (found : parts.find? (·.hasPart .type) = some type)
    (unmodified : NoneBehind .type .modifier parts) (once : NoneBehind .type .type parts) :
    keywordsOf parts =
      (modifiersOf parts).filter passingKeywords.contains ++ keywordRun type.text.toList := by
  obtain ⟨own, front, back, rfl, untyped⟩ := List.find?_eq_some_iff_append.mp found
  have other : type.hasPart .modifier = false := by
    cases type with
    | leaf => rfl
    | node p _ =>
      have same : Part.type = p := of_decide_eq_true own
      subst same
      rfl
  have inFront : keywordsOf front = (modifiersOf front).filter passingKeywords.contains := by
    apply keywordsOf_untyped
    intro t mem
    simpa using untyped t mem
  have behind (q : Part) (order : NoneBehind .type q (front ++ type :: back)) :
      ∀ t ∈ back, t.hasPart q = false := by
    intro t mem
    have inner := (List.pairwise_append.mp order).2.1
    exact (List.pairwise_cons.mp inner).1 t mem own
  have bare : back.filter (·.hasPart .modifier) = [] := by
    apply List.filter_eq_nil_iff.mpr
    intro t mem
    simp [behind .modifier unmodified t mem]
  have inBack : keywordsOf back = [] := by
    rw [keywordsOf_untyped (behind .type once), modifiersOf, bare]
    rfl
  have modifiers : modifiersOf (front ++ type :: back) = modifiersOf front := by
    simp [modifiersOf, other, bare]
  rw [modifiers, ← inFront]
  have split : keywordsOf (front ++ type :: back) =
      keywordsOf front ++ (keywordRun type.text.toList ++ keywordsOf back) := by
    simp [keywordsOf, own, other]
  rw [split, inBack, List.append_nil]

theorem parameterOf_typed {p : Part} {parts : List Tree} {name type : Tree}
    (named : parts.find? (·.hasPart .name) = some name)
    (typed : parts.find? (·.hasPart .type) = some type) :
    parameterOf (.node p parts) = .ok (some {
      name := name.text
      ty := String.ofList (squash (splitKeywords (trim type.text.toList)).2)
      modifiers := addKeywords
        (((modifiersOf parts).filter passingKeywords.contains).filter (· != "this"))
        (keywordRun type.text.toList) }) := by
  simp only [parameterOf, Tree.child?, Tree.children, named, typed, hoistKeywords, squashedText,
    String.toList_ofList, splitKeywords_trim_squash, List.filter_filter, Bool.and_comm]

/-- A parameter with a name and a type has the keywords of its parts as modifiers. -/
def readInOrder (p : Part) (parts : List Tree) : Prop :=
  p = .parameter → ∀ name type, parts.find? (·.hasPart .name) = some name →
    parts.find? (·.hasPart .type) = some type →
      ∃ q, parameterOf (.node p parts) = .ok (some q) ∧ q.name = name.text ∧
        KeptInOrder q.modifiers (keywordsOf parts)

theorem readInOrder_of_typeLast {p : Part} {parts : List Tree} (last : Grammar.typeLast p parts) :
    readInOrder p parts := by
  intro parameter name type named typed
  obtain ⟨unmodified, once⟩ := last parameter
  refine ⟨_, parameterOf_typed named typed, rfl, ?_⟩
  rw [keywordsOf_typed typed unmodified once]
  exact keptInOrder_addKeywords _ _

/-- **The two readers of a parameter agree.** A type and a name with a space between them are read
from their text, and the type and the modifiers are those that come from taking the keywords off the
squashed type. Whichever way a parameter is read, its modifiers are passing keywords in the order of
the source, and `this` is none of them. -/
theorem readers_agree :
    (∀ ty n : String, PlainType ty.toList → n ≠ "" → (∀ c ∈ n.toList, isNameChar c = true) →
      ∃ p, Parameter.ofText (ty ++ " " ++ n) = .ok (some p) ∧ p.name = n ∧
        hoistKeywords (String.ofList (squash ty.toList)) [] = (p.ty, p.modifiers)) ∧
    (∀ raw p, Parameter.ofText raw = .ok (some p) →
      ∃ core, core? raw = some core ∧ KeptInOrder p.modifiers (keywordRun (splitName core).1)) ∧
    ∀ source trees, parse? source = some trees → AllShaped readInOrder trees := by
  refine ⟨fun ty n => ofText_typed, fun raw p => ofText_modifiers, ?_⟩
  intro source trees parsed
  exact (typeLast_of_parse? parsed).mono fun _ _ => readInOrder_of_typeLast

/-- A method one of whose parameters has a function as its default, with a modifier in it. -/
def defaultedSource : String :=
  "class C \x7b int F(this ref int x, F f = () => \x7b const int y = 1; \x7d) => 1; \x7d"

/-- A type that is a keyword itself, a keyword that comes twice, and the parameters of a method. -/
theorem readers_agree_keywords :
    (PlainType "this  scoped\tref".toList ∧
      ∃ p, Parameter.ofText ("this  scoped\tref" ++ " " ++ "x") = .ok (some p) ∧ p.name = "x" ∧
        hoistKeywords "this scoped ref" [] = (p.ty, p.modifiers)) ∧
    (Parameter.ofText "ref ref int x = 1" =
        .ok (some { name := "x", ty := "int", modifiers := ["ref", "ref"] }) ∧
      ∃ core, core? "ref ref int x = 1" = some core ∧
        KeptInOrder ["ref", "ref"] (keywordRun (splitName core).1)) ∧
    ∃ trees, parse? defaultedSource = some trees ∧ AllShaped readInOrder trees ∧
      ((trees.flatMap (·.children)).flatMap fun body => body.children.flatMap fun method =>
        (method.children.filter (·.hasPart .parameters)).flatMap fun list =>
          (list.children.filter (·.hasPart .parameter)).map fun t => keywordsOf t.children) =
        [["this", "ref"], []] := by
  obtain ⟨typed, texts, sources⟩ := readers_agree
  have plain : PlainType "this  scoped\tref".toList :=
    ⟨by decide, by decide, by decide, by decide⟩
  have nameChars : ∀ c ∈ "x".toList, isNameChar c = true := List.all_eq_true.mp (by decide)
  have read : Parameter.ofText "ref ref int x = 1" =
      .ok (some { name := "x", ty := "int", modifiers := ["ref", "ref"] }) := by decide
  refine ⟨⟨plain, typed _ "x" plain (by decide) nameChars⟩, ⟨read, texts _ _ read⟩, ?_⟩
  have evaluated : (parse? defaultedSource).map (fun trees =>
      (trees.flatMap (·.children)).flatMap fun body => body.children.flatMap fun method =>
        (method.children.filter (·.hasPart .parameters)).flatMap fun list =>
          (list.children.filter (·.hasPart .parameter)).map fun t => keywordsOf t.children) =
      some [["this", "ref"], []] := by
    decide +kernel
  obtain ⟨trees, parsed, found⟩ := Option.map_eq_some_iff.mp evaluated
  exact ⟨trees, parsed, sources _ _ parsed, found⟩

end Forwarding
