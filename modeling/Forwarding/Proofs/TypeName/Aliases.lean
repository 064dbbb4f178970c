import Forwarding.Proofs.TypeName.Chains
import Mathlib.Data.List.Basic

/-!
Aliases in a type text. A name that is an alias stands for the text of its target.

For the head of a chain this goes wrong in two ways. The target is shown on its own and the rest of
the chain behind it, so that the two are never looked up together: the name through the alias and
the name spelled out agree exactly where neither the target nor the name spelled out is replaced by
anything. And an alias in front of `::` is not expanded at all (`canonical_aliasHead_iff`).
-/

namespace Forwarding.TypeName

open Text (isBlank isNameChar)

/-! ### Leaving the aliases out -/

/-- The same directives and project types without the aliases. -/
def Context.withoutAliases (ctx : Context) : Context :=
  { ctx with usings := ctx.usings.withoutAliases }

theorem canonicalName_withoutAliases (ctx : Context) :
    canonicalName ctx.withoutAliases = plainName ctx := by
  funext chain
  unfold canonicalName plainName
  cases rooted? chain <;> rfl

/-- An alias's target is read as any type text is where there are no aliases. -/
theorem canonical_withoutAliases (ctx : Context) (raw : String) :
    canonical ctx.withoutAliases raw = String.ofList (aliasText ctx raw) := by
  rw [canonical, canonicalName_withoutAliases]
  rfl

/-! ### Heads of chains -/

theorem splitAtFirst_append {p : Char → Bool} {front : List Char}
    (clear : ∀ c ∈ front, p c = false) (back : List Char) :
    Text.splitAtFirst p (front ++ back) =
      (Text.splitAtFirst p back).map fun parts => (front ++ parts.1, parts.2) := by
  induction front with
  | nil => simp
  | cons c front ih =>
    rw [List.cons_append, Text.splitAtFirst, clear c List.mem_cons_self,
      ih fun d mem => clear d (List.mem_cons_of_mem c mem)]
    cases Text.splitAtFirst p back <;> rfl

theorem headTail_append {front : List Char} (dotless : '.' ∉ front) (back : List Char) :
    headTail (front ++ back) = (front ++ (headTail back).1, (headTail back).2) := by
  have clear : ∀ c ∈ front, (c == '.') = false := by
    intro c mem
    apply beq_false_of_ne
    rintro rfl
    exact dotless mem
  unfold headTail
  rw [splitAtFirst_append clear]
  cases Text.splitAtFirst (· == '.') back <;> rfl

theorem headTail_dot {front : List Char} (dotless : '.' ∉ front) (rest : List Char) :
    headTail (front ++ '.' :: rest) = (front, some rest) := by
  rw [headTail_append dotless]
  simp [headTail, Text.splitAtFirst]

theorem headTail_of_dotless {chain : List Char} (dotless : '.' ∉ chain) :
    headTail chain = (chain, none) := by
  have split := headTail_append dotless []
  rw [List.append_nil] at split
  rw [split]
  simp [headTail, Text.splitAtFirst]

theorem headTail_word (w : Word) : headTail w.chars = (w.chars, none) :=
  headTail_of_dotless (w.not_mem rfl)

theorem exists_tail {chain : List Char} (dot : '.' ∈ chain) :
    ∃ tail, (headTail chain).2 = some tail := by
  obtain ⟨front, rest, rfl, dotless⟩ := List.eq_append_cons_of_mem dot
  rw [headTail_dot dotless]
  exact ⟨rest, rfl⟩

/-- A name with a dot in it is looked up only among the keywords. -/
theorem placedName_of_dot {ctx : Context} {chain : List Char}
    (noKeyword : keyword? ctx.usings chain = none) (dot : '.' ∈ chain) :
    placedName ctx chain = chain := by
  obtain ⟨tail, more⟩ := exists_tail dot
  simp only [placedName, noKeyword, more]

theorem placedName_of_dotless {ctx : Context} {chain : List Char}
    (noKeyword : keyword? ctx.usings chain = none) (dotless : '.' ∉ chain) :
    placedName ctx chain =
      ((ctx.index.unique? (String.ofList chain)).map (·.toList)).getD chain := by
  simp only [placedName, noKeyword, headTail_of_dotless dotless]

/-- All joints of the chain are dots. -/
def Chain.Dotted : Chain → Prop
  | .word _ => True
  | .link _ joint rest => joint = .dot ∧ rest.Dotted

theorem Chain.Dotted.append {a b : Chain} (ha : a.Dotted) (hb : b.Dotted) :
    (a.append .dot b).Dotted := by
  induction a with
  | word w => exact ⟨rfl, hb⟩
  | link w joint rest ih => exact ⟨ha.1, ih ha.2⟩

theorem Chain.Dotted.colonless {c : Chain} (dotted : c.Dotted) : ':' ∉ c.chars := by
  induction c with
  | word w => exact w.not_mem rfl
  | link w joint rest ih =>
    obtain ⟨rfl, dotted⟩ := dotted
    simp only [Chain.chars, Joint.chars, List.mem_append, List.mem_singleton, not_or]
    exact ⟨⟨w.not_mem rfl, by decide⟩, ih dotted⟩

theorem rooted?_of_colonless {chain : List Char} (colonless : ':' ∉ chain) :
    rooted? chain = none := by
  cases rooted : rooted? chain with
  | none => rfl
  | some rest =>
    rw [← List.append_eq_of_isPrefixOf?_eq_some rooted] at colonless
    exact absurd (List.mem_append_left rest (by decide)) colonless

theorem Chain.text_append (a : Chain) (joint : Joint) (b : Chain) :
    (a.append joint b).text = a.text ++ String.ofList joint.chars ++ b.text := by
  rw [Chain.text, Chain.chars_append, String.ofList_append, String.ofList_append]
  rfl

/-! ### Keywords of chains -/

theorem keyword?_named {u : Usings} {chain keyword : List Char}
    (found : keyword? u chain = some keyword) : keyword.all isNameChar = true := by
  obtain ⟨e, mem, rfl, -⟩ := keyword?_eq_some_iff.mp found
  exact (keywordTypes_lawful mem).keywordIsWord

theorem keyword?_of_colon {chain : List Char} (colon : ':' ∈ chain) (u : Usings) :
    keyword? u chain = none := by
  rw [keyword?_eq_none_iff]
  intro e mem
  have clear : ':' ∉ e.1.toList := not_mem_of_all (keywordTypes_lawful mem).nameIsWord rfl
  constructor
  · rintro rfl
    rcases List.mem_append.mp colon with colon | colon
    · exact absurd colon (by decide)
    · exact clear colon
  · rintro - rfl
    exact clear colon

/-- Of the names with a dot in them, only `System.` and a primitive name have a keyword. -/
theorem isSome_keyword?_dot (u : Usings) (front back : List Char) :
    (keyword? u (front ++ '.' :: back)).isSome = true ↔
      String.ofList front = "System" ∧ isPrimitive (String.ofList back) = true := by
  constructor
  · intro found
    obtain ⟨keyword, found⟩ := Option.isSome_iff_exists.mp found
    obtain ⟨e, mem, -, shape⟩ := keyword?_eq_some_iff.mp found
    have clear : '.' ∉ e.1.toList := not_mem_of_all (keywordTypes_lawful mem).nameIsWord rfl
    rcases shape with qualified | ⟨-, bare⟩
    · have parts : "System".toList ++ '.' :: e.1.toList = front ++ '.' :: back := qualified.symm
      obtain ⟨rfl, -, rfl⟩ := (List.append_cons_inj_of_notMem (by decide) clear).mp parts
      refine ⟨String.ofList_toList, isPrimitive_iff.mpr ⟨e.2, ?_⟩⟩
      rw [String.ofList_toList]
      exact mem
    · rw [← bare] at clear
      exact absurd (List.mem_append_right front List.mem_cons_self) clear
  · rintro ⟨system, primitive⟩
    have qualified : front ++ '.' :: back = "System.".toList ++ back := by
      rw [← String.toList_ofList (l := front), system]
      rfl
    rw [qualified, keyword?_qualified, Option.isSome_map]
    exact primitive

section

variable {ctx : Context} {head : Word} {target tail : Chain}

/-- What an alias in front of a dot is replaced by. -/
theorem canonical_aliasHead (known : ctx.usings.alias? head.text = some target.text)
    (dotted : tail.Dotted) :
    canonical ctx (head.text ++ "." ++ tail.text) =
      canonical ctx.withoutAliases target.text ++ "." ++ tail.text := by
  have whole : (Chain.link head .dot tail).text = head.text ++ "." ++ tail.text :=
    Chain.text_append (.word head) .dot tail
  have colonless : ':' ∉ (Chain.link head .dot tail).chars := Chain.Dotted.colonless ⟨rfl, dotted⟩
  have split : headTail (Chain.link head .dot tail).chars = (head.chars, some tail.chars) := by
    rw [Chain.chars, List.append_assoc]
    exact headTail_dot (head.not_mem rfl) tail.chars
  have expands : ctx.usings.alias? (String.ofList (headTail (Chain.link head .dot tail).chars).1) =
      some target.text := by
    rw [split]
    exact known
  have rest : String.ofList (['.'] ++ tail.chars) = "." ++ tail.text := String.ofList_append
  rw [← whole, canonical_chain, canonicalName_of_alias (rooted?_of_colonless colonless) expands,
    split, canonical_withoutAliases, String.ofList_append, String.append_assoc, ← rest]
  rfl

/-- A dotted name with at least one dot is its own canonical form, unless it has a keyword. -/
theorem canonical_spelledOut (targetDotted : target.Dotted) (tailDotted : tail.Dotted) :
    canonical ctx.withoutAliases (target.text ++ "." ++ tail.text) =
      String.ofList ((keyword? ctx.usings (target.append .dot tail).chars).getD
        (target.append .dot tail).chars) := by
  have whole : (target.append .dot tail).text = target.text ++ "." ++ tail.text :=
    Chain.text_append target .dot tail
  have colonless := (targetDotted.append tailDotted).colonless
  have dot : '.' ∈ (target.append .dot tail).chars := by simp [Chain.chars_append, Joint.chars]
  obtain ⟨rest, more⟩ := exists_tail dot
  rw [← whole, canonical_chain, canonicalName_withoutAliases, plainName,
    rooted?_of_colonless colonless]
  simp only [placedName, more]
  cases keyword? ctx.usings (target.append .dot tail).chars <;> rfl

/-- The target and the rest of the chain are looked up apart, so what they show together is the name
spelled out only where nothing is there to be looked up. -/
theorem canonical_dot_iff (known : ctx.usings.alias? head.text = some target.text)
    (targetDotted : target.Dotted) (tailDotted : tail.Dotted) :
    canonical ctx (head.text ++ "." ++ tail.text) =
        canonical ctx.withoutAliases (target.text ++ "." ++ tail.text) ↔
      canonical ctx.withoutAliases target.text = target.text ∧
        ¬ (target.text = "System" ∧ isPrimitive tail.text = true) := by
  have whole : (target.append .dot tail).text = target.text ++ "." ++ tail.text :=
    Chain.text_append target .dot tail
  have keywords := isSome_keyword?_dot ctx.usings target.chars tail.chars
  rw [← List.singleton_append, ← List.append_assoc] at keywords
  have chars : (target.append .dot tail).chars = target.chars ++ ['.'] ++ tail.chars :=
    Chain.chars_append target .dot tail
  rw [← chars] at keywords
  rw [canonical_aliasHead known tailDotted, canonical_spelledOut targetDotted tailDotted]
  cases found : keyword? ctx.usings (target.append .dot tail).chars with
  | none =>
    rw [found] at keywords
    have other : ¬ (target.text = "System" ∧ isPrimitive tail.text = true) := by
      intro special
      cases keywords.mpr special
    rw [Option.getD_none, ← Chain.text, whole, String.append_left_inj, String.append_left_inj]
    exact ⟨fun same => ⟨same, other⟩, And.left⟩
  | some keyword =>
    rw [found] at keywords
    constructor
    · intro same
      have dot : '.' ∈ (canonical ctx.withoutAliases target.text ++ "." ++ tail.text).toList := by
        simp
      rw [same, Option.getD_some, String.toList_ofList] at dot
      exact absurd dot (not_mem_of_all (keyword?_named found) rfl)
    · rintro ⟨-, other⟩
      exact absurd (keywords.mp rfl) other

/-- No alias and no project type has a colon in its name, as it is with the names that a source can
declare. -/
structure Context.Colonless (ctx : Context) : Prop where
  aliases : ∀ e ∈ ctx.usings.aliases, ':' ∉ e.1.toList
  types : ∀ e ∈ ctx.index.entries, ':' ∉ e.1.toList

theorem Context.Colonless.alias?_of_colon (colonless : ctx.Colonless) {name : List Char}
    (colon : ':' ∈ name) : ctx.usings.alias? (String.ofList name) = none := by
  cases known : ctx.usings.alias? (String.ofList name) with
  | none => rfl
  | some target =>
    have clear := colonless.aliases _ (Table.mem_of_lookup known)
    rw [String.toList_ofList] at clear
    exact absurd colon clear

theorem Context.Colonless.unique?_of_colon (colonless : ctx.Colonless) {name : List Char}
    (colon : ':' ∈ name) : ctx.index.unique? (String.ofList name) = none := by
  have unlisted : ctx.index.entries.filter (fun e => e.1 = String.ofList name) = [] := by
    rw [List.filter_eq_nil_iff]
    intro e mem
    have clear := colonless.types e mem
    rw [decide_eq_true_eq]
    intro same
    rw [same, String.toList_ofList] at clear
    exact clear colon
  rw [TypeIndex.unique?, unlisted]

theorem rooted?_colons (differ : head.text ≠ "global") (rest : List Char) :
    rooted? (head.chars ++ ':' :: ':' :: rest) = none := by
  cases rooted : rooted? (head.chars ++ ':' :: ':' :: rest) with
  | none => rfl
  | some r =>
    have same : "global::".toList ++ r = head.chars ++ ':' :: ':' :: rest :=
      List.append_eq_of_isPrefixOf?_eq_some rooted
    -- Both sides start with a word, and it ends at the first colon.
    have ends : ("global::".toList ++ r).takeWhile isNameChar = "global".toList := rfl
    have colon : (':' :: ':' :: rest).takeWhile isNameChar = [] := rfl
    rw [same, List.takeWhile_append_of_pos (List.all_eq_true.mp head.named), colon,
      List.append_nil] at ends
    rw [Word.text, ends, String.ofList_toList] at differ
    exact absurd rfl differ

/-- A word in front of `::` is left as it is written, also where it is an alias. -/
theorem canonicalName_colons (colonless : ctx.Colonless) (differ : head.text ≠ "global")
    (rest : List Char) :
    canonicalName ctx (head.chars ++ ':' :: ':' :: rest) = head.chars ++ ':' :: ':' :: rest := by
  have colon : ':' ∈ head.chars ++ ':' :: ':' :: rest := by simp
  have colonInHead : ':' ∈ (headTail (head.chars ++ ':' :: ':' :: rest)).1 := by
    have dotless : '.' ∉ head.chars ++ [':'] := by simp [head.not_mem (c := '.') rfl]
    have split := headTail_append dotless (':' :: rest)
    rw [List.append_assoc, List.singleton_append] at split
    simp [split]
  rw [canonicalName, rooted?_colons differ, colonless.alias?_of_colon colonInHead]
  simp only [placedName, keyword?_of_colon colon, colonless.unique?_of_colon colon]
  cases (headTail (head.chars ++ ':' :: ':' :: rest)).2 <;> rfl

theorem canonical_colons (colonless : ctx.Colonless) (differ : head.text ≠ "global") :
    canonical ctx (head.text ++ "::" ++ tail.text) = head.text ++ "::" ++ tail.text := by
  have whole : (Chain.link head .colons tail).text = head.text ++ "::" ++ tail.text :=
    Chain.text_append (.word head) .colons tail
  have chars : (Chain.link head .colons tail).chars = head.chars ++ ':' :: ':' :: tail.chars := by
    simp [Chain.chars, Joint.chars]
  rw [← whole, canonical_chain, Chain.text, chars, canonicalName_colons colonless differ]

/-- **Names through an alias.** With a dot behind the alias, the canonical form is that of the name
spelled out exactly if the target alone is shown as it is written and the whole is no primitive name
behind `System.`. With `::` behind it the alias stays, and the form is never that of the name
spelled out. -/
theorem canonical_aliasHead_iff (known : ctx.usings.alias? head.text = some target.text)
    (targetDotted : target.Dotted) (tailDotted : tail.Dotted) :
    (canonical ctx (head.text ++ "." ++ tail.text) =
        canonical ctx.withoutAliases (target.text ++ "." ++ tail.text) ↔
      canonical ctx.withoutAliases target.text = target.text ∧
        ¬ (target.text = "System" ∧ isPrimitive tail.text = true)) ∧
    (ctx.Colonless → head.text ≠ "global" →
      canonical ctx (head.text ++ "::" ++ tail.text) = head.text ++ "::" ++ tail.text ∧
      canonical ctx (head.text ++ "::" ++ tail.text) ≠
        canonical ctx.withoutAliases (target.text ++ "." ++ tail.text)) := by
  refine ⟨canonical_dot_iff known targetDotted tailDotted, ?_⟩
  intro colonless differ
  have kept : canonical ctx (head.text ++ "::" ++ tail.text) = head.text ++ "::" ++ tail.text :=
    canonical_colons colonless differ
  refine ⟨kept, ?_⟩
  intro same
  have colon : ':' ∈ (head.text ++ "::" ++ tail.text).toList := by simp
  rw [← kept, same, canonical_spelledOut targetDotted tailDotted, String.toList_ofList] at colon
  cases found : keyword? ctx.usings (target.append .dot tail).chars with
  | none =>
    rw [found] at colon
    exact (targetDotted.append tailDotted).colonless colon
  | some keyword =>
    rw [found] at colon
    exact not_mem_of_all (keyword?_named found) rfl colon

/-- An alias of a namespace: it is transparent in front of a dot, and stays in front of `::`. -/
theorem canonical_aliasHead_iff_collections :
    let ctx : Context := { usings := { aliases := [("Col", "System.Collections")] } }
    let head : Word := ⟨"Col".toList, by decide, by decide⟩
    let target : Chain := .link ⟨"System".toList, by decide, by decide⟩ .dot
      (.word ⟨"Collections".toList, by decide, by decide⟩)
    let tail : Chain := .word ⟨"ArrayList".toList, by decide, by decide⟩
    ctx.usings.alias? head.text = some target.text ∧ target.Dotted ∧ tail.Dotted ∧
      ctx.Colonless ∧ head.text ≠ "global" ∧
      canonical ctx (head.text ++ "." ++ tail.text) =
        canonical ctx.withoutAliases (target.text ++ "." ++ tail.text) ∧
      canonical ctx (head.text ++ "::" ++ tail.text) = head.text ++ "::" ++ tail.text := by
  intro ctx head target tail
  have known : ctx.usings.alias? head.text = some target.text := by decide
  have targetDotted : target.Dotted := ⟨rfl, trivial⟩
  have colonless : ctx.Colonless := ⟨by simp [ctx], by simp [ctx]⟩
  have differ : head.text ≠ "global" := by decide
  have main := canonical_aliasHead_iff known targetDotted (show tail.Dotted from trivial)
  exact ⟨known, targetDotted, trivial, colonless, differ,
    main.1.mpr ⟨by decide +kernel, by decide⟩, (main.2 colonless differ).1⟩

/-- With an alias of `System` the primitive types are not recognised, neither behind a dot nor
behind `::`. -/
theorem canonical_aliasHead_system :
    let ctx : Context := { usings := { aliases := [("S", "System")] } }
    canonical ctx "S.Int32" = "System.Int32" ∧ canonical ctx "S::Int32" = "S::Int32" ∧
      canonical ctx.withoutAliases "System.Int32" = "int" := by
  decide +kernel

end

end Forwarding.TypeName
