import Forwarding.Table
import Forwarding.Proofs.TypeName.Tokens
import Mathlib.Data.List.Basic

/-!
Name chains: words joined by `.` or `::`. A chain is a type text with one token, so its canonical
form is its canonical name (`canonical_chain`).

A chain behind `global::` starts at the root of all namespaces. The directives of the file cannot
change what it stands for, and aliases and project types are left out of its canonical form; but a
bare primitive name is still shown by its keyword where `System` is imported
(`canonical_rooted_eq_iff`).
-/

namespace Forwarding.TypeName

open Text (isBlank isNameChar)

/-! ### Chains as texts -/

/-- What stands between two words of a chain. -/
inductive Joint where
  | dot
  | colons

def Joint.chars : Joint → List Char
  | .dot => ['.']
  | .colons => [':', ':']

def Joint.lexeme : Joint → Lexeme
  | .dot => .mark '.'
  | .colons => .doubleColon

/-- Words with a joint between neighbours. -/
inductive Chain where
  | word (w : Word)
  | link (w : Word) (joint : Joint) (rest : Chain)

def Word.text (w : Word) : String := String.ofList w.chars

def Chain.chars : Chain → List Char
  | .word w => w.chars
  | .link w joint rest => w.chars ++ joint.chars ++ rest.chars

def Chain.text (c : Chain) : String := String.ofList c.chars

/-- Two chains with a joint between them. -/
def Chain.append : Chain → Joint → Chain → Chain
  | .word w, joint, c => .link w joint c
  | .link w inner rest, joint, c => .link w inner (rest.append joint c)

theorem Chain.chars_append (a : Chain) (joint : Joint) (b : Chain) :
    (a.append joint b).chars = a.chars ++ joint.chars ++ b.chars := by
  induction a with
  | word w => rfl
  | link w inner rest ih =>
    simp only [Chain.append, Chain.chars, ih, List.append_assoc]

theorem lexemes_joint (joint : Joint) (cs : List Char) :
    lexemes (joint.chars ++ cs) = joint.lexeme :: lexemes cs := by
  cases joint with
  | dot => exact lexemes_mark (by decide) (by decide) fun dot => absurd dot (by decide)
  | colons => exact lexemes_colons cs

theorem joinChains_joint (joint : Joint) (ls : List Lexeme) :
    joinChains (joint.lexeme :: ls) = joint.chars.map .mark ++ joinChains ls := by
  cases joint <;> rfl

theorem joinChains_link (w : List Char) (joint : Joint) (ls : List Lexeme) :
    joinChains (.word w :: joint.lexeme :: ls) = Token.link w joint.chars (joinChains ls) := by
  cases joint <;> rfl

theorem Token.link_cases (w sep : List Char) (ts : List Token) :
    Token.link w sep ts = .name w :: (sep.map .mark ++ ts) ∨
      ∃ chain us, ts = .name chain :: us ∧
        Token.link w sep ts = .name (w ++ sep ++ chain) :: us := by
  cases ts with
  | nil => exact .inl rfl
  | cons t ts =>
    cases t with
    | name chain => exact .inr ⟨chain, ts, rfl, rfl⟩
    | mark c => exact .inl rfl

/-- The word at the start of a text is a name of its own, or it grows over a joint with the name
that follows. -/
theorem joinChains_word_cases (w : List Char) (ls : List Lexeme) :
    joinChains (.word w :: ls) = .name w :: joinChains ls ∨
      ∃ (joint : Joint) (chain : List Char) (ts : List Token),
        joinChains ls = joint.chars.map .mark ++ .name chain :: ts ∧
          joinChains (.word w :: ls) = .name (w ++ joint.chars ++ chain) :: ts := by
  by_cases grows : ∃ joint rest, ls = Joint.lexeme joint :: rest
  · obtain ⟨joint, rest, rfl⟩ := grows
    rw [joinChains_link, joinChains_joint]
    rcases Token.link_cases w joint.chars (joinChains rest) with alone | ⟨chain, ts, next, grown⟩
    · exact .inl alone
    · exact .inr ⟨joint, chain, ts, by rw [next], grown⟩
  · refine .inl (joinChains_word w ⟨?_, ?_⟩) <;> intro first <;>
      obtain ⟨rest, rfl⟩ := List.head?_eq_some_iff.mp first
    · exact grows ⟨.dot, rest, rfl⟩
    · exact grows ⟨.colons, rest, rfl⟩

theorem tokenize_link (w : Word) (joint : Joint) (cs : List Char) :
    tokenize (w.chars ++ joint.chars ++ cs) = Token.link w.chars joint.chars (tokenize cs) := by
  have stop : (joint.chars ++ cs).head?.any isNameChar = false := by cases joint <;> rfl
  rw [List.append_assoc, tokenize, lexemes_word w stop, lexemes_joint, joinChains_link]
  rfl

theorem tokenize_chain (c : Chain) : tokenize c.chars = [.name c.chars] := by
  induction c with
  | word w =>
    rw [tokenize, Chain.chars, lexemes_run w.nonempty w.named]
    rfl
  | link w joint rest ih => rw [Chain.chars, tokenize_link, ih, Token.link]

theorem canonical_chain (ctx : Context) (c : Chain) :
    canonical ctx c.text = String.ofList (canonicalName ctx c.chars) := by
  rw [canonical, Chain.text, String.toList_ofList, tokenize_chain, layout_name, layout_nil,
    List.append_nil]
  rfl

/-! ### Keywords -/

/-- The name of a primitive type of `System`. -/
def isPrimitive (name : String) : Bool :=
  (keywordTypes.lookup name).isSome

/-- What holds of a primitive name and its keyword. -/
structure LawfulKeyword (e : String × String) : Prop where
  found : keywordTypes.lookup e.1 = some e.2
  unqualified : "System.".toList.isPrefixOf? e.1.toList = none
  differ : e.1 ≠ e.2
  nameIsWord : e.1.toList.all isNameChar = true
  keywordIsWord : e.2.toList.all isNameChar = true

theorem keywordTypes_lawful {e : String × String} (mem : e ∈ keywordTypes) : LawfulKeyword e := by
  have checked : ∀ e ∈ keywordTypes,
      keywordTypes.lookup e.1 = some e.2 ∧ "System.".toList.isPrefixOf? e.1.toList = none ∧
        e.1 ≠ e.2 ∧ e.1.toList.all isNameChar ∧ e.2.toList.all isNameChar := by decide
  obtain ⟨found, unqualified, differ, nameIsWord, keywordIsWord⟩ := checked e mem
  exact ⟨found, unqualified, differ, nameIsWord, keywordIsWord⟩

theorem isPrimitive_iff {name : String} :
    isPrimitive name = true ↔ ∃ keyword, (name, keyword) ∈ keywordTypes := by
  rw [isPrimitive, Option.isSome_iff_exists]
  constructor
  · rintro ⟨keyword, found⟩
    exact ⟨keyword, Table.mem_of_lookup found⟩
  · rintro ⟨keyword, mem⟩
    exact ⟨keyword, (keywordTypes_lawful mem).found⟩

theorem keyword?_bare {e : String × String} (mem : e ∈ keywordTypes) (u : Usings) :
    keyword? u e.1.toList = if u.imports "System" then some e.2.toList else none := by
  have lawful := keywordTypes_lawful mem
  unfold keyword?
  simp only [lawful.unqualified, String.ofList_toList, lawful.found, Option.map_some]

theorem keyword?_qualified (u : Usings) (simple : List Char) :
    keyword? u ("System.".toList ++ simple) =
      (keywordTypes.lookup (String.ofList simple)).map (·.toList) := rfl

/-- The keywords are those of the primitive names, and a bare name needs the import. -/
theorem keyword?_eq_some_iff {u : Usings} {chain word : List Char} :
    keyword? u chain = some word ↔ ∃ e ∈ keywordTypes, word = e.2.toList ∧
      (chain = "System.".toList ++ e.1.toList ∨
        u.imports "System" = true ∧ chain = e.1.toList) := by
  constructor
  · intro found
    unfold keyword? at found
    split at found
    · rename_i simple qualified
      obtain ⟨keyword, listed, rfl⟩ := Option.map_eq_some_iff.mp found
      have whole : "System.".toList ++ simple = chain :=
        List.append_eq_of_isPrefixOf?_eq_some qualified
      refine ⟨_, Table.mem_of_lookup listed, rfl, .inl ?_⟩
      simp only [← whole, String.toList_ofList]
    · split at found
      · rename_i imported
        obtain ⟨keyword, listed, rfl⟩ := Option.map_eq_some_iff.mp found
        exact ⟨_, Table.mem_of_lookup listed, rfl, .inr ⟨imported, by simp⟩⟩
      · cases found
  · rintro ⟨e, mem, rfl, rfl | ⟨imported, rfl⟩⟩
    · rw [keyword?_qualified, String.ofList_toList, (keywordTypes_lawful mem).found]
      rfl
    · rw [keyword?_bare mem, if_pos imported]

theorem keyword?_eq_none_iff {u : Usings} {chain : List Char} :
    keyword? u chain = none ↔ ∀ e ∈ keywordTypes, chain ≠ "System.".toList ++ e.1.toList ∧
      (u.imports "System" = true → chain ≠ e.1.toList) := by
  rw [Option.eq_none_iff_forall_ne_some]
  constructor
  · intro unlisted e mem
    constructor
    · intro qualified
      exact unlisted _ (keyword?_eq_some_iff.mpr ⟨e, mem, rfl, .inl qualified⟩)
    · intro imported bare
      exact unlisted _ (keyword?_eq_some_iff.mpr ⟨e, mem, rfl, .inr ⟨imported, bare⟩⟩)
  · intro others word found
    obtain ⟨e, mem, -, qualified | ⟨imported, bare⟩⟩ := keyword?_eq_some_iff.mp found
    · exact (others e mem).1 qualified
    · exact (others e mem).2 imported bare

/-- Only bare primitive names look at the directives. -/
theorem keyword?_of_not_isPrimitive {chain : List Char}
    (other : isPrimitive (String.ofList chain) = false) (u v : Usings) :
    keyword? u chain = keyword? v chain := by
  have unlisted : keywordTypes.lookup (String.ofList chain) = none := by
    rwa [isPrimitive, Option.isSome_eq_false_iff, Option.isNone_iff_eq_none] at other
  unfold keyword?
  simp [unlisted]

/-! ### Chains from the root -/

/-- The word in front of a chain that starts at the root. -/
def Word.global : Word := ⟨"global".toList, by decide, by decide⟩

theorem text_rooted (r : Chain) : "global::" ++ r.text = (Chain.link .global .colons r).text := by
  rw [← String.ofList_toList (s := "global::"), Chain.text, Chain.text, ← String.ofList_append]
  rfl

theorem canonical_rooted (ctx : Context) (r : Chain) :
    canonical ctx ("global::" ++ r.text) = String.ofList (rootedName ctx r.chars) := by
  have rooted : rooted? (Chain.link .global .colons r).chars = some r.chars := rfl
  rw [text_rooted, canonical_chain, canonicalName, rooted]

/-- **What the directives can do to a rooted name.** It has the same canonical form in two files of
one project, except that a bare primitive name is shown by its keyword in the files that import
`System` and as it is written in the others. -/
theorem canonical_rooted_eq_iff (r : Chain) (index : TypeIndex) (u v : Usings) :
    canonical { usings := u, index } ("global::" ++ r.text) =
        canonical { usings := v, index } ("global::" ++ r.text) ↔
      (isPrimitive r.text = true → u.imports "System" = v.imports "System") := by
  rw [canonical_rooted, canonical_rooted, String.ofList_inj, rootedName, rootedName]
  cases primitive : isPrimitive r.text with
  | false => simp [keyword?_of_not_isPrimitive primitive u v]
  | true =>
    obtain ⟨keyword, mem⟩ := isPrimitive_iff.mp primitive
    have shown (w : Usings) : (keyword? w r.chars).getD r.chars =
        if w.imports "System" then keyword.toList else r.chars := by
      have bare := keyword?_bare mem w
      rw [Chain.text, String.toList_ofList] at bare
      rw [bare]
      split <;> rfl
    have differ : keyword.toList ≠ r.chars := by
      intro same
      apply (keywordTypes_lawful mem).differ
      rw [Chain.text, ← same, String.ofList_toList]
    rw [shown, shown]
    cases u.imports "System" <;> cases v.imports "System" <;> simp [differ, differ.symm]

/-- Two files that differ in one import: a type of the root namespace becomes the primitive type. -/
theorem canonical_rooted_int32 :
    canonical { usings := { namespaces := ["System"] } } "global::Int32" = "int" ∧
      canonical {} "global::Int32" = "Int32" ∧ "int" ≠ "Int32" := by
  decide +kernel

end Forwarding.TypeName
