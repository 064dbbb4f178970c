import Forwarding.Proofs.Text.Spacing
import Forwarding.Proofs.TypeName.Aliases
import Mathlib.Data.List.Basic

/-!
Names that cannot be placed. Reading a type text takes every character once, blanks apart, and in
the order of the text, also where a dot or a colon is left over because no word follows it
(`flatMap_tokenize`). Laying the tokens out again adds nothing but spaces. So a text none of whose
names can be placed comes back as it was written, up to white space (`removeBlanks_canonical`).
-/

namespace Forwarding.TypeName

open Text (isBlank isNameChar removeBlanks removeBlanks_append removeBlanks_blank
  removeBlanks_removeBlanks removeBlanks_visible)

/-! ### The characters of a text -/

def Lexeme.chars : Lexeme → List Char
  | .word w => w
  | .doubleColon => [':', ':']
  | .mark c => [c]

def Token.chars : Token → List Char
  | .name chain => chain
  | .mark c => [c]

theorem flatMap_extend (c : Char) (ls : List Lexeme) :
    (Lexeme.extend c ls).flatMap Lexeme.chars = c :: ls.flatMap Lexeme.chars := by
  cases ls with
  | nil => rfl
  | cons l ls => cases l <;> rfl

theorem flatMap_lexemes_name {c : Char} (name : isNameChar c = true) (cs : List Char) :
    (lexemes (c :: cs)).flatMap Lexeme.chars = c :: (lexemes cs).flatMap Lexeme.chars := by
  rw [lexemes_name name]
  split
  · exact flatMap_extend c (lexemes cs)
  · rfl

theorem flatMap_lexemes (cs : List Char) :
    (lexemes cs).flatMap Lexeme.chars = removeBlanks cs := by
  induction cs using lexemes.induct with
  | case1 => rfl
  | case2 cs ih =>
    rw [lexemes_colons, List.flatMap_cons, ih, removeBlanks_visible (by decide),
      removeBlanks_visible (by decide)]
    rfl
  | case3 c cs _ blank ih => rw [lexemes_blank blank, ih, removeBlanks_blank blank]
  | case4 c _ name _ =>
    rw [flatMap_lexemes_name name, removeBlanks_visible (not_isBlank_of_isNameChar name)]
    rfl
  | case5 c _ name d tail _ _ ih =>
    rw [flatMap_lexemes_name name, ih, removeBlanks_visible (not_isBlank_of_isNameChar name)]
  | case6 c _ name d tail _ _ ih =>
    rw [flatMap_lexemes_name name, ih, removeBlanks_visible (not_isBlank_of_isNameChar name)]
  | case7 c cs single visible nameless ih =>
    rw [Bool.not_eq_true] at visible nameless
    rw [lexemes_mark visible nameless (head?_ne_colon single), List.flatMap_cons, ih,
      removeBlanks_visible visible]
    rfl

/-- A separator is kept whether a chain grows over it or not. -/
theorem flatMap_link (w sep : List Char) (ts : List Token) :
    (Token.link w sep ts).flatMap Token.chars = w ++ sep ++ ts.flatMap Token.chars := by
  have marks : (sep.map Token.mark).flatMap Token.chars = sep := by
    rw [List.flatMap_map]
    exact List.flatMap_singleton' sep
  cases ts with
  | nil => simp [Token.link, Token.chars, marks]
  | cons t ts => cases t <;> simp [Token.link, Token.chars, marks]

theorem flatMap_joinChains (ls : List Lexeme) :
    (joinChains ls).flatMap Token.chars = ls.flatMap Lexeme.chars := by
  induction ls using joinChains.induct with
  | case1 => rfl
  | case2 w rest ih => rw [joinChains, flatMap_link, ih]; simp [Lexeme.chars]
  | case3 w rest ih => rw [joinChains, flatMap_link, ih]; simp [Lexeme.chars]
  | case4 w rest dotless colonless ih =>
    rw [joinChains, List.flatMap_cons, List.flatMap_cons, ih]
    · rfl
    · exact dotless
    · exact colonless
  | case5 rest ih => rw [joinChains, List.flatMap_cons, List.flatMap_cons, ih]; rfl
  | case6 c rest ih => rw [joinChains, List.flatMap_cons, List.flatMap_cons, ih]; rfl

/-- No character is lost, added, doubled or moved. -/
theorem flatMap_tokenize (cs : List Char) :
    (tokenize cs).flatMap Token.chars = removeBlanks cs := by
  rw [tokenize, flatMap_joinChains, flatMap_lexemes]

theorem removeBlanks_markText (rank : Nat) (c : Char) :
    removeBlanks (markText rank c) = removeBlanks [c] := by
  unfold markText
  split
  · rename_i comma
    rw [comma.1]
    rfl
  · rfl

theorem removeBlanks_layout {rename : List Char → List Char} {ts : List Token}
    (kept : ∀ chain, .name chain ∈ ts → rename chain = chain) (afterName : Bool) (rank : Nat) :
    removeBlanks (layout rename afterName rank ts) = removeBlanks (ts.flatMap Token.chars) := by
  induction ts generalizing afterName rank with
  | nil => rw [layout_nil, List.flatMap_nil]
  | cons t ts ih =>
    have later := ih fun chain mem => kept chain (List.mem_cons_of_mem t mem)
    cases t with
    | name chain =>
      have shown : removeBlanks (if afterName then ' ' :: chain else rename chain) =
          removeBlanks chain := by
        split
        · exact removeBlanks_blank (by decide) chain
        · rw [kept chain List.mem_cons_self]
      rw [layout_name, List.flatMap_cons, removeBlanks_append, removeBlanks_append, shown, later]
      rfl
    | mark c =>
      rw [layout_mark, List.flatMap_cons, removeBlanks_append, removeBlanks_append,
        removeBlanks_markText, later]
      rfl

/-! ### Names that have no other form -/

/-- Nothing is known about the chain: it is not rooted, its first segment is no alias, it is no
primitive type that can be seen, and it is not the simple name of one type of the project. -/
structure Unplaced (ctx : Context) (chain : List Char) : Prop where
  not_rooted : ¬ "global::".toList <+: chain
  not_alias : ctx.usings.alias? (String.ofList (chain.takeWhile (· != '.'))) = none
  not_qualified : ∀ e ∈ keywordTypes, chain ≠ "System.".toList ++ e.1.toList
  not_imported : ctx.usings.imports "System" = true → ∀ e ∈ keywordTypes, chain ≠ e.1.toList
  not_indexed : '.' ∉ chain → ctx.index.unique? (String.ofList chain) = none

instance (ctx : Context) (chain : List Char) : Decidable (Unplaced ctx chain) :=
  decidable_of_iff
    (¬ "global::".toList <+: chain ∧
      ctx.usings.alias? (String.ofList (chain.takeWhile (· != '.'))) = none ∧
      (∀ e ∈ keywordTypes, chain ≠ "System.".toList ++ e.1.toList) ∧
      (ctx.usings.imports "System" = true → ∀ e ∈ keywordTypes, chain ≠ e.1.toList) ∧
      ('.' ∉ chain → ctx.index.unique? (String.ofList chain) = none))
    ⟨fun ⟨rooted, known, qualified, imported, indexed⟩ =>
        ⟨rooted, known, qualified, imported, indexed⟩,
      fun ⟨rooted, known, qualified, imported, indexed⟩ =>
        ⟨rooted, known, qualified, imported, indexed⟩⟩

theorem takeWhile_of_dotless {front : List Char} (dotless : '.' ∉ front) (back : List Char) :
    (front ++ back).takeWhile (· != '.') = front ++ back.takeWhile (· != '.') := by
  apply List.takeWhile_append_of_pos
  intro c mem
  rw [bne_iff_ne]
  rintro rfl
  exact dotless mem

theorem headTail_fst (chain : List Char) :
    (headTail chain).1 = chain.takeWhile (· != '.') := by
  by_cases dot : '.' ∈ chain
  · obtain ⟨front, rest, rfl, dotless⟩ := List.eq_append_cons_of_mem dot
    rw [headTail_dot dotless, takeWhile_of_dotless dotless]
    simp
  · have whole := takeWhile_of_dotless dot []
    rw [List.append_nil, List.takeWhile_nil, List.append_nil] at whole
    rw [headTail_of_dotless dot, whole]

theorem Unplaced.keyword?_eq_none {ctx : Context} {chain : List Char}
    (unplaced : Unplaced ctx chain) : keyword? ctx.usings chain = none := by
  rw [keyword?_eq_none_iff]
  intro e mem
  exact ⟨unplaced.not_qualified e mem, fun imported => unplaced.not_imported imported e mem⟩

theorem Unplaced.canonicalName_eq {ctx : Context} {chain : List Char}
    (unplaced : Unplaced ctx chain) : canonicalName ctx chain = chain := by
  have rootless : rooted? chain = none := by
    cases rooted : rooted? chain with
    | none => rfl
    | some rest =>
      exact absurd ⟨rest, List.append_eq_of_isPrefixOf?_eq_some rooted⟩ unplaced.not_rooted
  have noAlias : ctx.usings.alias? (String.ofList (headTail chain).1) = none := by
    rw [headTail_fst]
    exact unplaced.not_alias
  rw [canonicalName_of_unaliased rootless noAlias]
  by_cases dot : '.' ∈ chain
  · exact placedName_of_dot unplaced.keyword?_eq_none dot
  · rw [placedName_of_dotless unplaced.keyword?_eq_none dot, unplaced.not_indexed dot]
    rfl

/-- **What cannot be placed is kept.** If none of the names of a type text can be placed, the text
and its canonical form have the same characters in the same order, white space apart. -/
theorem removeBlanks_canonical {ctx : Context} {text : String}
    (unplaced : ∀ chain, .name chain ∈ tokenize text.toList → Unplaced ctx chain) :
    removeBlanks (canonical ctx text).toList = removeBlanks text.toList := by
  have kept : ∀ chain, .name chain ∈ tokenize text.toList → canonicalName ctx chain = chain :=
    fun chain mem => (unplaced chain mem).canonicalName_eq
  rw [toList_canonical, removeBlanks_layout kept, flatMap_tokenize, removeBlanks_removeBlanks]

/-- A text with dots and colons that join nothing, in a file where other names can be placed. -/
theorem removeBlanks_canonical_leftover :
    let ctx : Context :=
      { usings := { aliases := [("Id", "System.Int64")], namespaces := ["System"] },
        index := ⟨[("Vector", "Geometry.Vector")]⟩ }
    (∀ chain, .name chain ∈ tokenize "Map . Of<a .. b,c:::d Vector.X>[ , ] Ids.".toList →
      Unplaced ctx chain) ∧
    removeBlanks (canonical ctx "Map . Of<a .. b,c:::d Vector.X>[ , ] Ids.").toList =
      removeBlanks "Map . Of<a .. b,c:::d Vector.X>[ , ] Ids.".toList ∧
    canonical ctx "Map . Of<a .. b,c:::d Vector.X>[ , ] Ids." =
      "Map.Of<a..b, c:::d Vector.X>[,]Ids." := by
  intro ctx
  have tokens : tokenize "Map . Of<a .. b,c:::d Vector.X>[ , ] Ids.".toList =
      [.name "Map.Of".toList, .mark '<', .name ['a'], .mark '.', .mark '.', .name ['b'], .mark ',',
        .name ['c'], .mark ':', .mark ':', .mark ':', .name ['d'], .name "Vector.X".toList,
        .mark '>', .mark '[', .mark ',', .mark ']', .name "Ids".toList, .mark '.'] := by decide
  have unplaced : ∀ chain,
      .name chain ∈ tokenize "Map . Of<a .. b,c:::d Vector.X>[ , ] Ids.".toList →
        Unplaced ctx chain := by
    intro chain mem
    simp only [tokens, List.mem_cons, Token.name.injEq, reduceCtorEq, List.not_mem_nil, false_or,
      or_false] at mem
    rcases mem with rfl | rfl | rfl | rfl | rfl | rfl | rfl <;> decide
  exact ⟨unplaced, removeBlanks_canonical unplaced, by decide +kernel⟩

end Forwarding.TypeName
