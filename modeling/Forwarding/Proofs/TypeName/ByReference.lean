import Forwarding.Proofs.TypeName.Aliases
import Mathlib.Data.List.Basic

/-!
Types that are passed or returned by reference. The keyword `ref`, with `readonly` behind it or
not, reads as a name. So the first name of the type itself follows a name and is taken for a label,
and a mark follows `ref` without a space. The canonical form of the whole is the keyword with the
canonical form of the type exactly for the types that start with a name which has no other canonical
form (`canonical_ref_iff`).
-/

namespace Forwarding.TypeName

open Text (isBlank isNameChar)

/-! ### Behind a name -/

/-- What follows a name looks the same as at the start, with a space in front, only if it is a name
that is shown as it is written. -/
theorem layout_afterName_iff (rename : List Char → List Char) (rank : Nat) (ts : List Token) :
    layout rename true rank ts = ' ' :: layout rename false rank ts ↔
      ∃ w rest, ts = .name w :: rest ∧ rename w = w := by
  cases ts with
  | nil => simp
  | cons t rest =>
    cases t with
    | name w => simp [layout_name, eq_comm]
    | mark c => simp [layout_mark]

section

variable {rename : List Char → List Char} {afterName : Bool} {rank : Nat} {w front : List Char}
  {ls : List Lexeme}

/-- A name shown as it is written keeps its form behind a word. -/
theorem layout_word_of_starts (alone : (if afterName then ' ' :: w else rename w) = front)
    (starts : ∃ v rest, joinChains ls = .name v :: rest ∧ rename v = v) :
    layout rename afterName rank (joinChains (.word w :: ls)) =
      front ++ ' ' :: layout rename false rank (joinChains ls) := by
  rcases joinChains_word_cases w ls with apart | ⟨joint, _, _, behind, _⟩
  · rw [apart, layout_name, alone, (layout_afterName_iff rename rank _).mpr starts]
  · obtain ⟨v, ts, first, _⟩ := starts
    rw [behind] at first
    cases joint <;> cases first

/-- Nothing else does, if the chains that grow from the word are shown as they are written. -/
theorem starts_of_layout_word (alone : (if afterName then ' ' :: w else rename w) = front)
    (grown : ∀ (joint : Joint) chain, (if afterName then ' ' :: (w ++ joint.chars ++ chain)
      else rename (w ++ joint.chars ++ chain)) = front ++ joint.chars ++ chain)
    (same : layout rename afterName rank (joinChains (.word w :: ls)) =
      front ++ ' ' :: layout rename false rank (joinChains ls)) :
    ∃ v rest, joinChains ls = .name v :: rest ∧ rename v = v := by
  rcases joinChains_word_cases w ls with apart | ⟨joint, chain, ts, _, chained⟩
  · rw [apart, layout_name, alone] at same
    exact (layout_afterName_iff rename rank _).mp (List.append_cancel_left same)
  · rw [chained, layout_name, grown, List.append_assoc, List.append_assoc] at same
    have gap := List.append_cancel_left same
    cases joint <;> cases gap

end

/-! ### Keywords in front of a type -/

/-- A word, a space and a text. -/
theorem lexemes_word_space (w : Word) (cs : List Char) :
    lexemes (w.chars ++ ' ' :: cs) = .word w.chars :: lexemes cs := by
  rw [lexemes_word w rfl, lexemes_blank rfl]

/-- The text starts with a name, and this name has no other canonical form. -/
def StartsCanonical (ctx : Context) (raw : String) : Prop :=
  ∃ w rest, tokenize raw.toList = .name w :: rest ∧ canonicalName ctx w = w

def Word.ref : Word := ⟨"ref".toList, by decide, by decide⟩

def Word.readonly : Word := ⟨"readonly".toList, by decide, by decide⟩

section

variable {ctx : Context}

theorem keyword?_ref (u : Usings) : keyword? u Word.ref.chars = none :=
  keyword?_of_not_isPrimitive (by decide) u {}

theorem canonicalName_ref (noAlias : ctx.usings.alias? "ref" = none)
    (noType : ctx.index.unique? "ref" = none) :
    canonicalName ctx Word.ref.chars = Word.ref.chars := by
  have noType' : ctx.index.unique? (String.ofList Word.ref.chars) = none := noType
  have noAlias' : ctx.usings.alias? (String.ofList (headTail Word.ref.chars).1) = none := noAlias
  rw [canonicalName_of_unaliased (rooted?_of_colonless (Word.ref.not_mem rfl)) noAlias',
    placedName_of_dotless (keyword?_ref ctx.usings) (Word.ref.not_mem rfl), noType']
  rfl

/-- A chain that starts with `ref` is shown as it is written. -/
theorem canonicalName_ref_joint (colonless : ctx.Colonless)
    (noAlias : ctx.usings.alias? "ref" = none) (joint : Joint) (chain : List Char) :
    canonicalName ctx (Word.ref.chars ++ joint.chars ++ chain) =
      Word.ref.chars ++ joint.chars ++ chain := by
  rw [List.append_assoc]
  cases joint with
  | colons => exact canonicalName_colons colonless (by decide) chain
  | dot =>
    have rootless : rooted? (Word.ref.chars ++ '.' :: chain) = none := rfl
    have noAlias' : ctx.usings.alias?
        (String.ofList (headTail (Word.ref.chars ++ '.' :: chain)).1) = none := by
      rw [headTail_dot (Word.ref.not_mem rfl)]
      exact noAlias
    have noKeyword : keyword? ctx.usings (Word.ref.chars ++ '.' :: chain) = none := by
      rw [← Option.not_isSome_iff_eq_none, isSome_keyword?_dot]
      rintro ⟨system, -⟩
      exact absurd system (by decide)
    rw [Joint.chars, List.singleton_append, canonicalName_of_unaliased rootless noAlias',
      placedName_of_dot noKeyword (by simp)]

/-- `ref` in front of a text, as tokens. -/
theorem canonical_ref_eq_iff (raw : String) :
    canonical ctx ("ref " ++ raw) = "ref " ++ canonical ctx raw ↔
      layout (canonicalName ctx) false 0 (joinChains (.word Word.ref.chars :: lexemes raw.toList)) =
        Word.ref.chars ++ ' ' :: layout (canonicalName ctx) false 0 (tokenize raw.toList) := by
  have tokens : tokenize ("ref " ++ raw).toList =
      joinChains (.word Word.ref.chars :: lexemes raw.toList) := by
    have parts : ("ref " ++ raw).toList = Word.ref.chars ++ ' ' :: raw.toList := by
      rw [String.toList_append]
      rfl
    rw [parts, tokenize, lexemes_word_space]
  rw [← String.toList_inj, String.toList_append, toList_canonical, toList_canonical, tokens]
  rfl

/-- `ref readonly` in front of a text, as tokens. The second keyword follows a name. -/
theorem canonical_refReadonly_eq_iff (noAlias : ctx.usings.alias? "ref" = none)
    (noType : ctx.index.unique? "ref" = none) (raw : String) :
    canonical ctx ("ref readonly " ++ raw) = "ref readonly " ++ canonical ctx raw ↔
      layout (canonicalName ctx) true 0
          (joinChains (.word Word.readonly.chars :: lexemes raw.toList)) =
        ' ' :: Word.readonly.chars ++
          ' ' :: layout (canonicalName ctx) false 0 (tokenize raw.toList) := by
  have tokens : tokenize ("ref readonly " ++ raw).toList =
      .name Word.ref.chars :: joinChains (.word Word.readonly.chars :: lexemes raw.toList) := by
    have parts : ("ref readonly " ++ raw).toList =
        Word.ref.chars ++ ' ' :: (Word.readonly.chars ++ ' ' :: raw.toList) := by
      rw [String.toList_append]
      rfl
    rw [parts, tokenize, lexemes_word_space, lexemes_word_space, joinChains_word _ (by simp)]
  have shown : (if false = true then ' ' :: Word.ref.chars
      else canonicalName ctx Word.ref.chars) = Word.ref.chars := canonicalName_ref noAlias noType
  have expected : ("ref readonly " ++ canonical ctx raw).toList = Word.ref.chars ++
      (' ' :: Word.readonly.chars ++
        ' ' :: layout (canonicalName ctx) false 0 (tokenize raw.toList)) := by
    rw [String.toList_append, toList_canonical]
    rfl
  rw [← String.toList_inj, expected, toList_canonical, tokens, layout_name, shown,
    List.append_cancel_left_eq]

/-- **By-reference types.** Where `ref` is neither an alias nor a project type, `ref readonly` can
be taken out in front of a type text exactly if the text starts with a name that has no other
canonical form, and then so can `ref`; where no name has a colon in it, `ref` can be taken out in
front of no other text. A type whose own name is an alias, a primitive or a project type is shown as
it is written. -/
theorem canonical_ref_iff (noAlias : ctx.usings.alias? "ref" = none)
    (noType : ctx.index.unique? "ref" = none) (raw : String) :
    (canonical ctx ("ref readonly " ++ raw) = "ref readonly " ++ canonical ctx raw ↔
      StartsCanonical ctx raw) ∧
    (StartsCanonical ctx raw → canonical ctx ("ref " ++ raw) = "ref " ++ canonical ctx raw) ∧
    (ctx.Colonless → canonical ctx ("ref " ++ raw) = "ref " ++ canonical ctx raw →
      StartsCanonical ctx raw) := by
  have alone := canonicalName_ref noAlias noType
  rw [canonical_refReadonly_eq_iff noAlias noType, canonical_ref_eq_iff]
  refine ⟨⟨?_, ?_⟩, ?_, ?_⟩
  · exact starts_of_layout_word rfl fun joint chain => rfl
  · exact layout_word_of_starts rfl
  · exact layout_word_of_starts alone
  · intro colonless
    exact starts_of_layout_word alone (canonicalName_ref_joint colonless noAlias)

/-- The arguments of a generic type get their canonical form behind `ref`. -/
theorem canonical_ref_iff_dictionary :
    let ctx : Context := { usings := { namespaces := ["System"] } }
    ctx.usings.alias? "ref" = none ∧ ctx.index.unique? "ref" = none ∧ ctx.Colonless ∧
      canonical ctx "Dictionary<Int32, String>" = "Dictionary<int, string>" ∧
      canonical ctx ("ref " ++ "Dictionary<Int32, String>") =
        "ref " ++ canonical ctx "Dictionary<Int32, String>" ∧
      canonical ctx ("ref readonly " ++ "Dictionary<Int32, String>") =
        "ref readonly " ++ canonical ctx "Dictionary<Int32, String>" := by
  intro ctx
  have colonless : ctx.Colonless := ⟨by simp [ctx], by simp [ctx]⟩
  have starts : StartsCanonical ctx "Dictionary<Int32, String>" :=
    ⟨"Dictionary".toList, [.mark '<', .name "Int32".toList, .mark ',', .name "String".toList,
      .mark '>'], by decide, by decide +kernel⟩
  have noAlias : ctx.usings.alias? "ref" = none := rfl
  have noType : ctx.index.unique? "ref" = none := rfl
  have main := canonical_ref_iff noAlias noType "Dictionary<Int32, String>"
  exact ⟨noAlias, noType, colonless, by decide +kernel, main.2.1 starts, main.1.mpr starts⟩

/-- A primitive type, which is not shown by its keyword, and a tuple, which loses its space. -/
theorem canonical_ref_int32 :
    let ctx : Context := { usings := { namespaces := ["System"] } }
    canonical ctx "ref Int32" = "ref Int32" ∧ "ref " ++ canonical ctx "Int32" = "ref int" ∧
      canonical ctx "ref readonly Int32" = "ref readonly Int32" ∧
      canonical ctx "ref (int, int)" = "ref(int, int)" ∧
      canonical ctx "(int, int)" = "(int, int)" := by
  decide +kernel

end

end Forwarding.TypeName
