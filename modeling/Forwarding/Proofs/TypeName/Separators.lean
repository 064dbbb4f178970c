import Forwarding.Proofs.TypeName.Tokens
import Mathlib.Data.List.Basic

/-!
Separators of a type text, such as `<`, `,` and `?`. No word and no chain lies across one, and the
next name behind it is in type position again. So where no array rank is open, the text on either
side of a separator has its canonical form whatever stands on the other side (`canonical_cut`).
-/

namespace Forwarding.TypeName

open Text (isBlank isNameChar)

/-- A mark that takes part in no chain and opens no array rank. -/
structure Separator (p : Char) : Prop where
  visible : isBlank p = false
  nameless : isNameChar p = false
  not_dot : p ≠ '.'
  not_colon : p ≠ ':'
  not_opening : p ≠ '['

instance (p : Char) : Decidable (Separator p) :=
  decidable_of_iff (isBlank p = false ∧ isNameChar p = false ∧ p ≠ '.' ∧ p ≠ ':' ∧ p ≠ '[')
    ⟨fun ⟨visible, nameless, dot, colon, opening⟩ => ⟨visible, nameless, dot, colon, opening⟩,
      fun ⟨visible, nameless, dot, colon, opening⟩ => ⟨visible, nameless, dot, colon, opening⟩⟩

/-- A comma is shown with a space behind it. -/
def separatorText (p : Char) : String :=
  if p = ',' then ", " else String.singleton p

/-- Every array rank that the text opens is closed at its end; a `]` too many does nothing. -/
def RanksClosed (text : List Char) : Prop :=
  text.foldl rankBehind 0 = 0

instance (text : List Char) : Decidable (RanksClosed text) :=
  inferInstanceAs (Decidable (_ = _))

section

variable {p : Char} {a b : List Char}

theorem toList_separatorText (p : Char) : (separatorText p).toList = markText 0 p := by
  by_cases comma : p = ',' <;> simp [separatorText, markText, comma]

theorem Separator.rankBehind_zero (sep : Separator p) : rankBehind 0 p = 0 := by
  rw [rankBehind, if_neg sep.not_opening, Nat.zero_sub, ite_self]

theorem tokenize_separator (sep : Separator p) (a b : List Char) :
    tokenize (a ++ p :: b) = tokenize a ++ .mark p :: tokenize b := by
  have apart : Apart a (p :: b) := by
    apply apart_of_head
    intro d first
    cases first
    exact ⟨sep.nameless, sep.not_colon⟩
  have cut : (lexemes (p :: b)).head?.all Lexeme.isCut = true := by
    rw [lexemes_mark sep.visible sep.nameless fun colon => absurd colon sep.not_colon]
    simp [Lexeme.isCut, sep.not_dot]
  rw [tokenize_append apart cut, tokenize_mark sep.visible sep.nameless sep.not_colon]

/-- Behind the separator both parts of the layout's state are as at the start. -/
theorem layout_separator (rename : List Char → List Char) (closed : RanksClosed a)
    (sep : Separator p) (b : List Char) :
    layout rename false 0 (tokenize (a ++ p :: b)) =
      layout rename false 0 (tokenize a) ++ (separatorText p).toList ++
        layout rename false 0 (tokenize b) := by
  have rank : rankAfter 0 (tokenize a) = 0 := by
    rw [rankAfter_tokenize]
    exact closed
  rw [tokenize_separator sep, layout_append, layout_mark, rank, sep.rankBehind_zero,
    toList_separatorText, List.append_assoc]

end

/-- **Cutting a type text.** Where no array rank is open in front of a separator, the canonical form
of the whole is that of what stands in front of the separator, the separator, and the canonical form
of what stands behind it. Both parts may be any texts, also malformed ones. -/
theorem canonical_cut {p : Char} {a : String} (sep : Separator p) (closed : RanksClosed a.toList)
    (ctx : Context) (b : String) :
    canonical ctx (a ++ String.singleton p ++ b) =
      canonical ctx a ++ separatorText p ++ canonical ctx b := by
  have parts : (a ++ String.singleton p ++ b).toList = a.toList ++ p :: b.toList := by
    simp
  rw [← String.toList_inj, String.toList_append, String.toList_append, toList_canonical,
    toList_canonical, toList_canonical, parts, layout_separator _ closed sep]

/-- A cut in a text with array ranks on both sides, where neither side is well formed. -/
theorem canonical_cut_map :
    let ctx : Context :=
      { usings := { namespaces := ["System"] }, index := ⟨[("Vector", "Geometry.Vector")]⟩ }
    Separator ',' ∧ RanksClosed "Map<Int32[,]".toList ∧
      canonical ctx ("Map<Int32[,]" ++ String.singleton ',' ++ "(Vector v,x..[,") =
        canonical ctx "Map<Int32[,]" ++ separatorText ',' ++ canonical ctx "(Vector v,x..[," ∧
      canonical ctx "Map<Int32[,]" = "Map<int[,]" ∧
      canonical ctx "(Vector v,x..[," = "(Geometry.Vector v, x..[," := by
  intro ctx
  have sep : Separator ',' := by decide
  have closed : RanksClosed "Map<Int32[,]".toList := by decide
  exact ⟨sep, closed, canonical_cut sep closed ctx _, by decide +kernel, by decide +kernel⟩

end Forwarding.TypeName
