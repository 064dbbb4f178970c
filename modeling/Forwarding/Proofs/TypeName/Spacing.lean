import Forwarding.Proofs.Text.Spacing
import Forwarding.Proofs.TypeName.Tokens

/-!
White space in a type text. It tells two words in a row from one, and two colons from a double
colon; everywhere else it is skipped. So the canonical form depends only on the visible characters
and on which of the gaps inside a possible word or double colon hold blanks
(`canonical_sameSpacing`).
-/

namespace Forwarding.TypeName

open Text (isBlank isNameChar removeBlanks removeBlanks_blank removeBlanks_visible squash
  SameSpacing sameSpacing_blank sameSpacing_visible sameSpacing_squash)

/-- The two characters are read together if there is nothing between them. -/
def sticks (c d : Char) : Bool :=
  isNameChar c && isNameChar d || c == ':' && d == ':'

section

variable {c : Char} {a b : List Char}

theorem startsName_of_sameSpacing (name : isNameChar c = true)
    (same : SameSpacing sticks (c :: a) (c :: b)) :
    a.head?.any isNameChar = b.head?.any isNameChar := by
  apply same.any_head? (not_isBlank_of_isNameChar name)
  · intro d
    exact not_isBlank_of_isNameChar
  · intro d more
    simp [sticks, name, more]

theorem startsColon_of_sameSpacing (same : SameSpacing sticks (':' :: a) (':' :: b)) :
    a.head? = some ':' ↔ b.head? = some ':' :=
  ⟨same.next rfl rfl rfl, same.symm.next rfl rfl rfl⟩

/-- Both texts are read alike at a visible character, if they are read alike from there on. -/
theorem lexemes_of_sameSpacing_visible (visible : isBlank c = false)
    (same : SameSpacing sticks (c :: a) (c :: b))
    (later : ∀ {a' b'}, a'.length ≤ a.length → SameSpacing sticks a' b' → lexemes a' = lexemes b') :
    lexemes (c :: a) = lexemes (c :: b) := by
  have rest : SameSpacing sticks a b := ((sameSpacing_visible visible).mp same).1
  cases name : isNameChar c with
  | true =>
    rw [lexemes_name name, lexemes_name name, startsName_of_sameSpacing name same,
      later (Nat.le_refl _) rest]
  | false =>
    by_cases double : c = ':' ∧ a.head? = some ':'
    · obtain ⟨rfl, first⟩ := double
      obtain ⟨a, rfl⟩ := List.head?_eq_some_iff.mp first
      obtain ⟨b, rfl⟩ := List.head?_eq_some_iff.mp ((startsColon_of_sameSpacing same).mp first)
      have behind : SameSpacing sticks a b := ((sameSpacing_visible rfl).mp rest).1
      rw [lexemes_colons, lexemes_colons, later (Nat.le_succ _) behind]
    · have single : c = ':' → a.head? ≠ some ':' := fun colon first => double ⟨colon, first⟩
      have single' : c = ':' → b.head? ≠ some ':' := by
        rintro rfl first
        exact single rfl ((startsColon_of_sameSpacing same).mpr first)
      rw [lexemes_mark visible name single, lexemes_mark visible name single',
        later (Nat.le_refl _) rest]

end

theorem lexemes_eq_nil {cs : List Char} (hidden : removeBlanks cs = []) : lexemes cs = [] := by
  induction cs with
  | nil => rfl
  | cons c cs ih =>
    cases blank : isBlank c with
    | true =>
      rw [removeBlanks_blank blank] at hidden
      rw [lexemes_blank blank, ih hidden]
    | false =>
      rw [removeBlanks_visible blank] at hidden
      cases hidden

theorem lexemes_of_sameSpacing {a b : List Char} (same : SameSpacing sticks a b) :
    lexemes a = lexemes b := by
  -- On the length of the first text, as a double colon takes two characters at once.
  induction size : a.length using Nat.strongRecOn generalizing a b with
  | ind n ih =>
    subst size
    cases a with
    | nil => exact (lexemes_eq_nil same.visible.symm).symm
    | cons c a =>
      have later {a' b' : List Char} (shorter : a'.length ≤ a.length)
          (alike : SameSpacing sticks a' b') : lexemes a' = lexemes b' :=
        ih a'.length (Nat.lt_succ_of_le shorter) alike rfl
      cases blank : isBlank c with
      | true =>
        rw [lexemes_blank blank]
        exact later (Nat.le_refl _) ((sameSpacing_blank blank).mp same)
      | false =>
        -- The second text may have blanks in front of the character.
        induction b with
        | nil =>
          have visible := same.visible
          rw [removeBlanks_visible blank] at visible
          cases visible
        | cons d b skip =>
          cases hidden : isBlank d with
          | true =>
            rw [lexemes_blank hidden]
            exact skip ((sameSpacing_blank hidden).mp same.symm).symm
          | false =>
            have visible := same.visible
            rw [removeBlanks_visible blank, removeBlanks_visible hidden] at visible
            obtain rfl := (List.cons.inj visible).1
            exact lexemes_of_sameSpacing_visible blank same later

theorem canonical_of_lexemes {a b : String} (alike : lexemes a.toList = lexemes b.toList)
    (ctx : Context) : canonical ctx a = canonical ctx b := by
  rw [canonical, canonical, tokenize, tokenize, alike]

/-- **Layout does not matter.** Two type texts with the same visible characters have the same
canonical form in every context, if they agree on where white space stands between two neighbours
that are both name characters or both colons. A squashed text agrees with the text on all of it. -/
theorem canonical_sameSpacing (ctx : Context) :
    (∀ a b : String, SameSpacing sticks a.toList b.toList → canonical ctx a = canonical ctx b) ∧
    ∀ text : String, canonical ctx (String.ofList (squash text.toList)) = canonical ctx text := by
  constructor
  · intro a b same
    exact canonical_of_lexemes (lexemes_of_sameSpacing same) ctx
  · intro text
    apply canonical_of_lexemes
    rw [String.toList_ofList]
    exact lexemes_of_sameSpacing (sameSpacing_squash sticks text.toList)

/-- Blanks of several kinds, around a name chain and in an array rank, and a text that is not well
formed. -/
theorem canonical_sameSpacing_scattered :
    let ctx : Context := { usings := { namespaces := ["System"] } }
    SameSpacing sticks "Map<a .\u3000Int32 ,String x:: y> [\n,] ".toList
      "Map <a. Int32,String \tx ::y>[\u00a0, ]".toList ∧
    canonical ctx "Map<a .\u3000Int32 ,String x:: y> [\n,] " =
      canonical ctx "Map <a. Int32,String \tx ::y>[\u00a0, ]" ∧
    canonical ctx (String.ofList (squash "Map<a .\u3000Int32 ,String x:: y> [\n,] ".toList)) =
      "Map<a.Int32, string x::y>[,]" := by
  intro ctx
  have same : SameSpacing sticks "Map<a .\u3000Int32 ,String x:: y> [\n,] ".toList
      "Map <a. Int32,String \tx ::y>[\u00a0, ]".toList := by decide +kernel
  refine ⟨same, (canonical_sameSpacing ctx).1 _ _ same, ?_⟩
  rw [(canonical_sameSpacing ctx).2]
  decide +kernel

end Forwarding.TypeName
