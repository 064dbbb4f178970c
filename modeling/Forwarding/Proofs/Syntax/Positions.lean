import Forwarding.Syntax.Lexer
import Forwarding.Syntax.Tree

/-!
Where tokens stand. The tokens of a source follow one another without overlapping, and none of them
is empty, so the stretch that some neighbouring tokens cover has a length.
-/

namespace Forwarding.Syntax

/-- One place is not behind another. -/
instance : LE Position where
  le p q := p.byte ≤ q.byte ∧ p.line ≤ q.line

namespace Position

theorem le_refl (p : Position) : p ≤ p := ⟨Nat.le_refl _, Nat.le_refl _⟩

theorem le_trans {p q r : Position} (h : p ≤ q) (k : q ≤ r) : p ≤ r :=
  ⟨Nat.le_trans h.1 k.1, Nat.le_trans h.2 k.2⟩

theorem le_after (p : Position) (text : String) : p ≤ p.after text :=
  ⟨Nat.le_add_right _ _, Nat.le_add_right _ _⟩

end Position

theorem Token.start_le_stop (t : Token) : t.start ≤ t.stop :=
  t.start.le_after t.text

/-! ### Rows of tokens -/

/-- The tokens stand one behind another from `p` up to `q`, and none of them is empty. -/
def Row (p q : Position) : List Token → Prop
  | [] => p ≤ q
  | t :: ts => p ≤ t.start ∧ t.start.byte < t.stop.byte ∧ Row t.stop q ts

namespace Row

variable {p q : Position} {ts us : List Token}

theorem le (h : Row p q ts) : p ≤ q := by
  induction ts generalizing p with
  | nil => exact h
  | cons t ts ih =>
    have passed : p ≤ t.stop := Position.le_trans h.1 t.start_le_stop
    exact Position.le_trans passed (ih h.2.2)

theorem widen_left {p' : Position} (h : Row p q ts) (le : p' ≤ p) : Row p' q ts := by
  cases ts with
  | nil => exact Position.le_trans le h
  | cons t ts => exact ⟨Position.le_trans le h.1, h.2⟩

theorem split (h : Row p q (ts ++ us)) : ∃ middle, Row p middle ts ∧ Row middle q us := by
  induction ts generalizing p with
  | nil => exact ⟨p, p.le_refl, h⟩
  | cons t ts ih =>
    obtain ⟨middle, front, back⟩ := ih h.2.2
    exact ⟨middle, ⟨h.1, h.2.1, front⟩, back⟩

/-- The stretch of a row that is not empty has a length, and the row lies within it. -/
theorem span (h : Row p q ts) (ne : ts ≠ []) :
    ∃ a b, p ≤ a ∧ b ≤ q ∧ a.byte < b.byte ∧ Row a b ts ∧
      spanOf? ts = some
        { startLine := a.line, endLine := b.line, startByte := a.byte, endByte := b.byte } := by
  induction ts generalizing p with
  | nil => exact absurd rfl ne
  | cons t ts ih =>
    cases ts with
    | nil =>
      exact ⟨t.start, t.stop, h.1, h.2.2, h.2.1, ⟨t.start.le_refl, h.2.1, t.stop.le_refl⟩, rfl⟩
    | cons u ts =>
      obtain ⟨a, b, after, before, length, row, covered⟩ := ih h.2.2 (List.cons_ne_nil u ts)
      have whole : Row t.start b (t :: u :: ts) :=
        ⟨t.start.le_refl, h.2.1, row.widen_left after⟩
      refine ⟨t.start, b, h.1, before, ?_, whole, ?_⟩
      · have := after.1
        have := h.2.1
        omega
      · simp only [spanOf?, List.head?_cons, List.getLast?_cons,
          Option.some.injEq, Span.mk.injEq] at covered ⊢
        exact ⟨trivial, covered.2.1, trivial, covered.2.2.2⟩

end Row

/-! ### The tokens of a source -/

theorem byte_lt_after {p : Position} {c : Char} {cs : List Char} :
    p.byte < (p.after (String.ofList (c :: cs))).byte := by
  have size : (String.ofList (c :: cs)).utf8ByteSize ≠ 0 := by
    rw [Ne, String.utf8ByteSize_eq_zero_iff, String.ofList_eq_empty_iff]
    exact List.cons_ne_nil c cs
  simp only [Position.after]
  omega

/-- Each token starts behind its trivia and stops behind its text. -/
theorem exists_row_lexFrom (fuel : Nat) (s : LexState) (p : Position) (trivia : Nat)
    (cs : List Char) : ∃ q, Row p q (lexFrom fuel s p trivia cs) := by
  induction fuel generalizing s p trivia cs with
  | zero => exact ⟨p, p.le_refl⟩
  | succ fuel ih =>
    unfold lexFrom
    cases cs.drop trivia with
    | nil => exact ⟨p, p.le_refl⟩
    | cons c rest =>
      obtain ⟨q, row⟩ := ih _ _ _ _
      exact ⟨q, p.le_after _, byte_lt_after, row⟩

theorem exists_row_lex (source : String) : ∃ q, Row {} q (lex source) :=
  exists_row_lexFrom _ _ _ _ _

end Forwarding.Syntax
