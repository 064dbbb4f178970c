import Forwarding.Proofs.TypeName.Aliases
import Mathlib.Data.List.Infix
import Mathlib.Data.List.SplitBy

/-!
Aliases in a text without chains and array ranks. Expanding them while the text is laid out gives
the same as replacing all of them in the text first and reading the result where there are no
aliases (`canonical_substituteAliases`). The replacement is done once and for all names together, so
aliases that stand for each other or for themselves do no harm.

Reading the text from the left, a word stands between two marks, and neither a word nor a chain can
grow across a mark. So the tokens of the target take the place of the name, and the names around it
are not affected; the array ranks are those of before because the target closes what it opens.
-/

namespace Forwarding.TypeName

open Text (isBlank isNameChar)

/-! ### Replacing the aliases of a text -/

/-- The maximal runs of name characters, and every other character on its own. -/
def runs (cs : List Char) : List (List Char) :=
  cs.splitBy fun c d => isNameChar c && isNameChar d

/-- The target of a name that is an alias; everything else stands for itself. -/
def replacement (u : Usings) (run : List Char) : List Char :=
  if run.all isNameChar then ((u.alias? (String.ofList run)).map (·.toList)).getD run else run

/-- Replaces all runs at once, so that what an alias stands for is not replaced again. -/
def expand (u : Usings) (cs : List Char) : List Char :=
  (runs cs).flatMap (replacement u)

/-- The text with every name that is an alias replaced by its target. -/
def substituteAliases (u : Usings) (text : String) : String :=
  String.ofList (expand u text.toList)

theorem expand_append (u : Usings) {a b : List Char}
    (apart : ∀ c ∈ a.getLast?, ∀ d ∈ b.head?, (isNameChar c && isNameChar d) = false) :
    expand u (a ++ b) = expand u a ++ expand u b := by
  rw [expand, runs, List.splitBy_append apart, List.flatMap_append]
  rfl

theorem expand_other (u : Usings) {c : Char} (other : isNameChar c = false) (cs : List Char) :
    expand u (c :: cs) = c :: expand u cs := by
  have alone : expand u [c] = [c] := by
    simp [expand, runs, List.splitBy, List.splitBy.loop, replacement, other]
  rw [← List.singleton_append, expand_append u (by simp [other]), alone, List.singleton_append]

theorem expand_word (u : Usings) (w : Word) {cs : List Char}
    (stop : cs.head?.any isNameChar = false) :
    expand u (w.chars ++ cs) = replacement u w.chars ++ expand u cs := by
  have linked : w.chars.IsChain fun c d => (isNameChar c && isNameChar d) = true := by
    apply List.Pairwise.isChain
    apply List.pairwise_of_forall_mem_list
    intro c first d second
    rw [w.isNameChar_of_mem first, w.isNameChar_of_mem second, Bool.and_self]
  have one : expand u w.chars = replacement u w.chars := by
    rw [expand, runs, List.splitBy_of_isChain w.nonempty linked]
    simp
  rw [expand_append, one]
  intro c _ d first
  rw [Option.mem_def.mp first] at stop
  rw [show isNameChar d = false from stop, Bool.and_false]

/-! ### Balanced brackets -/

/-- Every `]` closes a `[` in front of it, and no `[` stays open. -/
def Balanced (cs : List Char) : Prop :=
  cs.count '[' = cs.count ']' ∧ ∀ front, front <+: cs → front.count ']' ≤ front.count '['

instance (cs : List Char) : Decidable (Balanced cs) :=
  decidable_of_iff (cs.count '[' = cs.count ']' ∧
    ∀ front ∈ cs.inits, front.count ']' ≤ front.count '[') (by simp only [Balanced, List.mem_inits])

theorem rankBehind_add_count {rank : Nat} {c : Char}
    (closes : [c].count ']' ≤ rank + [c].count '[') :
    rankBehind rank c + [c].count ']' = rank + [c].count '[' := by
  by_cases opening : c = '['
  · subst opening
    simp [rankBehind]
  · by_cases closing : c = ']'
    · subst closing
      simp [rankBehind] at closes ⊢
      omega
    · simp [rankBehind, opening, closing]

/-- While every `]` closes a `[`, the open ranks are the difference of the two. -/
theorem foldl_rankBehind (rank : Nat) {cs : List Char}
    (closes : ∀ front, front <+: cs → front.count ']' ≤ rank + front.count '[') :
    cs.foldl rankBehind rank + cs.count ']' = rank + cs.count '[' := by
  induction cs generalizing rank with
  | nil => rfl
  | cons c cs ih =>
    have count (d : Char) (front : List Char) :
        (c :: front).count d = [c].count d + front.count d := by
      rw [← List.singleton_append, List.count_append]
    have here := rankBehind_add_count (closes [c] ⟨cs, rfl⟩)
    have later : ∀ front, front <+: cs → front.count ']' ≤ rankBehind rank c + front.count '[' := by
      intro front initial
      have whole := closes (c :: front) ((List.prefix_cons_inj c).mpr initial)
      rw [count ']' front, count '[' front] at whole
      omega
    have behind := ih (rankBehind rank c) later
    rw [List.foldl_cons, count ']' cs, count '[' cs]
    omega

theorem Balanced.foldl_rankBehind {cs : List Char} (balanced : Balanced cs) :
    cs.foldl rankBehind 0 = 0 := by
  have equal := balanced.1
  have count : cs.foldl rankBehind 0 + cs.count ']' = 0 + cs.count '[' :=
    TypeName.foldl_rankBehind 0 (by simpa using balanced.2)
  omega

/-! ### Texts without chains and ranks -/

/-- No chain can be longer than a word, and no array rank is opened. -/
structure Simple (cs : List Char) : Prop where
  no_dot : '.' ∉ cs
  no_colon : ':' ∉ cs
  no_opening : '[' ∉ cs
  no_closing : ']' ∉ cs

theorem Simple.of_append {a b : List Char} (simple : Simple (a ++ b)) : Simple b :=
  ⟨fun mem => simple.no_dot (List.mem_append_right a mem),
    fun mem => simple.no_colon (List.mem_append_right a mem),
    fun mem => simple.no_opening (List.mem_append_right a mem),
    fun mem => simple.no_closing (List.mem_append_right a mem)⟩

theorem Simple.tail {c : Char} {cs : List Char} (simple : Simple (c :: cs)) : Simple cs :=
  Simple.of_append (a := [c]) simple

theorem Simple.head_ne {c : Char} {cs : List Char} (simple : Simple (c :: cs)) :
    c ≠ '.' ∧ c ≠ ':' ∧ c ≠ '[' ∧ c ≠ ']' :=
  ⟨fun same => simple.no_dot (same ▸ List.mem_cons_self),
    fun same => simple.no_colon (same ▸ List.mem_cons_self),
    fun same => simple.no_opening (same ▸ List.mem_cons_self),
    fun same => simple.no_closing (same ▸ List.mem_cons_self)⟩

def Token.isName : Token → Bool
  | .name _ => true
  | .mark _ => false

/-- No name stands right behind a name. -/
def NamesApart (ts : List Token) : Prop :=
  ts.IsChain fun t u => (t.isName && u.isName) = false

instance (ts : List Token) : Decidable (NamesApart ts) :=
  inferInstanceAs (Decidable (ts.IsChain _))

theorem NamesApart.tail {t : Token} {ts : List Token} (apart : NamesApart (t :: ts)) :
    NamesApart ts :=
  List.IsChain.tail apart

theorem NamesApart.nameless {v : List Char} {ts : List Token}
    (apart : NamesApart (.name v :: ts)) : ts.head?.any Token.isName = false := by
  cases ts with
  | nil => rfl
  | cons t ts => exact (List.isChain_cons_cons.mp apart).1

theorem head_lexemes_of_simple {cs : List Char} (simple : Simple cs) :
    (lexemes cs).head? ≠ some (.mark '.') ∧ (lexemes cs).head? ≠ some .doubleColon := by
  induction cs using wordInduction with
  | nil => simp
  | other c cs nameless ih =>
    cases blank : isBlank c with
    | true =>
      rw [lexemes_blank blank]
      exact ih simple.tail
    | false =>
      obtain ⟨noDot, noColon, -⟩ := simple.head_ne
      rw [lexemes_mark blank nameless fun colon => absurd colon noColon]
      simp [noDot]
  | word w cs stop _ =>
    rw [lexemes_word w stop]
    simp

theorem tokenize_word (w : Word) {cs : List Char} (simple : Simple cs)
    (stop : cs.head?.any isNameChar = false) :
    tokenize (w.chars ++ cs) = .name w.chars :: tokenize cs := by
  rw [tokenize, lexemes_word w stop, joinChains_word _ (head_lexemes_of_simple simple)]
  rfl

/-! ### The tokens of the new text -/

/-- Where no name comes next, none comes next after the replacement. -/
theorem isCut_expand (u : Usings) {cs : List Char} (simple : Simple cs)
    (nameless : (tokenize cs).head?.any Token.isName = false) :
    (lexemes (expand u cs)).head?.all Lexeme.isCut = true := by
  induction cs using wordInduction with
  | nil => rfl
  | other c cs other ih =>
    rw [expand_other u other]
    cases blank : isBlank c with
    | true =>
      rw [tokenize_blank blank] at nameless
      rw [lexemes_blank blank]
      exact ih simple.tail nameless
    | false =>
      obtain ⟨noDot, noColon, -⟩ := simple.head_ne
      rw [lexemes_mark blank other fun colon => absurd colon noColon]
      simp [Lexeme.isCut, noDot]
  | word w cs stop _ =>
    rw [tokenize_word w simple.of_append stop] at nameless
    cases nameless

theorem tokenize_expand_word (u : Usings) (w : Word) {cs : List Char} (simple : Simple cs)
    (stop : cs.head?.any isNameChar = false)
    (nameless : (tokenize cs).head?.any Token.isName = false) :
    tokenize (expand u (w.chars ++ cs)) =
      tokenize (replacement u w.chars) ++ tokenize (expand u cs) := by
  rw [expand_word u w stop]
  apply tokenize_append _ (isCut_expand u simple nameless)
  apply apart_of_head
  cases cs with
  | nil => intro d first; cases first
  | cons c cs =>
    have other : isNameChar c = false := stop
    rw [expand_other u other]
    intro d first
    cases first
    exact ⟨other, simple.head_ne.2.1⟩

theorem replacement_word (u : Usings) (w : Word) :
    replacement u w.chars = ((u.alias? w.text).map (·.toList)).getD w.chars := by
  rw [replacement, if_pos w.named]
  rfl

/-- The canonical name of a word is laid out from the tokens that take its place. -/
theorem canonicalName_word (ctx : Context) (w : Word) :
    canonicalName ctx w.chars =
      layout (plainName ctx) false 0 (tokenize (replacement ctx.usings w.chars)) := by
  have rootless : rooted? w.chars = none := rooted?_of_colonless (w.not_mem rfl)
  rw [replacement_word]
  cases known : ctx.usings.alias? w.text with
  | some target =>
    have expands : ctx.usings.alias? (String.ofList (headTail w.chars).1) = some target := by
      rw [headTail_word]
      exact known
    rw [canonicalName_of_alias rootless expands, headTail_word]
    exact List.append_nil _
  | none =>
    have one : tokenize w.chars = [.name w.chars] := tokenize_chain (.word w)
    have stays : ctx.usings.alias? (String.ofList (headTail w.chars).1) = none := by
      rw [headTail_word]
      exact known
    rw [Option.map_none, Option.getD_none, one, layout_name, layout_nil, List.append_nil,
      canonicalName, plainName, rootless]
    simp only [stays]
    rfl

theorem rankAfter_replacement {u : Usings} (w : Word)
    (balanced : ∀ name target, u.alias? name = some target → Balanced target.toList) :
    rankAfter 0 (tokenize (replacement u w.chars)) = 0 := by
  rw [replacement_word]
  cases known : u.alias? w.text with
  | some target =>
    rw [rankAfter_tokenize]
    exact (balanced w.text target known).foldl_rankBehind
  | none =>
    have one : tokenize w.chars = [.name w.chars] := tokenize_chain (.word w)
    rw [Option.map_none, Option.getD_none, one]
    rfl

/-- The step by step argument, over the words and marks of the text. The two flags need not agree:
behind an alias the one side has just shown a name and the other one the end of the target. They
matter only where a name comes next, and there both are off. -/
theorem layout_expand {ctx : Context} {cs : List Char}
    (balanced : ∀ name target, ctx.usings.alias? name = some target → Balanced target.toList)
    (simple : Simple cs) (apart : NamesApart (tokenize cs)) {afterName afterName' : Bool}
    (fresh : (tokenize cs).head?.any Token.isName = true →
      afterName = false ∧ afterName' = false) :
    layout (canonicalName ctx) afterName 0 (tokenize cs) =
      layout (plainName ctx) afterName' 0 (tokenize (expand ctx.usings cs)) := by
  induction cs using wordInduction generalizing afterName afterName' with
  | nil => rfl
  | other c cs other ih =>
    rw [expand_other ctx.usings other]
    cases blank : isBlank c with
    | true =>
      rw [tokenize_blank blank] at apart fresh ⊢
      rw [tokenize_blank blank]
      exact ih simple.tail apart fresh
    | false =>
      obtain ⟨-, noColon, noOpening, noClosing⟩ := simple.head_ne
      have flat : rankBehind 0 c = 0 := rankBehind_of_ne noOpening noClosing 0
      rw [tokenize_mark blank other noColon] at apart ⊢
      rw [tokenize_mark blank other noColon, layout_mark, layout_mark, flat,
        ih simple.tail apart.tail fun _ => ⟨rfl, rfl⟩]
  | word w cs stop ih =>
    have rest := simple.of_append
    rw [tokenize_word w rest stop] at apart fresh ⊢
    obtain ⟨rfl, rfl⟩ := fresh rfl
    have nameless := apart.nameless
    rw [tokenize_expand_word ctx.usings w rest stop nameless, layout_name, layout_append,
      rankAfter_replacement w balanced, ← canonicalName_word]
    congr 1
    exact ih rest apart.tail fun first => absurd first (by simp [nameless])

/-- **Aliases are replaced in parallel.** In a text of words and marks in which no name follows a
name, expanding the aliases gives the canonical form of the text in which every name that is an
alias has been replaced by its target, once and all together. The targets may be any texts that
close the brackets they open; they may hold aliases, also those they are the targets of. -/
theorem canonical_substituteAliases {ctx : Context} {text : String}
    (balanced : ∀ name target, ctx.usings.alias? name = some target → Balanced target.toList)
    (simple : Simple text.toList) (apart : NamesApart (tokenize text.toList)) :
    canonical ctx text = canonical ctx.withoutAliases (substituteAliases ctx.usings text) := by
  rw [canonical, canonical, canonicalName_withoutAliases, substituteAliases, String.toList_ofList,
    layout_expand balanced simple apart fun _ => ⟨rfl, rfl⟩]

/-- Two aliases that stand for each other, one of them inside a generic type and behind array
ranks. -/
theorem canonical_substituteAliases_cyclic :
    let ctx : Context := { usings := {
      aliases := [("A", "List<B, System.Int32>[,]"), ("B", "global::A")] } }
    Simple "Map<A, (B, C?)>".toList ∧ NamesApart (tokenize "Map<A, (B, C?)>".toList) ∧
      (∀ name target, ctx.usings.alias? name = some target → Balanced target.toList) ∧
      substituteAliases ctx.usings "Map<A, (B, C?)>" =
        "Map<List<B, System.Int32>[,], (global::A, C?)>" ∧
      canonical ctx "Map<A, (B, C?)>" = canonical ctx.withoutAliases
        (substituteAliases ctx.usings "Map<A, (B, C?)>") := by
  intro ctx
  have simple : Simple "Map<A, (B, C?)>".toList := ⟨by decide, by decide, by decide, by decide⟩
  have apart : NamesApart (tokenize "Map<A, (B, C?)>".toList) := by decide
  have listed : ∀ e ∈ ctx.usings.aliases, Balanced e.2.toList := by decide
  have balanced : ∀ name target, ctx.usings.alias? name = some target → Balanced target.toList :=
    fun _ _ known => listed _ (Table.mem_of_lookup known)
  exact ⟨simple, apart, balanced, by decide +kernel,
    canonical_substituteAliases balanced simple apart⟩

end Forwarding.TypeName
