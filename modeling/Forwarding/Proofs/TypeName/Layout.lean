import Forwarding.TypeName.Canonical
import Mathlib.Data.List.Basic

/-!
Laying out tokens. What a token adds to the canonical text depends on the tokens in front of it only
through two things: whether the last of them is a name, and how many array ranks are open
(`layout_append`). A name behind a name is shown as it is written, and every other name is replaced
by its canonical name. So a label, such as the name of a tuple element, is safe from replacement
exactly where a name stands in front of it (`asWritten_iff`), and not behind `>`, `]` or `.`.
-/

namespace Forwarding.TypeName

/-! ### One token at a time -/

/-- What a mark adds when `rank` array ranks are open. -/
def markText (rank : Nat) (c : Char) : List Char :=
  if c = ',' ∧ rank = 0 then [',', ' '] else [c]

/-- How many array ranks are open behind a mark. -/
def rankBehind (rank : Nat) (c : Char) : Nat :=
  if c = '[' then rank + 1 else if c = ']' then rank - 1 else rank

section

variable (rename : List Char → List Char) (afterName : Bool) (rank : Nat)

@[simp]
theorem layout_nil : layout rename afterName rank [] = [] := by
  simp only [layout]

theorem layout_name (chain : List Char) (ts : List Token) :
    layout rename afterName rank (.name chain :: ts) =
      (if afterName then ' ' :: chain else rename chain) ++ layout rename true rank ts := by
  simp only [layout]

theorem layout_mark (c : Char) (ts : List Token) :
    layout rename afterName rank (.mark c :: ts) =
      markText rank c ++ layout rename false (rankBehind rank c) ts := by
  by_cases comma : c = ','
  · subst comma
    by_cases closed : rank = 0 <;> simp [layout, markText, rankBehind, closed]
  · by_cases opening : c = '['
    · subst opening
      simp [layout, markText, rankBehind]
    · by_cases closing : c = ']'
      · subst closing
        simp [layout, markText, rankBehind]
      · simp [layout, markText, rankBehind, comma, opening, closing]

end

/-! ### Many tokens -/

/-- Whether a name has just been shown behind these tokens. -/
def endsInName (afterName : Bool) : List Token → Bool
  | [] => afterName
  | .name _ :: ts => endsInName true ts
  | .mark _ :: ts => endsInName false ts

/-- How many array ranks are open behind these tokens. -/
def rankAfter (rank : Nat) : List Token → Nat
  | [] => rank
  | .name _ :: ts => rankAfter rank ts
  | .mark c :: ts => rankAfter (rankBehind rank c) ts

theorem layout_append (rename : List Char → List Char) (afterName : Bool) (rank : Nat)
    (ts us : List Token) :
    layout rename afterName rank (ts ++ us) =
      layout rename afterName rank ts ++
        layout rename (endsInName afterName ts) (rankAfter rank ts) us := by
  induction ts generalizing afterName rank with
  | nil => rw [List.nil_append, layout_nil, List.nil_append, endsInName, rankAfter]
  | cons t ts ih =>
    cases t with
    | name chain =>
      rw [List.cons_append, layout_name, layout_name, ih, endsInName, rankAfter, List.append_assoc]
    | mark c =>
      rw [List.cons_append, layout_mark, layout_mark, ih, endsInName, rankAfter, List.append_assoc]

/-- Only the last token tells whether a name has just been shown. -/
theorem endsInName_concat (afterName : Bool) (ts : List Token) (t : Token) :
    endsInName afterName (ts ++ [t]) = true ↔ ∃ w, t = .name w := by
  induction ts generalizing afterName with
  | nil => cases t <;> simp [endsInName]
  | cons u ts ih => cases u <;> exact ih _

theorem endsInName_iff (ts : List Token) :
    endsInName false ts = true ↔ ∃ w, ts.getLast? = some (.name w) := by
  rcases List.eq_nil_or_concat ts with rfl | ⟨front, t, rfl⟩
  · simp [endsInName]
  · simp [List.concat_eq_append, endsInName_concat]

/-! ### Names in a canonical text -/

theorem toList_canonical (ctx : Context) (raw : String) :
    (canonical ctx raw).toList = layout (canonicalName ctx) false 0 (tokenize raw.toList) :=
  String.toList_ofList

/-- The canonical text in three parts: what the tokens before a name show, what the name shows, and
what the tokens after it show. -/
theorem canonical_split {raw : String} {before after : List Token} {chain : List Char}
    (tokens : tokenize raw.toList = before ++ .name chain :: after) (ctx : Context) :
    (canonical ctx raw).toList =
      layout (canonicalName ctx) false 0 before ++
        (if endsInName false before then ' ' :: chain else canonicalName ctx chain) ++
        layout (canonicalName ctx) true (rankAfter 0 before) after := by
  rw [toList_canonical, tokens, layout_append, layout_name, List.append_assoc]

/-- The name is shown as it is written, with at most a space in front of it. -/
def AsWritten (ctx : Context) (raw : String) (before : List Token) (chain : List Char)
    (after : List Token) : Prop :=
  ∃ gap, (gap = [] ∨ gap = [' ']) ∧ (canonical ctx raw).toList =
    layout (canonicalName ctx) false 0 before ++ (gap ++ chain) ++
      layout (canonicalName ctx) true (rankAfter 0 before) after

theorem asWritten_of_endsInName {raw : String} {before after : List Token} {chain : List Char}
    (tokens : tokenize raw.toList = before ++ .name chain :: after)
    (behindName : endsInName false before = true) (ctx : Context) :
    AsWritten ctx raw before chain after :=
  ⟨[' '], .inr rfl, by rw [canonical_split tokens, if_pos behindName]; rfl⟩

/-- Behind a mark a name is kept only if it is its own canonical name. -/
theorem canonicalName_of_asWritten {raw : String} {before after : List Token} {chain : List Char}
    (tokens : tokenize raw.toList = before ++ .name chain :: after)
    (behindMark : endsInName false before ≠ true) {ctx : Context}
    (kept : AsWritten ctx raw before chain after) :
    ∃ gap, (gap = [] ∨ gap = [' ']) ∧ canonicalName ctx chain = gap ++ chain := by
  obtain ⟨gap, small, shown⟩ := kept
  rw [canonical_split tokens, if_neg behindMark, List.append_assoc, List.append_assoc] at shown
  exact ⟨gap, small, List.append_cancel_right (List.append_cancel_left shown)⟩

/-! ### Names that are replaced somewhere -/

theorem eq_of_splitAtFirst {p : Char → Bool} {cs front back : List Char}
    (h : Text.splitAtFirst p cs = some (front, back)) : ∃ c, p c ∧ cs = front ++ c :: back := by
  induction cs generalizing front with
  | nil => cases h
  | cons c cs ih =>
    rw [Text.splitAtFirst] at h
    split at h
    · rename_i here
      cases h
      exact ⟨c, here, rfl⟩
    · obtain ⟨⟨front', back'⟩, later, same⟩ := Option.map_eq_some_iff.mp h
      cases same
      obtain ⟨d, stop, rfl⟩ := ih later
      exact ⟨d, stop, rfl⟩

/-- A chain is its head and what follows it. -/
theorem eq_of_headTail (chain : List Char) :
    chain = (headTail chain).1 ++ ((headTail chain).2.map ('.' :: ·)).getD [] := by
  unfold headTail
  split
  · rename_i head tail split
    obtain ⟨c, dot, same⟩ := eq_of_splitAtFirst split
    rw [beq_iff_eq] at dot
    rw [same, dot]
    rfl
  · exact (List.append_nil chain).symm

/-- The text of the alias takes the place of the head, and the rest of the chain stays. -/
theorem canonicalName_of_alias {ctx : Context} {chain : List Char} {target : String}
    (bare : rooted? chain = none)
    (known : ctx.usings.alias? (String.ofList (headTail chain).1) = some target) :
    canonicalName ctx chain =
      aliasText ctx target ++ ((headTail chain).2.map ('.' :: ·)).getD [] := by
  unfold canonicalName
  rw [bare]
  simp only [known]
  cases (headTail chain).2 with
  | none => exact (List.append_nil _).symm
  | some tail => rfl

theorem canonicalName_of_unaliased {ctx : Context} {chain : List Char} (bare : rooted? chain = none)
    (unknown : ctx.usings.alias? (String.ofList (headTail chain).1) = none) :
    canonicalName ctx chain = placedName ctx chain := by
  unfold canonicalName
  rw [bare]
  simp only [unknown]

theorem length_keyword? {u : Usings} {chain keyword : List Char}
    (h : keyword? u chain = some keyword) : keyword.length ≤ 7 := by
  have short : ∀ e ∈ keywordTypes, e.2.toList.length ≤ 7 := by decide
  have looked : ∃ simple, (keywordTypes.lookup simple).map (·.toList) = some keyword := by
    unfold keyword? at h
    split at h
    · exact ⟨_, h⟩
    · split at h
      · exact ⟨_, h⟩
      · cases h
  obtain ⟨simple, found⟩ := looked
  obtain ⟨name, listed, rfl⟩ := Option.map_eq_some_iff.mp found
  obtain ⟨front, back, whole, _⟩ := List.lookup_eq_some_iff.mp listed
  apply short (simple, name)
  rw [whole]
  exact List.mem_append_right _ List.mem_cons_self

/-- A rooted chain always loses its root. -/
theorem length_canonicalName_of_rooted {ctx : Context} {chain rest : List Char}
    (rooted : rooted? chain = some rest) : (canonicalName ctx chain).length < chain.length := by
  have size : chain.length = 8 + rest.length := by
    rw [← List.append_eq_of_isPrefixOf?_eq_some rooted, List.length_append]
    rfl
  unfold canonicalName
  rw [rooted]
  simp only [rootedName]
  cases keyword : keyword? ctx.usings rest with
  | none =>
    rw [Option.getD_none]
    omega
  | some word =>
    have := length_keyword? keyword
    rw [Option.getD_some]
    omega

/-- An alias of a mark takes the place of a head that is not this mark. -/
theorem canonicalName_of_markAlias {ctx : Context} {chain : List Char} {mark : Char}
    (bare : rooted? chain = none) (visible : mark ≠ ' ') (differ : [mark] ≠ (headTail chain).1)
    (known : ctx.usings.alias? (String.ofList (headTail chain).1) = some (String.singleton mark))
    (text : aliasText ctx (String.singleton mark) = [mark]) (gap : List Char)
    (small : gap = [] ∨ gap = [' ']) : canonicalName ctx chain ≠ gap ++ chain := by
  intro same
  have parts := eq_of_headTail chain
  rw [canonicalName_of_alias bare known, text] at same
  generalize (headTail chain).1 = head at *
  generalize ((headTail chain).2.map ('.' :: ·)).getD [] = rest at *
  subst parts
  rw [← List.append_assoc] at same
  have heads : [mark] = gap ++ head := List.append_cancel_right same
  rcases small with rfl | rfl
  · exact differ heads
  · exact visible (List.cons.inj heads).1

/-- For every chain there are directives under which it is written differently. -/
theorem exists_replacing (chain : List Char) :
    ∃ ctx, ∀ gap, gap = [] ∨ gap = [' '] → canonicalName ctx chain ≠ gap ++ chain := by
  cases rooted : rooted? chain with
  | some rest =>
    refine ⟨{}, fun gap _ same => ?_⟩
    have shorter : (canonicalName {} chain).length < chain.length :=
      length_canonicalName_of_rooted rooted
    rw [same, List.length_append] at shorter
    omega
  | none =>
    -- One mark does for every head but itself, so two of them do for all.
    by_cases head : ['<'] = (headTail chain).1
    · have differ : ['>'] ≠ (headTail chain).1 := by
        rw [← head]
        decide
      exact ⟨{ usings := { aliases := [(String.ofList (headTail chain).1, ">")] } },
        canonicalName_of_markAlias rooted (by decide) differ List.lookup_cons_self rfl⟩
    · exact ⟨{ usings := { aliases := [(String.ofList (headTail chain).1, "<")] } },
        canonicalName_of_markAlias rooted (by decide) head List.lookup_cons_self rfl⟩

/-! ### Labels -/

/-- **Where a name is safe.** A name of a type text is shown as it is written, whatever the
directives and the types of the project are, exactly if the token in front of it is a name. -/
theorem asWritten_iff {raw : String} {before after : List Token} {chain : List Char}
    (tokens : tokenize raw.toList = before ++ .name chain :: after) :
    (∀ ctx, AsWritten ctx raw before chain after) ↔ ∃ w, before.getLast? = some (.name w) := by
  rw [← endsInName_iff]
  constructor
  · intro always
    by_contra behindMark
    obtain ⟨ctx, replaced⟩ := exists_replacing chain
    obtain ⟨gap, small, same⟩ := canonicalName_of_asWritten tokens behindMark (always ctx)
    exact replaced gap small same
  · intro behindName ctx
    exact asWritten_of_endsInName tokens behindName ctx

/-- The name of a tuple element behind a simple type. -/
theorem asWritten_iff_count :
    tokenize "(Int32 count, string name)".toList =
      [.mark '(', .name "Int32".toList] ++ .name "count".toList ::
        [.mark ',', .name "string".toList, .name "name".toList, .mark ')'] ∧
    ∀ ctx, AsWritten ctx "(Int32 count, string name)" [.mark '(', .name "Int32".toList]
      "count".toList [.mark ',', .name "string".toList, .name "name".toList, .mark ')'] :=
  have tokens : tokenize "(Int32 count, string name)".toList =
      [.mark '(', .name "Int32".toList] ++ .name "count".toList ::
        [.mark ',', .name "string".toList, .name "name".toList, .mark ')'] := by decide
  ⟨tokens, (asWritten_iff tokens).mpr ⟨"Int32".toList, rfl⟩⟩

/-- A member name behind a generic type and the name of a tuple element behind one are taken for
types: where they are aliases, the targets are shown. -/
theorem not_asWritten_behind_marks :
    let ctx : Context := { usings := { aliases := [("E", "System.Int64")] } }
    tokenize "List<int>.E".toList =
      [.name "List".toList, .mark '<', .name "int".toList, .mark '>', .mark '.'] ++
        [.name "E".toList] ∧
    canonical ctx "List<int>.E" = "List<int>.long" ∧
    ¬ AsWritten ctx "List<int>.E"
      [.name "List".toList, .mark '<', .name "int".toList, .mark '>', .mark '.'] "E".toList [] ∧
    canonical ctx "(List<int> E, int[] m)" = "(List<int>long, int[]m)" := by
  intro ctx
  have tokens : tokenize "List<int>.E".toList =
      [.name "List".toList, .mark '<', .name "int".toList, .mark '>', .mark '.'] ++
        [.name "E".toList] := by decide
  have name : canonicalName ctx "E".toList = "long".toList := by decide +kernel
  refine ⟨tokens, by decide +kernel, ?_, by decide +kernel⟩
  intro kept
  obtain ⟨gap, small, same⟩ := canonicalName_of_asWritten tokens (by decide) kept
  rw [name] at same
  rcases small with rfl | rfl
  · exact absurd same (by decide)
  · exact absurd same (by decide)

end Forwarding.TypeName
