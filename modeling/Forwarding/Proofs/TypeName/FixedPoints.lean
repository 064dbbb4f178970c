import Forwarding.Proofs.TypeName.Aliases
import Mathlib.Data.List.Basic

/-!
Canonical forms read again. The tokens of a laid out text are the tokens that were laid out, with
the names in type position replaced (`tokenize_layout`): no name is laid out so that it runs into
the next one, and a dot that joined nothing before joins nothing afterwards. So a canonical form is
its own canonical form wherever no replacement is replaced again (`canonical_canonical`).
-/

namespace Forwarding.TypeName

open Text (isBlank isNameChar)

/-! ### The tokens of a text without colons -/

def Lexeme.Plain : Lexeme → Prop
  | .word w => ∃ v : Word, v.chars = w
  | .doubleColon => False
  | .mark c => isBlank c = false ∧ isNameChar c = false ∧ c ≠ ':'

theorem plain_lexemes {cs : List Char} (colonless : ':' ∉ cs) : ∀ l ∈ lexemes cs, l.Plain := by
  induction cs using wordInduction with
  | nil =>
    intro l mem
    cases mem
  | other c cs other ih =>
    have rest := ih fun mem => colonless (List.mem_cons_of_mem c mem)
    cases blank : isBlank c with
    | true =>
      rw [lexemes_blank blank]
      exact rest
    | false =>
      have single : c ≠ ':' := fun same => colonless (same ▸ List.mem_cons_self)
      rw [lexemes_mark blank other fun colon => absurd colon single]
      exact List.forall_mem_cons.mpr ⟨⟨blank, other, single⟩, rest⟩
  | word w cs stop ih =>
    rw [lexemes_word w stop]
    exact List.forall_mem_cons.mpr
      ⟨⟨w, rfl⟩, ih fun mem => colonless (List.mem_append_right w.chars mem)⟩

/-- A dot comes next and a name behind it, over which a name in front would have grown. -/
def GoesOn (ts : List Token) : Prop :=
  ∃ chain rest, ts = .mark '.' :: .name chain :: rest

/-- Names are dotted chains that end where they cannot grow, and marks are visible. -/
inductive Plain : List Token → Prop
  | nil : Plain []
  | name {c : Chain} {ts : List Token} (dotted : c.Dotted) (ends : ¬ GoesOn ts) (rest : Plain ts) :
      Plain (.name c.chars :: ts)
  | mark {c : Char} {ts : List Token} (visible : isBlank c = false)
      (nameless : isNameChar c = false) (single : c ≠ ':') (rest : Plain ts) :
      Plain (.mark c :: ts)

theorem plain_link (w : Word) {ts : List Token} (plain : Plain ts) :
    Plain (Token.link w.chars ['.'] ts) := by
  have alone {us : List Token} (rest : Plain us) (nameless : ¬ GoesOn (.mark '.' :: us)) :
      Plain (.name w.chars :: .mark '.' :: us) :=
    .name (c := .word w) trivial nameless (.mark rfl rfl (by decide) rest)
  cases plain with
  | nil =>
    apply alone .nil
    rintro ⟨chain, rest, same⟩
    cases same
  | @name c ts dotted ends rest => exact .name (c := .link w .dot c) ⟨rfl, dotted⟩ ends rest
  | mark visible nameless single rest =>
    apply alone (.mark visible nameless single rest)
    rintro ⟨chain, rest, same⟩
    cases same

/-- A dot is a token of its own only where it was a lexeme. -/
theorem exists_dot_of_joinChains {ls : List Lexeme} {ts : List Token}
    (dot : joinChains ls = .mark '.' :: ts) : ∃ rest, ls = .mark '.' :: rest := by
  cases ls with
  | nil => cases dot
  | cons l ls =>
    cases l with
    | word w =>
      rcases joinChains_word_cases w ls with first | ⟨_, _, _, _, first⟩ <;>
        rw [first] at dot <;> cases dot
    | doubleColon => cases dot
    | mark c =>
      cases dot
      exact ⟨ls, rfl⟩

theorem plain_joinChains {ls : List Lexeme} (plain : ∀ l ∈ ls, l.Plain) :
    Plain (joinChains ls) := by
  induction ls using joinChains.induct with
  | case1 => exact .nil
  | case2 w rest ih =>
    obtain ⟨⟨v, rfl⟩, behind⟩ := List.forall_mem_cons.mp plain
    rw [joinChains]
    exact plain_link v (ih (List.forall_mem_cons.mp behind).2)
  | case3 w rest ih =>
    obtain ⟨-, behind⟩ := List.forall_mem_cons.mp plain
    exact (List.forall_mem_cons.mp behind).1.elim
  | case4 w rest dotless colonless ih =>
    obtain ⟨⟨v, rfl⟩, behind⟩ := List.forall_mem_cons.mp plain
    have ends : ¬ GoesOn (joinChains rest) := by
      rintro ⟨chain, ts, goesOn⟩
      obtain ⟨ls, rfl⟩ := exists_dot_of_joinChains goesOn
      exact dotless ls rfl
    rw [joinChains]
    · exact .name (c := .word v) trivial ends (ih behind)
    · exact dotless
    · exact colonless
  | case5 rest ih => exact (List.forall_mem_cons.mp plain).1.elim
  | case6 c rest ih =>
    obtain ⟨⟨visible, nameless, single⟩, behind⟩ := List.forall_mem_cons.mp plain
    exact .mark visible nameless single (ih behind)

theorem plain_tokenize {cs : List Char} (colonless : ':' ∉ cs) : Plain (tokenize cs) :=
  plain_joinChains (plain_lexemes colonless)

/-! ### Laying out and reading again -/

/-- The tokens with the names in type position replaced. -/
def renamed (rename : List Char → List Char) : Bool → List Token → List Token
  | _, [] => []
  | afterName, .name chain :: ts =>
    .name (if afterName then chain else rename chain) :: renamed rename true ts
  | _, .mark c :: ts => .mark c :: renamed rename false ts

/-- Every dotted chain is replaced by a dotted chain that is not replaced again. -/
def Stable (rename : List Char → List Char) : Prop :=
  ∀ c : Chain, c.Dotted → ∃ d : Chain, d.Dotted ∧ rename c.chars = d.chars ∧
    rename d.chars = d.chars

section

variable {rename : List Char → List Char} {ts : List Token}

theorem not_goesOn_renamed (ends : ¬ GoesOn ts) (afterName : Bool) :
    ¬ GoesOn (renamed rename afterName ts) := by
  rintro ⟨chain, rest, goesOn⟩
  apply ends
  cases ts with
  | nil => cases goesOn
  | cons t ts =>
    cases t with
    | name chain => cases goesOn
    | mark c =>
      obtain ⟨dot, behind⟩ := List.cons.inj goesOn
      cases dot
      cases ts with
      | nil => cases behind
      | cons u ts =>
        cases u with
        | name chain => exact ⟨chain, ts, rfl⟩
        | mark c => cases behind

/-- A chain ends where its characters end, unless a joint and a name follow. -/
theorem tokenize_chain_append (c : Chain) {cs : List Char}
    (stop : cs.head?.any isNameChar = false) (ends : ¬ GoesOn (tokenize cs))
    (colonless : (tokenize cs).head? ≠ some (.mark ':')) :
    tokenize (c.chars ++ cs) = .name c.chars :: tokenize cs := by
  induction c with
  | word w =>
    rw [Chain.chars, tokenize, lexemes_word w stop]
    rcases joinChains_word_cases w.chars (lexemes cs) with alone | ⟨joint, chain, ts, next, -⟩
    · exact alone
    · -- The word would grow over the joint, which `ends` and `colonless` exclude.
      cases joint with
      | dot => exact absurd ⟨chain, ts, next⟩ ends
      | colons =>
        rw [tokenize, next] at colonless
        exact absurd rfl colonless
  | link w joint rest ih =>
    rw [Chain.chars, List.append_assoc, tokenize_link, ih, Token.link]

theorem tokenize_markText {c : Char} (visible : isBlank c = false) (nameless : isNameChar c = false)
    (single : c ≠ ':') (rank : Nat) (cs : List Char) :
    tokenize (markText rank c ++ cs) = .mark c :: tokenize cs := by
  unfold markText
  split
  · rename_i comma
    obtain ⟨rfl, -⟩ := comma
    rw [List.cons_append, tokenize_mark visible nameless single, List.singleton_append,
      tokenize_blank (by decide)]
  · exact tokenize_mark visible nameless single cs

/-- Behind a name, what is laid out cannot be taken for a part of it. -/
theorem head_layout_of_plain (plain : Plain ts) (rank : Nat) :
    (layout rename true rank ts).head?.any isNameChar = false := by
  cases plain with
  | nil => rfl
  | name =>
    rw [layout_name]
    rfl
  | mark visible nameless single rest =>
    rw [layout_mark, markText]
    split
    · rfl
    · exact nameless

theorem head_renamed_of_plain (plain : Plain ts) (afterName : Bool) :
    (renamed rename afterName ts).head? ≠ some (.mark ':') := by
  cases plain with
  | nil => simp [renamed]
  | name => simp [renamed]
  | mark visible nameless single rest => simpa [renamed] using single

theorem tokenize_layout (stable : Stable rename) (plain : Plain ts) (afterName : Bool)
    (rank : Nat) : tokenize (layout rename afterName rank ts) = renamed rename afterName ts := by
  induction plain generalizing afterName rank with
  | nil => rfl
  | @name c ts dotted ends rest ih =>
    have tokens := ih true rank
    -- For the chain itself, which a label keeps, and for the one that takes its place.
    have grown (d : Chain) : tokenize (d.chars ++ layout rename true rank ts) =
        .name d.chars :: renamed rename true ts := by
      rw [tokenize_chain_append d (head_layout_of_plain rest rank), tokens]
      · rw [tokens]
        exact not_goesOn_renamed ends true
      · rw [tokens]
        exact head_renamed_of_plain rest true
    rw [layout_name, renamed]
    cases afterName with
    | true => exact (tokenize_blank (by decide) _).trans (grown c)
    | false =>
      obtain ⟨d, -, shown, -⟩ := stable c dotted
      rw [if_neg (by decide), if_neg (by decide), shown]
      exact grown d
  | mark visible nameless single rest ih =>
    rw [layout_mark, tokenize_markText visible nameless single, ih, renamed]

theorem layout_renamed (stable : Stable rename) (plain : Plain ts) (afterName : Bool) (rank : Nat) :
    layout rename afterName rank (renamed rename afterName ts) =
      layout rename afterName rank ts := by
  induction plain generalizing afterName rank with
  | nil => rfl
  | @name c ts dotted ends rest ih =>
    obtain ⟨d, -, shown, final⟩ := stable c dotted
    rw [renamed, layout_name, layout_name, ih]
    cases afterName with
    | true => rfl
    | false => simp only [Bool.false_eq_true, if_false, shown, final]
  | mark visible nameless single rest ih => rw [renamed, layout_mark, layout_mark, ih]

end

/-! ### Replacements that are final -/

/-- A dotted name of two words or more that is not a primitive type behind `System.`. -/
def QualifiedName (name : String) : Prop :=
  (∃ (w : Word) (rest : Chain), rest.Dotted ∧ name = (Chain.link w .dot rest).text) ∧
    ∀ e ∈ keywordTypes, name ≠ "System." ++ e.1

/-- There are no aliases, no project type has the name of a keyword, and every project type stands
for itself or for a qualified name. -/
structure Context.Settled (ctx : Context) : Prop where
  no_alias : ctx.usings.aliases = []
  no_keyword : ∀ e ∈ ctx.index.entries, ∀ k ∈ keywordTypes, e.1 ≠ k.2
  qualified : ∀ e ∈ ctx.index.entries, e.2 = e.1 ∨ QualifiedName e.2

theorem mem_of_unique? {index : TypeIndex} {name qualified : String}
    (known : index.unique? name = some qualified) : (name, qualified) ∈ index.entries := by
  unfold TypeIndex.unique? at known
  split at known
  · rename_i e only
    cases known
    have mem : e ∈ index.entries.filter (fun e => e.1 = name) := by
      rw [only]
      exact List.mem_singleton_self e
    obtain ⟨listed, same⟩ := List.mem_filter.mp mem
    rw [← of_decide_eq_true same]
    exact listed
  · cases known

/-- No keyword is the name of a primitive type. -/
theorem keyword?_of_keyword {e : String × String} (mem : e ∈ keywordTypes) (u : Usings) :
    keyword? u e.2.toList = none := by
  have apart : ∀ e ∈ keywordTypes, ∀ f ∈ keywordTypes, e.2 ≠ f.1 := by decide
  have dotless : '.' ∉ e.2.toList := not_mem_of_all (keywordTypes_lawful mem).keywordIsWord rfl
  rw [keyword?_eq_none_iff]
  intro f listed
  constructor
  · intro qualified
    rw [qualified] at dotless
    exact dotless (List.mem_append_left _ (by decide))
  · intro _ bare
    exact apart e mem f listed (String.toList_inj.mp bare)

theorem QualifiedName.dot {name : String} (qualified : QualifiedName name) : '.' ∈ name.toList := by
  obtain ⟨⟨w, rest, -, rfl⟩, -⟩ := qualified
  simp [Chain.text, Chain.chars, Joint.chars]

theorem QualifiedName.keyword?_eq_none {name : String} (qualified : QualifiedName name)
    (u : Usings) : keyword? u name.toList = none := by
  rw [keyword?_eq_none_iff]
  intro e mem
  constructor
  · intro system
    rw [← String.toList_append, String.toList_inj] at system
    exact qualified.2 e mem system
  · intro _ bare
    have dot := qualified.dot
    rw [bare] at dot
    exact not_mem_of_all (keywordTypes_lawful mem).nameIsWord rfl dot

section

variable {ctx : Context}

theorem Context.Settled.canonicalName_eq (settled : ctx.Settled) {c : Chain} (dotted : c.Dotted) :
    canonicalName ctx c.chars = placedName ctx c.chars := by
  apply canonicalName_of_unaliased (rooted?_of_colonless dotted.colonless)
  rw [Usings.alias?, settled.no_alias]
  rfl

theorem Context.Settled.unique?_keyword (settled : ctx.Settled) {e : String × String}
    (mem : e ∈ keywordTypes) : ctx.index.unique? e.2 = none := by
  cases known : ctx.index.unique? e.2 with
  | none => rfl
  | some qualified => exact absurd rfl (settled.no_keyword _ (mem_of_unique? known) e mem)

theorem Context.Settled.unique?_cases (settled : ctx.Settled) {name qualified : String}
    (known : ctx.index.unique? name = some qualified) :
    qualified = name ∨ QualifiedName qualified :=
  settled.qualified _ (mem_of_unique? known)

/-- A keyword is not replaced. -/
theorem Context.Settled.placedName_keyword (settled : ctx.Settled) {e : String × String}
    (mem : e ∈ keywordTypes) : placedName ctx e.2.toList = e.2.toList := by
  have dotless : '.' ∉ e.2.toList := not_mem_of_all (keywordTypes_lawful mem).keywordIsWord rfl
  rw [placedName_of_dotless (keyword?_of_keyword mem ctx.usings) dotless, String.ofList_toList,
    settled.unique?_keyword mem]
  rfl

theorem exists_keywordWord {e : String × String} (mem : e ∈ keywordTypes) :
    ∃ w : Word, w.chars = e.2.toList := by
  have nonempty : ∀ e ∈ keywordTypes, e.2.toList ≠ [] := by decide
  exact ⟨⟨e.2.toList, nonempty e mem, (keywordTypes_lawful mem).keywordIsWord⟩, rfl⟩

/-- A chain is shown by a keyword, by a qualified name, or as it is. -/
theorem Context.Settled.stable_placedName (settled : ctx.Settled) : Stable (placedName ctx) := by
  intro c dotted
  cases found : keyword? ctx.usings c.chars with
  | some word =>
    obtain ⟨e, mem, rfl, -⟩ := keyword?_eq_some_iff.mp found
    obtain ⟨w, chars⟩ := exists_keywordWord mem
    refine ⟨.word w, trivial, ?_, ?_⟩
    · rw [Chain.chars, chars]
      simp only [placedName, found]
    · rw [Chain.chars, chars]
      exact settled.placedName_keyword mem
  | none =>
    by_cases dot : '.' ∈ c.chars
    · have same := placedName_of_dot found dot
      exact ⟨c, dotted, same, same⟩
    · have shown := placedName_of_dotless found dot
      cases known : ctx.index.unique? (String.ofList c.chars) with
      | none =>
        rw [known] at shown
        exact ⟨c, dotted, shown, shown⟩
      | some name =>
        rw [known, Option.map_some, Option.getD_some] at shown
        rcases settled.unique?_cases known with rfl | qualified
        · rw [String.toList_ofList] at shown
          exact ⟨c, dotted, shown, shown⟩
        · have final : placedName ctx name.toList = name.toList :=
            placedName_of_dot (qualified.keyword?_eq_none ctx.usings) qualified.dot
          obtain ⟨⟨w, rest, restDotted, rfl⟩, -⟩ := qualified
          rw [Chain.text, String.toList_ofList] at shown final
          exact ⟨.link w .dot rest, ⟨rfl, restDotted⟩, shown, final⟩

theorem Context.Settled.stable (settled : ctx.Settled) : Stable (canonicalName ctx) := by
  intro c dotted
  obtain ⟨d, final, shown, kept⟩ := settled.stable_placedName c dotted
  refine ⟨d, final, ?_, ?_⟩
  · rw [settled.canonicalName_eq dotted, shown]
  · rw [settled.canonicalName_eq final, kept]

/-- **Canonical forms are final.** Where there are no aliases, no project type has the name of a
keyword, and every project type stands for itself or for a qualified name, the canonical form of a
text without colons is its own canonical form. -/
theorem canonical_canonical (settled : ctx.Settled) {text : String}
    (colonless : ':' ∉ text.toList) : canonical ctx (canonical ctx text) = canonical ctx text := by
  have plain : Plain (tokenize text.toList) := plain_tokenize colonless
  rw [← String.toList_inj, toList_canonical ctx (canonical ctx text), toList_canonical ctx text,
    tokenize_layout settled.stable plain, layout_renamed settled.stable plain]

/-- A text with a label, array ranks, stray dots and brackets that are not closed, in a project with
an ambiguous name and a type outside of all namespaces. -/
theorem canonical_canonical_stray :
    let ctx : Context := {
      usings := { namespaces := ["System"] },
      index := ⟨[("Vector", "Geometry.Vector"), ("Node", "A.Node"), ("Node", "B.Node"),
        ("Map", "Map")]⟩ }
    ctx.Settled ∧ ':' ∉ "Map<Int32 ,Vector v>[ , ] .. Node . [Vector.,".toList ∧
      canonical ctx (canonical ctx "Map<Int32 ,Vector v>[ , ] .. Node . [Vector.,") =
        canonical ctx "Map<Int32 ,Vector v>[ , ] .. Node . [Vector.," ∧
      canonical ctx "Map<Int32 ,Vector v>[ , ] .. Node . [Vector.," =
        "Map<int, Geometry.Vector v>[,]..Node.[Geometry.Vector.," := by
  intro ctx
  have geometry : QualifiedName "Geometry.Vector" :=
    ⟨⟨⟨"Geometry".toList, by decide, by decide⟩, .word ⟨"Vector".toList, by decide, by decide⟩,
      trivial, by decide⟩, by decide⟩
  have first : QualifiedName "A.Node" :=
    ⟨⟨⟨['A'], by decide, by decide⟩, .word ⟨"Node".toList, by decide, by decide⟩, trivial,
      by decide⟩, by decide⟩
  have second : QualifiedName "B.Node" :=
    ⟨⟨⟨['B'], by decide, by decide⟩, .word ⟨"Node".toList, by decide, by decide⟩, trivial,
      by decide⟩, by decide⟩
  have settled : ctx.Settled := by
    refine ⟨rfl, by decide, ?_⟩
    intro e mem
    simp only [ctx, List.mem_cons, List.not_mem_nil, or_false] at mem
    rcases mem with rfl | rfl | rfl | rfl
    · exact .inr geometry
    · exact .inr first
    · exact .inr second
    · exact .inl rfl
  have colonless : ':' ∉ "Map<Int32 ,Vector v>[ , ] .. Node . [Vector.,".toList := by decide
  exact ⟨settled, colonless, canonical_canonical settled colonless, by decide +kernel⟩

end

end Forwarding.TypeName
