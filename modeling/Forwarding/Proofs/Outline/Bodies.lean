import Forwarding.Outline.OfTree
import Forwarding.Proofs.Syntax.Reading

/-!
The bodies of declarations. Three readings of a syntax tree look into the first body among the parts
of a declaration: for items, for local functions and for directives. All of them are the reading of
the trees in that body, so what is shown of them goes by one induction.
-/

namespace Forwarding

open Syntax

/-- The trees in the first body among the parts of a declaration. -/
def bodyOf : List Tree → List Tree
  | [] => []
  | .node .body inner :: _ => inner
  | _ :: ts => bodyOf ts

/-- A row of parts starts with a body or goes on to the next part. -/
theorem bodyOf_cases (t : Tree) (ts : List Tree) :
    (∃ inner, t = .node .body inner) ∨ (bodyOf (t :: ts) = bodyOf ts ∧
      bodyItems (t :: ts) = bodyItems ts ∧ bodyFunctions (t :: ts) = bodyFunctions ts ∧
      bodyDirectives (t :: ts) = bodyDirectives ts) := by
  cases t with
  | leaf t => exact .inr ⟨rfl, by simp [bodyItems], by simp [bodyFunctions], by simp [bodyDirectives]⟩
  | node p inner =>
    by_cases body : p = .body
    · exact .inl ⟨inner, by rw [body]⟩
    · exact .inr ⟨by simp [bodyOf, body], by simp [bodyItems, body], by simp [bodyFunctions, body],
        by simp [bodyDirectives, body]⟩

theorem bodyItems_eq (parts : List Tree) : bodyItems parts = itemsOf (bodyOf parts) := by
  induction parts with
  | nil => simp [bodyItems, bodyOf, itemsOf]
  | cons t ts ih =>
    rcases bodyOf_cases t ts with ⟨inner, rfl⟩ | ⟨next, items, _, _⟩
    · simp [bodyItems, bodyOf]
    · rw [items, next, ih]

theorem bodyFunctions_eq (parts : List Tree) :
    bodyFunctions parts = localFunctionsOf (bodyOf parts) := by
  induction parts with
  | nil => simp [bodyFunctions, bodyOf, localFunctionsOf]
  | cons t ts ih =>
    rcases bodyOf_cases t ts with ⟨inner, rfl⟩ | ⟨next, _, functions, _⟩
    · simp [bodyFunctions, bodyOf]
    · rw [functions, next, ih]

theorem bodyDirectives_eq (parts : List Tree) :
    bodyDirectives parts = directivesOf (bodyOf parts) := by
  induction parts with
  | nil => simp [bodyDirectives, bodyOf, directivesOf]
  | cons t ts ih =>
    rcases bodyOf_cases t ts with ⟨inner, rfl⟩ | ⟨next, _, _, directives⟩
    · simp [bodyDirectives, bodyOf]
    · rw [directives, next, ih]

/-- Induction over a row of trees: a node is met with what is known of its children and of the trees
in its body. -/
@[elab_as_elim]
theorem bodiesInduction {motive : List Tree → Prop} (nil : motive [])
    (leaf : ∀ t ts, motive ts → motive (.leaf t :: ts))
    (node : ∀ p parts ts, motive parts → motive (bodyOf parts) → motive ts →
      motive (.node p parts :: ts)) (ts : List Tree) : motive ts := by
  suffices both : motive ts ∧ motive (bodyOf ts) from both.1
  induction ts using treesInduction with
  | nil => exact ⟨nil, nil⟩
  | leaf t ts behind => exact ⟨leaf t ts behind.1, behind.2⟩
  | node p parts ts inside behind =>
    refine ⟨node p parts ts inside.1 inside.2 behind.1, ?_⟩
    rcases bodyOf_cases (.node p parts) ts with ⟨inner, same⟩ | ⟨next, _⟩
    · cases same
      exact inside.1
    · rw [next]
      exact behind.2

theorem allShaped_bodyOf {shape : Part → List Tree → Prop} {ts : List Tree}
    (h : AllShaped shape ts) : AllShaped shape (bodyOf ts) := by
  induction ts with
  | nil => exact trivial
  | cons t ts ih =>
    rcases bodyOf_cases t ts with ⟨inner, rfl⟩ | ⟨next, _⟩
    · exact h.1.2
    · rw [next]
      exact ih h.2

/-! ### One tree at a time -/

@[simp]
theorem localFunctionsOf_leaf (t : Token) (ts : List Tree) :
    localFunctionsOf (.leaf t :: ts) = localFunctionsOf ts := by
  rw [localFunctionsOf, localFunctions]
  cases localFunctionsOf ts <;> rfl

theorem localFunctionsOf_function (parts ts : List Tree) :
    localFunctionsOf (.node .localFunction parts :: ts) = do
      let item ← methodOf parts (← localFunctionsOf (bodyOf parts))
      return item :: (← localFunctionsOf ts) := by
  rw [localFunctionsOf, localFunctions, if_pos rfl, bodyFunctions_eq]
  simp only [bind_assoc, pure_bind, List.cons_append, List.nil_append]

theorem localFunctionsOf_node {p : Part} (other : p ≠ .localFunction) (parts ts : List Tree) :
    localFunctionsOf (.node p parts :: ts) = do
      let front ← localFunctionsOf parts
      return front ++ (← localFunctionsOf ts) := by
  rw [localFunctionsOf, localFunctions, if_neg other]

@[simp]
theorem itemsOf_leaf (t : Token) (ts : List Tree) : itemsOf (.leaf t :: ts) = itemsOf ts := by
  simp [itemsOf]

theorem itemsOf_fileNamespace (parts ts : List Tree) :
    itemsOf (.node .fileNamespace parts :: ts) = do
      let inside ← itemsOf parts
      let children := inside ++ (← itemsOf ts)
      return [{ itemOf .fileNamespace (namespaceNameOf parts) parts with children }] := by
  simp only [itemsOf]

theorem itemsOf_blockNamespace (parts ts : List Tree) :
    itemsOf (.node .blockNamespace parts :: ts) = do
      let children ← itemsOf (bodyOf parts)
      return { itemOf .blockNamespace (namespaceNameOf parts) parts with children } ::
        (← itemsOf ts) := by
  simp only [itemsOf, bodyItems_eq]

theorem itemsOf_container (parts ts : List Tree) :
    itemsOf (.node .container parts :: ts) = do
      let children ← itemsOf (bodyOf parts)
      return { itemOf .container (nameOf parts) parts with children } :: (← itemsOf ts) := by
  simp only [itemsOf, bodyItems_eq]

theorem itemsOf_function {p : Part} (function : p = .method ∨ p = .localFunction)
    (parts ts : List Tree) :
    itemsOf (.node p parts :: ts) = do
      let item ← methodOf parts (← localFunctionsOf (bodyOf parts))
      return item :: (← itemsOf ts) := by
  rcases function with rfl | rfl <;> simp only [itemsOf, bodyFunctions_eq]

theorem itemsOf_topStatement (parts ts : List Tree) :
    itemsOf (.node .topStatement parts :: ts) = do
      let front ← localFunctionsOf parts
      return front ++ (← itemsOf ts) := by
  simp only [itemsOf]

/-- The parts in which items are looked for. -/
def holdingParts : List Part :=
  [.fileNamespace, .blockNamespace, .container, .method, .localFunction, .topStatement]

theorem itemsOf_other {p : Part} (other : p ∉ holdingParts) (parts ts : List Tree) :
    itemsOf (.node p parts :: ts) = itemsOf ts := by
  cases p with
  | fileNamespace | blockNamespace | container | method | localFunction | topStatement =>
    exact absurd (by decide) other
  | _ => simp only [itemsOf]

/-! ### Readings that succeed -/

theorem bind_eq_ok {ε α β : Type} {x : Except ε α} {f : α → Except ε β} {b : β}
    (h : (x >>= f) = .ok b) : ∃ a, x = .ok a ∧ f a = .ok b := by
  cases x with
  | error e => cases h
  | ok a => exact ⟨a, rfl, h⟩

theorem methodOf_eq_ok {parts : List Tree} {children : List OutlineItem} {item : OutlineItem}
    (h : methodOf parts children = .ok item) :
    item.kind = .method ∧ item.span = (spanOf? (tokensOf parts)).getD {} ∧
      item.children = children := by
  unfold methodOf at h
  cases signature : signatureOf parts with
  | error e =>
    rw [signature] at h
    cases h
  | ok signature =>
    rw [signature] at h
    cases h
    exact ⟨rfl, rfl, rfl⟩

/-- The trees that a source is read as, well formed or not. -/
def readTrees (source : String) (recover : Recovery) : List Tree :=
  (parse? source).getD (recover source)

theorem readTrees_of_parse? {source : String} {trees : List Tree}
    (parsed : parse? source = some trees) (recover : Recovery) : readTrees source recover = trees := by
  rw [readTrees, parsed]
  rfl

theorem ofSource_eq_ok {path source : String} {recover : Recovery} {o : Outline} :
    Outline.ofSource path source recover = .ok o ↔
      ∃ items, itemsOf (readTrees source recover) = .ok items ∧ o = {
        path, usings := Usings.ofDirectives (directivesOf (readTrees source recover)), items
        hasErrors := (parse? source).isNone } := by
  rw [Outline.ofSource, Outline.ofTrees, ← readTrees]
  cases itemsOf (readTrees source recover) with
  | error e => simp [bind, Except.bind]
  | ok items => simp [bind, Except.bind, pure, Except.pure, eq_comm]

end Forwarding
