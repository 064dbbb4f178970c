import Forwarding.Proofs.Outline.Quotations
import Forwarding.Proofs.Program.Numbering

/-!
The outline of a source without its comments. It has the same directives and the same declarations
with the same texts; only the places of the declarations differ.
-/

namespace Forwarding

open Syntax

/-! ### The same declarations at other places -/

/-- The same items in the same order, wherever they stand in the source. -/
inductive ItemsLike : List OutlineItem → List OutlineItem → Prop where
  | nil : ItemsLike [] []
  | cons {item item' items items'} (kind : item'.kind = item.kind) (name : item'.name = item.name)
      (modifiers : item'.modifiers = item.modifiers) (signature : item'.signature = item.signature)
      (inside : ItemsLike item.children item'.children) (behind : ItemsLike items items') :
      ItemsLike (item :: items) (item' :: items')

theorem ItemsLike.append {items items' others others' : List OutlineItem}
    (h : ItemsLike items items') (h' : ItemsLike others others') :
    ItemsLike (items ++ others) (items' ++ others') := by
  induction h with
  | nil => exact h'
  | cons kind name modifiers signature inside _ _ ih =>
    exact .cons kind name modifiers signature inside ih

theorem ItemsLike.refl (items : List OutlineItem) : ItemsLike items items := by
  induction items using itemsInduction with
  | nil => exact .nil
  | cons kind name modifiers span signature children items inside behind =>
    exact .cons rfl rfl rfl rfl inside behind

/-- The same outline, wherever its declarations stand in the source. -/
structure Outline.Like (o o' : Outline) : Prop where
  path : o'.path = o.path
  usings : o'.usings = o.usings
  items : ItemsLike o.items o'.items

theorem Outline.Like.refl (o : Outline) : o.Like o :=
  ⟨rfl, rfl, .refl o.items⟩

/-- Two readings fail alike or give related results. -/
inductive ResultsLike {ε α : Type} (related : α → α → Prop) : Except ε α → Except ε α → Prop where
  | ok {a b} (both : related a b) : ResultsLike related (.ok a) (.ok b)
  | error (e : ε) : ResultsLike related (.error e) (.error e)

theorem ResultsLike.refl {ε α : Type} {related : α → α → Prop} (same : ∀ a, related a a)
    (x : Except ε α) : ResultsLike related x x := by
  cases x with
  | ok a => exact .ok (same a)
  | error e => exact .error e

theorem ResultsLike.cases_eq {ε α : Type} {related : α → α → Prop} {x y : Except ε α}
    (h : ResultsLike related x y) :
    (∃ a b, x = .ok a ∧ y = .ok b ∧ related a b) ∨ ∃ e, x = .error e ∧ y = .error e := by
  cases h with
  | ok both => exact .inl ⟨_, _, rfl, rfl, both⟩
  | error e => exact .inr ⟨e, rfl, rfl⟩

theorem ResultsLike.bind {ε α β : Type} {related : α → α → Prop} {related' : β → β → Prop}
    {x y : Except ε α} {f g : α → Except ε β} (h : ResultsLike related x y)
    (step : ∀ a b, related a b → ResultsLike related' (f a) (g b)) :
    ResultsLike related' (x >>= f) (y >>= g) := by
  cases h with
  | ok both => exact step _ _ both
  | error e => exact .error e

/-! ### Reading trees that are alike -/

theorem bodyOf_of_like {ts us : List Tree} (h : TreesLike Token.Blanked ts us) :
    TreesLike Token.Blanked (bodyOf ts) (bodyOf us) := by
  induction h with
  | nil => exact .nil
  | leaf _ _ ih => exact ih
  | @node p inner inner' ts us inside _ _ ih =>
    by_cases body : p = .body
    · rw [body]
      exact inside
    · simpa [bodyOf, body] using ih

/-- No comment stands inside what the outline of these trees takes over. -/
abbrev Undisturbed (ts : List Tree) : Prop :=
  AllShaped (fun p parts => isUndisturbed p parts = true) ts

section Items

variable {ts us : List Tree} (h : TreesLike Token.Blanked ts us)
  {children children' : List OutlineItem} (inside : ItemsLike children children')

include h

theorem nameOf_of_like {kinds : List Part} (plain : arePlain kinds ts = true)
    (listed : .name ∈ kinds) : nameOf us = nameOf ts := by
  rw [nameOf, nameOf, partText?_of_like h plain listed]

theorem namespaceNameOf_of_like {kinds : List Part} (plain : arePlain kinds ts = true)
    (listed : .name ∈ kinds) : namespaceNameOf us = namespaceNameOf ts := by
  rw [namespaceNameOf, namespaceNameOf, partText?_of_like h plain listed]

include inside

theorem methodOf_of_like (plain : isUndisturbed .method ts = true) :
    ResultsLike (fun item item' => ItemsLike [item] [item'])
      (methodOf ts children) (methodOf us children') := by
  obtain ⟨texts, parameters⟩ := Bool.and_eq_true_iff.mp plain
  have name := nameOf_of_like h texts (by decide)
  have modifiers := modifiersOf_of_like h texts (by decide)
  unfold methodOf
  rw [signatureOf_of_like h texts parameters]
  cases signatureOf ts with
  | error e => exact .error e
  | ok signature => exact .ok (.cons rfl name modifiers rfl inside .nil)

theorem itemOf_of_like {kind : NodeKind} {name name' : String}
    (plain : arePlain [.name, .modifier] ts = true) (names : name' = name) :
    ItemsLike [{ itemOf kind name ts with children }]
      [{ itemOf kind name' us with children := children' }] :=
  .cons rfl names (modifiersOf_of_like h plain (by decide)) rfl inside .nil

end Items

theorem localFunctionsOf_of_like (ts : List Tree) {us : List Tree}
    (h : TreesLike Token.Blanked ts us) (plain : Undisturbed ts) :
    ResultsLike ItemsLike (localFunctionsOf ts) (localFunctionsOf us) := by
  induction ts using bodiesInduction generalizing us with
  | nil =>
    cases h
    rw [localFunctionsOf]
    exact .ok .nil
  | leaf t ts behind =>
    cases h with
    | leaf _ rest =>
      rw [localFunctionsOf_leaf, localFunctionsOf_leaf]
      exact behind rest plain.2
  | node p parts ts inside body behind =>
    cases h with
    | node inner rest =>
      obtain ⟨⟨here, below⟩, others⟩ := plain
      by_cases function : p = .localFunction
      · subst function
        rw [localFunctionsOf_function, localFunctionsOf_function]
        refine (body (bodyOf_of_like inner) (allShaped_bodyOf below)).bind fun _ _ children => ?_
        refine (methodOf_of_like inner children here).bind fun _ _ front => ?_
        exact (behind rest others).bind fun _ _ back => .ok (front.append back)
      · rw [localFunctionsOf_node function, localFunctionsOf_node function]
        refine (inside inner below).bind fun _ _ front => ?_
        exact (behind rest others).bind fun _ _ back => .ok (front.append back)

theorem itemsOf_of_like (ts : List Tree) {us : List Tree} (h : TreesLike Token.Blanked ts us)
    (plain : Undisturbed ts) : ResultsLike ItemsLike (itemsOf ts) (itemsOf us) := by
  induction ts using bodiesInduction generalizing us with
  | nil =>
    cases h
    rw [itemsOf]
    exact .ok .nil
  | leaf t ts behind =>
    cases h with
    | leaf _ rest =>
      rw [itemsOf_leaf, itemsOf_leaf]
      exact behind rest plain.2
  | node p parts ts inside body behind =>
    cases h with
    | @node _ _ parts' _ us inner rest =>
      obtain ⟨⟨here, below⟩, others⟩ := plain
      have bodies := body (bodyOf_of_like inner) (allShaped_bodyOf below)
      have after := behind rest others
      have function_of_like (function : p = .method ∨ p = .localFunction)
          (here : isUndisturbed .method parts = true) :
          ResultsLike ItemsLike (itemsOf (.node p parts :: ts)) (itemsOf (.node p parts' :: us)) := by
        rw [itemsOf_function function, itemsOf_function function]
        refine (localFunctionsOf_of_like _ (bodyOf_of_like inner)
          (allShaped_bodyOf below)).bind fun _ _ children => ?_
        refine (methodOf_of_like inner children here).bind fun _ _ front => ?_
        exact after.bind fun _ _ back => .ok (front.append back)
      by_cases holding : p ∈ holdingParts
      · simp only [holdingParts, List.mem_cons, List.not_mem_nil, or_false] at holding
        rcases holding with rfl | rfl | rfl | function | function | rfl
        · rw [itemsOf_fileNamespace, itemsOf_fileNamespace]
          refine (inside inner below).bind fun _ _ own => after.bind fun _ _ adopted => .ok ?_
          exact itemOf_of_like inner (own.append adopted) here
            (namespaceNameOf_of_like inner here (by decide))
        · rw [itemsOf_blockNamespace, itemsOf_blockNamespace]
          refine bodies.bind fun _ _ children => after.bind fun _ _ back => .ok ?_
          exact (itemOf_of_like inner children here
            (namespaceNameOf_of_like inner here (by decide))).append back
        · rw [itemsOf_container, itemsOf_container]
          refine bodies.bind fun _ _ children => after.bind fun _ _ back => .ok ?_
          exact (itemOf_of_like inner children here
            (nameOf_of_like inner here (by decide))).append back
        · subst function
          exact function_of_like (.inl rfl) here
        · subst function
          exact function_of_like (.inr rfl) here
        · rw [itemsOf_topStatement, itemsOf_topStatement]
          refine (localFunctionsOf_of_like _ inner below).bind fun _ _ front => ?_
          exact after.bind fun _ _ back => .ok (front.append back)
      · rw [itemsOf_other holding, itemsOf_other holding]
        exact after

theorem directivesOf_of_like (ts : List Tree) {us : List Tree} (h : TreesLike Token.Blanked ts us)
    (plain : Undisturbed ts) : directivesOf us = directivesOf ts := by
  induction ts using bodiesInduction generalizing us with
  | nil =>
    cases h
    rfl
  | leaf t ts behind =>
    cases h with
    | leaf _ rest => simpa [directivesOf] using behind rest plain.2
  | node p parts ts inside body behind =>
    cases h with
    | node inner rest =>
      obtain ⟨⟨here, below⟩, others⟩ := plain
      have bodies := body (bodyOf_of_like inner) (allShaped_bodyOf below)
      have after := behind rest others
      cases p with
      | usingDirective => simp only [directivesOf, sourceOf_blanked inner.tokens here, after]
      | fileNamespace => simp only [directivesOf, inside inner below, after]
      | blockNamespace | container => simp only [directivesOf, bodyDirectives_eq, bodies, after]
      | _ => simp only [directivesOf, after]

/-- **The outline of a source has nothing of its comments**, if none of them stands inside a text
that the outline takes over. -/
theorem ofSource_uncommented (w : Filler) (path : String) {source : String} {trees : List Tree}
    (read : parse? source = some trees) (plain : Undisturbed trees) (recover : Recovery) :
    ResultsLike Outline.Like (Outline.ofSource path source recover)
      (Outline.ofSource path (uncommented w source) recover) := by
  obtain ⟨trees', read', like⟩ := parse?_uncommented w read
  unfold Outline.ofSource Outline.ofTrees
  simp only [read, read', Option.getD_some]
  refine (itemsOf_of_like trees like plain).bind fun _ _ items => .ok ⟨rfl, ?_, items⟩
  rw [directivesOf_of_like trees like plain]

end Forwarding
