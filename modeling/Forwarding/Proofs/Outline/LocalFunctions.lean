import Forwarding.Proofs.Outline.DocumentOrder
import Forwarding.Proofs.Outline.FunctionPlaces
import Mathlib.Data.List.Forall2

/-!
Local functions in an outline. Two readings share the work: `itemsOf` goes through the declarations of
a file, and `localFunctionsOf` goes through the code of a body down to the next local functions, at
each of which it starts anew. So the functions that are listed and the method items of the outline
stand in two rows that go together one by one, and the functions that stand next in a function are its
children. In a source that is well formed, no local function is a member of a type.
-/

namespace Forwarding

open Syntax

/-! ### Items of functions -/

/-- The item of a method or local function. -/
structure ItemFor (t : Tree) (item : OutlineItem) : Prop where
  kind : item.kind = .method
  name : item.name = nameOf t.children
  modifiers : item.modifiers = modifiersOf t.children
  signature : signatureOf t.children = .ok item.signature
  span : item.span = t.span?.getD {}

theorem itemFor_of_methodOf {parts : List Tree} {children : List OutlineItem} {item : OutlineItem}
    (h : methodOf parts children = .ok item) (p : Part) : ItemFor (.node p parts) item := by
  unfold methodOf at h
  cases signature : signatureOf parts with
  | error e =>
    rw [signature] at h
    cases h
  | ok signature =>
    rw [signature] at h
    cases h
    exact ⟨rfl, rfl, rfl, by assumption, rfl⟩

mutual

/-- An item and those below it, each with the kind of what it stands right below. -/
def OutlineItem.withParent (parent : NodeKind) : OutlineItem → List (NodeKind × OutlineItem)
  | { kind, name, modifiers, span, signature, children } =>
    (parent, { kind, name, modifiers, span, signature, children }) :: withParents kind children

def withParents (parent : NodeKind) : List OutlineItem → List (NodeKind × OutlineItem)
  | [] => []
  | item :: items => item.withParent parent ++ withParents parent items

end

theorem withParents_cons (parent : NodeKind) (item : OutlineItem) (items : List OutlineItem) :
    withParents parent (item :: items) =
      (parent, item) :: (withParents item.kind item.children ++ withParents parent items) := by
  cases item
  rfl

theorem withParents_append (parent : NodeKind) (front rest : List OutlineItem) :
    withParents parent (front ++ rest) = withParents parent front ++ withParents parent rest := by
  induction front with
  | nil => rfl
  | cons item front ih =>
    rw [List.cons_append, withParents_cons, withParents_cons, ih, List.cons_append,
      List.append_assoc]

theorem map_withParents (parent : NodeKind) (items : List OutlineItem) :
    (withParents parent items).map (·.2) = itemsPreorder items := by
  induction items using itemsInduction generalizing parent with
  | nil => rfl
  | cons kind name modifiers span signature children items inside behind =>
    rw [withParents_cons, itemsPreorder_cons, List.map_cons, List.map_append, inside, behind]

/-! ### Functions and their items, one by one -/

/-- The item of a function has those of the functions next inside it as its children, and it stands
right below a type only if the function does. -/
structure Shows (f : Found) (e : NodeKind × OutlineItem) : Prop where
  item : ItemFor f.tree e.2
  parent : f.holder ≠ .type → e.1 ≠ .container
  children : List.Forall₂ (fun g child => ItemFor g.tree child)
    ((functionsInBody f.place 0 f.tree.children).filter (·.holder = .function f.place)) e.2.children

theorem filter_method_of_shows {fs : List Found} {es : List (NodeKind × OutlineItem)}
    (h : List.Forall₂ Shows fs es) : es.filter (·.2.kind = .method) = es := by
  refine List.filter_eq_self.mpr fun e mem => ?_
  induction h with
  | nil => cases mem
  | cons first _ ih =>
    rcases List.mem_cons.mp mem with rfl | mem
    · exact decide_eq_true first.item.kind
    · exact ih mem

section

variable (here : Place) (holder : Holder) (n : Nat) (parent : NodeKind)

/-- The item of a function goes with it, and what is below the item with what is in its body. -/
theorem shows_function {parts : List Tree} {children : List OutlineItem} {item : OutlineItem}
    (made : methodOf parts children = .ok item) (known : holder ≠ .type → parent ≠ .container)
    (below : List.Forall₂ Shows (functionsInBody here 0 parts) (withParents .method children))
    (next : List.Forall₂ (fun f item => ItemFor f.tree item)
      ((functionsInBody here 0 parts).filter (·.holder = .function here)) children) (p : Part) :
    List.Forall₂ Shows (⟨here, holder, .node p parts⟩ :: functionsInBody here 0 parts)
      (withParents parent [item]) := by
  have shows := itemFor_of_methodOf made p
  obtain ⟨_, _, rfl⟩ := methodOf_eq_ok made
  rw [withParents_cons, shows.kind, show withParents parent [] = [] from rfl, List.append_nil]
  exact .cons ⟨shows, known, next⟩ below

/-- A function does not lie in its own body. -/
theorem not_below_own (i k : Nat) (place : Place) (same : Holder.function here = .function place) :
    ¬Below (here ++ [i]) k place := by
  cases same
  exact fun within => not_below_self _ _ within.up

/-- The functions of code go with their items one by one, and the outermost ones with the items of the
code itself. -/
theorem shows_localFunctionsOf (ts : List Tree) {items : List OutlineItem}
    (read : localFunctionsOf ts = .ok items) (known : holder ≠ .type → parent ≠ .container)
    (apart : ∀ place, holder = .function place → ¬Below here n place) :
    List.Forall₂ Shows (functionsInRow here holder n ts) (withParents parent items) ∧
      List.Forall₂ (fun f item => ItemFor f.tree item)
        ((functionsInRow here holder n ts).filter (·.holder = holder)) items := by
  induction ts using bodiesInduction generalizing here holder n parent items with
  | nil =>
    rw [localFunctionsOf] at read
    cases read
    exact ⟨.nil, .nil⟩
  | leaf t ts behind =>
    rw [localFunctionsOf_leaf] at read
    rw [functionsInRow_leaf]
    exact behind here holder (n + 1) parent read known fun place same below =>
      apart place same (below.mono (Nat.le_succ n))
  | node p parts ts inside body behind =>
    have later {rest : List OutlineItem} (others : localFunctionsOf ts = .ok rest) :=
      behind here holder (n + 1) parent others known fun place same below =>
        apart place same (below.mono (Nat.le_succ n))
    by_cases function : p = .localFunction
    · subst function
      rw [localFunctionsOf_function] at read
      obtain ⟨children, nested, read⟩ := bind_eq_ok read
      obtain ⟨item, made, read⟩ := bind_eq_ok read
      obtain ⟨rest, others, same⟩ := bind_eq_ok read
      cases same
      obtain ⟨below, next⟩ := body (here ++ [n] ++ [0 + bodyIndex parts])
        (.function (here ++ [n])) 0 .method nested (by simp) (not_below_own _ _ _)
      rw [← functionsInBody_eq] at below next
      obtain ⟨behind, beside⟩ := later others
      rw [functionsInRow_function, List.filter_append, List.filter_cons_of_pos (by simp),
        show item :: rest = [item] ++ rest from rfl, withParents_append]
      -- What stands in the body stands next in a function of the row, and the holder does not.
      have skipped : (functionsInBody (here ++ [n]) 0 parts).filter (·.holder = holder) = [] := by
        refine List.filter_eq_nil_iff.mpr fun g mem same => ?_
        obtain ⟨place, held, within⟩ := (below_of_mem_functionsInBody mem).2
        exact apart place (held ▸ (of_decide_eq_true same).symm)
          (below_of_place within)
      rw [skipped]
      exact ⟨List.rel_append (shows_function _ holder parent made known below next _) behind,
        .cons (itemFor_of_methodOf made .localFunction) beside⟩
    · rw [localFunctionsOf_node function] at read
      obtain ⟨front, first, read⟩ := bind_eq_ok read
      obtain ⟨rest, others, same⟩ := bind_eq_ok read
      cases same
      obtain ⟨within, next⟩ := inside (here ++ [n]) holder 0 parent first known
        fun place same below => apart place same below.up
      obtain ⟨behind, beside⟩ := later others
      rw [functionsInRow_node function, withParents_append, List.filter_append]
      exact ⟨List.rel_append within behind, List.rel_append next beside⟩

/-- The same for the body of a function. -/
theorem shows_body {parts : List Tree} {children : List OutlineItem}
    (nested : localFunctionsOf (bodyOf parts) = .ok children) :
    List.Forall₂ Shows (functionsInBody here 0 parts) (withParents .method children) ∧
      List.Forall₂ (fun f item => ItemFor f.tree item)
        ((functionsInBody here 0 parts).filter (·.holder = .function here)) children := by
  rw [functionsInBody_eq]
  exact shows_localFunctionsOf _ (.function here) 0 .method _ nested (by simp) (not_below_own _ _ _)

/-- **The functions that are listed go with the method items one by one.** -/
theorem shows_itemsOf (ts : List Tree) {items : List OutlineItem} (read : itemsOf ts = .ok items)
    (known : holder ≠ .type → parent ≠ .container) (outside : ∀ place, holder ≠ .function place) :
    List.Forall₂ Shows (listedInRow here holder n ts)
      ((withParents parent items).filter (·.2.kind = .method)) := by
  induction ts using bodiesInduction generalizing here holder n parent items with
  | nil =>
    rw [itemsOf] at read
    cases read
    rw [listedInRow]
    exact .nil
  | leaf t ts behind =>
    rw [itemsOf_leaf] at read
    rw [listedInRow_leaf]
    exact behind here holder (n + 1) parent read known outside
  | node p parts ts inside body behind =>
    rw [listedInRow_node]
    have later {rest : List OutlineItem} (others : itemsOf ts = .ok rest) :=
      behind here holder (n + 1) parent others known outside
    -- A namespace or type adds nothing itself.
    have held {item : OutlineItem} (other : item.kind ≠ .method) (items : List OutlineItem) :
        (withParents parent (item :: items)).filter (·.2.kind = .method) =
          (withParents item.kind item.children).filter (·.2.kind = .method) ++
            (withParents parent items).filter (·.2.kind = .method) := by
      rw [withParents_cons, List.filter_cons_of_neg (by simpa using other), List.filter_append]
    by_cases holds : p ∈ holdingParts
    · cases p with
      | fileNamespace =>
        rw [itemsOf_fileNamespace] at read
        obtain ⟨own, inner, read⟩ := bind_eq_ok read
        obtain ⟨adopted, others, same⟩ := bind_eq_ok read
        cases same
        rw [held (by simp [itemOf]), withParents_append, List.filter_append,
          show withParents parent [] = [] from rfl, List.filter_nil, List.append_nil]
        exact List.rel_append (inside _ .outside 0 .fileNamespace inner (by simp) (by simp))
          (behind here holder (n + 1) .fileNamespace others (by simp) outside)
      | blockNamespace =>
        rw [itemsOf_blockNamespace] at read
        obtain ⟨children, nested, read⟩ := bind_eq_ok read
        obtain ⟨rest, others, same⟩ := bind_eq_ok read
        cases same
        rw [held (by simp [itemOf])]
        exact List.rel_append (body _ .outside 0 .blockNamespace nested (by simp) (by simp))
          (later others)
      | container =>
        rw [itemsOf_container] at read
        obtain ⟨children, nested, read⟩ := bind_eq_ok read
        obtain ⟨rest, others, same⟩ := bind_eq_ok read
        cases same
        rw [held (by simp [itemOf])]
        exact List.rel_append (body _ .type 0 .container nested (by simp) (by simp)) (later others)
      | method | localFunction =>
        rw [itemsOf_function (by simp)] at read
        obtain ⟨children, nested, read⟩ := bind_eq_ok read
        obtain ⟨item, made, read⟩ := bind_eq_ok read
        obtain ⟨rest, others, same⟩ := bind_eq_ok read
        cases same
        obtain ⟨below, next⟩ := shows_body (here ++ [n]) nested
        have shows := shows_function (here ++ [n]) holder parent made known below next
        rw [show item :: rest = [item] ++ rest from rfl, withParents_append, List.filter_append,
          filter_method_of_shows (shows .method)]
        exact List.rel_append (shows _) (later others)
      | topStatement =>
        rw [itemsOf_topStatement] at read
        obtain ⟨front, first, read⟩ := bind_eq_ok read
        obtain ⟨rest, others, same⟩ := bind_eq_ok read
        cases same
        have shows := (shows_localFunctionsOf (here ++ [n]) holder 0 parent _ first known
          fun place same => absurd same (outside place)).1
        rw [withParents_append, List.filter_append, filter_method_of_shows shows]
        exact List.rel_append shows (later others)
      | _ => exact absurd holds (by decide)
    · rw [itemsOf_other holds] at read
      have nothing : listedBy (here ++ [n]) holder p parts = [] := by
        cases p with
        | fileNamespace | blockNamespace | container | method | localFunction | topStatement =>
          exact absurd (by decide) holds
        | _ => rfl
      rw [nothing]
      exact later read

end

/-! ### Sources that are well formed -/

theorem shaped_getElem {shape : Part → List Tree → Prop} {ts : List Tree} {i : Nat} {t : Tree}
    (shaped : AllShaped shape ts) (stands : ts[i]? = some t) : t.Shaped shape := by
  induction ts generalizing i with
  | nil => cases stands
  | cons u ts ih =>
    cases i with
    | zero =>
      cases stands
      exact shaped.1
    | succ i => exact ih shaped.2 stands

theorem shaped_children {shape : Part → List Tree → Prop} {t : Tree} (shaped : t.Shaped shape) :
    AllShaped shape t.children := by
  cases t with
  | leaf t => exact trivial
  | node p parts => exact shaped.2

theorem shaped_of_declared {shape : Part → List Tree → Prop} {trees : List Tree}
    (shaped : AllShaped shape trees) {f : Found} (declared : Declared trees f) :
    f.tree.Shaped shape := by
  induction declared with
  | top stands => exact shaped_getElem shaped stands
  | inFileNamespace _ _ stands ih => exact shaped_getElem (shaped_children ih) stands
  | inNamespace _ _ stands ih | inType _ _ stands ih =>
    exact shaped_getElem (allShaped_bodyOf (shaped_children ih)) stands

/-- What stands in the body of a type is neither a statement nor a local function. -/
theorem apart_in_body {parts : List Tree} (h : Grammar.apart .container parts) {t : Tree}
    (mem : t ∈ bodyOf parts) : ∀ q ∈ Grammar.looseParts, t.hasPart q = false := by
  have within := h.2 rfl
  clear h
  induction parts with
  | nil => cases mem
  | cons u ts ih =>
    rcases bodyOf_cases u ts with ⟨inner, rfl⟩ | ⟨next, _⟩
    · exact within _ List.mem_cons_self rfl t mem
    · rw [next] at mem
      exact ih mem fun s hs => within s (List.mem_cons_of_mem _ hs)

theorem declared_outside {trees : List Tree} (apart : AllShaped Grammar.apart trees) {f : Found}
    (declared : Declared trees f) {q : Part} (loose : q ∈ Grammar.looseParts)
    (part : f.tree.hasPart q = true) : f.holder ≠ .type := by
  cases declared with
  | top | inFileNamespace | inNamespace => exact Holder.noConfusion
  | @inType d i t outer container stands =>
    have shaped := shaped_of_declared apart outer
    rw [eq_node_of_hasPart container] at shaped
    rw [apart_in_body shaped.1 (List.mem_of_getElem? stands) q loose] at part
    cases part

/-- **No local function is a member of a type.** -/
theorem listed_outside {trees : List Tree} (apart : AllShaped Grammar.apart trees) {f : Found}
    (listed : Listed trees f) (part : f.tree.hasPart .localFunction = true) : f.holder ≠ .type := by
  cases listed with
  | function declared => exact declared_outside apart declared (by decide) part
  | @statement s place t declared statement outermost =>
    exact declared_outside (f := s) (q := .topStatement) apart declared (by decide) statement
  | nested => exact Holder.noConfusion

end Forwarding
