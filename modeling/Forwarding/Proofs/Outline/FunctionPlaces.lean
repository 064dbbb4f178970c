import Forwarding.Proofs.Outline.Bodies
import Mathlib.Data.List.Nodup
import Mathlib.Data.List.Perm.Subperm

/-!
The functions that an outline lists, each at its place in the trees of a source. Two functions may
look alike in all that their trees show, so they are told apart by where they stand. What is listed is
said without the outline, for any trees; that there is one row of all these functions in the order of
the source, none of them twice, is shown by going through the trees.
-/

namespace Forwarding

open Syntax

/-- Where a tree stands: its number in the row, then that of a child of this tree, and so on. -/
abbrev Place := List Nat

/-- What a function stands next in. -/
inductive Holder where
  /-- A file or a namespace. -/
  | outside
  | type
  /-- The function at the place. -/
  | function (place : Place)
  deriving DecidableEq, Repr

/-- A tree with where it stands. -/
structure Found where
  place : Place
  holder : Holder
  tree : Tree

/-! ### What is listed -/

/-- The tree stands in the row, or at any depth in trees of the row that may be gone through. -/
inductive Reached (through : Tree → Bool) : List Tree → Place → Tree → Prop where
  | here {ts i t} (stands : ts[i]? = some t) : Reached through ts [i] t
  | deeper {ts i s place t} (stands : ts[i]? = some s) (passed : through s = true)
      (inside : Reached through s.children place t) : Reached through ts (i :: place) t

/-- A local function in a row of trees that lies in no other local function of the row. -/
def Outermost (ts : List Tree) (place : Place) (t : Tree) : Prop :=
  Reached (fun s => !s.hasPart .localFunction) ts place t ∧ t.hasPart .localFunction = true

/-- The number of the first body among the parts of a declaration. -/
def bodyIndex (parts : List Tree) : Nat :=
  parts.findIdx (·.hasPart .body)

/-- The declarations and statements of a file, and those in its namespaces and types. Conditional code
is not looked into. -/
inductive Declared (trees : List Tree) : Found → Prop where
  | top {i t} (stands : trees[i]? = some t) : Declared trees ⟨[i], .outside, t⟩
  | inFileNamespace {d i t} (outer : Declared trees d)
      (part : d.tree.hasPart .fileNamespace = true) (stands : d.tree.children[i]? = some t) :
      Declared trees ⟨d.place ++ [i], .outside, t⟩
  | inNamespace {d i t} (outer : Declared trees d) (part : d.tree.hasPart .blockNamespace = true)
      (stands : (bodyOf d.tree.children)[i]? = some t) :
      Declared trees ⟨d.place ++ [bodyIndex d.tree.children, i], .outside, t⟩
  | inType {d i t} (outer : Declared trees d) (part : d.tree.hasPart .container = true)
      (stands : (bodyOf d.tree.children)[i]? = some t) :
      Declared trees ⟨d.place ++ [bodyIndex d.tree.children, i], .type, t⟩

/-- The functions that are declared, the local functions of statements, and the local functions in the
bodies of these, each in the body of the function next around it. -/
inductive Listed (trees : List Tree) : Found → Prop where
  | function {f} (declared : Declared trees f)
      (part : f.tree.hasPart .method = true ∨ f.tree.hasPart .localFunction = true) :
      Listed trees f
  | statement {s place t} (declared : Declared trees s)
      (part : s.tree.hasPart .topStatement = true) (inside : Outermost s.tree.children place t) :
      Listed trees ⟨s.place ++ place, s.holder, t⟩
  | nested {f place t} (outer : Listed trees f)
      (inside : Outermost (bodyOf f.tree.children) place t) :
      Listed trees ⟨f.place ++ bodyIndex f.tree.children :: place, .function f.place, t⟩

theorem Declared.holder {trees : List Tree} {f : Found} (h : Declared trees f) :
    f.holder = .outside ∨ f.holder = .type := by
  cases h with
  | top | inFileNamespace | inNamespace => exact .inl rfl
  | inType => exact .inr rfl

theorem Reached.exists_cons {through : Tree → Bool} {ts : List Tree} {place : Place} {t : Tree}
    (h : Reached through ts place t) : ∃ i rest, place = i :: rest := by
  cases h with
  | here => exact ⟨_, [], rfl⟩
  | deeper => exact ⟨_, _, rfl⟩

theorem not_reached_nil {through : Tree → Bool} {place : Place} {t : Tree} :
    ¬Reached through [] place t := by
  intro h
  cases h with
  | here stands => simp at stands
  | deeper stands => simp at stands

theorem Outermost.cons {ts : List Tree} {i : Nat} {rest : Place} {t : Tree}
    (h : Outermost ts (i :: rest) t) (u : Tree) : Outermost (u :: ts) ((i + 1) :: rest) t := by
  obtain ⟨reached, part⟩ := h
  refine ⟨?_, part⟩
  cases reached with
  | here stands => exact .here stands
  | deeper stands passed inside => exact .deeper stands passed inside

theorem eq_node_of_hasPart {p : Part} {t : Tree} (h : t.hasPart p = true) :
    t = .node p t.children := by
  cases t with
  | leaf t => cases h
  | node q parts => rw [of_decide_eq_true h]; rfl

/-! ### The functions of code in order -/

mutual

/-- The local functions of the tree at a place, with those inside them. -/
def functionsIn (here : Place) (holder : Holder) : Tree → List Found
  | .leaf _ => []
  | .node part parts =>
    if part = .localFunction then ⟨here, holder, .node part parts⟩ :: functionsInBody here 0 parts
    else functionsInRow here holder 0 parts

/-- The local functions of neighbouring children of the tree at a place, the first of which has the
number `n`. -/
def functionsInRow (here : Place) (holder : Holder) (n : Nat) : List Tree → List Found
  | [] => []
  | t :: ts => functionsIn (here ++ [n]) holder t ++ functionsInRow here holder (n + 1) ts

/-- The local functions in the body of the function at a place. -/
def functionsInBody (here : Place) (n : Nat) : List Tree → List Found
  | [] => []
  | .node .body inner :: _ => functionsInRow (here ++ [n]) (.function here) 0 inner
  | _ :: ts => functionsInBody here (n + 1) ts

end

/-- A body is found where a row of parts has it. -/
theorem bodyIndex_cases (t : Tree) (ts : List Tree) :
    (∃ inner, t = .node .body inner ∧ bodyIndex (t :: ts) = 0) ∨
      t.hasPart .body = false ∧ bodyOf (t :: ts) = bodyOf ts ∧
        bodyIndex (t :: ts) = bodyIndex ts + 1 := by
  cases body : t.hasPart .body with
  | true =>
    refine .inl ⟨t.children, eq_node_of_hasPart body, ?_⟩
    rw [bodyIndex, List.findIdx_cons, body]
    rfl
  | false =>
    refine .inr ⟨rfl, ?_, ?_⟩
    · rcases bodyOf_cases t ts with ⟨inner, rfl⟩ | ⟨next, _⟩
      · cases body
      · exact next
    · rw [bodyIndex, List.findIdx_cons, body]
      rfl

/-- A reading that counts parts up to the first body and then looks into it reads that body, with its
number. -/
theorem reading_at_body {α : Type} {r b : Nat → List Tree → List α}
    (nil : ∀ n, r n [] = b n []) (found : ∀ n inner ts, r n (.node .body inner :: ts) = b n inner)
    (next : ∀ n t ts, t.hasPart .body = false → r n (t :: ts) = r (n + 1) ts) (n : Nat)
    (parts : List Tree) : r n parts = b (n + bodyIndex parts) (bodyOf parts) := by
  induction parts generalizing n with
  | nil => exact nil n
  | cons t ts ih =>
    rcases bodyIndex_cases t ts with ⟨inner, rfl, index⟩ | ⟨other, behind, index⟩
    · rw [index]
      exact found n inner ts
    · rw [next n t ts other, ih, behind, index, Nat.add_right_comm, Nat.add_assoc]

theorem functionsInBody_eq (here : Place) (n : Nat) (parts : List Tree) :
    functionsInBody here n parts =
      functionsInRow (here ++ [n + bodyIndex parts]) (.function here) 0 (bodyOf parts) := by
  refine reading_at_body (b := fun n ts => functionsInRow (here ++ [n]) (.function here) 0 ts)
    (fun n => ?_) (fun n inner ts => ?_) (fun n t ts other => ?_) n parts
  · rw [functionsInBody, functionsInRow]
  · rw [functionsInBody]
  · cases t with
    | leaf => simp [functionsInBody]
    | node p inner => simp [functionsInBody, Ne.symm (of_decide_eq_false other)]

@[simp]
theorem functionsInRow_leaf (here : Place) (holder : Holder) (n : Nat) (t : Token)
    (ts : List Tree) :
    functionsInRow here holder n (.leaf t :: ts) = functionsInRow here holder (n + 1) ts := by
  rw [functionsInRow, functionsIn, List.nil_append]

theorem functionsInRow_function (here : Place) (holder : Holder) (n : Nat) (parts ts : List Tree) :
    functionsInRow here holder n (.node .localFunction parts :: ts) =
      ⟨here ++ [n], holder, .node .localFunction parts⟩ ::
        functionsInBody (here ++ [n]) 0 parts ++ functionsInRow here holder (n + 1) ts := by
  rw [functionsInRow, functionsIn, if_pos rfl]

theorem functionsInRow_node {p : Part} (other : p ≠ .localFunction) (here : Place)
    (holder : Holder) (n : Nat) (parts ts : List Tree) :
    functionsInRow here holder n (.node p parts :: ts) =
      functionsInRow (here ++ [n]) holder 0 parts ++ functionsInRow here holder (n + 1) ts := by
  rw [functionsInRow, functionsIn, if_neg other]

/-- What holds of the outermost functions of a row, and with each function of the outermost ones in
its body, holds of all functions of the row. -/
theorem functionsInRow_induction {P : Found → Prop}
    (nested : ∀ f place t, P f → Outermost (bodyOf f.tree.children) place t →
      P ⟨f.place ++ bodyIndex f.tree.children :: place, .function f.place, t⟩) (ts : List Tree)
    {here : Place} {holder : Holder} {n : Nat}
    (start : ∀ i rest t, Outermost ts (i :: rest) t → P ⟨here ++ (n + i) :: rest, holder, t⟩) :
    ∀ f ∈ functionsInRow here holder n ts, P f := by
  induction ts using bodiesInduction generalizing here holder n with
  | nil => simp [functionsInRow]
  | leaf t ts behind =>
    rw [functionsInRow_leaf]
    refine behind fun i rest u h => ?_
    rw [Nat.add_right_comm, Nat.add_assoc]
    exact start (i + 1) rest u (h.cons (.leaf t))
  | node p parts ts inside body behind =>
    have later : ∀ f ∈ functionsInRow here holder (n + 1) ts, P f := by
      refine behind fun i rest u h => ?_
      rw [Nat.add_right_comm, Nat.add_assoc]
      exact start (i + 1) rest u (h.cons (.node p parts))
    by_cases function : p = .localFunction
    · subst function
      rw [functionsInRow_function]
      have own : P ⟨here ++ [n], holder, .node .localFunction parts⟩ :=
        start 0 [] _ ⟨.here rfl, rfl⟩
      refine List.forall_mem_append.mpr ⟨List.forall_mem_cons.mpr ⟨own, ?_⟩, later⟩
      rw [functionsInBody_eq]
      refine body fun i rest u h => ?_
      simpa [List.append_assoc, Tree.children] using nested _ (i :: rest) u own h
    · rw [functionsInRow_node function]
      refine List.forall_mem_append.mpr ⟨inside fun i rest u h => ?_, later⟩
      have deeper : Outermost (.node p parts :: ts) (0 :: i :: rest) u :=
        ⟨.deeper (s := .node p parts) rfl (by simpa [Tree.hasPart] using Ne.symm function) h.1, h.2⟩
      simpa [List.append_assoc] using start 0 (i :: rest) u deeper

/-- Each outermost function of a row is among its functions. -/
theorem mem_functionsInRow_of_outermost {ts : List Tree} {i : Nat} {rest : Place} {t : Tree}
    (h : Outermost ts (i :: rest) t) (here : Place) (holder : Holder) (n : Nat) :
    ⟨here ++ (n + i) :: rest, holder, t⟩ ∈ functionsInRow here holder n ts := by
  have among {ts : List Tree} {s : Tree} {i : Nat} (stands : ts[i]? = some s) (here : Place)
      (n : Nat) {f : Found} (mem : f ∈ functionsIn (here ++ [n + i]) holder s) :
      f ∈ functionsInRow here holder n ts := by
    induction ts generalizing i n with
    | nil => cases stands
    | cons u ts ih =>
      rw [functionsInRow, List.mem_append]
      cases i with
      | zero =>
        cases stands
        exact .inl mem
      | succ i =>
        refine .inr (ih stands (n + 1) ?_)
        rwa [Nat.add_right_comm, Nat.add_assoc]
  obtain ⟨reached, part⟩ := h
  generalize whole : i :: rest = place at reached
  induction reached generalizing here n i rest with
  | here stands =>
    cases whole
    refine among stands here n ?_
    rw [eq_node_of_hasPart part, functionsIn, if_pos rfl]
    exact List.mem_cons_self
  | @deeper ts j s place t stands passed inside ih =>
    cases whole
    obtain ⟨k, rest, rfl⟩ := inside.exists_cons
    refine among stands here n ?_
    cases s with
    | leaf s => exact absurd inside not_reached_nil
    | node p inner =>
      have other : p ≠ .localFunction := by
        rintro rfl
        cases passed
      rw [functionsIn, if_neg other]
      simpa [List.append_assoc, Tree.children] using ih (here ++ [n + j]) 0 part rfl

/-- The functions in the body of a function stand with it in one stretch. -/
theorem functionsInBody_sublist (ts : List Tree) {here : Place} {holder : Holder} {n : Nat}
    {f : Found} (mem : f ∈ functionsInRow here holder n ts) :
    (functionsInBody f.place 0 f.tree.children).Sublist (functionsInRow here holder n ts) := by
  induction ts using bodiesInduction generalizing here holder n with
  | nil => simp [functionsInRow] at mem
  | leaf t ts behind =>
    rw [functionsInRow_leaf] at mem ⊢
    exact behind mem
  | node p parts ts inside body behind =>
    by_cases function : p = .localFunction
    · subst function
      rw [functionsInRow_function] at mem ⊢
      rcases List.mem_append.mp mem with mem | mem
      · refine List.Sublist.trans (.cons _ ?_) (List.sublist_append_left ..)
        rcases List.mem_cons.mp mem with rfl | mem
        · exact .refl _
        · rw [functionsInBody_eq (here ++ [n])] at mem ⊢
          exact body mem
      · exact (behind mem).trans (List.sublist_append_right ..)
    · rw [functionsInRow_node function] at mem ⊢
      rcases List.mem_append.mp mem with mem | mem
      · exact (inside mem).trans (List.sublist_append_left ..)
      · exact (behind mem).trans (List.sublist_append_right ..)

/-- The place lies in a child of the tree at `here` with the number `n` or a later one. -/
def Below (here : Place) (n : Nat) (place : Place) : Prop :=
  ∃ m rest, n ≤ m ∧ place = here ++ m :: rest

theorem Below.mono {here place : Place} {n k : Nat} (h : Below here n place) (le : k ≤ n) :
    Below here k place := by
  obtain ⟨m, rest, after, rfl⟩ := h
  exact ⟨m, rest, Nat.le_trans le after, rfl⟩

theorem Below.up {here place : Place} {n k : Nat} (h : Below (here ++ [n]) k place) :
    Below here n place := by
  obtain ⟨m, rest, _, rfl⟩ := h
  exact ⟨n, m :: rest, Nat.le_refl n, by simp⟩

theorem Below.append {here place : Place} {n : Nat} (h : Below here n place) (more : Place) :
    Below here n (place ++ more) := by
  obtain ⟨m, rest, after, rfl⟩ := h
  exact ⟨m, rest ++ more, after, by simp⟩

theorem not_below_self (here : Place) (n : Nat) : ¬Below here n here := by
  rintro ⟨m, rest, _, same⟩
  have length := congrArg List.length same
  simp at length

/-- What lies in a child does not lie in a later one. -/
theorem Below.not_later {here place : Place} {n k : Nat} (h : Below (here ++ [n]) k place) :
    ¬Below here (n + 1) place := by
  rintro ⟨m, rest, after, same⟩
  obtain ⟨m', rest', _, rfl⟩ := h
  rw [List.append_assoc, List.append_cancel_left_eq] at same
  have := (List.cons.inj same).1
  omega

theorem not_below_next (here : Place) (n : Nat) : ¬Below here (n + 1) (here ++ [n]) := by
  rintro ⟨m, rest, after, same⟩
  rw [List.append_cancel_left_eq] at same
  have := (List.cons.inj same).1
  omega

/-- The functions of a row lie in the row, and so do the functions that they stand next in. -/
theorem below_of_mem_functionsInRow {ts : List Tree} {here : Place} {holder : Holder} {n : Nat}
    {f : Found} (mem : f ∈ functionsInRow here holder n ts) :
    Below here n f.place ∧
      (f.holder = holder ∨ ∃ place, f.holder = .function place ∧ Below here n place) := by
  refine functionsInRow_induction (P := fun f => Below here n f.place ∧
    (f.holder = holder ∨ ∃ place, f.holder = .function place ∧ Below here n place))
    ?_ ts ?_ f mem
  · rintro f place t ⟨below, _⟩ _
    exact ⟨below.append _, .inr ⟨f.place, rfl, below⟩⟩
  · intro i rest t _
    exact ⟨⟨n + i, rest, Nat.le_add_right n i, rfl⟩, .inl rfl⟩

theorem below_of_mem_functionsInBody {parts : List Tree} {here : Place} {n : Nat} {f : Found}
    (mem : f ∈ functionsInBody here n parts) :
    Below here n f.place ∧
      ∃ place, f.holder = .function place ∧ (place = here ∨ Below here n place) := by
  rw [functionsInBody_eq] at mem
  obtain ⟨below, holder⟩ := below_of_mem_functionsInRow mem
  refine ⟨below.up.mono (Nat.le_add_right ..), ?_⟩
  rcases holder with same | ⟨place, same, within⟩
  · exact ⟨here, same, .inl rfl⟩
  · exact ⟨place, same, .inr (within.up.mono (Nat.le_add_right ..))⟩

/-- A function and those in its body stand at its place or in it. -/
theorem place_of_mem_function {here : Place} {holder : Holder} {t : Tree} {parts : List Tree}
    {f : Found} (mem : f ∈ ⟨here, holder, t⟩ :: functionsInBody here 0 parts) :
    f.place = here ∨ Below here 0 f.place := by
  rcases List.mem_cons.mp mem with rfl | mem
  · exact .inl rfl
  · exact .inr (below_of_mem_functionsInBody mem).1

theorem below_of_place {here place : Place} {n : Nat}
    (h : place = here ++ [n] ∨ Below (here ++ [n]) 0 place) : Below here n place := by
  rcases h with rfl | below
  · exact ⟨n, [], Nat.le_refl n, rfl⟩
  · exact below.up

/-- What stands at the place of a child or in it does not lie in a later one. -/
theorem not_below_later {here place : Place} {n : Nat}
    (h : place = here ++ [n] ∨ Below (here ++ [n]) 0 place) : ¬Below here (n + 1) place := by
  rcases h with rfl | below
  · exact not_below_next here n
  · exact below.not_later

/-- Rows that lie apart have no place in common. -/
theorem nodup_append_places {fs gs : List Found} (first : (fs.map (·.place)).Nodup)
    (second : (gs.map (·.place)).Nodup) (apart : ∀ f ∈ fs, ∀ g ∈ gs, f.place ≠ g.place) :
    ((fs ++ gs).map (·.place)).Nodup := by
  rw [List.map_append, List.nodup_append]
  refine ⟨first, second, ?_⟩
  rintro _ hf _ hg
  obtain ⟨f, mem, rfl⟩ := List.mem_map.mp hf
  obtain ⟨g, mem', rfl⟩ := List.mem_map.mp hg
  exact apart f mem g mem'

theorem nodup_function {here : Place} (holder : Holder) (t : Tree) {parts : List Tree}
    (body : ((functionsInBody here 0 parts).map (·.place)).Nodup) :
    ((⟨here, holder, t⟩ :: functionsInBody here 0 parts).map (·.place)).Nodup := by
  refine List.nodup_cons.mpr ⟨fun again => ?_, body⟩
  obtain ⟨g, mem, same⟩ := List.mem_map.mp again
  exact not_below_self _ _ (same ▸ (below_of_mem_functionsInBody mem).1)

theorem nodup_functionsInRow (ts : List Tree) (here : Place) (holder : Holder) (n : Nat) :
    ((functionsInRow here holder n ts).map (·.place)).Nodup := by
  induction ts using bodiesInduction generalizing here holder n with
  | nil => simp [functionsInRow]
  | leaf t ts behind =>
    rw [functionsInRow_leaf]
    exact behind here holder (n + 1)
  | node p parts ts inside body behind =>
    have later := behind here holder (n + 1)
    by_cases function : p = .localFunction
    · subst function
      rw [functionsInRow_function]
      refine nodup_append_places (nodup_function _ _ ?_) later fun f mem g mem' same => ?_
      · rw [functionsInBody_eq]
        exact body ..
      · exact not_below_later (place_of_mem_function mem)
          (same ▸ (below_of_mem_functionsInRow mem').1)
    · rw [functionsInRow_node function]
      refine nodup_append_places (inside ..) later fun f mem g mem' same => ?_
      exact (below_of_mem_functionsInRow mem).1.not_later
        (same ▸ (below_of_mem_functionsInRow mem').1)

/-! ### The functions of declarations in order -/

mutual

/-- The functions of neighbouring declarations in the tree at a place. -/
def listedInRow (here : Place) (holder : Holder) (n : Nat) : List Tree → List Found
  | [] => []
  | .node .fileNamespace parts :: ts =>
    listedInRow (here ++ [n]) .outside 0 parts ++ listedInRow here holder (n + 1) ts
  | .node .blockNamespace parts :: ts =>
    listedInBody (here ++ [n]) .outside 0 parts ++ listedInRow here holder (n + 1) ts
  | .node .container parts :: ts =>
    listedInBody (here ++ [n]) .type 0 parts ++ listedInRow here holder (n + 1) ts
  | .node .method parts :: ts =>
    ⟨here ++ [n], holder, .node .method parts⟩ ::
      (functionsInBody (here ++ [n]) 0 parts ++ listedInRow here holder (n + 1) ts)
  | .node .localFunction parts :: ts =>
    ⟨here ++ [n], holder, .node .localFunction parts⟩ ::
      (functionsInBody (here ++ [n]) 0 parts ++ listedInRow here holder (n + 1) ts)
  | .node .topStatement parts :: ts =>
    functionsInRow (here ++ [n]) holder 0 parts ++ listedInRow here holder (n + 1) ts
  | _ :: ts => listedInRow here holder (n + 1) ts

/-- The functions of the declarations in the body of the declaration at a place. -/
def listedInBody (here : Place) (holder : Holder) (n : Nat) : List Tree → List Found
  | [] => []
  | .node .body inner :: _ => listedInRow (here ++ [n]) holder 0 inner
  | _ :: ts => listedInBody here holder (n + 1) ts

end

theorem listedInBody_eq (here : Place) (holder : Holder) (n : Nat) (parts : List Tree) :
    listedInBody here holder n parts =
      listedInRow (here ++ [n + bodyIndex parts]) holder 0 (bodyOf parts) := by
  refine reading_at_body (b := fun n ts => listedInRow (here ++ [n]) holder 0 ts)
    (fun n => ?_) (fun n inner ts => ?_) (fun n t ts other => ?_) n parts
  · rw [listedInBody, listedInRow]
  · rw [listedInBody]
  · cases t with
    | leaf => simp [listedInBody]
    | node p inner => simp [listedInBody, Ne.symm (of_decide_eq_false other)]

/-- The functions that one node at a place adds to its row. -/
def listedBy (here : Place) (holder : Holder) (p : Part) (parts : List Tree) : List Found :=
  match p with
  | .fileNamespace => listedInRow here .outside 0 parts
  | .blockNamespace => listedInRow (here ++ [bodyIndex parts]) .outside 0 (bodyOf parts)
  | .container => listedInRow (here ++ [bodyIndex parts]) .type 0 (bodyOf parts)
  | .method | .localFunction => ⟨here, holder, .node p parts⟩ :: functionsInBody here 0 parts
  | .topStatement => functionsInRow here holder 0 parts
  | _ => []

@[simp]
theorem listedInRow_leaf (here : Place) (holder : Holder) (n : Nat) (t : Token) (ts : List Tree) :
    listedInRow here holder n (.leaf t :: ts) = listedInRow here holder (n + 1) ts := by
  simp [listedInRow]

theorem listedInRow_node (here : Place) (holder : Holder) (n : Nat) (p : Part)
    (parts ts : List Tree) :
    listedInRow here holder n (.node p parts :: ts) =
      listedBy (here ++ [n]) holder p parts ++ listedInRow here holder (n + 1) ts := by
  cases p <;> simp [listedInRow, listedBy, listedInBody_eq]

theorem below_of_mem_listedInRow (ts : List Tree) {here : Place} {holder : Holder} {n : Nat}
    {f : Found} (mem : f ∈ listedInRow here holder n ts) : Below here n f.place := by
  induction ts using bodiesInduction generalizing here holder n with
  | nil => simp [listedInRow] at mem
  | leaf t ts behind =>
    rw [listedInRow_leaf] at mem
    exact (behind mem).mono (Nat.le_succ n)
  | node p parts ts inside body behind =>
    rw [listedInRow_node, List.mem_append] at mem
    rcases mem with mem | mem
    · unfold listedBy at mem
      split at mem
      · exact (inside mem).up
      · exact (body mem).up.up
      · exact (body mem).up.up
      · exact below_of_place (place_of_mem_function mem)
      · exact below_of_place (place_of_mem_function mem)
      · exact (below_of_mem_functionsInRow mem).1.up
      · cases mem
    · exact (behind mem).mono (Nat.le_succ n)

/-- What a node adds stands at its place or in it. -/
theorem place_of_mem_listedBy {here : Place} {holder : Holder} {p : Part} {parts : List Tree}
    {f : Found} (mem : f ∈ listedBy here holder p parts) : f.place = here ∨ Below here 0 f.place := by
  unfold listedBy at mem
  split at mem
  · exact .inr (below_of_mem_listedInRow _ mem)
  · exact .inr ((below_of_mem_listedInRow _ mem).up.mono (Nat.zero_le _))
  · exact .inr ((below_of_mem_listedInRow _ mem).up.mono (Nat.zero_le _))
  · exact place_of_mem_function mem
  · exact place_of_mem_function mem
  · exact .inr (below_of_mem_functionsInRow mem).1
  · cases mem

theorem nodup_functionsInBody (here : Place) (parts : List Tree) :
    ((functionsInBody here 0 parts).map (·.place)).Nodup := by
  rw [functionsInBody_eq]
  exact nodup_functionsInRow ..

theorem nodup_listedInRow (ts : List Tree) (here : Place) (holder : Holder) (n : Nat) :
    ((listedInRow here holder n ts).map (·.place)).Nodup := by
  induction ts using bodiesInduction generalizing here holder n with
  | nil => simp [listedInRow]
  | leaf t ts behind =>
    rw [listedInRow_leaf]
    exact behind here holder (n + 1)
  | node p parts ts inside body behind =>
    rw [listedInRow_node]
    refine nodup_append_places ?_ (behind ..) fun f mem g mem' same => ?_
    · unfold listedBy
      split
      · exact inside ..
      · exact body ..
      · exact body ..
      · exact nodup_function _ _ (nodup_functionsInBody ..)
      · exact nodup_function _ _ (nodup_functionsInBody ..)
      · exact nodup_functionsInRow ..
      · exact List.nodup_nil
    · exact not_below_later (place_of_mem_listedBy mem) (same ▸ below_of_mem_listedInRow _ mem')

/-- The functions in the body of a function stand with it in one stretch. -/
theorem functionsInBody_sublist_listed (ts : List Tree) {here : Place} {holder : Holder} {n : Nat}
    {f : Found} (mem : f ∈ listedInRow here holder n ts) :
    (functionsInBody f.place 0 f.tree.children).Sublist (listedInRow here holder n ts) := by
  induction ts using bodiesInduction generalizing here holder n with
  | nil => simp [listedInRow] at mem
  | leaf t ts behind =>
    rw [listedInRow_leaf] at mem ⊢
    exact behind mem
  | node p parts ts inside body behind =>
    rw [listedInRow_node] at mem ⊢
    rcases List.mem_append.mp mem with mem | mem
    · refine List.Sublist.trans ?_ (List.sublist_append_left ..)
      have headed {q : Part} (mem : f ∈ ⟨here ++ [n], holder, .node q parts⟩ ::
          functionsInBody (here ++ [n]) 0 parts) :
          (functionsInBody f.place 0 f.tree.children).Sublist
            (⟨here ++ [n], holder, .node q parts⟩ :: functionsInBody (here ++ [n]) 0 parts) := by
        refine .cons _ ?_
        rcases List.mem_cons.mp mem with rfl | mem
        · exact .refl _
        · rw [functionsInBody_eq (here ++ [n])] at mem ⊢
          exact functionsInBody_sublist _ mem
      unfold listedBy at mem ⊢
      split at mem
      · exact inside mem
      · exact body mem
      · exact body mem
      · exact headed mem
      · exact headed mem
      · exact functionsInBody_sublist _ mem
      · cases mem
    · exact (behind mem).trans (List.sublist_append_right ..)

/-! ### The row of all functions -/

/-- Each function of the row is listed. -/
theorem listed_of_mem {trees : List Tree} (ts : List Tree) {here : Place} {holder : Holder}
    {n : Nat} (start : ∀ i t, ts[i]? = some t → Declared trees ⟨here ++ [n + i], holder, t⟩) :
    ∀ f ∈ listedInRow here holder n ts, Listed trees f := by
  have nested (f : Found) (place : Place) (t : Tree) (outer : Listed trees f)
      (inner : Outermost (bodyOf f.tree.children) place t) :
      Listed trees ⟨f.place ++ bodyIndex f.tree.children :: place, .function f.place, t⟩ :=
    .nested outer inner
  have below {f : Found} (outer : Listed trees f) :
      ∀ g ∈ functionsInBody f.place 0 f.tree.children, Listed trees g := by
    rw [functionsInBody_eq]
    refine functionsInRow_induction nested _ fun i rest t h => ?_
    simpa [List.append_assoc] using Listed.nested outer h
  induction ts using bodiesInduction generalizing here holder n with
  | nil => simp [listedInRow]
  | leaf t ts behind =>
    rw [listedInRow_leaf]
    refine behind fun i u stands => ?_
    rw [Nat.add_right_comm, Nat.add_assoc]
    exact start (i + 1) u stands
  | node p parts ts inside body behind =>
    have own : Declared trees ⟨here ++ [n], holder, .node p parts⟩ := start 0 _ rfl
    rw [listedInRow_node]
    refine List.forall_mem_append.mpr ⟨?_, behind fun i u stands => ?_⟩
    · unfold listedBy
      split
      · refine inside fun i u stands => ?_
        rw [Nat.zero_add]
        exact .inFileNamespace own rfl stands
      · refine body fun i u stands => ?_
        simpa [Tree.children] using Declared.inNamespace own rfl stands
      · refine body fun i u stands => ?_
        simpa [Tree.children] using Declared.inType own rfl stands
      · have listed : Listed trees ⟨here ++ [n], holder, .node .method parts⟩ :=
          .function own (.inl rfl)
        exact List.forall_mem_cons.mpr ⟨listed, below listed⟩
      · have listed : Listed trees ⟨here ++ [n], holder, .node .localFunction parts⟩ :=
          .function own (.inr rfl)
        exact List.forall_mem_cons.mpr ⟨listed, below listed⟩
      · refine functionsInRow_induction nested _ fun i rest t h => ?_
        rw [Nat.zero_add]
        exact .statement own rfl h
      · simp
    · rw [Nat.add_right_comm, Nat.add_assoc]
      exact start (i + 1) u stands

/-- What a node of a row adds is in the row. -/
theorem listedBy_sublist {ts : List Tree} {i : Nat} {p : Part} {parts : List Tree}
    (stands : ts[i]? = some (.node p parts)) (here : Place) (holder : Holder) (n : Nat) :
    (listedBy (here ++ [n + i]) holder p parts).Sublist (listedInRow here holder n ts) := by
  induction ts generalizing i n with
  | nil => cases stands
  | cons t ts ih =>
    cases i with
    | zero =>
      cases stands
      rw [listedInRow_node]
      exact List.sublist_append_left ..
    | succ i =>
      have later := ih stands (n + 1)
      rw [Nat.add_right_comm, Nat.add_assoc] at later
      cases t with
      | leaf t =>
        rw [listedInRow_leaf]
        exact later
      | node q inner =>
        rw [listedInRow_node]
        exact later.trans (List.sublist_append_right ..)

/-- The functions that a source lists, in order. -/
def listedFunctions (trees : List Tree) : List Found :=
  listedInRow [] .outside 0 trees

theorem listedBy_sublist_of_declared {trees : List Tree} {d : Found} (declared : Declared trees d)
    {p : Part} {parts : List Tree} (same : d.tree = .node p parts) :
    (listedBy d.place d.holder p parts).Sublist (listedFunctions trees) := by
  induction declared generalizing p parts with
  | @top i t stands =>
    cases same
    have within := listedBy_sublist stands [] .outside 0
    rwa [Nat.zero_add, List.nil_append] at within
  | @inFileNamespace d i t outer part stands ih =>
    cases same
    have within := listedBy_sublist stands d.place .outside 0
    rw [Nat.zero_add] at within
    exact within.trans (ih (eq_node_of_hasPart part))
  | @inNamespace d i t outer part stands ih =>
    cases same
    have within := listedBy_sublist stands (d.place ++ [bodyIndex d.tree.children])
      .outside 0
    rw [Nat.zero_add, List.append_assoc] at within
    exact within.trans (ih (eq_node_of_hasPart part))
  | @inType d i t outer part stands ih =>
    cases same
    have within := listedBy_sublist stands (d.place ++ [bodyIndex d.tree.children])
      .type 0
    rw [Nat.zero_add, List.append_assoc] at within
    exact within.trans (ih (eq_node_of_hasPart part))

/-- **The row has exactly the functions that are listed.** -/
theorem mem_listedFunctions {trees : List Tree} {f : Found} :
    f ∈ listedFunctions trees ↔ Listed trees f := by
  constructor
  · refine listed_of_mem trees (fun i t stands => ?_) f
    rw [Nat.zero_add]
    exact .top stands
  · intro listed
    induction listed with
    | @function f declared part =>
      have own {p : Part} (part : f.tree.hasPart p = true)
          (adds : listedBy f.place f.holder p f.tree.children =
            ⟨f.place, f.holder, .node p f.tree.children⟩ ::
              functionsInBody f.place 0 f.tree.children) :
          f ∈ listedFunctions trees := by
        have added := listedBy_sublist_of_declared declared (eq_node_of_hasPart part)
        refine added.subset ?_
        rw [adds, ← eq_node_of_hasPart part]
        exact List.mem_cons_self
      rcases part with part | part
      · exact own part rfl
      · exact own part rfl
    | @statement s place t declared part inside =>
      have added := listedBy_sublist_of_declared declared (eq_node_of_hasPart part)
      obtain ⟨i, rest, rfl⟩ := inside.1.exists_cons
      have mem := mem_functionsInRow_of_outermost inside s.place s.holder 0
      rw [Nat.zero_add] at mem
      exact added.subset mem
    | @nested f place t outer inside ih =>
      obtain ⟨i, rest, rfl⟩ := inside.1.exists_cons
      have mem := mem_functionsInRow_of_outermost inside
        (f.place ++ [bodyIndex f.tree.children]) (.function f.place) 0
      refine (functionsInBody_sublist_listed trees ih).subset ?_
      rw [functionsInBody_eq]
      simpa [List.append_assoc] using mem

theorem nodup_listedFunctions (trees : List Tree) :
    ((listedFunctions trees).map (·.place)).Nodup :=
  nodup_listedInRow ..

/-- The functions that stand next in a function are found in its body. -/
theorem filter_holder {trees : List Tree} {f : Found} (mem : f ∈ listedFunctions trees) :
    (listedFunctions trees).filter (·.holder = .function f.place) =
      (functionsInBody f.place 0 f.tree.children).filter (·.holder = .function f.place) := by
  have once : (listedFunctions trees).Nodup :=
    List.Nodup.of_map _ (nodup_listedFunctions trees)
  have within := functionsInBody_sublist_listed trees mem
  refine ((within.filter _).eq_of_length_le ?_).symm
  refine (List.subperm_of_subset (once.filter _) ?_).length_le
  intro g hg
  obtain ⟨listed, next⟩ := List.mem_filter.mp hg
  have next := of_decide_eq_true next
  refine List.mem_filter.mpr ⟨?_, decide_eq_true next⟩
  cases mem_listedFunctions.mp listed with
  | function declared =>
    rcases declared.holder with other | other <;> rw [next] at other <;> cases other
  | @statement s place t declared =>
    rcases declared.holder with other | other <;> rw [show s.holder = _ from next] at other <;>
      cases other
  | @nested f' place t outer inside =>
    have same : f'.place = f.place := Holder.function.inj next
    have equal : f' = f := List.inj_on_of_nodup_map (nodup_listedFunctions trees)
      (mem_listedFunctions.mpr outer) mem same
    subst equal
    obtain ⟨i, rest, rfl⟩ := inside.1.exists_cons
    have found := mem_functionsInRow_of_outermost inside
      (f'.place ++ [bodyIndex f'.tree.children]) (.function f'.place) 0
    rw [functionsInBody_eq]
    simpa [List.append_assoc] using found

end Forwarding
