import Forwarding.Proofs.Candidate.ForwardName
import Forwarding.Proofs.Text.Lines

/-!
The layout of the generated unit. Names, modifiers and types are texts of any kind, so a line of the
unit may look like another part of it. Yet the unit can be read back: no line of a wrapper class is
blank, so the classes are what stands between blank lines, and the third line tells whether a class
stands in a namespace, for a forwarder ends in a semicolon and a class line does not.
-/

namespace Forwarding

/-- A wrapper class as the unit shows it. -/
structure WrapperClass where
  /-- Empty when the class stands outside any namespace. -/
  namespacePath : String
  /-- The class line, without indentation. -/
  declaration : String
  forwarders : List String
  deriving DecidableEq, Repr, Inhabited

def Group.wrapperClass (g : Group) : WrapperClass :=
  { namespacePath := g.namespacePath
    declaration := g.wrapperLine
    forwarders := g.rendered.map (·.forwarder) }

/-- The wrapper classes of some groups: those of the groups with a member to forward. -/
def wrapperClasses (gs : List Group) : List WrapperClass :=
  (gs.filter fun g => !g.rendered.isEmpty).map (·.wrapperClass)

/-! ### Writing and reading a class -/

namespace WrapperClass

def classLines (w : WrapperClass) (pad : String) : List String :=
  [pad ++ w.declaration, pad ++ "\x7b"] ++ w.forwarders.map (pad ++ "    " ++ ·) ++ [pad ++ "\x7d"]

def lines (w : WrapperClass) : List String :=
  if w.namespacePath.isEmpty then w.classLines ""
  else ["namespace " ++ w.namespacePath, "\x7b"] ++ w.classLines "    " ++ ["\x7d"]

def endsInSemicolon (line : String) : Bool :=
  line.toList.getLast? == some ';'

/-- The class that is written as these lines. -/
def ofLines : List String → WrapperClass
  | first :: _ :: third :: rest =>
    if endsInSemicolon third then
      { namespacePath := ""
        declaration := first
        forwarders := (third :: rest).dropLast.map (Text.cut "    ") }
    else
      { namespacePath := Text.cut "namespace " first
        declaration := Text.cut "    " third
        forwarders := (rest.drop 1).dropLast.dropLast.map (Text.cut "        ") }
  | _ => default

/-- What is needed to read a class back. -/
structure Readable (w : WrapperClass) : Prop where
  path : '\n' ∉ w.namespacePath.toList
  declaration : '\n' ∉ w.declaration.toList
  classLine : endsInSemicolon w.declaration = false
  named : w.declaration ≠ ""
  filled : w.forwarders ≠ []
  forwarder : ∀ f ∈ w.forwarders, '\n' ∉ f.toList ∧ endsInSemicolon f = true

theorem endsInSemicolon_append {line : String} (front : String) (h : line ≠ "") :
    endsInSemicolon (front ++ line) = endsInSemicolon line := by
  have filled : line.toList ≠ [] := fun empty => h (String.toList_eq_nil_iff.mp empty)
  rw [endsInSemicolon, endsInSemicolon, String.toList_append, List.getLast?_append,
    List.getLast?_eq_some_getLast filled, Option.some_or]

theorem ne_empty_of_endsInSemicolon {line : String} (h : endsInSemicolon line = true) :
    line ≠ "" := by
  rintro rfl
  cases h

theorem lines_bare {w : WrapperClass} (outside : w.namespacePath = "") {f : String}
    {fs : List String} (h : w.forwarders = f :: fs) :
    w.lines = w.declaration :: "\x7b" :: ("    " ++ f) ::
      (fs.map ("    " ++ ·) ++ ["\x7d"]) := by
  simp [lines, classLines, outside, h]

theorem lines_nested {w : WrapperClass} (inside : w.namespacePath ≠ "") :
    w.lines = ("namespace " ++ w.namespacePath) :: "\x7b" :: ("    " ++ w.declaration) ::
      "    \x7b" :: (w.forwarders.map ("        " ++ ·) ++ ["    \x7d", "\x7d"]) := by
  have wrapped : w.namespacePath.isEmpty = false := by
    simpa [String.isEmpty_iff] using inside
  simp [lines, classLines, wrapped]

theorem ofLines_lines {w : WrapperClass} (h : w.Readable) : ofLines w.lines = w := by
  have uncut (front : String) (ls : List String) : (ls.map (front ++ ·)).map (Text.cut front) = ls := by
    rw [List.map_map]
    exact (List.map_congr_left fun l _ => Text.cut_append front l).trans (List.map_id' ls)
  by_cases outside : w.namespacePath = ""
  · obtain ⟨f, fs, forwarders⟩ := List.exists_cons_of_ne_nil h.filled
    have ends : endsInSemicolon f = true := (h.forwarder f (by simp [forwarders])).2
    have third : endsInSemicolon ("    " ++ f) = true := by
      rw [endsInSemicolon_append _ (ne_empty_of_endsInSemicolon ends), ends]
    have body : (("    " ++ f) :: (fs.map ("    " ++ ·) ++ ["\x7d"])).dropLast.map (Text.cut "    ") =
        w.forwarders := by
      rw [← List.cons_append, List.dropLast_concat, forwarders]
      exact uncut "    " (f :: fs)
    rw [lines_bare outside forwarders, ofLines, if_pos third, body, ← outside]
  · have third : endsInSemicolon ("    " ++ w.declaration) = false := by
      rw [endsInSemicolon_append _ h.named, h.classLine]
    have body : (w.forwarders.map ("        " ++ ·) ++ ["    \x7d", "\x7d"]).dropLast.dropLast.map
        (Text.cut "        ") = w.forwarders := by
      rw [List.append_cons, List.dropLast_concat, List.dropLast_concat, uncut]
    rw [lines_nested outside, ofLines, third]
    simp only [Bool.false_eq_true, ite_false, Text.cut_append, List.drop_one, List.tail_cons, body]

/-- Apart from the namespace line, a line is an indentation and then a part of the class. -/
theorem mem_lines {w : WrapperClass} {l : String} (h : l ∈ w.lines) :
    l = "namespace " ++ w.namespacePath ∨ ∃ pad text, '\n' ∉ pad.toList ∧
      text ∈ w.declaration :: "\x7b" :: "\x7d" :: w.forwarders ∧ l = pad ++ text := by
  have inClass {pad : String} (plain : '\n' ∉ pad.toList) (h : l ∈ w.classLines pad) :
      ∃ pad text, '\n' ∉ pad.toList ∧
        text ∈ w.declaration :: "\x7b" :: "\x7d" :: w.forwarders ∧ l = pad ++ text := by
    simp only [classLines, List.mem_append, List.mem_cons, List.mem_map, List.not_mem_nil,
      or_false] at h
    rcases h with ((rfl | rfl) | ⟨f, hf, rfl⟩) | rfl
    · exact ⟨pad, _, plain, by simp, rfl⟩
    · exact ⟨pad, _, plain, by simp, rfl⟩
    · exact ⟨pad ++ "    ", f, Text.not_mem_append.mpr ⟨plain, by decide⟩, by simp [hf], rfl⟩
    · exact ⟨pad, _, plain, by simp, rfl⟩
  rw [lines] at h
  split at h
  · exact .inr (inClass (by decide) h)
  · simp only [List.mem_append, List.mem_cons, List.not_mem_nil, or_false] at h
    rcases h with ((path | opened) | within) | closed
    · exact .inl path
    · exact .inr ⟨"", "\x7b", by decide, by simp, opened⟩
    · exact .inr (inClass (by decide) within)
    · exact .inr ⟨"", "\x7d", by decide, by simp, closed⟩

theorem Readable.ne_empty {w : WrapperClass} (h : w.Readable) {text : String}
    (ht : text ∈ w.declaration :: "\x7b" :: "\x7d" :: w.forwarders) : text ≠ "" := by
  simp only [List.mem_cons] at ht
  rcases ht with rfl | rfl | rfl | hf
  · exact h.named
  · decide
  · decide
  · exact ne_empty_of_endsInSemicolon (h.forwarder text hf).2

theorem Readable.newline_not_mem {w : WrapperClass} (h : w.Readable) {text : String}
    (ht : text ∈ w.declaration :: "\x7b" :: "\x7d" :: w.forwarders) : '\n' ∉ text.toList := by
  simp only [List.mem_cons] at ht
  rcases ht with rfl | rfl | rfl | hf
  · exact h.declaration
  · decide
  · decide
  · exact (h.forwarder text hf).1

theorem blank_not_mem_lines {w : WrapperClass} (h : w.Readable) : "" ∉ w.lines := by
  intro blank
  rcases mem_lines blank with path | ⟨pad, text, _, part, line⟩
  · exact absurd (String.append_eq_empty_iff.mp path.symm).1 (by decide)
  · exact h.ne_empty part (String.append_eq_empty_iff.mp line.symm).2

theorem newline_not_mem_lines {w : WrapperClass} (h : w.Readable) :
    ∀ l ∈ w.lines, '\n' ∉ l.toList := by
  intro l hl
  rcases mem_lines hl with rfl | ⟨pad, text, plain, part, rfl⟩
  · exact Text.not_mem_append.mpr ⟨by decide, h.path⟩
  · exact Text.not_mem_append.mpr ⟨plain, h.newline_not_mem part⟩

end WrapperClass

/-! ### Reading the unit -/

/-- The wrapper classes of a generated unit: what stands between its blank lines, behind the header. -/
def readUnit (text : String) : List WrapperClass :=
  ((List.splitOn "" (Text.linesOf text)).drop 1).map WrapperClass.ofLines

theorem Group.lines_eq (g : Group) : g.lines = g.wrapperClass.lines := by
  simp only [Group.lines, Group.classLines, WrapperClass.lines, WrapperClass.classLines,
    Group.wrapperClass, List.map_map, Function.comp_def]

theorem unitLines_eq (gs : List Group) :
    unitLines gs = [""].intercalate ([unitHeader] :: (wrapperClasses gs).map (·.lines)) := by
  rw [Text.intercalate_eq_flatMap, unitLines, List.singleton_append, List.flatMap_map,
    wrapperClasses, List.flatMap_map]
  congr 1
  induction gs with
  | nil => rfl
  | cons g gs ih =>
    rw [List.flatMap_cons, ih, Group.block, Group.lines_eq]
    cases empty : g.rendered.isEmpty with
    | true => rw [List.filter_cons_of_neg (by simp [empty])]; rfl
    | false => rw [List.filter_cons_of_pos (by simp [empty])]; rfl

/-- A unit is read back as the wrapper classes it was made of. -/
theorem readUnit_emit (gs : List Group) (h : ∀ w ∈ wrapperClasses gs, w.Readable) :
    readUnit (emit gs).unit.text = wrapperClasses gs := by
  have plain : ∀ l ∈ unitLines gs, '\n' ∉ l.toList := by
    intro l hl
    rw [unitLines_eq] at hl
    rcases Text.mem_intercalate hl with blank | ⟨ls, hls, within⟩
    · rw [List.mem_singleton.mp blank]
      decide
    · rcases List.mem_cons.mp hls with rfl | inClass
      · rw [List.mem_singleton.mp within]
        decide
      · obtain ⟨w, hw, rfl⟩ := List.mem_map.mp inClass
        exact w.newline_not_mem_lines (h w hw) l within
  have apart : ∀ ls ∈ [unitHeader] :: (wrapperClasses gs).map (·.lines), "" ∉ ls := by
    intro ls hls
    rcases List.mem_cons.mp hls with rfl | inClass
    · decide
    · obtain ⟨w, hw, rfl⟩ := List.mem_map.mp inClass
      exact w.blank_not_mem_lines (h w hw)
  have text : (emit gs).unit.text = joinLines (unitLines gs) := rfl
  rw [readUnit, text, Text.linesOf_joinLines _ plain, unitLines_eq,
    List.splitOn_intercalate _ apart (by simp), List.drop_one, List.tail_cons, List.map_map]
  refine (List.map_congr_left fun w hw => ?_).trans (List.map_id' _)
  exact WrapperClass.ofLines_lines (h w hw)

/-! ### Groups of strings without line breaks -/

def Parameter.strings (p : Parameter) : List String :=
  p.name :: p.ty :: p.modifiers

def Candidate.strings (c : Candidate) : List String :=
  c.owner.qualifiedName :: c.simpleName :: c.returnType ::
    (c.modifiers ++ c.parameters.flatMap (·.strings))

/-- The strings that a group is written with. -/
def Group.strings (g : Group) : List String :=
  g.namespacePath :: g.owner.name :: (g.ownerModifiers ++ g.members.flatMap (·.strings))

theorem Parameter.newline_not_mem_declared {p : Parameter} (h : ∀ s ∈ p.strings, '\n' ∉ s.toList)
    (receiver : Bool) : '\n' ∉ (p.declared receiver).toList := by
  apply Text.not_mem_join (by decide)
  intro l hl
  rcases List.mem_append.mp hl with front | behind
  · rcases List.mem_append.mp front with keyword | modifier
    · cases receiver with
      | false => cases keyword
      | true => rw [List.mem_singleton.mp keyword]; decide
    · exact h l (by simp [strings, modifier])
  · simp only [List.mem_cons, List.not_mem_nil, or_false] at behind
    rcases behind with rfl | rfl
    · exact h _ (by simp [strings])
    · exact h _ (by simp [strings])

theorem Parameter.newline_not_mem_argument {p : Parameter}
    (h : ∀ s ∈ p.strings, '\n' ∉ s.toList) : '\n' ∉ p.argument.toList := by
  have name : '\n' ∉ p.name.toList := h _ List.mem_cons_self
  rw [argument]
  split
  · rename_i m found
    have modifier := h m (by simp [strings, List.mem_of_find?_eq_some found])
    exact Text.not_mem_append.mpr ⟨Text.not_mem_append.mpr ⟨modifier, by decide⟩, name⟩
  · exact name

theorem Parameter.mem_declareAll {ps : List Parameter} {l : String} (h : l ∈ declareAll ps) :
    ∃ p ∈ ps, ∃ receiver, l = p.declared receiver := by
  cases ps with
  | nil => cases h
  | cons p ps =>
    rcases List.mem_cons.mp h with rfl | later
    · exact ⟨p, List.mem_cons_self, true, rfl⟩
    · obtain ⟨q, hq, rfl⟩ := List.mem_map.mp later
      exact ⟨q, List.mem_cons_of_mem _ hq, false, rfl⟩

namespace Candidate

theorem newline_not_mem_forwardName {c : Candidate} (h : '\n' ∉ c.simpleName.toList) :
    '\n' ∉ c.forwardName.toList := by
  rw [forwardName]
  split
  · rename_i before found
    rw [String.toList_ofList]
    exact fun hc => h (Text.prefix_of_beforeLast found |>.subset hc)
  · exact h

theorem newline_not_mem_forwarder {c : Candidate} (h : ∀ s ∈ c.strings, '\n' ∉ s.toList) :
    '\n' ∉ c.forwarder.toList := by
  have parameter (p : Parameter) (hp : p ∈ c.parameters) : ∀ s ∈ p.strings, '\n' ∉ s.toList := by
    intro s hs
    have := List.mem_flatMap.mpr ⟨p, hp, hs⟩
    exact h s (by simp [strings, this])
  have name : '\n' ∉ c.simpleName.toList := h _ (by simp [strings])
  have head : '\n' ∉ (" ".intercalate (c.modifiers ++ [c.returnType, c.forwardName])).toList := by
    apply Text.not_mem_join (by decide)
    intro l hl
    simp only [List.mem_append, List.mem_cons, List.not_mem_nil, or_false] at hl
    rcases hl with modifier | rfl | rfl
    · exact h l (by simp [strings, modifier])
    · exact h _ (by simp [strings])
    · exact newline_not_mem_forwardName name
  have declared : '\n' ∉ (", ".intercalate (Parameter.declareAll c.parameters)).toList := by
    apply Text.not_mem_join (by decide)
    intro l hl
    obtain ⟨p, hp, receiver, rfl⟩ := Parameter.mem_declareAll hl
    exact p.newline_not_mem_declared (parameter p hp) receiver
  have passed : '\n' ∉ (", ".intercalate (c.parameters.map (·.argument))).toList := by
    apply Text.not_mem_join (by decide)
    intro l hl
    obtain ⟨p, hp, rfl⟩ := List.mem_map.mp hl
    exact p.newline_not_mem_argument (parameter p hp)
  have owner : '\n' ∉ c.owner.qualifiedName.toList := h _ (by simp [strings])
  simp only [forwarder, Text.not_mem_append, head, declared, passed, owner, name]
  decide

theorem endsInSemicolon_forwarder (c : Candidate) :
    WrapperClass.endsInSemicolon c.forwarder = true :=
  WrapperClass.endsInSemicolon_append _ (by decide)

end Candidate

theorem Group.newline_not_mem_wrapperLine {g : Group} (h : ∀ s ∈ g.strings, '\n' ∉ s.toList) :
    '\n' ∉ g.wrapperLine.toList := by
  have modifiers : '\n' ∉ (" ".intercalate g.wrapperModifiers).toList := by
    apply Text.not_mem_join (by decide)
    intro l hl
    rw [wrapperModifiers] at hl
    split at hl
    · exact h l (by simp [strings, hl])
    · rcases List.mem_append.mp hl with own | added
      · exact h l (by simp [strings, own])
      · rw [List.mem_singleton.mp added]
        decide
  have name : '\n' ∉ g.owner.name.toList := h _ (by simp [strings])
  simp only [wrapperLine, wrapperName, Text.not_mem_append, modifiers, name]
  decide

theorem Group.readable_wrapperClass {g : Group} (h : ∀ s ∈ g.strings, '\n' ∉ s.toList)
    (rendered : g.rendered.isEmpty = false) : g.wrapperClass.Readable where
  path := h _ List.mem_cons_self
  declaration := newline_not_mem_wrapperLine h
  classLine := by
    show WrapperClass.endsInSemicolon (_ ++ (g.owner.name ++ "Extensions")) = false
    rw [← String.append_assoc, WrapperClass.endsInSemicolon_append _ (by decide)]
    decide
  named := by
    intro empty
    have ending := (String.append_eq_empty_iff.mp empty).2
    exact absurd (String.append_eq_empty_iff.mp ending).2 (by decide)
  filled := by
    simpa [Group.wrapperClass] using rendered
  forwarder := by
    intro f hf
    obtain ⟨c, hc, rfl⟩ := List.mem_map.mp hf
    have member := (List.mem_filter.mp hc).1
    refine ⟨c.newline_not_mem_forwarder ?_, c.endsInSemicolon_forwarder⟩
    intro s hs
    have := List.mem_flatMap.mpr ⟨c, member, hs⟩
    exact h s (by simp [strings, this])

theorem readable_wrapperClasses {gs : List Group}
    (h : ∀ g ∈ gs, ∀ s ∈ g.strings, '\n' ∉ s.toList) : ∀ w ∈ wrapperClasses gs, w.Readable := by
  intro w hw
  obtain ⟨g, hg, rfl⟩ := List.mem_map.mp hw
  obtain ⟨found, rendered⟩ := List.mem_filter.mp hg
  exact g.readable_wrapperClass (h g found) (by simpa using rendered)

/-- **The layout is unambiguous**: units of groups without line breaks in their strings have the same
text exactly if they show the same wrapper classes in the same order, each with the same namespace,
class line and forwarders. -/
theorem emit_text_eq_iff (gs hs : List Group)
    (hgs : ∀ g ∈ gs, ∀ s ∈ g.strings, '\n' ∉ s.toList)
    (hhs : ∀ g ∈ hs, ∀ s ∈ g.strings, '\n' ∉ s.toList) :
    (emit gs).unit.text = (emit hs).unit.text ↔ wrapperClasses gs = wrapperClasses hs := by
  constructor
  · intro same
    rw [← readUnit_emit gs (readable_wrapperClasses hgs), same,
      readUnit_emit hs (readable_wrapperClasses hhs)]
  · intro same
    show joinLines (unitLines gs) = joinLines (unitLines hs)
    rw [unitLines_eq, unitLines_eq, same]

/-- A class outside any namespace whose first modifier looks like a namespace line. -/
def lookalike : Group :=
  { key := ⟨"", "Ops", 1⟩
    owner := ⟨1, "Ops", "Ops"⟩
    ownerModifiers := ["namespace Util", "static"]
    namespacePath := ""
    members := [{
      node := 2, owner := ⟨1, "Ops", "Ops"⟩, simpleName := "AddExtension"
      parameters := [{ name := "x", ty := "int", modifiers := ["ref"] }], returnType := "int"
      modifiers := ["static"] }] }

theorem emit_text_eq_iff_lookalike :
    let nested := { lookalike with namespacePath := "Util static class OpsExtensions" }
    lookalike.lines.head? = nested.lines.head? ∧
      (∀ g ∈ [lookalike], ∀ s ∈ g.strings, '\n' ∉ s.toList) ∧
      (∀ g ∈ [nested], ∀ s ∈ g.strings, '\n' ∉ s.toList) ∧
      ((emit [lookalike]).unit.text = (emit [nested]).unit.text ↔
        wrapperClasses [lookalike] = wrapperClasses [nested]) :=
  ⟨by decide, by decide, by decide, emit_text_eq_iff _ _ (by decide) (by decide)⟩

end Forwarding
