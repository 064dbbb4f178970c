import Forwarding.Proofs.FileTree.Members

/-!
A whole run of texts that are written to one output folder, under any names, on any file system that
keeps its laws. What a call does to files it does to the one that its path leads to: it writes the
text there, or it fails and may leave the front part of the text. So after a run each file has what
the last call that led to it wrote, and a file to which no call led is as it was.
-/

namespace Forwarding.OutputFolder

open FileView

variable {S : Type} [FileSystem S]

/-! ### One call -/

/-- What writing the text `text` under `name` does to the files of a lawful system. -/
structure Effect [LawfulFileSystem S] (o : OutputFolder) (s : S) (name text : String) (s' : S)
    (result : Except OutputError OutputFolder) : Prop where
  steady : Steady s s'
  others : ∀ f, held s' f = held s f ∨ leadsTo s' (Path.join o.path name) = some f
  failed : ∀ e, result = .error e → ∀ f, held s' f = held s f ∨
    (∃ cause, e = .fileNotWritten name (Path.join o.path name) cause) ∧
      leadsTo s' (Path.join o.path name) = some f ∧ ∃ n, held s' f = some ((Text.utf8 text).take n)
  done : ∀ o', result = .ok o' →
    o' = { o with written := o.written ++ [Path.join o.path name] } ∧ Path.isName name = true ∧
      ∃ f, leadsTo s' (Path.join o.path name) = some f ∧
        (Keeps s' f → held s' f = some (Text.utf8 text))

/-- A call that fails without having touched a file. -/
theorem Effect.of_same [LawfulFileSystem S] {o : OutputFolder} {s s' : S} {name text : String}
    {e : OutputError} (steady : Steady s s') (same : ∀ f, held s' f = held s f) :
    Effect o s name text s' (.error e) where
  steady := steady
  others f := .inl (same f)
  failed _ _ f := .inl (same f)
  done _ h := by cases h

theorem add_effect [LawfulFileSystem S] (o : OutputFolder) {s : S} (sound : Sound s)
    (name text : String) :
    Effect o s name text (o.add s name text).1 (o.add s name text).2 := by
  unfold add
  cases plain : isPlainName name with
  | false => exact .of_same (.refl s) fun _ => rfl
  | true =>
    have making := LawfulFileSystem.ensureFolder sound o.path
    rcases made : FileSystem.ensureFolder s o.path with ⟨s₁, e | _⟩
    · rw [made] at making
      exact .of_same making.1 making.2
    · rw [made] at making
      obtain ⟨steady, same⟩ := making
      have sound₁ := steady.sound sound
      have slash := (FileTree.no_slash_of_isPlainName plain).2
      rcases wrote : FileSystem.writeText s₁ (Path.join o.path name) text with ⟨s', e | _⟩
      · obtain ⟨steady', changed⟩ := LawfulFileSystem.writeBytes sound₁ wrote
        simp only [Bool.not_true, Bool.false_eq_true, if_false, wrote]
        refine ⟨steady.trans steady', fun f => ?_, fun e' same' f => ?_, fun _ h => (by cases h)⟩
        · rw [← same f]
          exact (changed f).imp_right And.left
        · cases same'
          rw [← same f]
          exact (changed f).imp_right fun led => ⟨⟨e, rfl⟩, led⟩
      · obtain ⟨steady', changed⟩ := LawfulFileSystem.writeBytes sound₁ wrote
        obtain ⟨ends, f, led, holds⟩ := LawfulFileSystem.written sound₁ wrote
        simp only [Bool.not_true, Bool.false_eq_true, if_false, wrote]
        refine ⟨steady.trans steady', fun g => ?_, fun _ h => (by cases h), fun o' same' => ?_⟩
        · rw [← same g]
          exact (changed g).imp_right And.left
        · cases same'
          exact ⟨rfl, FileTree.isName_of_endsInName slash ends, f, led, holds⟩

/-! ### A run of calls -/

/-- A call, and why it failed if it did. -/
structure Call where
  name : String
  text : String
  error? : Option OutputError
  deriving DecidableEq, Repr

/-- The call succeeded. -/
def Call.taken (c : Call) : Bool :=
  c.error?.isNone

/-- The call came to the write, and that failed. -/
def Call.cut (c : Call) : Bool :=
  match c.error? with
  | some (.fileNotWritten ..) => true
  | _ => false

/-- An output folder in use. -/
structure Session (S : Type) where
  system : S
  folder : OutputFolder
  /-- The calls so far, in order. -/
  log : List Call := []

namespace Session

/-- The names and texts of the calls that succeeded, in order. -/
def accepted (s : Session S) : List (String × String) :=
  (s.log.filter (·.taken)).map fun c => (c.name, c.text)

/-- A refused text leaves the folder as it was. -/
def call (s : Session S) (c : String × String) : Session S :=
  match s.folder.add s.system c.1 c.2 with
  | (system, .ok folder) => { system, folder, log := s.log ++ [⟨c.1, c.2, none⟩] }
  | (system, .error e) => { s with system, log := s.log ++ [⟨c.1, c.2, some e⟩] }

/-- The texts are written one after another to the folder at `p`. -/
def run (start : S) (p : String) (calls : List (String × String)) : Session S :=
  calls.foldl call { system := start, folder := { path := p } }

/-- What every call keeps, a run keeps. -/
theorem run_induction {motive : Session S → Prop} {start : S} {p : String}
    (base : motive { system := start, folder := { path := p } })
    (step : ∀ s c, motive s → motive (s.call c)) (calls : List (String × String)) :
    motive (run start p calls) := by
  unfold run
  generalize ({ system := start, folder := { path := p } } : Session S) = s at base ⊢
  induction calls generalizing s with
  | nil => exact base
  | cons c calls ih => exact ih (s.call c) (step s c base)

theorem log_call (s : Session S) (c : String × String) :
    ∃ error?, (s.call c).log = s.log ++ [⟨c.1, c.2, error?⟩] := by
  unfold call
  rcases s.folder.add s.system c.1 c.2 with ⟨system, e | _⟩
  · exact ⟨some e, rfl⟩
  · exact ⟨none, rfl⟩

/-- Each call of a run is in the log. -/
theorem log_run (start : S) (p : String) (calls : List (String × String)) :
    (run start p calls).log.map (fun c => (c.name, c.text)) = calls := by
  suffices goesOn : ∀ s : Session S, (calls.foldl call s).log.map (fun c => (c.name, c.text)) =
      s.log.map (fun c => (c.name, c.text)) ++ calls from goesOn _
  induction calls with
  | nil => simp
  | cons c calls ih =>
    intro s
    obtain ⟨error?, logged⟩ := s.log_call c
    rw [List.foldl_cons, ih, logged]
    simp

/-! ### What a run leaves in the files -/

section

variable [LawfulFileSystem S]

/-- The call wrote to the file, or tried to. -/
def LedTo (s : S) (p : String) (c : Call) (f : File S) : Prop :=
  leadsTo s (Path.join p c.name) = some f

/-- The file has the front part of a text that could not be written as a whole. -/
def LeftBy (s : S) (p : String) (calls : List Call) (f : File S) : Prop :=
  ∃ c ∈ calls, c.cut = true ∧ LedTo s p c f ∧ ∃ n, held s f = some ((Text.utf8 c.text).take n)

/-- What holds of the folder at `p` and of all files in a session that started from `start`. -/
structure Confined (start : S) (p : String) (s : Session S) : Prop where
  sound : Sound s.system
  path : s.folder.path = p
  /-- The written paths are those of the calls that succeeded, in order. -/
  written : s.folder.written = s.accepted.map fun c => Path.join p c.1
  /-- They are one name below the folder. -/
  inside : ∀ c ∈ s.log, c.taken = true → Path.isName c.name = true
  /-- The path of such a call leads to a file. It holds the text of the call if it keeps what is
  written to it, no later call that succeeded led to it, and no later write to it failed halfway. -/
  latest : ∀ before c after, s.log = before ++ c :: after → c.taken = true →
    ∃ f, LedTo s.system p c f ∧ (Keeps s.system f →
      (∀ d ∈ after, d.taken = true → ¬LedTo s.system p d f) →
      held s.system f = some (Text.utf8 c.text) ∨ LeftBy s.system p after f)
  /-- A file to which no call that succeeded led is as it was, unless a write to it failed halfway. -/
  others : ∀ f, (∀ d ∈ s.log, d.taken = true → ¬LedTo s.system p d f) →
    held s.system f = held start f ∨ LeftBy s.system p s.log f

theorem confined_start {start : S} (sound : Sound start) (p : String) :
    Confined start p { system := start, folder := { path := p } } where
  sound := sound
  path := rfl
  written := rfl
  inside _ h := by cases h
  latest before c after h := by cases before <;> cases h
  others _ _ := .inl rfl

/-- What a further call makes of the files that it does not write. -/
structure Spares (p : String) (s s' : S) (c : Call) : Prop where
  steady : Steady s s'
  others : ∀ f, (c.taken = true → ¬LedTo s' p c f) →
    held s' f = held s f ∨ LeftBy s' p [c] f

/-- What held of a file, by a call or by the calls that were cut, still does after one more. -/
theorem Spares.carry {p : String} {s s' : S} {c : Call} (h : Spares p s s' c) {f : File S}
    {calls : List Call} {old : Option (List UInt8)} (apart : c.taken = true → ¬LedTo s' p c f)
    (now : held s f = old ∨ LeftBy s p calls f) :
    held s' f = old ∨ LeftBy s' p (calls ++ [c]) f := by
  rcases h.others f apart with same | ⟨d, hd, cut, led, front⟩
  · rw [same]
    refine now.imp_right fun ⟨d, hd, cut, led, n, front⟩ => ?_
    exact ⟨d, List.mem_append_left _ hd, cut, h.steady.leads _ f led, n, same.trans front⟩
  · exact .inr ⟨d, List.mem_append_right _ hd, cut, led, front⟩

/-- One more call. -/
theorem Confined.extend {start : S} {p : String} {s : Session S} (h : Confined start p s)
    {c : Call} {system : S} {folder : OutputFolder} (spares : Spares p s.system system c)
    (path : folder.path = p)
    (written : folder.written = s.folder.written ++ if c.taken then [Path.join p c.name] else [])
    (done : c.taken = true → Path.isName c.name = true ∧ ∃ f, LedTo system p c f ∧
      (Keeps system f → held system f = some (Text.utf8 c.text))) :
    Confined start p { system, folder, log := s.log ++ [c] } := by
  have steady := spares.steady
  constructor
  · exact steady.sound h.sound
  · exact path
  · show folder.written = _
    rw [written, h.written, accepted, accepted, List.filter_append, List.map_append,
      List.map_append]
    cases taken : c.taken <;> simp [taken]
  · intro d hd taken
    rcases List.mem_append.mp hd with old | new
    · exact h.inside d old taken
    · rw [List.mem_singleton.mp new] at taken ⊢
      exact (done taken).1
  · intro before d after parted taken
    rcases List.eq_nil_or_concat after with rfl | ⟨after, last, rfl⟩
    · -- The call is the new one.
      obtain ⟨_, same⟩ := List.append_inj' parted rfl
      cases same
      obtain ⟨_, f, led, holds⟩ := done taken
      exact ⟨f, led, fun keeps _ => .inl (holds keeps)⟩
    · rw [List.concat_eq_append, ← List.cons_append, ← List.append_assoc] at parted
      obtain ⟨earlier, same⟩ := List.append_inj' parted rfl
      cases same
      obtain ⟨f, led, holds⟩ := h.latest before d after earlier taken
      refine ⟨f, steady.leads _ f led, fun keeps apart => ?_⟩
      rw [List.concat_eq_append] at apart ⊢
      refine spares.carry (apart _ (by simp)) (holds ((steady.keeps f).mp keeps) fun e he taken => ?_)
      exact steady.ne (apart e (List.mem_append_left _ he) taken)
  · intro f apart
    refine spares.carry (apart _ (by simp)) (h.others f fun d hd taken => ?_)
    exact steady.ne (apart d (List.mem_append_left _ hd) taken)

theorem Confined.call {start : S} {p : String} {s : Session S} (h : Confined start p s)
    (c : String × String) : Confined start p (s.call c) := by
  have effect := s.folder.add_effect h.sound c.1 c.2
  unfold Session.call
  rcases added : s.folder.add s.system c.1 c.2 with ⟨system, e | folder⟩
  · rw [added] at effect
    have spares : Spares p s.system system ⟨c.1, c.2, some e⟩ := by
      refine ⟨effect.steady, fun f _ => ?_⟩
      refine (effect.failed e rfl f).imp_right fun ⟨⟨cause, same⟩, led, front⟩ => ?_
      rw [h.path] at led
      exact ⟨_, List.mem_singleton_self _, by rw [Call.cut, same], led, front⟩
    exact h.extend spares h.path (by simp [Call.taken]) (by simp [Call.taken])
  · rw [added] at effect
    obtain ⟨rfl, inside, written⟩ := effect.done _ rfl
    rw [h.path] at written
    have spares : Spares p s.system system ⟨c.1, c.2, none⟩ := by
      refine ⟨effect.steady, fun f apart => ?_⟩
      refine .inl ((effect.others f).resolve_right fun led => apart rfl ?_)
      rwa [h.path] at led
    refine h.extend spares h.path ?_ fun _ => ⟨inside, written⟩
    show s.folder.written ++ [Path.join s.folder.path c.1] = _
    rw [h.path]
    rfl

theorem confined_run {start : S} (sound : Sound start) (p : String)
    (calls : List (String × String)) : Confined start p (run start p calls) :=
  run_induction (confined_start sound p) (fun _ c h => h.call c) calls

end

end Session

end Forwarding.OutputFolder
