import Forwarding.Proofs.Json.RoundTrip
import Forwarding.Proofs.Run.Outcome

/-!
The summary of a run is read back from its file. Its texts may hold any characters; its counters and
node numbers have 64 bits and its timings 128, which is as much as the reader takes. So no two
summaries have the same text.
-/

namespace Forwarding

/-! ### Numbers that fit -/

def Counts.numbers (c : Counts) : List Nat :=
  [c.filesScanned, c.bytesScanned, c.filesParsed, c.filesFailed, c.forestNodes, c.groups, c.members]

def Timings.numbers (t : Timings) : List Nat :=
  [t.scan, t.parse, t.generate, t.persist, t.total]

/-- Every number of the summary has the width of its field. -/
structure Summary.InRange (s : Summary) : Prop where
  counts : ∀ n ∈ s.counts.numbers, n < Counts.limit
  nodes : ∀ d ∈ s.diagnostics, d.node < Counts.limit
  timings : ∀ n ∈ s.timings.numbers, n < Timings.limit

/-! ### Reading the parts -/

theorem Json.Value.numberField?_of_field? {v : Value} {limit n : Nat} {key : String}
    (found : v.field? key = some (.number n)) (fits : n < limit) :
    v.numberField? limit key = some n := by
  simp [numberField?, found, number?, fits]

theorem Json.Value.textField?_of_field? {v : Value} {key s : String}
    (found : v.field? key = some (.text s)) : v.textField? key = some s := by
  rw [textField?, found]
  rfl

theorem Counts.ofJson?_toJson {c : Counts} (fits : ∀ n ∈ c.numbers, n < limit) :
    Counts.ofJson? c.toJson = some c := by
  have field {n : Nat} {key : String} (found : c.toJson.field? key = some (.number n))
      (mem : n ∈ c.numbers) : c.toJson.numberField? limit key = some n :=
    Json.Value.numberField?_of_field? found (fits n mem)
  unfold Counts.ofJson?
  rw [field rfl (by simp [numbers]), field rfl (by simp [numbers]), field rfl (by simp [numbers]),
    field rfl (by simp [numbers]), field rfl (by simp [numbers]), field rfl (by simp [numbers]),
    field rfl (by simp [numbers])]
  rfl

theorem Timings.ofJson?_toJson {t : Timings} (fits : ∀ n ∈ t.numbers, n < limit) :
    Timings.ofJson? t.toJson = some t := by
  have field {n : Nat} {key : String} (found : t.toJson.field? key = some (.number n))
      (mem : n ∈ t.numbers) : t.toJson.numberField? limit key = some n :=
    Json.Value.numberField?_of_field? found (fits n mem)
  unfold Timings.ofJson?
  rw [field rfl (by simp [numbers]), field rfl (by simp [numbers]), field rfl (by simp [numbers]),
    field rfl (by simp [numbers]), field rfl (by simp [numbers])]
  rfl

theorem DiagnosticCode.ofName?_name (c : DiagnosticCode) : ofName? c.name = some c := by
  cases c <;> rfl

theorem Diagnostic.ofJson?_toJson {d : Diagnostic} (fits : d.node < Counts.limit) :
    Diagnostic.ofJson? d.toJson = some d := by
  have code : d.toJson.textField? "code" = some d.code.name :=
    Json.Value.textField?_of_field? rfl
  have message : d.toJson.textField? "message" = some d.message :=
    Json.Value.textField?_of_field? rfl
  have node : d.toJson.numberField? Counts.limit "node" = some d.node :=
    Json.Value.numberField?_of_field? rfl fits
  unfold Diagnostic.ofJson?
  rw [code, message, node, Option.bind_some, DiagnosticCode.ofName?_name]
  rfl

theorem mapM_ofJson?_toJson {ds : List Diagnostic} (fits : ∀ d ∈ ds, d.node < Counts.limit) :
    (ds.map Diagnostic.toJson).mapM Diagnostic.ofJson? = some ds := by
  induction ds with
  | nil => rfl
  | cons d ds ih =>
    obtain ⟨first, later⟩ := List.forall_mem_cons.mp fits
    rw [List.map_cons, List.mapM_cons, Diagnostic.ofJson?_toJson first, ih later]
    rfl

/-! ### Reading the summary -/

theorem Summary.ofJson?_toJson {s : Summary} (fits : s.InRange) :
    Summary.ofJson? s.toJson = some s := by
  have text {key t : String} (found : s.toJson.field? key = some (.text t)) :
      s.toJson.textField? key = some t :=
    Json.Value.textField?_of_field? found
  have counts : s.toJson.field? "counts" = some s.counts.toJson := rfl
  have diagnostics : s.toJson.field? "diagnostics" =
      some (.list (s.diagnostics.map Diagnostic.toJson)) := rfl
  have timings : s.toJson.field? "timings_ms" = some s.timings.toJson := rfl
  have items : (Json.Value.list (s.diagnostics.map Diagnostic.toJson)).items? =
      some (s.diagnostics.map Diagnostic.toJson) := rfl
  unfold Summary.ofJson?
  rw [text rfl, text rfl, text rfl, text rfl, counts, diagnostics, timings, Option.bind_some,
    Option.bind_some, Option.bind_some, items, Option.bind_some, Counts.ofJson?_toJson fits.counts,
    mapM_ofJson?_toJson fits.nodes, Timings.ofJson?_toJson fits.timings]
  rfl

theorem Summary.ofText?_text {s : Summary} (fits : s.InRange) : Summary.ofText? s.text = some s := by
  unfold Summary.ofText? Summary.text
  rw [Json.ofString?_pretty, Option.bind_some, Summary.ofJson?_toJson fits]

theorem readText?_writeSummary {t t' : FileTree} {folder : String} {s : Summary}
    (written : writeSummary t folder s = (t', .ok ())) :
    t'.readText? (Path.join folder summaryFileName) = some s.text := by
  obtain ⟨t₁, _, saved⟩ := (writeSummary_eq_ok t t' folder s).mp written
  exact FileTree.readText?_of_writeText saved

/-- **A summary is read back from its text**, field by field; so different summaries have different
texts, and the file that a summary is written to gives it back. -/
theorem summary_readBack {s : Summary} (fits : s.InRange) :
    Summary.ofText? s.text = some s ∧
    (∀ s' : Summary, s'.InRange → s' ≠ s → s'.text ≠ s.text) ∧
    ∀ t folder t', writeSummary t folder s = (t', .ok ()) →
      (t'.readText? (Path.join folder summaryFileName)).bind Summary.ofText? = some s := by
  have read := Summary.ofText?_text fits
  refine ⟨read, ?_, ?_⟩
  · intro s' fits' other same
    have read' := Summary.ofText?_text fits'
    rw [same, read] at read'
    exact other (Option.some.inj read').symm
  · intro t folder t' written
    rw [readText?_writeSummary written, Option.bind_some, read]

/-- A summary with escaped characters in its texts and the largest numbers in its fields. -/
def wideSummary : Summary :=
  { generatedAt := "2024-02-29T23:59:60+00:00", root := "/a \"b\"\\c\n\t\x01\x1f/é", outputFile := "😀"
    contentDigest := ""
    counts := ⟨Counts.limit - 1, 0, 10, 100, 7, Counts.limit - 1, 1⟩
    diagnostics := [⟨.emptyForwardName, "\r\x00\x7f", Counts.limit - 1⟩, ⟨.missingReceiver, "", 0⟩]
    timings := ⟨Timings.limit - 1, 0, 1, 20, Timings.limit - 1⟩ }

theorem summary_readBack_wideSummary :
    wideSummary.InRange ∧ Summary.ofText? wideSummary.text = some wideSummary := by
  have fits : wideSummary.InRange := ⟨by decide, by decide, by decide⟩
  exact ⟨fits, (summary_readBack fits).1⟩

end Forwarding
