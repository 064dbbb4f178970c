import Forwarding.Digest
import Forwarding.Emission
import Forwarding.Json.Reader

/-!
The summary of a run, as it is kept beside the generated unit.
-/

namespace Forwarding

structure Counts where
  /-- Files kept by the scan. -/
  filesScanned : Nat := 0
  bytesScanned : Nat := 0
  filesParsed : Nat := 0
  /-- Kept files that cannot be read or whose bytes are no text. -/
  filesFailed : Nat := 0
  forestNodes : Nat := 0
  /-- Wrapper classes in the unit. -/
  groups : Nat := 0
  /-- Forwarders in the unit. -/
  members : Nat := 0
  deriving DecidableEq, Repr, Inhabited

/-- How long the phases took, in milliseconds. -/
structure Timings where
  scan : Nat := 0
  parse : Nat := 0
  generate : Nat := 0
  persist : Nat := 0
  total : Nat := 0
  deriving DecidableEq, Repr, Inhabited

structure Summary where
  generatedAt : String
  root : String
  /-- The path of the generated unit. -/
  outputFile : String
  /-- The SHA-256 digest of the generated text. -/
  contentDigest : String
  counts : Counts
  diagnostics : List Diagnostic
  timings : Timings := {}
  deriving DecidableEq, Repr, Inhabited

/-- The summary of a run that generated `e`; what was rendered is counted in `e`. -/
def Summary.ofEmission (generatedAt root outputFile : String) (counts : Counts) (e : Emission)
    (timings : Timings) : Summary :=
  { generatedAt, root, outputFile
    contentDigest := Digest.ofString e.unit.text
    counts := { counts with groups := e.unit.groups, members := e.unit.members }
    diagnostics := e.diagnostics
    timings }

/-- The name of the file that holds the summary. -/
def summaryFileName : String := "summary.json"

/-! ### Writing -/

def DiagnosticCode.name : DiagnosticCode → String
  | .emptyForwardName => "empty_forward_name"
  | .missingReceiver => "missing_receiver"

def Counts.toJson (c : Counts) : Json.Value :=
  .record [
    ("files_scanned", .number c.filesScanned), ("bytes_scanned", .number c.bytesScanned),
    ("files_parsed", .number c.filesParsed), ("files_failed", .number c.filesFailed),
    ("forest_nodes", .number c.forestNodes), ("groups", .number c.groups),
    ("members", .number c.members)]

def Diagnostic.toJson (d : Diagnostic) : Json.Value :=
  .record [("code", .text d.code.name), ("message", .text d.message), ("node", .number d.node)]

def Timings.toJson (t : Timings) : Json.Value :=
  .record [
    ("scan", .number t.scan), ("parse", .number t.parse), ("generate", .number t.generate),
    ("persist", .number t.persist), ("total", .number t.total)]

def Summary.toJson (s : Summary) : Json.Value :=
  .record [
    ("generated_at", .text s.generatedAt), ("root", .text s.root),
    ("output_file", .text s.outputFile), ("content_sha256", .text s.contentDigest),
    ("counts", s.counts.toJson), ("diagnostics", .list (s.diagnostics.map Diagnostic.toJson)),
    ("timings_ms", s.timings.toJson)]

/-- The text of the file that holds the summary. -/
def Summary.text (s : Summary) : String :=
  s.toJson.pretty

/-! ### Reading -/

namespace Json.Value

def field? (v : Value) (key : String) : Option Value :=
  match v with
  | .record fields => fields.lookup key
  | _ => none

def number? : Value → Option Nat
  | .number n => some n
  | _ => none

def text? : Value → Option String
  | .text s => some s
  | _ => none

def items? : Value → Option (List Value)
  | .list vs => some vs
  | _ => none

/-- The number of a field, which has to lie below a limit. -/
def numberField? (v : Value) (limit : Nat) (key : String) : Option Nat :=
  ((v.field? key).bind number?).filter (· < limit)

def textField? (v : Value) (key : String) : Option String :=
  (v.field? key).bind text?

end Json.Value

def DiagnosticCode.ofName? : String → Option DiagnosticCode
  | "empty_forward_name" => some .emptyForwardName
  | "missing_receiver" => some .missingReceiver
  | _ => none

/-- Counters and the numbers of nodes have 64 bits. -/
def Counts.limit : Nat := 0x10000000000000000

/-- Timings have 128 bits. -/
def Timings.limit : Nat := 0x100000000000000000000000000000000

def Counts.ofJson? (v : Json.Value) : Option Counts := do
  return {
    filesScanned := ← v.numberField? Counts.limit "files_scanned"
    bytesScanned := ← v.numberField? Counts.limit "bytes_scanned"
    filesParsed := ← v.numberField? Counts.limit "files_parsed"
    filesFailed := ← v.numberField? Counts.limit "files_failed"
    forestNodes := ← v.numberField? Counts.limit "forest_nodes"
    groups := ← v.numberField? Counts.limit "groups"
    members := ← v.numberField? Counts.limit "members" }

def Diagnostic.ofJson? (v : Json.Value) : Option Diagnostic := do
  return {
    code := ← (v.textField? "code").bind DiagnosticCode.ofName?
    message := ← v.textField? "message"
    node := ← v.numberField? Counts.limit "node" }

def Timings.ofJson? (v : Json.Value) : Option Timings := do
  return {
    scan := ← v.numberField? Timings.limit "scan"
    parse := ← v.numberField? Timings.limit "parse"
    generate := ← v.numberField? Timings.limit "generate"
    persist := ← v.numberField? Timings.limit "persist"
    total := ← v.numberField? Timings.limit "total" }

def Summary.ofJson? (v : Json.Value) : Option Summary := do
  return {
    generatedAt := ← v.textField? "generated_at"
    root := ← v.textField? "root"
    outputFile := ← v.textField? "output_file"
    contentDigest := ← v.textField? "content_sha256"
    counts := ← (v.field? "counts").bind Counts.ofJson?
    diagnostics := ← ((v.field? "diagnostics").bind (·.items?)).bind (·.mapM Diagnostic.ofJson?)
    timings := ← (v.field? "timings_ms").bind Timings.ofJson? }

/-- The summary that a file holds. -/
def Summary.ofText? (s : String) : Option Summary :=
  (Json.Value.ofString? s).bind Summary.ofJson?

end Forwarding
