import Forwarding.Settings.Basic
import Forwarding.Yaml.Node

/-!
Settings from a YAML document. A record that is left out, wholly or in part, has its default values;
fields that are not known are passed over.
-/

namespace Forwarding

namespace Yaml.Node

/-- Nothing is written where the value would stand. -/
def isAbsent : Node → Bool
  | .scalar _ .plain text => text.isEmpty
  | _ => false

/-- The text of a scalar, however it is written. -/
def text? : Node → Option String
  | .scalar _ _ text => some text
  | _ => none

/-- The text of a scalar that may be more than a text: a plain one, or a literal one with a tag. -/
def plainText? (tag : String) : Node → Option String
  | .scalar _ .plain text => some text
  | .scalar (some t) .literal text => if t == tag then some text else none
  | _ => none

def bool? (v : Node) : Option Bool :=
  match v.plainText? "tag:yaml.org,2002:bool" with
  | some s =>
    if ["true", "True", "TRUE"].contains s then some true
    else if ["false", "False", "FALSE"].contains s then some false
    else none
  | none => none

/-! ### Numbers -/

/-- The value of some digits in a base up to sixteen. -/
def digits? (base : Nat) (cs : List Char) : Option Nat :=
  if cs.isEmpty then none
  else
    match cs.mapM hexValue? with
    | some ds =>
      if ds.all (· < base) then some (ds.foldl (fun n d => n * base + d) 0) else none
    | none => none

/-- A number of 64 bits without a sign other than plus. Decimal numbers have no leading zeros. -/
def wordOf? (s : String) : Option Nat :=
  let cs := match s.toList with
    | '+' :: rest => rest
    | cs => cs
  let n := match cs with
    | '0' :: 'x' :: ds => digits? 16 ds
    | '0' :: 'o' :: ds => digits? 8 ds
    | '0' :: 'b' :: ds => digits? 2 ds
    | '0' :: _ :: _ => none
    | ds => digits? 10 ds
  n.filter (· < UInt64.size)

def word? (v : Node) : Option Nat :=
  (v.plainText? "tag:yaml.org,2002:int").bind wordOf?

/-! ### Collections -/

def texts? (v : Node) : Option (List String) :=
  match v with
  | .sequence vs => vs.mapM text?
  | _ => if v.isAbsent then some [] else none

/-- The fields of a record by name; each known field may occur once. -/
def fields? (known : List String) (v : Node) : Option (List (String × Node)) :=
  match v with
  | .mapping entries =>
    match entries.mapM fun (k, v) => k.text?.map (·, v) with
    | some fs =>
      if known.all fun k => (fs.filter (·.1 == k)).length ≤ 1 then some fs else none
    | none => none
  | _ => if v.isAbsent then some [] else none

/-- The value of a field, or its default when the field is missing. -/
def field? {α : Type} (fs : List (String × Node)) (name : String) (read : Node → Option α)
    (default : α) : Option α :=
  match fs.lookup name with
  | some v => read v
  | none => some default

end Yaml.Node

def Filters.ofYaml? (v : Yaml.Node) : Option Filters := do
  let fs ← v.fields? ["exclude_generated", "generated_globs", "ignore_globs"]
  let d : Filters := {}
  return {
    excludeGenerated := ← Yaml.Node.field? fs "exclude_generated" Yaml.Node.bool? d.excludeGenerated
    generatedGlobs := ← Yaml.Node.field? fs "generated_globs" Yaml.Node.texts? d.generatedGlobs
    ignoreGlobs := ← Yaml.Node.field? fs "ignore_globs" Yaml.Node.texts? d.ignoreGlobs }

def Limits.ofYaml? (v : Yaml.Node) : Option Limits := do
  let fs ← v.fields? ["max_file_bytes", "max_concurrency"]
  let d : Limits := {}
  return {
    maxFileBytes := ← Yaml.Node.field? fs "max_file_bytes" Yaml.Node.word? d.maxFileBytes
    maxConcurrency := ← Yaml.Node.field? fs "max_concurrency" Yaml.Node.word? d.maxConcurrency }

def Output.ofYaml? (v : Yaml.Node) : Option Output := do
  let fs ← v.fields? ["out_dir"]
  let d : Output := {}
  return { folder := ← Yaml.Node.field? fs "out_dir" Yaml.Node.text? d.folder }

def Settings.ofYaml? (v : Yaml.Node) : Option Settings := do
  let fs ← v.fields? ["filters", "limits", "output"]
  return {
    filters := ← Yaml.Node.field? fs "filters" Filters.ofYaml? {}
    limits := ← Yaml.Node.field? fs "limits" Limits.ofYaml? {}
    output := ← Yaml.Node.field? fs "output" Output.ofYaml? {} }

/-- The settings written in a text. -/
def Settings.ofText? (text : String) : Option Settings :=
  match Yaml.Node.ofString text with
  | .ok v => Settings.ofYaml? v
  | .error _ => none

end Forwarding
