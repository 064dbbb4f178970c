import Forwarding.FileTree.Basic
import Forwarding.Text.Alphanumeric
import Forwarding.Text.Blank

/-!
Environment variables, and the file `.env` that adds to them. The file has a line `name=value` for
each variable; values may be quoted, run over several lines inside quotes, and refer to other
variables as `$name` or `${name}`. Reading stops at the first line that makes no sense.
-/

namespace Forwarding

abbrev Environment := List (String × String)

namespace Environment

/-! ### Lines -/

/-- What the text so far means for the rest of a line. -/
inductive LineState where
  | complete
  | blank
  | escape
  | singleQuoted
  | singleQuotedEscape
  | doubleQuoted
  | doubleQuotedEscape
  deriving DecidableEq, Repr, Inhabited

/-- The state behind a character, outside quotes. -/
def LineState.start (c : Char) : LineState :=
  if c == '\\' then .escape
  else if c == '"' then .doubleQuoted
  else if c == '\'' then .singleQuoted
  else .complete

def LineState.next (s : LineState) (c : Char) : LineState :=
  match s with
  | .blank => .start c
  | .complete =>
    if Text.isBlank c && c != '\n' && c != '\r' then .blank else .start c
  | .escape => .complete
  | .doubleQuoted =>
    if c == '\\' then .doubleQuotedEscape else if c == '"' then .complete else .doubleQuoted
  | .doubleQuotedEscape => .doubleQuoted
  | .singleQuoted =>
    if c == '\\' then .singleQuotedEscape else if c == '\'' then .complete else .singleQuoted
  | .singleQuotedEscape => .singleQuoted

/-- The text up to a comment, if there is one, and else the state at the end. -/
def endState : LineState → List Char → List Char ⊕ LineState
  | s, [] => .inr s
  | s, c :: cs =>
    if s = .blank && c == '#' then .inl []
    else
      match endState (s.next c) cs with
      | .inl before => .inl (c :: before)
      | .inr s => .inr s

def dropLineEnd (cs : List Char) : List Char :=
  match cs.reverse with
  | '\n' :: '\r' :: rest => rest.reverse
  | '\n' :: rest => rest.reverse
  | _ => cs

inductive NextLine where
  /-- There is no further line. -/
  | done
  | bad
  | line (text : List Char) (rest : List (Option (List Char)))
  deriving Repr, Inhabited

/-- Joins lines until quotes are closed. A line that is no text has no characters here. -/
def nextLine (before : List Char) (s : LineState) : List (Option (List Char)) → NextLine
  | [] => if s = .complete then .done else .bad
  | none :: _ => .bad
  | some cs :: rest =>
    let text := before ++ cs
    if (Text.trimStart text).head? == some '#' then .line [] rest
    else
      match endState s cs with
      | .inl front => .line (before ++ front) rest
      | .inr .complete => .line (dropLineEnd text) rest
      | .inr s => nextLine text s rest

/-- The bytes cut behind line ends. -/
def byteLines : List UInt8 → List (List UInt8)
  | [] => []
  | b :: bs =>
    if b == 10 then [b] :: byteLines bs
    else
      match byteLines bs with
      | [] => [[b]]
      | l :: ls => (b :: l) :: ls

/-! ### Values -/

/-- How the name of another variable is being read. -/
inductive Reference where
  | none
  /-- Behind `$`. -/
  | bare
  /-- Behind `${`. -/
  | braced
  deriving DecidableEq, Repr, Inhabited

structure ValueState where
  output : List Char := []
  singleQuoted : Bool := false
  doubleQuoted : Bool := false
  escaped : Bool := false
  /-- Only blanks and a comment may follow. -/
  ended : Bool := false
  reference : Reference := .none
  name : List Char := []
  deriving Repr, Inhabited

namespace ValueState

def put (s : ValueState) (c : Char) : ValueState :=
  { s with output := s.output ++ [c] }

/-- Puts the value of the name read so far in its place. -/
def refer (s : ValueState) (lookup : String → String) : ValueState :=
  { s with
    output := s.output ++ (lookup (String.ofList s.name)).toList
    name := []
    reference := .none }

/-- Takes in a character of a name, or one that ends it. -/
def addToName (s : ValueState) (lookup : String → String) (c : Char) : ValueState :=
  if Text.isAlphanumeric c then { s with name := s.name ++ [c] }
  else if s.reference = .braced then
    if c == '}' then s.refer lookup else { s with name := s.name ++ [c] }
  else if c == '{' && s.name.isEmpty then { s with reference := .braced }
  else if c == '$' then { s.refer lookup with reference := .bare }
  else (s.refer lookup).put c

def unescape? (c : Char) : Option Char :=
  if c == 'n' then some '\n'
  else if "\\'\"$ ".toList.contains c then some c
  else none

/-- Takes in a character outside names, comments and escapes. -/
def addPlain (s : ValueState) (c : Char) : ValueState :=
  if c == '$' then { s with reference := .bare }
  else if s.doubleQuoted then
    if c == '"' then { s with doubleQuoted := false }
    else if c == '\\' then { s with escaped := true }
    else s.put c
  else if c == '\'' then { s with singleQuoted := true }
  else if c == '"' then { s with doubleQuoted := true }
  else if c == '\\' then { s with escaped := true }
  else if c == ' ' || c == '\t' then { s with ended := true }
  else s.put c

end ValueState

/-- Reads a value to its end. -/
def readValue (lookup : String → String) : ValueState → List Char → Option String
  | s, [] => finish s
  | s, c :: cs =>
    if s.ended then
      if c == ' ' || c == '\t' then readValue lookup s cs
      else if c == '#' then finish s
      else none
    else if s.escaped then
      match ValueState.unescape? c with
      | some d => readValue lookup { s.put d with escaped := false } cs
      | none => none
    else if s.singleQuoted then
      readValue lookup (if c == '\'' then { s with singleQuoted := false } else s.put c) cs
    else if s.reference ≠ .none then readValue lookup (s.addToName lookup c) cs
    else readValue lookup (s.addPlain c) cs
where
  finish (s : ValueState) : Option String :=
    if s.reference = .braced || s.singleQuoted || s.doubleQuoted then none
    else some (String.ofList (s.refer lookup).output)

/-! ### Assignments -/

def isNameStart (c : Char) : Bool :=
  c.isAlpha || c == '_'

def isNameChar (c : Char) : Bool :=
  c.isAlphanum || c == '_' || c == '.'

/-- The name in front of a text and what follows it and the blanks behind it. -/
def readName? (cs : List Char) : Option (String × List Char) :=
  if cs.head?.any isNameStart then
    some (String.ofList (cs.takeWhile isNameChar), Text.trimStart (cs.dropWhile isNameChar))
  else none

/-- The name and the text behind the equals sign. The word `export` may stand in front. -/
def readAssignment? (cs : List Char) : Option (String × List Char) :=
  match readName? cs with
  | none => none
  | some (name, '=' :: rest) => some (name, Text.trimStart rest)
  | some (name, rest) =>
    if name == "export" then
      match readName? rest with
      | some (name, '=' :: rest) => some (name, Text.trimStart rest)
      | _ => none
    else none

/-- The values of names so far: those of the environment come first. -/
def valueOf (env read : Environment) (name : String) : String :=
  ((env.lookup name).orElse fun _ => read.lookup name).getD ""

/-- Takes in the lines of a file, at most `n` of them. Variables that are set already keep their
values, and `read` has the values of the file itself. -/
def addLines : Nat → Environment → Environment → List (Option (List Char)) → Environment
  | 0, env, _, _ => env
  | n + 1, env, read, lines =>
    match nextLine [] .complete lines with
    | .done | .bad => env
    | .line text rest =>
      let cs := Text.trimStart (Text.trimEnd text)
      if cs.isEmpty || cs.head? == some '#' then addLines n env read rest
      else
        match readAssignment? cs with
        | none => env
        | some (name, value) =>
          let value :=
            if value.isEmpty || value.head? == some '#' then some ""
            else readValue (valueOf env read) {} value
          match value with
          | none => env
          | some v =>
            let env := if (env.lookup name).isSome then env else env ++ [(name, v)]
            addLines n env ((name, v) :: read) rest

/-- Adds the variables of a file with these bytes. -/
def addFile (env : Environment) (bytes : List UInt8) : Environment :=
  let bytes := if [0xEF, 0xBB, 0xBF].isPrefixOf bytes then bytes.drop 3 else bytes
  let lines := (byteLines bytes).map fun l => (Text.ofUtf8? l).map String.toList
  addLines (lines.length + 1) env [] lines

/-- The names of variables that a text may refer to. -/
def mentioned : List Char → List String
  | [] => []
  | c :: cs =>
    if c == '$' then
      String.ofList (cs.takeWhile Text.isAlphanumeric) ::
        String.ofList ((cs.drop 1).takeWhile (· != '}')) :: mentioned cs
    else mentioned cs

/-- The location itself and those above it. -/
def upwards (l : Location) : List Location :=
  (List.range (l.length + 1)).reverse.map l.take

/-- Adds the variables of the file `.env` in the current folder or the nearest one above, if it can
be read. -/
def withFile (env : Environment) (t : FileTree) : Environment :=
  match (upwards t.here).findSome? fun l => t.file? (l ++ [".env"]) with
  | some (.bytes bs) => env.addFile bs
  | _ => env

end Environment

end Forwarding
