import Forwarding.Yaml.Scalar

/-!
Cutting a text into tokens. In block context indentation opens and closes collections. Whether a
scalar is a key shows only at the colon behind it, so the place of a token that may turn out to be a
key is remembered, and the token that says so is put in front of it later.
-/

namespace Forwarding.Yaml

/-- A token that may turn out to be a key. -/
structure PossibleKey where
  /-- The number of tokens in front of it. -/
  position : Nat
  line : Nat
  column : Nat
  index : Nat
  /-- It stands where only a key can stand. -/
  required : Bool
  deriving Repr, Inhabited

structure LexState where
  cursor : Cursor
  tokens : Array Token := #[]
  /-- The number of brackets and braces that are open. -/
  flowLevel : Nat := 0
  /-- The column of the innermost block collection; negative outside all of them. -/
  indent : Int := -1
  /-- The columns of the collections around it. -/
  outer : List Int := []
  keyAllowed : Bool := true
  /-- The possible key of the innermost collection, and of those around it. -/
  possible : Option PossibleKey := none
  possibleOuter : List (Option PossibleKey) := []
  deriving Repr, Inhabited

namespace LexState

def push (s : LexState) (t : Token) : LexState :=
  { s with tokens := s.tokens.push t }

def inFlow (s : LexState) : Bool :=
  s.flowLevel != 0

/-! ### Possible keys -/

/-- A key has to stand on one line with its colon, no more than 1024 characters before it. -/
def isStale (s : LexState) (k : PossibleKey) : Bool :=
  k.line < s.cursor.line || k.index + 1024 < s.cursor.index

/-- Gives up the keys that have become too old. -/
def dropStale (s : LexState) : Except Error LexState :=
  let stale (k : Option PossibleKey) : Bool := k.any s.isStale
  if (s.possible :: s.possibleOuter).any fun k => stale k && k.any (·.required) then
    .error .missingColon
  else
    .ok {
      s with
      possible := if stale s.possible then none else s.possible
      possibleOuter := s.possibleOuter.map fun k => if stale k then none else k }

/-- The token before can be no key any more. -/
def dropKey (s : LexState) : Except Error LexState :=
  if s.possible.any (·.required) then .error .missingColon
  else .ok { s with possible := none }

/-- The next token may be a key. -/
def noteKey (s : LexState) : Except Error LexState :=
  if s.keyAllowed then
    s.dropKey.map fun s => {
      s with
      possible := some {
        position := s.tokens.size
        line := s.cursor.line
        column := s.cursor.column
        index := s.cursor.index
        required := !s.inFlow && s.indent == s.cursor.column } }
  else .ok s

/-! ### Indentation -/

/-- Closes the block collections that are indented deeper than `column`. -/
def unroll (s : LexState) (column : Int) : LexState :=
  if s.inFlow then s else go s.outer s
where
  go : List Int → LexState → LexState
    | [], s => s
    | next :: outer, s =>
      if s.indent > column then
        go outer { s.push .blockEnd with indent := next, outer }
      else s

/-- Opens a block collection at `column`, in front of the token with this position. -/
def roll (s : LexState) (column : Nat) (position : Nat) (t : Token) : LexState :=
  if !s.inFlow && s.indent < column then
    { s with
      indent := column
      outer := s.indent :: s.outer
      tokens := s.tokens.insertIdxIfInBounds position t }
  else s

/-! ### Tokens -/

/-- Passes over blanks, comments and line ends. In block context a new line may start with a key. -/
def skipBlanks : Nat → LexState → LexState
  | 0, s => s
  | n + 1, s =>
    let c := s.cursor
    let c := if c.column == 0 && c.peek? == some '\uFEFF' then c.next else c
    let c := c.skipWhile fun d => d == ' ' || ((s.inFlow || !s.keyAllowed) && d == '\t')
    let c := if c.peek? == some '#' then c.skipWhile fun d => !isBreak d else c
    if c.rest.head?.any isBreak then
      skipBlanks n { s with cursor := c.next, keyAllowed := s.keyAllowed || !s.inFlow }
    else { s with cursor := c }

/-- A mark between documents or a directive ends all block collections. -/
def closeAll (s : LexState) : Except Error LexState :=
  (s.unroll (-1)).dropKey.map fun s => { s with keyAllowed := false }

def documentMark (s : LexState) (t : Token) : Except Error LexState :=
  s.closeAll.map fun s => { s.push t with cursor := .skip 3 s.cursor }

def openFlow (s : LexState) (t : Token) : Except Error LexState :=
  s.noteKey.map fun s => {
    s.push t with
    flowLevel := s.flowLevel + 1
    possible := none
    possibleOuter := s.possible :: s.possibleOuter
    keyAllowed := true
    cursor := s.cursor.next }

def closeFlow (s : LexState) (t : Token) : Except Error LexState :=
  s.dropKey.map fun s =>
    let s := match s.possibleOuter with
      | k :: outer => { s with possible := k, possibleOuter := outer }
      | [] => s
    { s.push t with flowLevel := s.flowLevel - 1, keyAllowed := false, cursor := s.cursor.next }

def flowEntry (s : LexState) : Except Error LexState :=
  s.dropKey.map fun s => { s.push .flowEntry with keyAllowed := true, cursor := s.cursor.next }

/-- A mark that opens a block collection at its own column. -/
def blockMark (s : LexState) (opening t : Token) (keyAllowed : Bool) : Except Error LexState :=
  if !s.inFlow && !s.keyAllowed then .error .misplacedIndicator
  else
    (s.roll s.cursor.column s.tokens.size opening).dropKey.map fun s =>
      { s.push t with keyAllowed, cursor := s.cursor.next }

/-- A colon makes a key of the token before, or else stands behind an explicit key. -/
def valueMark (s : LexState) : Except Error LexState :=
  match s.possible with
  | some k =>
    let s := { s with tokens := s.tokens.insertIdxIfInBounds k.position .key, possible := none }
    let s := s.roll k.column k.position .blockMappingStart
    .ok { s.push .value with keyAllowed := false, cursor := s.cursor.next }
  | none => s.blockMark .blockMappingStart .value (!s.inFlow)

/-- The name behind `*` or `&`. -/
def anchorName (s : LexState) (make : String → Token) : Except Error LexState :=
  match s.noteKey with
  | .error e => .error e
  | .ok s =>
    let (name, after) := s.cursor.next.span isWordChar
    let ends := blankAhead after.rest ||
      after.rest.head?.any fun d => "?:,]\x7d%@\x60".toList.contains d
    if name.isEmpty || !ends then .error .badAnchor
    else .ok { s.push (make (String.ofList name)) with keyAllowed := false, cursor := after }

def isUriChar (verbatim : Bool) (c : Char) : Bool :=
  isWordChar c || ";/?:@&=+$.%!~*'()".toList.contains c ||
    (verbatim && (c == ',' || c == '[' || c == ']'))

/-- A tag: `!<uri>`, `!handle!suffix` or `!suffix`. -/
def tag (s : LexState) : Except Error LexState :=
  match s.noteKey with
  | .error e => .error e
  | .ok s =>
    let c := s.cursor.next
    let found : Option (String × List Char × Cursor) :=
      match c.rest with
      | '<' :: _ =>
        let (uri, after) := c.next.span (isUriChar true)
        if uri.isEmpty || after.peek? != some '>' then none else some ("", uri, after.next)
      | _ =>
        let (name, after) := c.span isWordChar
        match after.peek? with
        | some '!' =>
          let (suffix, last) := after.next.span (isUriChar false)
          if suffix.isEmpty then none
          else some ("!" ++ String.ofList name ++ "!", suffix, last)
        | _ =>
          let (more, last) := after.span (isUriChar false)
          if (name ++ more).isEmpty then some ("", ['!'], last) else some ("!", name ++ more, last)
    match found with
    | none => .error .badTag
    | some (handle, suffix, after) =>
      if blankAhead after.rest || (s.inFlow && after.peek? == some ',') then
        .ok { s.push (.tag handle (String.ofList suffix)) with keyAllowed := false, cursor := after }
      else .error .badTag

def blockScalar (s : LexState) (folded : Bool) : Except Error LexState :=
  match s.dropKey with
  | .error e => .error e
  | .ok s =>
    (blockText folded s.indent s.cursor.next).map fun (text, after) =>
      { s.push (.scalar (if folded then .folded else .literal) (String.ofList text)) with
        keyAllowed := true, cursor := after }

def quotedScalar (s : LexState) (single : Bool) : Except Error LexState :=
  match s.noteKey with
  | .error e => .error e
  | .ok s =>
    (quotedText single (s.cursor.rest.length + 1) s.cursor.next).map fun (text, after) =>
      { s.push (.scalar (if single then .singleQuoted else .doubleQuoted) (String.ofList text)) with
        keyAllowed := false, cursor := after }

def plainScalar (s : LexState) : Except Error LexState :=
  match s.noteKey with
  | .error e => .error e
  | .ok s =>
    (plainPieces s.inFlow (s.indent + 1) (s.cursor.rest.length + 1) {} s.cursor).map
      fun (text, broken, after) =>
        { s.push (.scalar .plain (String.ofList text)) with keyAllowed := broken, cursor := after }

/-- A directive: `%YAML 1.2` or `%TAG !e! uri`. -/
def directive (s : LexState) : Except Error LexState :=
  match s.closeAll with
  | .error e => .error e
  | .ok s =>
    let (name, c) := s.cursor.next.span isWordChar
    let found : Option (Token × Cursor) :=
      if name == "YAML".toList then
        let (major, c) := (c.skipWhile isSpaceOrTab).span Char.isDigit
        if c.peek? != some '.' then none
        else
          let (minor, c) := c.next.span Char.isDigit
          if major.isEmpty || minor.isEmpty || 9 < major.length || 9 < minor.length then none
          else some (.version (number major) (number minor), c)
      else if name == "TAG".toList then
        let c := c.skipWhile isSpaceOrTab
        if c.peek? != some '!' then none
        else
          let (handle, after) := c.next.span isWordChar
          let (handle, after) :=
            if after.peek? == some '!' then (handle ++ ['!'], after.next) else (handle, after)
          if (handle.getLast? != some '!' && !handle.isEmpty) || !after.rest.head?.any isSpaceOrTab
          then none
          else
            let (uri, last) := (after.skipWhile isSpaceOrTab).span (isUriChar true)
            if uri.isEmpty || !blankAhead last.rest then none
            else some (.tagDirective (String.ofList ('!' :: handle)) (String.ofList uri), last)
      else none
    match found with
    | none => .error .badDirective
    | some (t, c) =>
      let c := c.skipWhile isSpaceOrTab
      let c := if c.peek? == some '#' then c.skipWhile fun d => !isBreak d else c
      if c.rest.isEmpty || c.rest.head?.any isBreak then .ok { s.push t with cursor := c.next }
      else .error .badDirective
where
  number (ds : List Char) : Nat := ds.foldl (fun n d => n * 10 + (d.toNat - '0'.toNat)) 0

/-- A character that cannot start a plain scalar. -/
def isIndicator (c : Char) : Bool :=
  "-?:,[]\x7b\x7d#&*!|>'\"%@\x60".toList.contains c

/-- Takes in the token that starts here. -/
def token (s : LexState) (d : Char) (rest : List Char) : Except Error LexState :=
  let c := s.cursor
  let alone := blankAhead rest
  if c.column == 0 && d == '%' then s.directive
  else if c.atMark "---" then s.documentMark .documentStart
  else if c.atMark "..." then s.documentMark .documentEnd
  else if d == '[' then s.openFlow .flowSequenceStart
  else if d == '{' then s.openFlow .flowMappingStart
  else if d == ']' then s.closeFlow .flowSequenceEnd
  else if d == '}' then s.closeFlow .flowMappingEnd
  else if d == ',' then s.flowEntry
  else if d == '-' && alone then s.blockMark .blockSequenceStart .blockEntry true
  else if d == '?' && (s.inFlow || alone) then s.blockMark .blockMappingStart .key (!s.inFlow)
  else if d == ':' && (s.inFlow || alone) then s.valueMark
  else if d == '*' then s.anchorName .alias
  else if d == '&' then s.anchorName .anchor
  else if d == '!' then s.tag
  else if d == '|' && !s.inFlow then s.blockScalar false
  else if d == '>' && !s.inFlow then s.blockScalar true
  else if d == '\'' then s.quotedScalar true
  else if d == '"' then s.quotedScalar false
  else if !isIndicator d && !isBlankOrBreak d || (d == '-' && !rest.head?.any isSpaceOrTab) ||
      (!s.inFlow && (d == '?' || d == ':') && !alone) then s.plainScalar
  else .error .unknownToken

/-- Takes in the tokens of a text; each of them takes at least one character. -/
def run : Nat → LexState → Except Error LexState
  | 0, s => .ok s
  | n + 1, s =>
    match (skipBlanks (s.cursor.rest.length + 1) s).dropStale with
    | .error e => .error e
    | .ok s =>
      match s.cursor.rest with
      | [] => s.closeAll
      | d :: rest =>
        match (s.unroll s.cursor.column).token d rest with
        | .error e => .error e
        | .ok s => run n s

end LexState

/-- The tokens of a text. -/
def lex (text : String) : Except Error (List Token) :=
  let cs := text.toList
  let cs := if cs.head? == some '\uFEFF' then cs.drop 1 else cs
  if !cs.all isAllowed then .error .forbiddenCharacter
  else
    let cs := unifyBreaks cs
    (LexState.run (cs.length + 1) { cursor := { rest := cs } }).map fun s => s.tokens.toList

end Forwarding.Yaml
