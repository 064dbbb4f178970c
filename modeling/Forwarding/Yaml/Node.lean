import Forwarding.Yaml.Lexer

/-!
YAML documents as trees. Aliases are replaced by what they stand for; an alias inside its own anchor
stands for nothing that can be read.
-/

namespace Forwarding.Yaml

inductive Node where
  | scalar (tag : Option String) (style : Style) (text : String)
  | sequence (items : List Node)
  | mapping (entries : List (Node × Node))
  /-- An alias of a node that is not complete yet. -/
  | cycle
  deriving Repr, Inhabited

/-- The node of a value that is left out. -/
def Node.absent : Node := .scalar none .plain ""

/-- The nodes with anchors so far, the last one first; one that is not complete has no node. -/
abbrev Anchors := List (String × Option Node)

structure ParseState where
  tokens : List Token
  anchors : Anchors := []
  /-- The handles that tags may start with. -/
  handles : List (String × String) := []
  deriving Repr, Inhabited

abbrev Parsed (α : Type) := Except Error (α × ParseState)

namespace ParseState

def drop (s : ParseState) : ParseState :=
  { s with tokens := s.tokens.tail }

def peek? (s : ParseState) : Option Token :=
  s.tokens.head?

/-- The next token is one of these, or there is none. -/
def atAny (s : ParseState) (ts : List Token) : Bool :=
  match s.peek? with
  | none => true
  | some t => ts.contains t

end ParseState

/-- The anchor and the tag in front of a node, each at most once and in any order. -/
def properties (s : ParseState) : Option String × Option (String × String) × ParseState :=
  match s.tokens with
  | .anchor a :: .tag h x :: rest => (some a, some (h, x), { s with tokens := rest })
  | .tag h x :: .anchor a :: rest => (some a, some (h, x), { s with tokens := rest })
  | .anchor a :: rest => (some a, none, { s with tokens := rest })
  | .tag h x :: rest => (none, some (h, x), { s with tokens := rest })
  | _ => (none, none, s)

/-- The full name of a tag. -/
def resolveTag (handles : List (String × String)) : Option (String × String) →
    Except Error (Option String)
  | none => .ok none
  | some ("", suffix) => .ok (some suffix)
  | some (handle, suffix) =>
    match handles.lookup handle with
    | some uri => .ok (some (uri ++ suffix))
    | none => .error .unknownTagHandle

mutual

/-- Reads a node. Block collections may stand only where `block` says so, and sequences without
indentation of their own only where `flat` does. Each step down takes one unit of fuel. -/
def node (block flat : Bool) : Nat → ParseState → Parsed Node
  | 0, _ => .error .unexpectedToken
  | n + 1, s =>
    match s.tokens with
    | .alias name :: rest =>
      match s.anchors.lookup name with
      | some (some node) => .ok (node, { s with tokens := rest })
      | some none => .ok (.cycle, { s with tokens := rest })
      | none => .error .unknownAnchor
    | _ =>
      let (anchor, tag, s) := properties s
      match resolveTag s.handles tag with
      | .error e => .error e
      | .ok tag =>
        let s := match anchor with
          | some a => { s with anchors := (a, none) :: s.anchors }
          | none => s
        let content : Parsed Node :=
          match s.tokens with
          | .scalar style text :: rest => .ok (.scalar tag style text, { s with tokens := rest })
          | .flowSequenceStart :: _ => (flowItems true n s.drop).map fun (vs, s) => (.sequence vs, s)
          | .flowMappingStart :: _ => (flowFields true n s.drop).map fun (fs, s) => (.mapping fs, s)
          | .blockEntry :: _ =>
            if flat then (flatItems n s).map fun (vs, s) => (.sequence vs, s)
            else emptyNode (anchor.isSome || tag.isSome) tag s
          | .blockSequenceStart :: _ =>
            if block then (blockItems n s.drop).map fun (vs, s) => (.sequence vs, s)
            else emptyNode (anchor.isSome || tag.isSome) tag s
          | .blockMappingStart :: _ =>
            if block then (blockFields n s.drop).map fun (fs, s) => (.mapping fs, s)
            else emptyNode (anchor.isSome || tag.isSome) tag s
          | _ => emptyNode (anchor.isSome || tag.isSome) tag s
        content.map fun (v, s) =>
          match anchor with
          | some a => (v, { s with anchors := (a, some v) :: s.anchors })
          | none => (v, s)

/-- Only a node with an anchor or a tag may be left out. -/
def emptyNode (allowed : Bool) (tag : Option String) (s : ParseState) : Parsed Node :=
  if allowed then .ok (.scalar tag .plain "", s) else .error .unexpectedToken

/-- The entries of a block sequence up to its end. -/
def blockItems : Nat → ParseState → Parsed (List Node)
  | 0, _ => .error .unexpectedToken
  | n + 1, s =>
    match s.tokens with
    | .blockEntry :: _ =>
      let s := s.drop
      let item : Parsed Node :=
        if s.atAny [.blockEntry, .blockEnd] then .ok (.absent, s) else node true false n s
      match item with
      | .error e => .error e
      | .ok (v, s) => (blockItems n s).map fun (vs, s) => (v :: vs, s)
    | .blockEnd :: _ => .ok ([], s.drop)
    | _ => .error .unexpectedToken

/-- The entries of a sequence that is indented like the mapping around it. -/
def flatItems : Nat → ParseState → Parsed (List Node)
  | 0, _ => .error .unexpectedToken
  | n + 1, s =>
    match s.tokens with
    | .blockEntry :: _ =>
      let s := s.drop
      let item : Parsed Node :=
        if s.atAny [.blockEntry, .key, .value, .blockEnd] then .ok (.absent, s)
        else node true false n s
      match item with
      | .error e => .error e
      | .ok (v, s) => (flatItems n s).map fun (vs, s) => (v :: vs, s)
    | _ => .ok ([], s)

/-- The entries of a block mapping up to its end. -/
def blockFields : Nat → ParseState → Parsed (List (Node × Node))
  | 0, _ => .error .unexpectedToken
  | n + 1, s =>
    match s.tokens with
    | .blockEnd :: _ => .ok ([], s.drop)
    | .key :: _ =>
      let s := s.drop
      let key : Parsed Node :=
        if s.atAny [.key, .value, .blockEnd] then .ok (.absent, s) else node true true n s
      match key with
      | .error e => .error e
      | .ok (k, s) =>
        match blockValue n s with
        | .error e => .error e
        | .ok (v, s) => (blockFields n s).map fun (fs, s) => ((k, v) :: fs, s)
    | _ => .error .unexpectedToken

def blockValue : Nat → ParseState → Parsed Node
  | 0, _ => .error .unexpectedToken
  | n + 1, s =>
    match s.tokens with
    | .value :: _ =>
      let s := s.drop
      if s.atAny [.key, .value, .blockEnd] then .ok (.absent, s) else node true true n s
    | _ => .ok (.absent, s)

/-- The entries of a sequence in brackets up to the closing one. -/
def flowItems (first : Bool) : Nat → ParseState → Parsed (List Node)
  | 0, _ => .error .unexpectedToken
  | n + 1, s =>
    match s.tokens with
    | .flowSequenceEnd :: _ => .ok ([], s.drop)
    | t :: _ =>
      if !first && t != .flowEntry then .error .unexpectedToken
      else
        let s := if first then s else s.drop
        match s.tokens with
        | .flowSequenceEnd :: _ => .ok ([], s.drop)
        | .key :: _ =>
          match flowPair .flowSequenceEnd n s.drop with
          | .error e => .error e
          | .ok (field, s) => (flowItems false n s).map fun (vs, s) => (.mapping [field] :: vs, s)
        | _ =>
          match node false false n s with
          | .error e => .error e
          | .ok (v, s) => (flowItems false n s).map fun (vs, s) => (v :: vs, s)
    | [] => .error .unexpectedToken

/-- The entries of a mapping in braces up to the closing one. -/
def flowFields (first : Bool) : Nat → ParseState → Parsed (List (Node × Node))
  | 0, _ => .error .unexpectedToken
  | n + 1, s =>
    match s.tokens with
    | .flowMappingEnd :: _ => .ok ([], s.drop)
    | t :: _ =>
      if !first && t != .flowEntry then .error .unexpectedToken
      else
        let s := if first then s else s.drop
        match s.tokens with
        | .flowMappingEnd :: _ => .ok ([], s.drop)
        | .key :: _ =>
          match flowPair .flowMappingEnd n s.drop with
          | .error e => .error e
          | .ok (field, s) => (flowFields false n s).map fun (fs, s) => (field :: fs, s)
        | _ =>
          match node false false n s with
          | .error e => .error e
          | .ok (k, s) => (flowFields false n s).map fun (fs, s) => ((k, .absent) :: fs, s)
    | [] => .error .unexpectedToken

/-- A key and its value inside brackets or braces that end with `closing`. -/
def flowPair (closing : Token) : Nat → ParseState → Parsed (Node × Node)
  | 0, _ => .error .unexpectedToken
  | n + 1, s =>
    let key : Parsed Node :=
      if s.atAny [.value, .flowEntry, closing] then .ok (.absent, s) else node false false n s
    match key with
    | .error e => .error e
    | .ok (k, s) =>
      match s.tokens with
      | .value :: _ =>
        let s := s.drop
        if s.atAny [.flowEntry, closing] then .ok ((k, .absent), s)
        else (node false false n s).map fun (v, s) => ((k, v), s)
      | _ => .ok ((k, .absent), s)

end

/-! ### Documents -/

/-- The directives in front of a document: its version and the handles it declares. -/
def directives : Option (Nat × Nat) → List (String × String) → List Token →
    Except Error (Bool × List (String × String) × List Token)
  | version, handles, .version major minor :: ts =>
    if version.isSome || major != 1 || (minor != 1 && minor != 2) then .error .badDirective
    else directives (some (major, minor)) handles ts
  | version, handles, .tagDirective handle uri :: ts =>
    if (handles.lookup handle).isSome then .error .badDirective
    else directives version ((handle, uri) :: handles) ts
  | version, handles, ts => .ok (version.isSome || !handles.isEmpty, handles, ts)

/-- The handles that need no declaration. -/
def defaultHandles : List (String × String) :=
  [("!", "!"), ("!!", "tag:yaml.org,2002:")]

/-- The only document of a text; an empty text has an absent value. -/
def Node.ofTokens (ts : List Token) : Except Error Node :=
  match directives none [] ts with
  | .error e => .error e
  | .ok (declared, handles, ts) =>
    let explicit := ts.head? == some .documentStart
    if declared && !explicit then .error .unexpectedToken
    else
      let s : ParseState := {
        tokens := if explicit then ts.tail else ts
        handles := handles ++ defaultHandles }
      let content : Parsed Node :=
        match s.tokens with
        | [] => .ok (.absent, s)
        | t :: _ =>
          if explicit && endsDocument t then .ok (.absent, s)
          else node true false (2 * s.tokens.length + 2) s
      match content with
      | .error e => .error e
      | .ok (v, s) =>
        if (s.tokens.dropWhile (· == .documentEnd)).isEmpty then .ok v
        else .error .severalDocuments
where
  endsDocument : Token → Bool
    | .documentStart | .documentEnd | .version _ _ | .tagDirective _ _ => true
    | _ => false

/-- The only document of a text. -/
def Node.ofString (text : String) : Except Error Node :=
  match lex text with
  | .error e => .error e
  | .ok ts => Node.ofTokens ts

end Forwarding.Yaml
