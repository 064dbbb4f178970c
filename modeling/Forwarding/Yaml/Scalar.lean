import Forwarding.Yaml.Token

/-!
Reading scalars: plain, quoted and block ones. Line ends inside a scalar are folded: a single one
becomes a space, and of several the first one is dropped.
-/

namespace Forwarding.Yaml

/-! ### Folding -/

/-- The blanks between two pieces of a scalar. -/
structure Gap where
  /-- Blanks on the line of the first piece. -/
  spaces : List Char := []
  /-- A line has ended. -/
  broken : Bool := false
  /-- The first line end. -/
  first : List Char := []
  /-- The other line ends. -/
  others : List Char := []
  deriving Repr, Inhabited

namespace Gap

/-- Takes in a blank or a line end. -/
def add (g : Gap) (c : Char) : Gap :=
  if isBreak c then
    if g.broken then { g with others := g.others ++ [c] }
    else { g with spaces := [], broken := true, first := [c] }
  else if g.broken then g
  else { g with spaces := g.spaces ++ [c] }

/-- The characters that stand for the gap. -/
def text (g : Gap) : List Char :=
  if !g.broken then g.spaces
  else if g.first == ['\n'] then
    if g.others.isEmpty then [' '] else g.others
  else g.first ++ g.others

end Gap

def isBlankOrBreak (c : Char) : Bool :=
  isSpaceOrTab c || isBreak c

/-- The blanks in front; `start` is what of the gap came before them. -/
def readGap (start : Gap) (c : Cursor) : Gap × Cursor :=
  let (blanks, after) := c.span isBlankOrBreak
  (blanks.foldl Gap.add start, after)

/-! ### Plain scalars -/

def isFlowMark (c : Char) : Bool :=
  c == ',' || c == '[' || c == ']' || c == '{' || c == '}'

/-- The characters up to the end of a piece of a plain scalar. -/
def plainPiece (inFlow : Bool) : Nat → Cursor → Except Error (List Char × Cursor)
  | 0, c => .ok ([], c)
  | n + 1, c =>
    match c.rest with
    | [] => .ok ([], c)
    | d :: rest =>
      if isBlankOrBreak d then .ok ([], c)
      else if inFlow && d == ':' && rest.head?.any (fun e => isFlowMark e || e == '?') then
        .error .unknownToken
      else if (d == ':' && blankAhead rest) || (inFlow && isFlowMark d) then .ok ([], c)
      else (plainPiece inFlow n c.next).map fun (text, after) => (d :: text, after)

/-- The blanks behind a piece of a plain scalar. A tab cannot stand in for the indentation of a
continued line. -/
def plainGap (indent : Int) : Nat → Gap → Cursor → Except Error (Gap × Cursor)
  | 0, gap, c => .ok (gap, c)
  | n + 1, gap, c =>
    match c.rest with
    | [] => .ok (gap, c)
    | d :: _ =>
      if !isBlankOrBreak d then .ok (gap, c)
      else if gap.broken && d == '\t' && c.column < indent then .error .tabInIndentation
      else plainGap indent n (gap.add d) c.next

/-- Reads a plain scalar: its text, whether the last line ended behind it, and the place behind it.
`gap` holds the blanks before the next piece. -/
def plainPieces (inFlow : Bool) (indent : Int) :
    Nat → Gap → Cursor → Except Error (List Char × Bool × Cursor)
  | 0, gap, c => .ok ([], gap.broken, c)
  | n + 1, gap, c =>
    if c.atDocumentMark || c.peek? == some '#' then .ok ([], gap.broken, c)
    else
      match plainPiece inFlow c.rest.length c with
      | .error e => .error e
      | .ok (piece, after) =>
        let text := if piece.isEmpty then [] else gap.text ++ piece
        let pending := if piece.isEmpty then gap else {}
        if !after.rest.head?.any isBlankOrBreak then .ok (text, pending.broken, after)
        else
          match plainGap indent after.rest.length pending after with
          | .error e => .error e
          | .ok (next, behind) =>
            if !inFlow && behind.column < indent then .ok (text, next.broken, behind)
            else
              (plainPieces inFlow indent n next behind).map fun (more, broken, last) =>
                (text ++ more, broken, last)

/-! ### Quoted scalars -/

def hexValue? (c : Char) : Option Nat :=
  if '0' ≤ c && c ≤ '9' then some (c.toNat - '0'.toNat)
  else if 'a' ≤ c && c ≤ 'f' then some (c.toNat - 'a'.toNat + 10)
  else if 'A' ≤ c && c ≤ 'F' then some (c.toNat - 'A'.toNat + 10)
  else none

/-- The character with the code of `n` hexadecimal digits. -/
def hexChar? (n : Nat) (cs : List Char) : Option Char :=
  match (cs.take n).mapM hexValue? with
  | some ds =>
    let code := ds.foldl (fun k d => k * 16 + d) 0
    if ds.length == n && code.isValidChar then some (Char.ofNat code) else none
  | none => none

/-- The number of digits that follow the letter of an escape. -/
def escapeDigits? (c : Char) : Option Nat :=
  match c with
  | 'x' => some 2
  | 'u' => some 4
  | 'U' => some 8
  | _ => none

/-- The character that an escape of one letter stands for. -/
def escapeChar? (c : Char) : Option Char :=
  match c with
  | '0' => some (Char.ofNat 0)
  | 'a' => some (Char.ofNat 7)
  | 'b' => some (Char.ofNat 8)
  | 't' => some '\t'
  | '\t' => some '\t'
  | 'n' => some '\n'
  | 'v' => some (Char.ofNat 11)
  | 'f' => some (Char.ofNat 12)
  | 'r' => some '\r'
  | 'e' => some (Char.ofNat 27)
  | ' ' => some ' '
  | '"' => some '"'
  | '/' => some '/'
  | '\\' => some '\\'
  | 'N' => some '\u0085'
  | '_' => some '\u00A0'
  | 'L' => some '\u2028'
  | 'P' => some '\u2029'
  | _ => none

/-- Reads a quoted scalar behind its opening quote. -/
def quotedText (single : Bool) : Nat → Cursor → Except Error (List Char × Cursor)
  | 0, _ => .error .unfinishedScalar
  | n + 1, c =>
    if c.atDocumentMark then .error .unfinishedScalar
    else
      match c.rest with
      | [] => .error .unfinishedScalar
      | d :: rest =>
        if isBlankOrBreak d then
          let (gap, after) := readGap {} c
          (quotedText single n after).map fun (text, last) => (gap.text ++ text, last)
        else if single && d == '\'' && rest.head? == some '\'' then
          (quotedText single n (.skip 2 c)).map fun (text, last) => ('\'' :: text, last)
        else if d == (if single then '\'' else '"') then .ok ([], c.next)
        else if !single && d == '\\' then
          match rest with
          | [] => .error .unfinishedScalar
          | e :: digits =>
            if isBreak e then
              let (gap, after) := readGap { broken := true } (.skip 2 c)
              (quotedText single n after).map fun (text, last) => (gap.text ++ text, last)
            else
              match escapeDigits? e with
              | some k =>
                match hexChar? k digits with
                | some x =>
                  (quotedText single n (.skip (k + 2) c)).map fun (text, last) => (x :: text, last)
                | none => .error .badEscape
              | none =>
                match escapeChar? e with
                | some x => (quotedText single n (.skip 2 c)).map fun (text, last) => (x :: text, last)
                | none => .error .badEscape
        else (quotedText single n c.next).map fun (text, last) => (d :: text, last)

/-! ### Block scalars -/

/-- What becomes of the line ends behind a block scalar. -/
inductive Chomping where
  | strip
  | clip
  | keep
  deriving DecidableEq, Repr, Inhabited

/-- Reads the indicators behind `|` or `>`: the chomping and the indentation, if it is given. -/
def blockHeader (c : Cursor) : Except Error (Chomping × Option Nat × Cursor) :=
  match c.rest with
  | '+' :: rest => withDigit .keep c.next rest
  | '-' :: rest => withDigit .strip c.next rest
  | d :: rest =>
    if d == '0' then .error .badBlockHeader
    else if d.isDigit then
      let step := some (d.toNat - '0'.toNat)
      match rest with
      | '+' :: _ => .ok (.keep, step, c.next.next)
      | '-' :: _ => .ok (.strip, step, c.next.next)
      | _ => .ok (.clip, step, c.next)
    else .ok (.clip, none, c)
  | [] => .ok (.clip, none, c)
where
  withDigit (chomping : Chomping) (c : Cursor) (rest : List Char) :
      Except Error (Chomping × Option Nat × Cursor) :=
    match rest with
    | d :: _ =>
      if d == '0' then .error .badBlockHeader
      else if d.isDigit then .ok (chomping, some (d.toNat - '0'.toNat), c.next)
      else .ok (chomping, none, c)
    | [] => .ok (chomping, none, c)

/-- Skips indentation and empty lines. The answer has the line ends and the deepest indentation met;
without a known indentation all spaces count. -/
def blockGap (indent : Option Nat) :
    Nat → List Char → Nat → Cursor → Except Error (List Char × Nat × Cursor)
  | 0, breaks, deepest, c => .ok (breaks, deepest, c)
  | n + 1, breaks, deepest, c =>
    let c := skipIndent indent c
    let deepest := max deepest c.column
    let isOpen := indent.all fun i => decide (c.column < i)
    match c.rest with
    | d :: _ =>
      if isOpen && d == '\t' then .error .tabInIndentation
      else if isBreak d then blockGap indent n (breaks ++ [d]) deepest c.next
      else .ok (breaks, deepest, c)
    | [] => .ok (breaks, deepest, c)
where
  skipIndent (indent : Option Nat) (c : Cursor) : Cursor :=
    let spaces := (c.rest.takeWhile (· == ' ')).length
    match indent with
    | none => Cursor.skip spaces c
    | some i => Cursor.skip (min spaces (i - c.column)) c

/-- Reads the lines of a block scalar with a known indentation. `breaks` are the line ends in front
of the next line, the first one apart in `first`; `indented` says that the line before starts with a
blank, which keeps its line end. -/
def blockLines (folded : Bool) (indent : Nat) :
    Nat → List Char → List Char → Bool → Cursor →
      Except Error (List Char × List Char × List Char × Cursor)
  | 0, first, breaks, _, c => .ok ([], first, breaks, c)
  | n + 1, first, breaks, indented, c =>
    if c.column != indent || c.rest.isEmpty then .ok ([], first, breaks, c)
    else
      let startsBlank := c.rest.head?.any isSpaceOrTab
      let lead :=
        if folded && first == ['\n'] && !indented && !startsBlank then
          (if breaks.isEmpty then [' '] else []) ++ breaks
        else first ++ breaks
      let (line, after) := c.span fun d => !isBreak d
      let (ending, behind) :=
        match after.rest with
        | d :: _ => ([d], after.next)
        | [] => ([], after)
      match blockGap (some indent) behind.rest.length [] 0 behind with
      | .error e => .error e
      | .ok (breaks, _, next) =>
        (blockLines folded indent n ending breaks startsBlank next).map
          fun (text, first, breaks, last) => (lead ++ line ++ text, first, breaks, last)

/-- Reads a block scalar behind its indicator. The collection around it is indented by `around`,
which is negative outside all collections. -/
def blockText (folded : Bool) (around : Int) (c : Cursor) : Except Error (List Char × Cursor) :=
  match blockHeader c with
  | .error e => .error e
  | .ok (chomping, step, c) =>
    let c := c.skipWhile isSpaceOrTab
    let c := if c.peek? == some '#' then c.skipWhile fun d => !isBreak d else c
    if !c.rest.isEmpty && !c.rest.head?.any isBreak then .error .badBlockHeader
    else
      let c := c.next
      let given := step.map fun s => (max around 0).toNat + s
      match blockGap given c.rest.length [] 0 c with
      | .error e => .error e
      | .ok (breaks, deepest, c) =>
        let indent := given.getD (max (max deepest (around + 1).toNat) 1)
        match blockLines folded indent c.rest.length [] breaks false c with
        | .error e => .error e
        | .ok (text, first, breaks, last) =>
          let ending :=
            match chomping with
            | .strip => []
            | .clip => first
            | .keep => first ++ breaks
          .ok (text ++ ending, last)

end Forwarding.Yaml
