/-!
Patterns for paths, such as `**/*.g.cs` or `{src,test}/[!_]*.cs`.
-/

namespace Forwarding.Glob

/-- What a part of a pattern stands for. -/
inductive Piece where
  | char (c : Char)
  /-- `?`: any one byte. -/
  | anyByte
  /-- `*`: any run of bytes. -/
  | anyRun
  /-- `**/` in front: any number of folders, or none. -/
  | foldersBefore
  /-- `/**` at the end: anything below. -/
  | everythingBelow
  /-- `/**/` between: a slash, with any number of folders behind it. -/
  | foldersBetween
  /-- `[a-z]` or `[!a-z]`. -/
  | oneOf (negated : Bool) (ranges : List (Char × Char))
  /-- `{a,b}`. -/
  | anyOf (branches : List (List Piece))
  deriving Repr, Inhabited

abbrev Pattern := List Piece

inductive PatternError where
  | unclosedClass
  | invalidRange (first last : Char)
  | unopenedBranch
  | unclosedBranch
  | danglingEscape
  deriving DecidableEq, Repr, Inhabited

/-! ### Classes -/

/-- The parts of a class read so far, the last one first. -/
structure ClassState where
  ranges : List (Char × Char) := []
  /-- A dash was read that may join the last range with the next character. -/
  joining : Bool := false
  deriving Repr, Inhabited

namespace ClassState

/-- Ends the last range with `c`. -/
def join (s : ClassState) (c : Char) : Except PatternError ClassState :=
  match s.ranges with
  | (first, _) :: rest =>
    if c < first then .error (.invalidRange first c) else .ok { ranges := (first, c) :: rest }
  | [] => .ok { ranges := [(c, c)] }

/-- Takes in the next character of a class. -/
def add (s : ClassState) (c : Char) : Except PatternError ClassState :=
  if s.joining then s.join c
  else if c == '-' && !s.ranges.isEmpty then .ok { s with joining := true }
  else .ok { s with ranges := (c, c) :: s.ranges }

/-- A dash that joins nothing stands for itself. -/
def finish (s : ClassState) : List (Char × Char) :=
  (if s.joining then ('-', '-') :: s.ranges else s.ranges).reverse

end ClassState

/-- Reads a class up to the bracket that closes it; a bracket in the first place stands for
itself. -/
def readRanges : ClassState → List Char → Except PatternError (List (Char × Char) × List Char)
  | _, [] => .error .unclosedClass
  | s, c :: cs =>
    if c == ']' && !s.ranges.isEmpty then .ok (s.finish, cs)
    else
      match s.add c with
      | .error e => .error e
      | .ok s => readRanges s cs

/-- Reads a class behind its opening bracket. -/
def readClass (cs : List Char) : Except PatternError (Piece × List Char) :=
  let (negated, cs) :=
    match cs with
    | '!' :: rest | '^' :: rest => (true, rest)
    | _ => (false, cs)
  (readRanges {} cs).map fun (ranges, rest) => (.oneOf negated ranges, rest)

/-! ### Patterns -/

/-- A pattern being read: the branches that are open from the inside out, each with its pieces in
reverse, and for each open brace the branches that are complete. -/
structure ReadState where
  /-- The pieces of the innermost branch, the last one first. -/
  current : List Piece := []
  /-- For each open brace, inside out: its complete branches, the last one first, and the pieces
  before it. -/
  pending : List (List (List Piece) × List Piece) := []
  /-- The character before. -/
  previous : Option Char := none
  deriving Repr, Inhabited

namespace ReadState

def push (s : ReadState) (p : Piece) (previous : Char) : ReadState :=
  { s with current := p :: s.current, previous := some previous }

def inBraces (s : ReadState) : Bool :=
  !s.pending.isEmpty

def openBrace (s : ReadState) : ReadState :=
  { current := [], pending := ([], s.current) :: s.pending, previous := some '{' }

def closeBrace (s : ReadState) : Except PatternError ReadState :=
  match s.pending with
  | [] => .error .unopenedBranch
  | (done, before) :: rest =>
    .ok {
      current := .anyOf (s.current.reverse :: done).reverse :: before
      pending := rest
      previous := some '}' }

/-- A comma starts the next branch, and stands for itself outside braces. -/
def comma (s : ReadState) : ReadState :=
  match s.pending with
  | [] => s.push (.char ',') ','
  | (done, before) :: rest =>
    { current := [], pending := (s.current.reverse :: done, before) :: rest, previous := some ',' }

/-- Two stars that do not fill the place between two slashes are just two stars. -/
def twoRuns (s : ReadState) : ReadState :=
  (s.push .anyRun '*').push .anyRun '*'

/-- Puts `p` in place of the slash read last; two stars in a row count once. -/
def replaceSlash (s : ReadState) (p : Piece) (previous : Char) : ReadState :=
  match s.current with
  | .foldersBefore :: _ | .everythingBelow :: _ => { s with previous := some previous }
  | _ :: rest => { s with current := p :: rest, previous := some previous }
  | [] => { s with current := [p], previous := some previous }

/-- Takes in two stars; `rest` follows them. -/
def twoStars (s : ReadState) (rest : List Char) : ReadState × List Char :=
  if s.current.isEmpty then
    match rest with
    | [] => (s.push .foldersBefore '*', [])
    | '/' :: after => (s.push .foldersBefore '/', after)
    | _ => (s.twoRuns, rest)
  else if s.previous == some '/' ||
      (s.inBraces && (s.previous == some ',' || s.previous == some '{')) then
    match rest with
    | [] => (s.replaceSlash .everythingBelow '*', [])
    | '/' :: after => (s.replaceSlash .foldersBetween '/', after)
    | c :: _ =>
      if s.inBraces && (c == ',' || c == '}') then (s.replaceSlash .everythingBelow '*', rest)
      else (s.twoRuns, rest)
  else (s.twoRuns, rest)

end ReadState

/-- Reads at most `n` parts of a pattern. -/
def readPieces : Nat → ReadState → List Char → Except PatternError ReadState
  | _, s, [] => .ok s
  | 0, s, _ => .ok s
  | n + 1, s, c :: cs =>
    match c with
    | '?' => readPieces n (s.push .anyByte '?') cs
    | '*' =>
      match cs with
      | '*' :: rest =>
        let (s, rest) := s.twoStars rest
        readPieces n s rest
      | _ => readPieces n (s.push .anyRun '*') cs
    | '[' =>
      match readClass cs with
      | .error e => .error e
      | .ok (p, rest) => readPieces n (s.push p ']') rest
    | '{' => readPieces n s.openBrace cs
    | '}' =>
      match s.closeBrace with
      | .error e => .error e
      | .ok s => readPieces n s cs
    | ',' => readPieces n s.comma cs
    | '\\' =>
      match cs with
      | [] => .error .danglingEscape
      | d :: rest => readPieces n (s.push (.char d) d) rest
    | _ => readPieces n (s.push (.char c) c) cs

/-- The pattern written as `text`. -/
def Pattern.ofString (text : String) : Except PatternError Pattern :=
  match readPieces text.toList.length {} text.toList with
  | .error e => .error e
  | .ok s => if s.inBraces then .error .unclosedBranch else .ok s.current.reverse

end Forwarding.Glob
