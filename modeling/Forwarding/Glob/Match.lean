import Forwarding.Glob.Pattern
import Forwarding.Text.Blank
import Forwarding.Text.Utf8

/-!
Matching paths against patterns. A path is matched as bytes, and `*` and `?` match slashes too. For
each piece of a pattern the function `rests` gives what may be left of the path behind it.
-/

namespace Forwarding.Glob

/-- The list with each text once. -/
def distinct : List (List UInt8) → List (List UInt8)
  | [] => []
  | x :: xs =>
    let ys := distinct xs
    if ys.contains x then ys else x :: ys

/-- The text and all that remains of it when bytes are taken off the front. -/
def suffixes : List UInt8 → List (List UInt8)
  | [] => [[]]
  | b :: bs => (b :: bs) :: suffixes bs

def slash : UInt8 := 0x2F

/-- What follows the slashes of a text. -/
def afterSlashes : List UInt8 → List (List UInt8)
  | [] => []
  | b :: bs => if b == slash then bs :: afterSlashes bs else afterSlashes bs

/-- What follows `front` in a text that starts with it. -/
def afterFront (front bs : List UInt8) : List (List UInt8) :=
  if front.isPrefixOf bs then [bs.drop front.length] else []

/-- The bytes a range of characters admits: in an encoding of several bytes only the neighbours of
the dash form a range, and the other bytes stand for themselves. -/
def rangeBytes (first last : Char) : List (UInt8 × UInt8) :=
  let lo := String.utf8EncodeChar first
  let hi := String.utf8EncodeChar last
  if first == last then lo.map fun b => (b, b)
  else
    lo.dropLast.map (fun b => (b, b)) ++ [(lo.getLast?.getD 0, hi.headD 0)] ++
      hi.tail.map fun b => (b, b)

def inRanges (ranges : List (Char × Char)) (b : UInt8) : Bool :=
  (ranges.flatMap fun r => rangeBytes r.1 r.2).any fun r => r.1 ≤ b && b ≤ r.2

mutual

/-- Nothing is left of a branch without pieces; it admits no text, not even the empty one. -/
def Piece.isVoid : Piece → Bool
  | .anyOf branches => allVoid branches
  | _ => false

def isVoidBranch : List Piece → Bool
  | [] => true
  | p :: ps => p.isVoid && isVoidBranch ps

def allVoid : List (List Piece) → Bool
  | [] => true
  | b :: bs => isVoidBranch b && allVoid bs

end

mutual

/-- What may be left of a text behind a piece. -/
def Piece.rests : Piece → List UInt8 → List (List UInt8)
  | .char c, bs => afterFront (String.utf8EncodeChar c) bs
  | .anyByte, bs => bs.tail?.toList
  | .anyRun, bs => suffixes bs
  | .foldersBefore, bs => bs :: afterSlashes bs
  | .everythingBelow, bs =>
    match bs with
    | b :: bs => if b == slash then suffixes bs else []
    | [] => []
  | .foldersBetween, bs =>
    match bs with
    | b :: bs => if b == slash then bs :: afterSlashes bs else []
    | [] => []
  | .oneOf negated ranges, bs =>
    match bs with
    | b :: bs => if inRanges ranges b != negated then [bs] else []
    | [] => []
  | .anyOf branches, bs => if allVoid branches then [bs] else branchRests branches bs

/-- What may be left of some texts behind a row of pieces. -/
def patternRests : List Piece → List (List UInt8) → List (List UInt8)
  | [], texts => texts
  | p :: ps, texts => patternRests ps (distinct (texts.flatMap p.rests))

def branchRests : List (List Piece) → List UInt8 → List (List UInt8)
  | [], _ => []
  | b :: branches, bs =>
    (if isVoidBranch b then [] else patternRests b [bs]) ++ branchRests branches bs

end

namespace Pattern

def isChar : Piece → Bool
  | .char _ => true
  | _ => false

/-- A pattern that stands for the last name of a path alone, or demands an ending of it. -/
def asksForName (p : Pattern) : Bool :=
  match p with
  | [] => false
  | .foldersBefore :: rest =>
    if rest.all isChar then !rest.any (fun q => q matches .char '/') && !rest.isEmpty
    else
      match rest with
      | [.anyRun, .char '.'] => true
      | .anyRun :: more => !more.all isChar
      | _ => true
  | [.anyRun, .char '.'] => true
  | .anyRun :: rest => !rest.all isChar
  | _ => !p.all isChar

/-- A path that ends with a step up has no last name. -/
def lacksName (bs : List UInt8) : Bool :=
  (bs.reverse.takeWhile (· != slash)) == [0x2E, 0x2E]

/-- A lone `**` matches everything. -/
def isEverything (p : Pattern) : Bool :=
  p matches [.foldersBefore]

/-- The path matches the pattern from its first to its last byte. -/
def matchesBytes (p : Pattern) (bs : List UInt8) : Bool :=
  p.isEverything ||
    ((patternRests p [bs]).contains [] && !(p.asksForName && endsInDot p && lacksName bs))
where
  endsInDot (p : Pattern) : Bool := p.getLast?.any fun q => q matches .char '.'

end Pattern

/-- The patterns that can be used, in order; none at all when none are given. Blank and malformed
patterns are left out. -/
def patterns? (texts : List String) : Option (List Pattern) :=
  if texts.isEmpty then none
  else some ((texts.filter fun t => !t.toList.all Text.isBlank).filterMap fun t =>
    (Pattern.ofString t).toOption)

/-- One of the patterns matches the path. -/
def anyMatches (ps : Option (List Pattern)) (path : String) : Bool :=
  ps.any fun ps => ps.any fun p => p.matchesBytes (Text.utf8 path)

end Forwarding.Glob
