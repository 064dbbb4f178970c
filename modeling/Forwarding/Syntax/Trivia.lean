import Forwarding.Text.Blank

/-!
What stands between tokens: white space, comments, and the directives that do not select code, such
as `#region`. Lengths count characters.
-/

namespace Forwarding.Syntax

/-- The white space of the language. -/
def isSpace (c : Char) : Bool :=
  c == ' ' || (9 ≤ c.toNat && c.toNat ≤ 13) || c == '\u00A0' || c == '\uFEFF' || c == '\u3000'

/-- The length of the rest of a block comment, its end included. -/
def blockCommentRest : List Char → Option Nat
  | [] => none
  | '*' :: '/' :: _ => some 2
  | _ :: cs => (blockCommentRest cs).map (· + 1)

/-- The name of a directive and the rest of its line, given what follows the `#`. -/
def directiveParts (cs : List Char) : String × List Char :=
  let cs := cs.dropWhile fun c => c == ' ' || c == '\t'
  (String.ofList (cs.takeWhile Char.isAlpha), (cs.dropWhile Char.isAlpha).takeWhile (· != '\n'))

/-- A line without a comment at its end. -/
def withoutLineComment : List Char → List Char
  | [] => []
  | '/' :: '/' :: _ => []
  | c :: cs => c :: withoutLineComment cs

/-- The words on a directive's line. -/
def directiveWords (line : List Char) : List String :=
  (Text.words (withoutLineComment line)).map String.ofList

/-- The directives that are skipped like comments, if their line has the form they need. -/
def isSkippedDirective (name : String) (line : List Char) : Bool :=
  match name with
  | "region" | "endregion" | "error" | "warning" => true
  | "define" | "undef" => !(Text.words line).isEmpty
  | "line" => !(directiveWords line).isEmpty
  | "nullable" =>
    match directiveWords line with
    | [setting] => ["enable", "disable", "restore"].contains setting
    | [setting, target] =>
      ["enable", "disable", "restore"].contains setting &&
        ["annotations", "warnings"].contains target
    | _ => false
  | "pragma" =>
    match directiveWords line with
    | "warning" :: action :: _ => action == "disable" || action == "restore"
    | "checksum" :: _ => true
    | _ => false
  | _ => false

/-- The length of the comment or skipped directive at the front of a text. A directive ends behind
its line end. -/
def remarkLength? : List Char → Option Nat
  | '/' :: '/' :: cs => some (2 + (cs.takeWhile fun c => c != '\n' && c != '\r').length)
  | '/' :: '*' :: cs => (blockCommentRest cs).map (· + 2)
  | '#' :: cs =>
    let (name, line) := directiveParts cs
    let length := (cs.takeWhile (· != '\n')).length
    if isSkippedDirective name line && length < cs.length then some (length + 2) else none
  | _ => none

/-- The length of the trivia at the front of a text, of which the first `pending` characters belong
to a remark. With `withinLine` it stops at the end of the line. -/
def triviaFrom (withinLine : Bool) : Nat → List Char → Nat
  | _, [] => 0
  | pending + 1, _ :: cs => triviaFrom withinLine pending cs + 1
  | 0, c :: cs =>
    if isSpace c && !(withinLine && c == '\n') then triviaFrom withinLine 0 cs + 1
    else
      match remarkLength? (c :: cs) with
      | some (n + 1) => triviaFrom withinLine n cs + 1
      | _ => 0

/-- The length of the line with which a source may name its interpreter. -/
def shebangLength : List Char → Nat
  | '#' :: '!' :: cs => 2 + (cs.takeWhile (· != '\n')).length
  | _ => 0

end Forwarding.Syntax
