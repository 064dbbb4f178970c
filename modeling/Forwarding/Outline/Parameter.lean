import Forwarding.Outline.Basic
import Forwarding.Text.Alphanumeric
import Forwarding.Text.Blank

/-!
Reading a parameter from its text, such as `[NotNull] ref int value = 0`. Attributes in front and
the default behind are dropped; the name is the run of name characters at the end, passing keywords
are taken off the front, and the rest is the type.
-/

namespace Forwarding

/-- The passing keywords; `this` is recognised and never kept. -/
def passingKeywords : List String :=
  ["this", "scoped", "ref", "out", "in", "params", "readonly"]

/-- Takes passing keywords off the front of a text, at most `n` of them. A keyword counts only with
a blank behind it. -/
def leadingKeywords : Nat → List Char → List String × List Char
  | 0, cs => ([], cs)
  | n + 1, cs =>
    match Text.splitAtFirst Text.isBlank cs with
    | none => ([], cs)
    | some (word, tail) =>
      if passingKeywords.contains (String.ofList word) then
        let (words, rest) := leadingKeywords n (Text.trimStart tail)
        (String.ofList word :: words, rest)
      else ([], cs)

/-- The passing keywords in front of a text and what follows them. -/
def splitKeywords (cs : List Char) : List String × List Char :=
  leadingKeywords cs.length cs

/-- Adds keywords that are not there yet, leaving out `this`. -/
def addKeywords (modifiers : List String) (words : List String) : List String :=
  words.foldl (fun ms w => if w == "this" || ms.contains w then ms else ms ++ [w]) modifiers

/-- Moves the passing keywords in front of a type to the modifiers. -/
def hoistKeywords (ty : String) (modifiers : List String) : String × List String :=
  let (words, rest) := splitKeywords (Text.trim ty.toList)
  (String.ofList rest, addKeywords modifiers words)

namespace ParameterText

/-- What follows the bracket that closes `depth` open ones. -/
def afterBracket : Nat → List Char → Option (List Char)
  | _, [] => none
  | depth, c :: cs =>
    if c == '[' then afterBracket (depth + 1) cs
    else if c == ']' then
      if depth ≤ 1 then some cs else afterBracket (depth - 1) cs
    else afterBracket depth cs

/-- Drops the attributes in front of a text, at most `n` of them; there is no answer when one is
not closed. -/
def dropAttributes : Nat → List Char → Option (List Char)
  | 0, cs => some cs
  | n + 1, cs =>
    match cs with
    | '[' :: rest => (afterBracket 1 rest).bind fun r => dropAttributes n (Text.trimStart r)
    | _ => some cs

/-- The part of a text before the first equals sign outside brackets of any kind. -/
def beforeDefault : Int → List Char → List Char
  | _, [] => []
  | depth, c :: cs =>
    if c == '<' || c == '(' || c == '[' then c :: beforeDefault (depth + 1) cs
    else if c == '>' || c == ')' || c == ']' then c :: beforeDefault (depth - 1) cs
    else if c == '=' && depth == 0 then []
    else c :: beforeDefault depth cs

/-- A text split in front of the run of name characters at its end. -/
def splitName (cs : List Char) : List Char × List Char :=
  ((cs.reverse.dropWhile Text.isNameChar).reverse, (cs.reverse.takeWhile Text.isNameChar).reverse)

end ParameterText

/-- Why the text of a parameter has no reading at all. -/
inductive ParameterError where
  /-- The character before the name takes up more than one byte, so that the name cannot be cut
  off one byte behind its start. -/
  | nameInsideCharacter
  deriving DecidableEq, Repr, Inhabited

/-- The text of a parameter without attributes and default, trimmed. -/
def ParameterText.core? (raw : String) : Option (List Char) :=
  let cs := Text.trim raw.toList
  (ParameterText.dropAttributes cs.length cs).map fun rest =>
    Text.trim (ParameterText.beforeDefault 0 rest)

/-- Reads a parameter from its text. A text without a name or without a type is no parameter. -/
def Parameter.ofText (raw : String) : Except ParameterError (Option Parameter) :=
  match ParameterText.core? raw with
  | none => .ok none
  | some core =>
    let (front, name) := ParameterText.splitName core
    if front.getLast?.any fun c => 1 < c.utf8Size then .error .nameInsideCharacter
    else
      let head := Text.trim front
      if name.isEmpty || head.isEmpty then .ok none
      else
        let (words, ty) := splitKeywords head
        .ok (some {
          name := String.ofList name
          ty := String.ofList (Text.squash ty)
          modifiers := words.filter (· != "this") })

end Forwarding
