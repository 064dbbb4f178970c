/-!
White space in texts. A blank is a code point with the Unicode property `White_Space`; the
functions here trim a text, cut it into words and lay the words out again, or cut it at a character
or at a piece of text.
-/

namespace Forwarding.Text

/-- The code points with the Unicode property `White_Space`. -/
def isBlank (c : Char) : Bool :=
  let n := c.toNat
  (9 ≤ n && n ≤ 13) || n == 0x20 || n == 0x85 || n == 0xA0 || n == 0x1680 ||
    (0x2000 ≤ n && n ≤ 0x200A) || n == 0x2028 || n == 0x2029 || n == 0x202F || n == 0x205F ||
    n == 0x3000

def trimStart (cs : List Char) : List Char :=
  cs.dropWhile isBlank

def trimEnd (cs : List Char) : List Char :=
  (cs.reverse.dropWhile isBlank).reverse

def trim (cs : List Char) : List Char :=
  trimEnd (trimStart cs)

/-- Puts `c` in front of the first word. -/
def extendFirst (c : Char) : List (List Char) → List (List Char)
  | [] => [[c]]
  | w :: ws => (c :: w) :: ws

/-- The maximal runs of characters that are not blank, in order. -/
def words : List Char → List (List Char)
  | [] => []
  | c :: cs =>
    if isBlank c then words cs
    else
      match cs with
      | [] => [[c]]
      | d :: _ => if isBlank d then [c] :: words cs else extendFirst c (words cs)

/-- The words of a text with one space between neighbours. -/
def squash (cs : List Char) : List Char :=
  [' '].intercalate (words cs)

/-- The text without its blanks. -/
def removeBlanks (cs : List Char) : List Char :=
  cs.filter (fun c => !isBlank c)

/-- The parts of a text before and after the first character that satisfies `p`. -/
def splitAtFirst (p : Char → Bool) : List Char → Option (List Char × List Char)
  | [] => none
  | c :: cs =>
    if p c then some ([], cs)
    else (splitAtFirst p cs).map fun (before, after) => (c :: before, after)

/-- The part of a text before the last occurrence of `piece`. -/
def beforeLast (piece : List Char) : List Char → Option (List Char)
  | [] => if piece.isEmpty then some [] else none
  | c :: cs =>
    match beforeLast piece cs with
    | some before => some (c :: before)
    | none => if piece.isPrefixOf (c :: cs) then some [] else none

/-- The pieces between the characters that satisfy `p`; always at least one. -/
def splitAll (p : Char → Bool) : List Char → List (List Char)
  | [] => [[]]
  | c :: cs =>
    if p c then [] :: splitAll p cs
    else
      match splitAll p cs with
      | [] => [[c]]
      | w :: ws => (c :: w) :: ws

end Forwarding.Text
