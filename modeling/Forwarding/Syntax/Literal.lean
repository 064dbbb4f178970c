import Forwarding.Text.Identifier

/-!
The lengths, in characters, of the tokens that carry a text of their own: identifiers, numbers,
character literals and strings. Each function looks at the front of a text.
-/

namespace Forwarding.Syntax

def isHexDigit (c : Char) : Bool :=
  c.isDigit || ('a' ≤ c && c ≤ 'f') || ('A' ≤ c && c ≤ 'F')

/-- Whether the first `n` characters are hexadecimal digits. -/
def startsWithHex (n : Nat) (cs : List Char) : Bool :=
  n ≤ cs.length && (cs.take n).all isHexDigit

/-- The length of the run of `c` at the front. -/
def runLength (c : Char) (cs : List Char) : Nat :=
  (cs.takeWhile (· == c)).length

/-! ### Identifiers -/

/-- The length of a character written by its code point, `\uXXXX` or `\UXXXXXXXX`. -/
def codePointLength : List Char → Nat
  | '\\' :: 'u' :: cs => if startsWithHex 4 cs then 6 else 0
  | '\\' :: 'U' :: cs => if startsWithHex 8 cs then 10 else 0
  | _ => 0

/-- The length of the rest of an identifier, of which the first `pending` characters belong to a
character written by its code point. -/
def identifierRest : Nat → List Char → Nat
  | _, [] => 0
  | pending + 1, _ :: cs => identifierRest pending cs + 1
  | 0, c :: cs =>
    if Text.isIdentifierPart c then identifierRest 0 cs + 1
    else
      match codePointLength (c :: cs) with
      | 0 => 0
      | n + 1 => identifierRest n cs + 1

/-- The length of an identifier without the `@` that may precede it; zero if there is none. -/
def bareIdentifierLength : List Char → Nat
  | [] => 0
  | c :: cs =>
    if Text.isIdentifierStart c then identifierRest 0 cs + 1
    else
      match codePointLength (c :: cs) with
      | 0 => 0
      | n + 1 => identifierRest n cs + 1

/-- The length of an identifier or keyword; zero if there is none. -/
def identifierLength : List Char → Nat
  | '@' :: cs =>
    match bareIdentifierLength cs with
    | 0 => 0
    | n => n + 1
  | cs => bareIdentifierLength cs

/-! ### Numbers -/

/-- The length of a run of digits with underscores between them; it ends with a digit. -/
def digitsLength (isDigit : Char → Bool) (cs : List Char) : Nat :=
  ((cs.takeWhile fun c => isDigit c || c == '_').reverse.dropWhile (· == '_')).length

/-- The length of a fraction, its point included. -/
def fractionLength : List Char → Nat
  | '.' :: d :: cs => if d.isDigit then 1 + digitsLength Char.isDigit (d :: cs) else 0
  | _ => 0

/-- The length of the digits of an exponent, which may end with underscores. -/
def exponentDigitsLength : List Char → Nat
  | [] => 0
  | d :: cs =>
    if d.isDigit then 1 + (cs.takeWhile fun c => c.isDigit || c == '_').length else 0

/-- The length of a decimal exponent. -/
def exponentLength : List Char → Nat
  | [] => 0
  | e :: cs =>
    let sign := match cs with
      | s :: _ => if s == '+' || s == '-' then 1 else 0
      | [] => 0
    if e == 'e' || e == 'E' then
      match exponentDigitsLength (cs.drop sign) with
      | 0 => 0
      | n => 1 + sign + n
    else 0

/-- The length of the letters behind an integer that tell its type: one that it has no sign, one
that it is long, or both. -/
def integerSuffixLength (cs : List Char) : Nat :=
  let isUnsigned (c : Char) : Bool := c == 'u' || c == 'U'
  let isLong (c : Char) : Bool := c == 'l' || c == 'L'
  match cs with
  | [] => 0
  | [c] => if isUnsigned c || isLong c then 1 else 0
  | c :: d :: _ =>
    if (isUnsigned c && isLong d) || (isLong c && isUnsigned d) then 2
    else if isUnsigned c || isLong c then 1
    else 0

/-- The length of the letter behind a number that makes it a fraction of some type. -/
def realSuffixLength : List Char → Nat
  | c :: _ => if "fFdDmM".toList.contains c then 1 else 0
  | [] => 0

/-- The length of a number written in base ten. -/
def decimalLength (cs : List Char) : Nat :=
  let whole := if (cs.head?.map Char.isDigit).getD false then digitsLength Char.isDigit cs else 0
  let fraction := fractionLength (cs.drop whole)
  let exponent := exponentLength (cs.drop (whole + fraction))
  let n := whole + fraction + exponent
  let real := realSuffixLength (cs.drop n)
  if fraction + exponent + real = 0 then n + integerSuffixLength (cs.drop n) else n + real

/-- The length of a number behind the two characters that name its base; none without digits. -/
def basedRest? (isDigit : Char → Bool) (cs : List Char) : Option Nat :=
  match digitsLength isDigit cs with
  | 0 => none
  | n => some (n + integerSuffixLength (cs.drop n))

/-- The length of a number; zero if there is none. -/
def numberLength (cs : List Char) : Nat :=
  match cs with
  | '0' :: x :: rest =>
    let based : Option Nat :=
      if x == 'x' || x == 'X' then basedRest? isHexDigit rest
      else if x == 'b' || x == 'B' then basedRest? (fun c => c == '0' || c == '1') rest
      else none
    match based with
    | some n => 2 + n
    | none => decimalLength cs
  | c :: _ => if c.isDigit || fractionLength cs ≠ 0 then decimalLength cs else 0
  | [] => 0

/-! ### Characters and strings -/

/-- The length of an escape sequence behind its backslash; none if it is malformed. -/
def escapeLength? : List Char → Option Nat
  | [] => none
  | 'x' :: cs => if startsWithHex 1 cs then some 2 else none
  | 'u' :: cs => if startsWithHex 4 cs then some 5 else none
  | 'U' :: cs => if startsWithHex 8 cs then some 9 else none
  | _ :: _ => some 1

/-- The length of the rest of a character literal behind its first quote. -/
def characterRest? : List Char → Option Nat
  | [] => none
  | '\'' :: _ => none
  | '\\' :: cs =>
    match escapeLength? cs with
    | none => none
    | some n =>
      let hex := if cs.head? = some 'x' then
          min 3 ((cs.drop 2).takeWhile isHexDigit).length else 0
      if (cs.drop (n + hex)).head? = some '\'' then some (n + hex + 2) else none
  | _ :: cs => if cs.head? = some '\'' then some 2 else none

/-- The length of the mark behind a string that makes it a sequence of bytes. -/
def bytesMarkLength : List Char → Nat
  | u :: '8' :: _ => if u == 'u' || u == 'U' then 2 else 0
  | _ => 0

/-- The length of the rest of a string on one line, of which the first `pending` characters belong
to an escape sequence. -/
def stringRest? : Nat → List Char → Option Nat
  | _, [] => none
  | pending + 1, _ :: cs => (stringRest? pending cs).map (· + 1)
  | 0, c :: cs =>
    if c == '"' then some (1 + bytesMarkLength cs)
    else if c == '\n' then none
    else if c == '\\' then
      match escapeLength? cs with
      | some n => (stringRest? n cs).map (· + 1)
      | none => none
    else (stringRest? 0 cs).map (· + 1)

/-- The length of the rest of a verbatim string, in which a quote is written twice. -/
def verbatimRest? : List Char → Option Nat
  | [] => none
  | '"' :: '"' :: cs => (verbatimRest? cs).map (· + 2)
  | '"' :: cs => some (1 + bytesMarkLength cs)
  | _ :: cs => (verbatimRest? cs).map (· + 1)

/-- The length of the rest of a raw string, which ends at as many quotes as it starts with. -/
def rawRest? (quotes : Nat) : List Char → Option Nat
  | [] => none
  | c :: cs =>
    if quotes ≤ runLength '"' (c :: cs) then
      some (quotes + bytesMarkLength ((c :: cs).drop quotes))
    else (rawRest? quotes cs).map (· + 1)

end Forwarding.Syntax
