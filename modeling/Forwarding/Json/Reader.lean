import Forwarding.Json.Basic

/-!
Reading JSON values. Blanks may stand between any two tokens; a number is a run of digits without
leading zeros.
-/

namespace Forwarding.Json

def isBlank (c : Char) : Bool :=
  c == ' ' || c == '\n' || c == '\r' || c == '\t'

def skipBlanks (cs : List Char) : List Char :=
  cs.dropWhile isBlank

/-! ### Texts -/

def hexValue? (c : Char) : Option Nat :=
  if '0' ≤ c && c ≤ '9' then some (c.toNat - '0'.toNat)
  else if 'a' ≤ c && c ≤ 'f' then some (c.toNat - 'a'.toNat + 10)
  else if 'A' ≤ c && c ≤ 'F' then some (c.toNat - 'A'.toNat + 10)
  else none

/-- The character that a backslash and `c` stand for. -/
def unescape? (c : Char) : Option Char :=
  match c with
  | '"' => some '"'
  | '\\' => some '\\'
  | '/' => some '/'
  | 'b' => some (Char.ofNat 8)
  | 't' => some (Char.ofNat 9)
  | 'n' => some (Char.ofNat 10)
  | 'f' => some (Char.ofNat 12)
  | 'r' => some (Char.ofNat 13)
  | _ => none

/-- The character with these four digits; halves of surrogate pairs are none. -/
def hexChar? (a b c d : Char) : Option Char :=
  match hexValue? a, hexValue? b, hexValue? c, hexValue? d with
  | some a, some b, some c, some d =>
    let n := ((a * 16 + b) * 16 + c) * 16 + d
    if n.isValidChar then some (Char.ofNat n) else none
  | _, _, _, _ => none

/-- Reads a text behind its opening quote. -/
def readText : List Char → Option (List Char × List Char)
  | [] => none
  | '"' :: rest => some ([], rest)
  | '\\' :: 'u' :: a :: b :: c :: d :: rest =>
    match hexChar? a b c d, readText rest with
    | some x, some (text, rest) => some (x :: text, rest)
    | _, _ => none
  | '\\' :: c :: rest =>
    match unescape? c, readText rest with
    | some x, some (text, rest) => some (x :: text, rest)
    | _, _ => none
  | c :: rest =>
    if c.toNat < 32 || c == '\\' then none
    else
      match readText rest with
      | some (text, rest) => some (c :: text, rest)
      | none => none

/-! ### Numbers -/

def digitsValue (ds : List Char) : Nat :=
  ds.foldl (fun n d => n * 10 + (d.toNat - '0'.toNat)) 0

def readNumber? (cs : List Char) : Option (Nat × List Char) :=
  match cs.takeWhile Char.isDigit with
  | [] => none
  | ['0'] => some (0, cs.drop 1)
  | '0' :: _ => none
  | ds => some (digitsValue ds, cs.dropWhile Char.isDigit)

/-! ### Values -/

mutual

/-- Reads a value; each step down takes one unit of fuel. -/
def readValue : Nat → List Char → Option (Value × List Char)
  | 0, _ => none
  | n + 1, cs =>
    match skipBlanks cs with
    | '"' :: rest => (readText rest).map fun (text, rest) => (.text (String.ofList text), rest)
    | '[' :: rest =>
      match skipBlanks rest with
      | ']' :: rest => some (.list [], rest)
      | _ => (readItems n rest).map fun (items, rest) => (.list items, rest)
    | '{' :: rest =>
      match skipBlanks rest with
      | '}' :: rest => some (.record [], rest)
      | _ => (readFields n rest).map fun (fields, rest) => (.record fields, rest)
    | cs => (readNumber? cs).map fun (k, rest) => (.number k, rest)

/-- Reads the items of a list that is not empty, up to its closing bracket. -/
def readItems : Nat → List Char → Option (List Value × List Char)
  | 0, _ => none
  | n + 1, cs =>
    match readValue n cs with
    | none => none
    | some (v, rest) =>
      match skipBlanks rest with
      | ',' :: rest => (readItems n rest).map fun (vs, rest) => (v :: vs, rest)
      | ']' :: rest => some ([v], rest)
      | _ => none

/-- Reads the fields of a record that is not empty, up to its closing brace. -/
def readFields : Nat → List Char → Option (List (String × Value) × List Char)
  | 0, _ => none
  | n + 1, cs =>
    match skipBlanks cs with
    | '"' :: rest =>
      match readText rest with
      | none => none
      | some (key, rest) =>
        match skipBlanks rest with
        | ':' :: rest =>
          match readValue n rest with
          | none => none
          | some (v, rest) =>
            match skipBlanks rest with
            | ',' :: rest =>
              (readFields n rest).map fun (fs, rest) => ((String.ofList key, v) :: fs, rest)
            | '}' :: rest => some ([(String.ofList key, v)], rest)
            | _ => none
        | _ => none
    | _ => none

end

/-- The value written in a text, with nothing but blanks around it. -/
def Value.ofString? (s : String) : Option Value :=
  match readValue (2 * s.toList.length + 1) s.toList with
  | some (v, rest) => if (skipBlanks rest).isEmpty then some v else none
  | none => none

end Forwarding.Json
