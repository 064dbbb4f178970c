/-!
JSON values made of texts, whole numbers, lists and records, and their layout over several lines
with two spaces a level.
-/

namespace Forwarding.Json

inductive Value where
  | number (n : Nat)
  | text (s : String)
  | list (items : List Value)
  | record (fields : List (String × Value))
  deriving Repr, Inhabited

/-! ### Texts -/

def hexDigit (n : Nat) : Char :=
  "0123456789abcdef".toList.getD n '0'

/-- A character inside quotes. The quote, the backslash and control characters are escaped; all else
stands for itself. -/
def escape (c : Char) : List Char :=
  if c == '"' then ['\\', '"']
  else if c == '\\' then ['\\', '\\']
  else if c.toNat == 8 then ['\\', 'b']
  else if c.toNat == 9 then ['\\', 't']
  else if c.toNat == 10 then ['\\', 'n']
  else if c.toNat == 12 then ['\\', 'f']
  else if c.toNat == 13 then ['\\', 'r']
  else if c.toNat < 32 then
    ['\\', 'u', '0', '0', hexDigit (c.toNat / 16), hexDigit (c.toNat % 16)]
  else [c]

def quoted (s : String) : List Char :=
  '"' :: s.toList.flatMap escape ++ ['"']

/-! ### Layout -/

/-- The end of a line and the indentation of the next one. -/
def lineBreak (depth : Nat) : List Char :=
  '\n' :: List.replicate (2 * depth) ' '

mutual

/-- The text of a value whose first line stands at indentation `depth`. -/
def layout (depth : Nat) : Value → List Char
  | .number n => Nat.toDigits 10 n
  | .text s => quoted s
  | .list [] => ['[', ']']
  | .list (v :: vs) =>
    '[' :: lineBreak (depth + 1) ++ layout (depth + 1) v ++ layoutItems (depth + 1) vs ++
      lineBreak depth ++ [']']
  | .record [] => ['{', '}']
  | .record ((k, v) :: fs) =>
    '{' :: lineBreak (depth + 1) ++ quoted k ++ [':', ' '] ++ layout (depth + 1) v ++
      layoutFields (depth + 1) fs ++ lineBreak depth ++ ['}']

/-- The items of a list behind the first one. -/
def layoutItems (depth : Nat) : List Value → List Char
  | [] => []
  | v :: vs => ',' :: lineBreak depth ++ layout depth v ++ layoutItems depth vs

/-- The fields of a record behind the first one. -/
def layoutFields (depth : Nat) : List (String × Value) → List Char
  | [] => []
  | (k, v) :: fs =>
    ',' :: lineBreak depth ++ quoted k ++ [':', ' '] ++ layout depth v ++ layoutFields depth fs

end

/-- The value as a text, without a line end behind it. -/
def Value.pretty (v : Value) : String :=
  String.ofList (layout 0 v)

end Forwarding.Json
