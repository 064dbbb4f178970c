import Forwarding.Text.Alphanumeric
import Forwarding.Text.Blank

/-!
The tokens of a type text: dotted name chains such as `System.Collections.Generic.List`, and single
marks such as `<`. White space separates words and is otherwise dropped.
-/

namespace Forwarding.TypeName

/-- The smallest pieces of a type text. -/
inductive Lexeme where
  | word (w : List Char)
  /-- Two colons with nothing between them. -/
  | doubleColon
  | mark (c : Char)
  deriving DecidableEq, Repr

/-- A name chain, with its words joined by `.` or `::`, or a mark. -/
inductive Token where
  | name (chain : List Char)
  | mark (c : Char)
  deriving DecidableEq, Repr

/-- Puts `c` in front of the word at the head of the list. -/
def Lexeme.extend (c : Char) : List Lexeme → List Lexeme
  | .word w :: rest => .word (c :: w) :: rest
  | rest => .word [c] :: rest

/-- Cuts a text into words, double colons and marks. -/
def lexemes : List Char → List Lexeme
  | [] => []
  | ':' :: ':' :: cs => .doubleColon :: lexemes cs
  | c :: cs =>
    if Text.isBlank c then lexemes cs
    else if Text.isNameChar c then
      match cs with
      | [] => [.word [c]]
      | d :: _ =>
        if Text.isNameChar d then Lexeme.extend c (lexemes cs) else .word [c] :: lexemes cs
    else .mark c :: lexemes cs

/-- Puts the word `w` and a separator in front of the chain at the head of the list; with no chain
there, the word stands alone and the separator is given as marks. -/
def Token.link (w sep : List Char) : List Token → List Token
  | .name chain :: rest => .name (w ++ sep ++ chain) :: rest
  | rest => .name w :: sep.map .mark ++ rest

/-- Joins words over `.` and `::` into chains. -/
def joinChains : List Lexeme → List Token
  | [] => []
  | .word w :: .mark '.' :: rest => Token.link w ['.'] (joinChains rest)
  | .word w :: .doubleColon :: rest => Token.link w [':', ':'] (joinChains rest)
  | .word w :: rest => .name w :: joinChains rest
  | .doubleColon :: rest => .mark ':' :: .mark ':' :: joinChains rest
  | .mark c :: rest => .mark c :: joinChains rest

/-- The tokens of a type text. -/
def tokenize (raw : List Char) : List Token :=
  joinChains (lexemes raw)

end Forwarding.TypeName
