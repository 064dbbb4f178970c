import Forwarding.Syntax.Tree

/-!
Grammars as data. A rule says which tokens may come next; choices are ordered, the first that fits
is taken, and repetition takes as much as it can. One function, `Rule.parse`, reads all rules.
-/

namespace Forwarding.Syntax

/-- What may stand at a place of the source, over the symbols `σ` of a grammar. -/
inductive Rule (σ : Type) where
  | token (accepts : Token → Bool)
  | seq (rules : List (Rule σ))
  /-- The first of the rules that fits. -/
  | choice (rules : List (Rule σ))
  /-- The rule as often as it fits. -/
  | many (rule : Rule σ)
  /-- What follows fits the rule; nothing is taken. -/
  | ahead (rule : Rule σ)
  /-- What follows does not fit the rule; nothing is taken. -/
  | unless (rule : Rule σ)
  /-- The rule, with what it took marked as a node. -/
  | part (p : Part) (rule : Rule σ)
  | symbol (s : σ)
  deriving Inhabited

/-- Reads the front of a row of tokens by a rule. The answer is what was read and what is left;
the trees have exactly the tokens that were taken as their leaves. Each step down takes one unit of
`fuel`. -/
def Rule.parse {σ : Type} (grammar : σ → Rule σ) :
    Nat → Rule σ → List Token → Option (List Tree × List Token)
  | 0, _, _ => none
  | fuel + 1, rule, ts =>
    match rule with
    | .token accepts =>
      match ts with
      | [] => none
      | t :: rest => if accepts t then some ([.leaf t], rest) else none
    | .seq [] => some ([], ts)
    | .seq (r :: rules) =>
      match parse grammar fuel r ts with
      | none => none
      | some (front, rest) =>
        match parse grammar fuel (.seq rules) rest with
        | none => none
        | some (back, rest) => some (front ++ back, rest)
    | .choice [] => none
    | .choice (r :: rules) =>
      match parse grammar fuel r ts with
      | some result => some result
      | none => parse grammar fuel (.choice rules) ts
    | .many r =>
      match parse grammar fuel r ts with
      | none => some ([], ts)
      | some (front, rest) =>
        match parse grammar fuel (.many r) rest with
        | none => none
        | some (back, rest) => some (front ++ back, rest)
    | .ahead r =>
      match parse grammar fuel r ts with
      | some _ => some ([], ts)
      | none => none
    | .unless r =>
      match parse grammar fuel r ts with
      | some _ => none
      | none => some ([], ts)
    | .part p r =>
      match parse grammar fuel r ts with
      | some (children, rest) => some ([.node p children], rest)
      | none => none
    | .symbol s => parse grammar fuel (grammar s) ts

end Forwarding.Syntax
