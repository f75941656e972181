import Conductor.Template.Basic

/-!
# Conditions

A condition decides whether an action is activated. Its templates are resolved
when it is evaluated, from left to right and only as far as the answer needs them;
an operand that has no truth value decides the error of the whole condition.
-/

namespace Conductor

/-- A truth-valued question about the surroundings. -/
inductive Condition where
  /-- The text spells true. -/
  | holds (text : Template)
  /-- The text spells false. -/
  | fails (text : Template)
  | equal (left right : Template)
  | differ (left right : Template)
  | all (operands : List Condition)
  | any (operands : List Condition)
  | not (operand : Condition)
  deriving Inhabited

/-- The truth value that a text spells, blanks and case aside. -/
def truthValue (s : String) : Except Undecided Bool :=
  let word := String.ofList ((Text.trim s).toList.map Char.toLower)
  if word ∈ ["true", "1", "yes", "on"] then .ok true
  else if word ∈ ["false", "0", "no", "off"] then .ok false
  else .error (.notBoolean word)

/-- A template inside a condition: what cannot be resolved cannot be decided. -/
def resolveOperand (s : Surroundings) (t : Template) : Except Undecided String :=
  match Template.resolve s t with
  | .ok a => .ok a
  | .error e => .error (.unresolved e)

/-- Resolve both operands, the left one first, and compare. -/
def compareOperands (s : Surroundings) (a b : Template) : Except Undecided Bool :=
  match resolveOperand s a with
  | .error e => .error e
  | .ok x =>
      match resolveOperand s b with
      | .error e => .error e
      | .ok y => .ok (x = y)

namespace Condition

mutual

/-- The truth value of a condition. -/
def evaluate (s : Surroundings) : Condition → Except Undecided Bool
  | .holds t =>
      match resolveOperand s t with
      | .error e => .error e
      | .ok x => truthValue x
  | .fails t =>
      match resolveOperand s t with
      | .error e => .error e
      | .ok x => (truthValue x).map Bool.not
  | .equal a b => compareOperands s a b
  | .differ a b => (compareOperands s a b).map Bool.not
  | .all cs => evaluateAll s cs
  | .any cs => evaluateAny s cs
  | .not c => (evaluate s c).map Bool.not

/-- Whether every operand is true; the operands after the first false one are not asked. -/
def evaluateAll (s : Surroundings) : List Condition → Except Undecided Bool
  | [] => .ok true
  | c :: r =>
      match evaluate s c with
      | .ok true => evaluateAll s r
      | .ok false => .ok false
      | .error e => .error e

/-- Whether some operand is true; the operands after the first true one are not asked. -/
def evaluateAny (s : Surroundings) : List Condition → Except Undecided Bool
  | [] => .ok false
  | c :: r =>
      match evaluate s c with
      | .ok true => .ok true
      | .ok false => evaluateAny s r
      | .error e => .error e

end

end Condition

end Conductor
