import MiniErp.Compiler.Formula
import MiniErp.Compiler.Validation

/-! Conditions of a map: two formulas around a comparison outside of brackets, or one formula that
is compared with zero. The text is cut at byte positions, which panics inside a character of more
than one byte; such a call has no result here. -/
namespace MiniErp.Compiler
open Text

inductive ConditionOperator where
  | ge | le | eq | ne | gt | lt
  deriving DecidableEq, Repr

namespace ConditionOperator

def text : ConditionOperator → List Char
  | .ge => ['>','=']
  | .le => ['<','=']
  | .eq => ['=','=']
  | .ne => ['!','=']
  | .gt => ['>']
  | .lt => ['<']

def holds (operator : ConditionOperator) (left right : F64) : Bool :=
  match operator with
  | .gt => right.lt left
  | .ge => right.le left
  | .lt => left.lt right
  | .le => left.le right
  | .eq => (left.sub right).abs.lt F64.epsilon
  | .ne => F64.epsilon.le (left.sub right).abs

end ConditionOperator

/-- The sides of an operator that stands at the head of `rest`, if neither is blank. -/
def splitAtOperator (before rest : List Char) (operator : ConditionOperator) :
    Option (String × ConditionOperator × String) :=
  let left := trim (String.ofList before)
  let right := trim (String.ofList (rest.drop operator.text.length))
  if operator.text.isPrefixOf rest && left != "" && right != "" then
    some (left, operator, right)
  else none

def splitConditionFrom (before : List Char) (depth : Nat) :
    List Char → Option (Option (String × ConditionOperator × String))
  | [] => some none
  | c::rest =>
    if c = '(' then splitConditionFrom (before++[c]) (depth+1) rest
    else if c = ')' then splitConditionFrom (before++[c]) (depth-1) rest
    else if depth=0 then
      match [.ge,.le,.eq,.ne,.gt,.lt].findSome? (splitAtOperator before (c::rest)) with
      | some found => some (some found)
      | none =>
        -- the second byte of the character is the next position the text is cut at
        if c.utf8Size=1 then splitConditionFrom (before++[c]) depth rest else none
    else splitConditionFrom (before++[c]) depth rest

def splitCondition (expression : String) : Option (Option (String × ConditionOperator × String)) :=
  splitConditionFrom [] 0 expression.toList

def evaluateSplit (expression : String) (values : Variables) :
    Option (String × ConditionOperator × String) → Except ProductionMapError Bool
  | some (left, operator, right) => do
    let left ← evaluateFormula left values
    let right ← evaluateFormula right values
    return operator.holds left right
  | none => do
    let value ← evaluateFormula expression values
    return !value.eq F64.zero

def evaluateCondition (expression : String) (values : Variables) :
    Option (Except ProductionMapError Bool) :=
  (splitCondition expression).map (evaluateSplit expression values)

/-- An unknown variable is no fault of the expression. -/
def conditionError : Except ProductionMapError Bool → Except ProductionMapError Unit
  | .ok _ => .ok ()
  | .error (.unknownFormulaVariable _) => .ok ()
  | .error error => .error error

def validateConditionExpression (expression : String) : Option (Except ProductionMapError Unit) :=
  (evaluateCondition expression ∅).map conditionError

/-- The rules with the formula checks of the program; a check that panics accepts nothing. -/
def formulaRules (rules : CompilerRules) : CompilerRules :=
  { rules with
    validateFormulaExpression := validateFormulaExpression
    validateConditionExpression := fun expression =>
      (validateConditionExpression expression).getD (.error (.invalidFormulaExpression expression)) }

/-- Whether a condition can be split does not depend on the values. -/
theorem evaluateCondition_of_validate {rules : CompilerRules} {expression : String}
    (h : (formulaRules rules).validateConditionExpression expression=.ok ()) (values : Variables) :
    ∃ result, evaluateCondition expression values=some result := by
  unfold evaluateCondition
  cases hsplit : splitCondition expression with
  | some split => exact ⟨_,rfl⟩
  | none => simp [formulaRules,validateConditionExpression,evaluateCondition,hsplit] at h

example : splitCondition "(a >= 1) < b >= 2" = some (some ("(a >= 1)", .lt, "b >= 2")) := by
  decide +kernel

example : splitCondition "narxi ≥ 5" = none := by decide +kernel

/-! What the check of a saved condition leaves open: it stops at the first unknown variable. -/

def checkSplit (expression : String) :
    Option (String × ConditionOperator × String) → Except ProductionMapError Unit
  | some (left, _, right) => do
    validateFormulaExpression left
    validateFormulaExpression right
  | none => validateFormulaExpression expression

theorem checkSplit_error {expression : String} {split : Option (String × ConditionOperator × String)}
    {error : ProductionMapError} (h : checkSplit expression split=.error error) :
    ∃ input, error=.invalidFormulaExpression input := by
  cases split with
  | none => exact ⟨_,validateFormulaExpression_error h⟩
  | some sides =>
    obtain ⟨left,operator,right⟩ := sides
    rw [checkSplit] at h
    cases hleft : validateFormulaExpression left with
    | error fault =>
      rw [hleft] at h
      cases h
      exact ⟨_,validateFormulaExpression_error hleft⟩
    | ok _ =>
      rw [hleft] at h
      exact ⟨_,validateFormulaExpression_error h⟩

theorem evaluateSplit_cases (expression : String) (values : Variables)
    (split : Option (String × ConditionOperator × String)) :
    (∃ error, ValueError error ∧ evaluateSplit expression values split=.error error) ∨
      (evaluateSplit expression values split).map (fun _ => ())=checkSplit expression split := by
  cases split with
  | none =>
    rcases evaluateFormula_cases expression values with ⟨error,herror,hfailed⟩ | hsame
    · refine .inl ⟨error,herror,?_⟩
      rw [evaluateSplit,hfailed]
      rfl
    · rw [checkSplit,← hsame,evaluateSplit]
      cases evaluateFormula expression values <;> exact .inr rfl
  | some sides =>
    obtain ⟨left,operator,right⟩ := sides
    rw [checkSplit,evaluateSplit]
    rcases evaluateFormula_cases left values with ⟨error,herror,hfailed⟩ | hleft
    · rw [hfailed]
      exact .inl ⟨error,herror,rfl⟩
    rw [← hleft]
    cases evaluateFormula left values with
    | error fault => exact .inr rfl
    | ok leftValue =>
      rcases evaluateFormula_cases right values with ⟨error,herror,hfailed⟩ | hright
      · rw [hfailed]
        exact .inl ⟨error,herror,rfl⟩
      rw [← hright]
      cases evaluateFormula right values <;> exact .inr rfl

end MiniErp.Compiler
