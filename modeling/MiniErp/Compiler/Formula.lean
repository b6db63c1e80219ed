import MiniErp.Lib.Binary64
import MiniErp.Lib.Descent
import MiniErp.Lib.Run
import MiniErp.Types

/-! The formulas of a map: a parser that checks an expression and one that evaluates it, written
apart from each other over the same characters. The expressions the first accepts are those whose
evaluation can only fail for its values. -/
namespace MiniErp.Compiler
open Text Descent List

abbrev FormulaParser (α : Type) := Parser ProductionMapError α

abbrev Variables := Std.TreeMap String F64

def isAsciiWhitespace (c : Char) : Bool := [9,10,12,13,32].contains c.toNat

def isIdentifierStart (c : Char) : Bool := isAsciiLowercase c || ('A' ≤ c && c ≤ 'Z') || c == '_'

def isIdentifierChar (c : Char) : Bool := isIdentifierStart c || isAsciiDigit c

def digitsValue (digits : List Char) : Nat := digits.foldl (fun value c => 10*value+(c.toNat-48)) 0

/-- `parse::<f64>` of digits with at most one point among them: one digit is enough. -/
def parseF64 (text : List Char) : Option F64 :=
  let whole := text.takeWhile isAsciiDigit
  let fraction := (text.dropWhile isAsciiDigit).drop 1
  if whole.isEmpty && fraction.isEmpty then none
  else some (F64.decimal (digitsValue (whole++fraction)) fraction.length)

def skipWhitespace : FormulaParser Unit := skipWhile isAsciiWhitespace

def invalid {α : Type} (input : String) : FormulaParser α := fail (.invalidFormulaExpression input)

def readIdentifier : FormulaParser (Option String) := fun s =>
  match s with
  | [] => .done none []
  | c::rest =>
    if isIdentifierStart c then
      .done (some (String.ofList (c::rest.takeWhile isIdentifierChar)))
        (rest.dropWhile isIdentifierChar)
    else .done none (c::rest)

def readNumberText : FormulaParser (List Char) := do
  let whole ← spanWhile isAsciiDigit
  if ← consume '.' then
    let fraction ← spanWhile isAsciiDigit
    return whole ++ '.' :: fraction
  else return whole

/-- The characters are taken even if they are not a number. -/
def readNumber : FormulaParser (Option F64) := do
  let text ← readNumberText
  return if text.isEmpty then none else parseF64 text

def parseIdentifier : FormulaParser Bool := do
  return (← readIdentifier).isSome

def parseNumber : FormulaParser Bool := do
  return (← readNumber).isSome

/-! The calls of the parsers are bounded by fuel; `parseTerms` and `parseFactors` are the loops of
`parse_expression` and `parse_term`. -/

mutual

def parseExpression (input : String) : Nat → FormulaParser Unit
  | 0 => exhaust
  | fuel+1 => do
    parseTerm input fuel
    parseTerms input fuel

def parseTerms (input : String) : Nat → FormulaParser Unit
  | 0 => exhaust
  | fuel+1 => do
    skipWhitespace
    if ← consumeEither '+' '-' then
      parseTerm input fuel
      parseTerms input fuel
    else return ()

def parseTerm (input : String) : Nat → FormulaParser Unit
  | 0 => exhaust
  | fuel+1 => do
    parseFactor input fuel
    parseFactors input fuel

def parseFactors (input : String) : Nat → FormulaParser Unit
  | 0 => exhaust
  | fuel+1 => do
    skipWhitespace
    if ← consumeEither '*' '/' then
      parseFactor input fuel
      parseFactors input fuel
    else return ()

def parseFactor (input : String) : Nat → FormulaParser Unit
  | 0 => exhaust
  | fuel+1 => do
    skipWhitespace
    if ← consume '-' then parseFactor input fuel
    else if ← consume '(' then
      parseExpression input fuel
      skipWhitespace
      if ← consume ')' then return () else invalid input
    else if ← parseIdentifier then return ()
    else if ← parseNumber then return ()
    else invalid input

end

mutual

def evaluateExpression (input : String) (values : Variables) : Nat → FormulaParser F64
  | 0 => exhaust
  | fuel+1 => do
    let value ← evaluateTerm input values fuel
    evaluateTerms input values fuel value

def evaluateTerms (input : String) (values : Variables) : Nat → F64 → FormulaParser F64
  | 0, _ => exhaust
  | fuel+1, value => do
    skipWhitespace
    if ← consume '+' then
      let term ← evaluateTerm input values fuel
      evaluateTerms input values fuel (value.add term)
    else if ← consume '-' then
      let term ← evaluateTerm input values fuel
      evaluateTerms input values fuel (value.sub term)
    else return value

def evaluateTerm (input : String) (values : Variables) : Nat → FormulaParser F64
  | 0 => exhaust
  | fuel+1 => do
    let value ← evaluateFactor input values fuel
    evaluateFactors input values fuel value

def evaluateFactors (input : String) (values : Variables) : Nat → F64 → FormulaParser F64
  | 0, _ => exhaust
  | fuel+1, value => do
    skipWhitespace
    if ← consume '*' then
      let factor ← evaluateFactor input values fuel
      evaluateFactors input values fuel (value.mul factor)
    else if ← consume '/' then
      let divisor ← evaluateFactor input values fuel
      if divisor.eq F64.zero then fail .formulaDivisionByZero
      else evaluateFactors input values fuel (value.div divisor)
    else return value

def evaluateFactor (input : String) (values : Variables) : Nat → FormulaParser F64
  | 0 => exhaust
  | fuel+1 => do
    skipWhitespace
    if ← consume '-' then
      let value ← evaluateFactor input values fuel
      return value.neg
    else if ← consume '(' then
      let value ← evaluateExpression input values fuel
      skipWhitespace
      if ← consume ')' then return value else invalid input
    else
      match ← readIdentifier with
      | some identifier =>
        match values[identifier]? with
        | some value => return value
        | none => fail (.unknownFormulaVariable identifier)
      | none =>
        match ← readNumber with
        | some number => return number
        | none => invalid input

end

/-- `is_eof`, or the whole input is invalid. -/
def endOfInput (input : String) : FormulaParser Unit := fun s =>
  if s.isEmpty then .done () s else .failed (.invalidFormulaExpression input)

section
variable (expression : String)

/-- Three calls for each character, and those that find the end. -/
def formulaFuel : Nat := 3*expression.toList.length+3

def checkFormula : FormulaParser Unit := do
  parseExpression expression (formulaFuel expression)
  skipWhitespace
  endOfInput expression

def computeFormula (values : Variables) : FormulaParser F64 := do
  let value ← evaluateExpression expression values (formulaFuel expression)
  skipWhitespace
  endOfInput expression
  return value

def validateFormulaExpression : Except ProductionMapError Unit :=
  (checkFormula expression expression.toList).toExcept (.invalidFormulaExpression expression)

def evaluateFormula (values : Variables) : Except ProductionMapError F64 :=
  (computeFormula expression values expression.toList).toExcept
    (.invalidFormulaExpression expression)

end

/-! The fuel is enough: every call has taken a character since the last one of its kind. -/

theorem reads_readIdentifier : Reads Option.isSome readIdentifier := by
  intro s
  cases s with
  | nil => exact ⟨none,[],rfl,Nat.le_refl _⟩
  | cons c rest =>
    by_cases hc : isIdentifierStart c=true
    · refine ⟨_,_,if_pos hc,?_⟩
      have hlength := length_dropWhile_le isIdentifierChar rest
      simpa using hlength
    · exact ⟨none,c::rest,if_neg hc,Nat.le_refl _⟩

theorem reads_readNumberText : Reads (fun text => !text.isEmpty) readNumberText := by
  intro s
  have hlength : (s.takeWhile isAsciiDigit).length+(s.dropWhile isAsciiDigit).length=s.length := by
    rw [← length_append,takeWhile_append_dropWhile]
  rw [readNumberText,bind_apply,spanWhile]
  obtain ⟨point,rest,hpoint,hrest⟩ := @reads_consume ProductionMapError '.' (s.dropWhile isAsciiDigit)
  dsimp only
  rw [bind_apply,hpoint]
  cases point with
  | true =>
    refine ⟨_,_,rfl,?_⟩
    have hfraction := length_dropWhile_le isAsciiDigit rest
    simp only [id,Bool.toNat_true] at hrest
    refine Nat.le_trans (Nat.add_le_add_left (Bool.toNat_le _) _) ?_
    omega
  | false =>
    refine ⟨_,_,rfl,?_⟩
    cases hwhole : s.takeWhile isAsciiDigit with
    | nil =>
      simp only [isEmpty_nil,Bool.not_true,Bool.toNat_false]
      omega
    | cons c whole =>
      rw [hwhole,length_cons] at hlength
      simp only [isEmpty_cons,Bool.not_false,Bool.toNat_true]
      omega

theorem reads_readNumber : Reads Option.isSome readNumber := by
  intro s
  obtain ⟨text,rest,hdone,hlength⟩ := reads_readNumberText s
  refine ⟨if text.isEmpty then none else parseF64 text,rest,?_,?_⟩
  · rw [readNumber,bind_apply,hdone]
    rfl
  · cases text with
    | nil => exact hlength
    | cons c text =>
      simp only [isEmpty_cons,Bool.not_false,Bool.toNat_true] at hlength
      have hbit := Bool.toNat_le (parseF64 (c::text)).isSome
      simp only [isEmpty_cons,Bool.false_eq_true,if_false]
      omega

theorem reads_parseIdentifier : Reads id parseIdentifier := Reads.map reads_readIdentifier

theorem reads_parseNumber : Reads id parseNumber := Reads.map reads_readNumber

theorem reads_skipWhitespace : Reads (fun _ => false) skipWhitespace :=
  reads_skipWhile isAsciiWhitespace

/-- The fuel that a text of `n` characters needs in each of the calls. -/
structure Bounded (input : String) (fuel n : Nat) : Prop where
  factor : 3*n+1≤fuel → Takes 1 n (parseFactor input fuel)
  factors : 3*n+1≤fuel → Takes 0 n (parseFactors input fuel)
  term : 3*n+2≤fuel → Takes 1 n (parseTerm input fuel)
  terms : 3*n+1≤fuel → Takes 0 n (parseTerms input fuel)
  expression : 3*n+3≤fuel → Takes 1 n (parseExpression input fuel)

section Fuel
variable {input : String} {fuel n : Nat}

/-- A loop that reads an operator and an operand each time. -/
theorem takes_loop {first second : Char} {operand loop : FormulaParser Unit}
    (hoperand : 0<n → Takes 1 (n-1) operand) (hloop : 1<n → Takes 0 (n-1-1) loop) :
    Takes 0 n (do
      skipWhitespace
      if ← consumeEither first second then
        operand
        loop
      else return ()) := by
  refine reads_skipWhitespace.takes nofun fun _ _ => ?_
  refine (reads_consumeEither first second).takes_ite (fun hn => ?_) (takes_pure n ())
  exact ((hoperand hn).bind fun _ hle => hloop (by omega)).mono (Nat.zero_le _) (Nat.le_refl _)

theorem takes_parseFactor (h : ∀ n, Bounded input fuel n) (hfuel : 3*n+1≤fuel+1) :
    Takes 1 n (parseFactor input (fuel+1)) := by
  refine reads_skipWhitespace.takes nofun fun _ _ => ?_
  refine (reads_consume '-').takes_ite (fun _ => ?_) ?_
  · exact ((h (n-1)).factor (by omega)).mono (Nat.zero_le _) (Nat.le_refl _)
  refine (reads_consume '(').takes_ite (fun _ => ?_) ?_
  · refine (((h (n-1)).expression (by omega)).bind (l := 0) fun _ _ => ?_).mono
      (Nat.zero_le _) (Nat.le_refl _)
    refine reads_skipWhitespace.takes nofun fun _ _ => ?_
    exact (reads_consume ')').takes_ite (fun _ => takes_pure _ ()) (takes_fail _ _ _)
  refine reads_parseIdentifier.takes_ite (fun _ => takes_pure _ ()) ?_
  exact reads_parseNumber.takes_ite (fun _ => takes_pure _ ()) (takes_fail _ _ _)

theorem bounded_succ (h : ∀ n, Bounded input fuel n) (n : Nat) : Bounded input (fuel+1) n := by
  refine ⟨takes_parseFactor h,fun hfuel => ?_,fun hfuel => ?_,fun hfuel => ?_,fun hfuel => ?_⟩
  · exact takes_loop (fun _ => (h _).factor (by omega)) fun _ => (h _).factors (by omega)
  · exact ((h n).factor (by omega)).bind fun _ _ => (h _).factors (by omega)
  · exact takes_loop (fun _ => (h _).term (by omega)) fun _ => (h _).terms (by omega)
  · exact ((h n).term (by omega)).bind fun _ _ => (h _).terms (by omega)

theorem bounded (input : String) (fuel n : Nat) : Bounded input fuel n := by
  induction fuel generalizing n with
  | zero => refine ⟨fun h => ?_,fun h => ?_,fun h => ?_,fun h => ?_,fun h => ?_⟩ <;> omega
  | succ fuel ih => exact bounded_succ ih n

end Fuel

theorem checkFormula_ends (expression : String) :
    checkFormula expression expression.toList ≠ .exhausted := by
  have hparse := (bounded expression (formulaFuel expression) expression.toList.length).expression
    (Nat.le_refl _)
  have hends : Takes 1 expression.toList.length (checkFormula expression) := by
    refine hparse.bind (l := 0) fun _ _ => ?_
    refine reads_skipWhitespace.takes nofun fun _ _ => ?_
    intro s _
    unfold endOfInput
    split
    · exact ⟨nofun,fun value rest hdone => by cases hdone; exact Nat.le_refl _⟩
    · exact ⟨nofun,nofun⟩
  exact (hends expression.toList (Nat.le_refl _)).1

/-! The checker fails for the form of the text alone. -/

structure Malformed (input : String) (fuel : Nat) : Prop where
  factor : Faults (· = .invalidFormulaExpression input) (parseFactor input fuel)
  factors : Faults (· = .invalidFormulaExpression input) (parseFactors input fuel)
  term : Faults (· = .invalidFormulaExpression input) (parseTerm input fuel)
  terms : Faults (· = .invalidFormulaExpression input) (parseTerms input fuel)
  expression : Faults (· = .invalidFormulaExpression input) (parseExpression input fuel)

theorem malformed_succ {input : String} {fuel : Nat} (h : Malformed input fuel) :
    Malformed input (fuel+1) := by
  have hspace := reads_skipWhitespace.faults (P := (· = .invalidFormulaExpression input))
  refine ⟨?_,?_,?_,?_,?_⟩
  · refine hspace.bind fun _ => (reads_consume '-').faults_ite h.factor ?_
    refine (reads_consume '(').faults_ite (h.expression.bind fun _ => hspace.bind fun _ => ?_) ?_
    · exact (reads_consume ')').faults_ite (faults_pure ()) (faults_fail rfl)
    · exact reads_parseIdentifier.faults_ite (faults_pure ())
        (reads_parseNumber.faults_ite (faults_pure ()) (faults_fail rfl))
  · exact hspace.bind fun _ => (reads_consumeEither '*' '/').faults_ite
      (h.factor.bind fun _ => h.factors) (faults_pure ())
  · exact h.factor.bind fun _ => h.factors
  · exact hspace.bind fun _ => (reads_consumeEither '+' '-').faults_ite
      (h.term.bind fun _ => h.terms) (faults_pure ())
  · exact h.term.bind fun _ => h.terms

theorem malformed (input : String) (fuel : Nat) : Malformed input fuel := by
  induction fuel with
  | zero => exact ⟨faults_exhaust,faults_exhaust,faults_exhaust,faults_exhaust,faults_exhaust⟩
  | succ fuel ih => exact malformed_succ ih

theorem validateFormulaExpression_error {expression : String} {error : ProductionMapError}
    (h : validateFormulaExpression expression=.error error) :
    error=.invalidFormulaExpression expression := by
  have hfaults : Faults (· = .invalidFormulaExpression expression) (checkFormula expression) := by
    refine (malformed expression _).expression.bind fun _ =>
      reads_skipWhitespace.faults.bind fun _ => ?_
    intro s error hfailed
    rw [endOfInput] at hfailed
    split at hfailed
    · cases hfailed
    · cases hfailed
      rfl
  rw [validateFormulaExpression] at h
  cases hcheck : checkFormula expression expression.toList with
  | done value rest =>
    rw [hcheck] at h
    cases h
  | failed fault =>
    rw [hcheck] at h
    cases h
    exact hfaults _ _ hcheck
  | exhausted => exact absurd hcheck (checkFormula_ends expression)

/-! The evaluator follows the checker. -/

/-- What an evaluation may fail with on an accepted expression. -/
def ValueError : ProductionMapError → Prop
  | .unknownFormulaVariable _ | .formulaDivisionByZero => True
  | _ => False

structure Follows (input : String) (values : Variables) (fuel : Nat) : Prop where
  factor : Agree ValueError (parseFactor input fuel) (evaluateFactor input values fuel)
  factors : ∀ value,
    Agree ValueError (parseFactors input fuel) (evaluateFactors input values fuel value)
  term : Agree ValueError (parseTerm input fuel) (evaluateTerm input values fuel)
  terms : ∀ value, Agree ValueError (parseTerms input fuel) (evaluateTerms input values fuel value)
  expression : Agree ValueError (parseExpression input fuel) (evaluateExpression input values fuel)

section Agreement
variable {input : String} {values : Variables} {fuel : Nat}

theorem agree_operators {α : Type} {first second : Char} {check stop : FormulaParser Unit}
    {onFirst onSecond last : FormulaParser α} (hfirst : Agree ValueError check onFirst)
    (hsecond : Agree ValueError check onSecond) (hlast : Agree ValueError stop last) :
    Agree ValueError
      (do skipWhitespace; if ← consumeEither first second then check else stop)
      (do
        skipWhitespace
        if ← consume first then onFirst
        else if ← consume second then onSecond
        else last) := by
  refine .after fun _ => ?_
  rw [consumeEither,bind_assoc]
  refine .after fun found => ?_
  cases found with
  | true => exact hfirst
  | false =>
    refine .after fun found => ?_
    cases found with
    | true => exact hsecond
    | false => exact hlast

theorem agree_evaluateFactor (h : Follows input values fuel) :
    Agree ValueError (parseFactor input (fuel+1)) (evaluateFactor input values (fuel+1)) := by
  refine .after fun _ => .after fun found => ?_
  cases found with
  | true => exact h.factor.map F64.neg
  | false =>
  refine .after fun found => ?_
  cases found with
  | true =>
    refine h.expression.bind fun value => .after fun _ => .after fun closed => ?_
    cases closed with
    | true => exact agree_pure value
    | false => exact agree_fail _
  | false =>
  rw [parseIdentifier,bind_assoc]
  refine .after fun identifier => ?_
  cases identifier with
  | some identifier =>
    change Agree ValueError (pure ()) (match values[identifier]? with
      | some value => pure value
      | none => fail (.unknownFormulaVariable identifier))
    split
    · exact agree_pure _
    · exact agree_own trivial _
  | none =>
  rw [parseNumber,bind_assoc]
  refine .after fun number => ?_
  cases number with
  | some number => exact agree_pure number
  | none => exact agree_fail _

theorem agree_evaluateFactors (h : Follows input values fuel) (value : F64) :
    Agree ValueError (parseFactors input (fuel+1))
      (evaluateFactors input values (fuel+1) value) := by
  refine agree_operators (h.factor.bind fun _ => h.factors _)
    (h.factor.bind fun divisor => ?_) (agree_pure value)
  split
  · exact agree_own trivial _
  · exact h.factors _

theorem agree_evaluateTerms (h : Follows input values fuel) (value : F64) :
    Agree ValueError (parseTerms input (fuel+1)) (evaluateTerms input values (fuel+1) value) := by
  exact agree_operators (h.term.bind fun _ => h.terms _) (h.term.bind fun _ => h.terms _)
    (agree_pure value)

theorem follows (input : String) (values : Variables) (fuel : Nat) : Follows input values fuel := by
  induction fuel with
  | zero =>
    exact ⟨agree_exhaust,fun _ => agree_exhaust,agree_exhaust,fun _ => agree_exhaust,agree_exhaust⟩
  | succ fuel ih =>
    refine ⟨agree_evaluateFactor ih,agree_evaluateFactors ih,?_,agree_evaluateTerms ih,?_⟩
    · exact ih.factor.bind ih.factors
    · exact ih.term.bind ih.terms

theorem agree_computeFormula (expression : String) (values : Variables) :
    Agree ValueError (checkFormula expression) (computeFormula expression values) := by
  refine (follows expression values _).expression.bind fun value => .after fun _ => ?_
  exact (agree_refl (endOfInput expression)).map fun _ => value

end Agreement

theorem computeFormula_ends (expression : String) (values : Variables) :
    computeFormula expression values expression.toList ≠ .exhausted := by
  have hends := checkFormula_ends expression
  rcases agree_computeFormula expression values expression.toList with ⟨error,_,hfailed⟩ | hsame
  · rw [hfailed]
    nofun
  · intro hexhausted
    rw [← hsame,hexhausted] at hends
    exact hends rfl

theorem evaluateFormula_cases (expression : String) (values : Variables) :
    (∃ error, ValueError error ∧ evaluateFormula expression values=.error error) ∨
      (evaluateFormula expression values).map (fun _ => ()) =
        validateFormulaExpression expression := by
  unfold evaluateFormula validateFormulaExpression
  rcases agree_computeFormula expression values expression.toList with ⟨error,h,hfailed⟩ | hsame
  · exact .inl ⟨error,h,by rw [hfailed]; rfl⟩
  · rw [← hsame,Outcome.toExcept_forget]
    exact .inr rfl

/-- The checker and the evaluator accept the same expressions: an accepted one can only fail for
its values, one that has a value is accepted, and neither parser runs out of fuel. -/
theorem validateFormulaExpression_agrees (expression : String) :
    (validateFormulaExpression expression=.ok () → ∀ values,
      (∃ value, evaluateFormula expression values=.ok value) ∨
      (∃ name, evaluateFormula expression values=.error (.unknownFormulaVariable name)) ∨
      evaluateFormula expression values=.error .formulaDivisionByZero) ∧
    (∀ values value, evaluateFormula expression values=.ok value →
      validateFormulaExpression expression=.ok ()) ∧
    checkFormula expression expression.toList ≠ .exhausted ∧
    ∀ values, computeFormula expression values expression.toList ≠ .exhausted := by
  refine ⟨fun h values => ?_,fun values value h => ?_,checkFormula_ends expression,
    computeFormula_ends expression⟩
  · rcases evaluateFormula_cases expression values with ⟨error,herror,hfailed⟩ | hsame
    · cases error with
      | unknownFormulaVariable name => exact .inr (.inl ⟨name,hfailed⟩)
      | formulaDivisionByZero => exact .inr (.inr hfailed)
      | _ => exact herror.elim
    · rw [h,Run.map_eq_ok] at hsame
      obtain ⟨value,hvalue,_⟩ := hsame
      exact .inl ⟨value,hvalue⟩
  · rcases evaluateFormula_cases expression values with ⟨error,_,hfailed⟩ | hsame
    · rw [hfailed] at h
      cases h
    · rw [← hsame,h]
      rfl

section Sample

/-- The checker takes a point alone for no number, after it has read it. -/
example : validateFormulaExpression "2 * ." = .error (.invalidFormulaExpression "2 * .") := by
  decide +kernel

theorem validateFormulaExpression_agrees_boxes :
    let values : Variables := (∅ : Variables).insert "order_qty" (F64.ofInt 7)
    evaluateFormula "-(order_qty - 1.5) / .5" values=.ok (F64.ofInt (-11)) ∧
    validateFormulaExpression "-(order_qty - 1.5) / .5" = .ok () ∧
    ((∃ value, evaluateFormula "1 / (order_qty - boxes)" values=.ok value) ∨
      (∃ name, evaluateFormula "1 / (order_qty - boxes)" values =
        .error (.unknownFormulaVariable name)) ∨
      evaluateFormula "1 / (order_qty - boxes)" values=.error .formulaDivisionByZero) := by
  intro values
  have hvalue : evaluateFormula "-(order_qty - 1.5) / .5" values=.ok (F64.ofInt (-11)) := by
    decide +kernel
  have haccepted : validateFormulaExpression "1 / (order_qty - boxes)" = .ok () := by decide +kernel
  refine ⟨hvalue,?_,?_⟩
  · exact (validateFormulaExpression_agrees "-(order_qty - 1.5) / .5").2.1 values _ hvalue
  · exact (validateFormulaExpression_agrees "1 / (order_qty - boxes)").1 haccepted values

end Sample

end MiniErp.Compiler
