import MiniErp.Compiler.Condition
import MiniErp.Lib.Utf8

/-! The scan for a comparison as it runs: over the bytes of the text, which is cut at the byte it
stands at. A cut inside a character panics. -/
namespace MiniErp.Compiler
open Text List

/-- `is_char_boundary`, from the bytes behind the position. -/
def isCharBoundary : List UInt8 → Bool
  | [] => true
  | b :: _ => !isContinuation b

def operators : List ConditionOperator := [.ge,.le,.eq,.ne,.gt,.lt]

def trimSlice (value : List UInt8) : String := trim ((fromUtf8 value).getD "")

def splitSlices (before rest : List UInt8) (operator : ConditionOperator) :
    Option (Option (String × ConditionOperator × String)) :=
  if (encode operator.text).isPrefixOf rest then
    let behind := rest.drop operator.text.length
    if isCharBoundary behind then
      let left := trimSlice before
      let right := trimSlice behind
      some (if left != "" && right != "" then some (left, operator, right) else none)
    else none
  else some none

def splitOperators (before rest : List UInt8) :
    List ConditionOperator → Option (Option (String × ConditionOperator × String))
  | [] => some none
  | operator::others =>
    match splitSlices before rest operator with
    | some none => splitOperators before rest others
    | result => result

def splitBytesFrom (before : List UInt8) (depth : Nat) :
    List UInt8 → Option (Option (String × ConditionOperator × String))
  | [] => some none
  | b::rest =>
    if b=40 then splitBytesFrom (before++[b]) (depth+1) rest
    else if b=41 then splitBytesFrom (before++[b]) (depth-1) rest
    else if depth=0 then
      if isCharBoundary (b::rest) then
        match splitOperators before (b::rest) operators with
        | some none => splitBytesFrom (before++[b]) depth rest
        | result => result
      else none
    else splitBytesFrom (before++[b]) depth rest

/-- `split_condition`. -/
def splitBytes (expression : String) : Option (Option (String × ConditionOperator × String)) :=
  splitBytesFrom [] 0 (bytes expression)

theorem isCharBoundary_encode (l : List Char) : isCharBoundary (encode l)=true := by
  cases l with
  | nil => rfl
  | cons c l =>
    rw [encode_cons]
    by_cases hc : c.toNat≤127
    · have hbyte : (UInt8.ofNat c.toNat).toNat<128 := by
        rw [UInt8.toNat_ofNat']
        omega
      rw [utf8EncodeChar_of_ascii hc,singleton_append,isCharBoundary,isContinuation,
        decide_eq_false (Nat.not_le.mpr hbyte)]
      rfl
    · obtain ⟨lead,next,rest,hbytes,hlead,-⟩ := utf8EncodeChar_of_wide (Nat.not_le.mp hc)
      rw [hbytes,cons_append,isCharBoundary,isContinuation,
        decide_eq_false (Nat.not_lt.mpr hlead),Bool.and_false]
      rfl

theorem ascii_text (operator : ConditionOperator) : ∀ c∈operator.text, c.toNat≤127 := by
  cases operator <;> simp [ConditionOperator.text]

section
variable (before rest : List Char)

theorem splitSlices_encode (operator : ConditionOperator) :
    splitSlices (encode before) (encode rest) operator =
      some (splitAtOperator before rest operator) := by
  have hascii := ascii_text operator
  rw [splitSlices,splitAtOperator,isPrefixOf_encode hascii]
  cases hbegins : operator.text.isPrefixOf rest with
  | true =>
    rw [if_pos rfl,drop_encode hascii hbegins,if_pos (isCharBoundary_encode _),trimSlice,
      trimSlice,fromUtf8_encode,fromUtf8_encode]
    rfl
  | false => rfl

theorem splitOperators_encode (candidates : List ConditionOperator) :
    splitOperators (encode before) (encode rest) candidates =
      some (candidates.findSome? (splitAtOperator before rest)) := by
  induction candidates with
  | nil => rfl
  | cons operator others ih =>
    rw [splitOperators,splitSlices_encode,findSome?_cons]
    cases splitAtOperator before rest operator with
    | none => exact ih
    | some found => rfl

theorem wide_of_isContinuation {b : UInt8} (h : isContinuation b=true) : 128≤b.toNat := by
  rw [isContinuation,Bool.and_eq_true] at h
  exact of_decide_eq_true h.1

theorem ne_of_wide {a b : UInt8} (ha : a.toNat<128) (hb : 128≤b.toNat) : b≠a := by
  rintro rfl
  omega

/-- Inside of brackets the bytes of a wide character are passed one by one. -/
theorem splitBytesFrom_inside {depth : Nat} (hdepth : depth≠0) {wide : List UInt8}
    (hwide : ∀ b∈wide, 128≤b.toNat) (before rest : List UInt8) :
    splitBytesFrom before depth (wide++rest)=splitBytesFrom (before++wide) depth rest := by
  induction wide generalizing before with
  | nil => rw [nil_append,append_nil]
  | cons b wide ih =>
    rw [forall_mem_cons] at hwide
    have hopen : b≠40 := ne_of_wide (by decide) hwide.1
    have hclose : b≠41 := ne_of_wide (by decide) hwide.1
    rw [cons_append,splitBytesFrom,if_neg hopen,if_neg hclose,if_neg hdepth,ih hwide.2,
      append_assoc,singleton_append]

theorem splitAtOperator_wide {c : Char} (hc : 127 < c.toNat) (before rest : List Char)
    (operator : ConditionOperator) : splitAtOperator before (c::rest) operator=none := by
  have hbegins : operator.text.isPrefixOf (c::rest)=false := by
    have hascii := ascii_text operator
    cases htext : operator.text with
    | nil => cases operator <;> cases htext
    | cons d text =>
      rw [htext,forall_mem_cons] at hascii
      have hne : (d == c)=false := by
        rw [beq_eq_false_iff_ne]
        rintro rfl
        omega
      rw [List.isPrefixOf,hne,Bool.false_and]
  rw [splitAtOperator,hbegins]
  rfl

theorem splitConditionFrom_cons (before : List Char) (depth : Nat) (c : Char) (rest : List Char) :
    splitConditionFrom before depth (c::rest) =
      if c = '(' then splitConditionFrom (before++[c]) (depth+1) rest
      else if c = ')' then splitConditionFrom (before++[c]) (depth-1) rest
      else if depth=0 then
        (operators.findSome? (splitAtOperator before (c::rest))).elim
          (if c.utf8Size=1 then splitConditionFrom (before++[c]) depth rest else none)
          fun found => some (some found)
      else splitConditionFrom (before++[c]) depth rest := by
  rw [operators]
  refine if_congr Iff.rfl rfl (if_congr Iff.rfl rfl (if_congr Iff.rfl ?_ rfl))
  cases List.findSome? (splitAtOperator before (c::rest)) _ <;> rfl

theorem splitBytesFrom_encode (before : List Char) (depth : Nat) (rest : List Char) :
    splitBytesFrom (encode before) depth (encode rest)=splitConditionFrom before depth rest := by
  induction rest generalizing before depth with
  | nil => rfl
  | cons c rest ih =>
    have hnext : ∀ depth, splitBytesFrom (encode before++String.utf8EncodeChar c) depth
        (encode rest)=splitConditionFrom (before++[c]) depth rest := by
      intro depth
      rw [← ih,encode_append,encode_singleton]
    have hoperators := splitOperators_encode before (c::rest) operators
    have hboundary := isCharBoundary_encode (c::rest)
    rw [encode_cons] at hoperators hboundary ⊢
    rw [splitConditionFrom_cons]
    by_cases hc : c.toNat≤127
    · rw [utf8EncodeChar_of_ascii hc] at hnext hoperators hboundary ⊢
      have hopen : UInt8.ofNat c.toNat=40 ↔ c = '(' := ofNat_toNat_inj hc (d := '(') (by decide)
      have hclose : UInt8.ofNat c.toNat=41 ↔ c = ')' := ofNat_toNat_inj hc (d := ')') (by decide)
      rw [singleton_append] at hoperators hboundary ⊢
      rw [splitBytesFrom,if_pos hboundary,hoperators]
      simp only [hopen,hclose,hnext]
      refine if_congr Iff.rfl rfl (if_congr Iff.rfl rfl (if_congr Iff.rfl ?_ rfl))
      rw [if_pos ((utf8Size_eq_one_iff c).mpr hc)]
      cases operators.findSome? (splitAtOperator before (c::rest)) <;> rfl
    · have hwide := Nat.not_le.mp hc
      obtain ⟨lead,next,more,hbytes,hlead,htail⟩ := utf8EncodeChar_of_wide hwide
      have hopen : c ≠ '(' := fun h => hc (h ▸ by decide)
      have hclose : c ≠ ')' := fun h => hc (h ▸ by decide)
      rw [if_neg hopen,if_neg hclose]
      by_cases hdepth : depth=0
      · -- no operator at the lead byte, and no boundary at the byte behind it
        have hnone : operators.findSome? (splitAtOperator before (c::rest))=none :=
          findSome?_eq_none_iff.mpr fun operator _ => splitAtOperator_wide hwide before rest operator
        have hsize : c.utf8Size≠1 := fun h => hc ((utf8Size_eq_one_iff c).mp h)
        have hinside : ∀ front, splitBytesFrom front depth (next::(more++encode rest))=none := by
          intro front
          have hnext := htail next mem_cons_self
          rw [splitBytesFrom,if_neg (ne_of_wide (by decide) (wide_of_isContinuation hnext)),
            if_neg (ne_of_wide (by decide) (wide_of_isContinuation hnext)),if_pos hdepth,
            isCharBoundary,hnext]
          rfl
        rw [if_pos hdepth,hnone,if_neg hsize]
        rw [hbytes,cons_append] at hoperators hboundary ⊢
        rw [splitBytesFrom,if_neg (ne_of_wide (by decide) (by omega)),
          if_neg (ne_of_wide (by decide) (by omega)),if_pos hdepth,if_pos hboundary,hoperators,
          hnone]
        exact hinside _
      · rw [if_neg hdepth,splitBytesFrom_inside hdepth,hnext]
        rw [hbytes,forall_mem_cons]
        exact ⟨by omega,fun b hb => wide_of_isContinuation (htail b hb)⟩

theorem splitBytes_eq (expression : String) : splitBytes expression=splitCondition expression :=
  splitBytesFrom_encode [] 0 expression.toList

/-! Where the scan stops. -/

def depthStep (depth : Nat) (c : Char) : Nat :=
  if c = '(' then depth+1 else if c = ')' then depth-1 else depth

def depthAfter (text : List Char) : Nat := text.foldl depthStep 0

theorem depthAfter_append_singleton (text : List Char) (c : Char) :
    depthAfter (text++[c])=depthStep (depthAfter text) c := by
  rw [depthAfter,foldl_append]
  rfl

/-- A comparison outside of brackets with a text on both sides. -/
def Compares (left right : List Char) : Prop :=
  depthAfter left=0 ∧ ∃ operator, (splitAtOperator left right operator).isSome=true

/-- Every wide character outside of brackets stands behind a comparison. -/
def Scannable : Prop :=
  ∀ front c tail, rest=front++c::tail → depthAfter (before++front)=0 → 1 < c.utf8Size →
    ∃ left right, rest=left++right ∧ left.length<front.length ∧ Compares (before++left) right

theorem scannable_cons_iff {before rest : List Char} {c : Char}
    (hc : c.utf8Size=1 ∨ depthAfter before≠0) (hno : ¬ Compares before (c::rest)) :
    Scannable before (c::rest) ↔ Scannable (before++[c]) rest := by
  have hassoc : ∀ l, before++[c]++l=before++c::l := fun l => by rw [append_assoc,singleton_append]
  constructor
  · intro h front d tail hrest hdepth hsize
    rw [hassoc] at hdepth
    obtain ⟨left,right,hsplit,hlength,hcompares⟩ :=
      h (c::front) d tail (by rw [hrest,cons_append]) hdepth hsize
    cases left with
    | nil =>
      rw [append_nil] at hcompares
      exact absurd (hsplit ▸ hcompares) hno
    | cons e left =>
      rw [cons_append,cons.injEq] at hsplit
      obtain ⟨rfl,hsplit⟩ := hsplit
      refine ⟨left,right,hsplit,by simpa using hlength,?_⟩
      rwa [hassoc]
  · intro h front d tail hrest hdepth hsize
    cases front with
    | nil =>
      obtain ⟨rfl,-⟩ := cons.inj hrest
      rw [append_nil] at hdepth
      cases hc with
      | inl hsingle => omega
      | inr hinside => exact absurd hdepth hinside
    | cons e front =>
      rw [cons_append,cons.injEq] at hrest
      obtain ⟨rfl,hrest⟩ := hrest
      rw [← hassoc] at hdepth
      obtain ⟨left,right,hsplit,hlength,hcompares⟩ := h front d tail hrest hdepth hsize
      refine ⟨c::left,right,by rw [hsplit,cons_append],by simpa using hlength,?_⟩
      rwa [← hassoc]

theorem compares_iff {before rest : List Char} (hdepth : depthAfter before=0) :
    Compares before rest ↔ (operators.findSome? (splitAtOperator before rest)).isSome=true := by
  rw [findSome?_isSome_iff]
  constructor
  · rintro ⟨-,operator,h⟩
    exact ⟨operator,by cases operator <;> decide,h⟩
  · rintro ⟨operator,-,h⟩
    exact ⟨hdepth,operator,h⟩

theorem not_compares_bracket {c : Char} (hc : c = '(' ∨ c = ')') (before rest : List Char) :
    ¬ Compares before (c::rest) := by
  rintro ⟨-,operator,h⟩
  have hbegins : operator.text.isPrefixOf (c::rest)=false := by
    obtain rfl | rfl := hc <;> cases operator <;> rfl
  rw [splitAtOperator,hbegins] at h
  cases h

theorem splitConditionFrom_isSome_iff :
    (splitConditionFrom before (depthAfter before) rest).isSome=true ↔ Scannable before rest := by
  induction rest generalizing before with
  | nil =>
    refine iff_of_true rfl ?_
    intro front c tail hrest
    exact absurd hrest (append_ne_nil_of_right_ne_nil _ (cons_ne_nil _ _)).symm
  | cons c rest ih =>
    have hnext := ih (before++[c])
    rw [depthAfter_append_singleton,depthStep] at hnext
    rw [splitConditionFrom_cons]
    by_cases hopen : c = '('
    · rw [if_pos hopen] at hnext ⊢
      rw [hnext,scannable_cons_iff (.inl (hopen ▸ rfl)) (not_compares_bracket (.inl hopen) _ _)]
    by_cases hclose : c = ')'
    · rw [if_neg hopen,if_pos hclose] at hnext ⊢
      rw [hnext,scannable_cons_iff (.inl (hclose ▸ rfl)) (not_compares_bracket (.inr hclose) _ _)]
    rw [if_neg hopen,if_neg hclose] at hnext ⊢
    by_cases hdepth : depthAfter before=0
    · have hcompares : Compares before (c::rest) ↔ _ := compares_iff hdepth
      rw [if_pos hdepth]
      cases hfound : operators.findSome? (splitAtOperator before (c::rest)) with
      | some found =>
        refine iff_of_true rfl ?_
        intro front d tail hrest hfront hsize
        rw [hfound] at hcompares
        cases front with
        | nil =>
          -- no operator begins with a wide character
          obtain ⟨rfl,-⟩ := cons.inj hrest
          have hwide : 127 < c.toNat := by
            by_contra hnarrow
            have hone := (utf8Size_eq_one_iff c).mpr (Nat.not_lt.mp hnarrow)
            omega
          obtain ⟨-,operator,hoperator⟩ := hcompares.mpr rfl
          rw [splitAtOperator_wide hwide] at hoperator
          cases hoperator
        | cons e front =>
          refine ⟨[],c::rest,rfl,Nat.succ_pos _,?_⟩
          rw [append_nil]
          exact hcompares.mpr rfl
      | none =>
        rw [hfound] at hcompares
        have hno : ¬ Compares before (c::rest) := fun h => Bool.noConfusion (hcompares.mp h)
        by_cases hsize : c.utf8Size=1
        · rw [Option.elim_none,if_pos hsize,hnext,scannable_cons_iff (.inl hsize) hno]
        · rw [if_neg hsize]
          refine iff_of_false Bool.false_ne_true fun h => ?_
          have hpos := Char.utf8Size_pos c
          obtain ⟨left,right,-,hlength,-⟩ :=
            h [] c rest rfl (by rw [append_nil]; exact hdepth) (by omega)
          exact Nat.not_lt_zero _ hlength
    · rw [if_neg hdepth,hnext,scannable_cons_iff (.inr hdepth) fun h => hdepth h.1]

end

/-- The three functions end with a value or an error exactly if every wide character outside of
brackets stands behind a comparison outside of brackets that has a text on both sides. -/
theorem splitBytes_total_iff (expression : String) : ((splitBytes expression).isSome=true ∧
      (validateConditionExpression expression).isSome=true ∧
      ∀ values, (evaluateCondition expression values).isSome=true) ↔
    ∀ front c tail, expression.toList=front++c::tail → depthAfter front=0 →
      1 < c.utf8Size → ∃ left right, expression.toList=left++right ∧
        left.length<front.length ∧ Compares left right := by
  have hscan := splitConditionFrom_isSome_iff [] expression.toList
  have hcalls : (splitCondition expression).isSome=true ↔ Scannable [] expression.toList := hscan
  simp only [Scannable,List.nil_append] at hcalls
  rw [splitBytes_eq,← hcalls]
  simp only [validateConditionExpression,evaluateCondition,Option.isSome_map]
  exact ⟨fun h => h.1,fun h => ⟨h,h,fun _ => h⟩⟩

theorem splitBytes_total_price : (splitBytes "narxi >= 5").isSome=true ∧
    (validateConditionExpression "narxi >= 5").isSome=true ∧
    ∀ values, (evaluateCondition "narxi >= 5" values).isSome=true := by
  refine (splitBytes_total_iff "narxi >= 5").mpr fun front c tail htext _ hsize => ?_
  have hnarrow : ("narxi >= 5".toList.all fun c => c.utf8Size == 1)=true := by decide +kernel
  have hmem : c ∈ "narxi >= 5".toList := by
    rw [htext]
    exact List.mem_append_right _ List.mem_cons_self
  have hone : c.utf8Size=1 := beq_iff_eq.mp (List.all_eq_true.mp hnarrow c hmem)
  omega

/-- The cut at the second byte of the sign. -/
theorem splitBytes_panics : splitBytes "narxi ≥ 5" = none ∧
    validateConditionExpression "narxi ≥ 5" = none ∧ evaluateCondition "narxi ≥ 5" ∅ = none := by
  decide +kernel

end MiniErp.Compiler
