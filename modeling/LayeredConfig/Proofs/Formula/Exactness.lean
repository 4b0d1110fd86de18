import LayeredConfig.Proofs.Formula.Faults
import LayeredConfig.Proofs.Number.Checked
import LayeredConfig.Proofs.Number.Widening

/-! Arithmetic on whole numbers is exact. -/

namespace LayeredConfig.Formula

open Number Text

inductive Whole : Node → Int64 → Prop
  | int (n : Int64) : Whole (.int n) n
  | bool (b : Bool) : Whole (.bool b) (if b then 1 else 0)
  | null : Whole .null 0
  | text {s : String} {n : Int64} (h : Decimal (trim s.toList) n.toInt) : Whole (.string s) n

def Denotes (scope : Scope) (term : Term) (n : Int64) : Prop :=
  ∃ m, term.value scope = .ok m ∧ Whole m n

structure Widens (IsExact : Int64 → Prop) (wide : Float) (result : Except Fault Node) : Prop where
  whole : ∀ n, result = .ok (.int n) ↔ IsExact n
  wide : (∀ n, ¬ IsExact n) → result = .ok (.float wide)

/-- What an operator makes of two whole numbers. Division truncates towards zero. -/
def Exact (a b : Int64) (result : Except Fault Node) : Operator → Prop
  | .add => Widens (fun n => n.toInt = a.toInt + b.toInt) (ofInt64 a + ofInt64 b) result
  | .sub => Widens (fun n => n.toInt = a.toInt - b.toInt) (ofInt64 a - ofInt64 b) result
  | .mul => Widens (fun n => n.toInt = a.toInt * b.toInt) (ofInt64 a * ofInt64 b) result
  | .div => (result = .error .divisionByZero ↔ b = 0) ∧
      (b ≠ 0 → Widens (fun n => b.toInt ∣ a.toInt ∧ n.toInt = a.toInt / b.toInt)
        (ofInt64 a / ofInt64 b) result)
  | .rem => (result = .error .divisionByZero ↔ b = 0) ∧
      (b ≠ 0 → ∃ n, n.toInt = a.toInt - b.toInt * a.toInt.tdiv b.toInt ∧ result = .ok (.int n))
  | _ => True

lemma ofLiteral_eq_int_iff {l : Literal} {n : Int64} :
    Operand.ofLiteral l = .int n ↔ l.isPlain = true ∧ l.plainValue = n.toInt := by
  rw [← Literal.int64?_eq_some_iff, Operand.ofLiteral]
  cases l.int64? <;> simp

lemma ofNode?_eq_int_iff {m : Node} {n : Int64} :
    Operand.ofNode? m = some (.int n) ↔ Whole m n := by
  constructor
  · intro h
    match m, h with
    | .int _, rfl => exact .int n
    | .bool b, rfl => exact .bool b
    | .null, rfl => exact .null
    | .string s, h =>
      obtain ⟨l, hread, hl⟩ := Option.map_eq_some_iff.mp h
      rw [numeral?_eq_read] at hread
      exact .text (decimal_iff_read.mpr ⟨l, hread, ofLiteral_eq_int_iff.mp hl⟩)
  · rintro (_ | _ | _ | h)
    · rfl
    · rfl
    · rfl
    · obtain ⟨l, hread, hl⟩ := decimal_iff_read.mp h
      rw [← numeral?_eq_read] at hread
      exact Option.map_eq_some_iff.mpr ⟨l, hread, ofLiteral_eq_int_iff.mpr hl⟩

lemma operandOf_whole {m : Node} {n : Int64} (h : Whole m n) (operator : String) :
    operandOf operator m = .ok (.int n) := by
  rw [operandOf, ofNode?_eq_int_iff.mpr h]

section

variable {IsExact : Int64 → Prop} {wide : Float} {result : Except Fault Node}

lemma widens_of_found {found : Option Int64} (hexact : ∀ n, found = some n ↔ IsExact n)
    (hresult : result = .ok (found.elim (.float wide) .int)) :
    Widens IsExact wide result := by
  subst hresult
  constructor
  · intro n
    rw [← hexact]
    cases found <;> simp
  · intro hnone
    have hfound : found = none :=
      Option.eq_none_iff_forall_ne_some.mpr fun n hn => hnone n ((hexact n).mp hn)
    rw [hfound, Option.elim_none]

lemma Widens.ne_error (h : Widens IsExact wide result) (fault : Fault) :
    result ≠ .error fault := by
  intro hfault
  by_cases hexact : ∃ n, IsExact n
  · obtain ⟨n, hn⟩ := hexact
    cases hfault.symm.trans ((h.whole n).mpr hn)
  · cases hfault.symm.trans (h.wide (not_exists.mp hexact))

end

lemma negate_widens (n : Int64) :
    Widens (fun m => m.toInt = -n.toInt) (-ofInt64 n) (.ok (Operand.negate (.int n))) := by
  refine widens_of_found (fun m => checkedNeg_eq_some_iff) ?_
  rw [Operand.negate]
  cases checkedNeg n <;> rfl

section

variable {a b : Int64} {op : Operator}

lemma arithmetic_widens {found : Option Int64} {IsExact : Int64 → Prop} {wide : Float}
    (hfound : wholeArithmetic op a b = .ok found) (hexact : ∀ n, found = some n ↔ IsExact n)
    (hwide : doubleArithmetic op (ofInt64 a) (ofInt64 b) = .ok (.float wide)) :
    Widens IsExact wide (arithmetic op (.int a) (.int b)) := by
  refine widens_of_found hexact ?_
  rw [arithmetic, hfound]
  cases found with
  | some n => rfl
  | none => exact hwide

lemma division_widens (hb : b ≠ 0) :
    Widens (fun n => b.toInt ∣ a.toInt ∧ n.toInt = a.toInt / b.toInt) (ofInt64 a / ofInt64 b)
      (arithmetic .div (.int a) (.int b)) := by
  refine arithmetic_widens (if_neg hb) (fun n => exactQuotient_iff hb) ?_
  -- the divisor is tested once more, as a double
  simp [doubleArithmetic, ofInt64_ne_zero hb]

lemma remainder_exact (hb : b ≠ 0) :
    ∃ n, n.toInt = a.toInt - b.toInt * a.toInt.tdiv b.toInt ∧
      arithmetic .rem (.int a) (.int b) = .ok (.int n) := by
  refine ⟨_, (toInt_remainder hb).trans (Int.tmod_def _ _), ?_⟩
  rw [arithmetic, wholeArithmetic, if_neg hb]
  rfl

lemma arithmetic_exact (op : Operator) (a b : Int64) :
    Exact a b (arithmetic op (.int a) (.int b)) op := by
  cases op with
  | add => exact arithmetic_widens rfl (fun n => checkedAdd_eq_some_iff) rfl
  | sub => exact arithmetic_widens rfl (fun n => checkedSub_eq_some_iff) rfl
  | mul => exact arithmetic_widens rfl (fun n => checkedMul_eq_some_iff) rfl
  | div =>
    refine ⟨⟨fun herror => ?_, ?_⟩, division_widens⟩
    · by_contra hb
      exact (division_widens hb).ne_error _ herror
    · rintro rfl
      rfl
  | rem =>
    refine ⟨⟨fun herror => ?_, ?_⟩, remainder_exact⟩
    · by_contra hb
      obtain ⟨n, -, hn⟩ := remainder_exact (a := a) hb
      cases herror.symm.trans hn
    · rintro rfl
      rfl
  | _ => trivial

end

lemma value_minus {scope : Scope} {term : Term} {n : Int64} (h : Denotes scope term n) :
    (Term.signed .minus term).value scope = .ok (Operand.negate (.int n)) := by
  obtain ⟨m, hm, hwhole⟩ := h
  rw [Term.value, hm]
  change (operandOf _ m).map Operand.negate = _
  rw [operandOf_whole hwhole]
  rfl

lemma value_arithmetic {scope : Scope} {left right : Term} {a b : Int64}
    (hl : Denotes scope left a) (hr : Denotes scope right b) {op : Operator}
    (hop : op.isArithmetic = true) :
    (Term.binary op left right).value scope = arithmetic op (.int a) (.int b) := by
  obtain ⟨m, hm, hwhole⟩ := hl
  obtain ⟨m', hm', hwhole'⟩ := hr
  have happly : op.apply m m' =
      operandOf op.text m >>= fun x => operandOf op.text m' >>= fun y => arithmetic op x y := by
    cases op <;> first | rfl | cases hop
  rw [value_binary (decides_of_isArithmetic hop), hm, hm']
  change op.apply m m' = _
  rw [happly, operandOf_whole hwhole, operandOf_whole hwhole']
  rfl

lemma value_exact_of_operands {scope : Scope} {left right : Term} {a b : Int64}
    (hl : Denotes scope left a) (hr : Denotes scope right b) (op : Operator) :
    Exact a b ((Term.binary op left right).value scope) op := by
  by_cases hop : op.isArithmetic = true
  · rw [value_arithmetic hl hr hop]
    exact arithmetic_exact op a b
  · cases op with
    | add | sub | mul | div | rem => exact absurd rfl hop
    | _ => trivial

theorem value_exact (scope : Scope) :
    (∀ term n, Denotes scope term n → Widens (fun m => m.toInt = -n.toInt) (-ofInt64 n)
      ((Term.signed .minus term).value scope)) ∧
    (∀ op left right a b, Denotes scope left a → Denotes scope right b →
      Exact a b ((Term.binary op left right).value scope) op) ∧
    ∀ term token, Term.value scope term ≠ .error (.unexpectedToken token) := by
  refine ⟨fun term n h => ?_, fun op left right a b hl hr => ?_, fun term token h => ?_⟩
  · rw [value_minus h]
    exact negate_widens n
  · exact value_exact_of_operands hl hr op
  · exact evaluates_value scope term _ h

-- the arm that no term reaches
example : Operator.and.apply (.int 1) (.int 1) = .error (.unexpectedToken "&&") := rfl

def emptyScope : Scope := ⟨.empty, []⟩

def lowestTerm : Term := .literal (.string " -9223372036854775808\t")

def minusOneTerm : Term := .signed .minus (.literal (.bool true))

theorem value_exact_lowest :
    Denotes emptyScope lowestTerm (-9223372036854775808) ∧ Denotes emptyScope minusOneTerm (-1) ∧
    (Term.binary .div lowestTerm minusOneTerm).value emptyScope =
      .ok (.float (ofInt64 (-9223372036854775808) / ofInt64 (-1))) ∧
    (Term.binary .rem lowestTerm minusOneTerm).value emptyScope = .ok (.int 0) := by
  have hlow : Denotes emptyScope lowestTerm (-9223372036854775808) :=
    ⟨_, rfl, ofNode?_eq_int_iff.mp rfl⟩
  have hone : Denotes emptyScope minusOneTerm (-1) := ⟨_, rfl, .int _⟩
  obtain ⟨-, hexact, -⟩ := value_exact emptyScope
  refine ⟨hlow, hone, ?_, ?_⟩
  · refine ((hexact .div _ _ _ _ hlow hone).2 (by decide)).wide ?_
    rintro n ⟨-, hn⟩
    have hlt := n.toInt_lt
    rw [hn] at hlt
    exact absurd hlt (by decide)
  · obtain ⟨n, hn, hvalue⟩ := (hexact .rem _ _ _ _ hlow hone).2 (by decide)
    have hzero : n = 0 := Int64.toInt_inj.mp (hn.trans (by decide))
    rw [hvalue, hzero]

end LayeredConfig.Formula
