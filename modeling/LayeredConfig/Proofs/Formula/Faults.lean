import LayeredConfig.Formula.Value
import Mathlib.Tactic.Lemma

namespace LayeredConfig.Formula

def Fault.Evaluative : Fault → Prop
  | .unknownSymbol _ | .invalidOperand _ _ | .divisionByZero => True
  | _ => False

def Operator.isArithmetic : Operator → Bool
  | .add | .sub | .mul | .div | .rem => true
  | _ => false

def Operator.decides : Operator → Bool
  | .or | .and => true
  | _ => false

lemma decides_of_isArithmetic {op : Operator} (h : op.isArithmetic = true) : op.decides = false := by
  cases op <;> first | rfl | cases h

def Evaluates {α : Type} (r : Except Fault α) : Prop := ∀ fault, r = .error fault → fault.Evaluative

section

variable {α β : Type}

lemma evaluates_ok (a : α) : Evaluates (.ok a) := fun _ h => nomatch h

lemma evaluates_bind {r : Except Fault α} {f : α → Except Fault β} (hr : Evaluates r)
    (hf : ∀ a, Evaluates (f a)) : Evaluates (r >>= f) := by
  cases r with
  | ok a => exact hf a
  | error fault => exact fun _ h => hr _ (congrArg Except.error (Except.error.inj h))

lemma evaluates_map {r : Except Fault α} (hr : Evaluates r) (f : α → β) : Evaluates (r.map f) := by
  cases r with
  | ok a => exact evaluates_ok _
  | error fault => exact fun _ h => hr _ (congrArg Except.error (Except.error.inj h))

end

lemma evaluates_operandOf (operator : String) (n : Node) : Evaluates (operandOf operator n) := by
  rw [operandOf]
  cases Operand.ofNode? n with
  | some x => exact evaluates_ok x
  | none => rintro _ ⟨⟩; trivial

lemma evaluates_divisor {α : Type} {zero : Prop} [Decidable zero] (a : α) :
    Evaluates (if zero then .error .divisionByZero else .ok a) := by
  split
  · rintro _ ⟨⟩; trivial
  · exact evaluates_ok a

lemma evaluates_wholeArithmetic (op : Operator) (a b : Int64) :
    Evaluates (wholeArithmetic op a b) := by
  cases op with
  | div | rem => exact evaluates_divisor _
  | _ => exact evaluates_ok _

lemma evaluates_doubleArithmetic {op : Operator} (hop : op.isArithmetic = true) (x y : Float) :
    Evaluates (doubleArithmetic op x y) := by
  cases op with
  | add | sub | mul => exact evaluates_ok _
  | div | rem => exact evaluates_divisor _
  | _ => cases hop

lemma evaluates_arithmetic {op : Operator} (hop : op.isArithmetic = true) (x y : Operand) :
    Evaluates (arithmetic op x y) := by
  unfold arithmetic
  split
  · refine evaluates_bind (evaluates_wholeArithmetic op _ _) fun found => ?_
    cases found with
    | some n => exact evaluates_ok _
    | none => exact evaluates_doubleArithmetic hop _ _
  · exact evaluates_doubleArithmetic hop _ _

lemma evaluates_orderOf (op : Operator) (a b : Node) : Evaluates (orderOf op a b) := by
  rw [orderOf]
  cases looseOrder? a b with
  | some o => exact evaluates_ok o
  | none => rintro _ ⟨⟩; trivial

lemma evaluates_apply {op : Operator} (hop : op.decides = false) (a b : Node) :
    Evaluates (op.apply a b) := by
  cases op with
  | or | and => cases hop
  | equal | unequal => exact evaluates_ok _
  | less | atMost | greater | atLeast => exact evaluates_map (evaluates_orderOf _ a b) _
  | add | sub | mul | div | rem =>
    exact evaluates_bind (evaluates_operandOf _ a) fun x =>
      evaluates_bind (evaluates_operandOf _ b) fun y => evaluates_arithmetic rfl x y

lemma value_binary {scope : Scope} {op : Operator} {left right : Term} (hop : op.decides = false) :
    (Term.binary op left right).value scope =
      left.value scope >>= fun a => right.value scope >>= fun b => op.apply a b := by
  cases op with
  | or | and => cases hop
  | _ => rfl

lemma evaluates_value (scope : Scope) (term : Term) : Evaluates (term.value scope) := by
  induction term with
  | literal | «variable» => exact evaluates_ok _
  | symbol name =>
    rw [Term.value]
    cases Fields.get? scope.symbols name with
    | some n => exact evaluates_ok n
    | none => rintro _ ⟨⟩; trivial
  | signed sign operand ih =>
    rw [Term.value]
    refine evaluates_bind ih fun n => ?_
    cases sign with
    | not => exact evaluates_ok _
    | plus | minus => exact evaluates_map (evaluates_operandOf _ n) _
  | binary operator left right ihl ihr =>
    cases operator with
    | and =>
      rw [Term.value]
      refine evaluates_bind ihl fun a => ?_
      split
      · exact evaluates_bind ihr fun b => evaluates_ok _
      · exact evaluates_ok _
    | or =>
      rw [Term.value]
      refine evaluates_bind ihl fun a => ?_
      split
      · exact evaluates_ok _
      · exact evaluates_bind ihr fun b => evaluates_ok _
    | _ =>
      rw [value_binary rfl]
      exact evaluates_bind ihl fun a => evaluates_bind ihr fun b => evaluates_apply rfl a b

end LayeredConfig.Formula
