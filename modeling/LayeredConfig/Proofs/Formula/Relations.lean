import LayeredConfig.Formula.Value
import LayeredConfig.Proofs.Node.Sameness
import LayeredConfig.Proofs.Success
import Mathlib

namespace LayeredConfig.Formula

open Number Node

lemma floatOrder?_eq_compare (x y : Float) : floatOrder? x y = x.toModel.compare y.toModel := by
  simp only [floatOrder?, float_lt_iff, float_beq_iff]
  rw [model_compare_swap x y]
  cases x.toModel.compare y.toModel with
  | none => rfl
  | some o => cases o <;> rfl

section

variable (x y : Operand)

lemma Operand.same_comm : x.same y = y.same x := by
  cases x with
  | int a =>
    cases y with
    | int b => exact BEq.comm
    | float b => exact float_beq_comm _ _
  | float a => cases y <;> exact float_beq_comm _ _

lemma Operand.order?_swap : y.order? x = (x.order? y).map Ordering.swap := by
  have hfloat (u v : Float) : floatOrder? v u = (floatOrder? u v).map Ordering.swap := by
    rw [floatOrder?_eq_compare, floatOrder?_eq_compare, model_compare_swap]
  cases x with
  | int a =>
    cases y with
    | int b => exact congrArg some (Int.compare_swap _ _).symm
    | float b => exact hfloat _ _
  | float a => cases y <;> exact hfloat _ _

lemma Operand.order?_eq_iff : x.order? y = some .eq ↔ x.same y = true := by
  have hfloat (u v : Float) : floatOrder? u v = some .eq ↔ (u == v) = true := by
    rw [floatOrder?_eq_compare, float_beq_iff]
  cases x with
  | int a =>
    cases y with
    | int b =>
      change some (compare a.toInt b.toInt) = some .eq ↔ (a == b) = true
      rw [Option.some_inj, compare_eq_iff_eq, beq_iff_eq, Int64.toInt_inj]
    | float b => exact hfloat _ _
  | float a => cases y <;> exact hfloat _ _

end

section

variable (a b : Node)

lemma plainEqual_comm : plainEqual a b = plainEqual b a := by
  have htext : (comparedText a == comparedText b) = (comparedText b == comparedText a) := BEq.comm
  unfold plainEqual
  cases number? a with
  | none => cases number? b <;> exact htext
  | some x =>
    cases number? b with
    | none => exact htext
    | some y => exact x.same_comm y

lemma plainOrder?_swap : plainOrder? b a = (plainOrder? a b).map Ordering.swap := by
  have htext : some (compare (comparedText b) (comparedText a)) =
      (some (compare (comparedText a) (comparedText b))).map Ordering.swap :=
    congrArg some Std.OrientedCmp.eq_swap
  unfold plainOrder?
  cases number? a with
  | none => cases number? b <;> exact htext
  | some x =>
    cases number? b with
    | none => exact htext
    | some y => exact x.order?_swap y

lemma plainOrder?_eq_iff : plainOrder? a b = some .eq ↔ plainEqual a b = true := by
  have htext : some (compare (comparedText a) (comparedText b)) = some .eq ↔
      (comparedText a == comparedText b) = true := by
    rw [Option.some_inj, Std.compare_eq_iff_eq, beq_iff_eq]
  unfold plainOrder? plainEqual
  cases number? a with
  | none => cases number? b <;> exact htext
  | some x =>
    cases number? b with
    | none => exact htext
    | some y => exact x.order?_eq_iff y

lemma looseOrder?_swap : looseOrder? b a = (looseOrder? a b).map Ordering.swap := by
  rw [looseOrder?, looseOrder?, Bool.or_comm b.isContainer, Bool.or_comm (isFlag b),
    Bool.and_comm b.isNull]
  split_ifs
  · rfl
  · exact congrArg some Std.OrientedCmp.eq_swap
  · exact plainOrder?_swap a b

end

variable {a b : Node}

lemma looseEqual_comm (ha : a.Everywhere KeysNodup) (hb : b.Everywhere KeysNodup) :
    looseEqual a b = looseEqual b a := by
  rw [looseEqual, looseEqual, Bool.or_comm b.isContainer, Bool.or_comm (isFlag b),
    Bool.and_comm b.isNull, Node.same_comm ha hb, plainEqual_comm]
  split_ifs
  · rfl
  · exact BEq.comm
  · rfl
  · rfl

lemma looseOrder?_eq_iff {o : Ordering} (h : looseOrder? a b = some o) :
    o = .eq ↔ looseEqual a b = true := by
  rw [looseOrder?] at h
  rw [looseEqual]
  split_ifs at h with hcontainer hflag
  · obtain ⟨hflag, hnulls⟩ := Bool.and_eq_true_iff.mp hflag
    rw [Bool.not_eq_true'] at hnulls
    rw [if_neg (Bool.eq_false_iff.mp hnulls), if_pos hflag, ← Option.some.inj h,
      Std.compare_eq_iff_eq, beq_iff_eq]
  · have horder := plainOrder?_eq_iff a b
    rw [h, Option.some_inj] at horder
    by_cases hnulls : (a.isNull && b.isNull) = true
    · -- null equals null, and the texts by which they compare are both empty
      obtain ⟨ha, hb⟩ := Bool.and_eq_true_iff.mp hnulls
      rw [if_pos hnulls, horder, eq_null_of_isNull ha, eq_null_of_isNull hb]
      exact iff_of_true rfl rfl
    · have hplain : ¬ (isFlag a || isFlag b) = true := by
        intro hor
        exact hflag (Bool.and_eq_true_iff.mpr ⟨hor, Bool.not_eq_true' _ ▸ Bool.eq_false_iff.mpr hnulls⟩)
      rw [if_neg hnulls, if_neg hplain, if_neg hcontainer, horder]

lemma orderOf_eq_ok {op : Operator} {o : Ordering} :
    orderOf op a b = .ok o ↔ looseOrder? a b = some o := by
  rw [orderOf]
  cases looseOrder? a b <;> simp

lemma orderOf_swap {op : Operator} {o : Ordering} :
    orderOf op a b = .ok o ↔ orderOf op b a = .ok o.swap := by
  rw [orderOf_eq_ok, orderOf_eq_ok, looseOrder?_swap a b]
  cases looseOrder? a b with
  | none => simp
  | some other => simp [Ordering.swap_inj]

structure Answers (a b : Node) (l e g : Bool) : Prop where
  less : Operator.less.apply a b = .ok (.bool l)
  equal : Operator.equal.apply a b = .ok (.bool e)
  greater : Operator.greater.apply a b = .ok (.bool g)
  unequal : Operator.unequal.apply a b = .ok (.bool !e)
  atMost : Operator.atMost.apply a b = .ok (.bool (l || e))
  atLeast : Operator.atLeast.apply a b = .ok (.bool (g || e))

lemma answers_of_order {o : Ordering} (h : looseOrder? a b = some o) :
    Answers a b (o == .lt) (o == .eq) (o == .gt) := by
  have horder (op : Operator) : orderOf op a b = .ok o := orderOf_eq_ok.mpr h
  have hequal : looseEqual a b = (o == .eq) := by
    rw [Bool.eq_iff_iff, ← looseOrder?_eq_iff h, beq_iff_eq]
  constructor
  all_goals simp only [Operator.apply, horder, hequal, Except.map]
  all_goals cases o <;> rfl

lemma exists_order_of_less {l : Bool} (h : Operator.less.apply a b = .ok (.bool l)) :
    ∃ o, looseOrder? a b = some o ∧ (o == .lt) = l := by
  obtain ⟨o, ho, hl⟩ := map_eq_ok.mp h
  exact ⟨o, orderOf_eq_ok.mp ho, Node.bool.inj hl⟩

theorem relations_agree (ha : a.Everywhere KeysNodup) (hb : b.Everywhere KeysNodup) :
    looseEqual a b = looseEqual b a ∧
    (∀ op o, orderOf op a b = .ok o ↔ orderOf op b a = .ok o.swap) ∧
    (∀ op o, orderOf op a b = .ok o → (o = .eq ↔ looseEqual a b = true)) ∧
    ∀ l, Operator.less.apply a b = .ok (.bool l) →
      ∃ e g, Answers a b l e g ∧ [l, e, g].count true = 1 := by
  refine ⟨looseEqual_comm ha hb, fun op o => orderOf_swap,
    fun op o h => looseOrder?_eq_iff (orderOf_eq_ok.mp h), fun l h => ?_⟩
  obtain ⟨o, ho, rfl⟩ := exists_order_of_less h
  refine ⟨o == .eq, o == .gt, answers_of_order ho, ?_⟩
  cases o <;> rfl

def portNode : Node := .mapping [("port", .int 80), ("host", .string "a")]

def hostNode : Node := .mapping [("host", .string "a"), ("port", .int 80)]

theorem relations_agree_ports :
    looseEqual portNode hostNode = looseEqual hostNode portNode ∧
    ∃ e g, Answers (.string "9") (.string " 10") true e g ∧ [true, e, g].count true = 1 := by
  have hport : portNode.Everywhere KeysNodup :=
    ⟨by rintro _ ⟨⟩; decide, by rintro _ ⟨⟩, by rintro _ ⟨⟩, trivial⟩
  have hhost : hostNode.Everywhere KeysNodup :=
    ⟨by rintro _ ⟨⟩; decide, by rintro _ ⟨⟩, by rintro _ ⟨⟩, trivial⟩
  have hless : Operator.less.apply (.string "9") (.string " 10") = .ok (.bool true) := by cbv
  have htext (s : String) : (Node.string s).Everywhere KeysNodup := by rintro _ ⟨⟩
  exact ⟨(relations_agree hport hhost).1, (relations_agree (htext _) (htext _)).2.2.2 _ hless⟩

end LayeredConfig.Formula
