import LayeredConfig.Load.Pipeline
import LayeredConfig.Proofs.Resolution.Inputs
import Mathlib

/-! The environment pass followed by the symbol pass succeeds with the same trees as the symbol pass
alone. -/

namespace LayeredConfig.Resolution

open Node Tag

def TwiceIsOnce {α : Type} (ctx : Context) (symbols : Mapping) (pass : Context → α → Run α) (a : α) :
    Prop :=
  ((success (pass ctx.first a)).bind fun b => success (pass (ctx.second symbols) b)) =
    success (pass (ctx.second symbols) a)

section

variable {ctx : Context} (hpure : ctx.registry.PureAt ctx.place)
include hpure

lemma Steady.resolveEach (fields : List (String × Node)) : Steady (resolveEach ctx fields) := by
  induction fields with
  | nil => exact Steady.pure _
  | cons field rest ih =>
    exact (Steady.resolve hpure field.2).bind fun _ => ih.bind fun _ => Steady.pure _

lemma success_each_cons (key : String) (value : Node) (rest : List (String × Node)) :
    success (resolveEach ctx ((key, value) :: rest)) =
      (success (resolve ctx value)).bind fun v =>
        (success (resolveEach ctx rest)).map fun vs => (Ascription.strip key, v) :: vs := by
  have hr := Steady.resolveEach hpure rest
  rw [resolveEach, success_bind _ fun v => hr.bind fun _ => Steady.pure _]
  congr 1
  funext v
  rw [success_bind _ fun _ => Steady.pure _]
  cases success (resolveEach ctx rest) <;> rfl

lemma success_items_cons {item : Node} (h : item.kind ≠ .conditional) (rest : List Node) :
    success (resolveItems ctx (item :: rest)) =
      (success (resolve ctx item)).bind fun v =>
        (success (resolveItems ctx rest)).map fun vs => v :: vs := by
  have hr := Steady.resolveItems hpure rest
  rw [resolveItems_cons h, success_bind _ fun v => hr.bind fun _ => Steady.pure _]
  congr 1
  funext v
  rw [success_bind _ fun _ => Steady.pure _]
  cases success (resolveItems ctx rest) <;> rfl

lemma success_items_conditional (condition : String) (value : Node) (rest : List Node) :
    success (resolveItems ctx (.conditional condition value :: rest)) =
      (success (keepIf ctx condition value (resolve ctx value))).bind fun kept =>
        (success (resolveItems ctx rest)).map fun vs => kept.toList ++ vs := by
  have hr := Steady.resolveItems hpure rest
  rw [resolveItems, success_bind _ fun v => hr.bind fun _ => Steady.pure _]
  congr 1
  funext v
  rw [success_bind _ fun _ => Steady.pure _]
  cases success (resolveItems ctx rest) <;> rfl

lemma keys_of_success_each {fields : List (String × Node)} {resolved : Mapping}
    (h : success (resolveEach ctx fields) = some resolved) :
    Fields.keys resolved = (Fields.keys fields).map Ascription.strip := by
  induction fields generalizing resolved with
  | nil => cases h; rfl
  | cons field rest ih =>
    obtain ⟨key, value⟩ := field
    rw [success_each_cons hpure] at h
    obtain ⟨v, -, h⟩ := Option.bind_eq_some_iff.mp h
    obtain ⟨vs, hvs, rfl⟩ := Option.map_eq_some_iff.mp h
    exact congrArg (Ascription.strip key :: ·) (ih hvs)

omit hpure in
lemma success_mapping {fields : Mapping}
    (h : ((Fields.keys fields).map Ascription.strip).Nodup) :
    success (resolve ctx (.mapping fields)) = (success (resolveEach ctx fields)).map .mapping := by
  have hr : resolve ctx (.mapping fields) = .mapping <$> resolveEach ctx fields := by
    rw [resolve, resolveFields_of_nodup ctx [] fields h]
    simp
  rw [hr, success_map]

end

section

variable {ctx : Context} {symbols : Mapping} (h : SettledInputs ctx symbols)
include h

lemma twice_expression (text : String) :
    TwiceIsOnce ctx symbols resolve (.expression text) := by
  rw [TwiceIsOnce]
  cases hd : ctx.first.defers text with
  | true => simp [resolve, success_expression, hd]
  | false =>
    have hs := evaluate_second_settled h text
    simp only [resolve, success_expression, hd, second_defers, Option.bind_some, Bool.false_eq_true,
      if_false, evaluate_first_eq symbols hd, resolve_settled _ _ hs, success_pure]

lemma twice_tag (name : String) (args : List String) :
    TwiceIsOnce ctx symbols resolve (.tag name args) := by
  change (success (runTag ctx name args)).bind _ = success (runTag ctx name args)
  cases hr : success (runTag ctx name args) with
  | none => rfl
  | some n => simp [resolve_settled _ _ (runTag_settled h hr)]

lemma twice_conditional {condition : String} {value : Node}
    (hv : TwiceIsOnce ctx symbols resolve value) :
    TwiceIsOnce ctx symbols resolve (.conditional condition value) := by
  rw [TwiceIsOnce]
  have hfirst := pureAt_first h.pure
  have hsecond := pureAt_second h.pure symbols
  rw [success_conditional hfirst]
  cases hd : ctx.first.defers condition with
  | true => rfl
  | false =>
    simp only [Bool.false_eq_true, if_false, evaluate_first_eq symbols hd]
    rw [success_conditional hsecond, second_defers]
    simp only [Bool.false_eq_true, if_false]
    split
    · exact hv
    · rfl

lemma twice_items_conditional {condition : String} {value : Node} {rest : List Node}
    (hk : value.kind ≠ .conditional)
    (hv : TwiceIsOnce ctx symbols resolve value)
    (hr : TwiceIsOnce ctx symbols resolveItems rest) :
    TwiceIsOnce ctx symbols resolveItems (.conditional condition value :: rest) := by
  rw [TwiceIsOnce] at hv hr ⊢
  have hfirst := pureAt_first h.pure
  have hsecond := pureAt_second h.pure symbols
  rw [success_items_conditional hfirst, success_keepIf _ _ (Steady.resolve hfirst value)]
  cases hd : ctx.first.defers condition with
  | true =>
    cases hrest : success (resolveItems ctx.first rest) with
    | none =>
      rw [hrest] at hr
      simp [success_items_conditional hsecond, ← hr]
    | some items =>
      rw [hrest] at hr
      simp only [if_true, Option.bind_some, Option.map_some, Option.toList_some,
        List.singleton_append, success_items_conditional hsecond] at hr ⊢
      rw [hr]
  | false =>
    rw [success_items_conditional hsecond, success_keepIf _ _ (Steady.resolve hsecond value),
      second_defers]
    simp only [Bool.false_eq_true, if_false, evaluate_first_eq symbols hd, ← hv]
    split
    · cases hfv : success (resolve ctx.first value) with
      | none => rfl
      | some m =>
        have hm := kind_of_first h.resolved hk hfv
        cases hrest : success (resolveItems ctx.first rest) with
        | none =>
          rw [hrest] at hr
          simp [← hr]
        | some items =>
          rw [hrest] at hr
          simp only [Option.bind_some, Option.map_some, Option.toList_some,
            List.singleton_append, success_items_cons hsecond hm] at hr ⊢
          rw [hr]
          cases success (resolve (ctx.second symbols) m) <;> rfl
    · cases hrest : success (resolveItems ctx.first rest) with
      | none => simp [← hr, hrest]
      | some items =>
        rw [hrest] at hr
        simp only [Option.bind_some, Option.map_some, Option.toList_none, List.nil_append] at hr ⊢
        rw [hr]
        exact Option.map_id_apply.symm

lemma twice_items_cons {item : Node} {rest : List Node} (hk : item.kind ≠ .conditional)
    (hi : TwiceIsOnce ctx symbols resolve item)
    (hr : TwiceIsOnce ctx symbols resolveItems rest) :
    TwiceIsOnce ctx symbols resolveItems (item :: rest) := by
  rw [TwiceIsOnce] at hi hr ⊢
  have hfirst := pureAt_first h.pure
  have hsecond := pureAt_second h.pure symbols
  rw [success_items_cons hfirst hk, success_items_cons hsecond hk, ← hi, ← hr]
  cases hf : success (resolve ctx.first item) with
  | none => rfl
  | some m =>
    have hm := kind_of_first h.resolved hk hf
    cases success (resolveItems ctx.first rest) with
    | none => simp
    | some items => exact success_items_cons hsecond hm items

lemma twice_each_cons {key : String} {value : Node} {rest : List (String × Node)}
    (hk : Ascription.read? (Ascription.strip key) = none)
    (hv : TwiceIsOnce ctx symbols resolve value)
    (hr : TwiceIsOnce ctx symbols resolveEach rest) :
    TwiceIsOnce ctx symbols resolveEach ((key, value) :: rest) := by
  rw [TwiceIsOnce] at hv hr ⊢
  have hfirst := pureAt_first h.pure
  have hsecond := pureAt_second h.pure symbols
  rw [success_each_cons hfirst, success_each_cons hsecond, ← hv, ← hr]
  cases success (resolve ctx.first value) with
  | none => rfl
  | some m =>
    cases success (resolveEach ctx.first rest) with
    | none => simp
    | some done =>
      simp only [Option.bind_some, Option.map_some, success_each_cons hsecond,
        Ascription.strip_of_unannotated hk]

omit h in
lemma kind_of_unnested {condition : String} {value : Node}
    (hu : UnnestedHere (.conditional condition value)) : value.kind ≠ .conditional := by
  cases value with
  | conditional => exact hu.elim
  | _ => simp [kind]

lemma twice_mapping {fields : Mapping} (hs : StripsHere (.mapping fields))
    (he : TwiceIsOnce ctx symbols resolveEach fields) :
    TwiceIsOnce ctx symbols resolve (.mapping fields) := by
  rw [TwiceIsOnce] at he ⊢
  obtain ⟨hnodup, hkeys⟩ := hs
  have hfirst := pureAt_first h.pure
  rw [success_mapping hnodup, success_mapping hnodup, ← he]
  cases hf : success (resolveEach ctx.first fields) with
  | none => rfl
  | some done =>
    have hdone : (Fields.keys done).map Ascription.strip = Fields.keys done := by
      rw [keys_of_success_each hfirst hf, List.map_map]
      exact List.map_congr_left fun key hk => Ascription.strip_of_unannotated (hkeys key hk)
    have hn : ((Fields.keys done).map Ascription.strip).Nodup := by
      rw [hdone, keys_of_success_each hfirst hf]
      exact hnodup
    simp only [Option.map_some, Option.bind_some, success_mapping hn]

mutual

lemma twice_resolve : (n : Node) → n.Everywhere StripsHere → n.Everywhere UnnestedHere →
    TwiceIsOnce ctx symbols resolve n
  | .mapping fields, hs, hu => twice_mapping h hs.1 (twice_each fields hs.1.2 hs.2 hu.2)
  | .sequence items, hs, hu => by
    have hi := twice_items items hs.2 hu.2
    rw [TwiceIsOnce] at hi ⊢
    rw [resolve_sequence, resolve_sequence, success_map, success_map, ← hi]
    cases success (resolveItems ctx.first items) with
    | none => rfl
    | some done => simp [resolve_sequence, success_map]
  | .expression text, _, _ => twice_expression h text
  | .tag name args, _, _ => twice_tag h name args
  | .conditional condition value, hs, hu => twice_conditional h (twice_resolve value hs.2 hu.2)
  | .null, _, _ | .bool _, _, _ | .int _, _, _ | .float _, _, _ | .string _, _, _ => rfl

lemma twice_items : (items : List Node) → ItemsEverywhere StripsHere items →
    ItemsEverywhere UnnestedHere items →
    TwiceIsOnce ctx symbols resolveItems items
  | [], _, _ => rfl
  | item :: rest, hs, hu => by
    have hi := twice_resolve item hs.1 hu.1
    have hr := twice_items rest hs.2 hu.2
    cases item with
    | conditional condition value =>
      exact twice_items_conditional h (kind_of_unnested hu.1.1)
        (twice_resolve value hs.1.2 hu.1.2) hr
    | _ => exact twice_items_cons h (by simp [kind]) hi hr

lemma twice_each : (fields : List (String × Node)) →
    (∀ key ∈ Fields.keys fields, Ascription.read? (Ascription.strip key) = none) →
    FieldsEverywhere StripsHere fields → FieldsEverywhere UnnestedHere fields →
    TwiceIsOnce ctx symbols resolveEach fields
  | [], _, _, _ => rfl
  | (key, value) :: rest, hk, hs, hu => by
    have hv := twice_resolve value hs.1 hu.1
    have hr := twice_each rest (fun k hm => hk k (List.mem_cons_of_mem _ hm)) hs.2 hu.2
    exact twice_each_cons h (hk key (by simp [Fields.keys])) hv hr

end

end

/-- Splitting the resolution into two passes does not change which trees it succeeds with. -/
theorem resolveTwice_ok_iff {ctx : Context} {symbols : Mapping} {doc : Node}
    (hinputs : SettledInputs ctx symbols) (hkeys : doc.Everywhere StripsHere)
    (hconditionals : doc.Everywhere UnnestedHere) (log log' : Log) (n : Node) :
    ((Load.resolveTwice ctx symbols doc).run log).1 = .ok n ↔
      ((resolve { ctx with symbols := some symbols } doc).run log').1 = .ok n := by
  have hfirst : ∀ tree, Steady (resolve ctx.first tree) := Steady.resolve hinputs.pure
  have hsecond : ∀ tree, Steady (resolve (ctx.second symbols) tree) := Steady.resolve hinputs.pure
  -- What succeeds does not depend on the log that a run starts with.
  have htwice : success (Load.resolveTwice ctx symbols doc) =
      success (resolve (ctx.second symbols) doc) :=
    (success_bind _ hsecond).trans (twice_resolve hinputs doc hkeys hconditionals)
  have htwiceSteady : Steady (Load.resolveTwice ctx symbols doc) := (hfirst doc).bind hsecond
  have honceSteady : Steady (resolve { ctx with symbols := some symbols } doc) := hsecond doc
  rw [htwiceSteady.ok_iff, honceSteady.ok_iff]
  exact iff_of_eq (congrArg (· = some n) htwice)

def sampleTree : Node := .mapping [
  ("app<App>", .mapping [
    ("port", .expression "$ENV.PORT || $port"),
    ("host", .expression "$host"),
    ("args", .tag "count" ["a", "b"])]),
  ("extras", .sequence [
    .conditional "$debug" (.expression "$ENV.LEVEL"),
    .conditional "$ENV.QUIET" (.string "quiet"),
    .expression "$ENV.LEVEL"])]

def sampleContext : Context where
  place := ⟨⟨[("PORT", .int 80), ("QUIET", .bool false), ("LEVEL", .string "low")]⟩, ⟨"/"⟩,
    ⟨fun _ => .error ⟨.notFound, ""⟩, fun _ => false, fun _ => none, []⟩⟩
  symbols := none
  registry := [("count", fun call => .ok (.int (Int64.ofNat call.args.length)))]

def sampleSymbols : Mapping := [("debug", .bool true), ("host", .string "localhost")]

lemma sampleInputs_settled : SettledInputs sampleContext sampleSymbols where
  pure := by
    intro name handler h args earlier earlier'
    have hm := Fields.mem_of_get? h
    simp only [sampleContext, List.mem_singleton, Prod.mk.injEq] at hm
    obtain ⟨-, rfl⟩ := hm
    rfl
  environment := by
    intro name n h
    have hm := Fields.mem_of_get? h
    simp only [sampleContext, List.mem_cons, Prod.mk.injEq, List.not_mem_nil, or_false] at hm
    obtain ⟨-, rfl⟩ | ⟨-, rfl⟩ | ⟨-, rfl⟩ := hm <;> trivial
  symbols := by
    intro name n h
    have hm := Fields.mem_of_get? h
    simp only [sampleSymbols, List.mem_cons, Prod.mk.injEq, List.not_mem_nil, or_false] at hm
    obtain ⟨-, rfl⟩ | ⟨-, rfl⟩ := hm <;> trivial
  tags := by
    intro name handler h args earlier n hn
    have hm := Fields.mem_of_get? h
    simp only [sampleContext, List.mem_singleton, Prod.mk.injEq] at hm
    obtain ⟨-, rfl⟩ := hm
    cases hn
    trivial

theorem resolveTwice_ok_sample :
    ((Load.resolveTwice sampleContext sampleSymbols sampleTree).run []).1 = .ok (.mapping [
      ("app", .mapping [("port", .int 80), ("host", .string "localhost"), ("args", .int 2)]),
      ("extras", .sequence [.string "low", .string "low"])]) := by
  have hkeys : sampleTree.Everywhere StripsHere := by
    simp only [sampleTree, Everywhere, ItemsEverywhere, FieldsEverywhere, StripsHere, Fields.keys]
    decide +kernel
  have hconditionals : sampleTree.Everywhere UnnestedHere := by
    simp [sampleTree, Everywhere, ItemsEverywhere, FieldsEverywhere, UnnestedHere]
  exact (resolveTwice_ok_iff sampleInputs_settled hkeys hconditionals [] [] _).mpr (by cbv)

end LayeredConfig.Resolution
