import LayeredConfig.Proofs.Resolution.Passes

/-! Nothing waits any more once the symbols are bound. -/

namespace LayeredConfig.Resolution

open Node Tag

variable {ctx : Context} {symbols : Mapping}

lemma keepIf_isResolved {condition : String} {value : Node} {resolved : Run Node} {log log' : Log}
    (hvalue : ∀ {n log log'}, resolved.run log = (.ok n, log') → n.isResolved = true)
    {kept : Option Node}
    (hrun : (keepIf (ctx.second symbols) condition value resolved).run log = (.ok kept, log')) :
    ∀ n ∈ kept, n.isResolved = true := by
  rw [keepIf, second_defers, if_neg Bool.false_ne_true] at hrun
  obtain ⟨decision, between, -, hrun⟩ := run_bind_eq_ok.mp hrun
  split at hrun
  · obtain ⟨n, _, hn, hrun⟩ := run_bind_eq_ok.mp hrun
    cases hrun
    rintro _ ⟨⟩
    exact hvalue hn
  · cases hrun
    rintro _ ⟨⟩

section

variable (h : ResolvedInputs ctx symbols) {log log' : Log}
include h

lemma evaluated_isResolved {text : String} {n : Node}
    (hrun : (evaluated (ctx.second symbols) text).run log = (.ok n, log')) : n.isResolved = true := by
  have hvalue := run_evaluated (ctx.second symbols) text log
  rw [hrun] at hvalue
  cases hvalue
  exact isResolved_of_origin h (Formula.evaluate_origin _ _)

end

mutual

lemma resolve_isResolved (h : ResolvedInputs ctx symbols) : (n : Node) → ∀ {m log log'},
    (resolve (ctx.second symbols) n).run log = (.ok m, log') → m.isResolved = true
  | .mapping fields, _, _, _, hrun => by
    obtain ⟨resolved, _, hfields, hrun⟩ := run_bind_eq_ok.mp hrun
    cases hrun
    exact resolveFields_isResolved h fields rfl hfields
  | .sequence items, _, _, _, hrun => by
    obtain ⟨resolved, _, hitems, hrun⟩ := run_bind_eq_ok.mp hrun
    cases hrun
    exact resolveItems_isResolved h items hitems
  | .expression text, _, _, _, hrun => evaluated_isResolved h hrun
  | .tag name args, _, _, _, hrun => runTag_isResolved h hrun
  | .conditional condition value, _, _, _, hrun => by
    obtain ⟨kept, _, hkept, hrun⟩ := run_bind_eq_ok.mp hrun
    cases hrun
    have hresolved := keepIf_isResolved (resolve_isResolved h value) hkept
    cases kept with
    | none => rfl
    | some n => exact hresolved n rfl
  | .null, _, _, _, hrun | .bool _, _, _, _, hrun | .int _, _, _, _, hrun
  | .float _, _, _, _, hrun | .string _, _, _, _, hrun => by
    cases hrun
    rfl

lemma resolveItems_isResolved (h : ResolvedInputs ctx symbols) :
    (items : List Node) → ∀ {resolved log log'},
    (resolveItems (ctx.second symbols) items).run log = (.ok resolved, log') →
    itemsResolved resolved = true
  | [], _, _, _, hrun => by
    cases hrun
    rfl
  | item :: rest, _, _, _, hrun => by
    have hitem : ∀ {m log log'}, (resolve (ctx.second symbols) item).run log = (.ok m, log') →
        m.isResolved = true := resolve_isResolved h item
    cases item with
    | conditional condition value =>
      obtain ⟨kept, _, hkept, hrun⟩ := run_bind_eq_ok.mp hrun
      obtain ⟨more, _, hmore, hrun⟩ := run_bind_eq_ok.mp hrun
      cases hrun
      have hresolved := keepIf_isResolved (resolve_isResolved h value) hkept
      rw [itemsResolved_iff, List.forall_mem_append]
      refine ⟨fun n hn => hresolved n (Option.mem_toList.mp hn), ?_⟩
      exact itemsResolved_iff.mp (resolveItems_isResolved h rest hmore)
    | _ =>
      obtain ⟨n, _, hn, hrun⟩ := run_bind_eq_ok.mp hrun
      obtain ⟨more, _, hmore, hrun⟩ := run_bind_eq_ok.mp hrun
      cases hrun
      exact Bool.and_eq_true_iff.mpr ⟨hitem hn, resolveItems_isResolved h rest hmore⟩

lemma resolveFields_isResolved (h : ResolvedInputs ctx symbols) :
    (fields : List (String × Node)) → ∀ {done resolved log log'},
    fieldsResolved done = true →
    (resolveFields (ctx.second symbols) done fields).run log = (.ok resolved, log') →
    fieldsResolved resolved = true
  | [], _, _, _, _, hdone, hrun => by
    cases hrun
    exact hdone
  | (key, value) :: rest, done, _, _, _, hdone, hrun => by
    obtain ⟨n, _, hn, hrun⟩ := run_bind_eq_ok.mp hrun
    have hnext : fieldsResolved (Fields.insert done (Ascription.strip key) n) = true := by
      rw [fieldsResolved_iff] at hdone ⊢
      intro field hm
      obtain rfl | hm := Fields.mem_insert hm
      · exact resolve_isResolved h value hn
      · exact hdone field hm
    exact resolveFields_isResolved h rest hnext hrun

end

theorem resolveTwice_isResolved (h : ResolvedInputs ctx symbols) {tree resolved : Node}
    {log log' : Log} (hrun : (Load.resolveTwice ctx symbols tree).run log = (.ok resolved, log')) :
    resolved.isResolved = true ∧ ∀ n, Within resolved n → ¬ Marker n := by
  obtain ⟨between, _, -, hsecond⟩ := run_bind_eq_ok.mp hrun
  have hresolved := resolve_isResolved h between hsecond
  exact ⟨hresolved, isResolved_iff.mp hresolved⟩

def stubbornTree : Node := .mapping [
  ("broken", .expression "1 +"),
  ("unbound", .expression "$nope + 1"),
  ("limit<Int>", .conditional "$debug" (.conditional "$ENV.QUIET" (.tag "count" ["a"]))),
  ("level", .conditional "$debug" (.expression "$host || 'none'")),
  ("extras", .sequence [
    .conditional "$debug" (.sequence [.conditional "$nope ==" (.tag "count" ["a", "b"])]),
    .conditional "$ENV.QUIET" (.expression "$host")])]

theorem resolveTwice_isResolved_stubborn :
    ResolvedInputs sampleContext sampleSymbols ∧
    ∃ resolved log, (Load.resolveTwice sampleContext sampleSymbols stubbornTree).run [] =
        (.ok resolved, log) ∧
      resolved.isResolved = true ∧ ∀ n, Within resolved n → ¬ Marker n := by
  have hrun : ((Load.resolveTwice sampleContext sampleSymbols stubbornTree).run []).1 =
      .ok (.mapping [
        ("broken", .string "1 +"), ("unbound", .string "$nope + 1"), ("limit", .null),
        ("level", .bool true), ("extras", .sequence [.sequence [.int 2]])]) := by cbv
  have hinputs := sampleInputs_settled.resolved
  exact ⟨hinputs, _, _, Prod.ext hrun rfl, resolveTwice_isResolved hinputs (Prod.ext hrun rfl)⟩

end LayeredConfig.Resolution
