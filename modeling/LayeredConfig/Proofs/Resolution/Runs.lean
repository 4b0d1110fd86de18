import LayeredConfig.Proofs.Node.Tags
import LayeredConfig.Proofs.Resolution.Decisions
import LayeredConfig.Proofs.Simulation

/-! A pass runs tags and nothing else of it can fail: up to what else it records and what it results
in, it is the tags that are due, run one after another. -/

namespace LayeredConfig

open Node Tag

def Event.isRun : Event → Bool
  | .runningTag _ _ => true
  | _ => false

def tagRuns (log : Log) : Log := log.filter Event.isRun

lemma earlierRuns_tagRuns (log : Log) : earlierRuns (tagRuns log) = earlierRuns log := by
  rw [earlierRuns, earlierRuns, tagRuns, List.filterMap_filter]
  refine List.filterMap_congr fun e _ => ?_
  cases e <;> rfl

def Node.Invocation.event (i : Invocation) : Event := .runningTag i.name i.args

namespace Resolution

variable {α β γ δ : Type} {ctx : Context}

/-- Two runs that succeed together or fail with the same failure, and record the same runs of tags,
whenever the same runs of tags are on record before. -/
def SameRuns (run : Run α) (run' : Run β) : Prop :=
  ∀ log log', tagRuns log = tagRuns log' →
    Agree (fun _ _ => True) (run.run log).1 (run'.run log').1 ∧
      tagRuns (run.run log).2 = tagRuns (run'.run log').2

namespace SameRuns

variable {run : Run α} {run' : Run β}

lemma pure (a : α) (b : β) : SameRuns (pure a : Run α) (pure b : Run β) :=
  fun _ _ h => ⟨.ok trivial, h⟩

lemma bind {f : α → Run γ} {g : β → Run δ} (h : SameRuns run run')
    (hf : ∀ a b, SameRuns (f a) (g b)) : SameRuns (run >>= f) (run' >>= g) := by
  intro log log' hlog
  obtain ⟨hresult, hruns⟩ := h log log' hlog
  rcases hrun : run.run log with ⟨result, between⟩
  rcases hrun' : run'.run log' with ⟨result', between'⟩
  rw [hrun, hrun'] at hresult hruns
  cases hresult with
  | ok _ =>
    rw [run_bind_of_ok hrun, run_bind_of_ok hrun']
    exact hf _ _ _ _ hruns
  | error e =>
    rw [run_bind_of_error hrun, run_bind_of_error hrun']
    exact ⟨.error e, hruns⟩

lemma map_left (f : α → γ) (h : SameRuns run run') : SameRuns (f <$> run) run' := by
  rw [map_eq_pure_bind, ← bind_pure run']
  exact h.bind fun a b => .pure (f a) b

lemma note {e : Event} (h : e.isRun = false) : SameRuns (note e) (Pure.pure () : Run Unit) := by
  intro log log' hlog
  refine ⟨.ok trivial, ?_⟩
  change tagRuns (log ++ [e]) = tagRuns log'
  rw [tagRuns, List.filter_append, List.filter_singleton, h]
  exact (List.append_nil _).trans hlog

lemma after {quiet : Run γ} (hquiet : SameRuns quiet (Pure.pure () : Run Unit))
    (h : SameRuns run run') : SameRuns (quiet >>= fun _ => run) run' := by
  have hboth := hquiet.bind (f := fun _ => run) (g := fun _ => run') fun _ _ => h
  rwa [pure_bind] at hboth

lemma tag (ctx : Context) (name : String) (args : List String) :
    SameRuns (runTag ctx name args) (runTag ctx name args) := by
  intro log log' hlog
  have hearlier : earlierRuns log = earlierRuns log' := by
    rw [← earlierRuns_tagRuns, hlog, earlierRuns_tagRuns]
  change Agree _ (ctx.registry.run name args ctx.place log).1
      (ctx.registry.run name args ctx.place log').1 ∧
    tagRuns (ctx.registry.run name args ctx.place log).2 =
      tagRuns (ctx.registry.run name args ctx.place log').2
  rw [Registry.run, Registry.run]
  cases Fields.get? ctx.registry name with
  | none => exact ⟨.error _, hlog⟩
  | some handler =>
    refine ⟨Agree.of_eq (fun _ => trivial) (by rw [hearlier]), ?_⟩
    simp only [tagRuns, List.filter_append] at hlog ⊢
    rw [hlog]

lemma reported (ctx : Context) (text : String) :
    SameRuns (reported ctx text) (Pure.pure () : Run Unit) := by
  rw [Resolution.reported]
  split
  · exact .note rfl
  · exact .pure _ _

lemma expression (ctx : Context) (text : String) :
    SameRuns (resolveExpression ctx text) (Pure.pure () : Run Unit) := by
  rw [resolveExpression]
  split
  · exact .after (.note rfl) (.pure _ _)
  · rw [evaluated_eq]
    exact .after (.reported ctx text) (.pure _ _)

end SameRuns

def Context.takes (ctx : Context) (condition : String) : Bool :=
  !ctx.defers condition && (Formula.evaluate ctx.scope condition.toList).value.truthy

def runEach (ctx : Context) : List Invocation → Run Unit
  | [] => return
  | i :: rest => do
    let _ ← runTag ctx i.name i.args
    runEach ctx rest

lemma runEach_append (ctx : Context) (before after : List Invocation) :
    runEach ctx (before ++ after) = (do runEach ctx before; runEach ctx after) := by
  induction before with
  | nil => rw [List.nil_append, runEach, pure_bind]
  | cons i rest ih => simp only [List.cons_append, runEach, ih, bind_assoc]

section

variable {invocations : List Invocation} {i : Invocation} {log log' : Log} {failure : Failure}

lemma log_of_runTag {n : Node} (h : (runTag ctx i.name i.args).run log = (.ok n, log')) :
    log' = log ++ [i.event] := by
  obtain ⟨handler, -, -, hlog⟩ := run_runTag h
  exact hlog

lemma log_of_runEach (h : (runEach ctx invocations).run log = (.ok (), log')) :
    log' = log ++ invocations.map (·.event) := by
  induction invocations generalizing log with
  | nil =>
    cases h
    exact (List.append_nil _).symm
  | cons i rest ih =>
    obtain ⟨n, between, hn, hrest⟩ := run_bind_eq_ok.mp h
    rw [ih hrest, log_of_runTag hn, List.append_assoc]
    rfl

def FailsFirst (ctx : Context) (log : Log) (invocations : List Invocation) (failure : Failure) :
    Prop :=
  ∃ before i after, invocations = before ++ i :: after ∧ ((runEach ctx before).run log).1 = .ok () ∧
    ((runTag ctx i.name i.args).run (log ++ before.map (·.event))).1 = .error failure

lemma failsFirst_of_runEach (h : ((runEach ctx invocations).run log).1 = .error failure) :
    FailsFirst ctx log invocations failure := by
  induction invocations generalizing log with
  | nil => cases h
  | cons i rest ih =>
    rw [runEach] at h
    rcases hi : (runTag ctx i.name i.args).run log with ⟨e | n, between⟩
    · rw [run_bind_of_error hi] at h
      refine ⟨[], i, rest, rfl, rfl, ?_⟩
      cases h
      rw [List.map_nil, List.append_nil, hi]
    · rw [run_bind_of_ok hi] at h
      obtain ⟨before, j, after, rfl, hbefore, hj⟩ := ih h
      have hlog := log_of_runTag hi
      refine ⟨i :: before, j, after, rfl, ?_, ?_⟩
      · rw [runEach, run_bind_of_ok hi]
        exact hbefore
      · rw [hlog, List.append_assoc] at hj
        exact hj

lemma runEach_of_failsFirst (h : FailsFirst ctx log invocations failure) :
    ((runEach ctx invocations).run log).1 = .error failure := by
  obtain ⟨before, i, after, rfl, hbefore, hi⟩ := h
  have hreached : (runEach ctx before).run log = (.ok (), log ++ before.map (·.event)) := by
    rcases hok : (runEach ctx before).run log with ⟨result, reached⟩
    rw [hok] at hbefore
    obtain rfl : result = .ok () := hbefore
    rw [log_of_runEach hok]
  rw [runEach_append, run_bind_of_ok hreached, runEach]
  rcases hfailed : (runTag ctx i.name i.args).run (log ++ before.map (·.event)) with ⟨result, behind⟩
  rw [hfailed] at hi
  obtain rfl : result = .error failure := hi
  rw [run_bind_of_error hfailed]

lemma runEach_eq_error_iff : ((runEach ctx invocations).run log).1 = .error failure ↔
    FailsFirst ctx log invocations failure :=
  ⟨failsFirst_of_runEach, runEach_of_failsFirst⟩

end

def chosen (p : List String → Bool) (occurrences : List Occurrence) : List Invocation :=
  (occurrences.filter fun o => p o.conditions).map (·.toInvocation)

section

variable {p : List String → Bool}

lemma chosen_append (before after : List Occurrence) :
    chosen p (before ++ after) = chosen p before ++ chosen p after := by
  rw [chosen, List.filter_append, List.map_append, chosen, chosen]

lemma chosen_lift (condition : Option String) (step : Step) (occurrences : List Occurrence) :
    chosen p (occurrences.map (·.lift condition step)) =
      chosen (fun conditions => p (condition.toList ++ conditions)) occurrences := by
  rw [chosen, chosen, List.filter_map, List.map_map]
  rfl

lemma chosen_none (occurrences : List Occurrence) :
    chosen (fun _ => false) occurrences = [] := by
  rw [chosen, List.filter_false, List.map_nil]

lemma chosen_under (test : String → Bool) (condition : String) (occurrences : List Occurrence) :
    chosen (·.all test) (occurrences.map (·.lift (some condition) .value)) =
      if test condition then chosen (·.all test) occurrences else [] := by
  rw [chosen_lift]
  simp only [Option.toList_some, List.singleton_append, List.all_cons]
  cases test condition with
  | true => simp only [Bool.true_and, if_true]
  | false => simp only [Bool.false_and, chosen_none, Bool.false_eq_true, if_false]

end

lemma sameRuns_keepIf {condition : String} {value : Node}
    (h : SameRuns (resolve ctx value) (runEach ctx (chosen (·.all ctx.takes) value.tags))) :
    SameRuns (keepIf ctx condition value (resolve ctx value))
      (runEach ctx (chosen (·.all ctx.takes) (tags (.conditional condition value)))) := by
  rw [tags, chosen_under, Context.takes]
  cases hd : ctx.defers condition with
  | true =>
    rw [keepIf_deferred hd]
    exact .after (.note rfl) (.pure _ _)
  | false =>
    rw [keepIf_decided hd, Bool.not_false, Bool.true_and]
    refine .after (.reported ctx condition) ?_
    split_ifs
    · exact h.map_left some
    · exact .pure _ _

mutual

lemma sameRuns_resolve (ctx : Context) : (n : Node) →
    SameRuns (resolve ctx n) (runEach ctx (chosen (·.all ctx.takes) n.tags))
  | .mapping fields => by
    rw [resolve_mapping, tags]
    exact (sameRuns_resolveFields ctx [] fields).map_left _
  | .sequence items => by
    rw [resolve_sequence, tags]
    exact (sameRuns_resolveItems ctx 0 items).map_left _
  | .expression text => .expression ctx text
  | .tag name args => by
    rw [resolve, ← bind_pure (runTag ctx name args)]
    exact (SameRuns.tag ctx name args).bind fun _ _ => .pure _ _
  | .conditional condition value => by
    rw [resolve_conditional]
    exact (sameRuns_keepIf (sameRuns_resolve ctx value)).map_left _
  | .null | .bool _ | .int _ | .float _ | .string _ => .pure _ _

lemma sameRuns_resolveItems (ctx : Context) (start : Nat) : (items : List Node) →
    SameRuns (resolveItems ctx items) (runEach ctx (chosen (·.all ctx.takes) (itemsTags start items)))
  | [] => .pure _ _
  | item :: rest => by
    have hitem := sameRuns_resolve ctx item
    have hrest := sameRuns_resolveItems ctx (start + 1) rest
    rw [itemsTags, chosen_append, chosen_lift, runEach_append]
    cases item with
    | conditional condition value =>
      rw [resolveItems_conditional]
      exact (sameRuns_keepIf (sameRuns_resolve ctx value)).bind fun _ _ => hrest.map_left _
    | _ =>
      rw [resolveItems_cons (by simp [kind])]
      refine SameRuns.bind hitem fun _ _ => ?_
      rw [bind_pure_comp]
      exact hrest.map_left _

lemma sameRuns_resolveFields (ctx : Context) (done : Mapping) : (fields : List (String × Node)) →
    SameRuns (resolveFields ctx done fields)
      (runEach ctx (chosen (·.all ctx.takes) (fieldsTags fields)))
  | [] => .pure _ _
  | (key, value) :: rest => by
    rw [resolveFields, fieldsTags, chosen_append, chosen_lift, runEach_append]
    exact (sameRuns_resolve ctx value).bind fun _ _ => sameRuns_resolveFields ctx _ rest

end

structure RunsInOrder (ctx : Context) (n : Node) (log : Log) (invocations : List Invocation) :
    Prop where
  fails : ∀ failure, ((resolve ctx n).run log).1 = .error failure ↔
    FailsFirst ctx log invocations failure
  records : ∀ m log', (resolve ctx n).run log = (.ok m, log') →
    tagRuns log' = tagRuns log ++ invocations.map (·.event)

lemma runsInOrder (ctx : Context) (n : Node) (log : Log) :
    RunsInOrder ctx n log (chosen (·.all ctx.takes) n.tags) := by
  obtain ⟨hresult, hruns⟩ := sameRuns_resolve ctx n log log rfl
  constructor
  · intro failure
    rw [← runEach_eq_error_iff]
    exact hresult.error_iff failure
  · intro m log' hrun
    rw [hrun] at hresult hruns
    obtain ⟨_, hok, -⟩ := hresult.ok_left
    rcases heach : (runEach ctx (chosen (·.all ctx.takes) n.tags)).run log with ⟨result, reached⟩
    rw [heach] at hok hruns
    obtain rfl : result = .ok () := hok
    rw [hruns, log_of_runEach heach, tagRuns, List.filter_append]
    congr 1
    rw [List.filter_eq_self]
    rintro e he
    obtain ⟨i, -, rfl⟩ := List.mem_map.mp he
    rfl

end Resolution

end LayeredConfig
