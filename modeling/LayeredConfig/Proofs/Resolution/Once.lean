import LayeredConfig.Proofs.Resolution.Paths
import LayeredConfig.Proofs.Resolution.Runs

/-! Of the two passes, one runs a tag for which all conditions hold, and none runs another tag. -/

namespace LayeredConfig.Resolution

open Node Tag

variable {ctx : Context} {symbols : Mapping}

def Context.late (ctx : Context) (symbols : Mapping) (conditions : List String) : Bool :=
  conditions.any ctx.first.defers && conditions.all (ctx.holds symbols)

def Context.early (ctx : Context) (symbols : Mapping) (conditions : List String) : Bool :=
  !conditions.any ctx.first.defers && conditions.all (ctx.holds symbols)

lemma takes_first (symbols : Mapping) (condition : String) : ctx.first.takes condition =
    (!ctx.first.defers condition && ctx.holds symbols condition) := by
  rw [Context.takes]
  cases hd : ctx.first.defers condition with
  | true => rw [Bool.not_true, Bool.false_and, Bool.false_and]
  | false => rw [truthy_first symbols hd]

lemma takes_second : (ctx.second symbols).takes = ctx.holds symbols := by
  funext condition
  rw [Context.takes, second_defers, Bool.not_false, Bool.true_and]
  rfl

lemma all_takes_first (symbols : Mapping) (conditions : List String) :
    conditions.all ctx.first.takes = ctx.early symbols conditions := by
  induction conditions with
  | nil => rfl
  | cons condition rest ih =>
    rw [List.all_cons, takes_first symbols, ih, Context.early, Context.early, List.all_cons,
      List.any_cons, Bool.not_or]
    ac_rfl

lemma chosen_late_under (condition : String) (occurrences : List Occurrence) :
    chosen (ctx.late symbols) (occurrences.map (·.lift (some condition) .value)) =
      if ctx.holds symbols condition then
        if ctx.first.defers condition then chosen (·.all (ctx.holds symbols)) occurrences
        else chosen (ctx.late symbols) occurrences
      else [] := by
  rw [chosen_lift]
  simp only [Option.toList_some, List.singleton_append]
  unfold Context.late
  simp only [List.all_cons, List.any_cons]
  cases ctx.holds symbols condition with
  | true => cases ctx.first.defers condition <;> simp
  | false => simp [chosen_none]

lemma chosen_of_isResolved {p : List String → Bool} {n : Node} (h : n.isResolved = true) :
    chosen p n.tags = [] := by
  rw [tags_of_isResolved n h]
  rfl

lemma chosen_kept {condition : String} {value : Node}
    (hvalue : ∀ {n log log'}, (resolve ctx.first value).run log = (.ok n, log') →
      chosen (·.all (ctx.holds symbols)) n.tags = chosen (ctx.late symbols) value.tags)
    {kept : Option Node} {log log' : Log}
    (hrun : (keepIf ctx.first condition value (resolve ctx.first value)).run log = (.ok kept, log')) :
    chosen (·.all (ctx.holds symbols)) (kept.elim [] tags) =
      chosen (ctx.late symbols) (tags (.conditional condition value)) := by
  rw [tags, chosen_late_under]
  cases hd : ctx.first.defers condition with
  | true =>
    rw [keepIf_deferred hd] at hrun
    cases hrun
    rw [if_pos rfl]
    exact chosen_under _ condition value.tags
  | false =>
    rw [keepIf_first symbols hd] at hrun
    obtain ⟨_, _, -, hrun⟩ := run_bind_eq_ok.mp hrun
    rw [if_neg Bool.false_ne_true]
    split_ifs at hrun ⊢
    · rw [map_eq_pure_bind] at hrun
      obtain ⟨n, _, hn, hrun⟩ := run_bind_eq_ok.mp hrun
      cases hrun
      exact hvalue hn
    · cases hrun
      rfl

mutual

lemma chosen_first (h : ResolvedInputs ctx symbols) : (n : Node) → n.Everywhere ApartHere →
    ∀ {m log log'}, (resolve ctx.first n).run log = (.ok m, log') →
      chosen (·.all (ctx.holds symbols)) m.tags = chosen (ctx.late symbols) n.tags
  | .mapping fields, hkeys, m, log, log', hrun => by
    have hnodup : (Fields.keys ([] : Mapping) ++ (Fields.keys fields).map Ascription.strip).Nodup :=
      hkeys.1.once
    rw [resolve_mapping, resolveFields_of_nodup _ _ _ hnodup, Functor.map_map,
      map_eq_pure_bind] at hrun
    obtain ⟨left, _, hleft, hrun⟩ := run_bind_eq_ok.mp hrun
    cases hrun
    exact chosen_first_each h fields hkeys.2 hleft
  | .sequence items, hkeys, m, log, log', hrun => by
    obtain ⟨left, _, hleft, hrun⟩ := run_bind_eq_ok.mp hrun
    cases hrun
    -- Items that go away shift those behind them, so the two sides count from different starts.
    exact chosen_first_items h 0 0 items hkeys.2 hleft
  | .expression text, _, m, log, log', hrun => by
    rw [resolve, resolveExpression] at hrun
    split at hrun
    · cases hrun
      rfl
    case isFalse hd =>
      have hvalue := run_evaluated ctx.first text log
      rw [hrun] at hvalue
      cases hvalue
      exact chosen_of_isResolved (evaluate_first_isResolved h (Bool.eq_false_iff.mpr hd))
  | .tag name args, _, m, log, log', hrun => chosen_of_isResolved (runTag_isResolved h hrun)
  | .conditional condition value, hkeys, m, log, log', hrun => by
    obtain ⟨kept, _, hkept, hrun⟩ := run_bind_eq_ok.mp hrun
    cases hrun
    rw [← chosen_kept (chosen_first h value hkeys.2) hkept]
    cases kept <;> rfl
  | .null, _, _, _, _, hrun | .bool _, _, _, _, _, hrun | .int _, _, _, _, _, hrun
  | .float _, _, _, _, _, hrun | .string _, _, _, _, _, hrun => by
    cases hrun
    rfl

lemma chosen_first_items (h : ResolvedInputs ctx symbols) (start start' : Nat) :
    (items : List Node) → ItemsEverywhere ApartHere items →
    ∀ {left log log'}, (resolveItems ctx.first items).run log = (.ok left, log') →
      chosen (·.all (ctx.holds symbols)) (itemsTags start' left) =
        chosen (ctx.late symbols) (itemsTags start items)
  | [], _, left, log, log', hrun => by
    cases hrun
    rfl
  | item :: rest, hkeys, left, log, log', hrun => by
    have hitem : ∀ {n log log'}, (resolve ctx.first item).run log = (.ok n, log') →
        chosen (·.all (ctx.holds symbols)) n.tags = chosen (ctx.late symbols) item.tags :=
      chosen_first h item hkeys.1
    rw [itemsTags, chosen_append, chosen_lift]
    cases item with
    | conditional condition value =>
      obtain ⟨kept, _, hkept, hrun⟩ := run_bind_eq_ok.mp hrun
      obtain ⟨more, _, hmore, hrun⟩ := run_bind_eq_ok.mp hrun
      cases hrun
      have hfirst := chosen_kept (chosen_first h value hkeys.1.2) hkept
      cases kept with
      | none =>
        simp only [Option.toList_none, List.nil_append]
        rw [chosen_first_items h (start + 1) start' rest hkeys.2 hmore]
        exact congrArg (· ++ _) hfirst
      | some n =>
        rw [Option.toList_some, List.singleton_append, itemsTags, chosen_append, chosen_lift,
          chosen_first_items h (start + 1) _ rest hkeys.2 hmore]
        exact congrArg (· ++ _) hfirst
    | _ =>
      obtain ⟨n, _, hn, hrun⟩ := run_bind_eq_ok.mp hrun
      obtain ⟨more, _, hmore, hrun⟩ := run_bind_eq_ok.mp hrun
      cases hrun
      rw [itemsTags, chosen_append, chosen_lift,
        chosen_first_items h (start + 1) _ rest hkeys.2 hmore]
      exact congrArg (· ++ _) (hitem hn)

lemma chosen_first_each (h : ResolvedInputs ctx symbols) : (fields : List (String × Node)) →
    FieldsEverywhere ApartHere fields →
    ∀ {left log log'}, (resolveEach ctx.first fields).run log = (.ok left, log') →
      chosen (·.all (ctx.holds symbols)) (fieldsTags left) =
        chosen (ctx.late symbols) (fieldsTags fields)
  | [], _, left, log, log', hrun => by
    cases hrun
    rfl
  | (key, value) :: rest, hkeys, left, log, log', hrun => by
    obtain ⟨n, _, hn, hrun⟩ := run_bind_eq_ok.mp hrun
    obtain ⟨more, _, hmore, hrun⟩ := run_bind_eq_ok.mp hrun
    cases hrun
    rw [fieldsTags, fieldsTags, chosen_append, chosen_append, chosen_lift, chosen_lift,
      chosen_first_each h rest hkeys.2 hmore]
    exact congrArg (· ++ _) (chosen_first h value hkeys.1 hn)

end

def Context.earlyTags (ctx : Context) (symbols : Mapping) (doc : Node) : List Occurrence :=
  doc.tags.filter fun o => ctx.early symbols o.conditions

def Context.lateTags (ctx : Context) (symbols : Mapping) (doc : Node) : List Occurrence :=
  doc.tags.filter fun o => ctx.late symbols o.conditions

lemma perm_keptTags (ctx : Context) (symbols : Mapping) (doc : Node) :
    (ctx.earlyTags symbols doc ++ ctx.lateTags symbols doc).Perm
      (doc.tags.filter fun o => o.conditions.all (ctx.holds symbols)) := by
  have hsplit := List.filter_append_perm (fun o : Occurrence => o.conditions.any ctx.first.defers)
    (doc.tags.filter fun o => o.conditions.all (ctx.holds symbols))
  rw [List.filter_filter, List.filter_filter] at hsplit
  exact List.perm_append_comm.trans hsplit

lemma count_runs {doc : Node} (hkeys : doc.Everywhere ApartHere) {address : Address} {name : String}
    {args : List String} (hat : doc.at? address = some (.tag name args)) :
    ((ctx.earlyTags symbols doc ++ ctx.lateTags symbols doc).map (·.address)).count address =
      if (doc.conditionsTo address).all (ctx.holds symbols) then 1 else 0 := by
  have hnodup : ((doc.tags.filter fun o => o.conditions.all (ctx.holds symbols)).map
      (·.address)).Nodup := (nodup_tags doc hkeys).sublist (List.filter_sublist.map _)
  rw [((perm_keptTags ctx symbols doc).map _).count_eq, hnodup.count]
  congr 1
  rw [eq_iff_iff, List.mem_map]
  constructor
  · rintro ⟨o, ho, rfl⟩
    obtain ⟨hmem, hholds⟩ := List.mem_filter.mp ho
    rwa [← ((mem_tags_iff hkeys).mp hmem).2]
  · intro hholds
    let o : Occurrence := ⟨⟨name, args⟩, address, doc.conditionsTo address⟩
    have hmem : o ∈ doc.tags := (mem_tags_iff hkeys).mpr ⟨hat, rfl⟩
    exact ⟨o, List.mem_filter.mpr ⟨hmem, hholds⟩, rfl⟩

/-- The runs of tags in the two passes over a document: a tag is run once if all conditions around
it hold, and else never. -/
structure TagsRunOnce (ctx : Context) (symbols : Mapping) (doc : Node) : Prop where
  listed : ∀ o, o ∈ doc.tags ↔ doc.at? o.address = some (.tag o.name o.args) ∧
    o.conditions = doc.conditionsTo o.address
  first : ∀ log, RunsInOrder ctx.first doc log
    ((ctx.earlyTags symbols doc).map (·.toInvocation))
  second : ∀ log tree between, (resolve ctx.first doc).run log = (.ok tree, between) →
    RunsInOrder (ctx.second symbols) tree between ((ctx.lateTags symbols doc).map (·.toInvocation))
  both : ∀ log config log', (Load.resolveTwice ctx symbols doc).run log = (.ok config, log') →
    tagRuns log' = tagRuns log ++
      (ctx.earlyTags symbols doc ++ ctx.lateTags symbols doc).map (·.event)
  once : ∀ address name args, doc.at? address = some (.tag name args) →
    ((ctx.earlyTags symbols doc ++ ctx.lateTags symbols doc).map (·.address)).count address =
      if (doc.conditionsTo address).all (ctx.holds symbols) then 1 else 0

lemma runsInOrder_first (ctx : Context) (symbols : Mapping) (doc : Node) (log : Log) :
    RunsInOrder ctx.first doc log ((ctx.earlyTags symbols doc).map (·.toInvocation)) := by
  have hruns := runsInOrder ctx.first doc log
  rwa [funext (all_takes_first symbols)] at hruns

lemma runsInOrder_second (h : ResolvedInputs ctx symbols) {doc tree : Node}
    (hkeys : doc.Everywhere ApartHere) {log between : Log}
    (hfirst : (resolve ctx.first doc).run log = (.ok tree, between)) :
    RunsInOrder (ctx.second symbols) tree between
      ((ctx.lateTags symbols doc).map (·.toInvocation)) := by
  have hruns := runsInOrder (ctx.second symbols) tree between
  rwa [takes_second, chosen_first h doc hkeys hfirst] at hruns

theorem resolveTwice_runs_once (h : ResolvedInputs ctx symbols) {doc : Node}
    (hkeys : doc.Everywhere ApartHere) : TagsRunOnce ctx symbols doc where
  listed _ := mem_tags_iff hkeys
  first := runsInOrder_first ctx symbols doc
  second _ _ _ hfirst := runsInOrder_second h hkeys hfirst
  both log config log' hrun := by
    obtain ⟨tree, between, hfirst, hsecond⟩ := run_bind_eq_ok.mp hrun
    rw [(runsInOrder_second h hkeys hfirst).records config log' hsecond,
      (runsInOrder_first ctx symbols doc log).records tree between hfirst, List.append_assoc,
      List.map_append, List.map_map, List.map_map]
    rfl
  once _ _ _ hat := count_runs hkeys hat

def ticketTree : Node := .mapping [
  ("first<Ticket>", .tag "ticket" ["a"]),
  ("tickets", .sequence [
    .conditional "$debug" (.tag "ticket" ["late"]),
    .conditional "$ENV.QUIET" (.tag "boom" []),
    .tag "ticket" ["early"]])]

lemma countingInputs_resolved : ResolvedInputs countingContext sampleSymbols where
  environment := sampleInputs_settled.resolved.environment
  symbols := sampleInputs_settled.resolved.symbols
  tags := by
    intro name handler h args earlier n hn
    have hm := Fields.mem_of_get? h
    simp only [countingContext, List.mem_singleton, Prod.mk.injEq] at hm
    obtain ⟨-, rfl⟩ := hm
    cases hn
    rfl

theorem resolveTwice_runs_once_tickets :
    TagsRunOnce countingContext sampleSymbols ticketTree ∧
    (countingContext.earlyTags sampleSymbols ticketTree).map (·.address) =
      [[.field "first<Ticket>"], [.field "tickets", .item 2]] ∧
    (countingContext.lateTags sampleSymbols ticketTree).map (·.address) =
      [[.field "tickets", .item 0, .value]] ∧
    ((Load.resolveTwice countingContext sampleSymbols ticketTree).run []).1 = .ok (.mapping [
      ("first", .int 0), ("tickets", .sequence [.int 2, .int 1])]) := by
  have hkeys : ticketTree.Everywhere ApartHere := by
    simp only [ticketTree, Everywhere, ItemsEverywhere, FieldsEverywhere, ApartHere, Fields.keys]
    decide +kernel
  exact ⟨resolveTwice_runs_once countingInputs_resolved hkeys, by cbv, by cbv, by cbv⟩

end LayeredConfig.Resolution
