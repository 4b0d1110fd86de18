import LayeredConfig.Proofs.Resolution.Paths
import LayeredConfig.Proofs.Resolution.Pruning

/-! Which items of a sequence are left after both passes, and what they become. -/

namespace LayeredConfig.Resolution

open Node Ascription

lemma getElem?_filter_countP {α : Type} {p : α → Bool} {items : List α} {index : Nat} {item : α}
    (hitem : items[index]? = some item) (hp : p item = true) :
    (items.filter p)[(items.take index).countP p]? = some item := by
  induction items generalizing index with
  | nil => cases hitem
  | cons first rest ih =>
    cases index with
    | zero =>
      cases hitem
      rw [List.filter_cons_of_pos hp]
      rfl
    | succ index =>
      have hrest := ih hitem
      rw [List.take_succ_cons, List.filter_cons, List.countP_cons]
      split_ifs <;> exact hrest

lemma getElem?_forall₂ {α β : Type} {r : α → β → Prop} {as : List α} {bs : List β}
    (h : List.Forall₂ r as bs) {index : Nat} {a : α} (ha : as[index]? = some a) :
    ∃ b, bs[index]? = some b ∧ r a b := by
  obtain ⟨hindex, rfl⟩ := List.getElem?_eq_some_iff.mp ha
  have hlength : index < bs.length := h.length_eq ▸ hindex
  exact ⟨bs[index], List.getElem?_eq_getElem hlength, h.get hindex hlength⟩

lemma forall₂_filter_trans {α β γ : Type} {r : α → β → Prop} {s : β → γ → Prop} {p : α → Bool}
    {q : β → Bool} {as : List α} {bs : List β} {cs : List γ} (has : List.Forall₂ r as bs)
    (hpq : ∀ a b, r a b → q b = p a) (hbs : List.Forall₂ s (bs.filter q) cs) :
    List.Forall₂ (fun a c => ∃ b, r a b ∧ s b c) (as.filter p) cs := by
  induction has generalizing cs with
  | nil =>
    cases hbs
    exact .nil
  | @cons a b as bs hab _ ih =>
    rw [List.filter_cons, hpq a b hab] at hbs
    rw [List.filter_cons]
    split_ifs at hbs ⊢
    · cases hbs with
      | cons hbc hrest => exact .cons ⟨b, hab, hbc⟩ (ih hrest)
    · exact ih hbs

variable {ctx : Context} {symbols : Mapping} {late : Bool}

def Context.leaves (ctx : Context) : Node → Bool
  | .conditional condition _ =>
    ctx.defers condition || (Formula.evaluate ctx.scope condition.toList).value.truthy
  | _ => true

def Context.keeps (ctx : Context) (symbols : Mapping) : Node → Bool
  | .conditional condition _ => ctx.holds symbols condition
  | _ => true

lemma leaves_second : (ctx.second symbols).leaves = ctx.keeps symbols := by
  funext item
  cases item <;> rfl

lemma leaves_first {item : Node} (h : ctx.keeps symbols item = true) :
    ctx.first.leaves item = true := by
  cases item with
  | conditional condition value =>
    cases hd : ctx.first.defers condition with
    | true => exact Bool.or_eq_true_iff.mpr (.inl hd)
    | false => exact Bool.or_eq_true_iff.mpr (.inr ((truthy_first symbols hd).trans h))
  | _ => rfl

section

variable (hpure : ctx.registry.PureAt ctx.place)
include hpure

lemma leaves_eq_isSome {condition : String} {value : Node} {kept : Option Node}
    (h : success (keepIf ctx condition value (resolve ctx value)) = some kept) :
    ctx.leaves (.conditional condition value) = kept.isSome := by
  rw [success_keepIf _ _ (Steady.resolve hpure value)] at h
  rw [Context.leaves]
  split_ifs at h with hd ht
  · cases h
    rw [hd, Bool.true_or, Option.isSome_some]
  · obtain ⟨n, -, rfl⟩ := Option.map_eq_some_iff.mp h
    rw [ht, Bool.or_true, Option.isSome_some]
  · cases h
    rw [Bool.eq_false_iff.mpr hd, Bool.eq_false_iff.mpr ht, Bool.or_false, Option.isSome_none]

lemma success_items {items results : List Node}
    (h : success (resolveItems ctx items) = some results) :
    List.Forall₂ (fun item n => success (resolve ctx item) = some n)
      (items.filter ctx.leaves) results := by
  induction items generalizing results with
  | nil =>
    cases h
    exact .nil
  | cons item rest ih =>
    cases item with
    | conditional condition value =>
      rw [success_items_conditional hpure] at h
      obtain ⟨kept, hkept, h⟩ := Option.bind_eq_some_iff.mp h
      obtain ⟨more, hmore, rfl⟩ := Option.map_eq_some_iff.mp h
      rw [List.filter_cons, leaves_eq_isSome hpure hkept]
      cases kept with
      | none => exact ih hmore
      | some n =>
        refine .cons ?_ (ih hmore)
        rw [resolve_conditional, success_map, hkept]
        rfl
    | _ =>
      rw [success_items_cons hpure (by simp [kind])] at h
      obtain ⟨n, hn, h⟩ := Option.bind_eq_some_iff.mp h
      obtain ⟨more, hmore, rfl⟩ := Option.map_eq_some_iff.mp h
      rw [List.filter_cons_of_pos rfl]
      exact .cons hn (ih hmore)

lemma success_fields {fields : Mapping} {n : Node}
    (hkeys : ((Fields.keys fields).map strip).Nodup)
    (h : success (resolve ctx (.mapping fields)) = some n) :
    ∃ results, n = .mapping results ∧ Fields.keys results = (Fields.keys fields).map strip ∧
      ∀ key value, Fields.get? fields key = some value →
        ∃ m, Fields.get? results (strip key) = some m ∧ success (resolve ctx value) = some m := by
  obtain ⟨log, hrun⟩ := exists_run_of_success h
  obtain ⟨results, _, hresults, hrun⟩ := run_bind_eq_ok.mp hrun
  cases hrun
  refine ⟨results, rfl, keys_resolveFields_of_nodup hresults hkeys, fun key value hget => ?_⟩
  obtain ⟨m, _, hm, hfound⟩ := resolveFields_reaches hresults hkeys hget
  exact ⟨m, hfound, (Steady.resolve hpure value).ok_iff.mp (congrArg Prod.fst hm)⟩

end

lemma keeps_of_first (h : ResolvedInputs ctx symbols) (hpure : ctx.registry.PureAt ctx.place)
    {item m : Node} (hunnested : UnnestedHere item) (hleaves : ctx.first.leaves item = true)
    (hm : success (resolve ctx.first item) = some m) :
    ctx.keeps symbols m = ctx.keeps symbols item := by
  -- The first pass does not change whether an item stays that it leaves.
  have hplain : ∀ {n : Node}, n.kind ≠ .conditional → ctx.keeps symbols n = true := by
    intro n hn
    cases n with
    | conditional => exact absurd rfl hn
    | _ => rfl
  cases item with
  | conditional condition value =>
    rw [success_conditional (pureAt_first hpure)] at hm
    cases hd : ctx.first.defers condition with
    | true =>
      rw [hd, if_pos rfl] at hm
      cases hm
      rfl
    | false =>
      rw [hd, if_neg Bool.false_ne_true] at hm
      rw [Context.leaves, hd, Bool.false_or] at hleaves
      rw [if_pos hleaves] at hm
      rw [hplain (kind_of_first h (kind_of_unnested hunnested) hm), Context.keeps,
        ← truthy_first symbols hd, hleaves]
  | _ => rw [hplain (kind_of_first h (by simp [kind]) hm), hplain (by simp [kind])]

def stripped (late : Bool) (key : String) : String := if late then strip key else strip (strip key)

def Becomes (ctx : Context) (symbols : Mapping) : Bool → Node → Node → Prop
  | true, n, m => ∀ log, ((resolve (ctx.second symbols) n).run log).1 = .ok m
  | false, n, m => ∀ log, ((Load.resolveTwice ctx symbols n).run log).1 = .ok m

section

variable (hpure : ctx.registry.PureAt ctx.place)
include hpure

lemma becomes_late {n m : Node} :
    Becomes ctx symbols true n m ↔ success (resolve (ctx.second symbols) n) = some m := by
  have hsteady : Steady (resolve (ctx.second symbols) n) :=
    Steady.resolve (pureAt_second hpure symbols) n
  exact ⟨fun h => hsteady.ok_iff.mp (h []), fun h log => hsteady.ok_iff.mpr h⟩

lemma becomes_both {n m : Node} :
    Becomes ctx symbols false n m ↔ ∃ between, success (resolve ctx.first n) = some between ∧
      success (resolve (ctx.second symbols) between) = some m := by
  have hfirst : Steady (resolve ctx.first n) := Steady.resolve (pureAt_first hpure) n
  have hsecond : ∀ tree, Steady (resolve (ctx.second symbols) tree) :=
    Steady.resolve (pureAt_second hpure symbols)
  have hboth : Steady (Load.resolveTwice ctx symbols n) := hfirst.bind hsecond
  rw [← Option.bind_eq_some_iff, ← success_bind _ hsecond]
  exact ⟨fun h => hboth.ok_iff.mp (h []), fun h log => hboth.ok_iff.mpr h⟩

lemma becomes_sequence (h : ResolvedInputs ctx symbols) {items : List Node} {m : Node}
    (hunnested : ∀ item ∈ items, UnnestedHere item)
    (hm : Becomes ctx symbols late (.sequence items) m) : ∃ results, m = .sequence results ∧
      List.Forall₂ (Becomes ctx symbols late) (items.filter (ctx.keeps symbols)) results := by
  have hsecond := pureAt_second hpure symbols
  cases late with
  | true =>
    rw [becomes_late hpure, resolve_sequence, success_map] at hm
    obtain ⟨results, hresults, rfl⟩ := Option.map_eq_some_iff.mp hm
    have hitems := success_items hsecond hresults
    rw [leaves_second] at hitems
    exact ⟨results, rfl, hitems.imp fun _ _ hitem => (becomes_late hpure).mpr hitem⟩
  | false =>
    obtain ⟨between, hfirst, hm⟩ := (becomes_both hpure).mp hm
    rw [resolve_sequence, success_map] at hfirst
    obtain ⟨left, hleft, rfl⟩ := Option.map_eq_some_iff.mp hfirst
    rw [resolve_sequence, success_map] at hm
    obtain ⟨results, hresults, rfl⟩ := Option.map_eq_some_iff.mp hm
    have hitems := success_items hsecond hresults
    rw [leaves_second] at hitems
    have hleft := success_items (pureAt_first hpure) hleft
    have hstays : ∀ item ∈ items.filter ctx.first.leaves,
        UnnestedHere item ∧ ctx.first.leaves item = true := fun item hitem =>
      ⟨hunnested item (List.mem_filter.mp hitem).1, (List.mem_filter.mp hitem).2⟩
    have hboth := forall₂_filter_trans ((List.forall₂_and_left _ _).mpr ⟨hstays, hleft⟩)
      (fun item n ⟨hitem, hn⟩ => keeps_of_first h hpure hitem.1 hitem.2 hn) hitems
    -- The first pass takes away only what the second one would take away too.
    have hkeeps : (items.filter ctx.first.leaves).filter (ctx.keeps symbols) =
        items.filter (ctx.keeps symbols) := by
      rw [List.filter_filter]
      refine List.filter_congr fun item _ => ?_
      rw [Bool.and_eq_left_iff_imp]
      exact leaves_first
    rw [hkeeps] at hboth
    refine ⟨results, rfl, hboth.imp ?_⟩
    rintro item m ⟨n, ⟨-, hn⟩, hm⟩
    exact (becomes_both hpure).mpr ⟨n, hn, hm⟩

lemma becomes_mapping {fields : Mapping} {m : Node} (hkeys : ApartHere (.mapping fields))
    (hm : Becomes ctx symbols late (.mapping fields) m) : ∃ results, m = .mapping results ∧
      ∀ key value, Fields.get? fields key = some value →
        ∃ n, Fields.get? results (stripped late key) = some n ∧ Becomes ctx symbols late value n := by
  have hsecond := pureAt_second hpure symbols
  cases late with
  | true =>
    obtain ⟨results, rfl, -, hresults⟩ :=
      success_fields hsecond hkeys.once ((becomes_late hpure).mp hm)
    refine ⟨results, rfl, fun key value hget => ?_⟩
    obtain ⟨n, hn, hvalue⟩ := hresults key value hget
    exact ⟨n, hn, (becomes_late hpure).mpr hvalue⟩
  | false =>
    obtain ⟨between, hfirst, hm⟩ := (becomes_both hpure).mp hm
    obtain ⟨left, rfl, hnames, hleft⟩ := success_fields (pureAt_first hpure) hkeys.once hfirst
    have hnodup : ((Fields.keys left).map strip).Nodup := by
      rw [hnames, List.map_map]
      exact hkeys
    obtain ⟨results, rfl, -, hresults⟩ := success_fields hsecond hnodup hm
    refine ⟨results, rfl, fun key value hget => ?_⟩
    obtain ⟨n, hn, hvalue⟩ := hleft key value hget
    obtain ⟨o, ho, hresult⟩ := hresults (strip key) n hn
    exact ⟨o, ho, (becomes_both hpure).mpr ⟨n, hvalue, hresult⟩⟩

lemma becomes_conditional {condition : String} {value m : Node}
    (hholds : ctx.holds symbols condition = true)
    (hm : Becomes ctx symbols late (.conditional condition value) m) :
    Becomes ctx symbols (late || ctx.first.defers condition) value m := by
  have hsecond : ∀ {n}, success (resolve (ctx.second symbols) (.conditional condition value)) =
      some n → success (resolve (ctx.second symbols) value) = some n := by
    intro n hn
    rw [success_conditional (pureAt_second hpure symbols), second_defers,
      if_neg Bool.false_ne_true] at hn
    exact (if_pos hholds).symm.trans hn
  cases late with
  | true =>
    rw [Bool.true_or, becomes_late hpure]
    exact hsecond ((becomes_late hpure).mp hm)
  | false =>
    obtain ⟨between, hfirst, hm⟩ := (becomes_both hpure).mp hm
    rw [success_conditional (pureAt_first hpure)] at hfirst
    rw [Bool.false_or]
    cases hd : ctx.first.defers condition with
    | true =>
      rw [hd, if_pos rfl] at hfirst
      cases hfirst
      exact (becomes_late hpure).mpr (hsecond hm)
    | false =>
      rw [hd, if_neg Bool.false_ne_true, if_pos ((truthy_first symbols hd).trans hholds)] at hfirst
      exact (becomes_both hpure).mpr ⟨between, hfirst, hm⟩

end

def movedStep (ctx : Context) (symbols : Mapping) (late : Bool) : Node → Step → Option Step
  | .mapping _, .field key => some (.field (stripped late key))
  | .sequence items, .item index => some (.item ((items.take index).countP (ctx.keeps symbols)))
  | _, _ => none

def laterIn (ctx : Context) (late : Bool) (conditions : List String) : Bool :=
  late || conditions.any ctx.first.defers

def moved (ctx : Context) (symbols : Mapping) : Bool → Node → Address → Address
  | _, _, [] => []
  | late, n, step :: rest => (movedStep ctx symbols late n step).toList ++
    (n.child? step).elim [] (moved ctx symbols (laterIn ctx late n.condition?.toList) · rest)

lemma laterIn_nil : laterIn ctx late [] = late := Bool.or_false late

lemma laterIn_append (conditions more : List String) :
    laterIn ctx late (conditions ++ more) = laterIn ctx (laterIn ctx late conditions) more := by
  simp only [laterIn, List.any_append, Bool.or_assoc]

lemma keeps_of_conditionsTo {n target : Node} {address : Address} (hat : n.at? address = some target)
    (hholds : ∀ condition ∈ n.conditionsTo address, ctx.holds symbols condition = true)
    (htarget : ctx.keeps symbols target = true) : ctx.keeps symbols n = true := by
  cases address with
  | nil =>
    cases hat
    exact htarget
  | cons step rest =>
    obtain ⟨child, hchild, -⟩ := at?_cons.mp hat
    rw [conditionsTo_cons hchild] at hholds
    cases n with
    | conditional condition value => exact hholds condition List.mem_cons_self
    | _ => rfl

section

variable (h : ResolvedInputs ctx symbols) (hpure : ctx.registry.PureAt ctx.place)
include h hpure

lemma becomes_child {n m child : Node} {step : Step} (hchild : n.child? step = some child)
    (hkeys : n.Everywhere ApartHere) (hunnested : n.Everywhere UnnestedHere)
    (hholds : ∀ condition ∈ n.condition?, ctx.holds symbols condition = true)
    (hstays : ctx.keeps symbols child = true) (hm : Becomes ctx symbols late n m) :
    ∃ r, m.at? (movedStep ctx symbols late n step).toList = some r ∧
      Becomes ctx symbols (laterIn ctx late n.condition?.toList) child r := by
  cases n with
  | mapping fields =>
    cases step with
    | field key =>
      obtain ⟨results, rfl, hresults⟩ := becomes_mapping hpure hkeys.here hm
      obtain ⟨r, hr, hbecomes⟩ := hresults key child hchild
      refine ⟨r, at?_cons.mpr ⟨r, hr, rfl⟩, ?_⟩
      change Becomes ctx symbols (laterIn ctx late []) child r
      rwa [laterIn_nil]
    | _ => cases hchild
  | sequence items =>
    cases step with
    | item index =>
      have hitems := itemsEverywhere_iff.mp hunnested.2
      obtain ⟨results, rfl, hresults⟩ :=
        becomes_sequence hpure h (fun item hitem => (hitems item hitem).here) hm
      obtain ⟨r, hr, hbecomes⟩ := getElem?_forall₂ hresults (getElem?_filter_countP hchild hstays)
      refine ⟨r, at?_cons.mpr ⟨r, hr, rfl⟩, ?_⟩
      change Becomes ctx symbols (laterIn ctx late []) child r
      rwa [laterIn_nil]
    | _ => cases hchild
  | conditional condition value =>
    cases step with
    | value =>
      cases hchild
      refine ⟨m, rfl, ?_⟩
      have hvalue := becomes_conditional hpure (hholds condition rfl) hm
      rwa [condition?, Option.toList_some, laterIn, List.any_cons, List.any_nil, Bool.or_false]
    | _ => cases hchild
  | _ => cases step <;> cases hchild

lemma becomes_at {address : Address} {n m target : Node} (hat : n.at? address = some target)
    (hkeys : n.Everywhere ApartHere) (hunnested : n.Everywhere UnnestedHere)
    (hholds : ∀ condition ∈ n.conditionsTo address, ctx.holds symbols condition = true)
    (hstays : ctx.keeps symbols target = true) (hm : Becomes ctx symbols late n m) :
    ∃ r, m.at? (moved ctx symbols late n address) = some r ∧
      Becomes ctx symbols (laterIn ctx late (n.conditionsTo address)) target r := by
  induction address generalizing n m late with
  | nil =>
    cases hat
    refine ⟨m, rfl, ?_⟩
    rwa [conditionsTo, laterIn_nil]
  | cons step rest ih =>
    obtain ⟨child, hchild, hrest⟩ := at?_cons.mp hat
    rw [conditionsTo_cons hchild] at hholds ⊢
    obtain ⟨hhere, hbelow⟩ := List.forall_mem_append.mp hholds
    have hhere : ∀ condition ∈ n.condition?, ctx.holds symbols condition = true :=
      fun condition hm => hhere condition (Option.mem_toList.mpr hm)
    obtain ⟨o, ho, hchildBecomes⟩ := becomes_child h hpure hchild hkeys hunnested hhere
      (keeps_of_conditionsTo hrest hbelow hstays) hm
    obtain ⟨r, hr, hbecomes⟩ :=
      ih hrest (hkeys.child hchild) (hunnested.child hchild) hbelow hchildBecomes
    refine ⟨r, ?_, ?_⟩
    · rw [moved, hchild, Option.elim_some, at?_append, ho]
      exact hr
    · rwa [laterIn_append]

end

/-- A sequence becomes what the items become that have no condition or one that holds, in their
order, unless it goes away itself. What goes away is never looked at. -/
structure ItemsDecided (ctx : Context) (symbols : Mapping) (doc : Node) : Prop where
  kept : ∀ log config log', (Load.resolveTwice ctx symbols doc).run log = (.ok config, log') →
    ∀ address items, doc.at? address = some (.sequence items) →
    (∀ condition ∈ doc.conditionsTo address, ctx.holds symbols condition = true) →
    ∃ results, config.at? (moved ctx symbols false doc address) = some (.sequence results) ∧
      List.Forall₂ (Becomes ctx symbols (laterIn ctx false (doc.conditionsTo address)))
        (items.filter (ctx.keeps symbols)) results
  dropped : ∀ address condition value,
    doc.at? address = some (.conditional condition value) → ctx.holds symbols condition = false →
    ∀ other, Load.resolveTwice ctx symbols (doc.put address (.conditional condition other)) =
      Load.resolveTwice ctx symbols doc

theorem resolveTwice_items (h : ResolvedInputs ctx symbols)
    (hpure : ctx.registry.PureAt ctx.place) {doc : Node} (hkeys : doc.Everywhere ApartHere)
    (hunnested : doc.Everywhere UnnestedHere) : ItemsDecided ctx symbols doc where
  kept log config log' hrun address items hat hholds := by
    have hsteady : Steady (Load.resolveTwice ctx symbols doc) :=
      (Steady.resolve (pureAt_first hpure) doc).bind
        (Steady.resolve (pureAt_second hpure symbols))
    have hconfig : Becomes ctx symbols false doc config := by
      intro other
      rw [hsteady other log, hrun]
    obtain ⟨r, hr, hbecomes⟩ := becomes_at h hpure hat hkeys hunnested hholds rfl hconfig
    have hitems := itemsEverywhere_iff.mp (hunnested.at hat).2
    obtain ⟨results, rfl, hresults⟩ :=
      becomes_sequence hpure h (fun item hitem => (hitems item hitem).here) hbecomes
    exact ⟨results, hr, hresults⟩
  dropped _ _ _ hat hdropped other := resolveTwice_put h hat hdropped other

def itemsTree : Node := .mapping [
  ("hosts<Hosts>", .sequence [
    .tag "count" ["a"],
    .conditional "$ENV.QUIET" (.tag "boom" []),
    .conditional "$debug" (.mapping [
      ("names<Names>", .sequence [
        .conditional "$host == 'remote'" (.tag "boom" []),
        .expression "$host"])]),
    .expression "$ENV.LEVEL"])]

theorem resolveTwice_items_late :
    ItemsDecided sampleContext sampleSymbols itemsTree ∧
    ((Load.resolveTwice sampleContext sampleSymbols itemsTree).run []).1 = .ok (.mapping [
      ("hosts", .sequence [
        .int 1, .mapping [("names", .sequence [.string "localhost"])], .string "low"])]) ∧
    moved sampleContext sampleSymbols false itemsTree
        [.field "hosts<Hosts>", .item 2, .value, .field "names<Names>"] =
      [.field "hosts", .item 1, .field "names"] := by
  have hkeys : itemsTree.Everywhere ApartHere := by
    simp only [itemsTree, Everywhere, ItemsEverywhere, FieldsEverywhere, ApartHere, Fields.keys]
    decide +kernel
  have hunnested : itemsTree.Everywhere UnnestedHere := by
    simp [itemsTree, Everywhere, ItemsEverywhere, FieldsEverywhere, UnnestedHere]
  have hinputs := sampleInputs_settled
  exact ⟨resolveTwice_items hinputs.resolved hinputs.pure hkeys hunnested, by cbv, by cbv⟩

end LayeredConfig.Resolution
