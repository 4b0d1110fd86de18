import LayeredConfig.FileSystem.Listing
import LayeredConfig.Outline.Reader
import LayeredConfig.Proofs.Node.Outlined
import LayeredConfig.Proofs.Node.Rekeyed
import LayeredConfig.Proofs.Resolution.Inputs
import LayeredConfig.Tag.Standard

/-! A later pass over a tree in which nothing is left to resolve: every key loses one more
annotation, and nothing else happens. -/

namespace LayeredConfig

open Ascription

namespace Resolution

open Node Tag

variable {ctx : Context}

mutual

lemma resolve_of_isResolved (ctx : Context) : (n : Node) → n.isResolved = true →
    resolve ctx n = pure n.rekeyed
  | .mapping fields, h => by
    rw [resolve, resolveFields_of_isResolved ctx [] fields h, pure_bind]
    rfl
  | .sequence items, h => by
    rw [resolve, resolveItems_of_isResolved ctx items h, pure_bind]
    rfl
  | .null, _ | .bool _, _ | .int _, _ | .float _, _ | .string _, _ => rfl

lemma resolveItems_of_isResolved (ctx : Context) : (items : List Node) →
    itemsResolved items = true → resolveItems ctx items = pure (rekeyedItems items)
  | [], _ => rfl
  | item :: rest, h => by
    obtain ⟨hitem, hrest⟩ := Bool.and_eq_true_iff.mp h
    have hkind : item.kind ≠ .conditional := by
      cases item with
      | conditional => cases hitem
      | _ => simp [kind]
    rw [resolveItems_cons hkind, resolve_of_isResolved ctx item hitem,
      resolveItems_of_isResolved ctx rest hrest, pure_bind, pure_bind]
    rfl

lemma resolveFields_of_isResolved (ctx : Context) (done : Mapping) :
    (fields : List (String × Node)) → fieldsResolved fields = true →
    resolveFields ctx done fields = pure (Fields.insertAll done (rekeyedFields fields))
  | [], _ => rfl
  | (key, value) :: rest, h => by
    obtain ⟨hvalue, hrest⟩ := Bool.and_eq_true_iff.mp h
    rw [resolveFields, resolve_of_isResolved ctx value hvalue, pure_bind,
      resolveFields_of_isResolved ctx _ rest hrest]
    rfl

end

structure AtomInputs (ctx : Context) : Prop where
  environment : ∀ name n, ctx.scope.environment.get? name = some n → n.isAtom = true
  symbols : ∀ name n, Fields.get? ctx.scope.symbols name = some n → n.isAtom = true
  tags : ∀ name handler, Fields.get? ctx.registry name = some handler →
    ∀ args earlier n, handler ⟨args, ctx.place, earlier⟩ = .ok n → n.isAtom = true

section

variable {p : String → Prop}

lemma keyed_of_isAtom {n : Node} (h : n.isAtom = true) : n.Everywhere (KeyedHere p) := by
  cases n with
  | mapping | sequence | expression | conditional => cases h
  | _ => trivial

lemma keyed_insert {done : Mapping}
    (hdone : (Fields.keys done).Nodup ∧ ∀ key ∈ Fields.keys done, p key) {name : String} (hname : p name) (value : Node) :
    (Fields.keys (Fields.insert done name value)).Nodup ∧
      ∀ key ∈ Fields.keys (Fields.insert done name value), p key := by
  refine ⟨Fields.nodup_insert hdone.1 name value, fun key hkey => ?_⟩
  obtain ⟨field, hfield, rfl⟩ := List.mem_map.mp hkey
  obtain rfl | hfield := Fields.mem_insert hfield
  · exact hname
  · exact hdone.2 _ (List.mem_map_of_mem hfield)

variable (h : AtomInputs ctx) {log log' : Log}

lemma keyed_keepIf {condition : String} {value : Node} {resolved : Run Node}
    (hvalue : ∀ {n log log'}, resolved.run log = (.ok n, log') → n.isResolved = true →
      n.Everywhere (KeyedHere p))
    {kept : Option Node} (hrun : (keepIf ctx condition value resolved).run log = (.ok kept, log')) :
    ∀ n ∈ kept, n.isResolved = true → n.Everywhere (KeyedHere p) := by
  rw [keepIf] at hrun
  split at hrun
  · cases hrun
    rintro _ ⟨⟩ hn
    cases hn
  · obtain ⟨decision, _, -, hrun⟩ := run_bind_eq_ok.mp hrun
    split at hrun
    · obtain ⟨n, _, hn, hrun⟩ := run_bind_eq_ok.mp hrun
      cases hrun
      rintro _ ⟨⟩
      exact hvalue hn
    · cases hrun
      rintro _ ⟨⟩

include h

lemma isAtom_of_origin {n : Node} (hn : Formula.Origin ctx.scope n) : n.isAtom = true := by
  cases hn with
  | null | text => rfl
  | computed hn =>
    cases n with
    | bool | int | float => rfl
    | _ => cases hn
  | «variable» hn => exact h.environment _ _ hn
  | symbol hn => exact h.symbols _ _ hn

lemma keyed_evaluated {text : String} {n : Node}
    (hrun : (evaluated ctx text).run log = (.ok n, log')) : n.Everywhere (KeyedHere p) := by
  have hvalue := run_evaluated ctx text log
  rw [hrun] at hvalue
  cases hvalue
  exact keyed_of_isAtom (isAtom_of_origin h (Formula.evaluate_origin _ _))

lemma keyed_runTag {name : String} {args : List String} {n : Node}
    (hrun : (runTag ctx name args).run log = (.ok n, log')) : n.Everywhere (KeyedHere p) := by
  obtain ⟨handler, hg, hr, -⟩ := run_runTag hrun
  exact keyed_of_isAtom (h.tags name handler hg args _ n hr)

end

mutual

lemma keyed_resolve {p : String → Prop} (h : AtomInputs ctx) : (n : Node) →
    (∀ key, n.HasKey key → p (strip key)) → ∀ {m log log'},
    (resolve ctx n).run log = (.ok m, log') → m.isResolved = true → m.Everywhere (KeyedHere p)
  | .mapping fields, hkeys, _, _, _, hrun, hm => by
    obtain ⟨resolved, _, hfields, hrun⟩ := run_bind_eq_ok.mp hrun
    cases hrun
    have hnames : ∀ key ∈ Fields.keys fields, p (strip key) :=
      fun key hkey => hkeys key ⟨fields, .here, hkey⟩
    have hvalues : ∀ field ∈ fields, ∀ key, field.2.HasKey key → p (strip key) := by
      rintro field hfield key ⟨below, hbelow, hkey⟩
      exact hkeys key ⟨below, (Within.here.field hfield).trans hbelow, hkey⟩
    have hempty : (Fields.keys ([] : Mapping)).Nodup ∧ ∀ key ∈ Fields.keys ([] : Mapping), p key :=
      ⟨List.nodup_nil, fun _ hkey => absurd hkey List.not_mem_nil⟩
    have hnone : ∀ field ∈ ([] : Mapping), field.2.isResolved = true →
        field.2.Everywhere (KeyedHere p) := fun _ hfield => absurd hfield List.not_mem_nil
    exact keyed_resolveFields h fields hnames hvalues hempty hnone hfields hm
  | .sequence items, hkeys, _, _, _, hrun, hm => by
    obtain ⟨resolved, _, hitems, hrun⟩ := run_bind_eq_ok.mp hrun
    cases hrun
    have hvalues : ∀ item ∈ items, ∀ key, item.HasKey key → p (strip key) := by
      rintro item hitem key ⟨below, hbelow, hkey⟩
      exact hkeys key ⟨below, (Within.here.item hitem).trans hbelow, hkey⟩
    exact ⟨trivial, keyed_resolveItems h items hvalues hitems hm⟩
  | .expression text, _, _, _, _, hrun, hm => by
    rw [resolve, resolveExpression] at hrun
    split at hrun
    · cases hrun
      cases hm
    · exact keyed_evaluated h hrun
  | .tag name args, _, _, _, _, hrun, _ => keyed_runTag h hrun
  | .conditional condition value, hkeys, _, _, _, hrun, hm => by
    obtain ⟨kept, _, hkept, hrun⟩ := run_bind_eq_ok.mp hrun
    cases hrun
    have hbelow : ∀ key, value.HasKey key → p (strip key) := by
      rintro key ⟨below, hbelow, hkey⟩
      exact hkeys key ⟨below, Within.here.branch.trans hbelow, hkey⟩
    have hresolved := keyed_keepIf (keyed_resolve h value hbelow) hkept
    cases kept with
    | none => trivial
    | some n => exact hresolved n rfl hm
  | .null, _, _, _, _, hrun, _ | .bool _, _, _, _, _, hrun, _ | .int _, _, _, _, _, hrun, _
  | .float _, _, _, _, _, hrun, _ | .string _, _, _, _, _, hrun, _ => by
    cases hrun
    trivial

lemma keyed_resolveItems {p : String → Prop} (h : AtomInputs ctx) : (items : List Node) →
    (∀ item ∈ items, ∀ key, item.HasKey key → p (strip key)) → ∀ {resolved log log'},
    (resolveItems ctx items).run log = (.ok resolved, log') → itemsResolved resolved = true →
    ItemsEverywhere (KeyedHere p) resolved
  | [], _, _, _, _, hrun, _ => by
    cases hrun
    trivial
  | item :: rest, hkeys, _, _, _, hrun, hm => by
    obtain ⟨hitem, hrest⟩ := List.forall_mem_cons.mp hkeys
    have hkeyed : ∀ {m log log'}, (resolve ctx item).run log = (.ok m, log') →
        m.isResolved = true → m.Everywhere (KeyedHere p) := keyed_resolve h item hitem
    cases item with
    | conditional condition value =>
      obtain ⟨kept, _, hkept, hrun⟩ := run_bind_eq_ok.mp hrun
      obtain ⟨more, _, hmore, hrun⟩ := run_bind_eq_ok.mp hrun
      cases hrun
      have hbelow : ∀ key, value.HasKey key → p (strip key) := by
        rintro key ⟨below, hbelow, hkey⟩
        exact hitem key ⟨below, Within.here.branch.trans hbelow, hkey⟩
      have hresolved := keyed_keepIf (keyed_resolve h value hbelow) hkept
      rw [itemsResolved_iff, List.forall_mem_append] at hm
      rw [itemsEverywhere_iff, List.forall_mem_append]
      refine ⟨fun n hn => hresolved n (Option.mem_toList.mp hn) (hm.1 n hn), ?_⟩
      have hmrest := itemsResolved_iff.mpr hm.2
      exact itemsEverywhere_iff.mp (keyed_resolveItems h rest hrest hmore hmrest)
    | _ =>
      obtain ⟨n, _, hn, hrun⟩ := run_bind_eq_ok.mp hrun
      obtain ⟨more, _, hmore, hrun⟩ := run_bind_eq_ok.mp hrun
      cases hrun
      obtain ⟨hmitem, hmrest⟩ := Bool.and_eq_true_iff.mp hm
      exact ⟨hkeyed hn hmitem, keyed_resolveItems h rest hrest hmore hmrest⟩

lemma keyed_resolveFields {p : String → Prop} (h : AtomInputs ctx) :
    (fields : List (String × Node)) → (∀ key ∈ Fields.keys fields, p (strip key)) →
    (∀ field ∈ fields, ∀ key, field.2.HasKey key → p (strip key)) → ∀ {done resolved log log'},
    ((Fields.keys done).Nodup ∧ ∀ key ∈ Fields.keys done, p key) →
    (∀ field ∈ done, field.2.isResolved = true → field.2.Everywhere (KeyedHere p)) →
    (resolveFields ctx done fields).run log = (.ok resolved, log') →
    fieldsResolved resolved = true → (Node.mapping resolved).Everywhere (KeyedHere p)
  | [], _, _, _, _, _, _, hdone, hvalues, hrun, hm => by
    cases hrun
    rw [fieldsResolved_iff] at hm
    refine ⟨hdone, fieldsEverywhere_iff.mpr fun field hfield => ?_⟩
    exact hvalues field hfield (hm field hfield)
  | (key, value) :: rest, hnames, hkeys, _, _, _, _, hdone, hvalues, hrun, hm => by
    obtain ⟨n, _, hn, hrun⟩ := run_bind_eq_ok.mp hrun
    obtain ⟨hname, hnames⟩ := List.forall_mem_cons.mp hnames
    obtain ⟨hkey, hkeys⟩ := List.forall_mem_cons.mp hkeys
    -- a key that comes back is written over, so that the keys stay distinct
    refine keyed_resolveFields h rest hnames hkeys (keyed_insert hdone hname n) ?_ hrun hm
    intro field hfield
    obtain rfl | hfield := Fields.mem_insert hfield
    · exact keyed_resolve h value hkey hn
    · exact hvalues field hfield

end

lemma isAtom_of_standard {name : String} {handler : Handler}
    (hname : Fields.get? standard name = some handler) {call : Call} {n : Node}
    (hn : handler call = .ok n) : n.isAtom = true := by
  have hmem := Fields.mem_of_get? hname
  have hstandard : standard = [("rgb", rgb), ("file", file)] := rfl
  rw [hstandard] at hmem
  simp only [List.mem_cons, Prod.mk.injEq, List.not_mem_nil, or_false] at hmem
  obtain ⟨-, rfl⟩ | ⟨-, rfl⟩ := hmem
  · rw [rgb] at hn
    split at hn <;> cases hn
    rfl
  · simp only [file] at hn
    split at hn
    · split at hn <;> cases hn
      rfl
    · cases hn

/-- A tree that the first pass has finished has its keys stripped once more by the second one. It
stays as it is if and only if none of its keys has an annotation left to lose, as when every key of
the document has one annotation at most. -/
theorem second_pass_of_finished {text : List Char} {symbols : Mapping}
    (hvariables : ∀ name n, ctx.place.environment.get? name = some n →
      (∃ b, n = .bool b) ∨ ∃ s, n = .string s)
    (htags : ctx.registry = standard) {n : Node} {log log' : Log}
    (hrun : (resolve ctx.first (Outline.parse text)).run log = (.ok n, log'))
    (hfinished : n.isResolved = true) :
    (∀ log, (resolve (ctx.second symbols) n).run log = (.ok n.rekeyed, log)) ∧
    (n.rekeyed = n ↔ ∀ key, n.HasKey key → strip key = key) ∧
    ((∀ key, (Outline.parse text).HasKey key → strip (strip key) = strip key) →
      ∀ log, (resolve (ctx.second symbols) n).run log = (.ok n, log)) := by
  have hinputs : AtomInputs ctx.first := by
    refine ⟨fun name m hm => ?_, nofun, fun name handler hname args earlier m hm => ?_⟩
    · obtain ⟨b, rfl⟩ | ⟨s, rfl⟩ := hvariables name m hm <;> rfl
    · exact isAtom_of_standard (htags ▸ hname) hm
  have hsecond : ∀ log, (resolve (ctx.second symbols) n).run log = (.ok n.rekeyed, log) := by
    intro log
    rw [resolve_of_isResolved _ n hfinished]
    rfl
  have hkeyed : n.Everywhere (KeyedHere fun _ => True) :=
    keyed_resolve hinputs _ (fun _ _ => trivial) hrun hfinished
  have hiff := rekeyed_eq_self_iff hfinished hkeyed
  refine ⟨hsecond, hiff, fun hsingle log => ?_⟩
  have hlost : n.Everywhere (KeyedHere fun key => strip key = key) :=
    keyed_resolve hinputs _ hsingle hrun hfinished
  rw [hsecond, hiff.mpr fun key hkey => hlost.hasKey hkey]

def greetingContext (environment : Environment) : Context where
  place := ⟨environment, ⟨"/"⟩, Listing.fileSystem [(⟨"/greeting"⟩, .ok "hello")]⟩
  symbols := none
  registry := standard

def showVariables : Environment := .ofTexts [("SHOW", "TRUE")]

def finishedText : List Char :=
  ("app<App>:\n  title<Text>: !file(/greeting)\n" ++
    "extras:\n  - if $ENV.SHOW: one\n  - two\nport = $ENV.PORT || 42\n").toList

def finishedTree : Node := .mapping [
  ("app", .mapping [("title", .string "hello")]),
  ("extras", .sequence [.string "one", .string "two"]),
  ("port", .int 42)]

def finishedDocument : Node := .mapping [
  ("app<App>", .mapping [("title<Text>", .tag "file" ["/greeting"])]),
  ("extras", .sequence [.conditional "$ENV.SHOW" (.string "one"), .string "two"]),
  ("port", .expression "$ENV.PORT || 42")]

lemma parse_finishedText : Outline.parse finishedText = finishedDocument := by cbv

lemma resolve_finishedDocument :
    ((resolve (greetingContext showVariables).first finishedDocument).run []).1 =
      .ok finishedTree := by
  cbv

lemma finishedDocument_keyed :
    finishedDocument.Everywhere (KeyedHere fun key => strip (strip key) = strip key) := by
  simp only [finishedDocument, Everywhere, FieldsEverywhere, ItemsEverywhere, KeyedHere,
    Fields.keys]
  decide +kernel

theorem second_pass_of_finished_sections :
    finishedTree.isResolved = true ∧
    ((resolve (greetingContext showVariables).first (Outline.parse finishedText)).run []).1 =
      .ok finishedTree ∧
    (∀ key, (Outline.parse finishedText).HasKey key → strip (strip key) = strip key) ∧
    (resolve ((greetingContext showVariables).second [("app", .null)]) finishedTree).run [] =
      (.ok finishedTree, []) := by
  have hrun : ((resolve (greetingContext showVariables).first
      (Outline.parse finishedText)).run []).1 = .ok finishedTree :=
    parse_finishedText ▸ resolve_finishedDocument
  have hvariables : ∀ name n, (greetingContext showVariables).place.environment.get? name = some n →
      (∃ b, n = .bool b) ∨ ∃ s, n = .string s := by
    intro name n hn
    have hvars : showVariables.vars = [("SHOW", .bool true)] := by cbv
    have hmem : (name, n) ∈ showVariables.vars := Fields.mem_of_get? hn
    rw [hvars] at hmem
    cases List.mem_singleton.mp hmem
    exact .inl ⟨true, rfl⟩
  have hsingle : ∀ key, (Outline.parse finishedText).HasKey key →
      strip (strip key) = strip key := by
    rw [parse_finishedText]
    exact fun key hkey => finishedDocument_keyed.hasKey hkey
  have hfinished : finishedTree.isResolved = true := rfl
  obtain ⟨log, hfirst⟩ := exists_run_of_success (congrArg Except.toOption hrun)
  obtain ⟨-, -, hsecond⟩ := second_pass_of_finished hvariables rfl hfirst hfinished
  exact ⟨hfinished, hrun, hsingle, hsecond hsingle []⟩

theorem second_pass_strips_again :
    ((resolve (greetingContext .empty).first (Outline.parse "a<B><C>: 5\n".toList)).run []).1 =
      .ok (.mapping [("a<B>", .int 5)]) ∧
    (Node.mapping [("a<B>", .int 5)]).isResolved = true ∧
    ((resolve ((greetingContext .empty).second []) (.mapping [("a<B>", .int 5)])).run []).1 =
      .ok (.mapping [("a", .int 5)]) ∧
    Node.mapping [("a", .int 5)] ≠ .mapping [("a<B>", .int 5)] :=
  ⟨by cbv, rfl, by cbv, by simp⟩

end Resolution

end LayeredConfig
