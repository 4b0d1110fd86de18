import LayeredConfig.Load.Pipeline
import LayeredConfig.Proofs.Node.Bare
import LayeredConfig.Proofs.Success

namespace LayeredConfig

def Tag.Registry.AgreeOn (registry : Registry) (place : Place) (files : FileSystem) (log : Log) :
    Prop :=
  ∀ name args, .runningTag name args ∈ log →
    ∀ handler, Fields.get? registry name = some handler →
      ∀ earlier, handler ⟨args, { place with files := files }, earlier⟩ =
        handler ⟨args, place, earlier⟩

lemma Tag.Registry.AgreeOn.mono {registry : Registry} {place : Place} {files : FileSystem}
    {log log' : Log} (hsub : log ⊆ log') (h : registry.AgreeOn place files log') :
    registry.AgreeOn place files log :=
  fun name args hm => h name args (hsub hm)

namespace Resolution

open Ascription

lemma single_below {chains : Chains}
    (hsingle : ∀ keys, chains keys → ∀ key ∈ keys, strip (strip key) = strip key) (key : String) :
    ∀ keys, (chains.below key) keys → ∀ key ∈ keys, strip (strip key) = strip key :=
  fun keys hkeys other hm => hsingle (key :: keys) hkeys other (List.mem_cons_of_mem _ hm)

mutual

lemma resolve_bare (ctx : Context) {chains : Chains}
    (hsingle : ∀ keys, chains keys → ∀ key ∈ keys, strip (strip key) = strip key) :
    (n : Node) → n.KeysIn chains → resolve ctx n.bare = resolve ctx n
  | .mapping fields, h => by
    rw [Node.bare, resolve, resolve, resolveFields_bare ctx hsingle [] fields h]
  | .null, _ | .bool _, _ | .int _, _ | .float _, _ | .string _, _ | .sequence _, _
  | .expression _, _ | .tag _ _, _ | .conditional _ _, _ => rfl

lemma resolveFields_bare (ctx : Context) {chains : Chains}
    (hsingle : ∀ keys, chains keys → ∀ key ∈ keys, strip (strip key) = strip key)
    (done : Mapping) : (fields : List (String × Node)) → Node.FieldsKeysIn chains fields →
      resolveFields ctx done (Node.bareFields fields) = resolveFields ctx done fields
  | [], _ => rfl
  | (key, value) :: rest, ⟨hkey, hvalue, hrest⟩ => by
    have hstrip := hsingle [key] hkey key List.mem_cons_self
    have hbelow := single_below hsingle key
    simp only [Node.bareFields, resolveFields, hstrip, resolve_bare ctx hbelow value hvalue,
      resolveFields_bare ctx hsingle _ rest hrest]

end

variable {α β : Type} {registry : Tag.Registry} {place : Tag.Place} {files : FileSystem}

/-- The second run does the same as the first, whose log grows, if over the files the handlers
answer alike to what the first one calls. -/
structure Follows (registry : Tag.Registry) (place : Tag.Place) (files : FileSystem)
    (run run' : Run α) : Prop where
  grows : ∀ log, log ⊆ (run.run log).2
  same : ∀ log, registry.AgreeOn place files (run.run log).2 → run'.run log = run.run log

namespace Follows

lemma of_grows {run : Run α} (h : ∀ log, log ⊆ (run.run log).2) :
    Follows registry place files run run :=
  ⟨h, fun _ _ => rfl⟩

lemma pure (a : α) : Follows registry place files (pure a : Run α) (pure a) :=
  of_grows fun log => List.Subset.refl log

lemma note (e : Event) : Follows registry place files (note e) (note e) :=
  of_grows fun log => List.subset_append_left log [e]

lemma bind {run run' : Run α} {f f' : α → Run β} (h : Follows registry place files run run')
    (hf : ∀ a, Follows registry place files (f a) (f' a)) :
    Follows registry place files (run >>= f) (run' >>= f') := by
  refine ⟨fun log => ?_, fun log hagree => ?_⟩
  · have hgrows := h.grows log
    rcases hrun : run.run log with ⟨_ | a, between⟩
    · rw [hrun] at hgrows
      rw [run_bind_of_error hrun]
      exact hgrows
    · rw [hrun] at hgrows
      rw [run_bind_of_ok hrun]
      exact List.Subset.trans hgrows ((hf a).grows between)
  · have hsame := h.same log
    rcases hrun : run.run log with ⟨e | a, between⟩
    · rw [run_bind_of_error hrun] at hagree ⊢
      rw [hrun] at hsame
      exact run_bind_of_error (hsame hagree)
    · -- What the first step calls is still on record when the second one has run.
      rw [run_bind_of_ok hrun] at hagree ⊢
      rw [hrun] at hsame
      rw [run_bind_of_ok (hsame (hagree.mono ((hf a).grows between)))]
      exact (hf a).same between hagree

end Follows

def Context.over (ctx : Context) (files : FileSystem) : Context :=
  { ctx with place := { ctx.place with files := files } }

variable (ctx : Context)

lemma follows_runTag (name : String) (args : List String) :
    Follows ctx.registry ctx.place files (runTag ctx name args)
      (runTag (ctx.over files) name args) := by
  refine ⟨fun log => ?_, fun log hagree => ?_⟩
  · change log ⊆ (ctx.registry.run name args ctx.place log).2
    rw [Tag.Registry.run]
    split
    · exact List.Subset.refl log
    · exact List.subset_append_left log _
  · change ctx.registry.run name args { ctx.place with files := files } log =
      ctx.registry.run name args ctx.place log
    change ctx.registry.AgreeOn ctx.place files (ctx.registry.run name args ctx.place log).2
      at hagree
    rw [Tag.Registry.run] at hagree
    rw [Tag.Registry.run, Tag.Registry.run]
    cases hname : Fields.get? ctx.registry name with
    | none => rfl
    | some handler =>
      simp only [hname] at hagree ⊢
      have hcall : Event.runningTag name args ∈ log ++ [.runningTag name args] := by simp
      rw [hagree name args hcall handler hname]

lemma follows_evaluated (text : String) :
    Follows registry place files (evaluated ctx text) (evaluated (ctx.over files) text) := by
  change Follows registry place files (evaluated ctx text) (evaluated ctx text)
  rw [evaluated]
  split
  · exact .bind (.note _) fun _ => .pure _
  · exact .pure _

lemma follows_resolveExpression (text : String) :
    Follows registry place files (resolveExpression ctx text)
      (resolveExpression (ctx.over files) text) := by
  change Follows registry place files (resolveExpression ctx text) (resolveExpression ctx text)
  rw [resolveExpression]
  split
  · exact .bind (.note _) fun _ => .pure _
  · exact follows_evaluated ctx text

lemma follows_keepIf (condition : String) (value : Node) {run run' : Run Node}
    (h : Follows registry place files run run') :
    Follows registry place files (keepIf ctx condition value run)
      (keepIf (ctx.over files) condition value run') := by
  change Follows registry place files (keepIf ctx condition value run)
    (keepIf ctx condition value run')
  rw [keepIf, keepIf]
  split
  · exact .bind (.note _) fun _ => .pure _
  · refine .bind (follows_evaluated ctx condition) fun n => ?_
    split
    · exact .bind h fun _ => .pure _
    · exact .pure _

mutual

lemma follows_resolve : (n : Node) →
    Follows ctx.registry ctx.place files (resolve ctx n) (resolve (ctx.over files) n)
  | .mapping fields => by
    rw [resolve, resolve]
    exact .bind (follows_resolveFields [] fields) fun _ => .pure _
  | .sequence items => by
    rw [resolve, resolve]
    exact .bind (follows_resolveItems items) fun _ => .pure _
  | .expression text => by
    rw [resolve, resolve]
    exact follows_resolveExpression ctx text
  | .tag name args => by
    rw [resolve, resolve]
    exact follows_runTag ctx name args
  | .conditional condition value => by
    rw [resolve, resolve]
    exact .bind (follows_keepIf ctx condition value (follows_resolve value)) fun _ => .pure _
  | .null | .bool _ | .int _ | .float _ | .string _ => .pure _

lemma follows_resolveItems : (items : List Node) → Follows ctx.registry ctx.place files
    (resolveItems ctx items) (resolveItems (ctx.over files) items)
  | [] => .pure _
  | item :: rest => by
    have hrest := follows_resolveItems rest
    have hitem := follows_resolve item
    cases item with
    | conditional condition value =>
      rw [resolveItems, resolveItems]
      refine .bind (follows_keepIf ctx condition value (follows_resolve value)) fun _ => ?_
      exact .bind hrest fun _ => .pure _
    | _ =>
      simp only [resolveItems]
      exact .bind hitem fun _ => .bind hrest fun _ => .pure _

lemma follows_resolveFields (done : Mapping) : (fields : List (String × Node)) →
    Follows ctx.registry ctx.place files (resolveFields ctx done fields)
      (resolveFields (ctx.over files) done fields)
  | [] => .pure _
  | (key, value) :: rest => by
    rw [resolveFields, resolveFields]
    exact .bind (follows_resolve value) fun _ => follows_resolveFields _ rest

end

lemma keys_of_resolveFields {ctx : Context} {done resolved : Mapping}
    {fields : List (String × Node)} {log log' : Log}
    (h : (resolveFields ctx done fields).run log = (.ok resolved, log')) :
    ∀ name ∈ Fields.keys resolved,
      name ∈ Fields.keys done ∨ ∃ key ∈ Fields.keys fields, name = strip key := by
  induction fields generalizing done log with
  | nil =>
    cases h
    exact fun name hm => .inl hm
  | cons field rest ih =>
    obtain ⟨key, value⟩ := field
    obtain ⟨v, between, -, h⟩ := run_bind_eq_ok.mp h
    intro name hm
    obtain hdone | ⟨other, hother, heq⟩ := ih h name hm
    · obtain ⟨f, hf, rfl⟩ := List.mem_map.mp hdone
      obtain rfl | hf := Fields.mem_insert hf
      · exact .inr ⟨key, List.mem_cons_self, rfl⟩
      · exact .inl (List.mem_map_of_mem hf)
    · exact .inr ⟨other, List.mem_cons_of_mem _ hother, heq⟩

lemma mapping_of_resolve {ctx : Context} {fields : Mapping} {n : Node} {log log' : Log}
    (h : (resolve ctx (.mapping fields)).run log = (.ok n, log')) :
    ∃ resolved, n = .mapping resolved ∧
      ∀ name ∈ Fields.keys resolved, ∃ key ∈ Fields.keys fields, name = strip key := by
  obtain ⟨resolved, between, hresolved, h⟩ := run_bind_eq_ok.mp h
  cases h
  exact ⟨resolved, rfl, fun name hm =>
    (keys_of_resolveFields hresolved name hm).resolve_left List.not_mem_nil⟩

lemma sequence_of_resolve {ctx : Context} {items : List Node} {n : Node} {log log' : Log}
    (h : (resolve ctx (.sequence items)).run log = (.ok n, log')) : ∃ resolved, n = .sequence resolved := by
  obtain ⟨resolved, between, -, h⟩ := run_bind_eq_ok.mp h
  cases h
  exact ⟨resolved, rfl⟩

end Resolution

end LayeredConfig
