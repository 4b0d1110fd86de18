import LayeredConfig.Proofs.Ascription.Recordable
import LayeredConfig.Proofs.Resolution.Passes

/-! The recorded path of an annotated key leads to what both passes make of its value. -/

namespace LayeredConfig.Resolution

open Ascription Node Tag

def logAt (ctx : Context) : List String → Node → Log → Log
  | key :: rest, .mapping fields, log =>
    match Fields.get? fields key with
    | some value =>
      logAt ctx rest value ((resolveFields ctx [] (fields.takeWhile (·.1 != key))).run log).2
    | none => log
  | _, _, log => log

def StripsAlong : List String → Node → Prop
  | key :: rest, .mapping fields => StripsHere (.mapping fields) ∧
      ∀ value, Fields.get? fields key = some value → StripsAlong rest value
  | _, _ => True

lemma stripsAlong_of_recordable {doc : Node} (h : Recordable doc) (keys : List String) :
    StripsAlong keys doc := by
  induction keys generalizing doc with
  | nil => trivial
  | cons key rest ih =>
    cases doc with
    | mapping fields => exact ⟨⟨h.here.distinct, h.here.single⟩, fun _ hget => ih (h.below hget)⟩
    | _ => trivial

section

variable {ctx : Context} {done fields resolved : Mapping} {log log' : Log}

lemma resolveFields_append (ctx : Context) (done before after : Mapping) :
    resolveFields ctx done (before ++ after) =
      (do resolveFields ctx (← resolveFields ctx done before) after) := by
  induction before generalizing done with
  | nil => simp [resolveFields]
  | cons field rest ih => simp [resolveFields, ih]

lemma get?_resolveFields {name : String}
    (hrun : (resolveFields ctx done fields).run log = (.ok resolved, log'))
    (hname : name ∉ (Fields.keys fields).map strip) :
    Fields.get? resolved name = Fields.get? done name := by
  induction fields generalizing done log with
  | nil =>
    cases hrun
    rfl
  | cons field rest ih =>
    obtain ⟨key, value⟩ := field
    obtain ⟨hkey, hrest⟩ := not_or.mp (mt List.mem_cons.mpr hname)
    obtain ⟨n, between, -, hrun⟩ := run_bind_eq_ok.mp hrun
    rw [ih hrun hrest, Fields.get?_insert, if_neg hkey]

lemma keys_resolveFields_of_nodup
    (hrun : (resolveFields ctx done fields).run log = (.ok resolved, log'))
    (hnodup : (Fields.keys done ++ (Fields.keys fields).map strip).Nodup) :
    Fields.keys resolved = Fields.keys done ++ (Fields.keys fields).map strip := by
  induction fields generalizing done log with
  | nil =>
    cases hrun
    exact (List.append_nil _).symm
  | cons field rest ih =>
    obtain ⟨key, value⟩ := field
    have hkey : strip key ∉ Fields.keys done := by
      intro hm
      exact (List.nodup_append.mp hnodup).2.2 _ hm _ List.mem_cons_self rfl
    obtain ⟨n, between, -, hrun⟩ := run_bind_eq_ok.mp hrun
    rw [Fields.insert_of_not_mem hkey] at hrun
    have hnext : (Fields.keys (done ++ [(strip key, n)]) ++ (Fields.keys rest).map strip).Nodup := by
      simpa [Fields.keys] using hnodup
    rw [ih hrun hnext]
    simp [Fields.keys]

lemma map_strip_strip {keys : List String} (h : ∀ key ∈ keys, strip (strip key) = strip key) :
    (keys.map strip).map strip = keys.map strip := by
  rw [List.map_map]
  exact List.map_congr_left h

lemma stripsHere_resolveFields (hrun : (resolveFields ctx [] fields).run log = (.ok resolved, log'))
    (h : StripsHere (.mapping fields)) : StripsHere (.mapping resolved) := by
  obtain ⟨hnodup, hsingle⟩ := h
  have hkeys : Fields.keys resolved = (Fields.keys fields).map strip :=
    keys_resolveFields_of_nodup hrun hnodup
  have hstrip : ∀ key ∈ Fields.keys fields, strip (strip key) = strip key :=
    fun key hm => strip_of_unannotated (hsingle key hm)
  constructor
  · rwa [hkeys, map_strip_strip hstrip]
  · rw [hkeys]
    intro name hname
    obtain ⟨key, hkey, rfl⟩ := List.mem_map.mp hname
    rw [hstrip key hkey]
    exact hsingle key hkey

lemma resolveFields_reaches (hrun : (resolveFields ctx [] fields).run log = (.ok resolved, log'))
    (hnodup : ((Fields.keys fields).map strip).Nodup) {key : String} {value : Node}
    (hget : Fields.get? fields key = some value) :
    ∃ n after, (resolve ctx value).run
        ((resolveFields ctx [] (fields.takeWhile (·.1 != key))).run log).2 = (.ok n, after) ∧
      Fields.get? resolved (strip key) = some n := by
  obtain ⟨before, after, rfl, hbefore⟩ := List.lookup_eq_some_iff.mp hget
  have htake : (before ++ (key, value) :: after).takeWhile (·.1 != key) = before := by
    rw [List.takeWhile_append_of_pos, List.takeWhile_cons_of_neg, List.append_nil]
    · simp
    · intro field hm
      rw [bne_comm]
      exact hbefore field hm
  have hlater : strip key ∉ (Fields.keys after).map strip := by
    rw [Fields.keys, List.map_append, List.map_append] at hnodup
    exact (List.nodup_cons.mp (List.nodup_append.mp hnodup).2.1).1
  rw [resolveFields_append] at hrun
  obtain ⟨done, between, hdone, hrun⟩ := run_bind_eq_ok.mp hrun
  obtain ⟨n, behind, hn, hrest⟩ := run_bind_eq_ok.mp hrun
  refine ⟨n, behind, ?_, ?_⟩
  · rw [htake, hdone]
    exact hn
  · rw [get?_resolveFields hrest hlater, Fields.get?_insert, if_pos rfl]

end

lemma resolve_along {ctx : Context} {keys : List String} {tree m value : Node} {log log' : Log}
    (halong : StripsAlong keys tree) (hvalue : tree.descend keys = some value)
    (hrun : (resolve ctx tree).run log = (.ok m, log')) :
    ∃ n after, (resolve ctx value).run (logAt ctx keys tree log) = (.ok n, after) ∧
      m.descend (keys.map strip) = some n ∧ StripsAlong (keys.map strip) m := by
  induction keys generalizing tree m log log' with
  | nil =>
    cases hvalue
    refine ⟨m, log', ?_, rfl, trivial⟩
    rw [← hrun]
    simp [logAt]
  | cons key rest ih =>
    cases tree with
    | mapping fields =>
      obtain ⟨next, hget, hrest⟩ := descend_cons.mp hvalue
      obtain ⟨hstrips, hbelow⟩ := halong
      obtain ⟨resolved, _, hfields, hrun⟩ := run_bind_eq_ok.mp hrun
      cases hrun
      obtain ⟨n, _, hn, hfound⟩ := resolveFields_reaches hfields hstrips.1 hget
      obtain ⟨w, after, hw, hdescend, hstripped⟩ := ih (hbelow next hget) hrest hn
      refine ⟨w, after, ?_, descend_cons.mpr ⟨n, hfound, hdescend⟩,
        stripsHere_resolveFields hfields hstrips, fun other hother => ?_⟩
      · rw [logAt, hget]
        exact hw
      · rw [hfound] at hother
        cases hother
        exact hstripped
    | _ => cases hvalue

def ResolvesAt (ctx : Context) (symbols : Mapping) (doc : Node) (log : Log) (keys : List String)
    (value resolved : Node) : Prop :=
  ∃ tree between first after,
    (resolve ctx.first doc).run log = (.ok tree, between) ∧
    (resolve ctx.first value).run (logAt ctx.first keys doc log) = (.ok first, after) ∧
    ((resolve (ctx.second symbols) first).run
      (logAt (ctx.second symbols) (keys.map strip) tree between)).1 = .ok resolved

lemma ResolvesAt.alone {ctx : Context} {symbols : Mapping} {doc value resolved : Node} {log : Log}
    {keys : List String} (h : ResolvesAt ctx symbols doc log keys value resolved)
    (hpure : ctx.registry.PureAt ctx.place) (other : Log) :
    ((Load.resolveTwice ctx symbols value).run other).1 = .ok resolved := by
  obtain ⟨tree, between, first, after, -, hfirst, hsecond⟩ := h
  have hsteady : ∀ n, Steady (resolve ctx.first n) := Steady.resolve hpure
  have hsteady' : ∀ n, Steady (resolve (ctx.second symbols) n) := Steady.resolve hpure
  rw [Load.resolveTwice, run_bind_fst, hsteady value other (logAt ctx.first keys doc log), hfirst]
  exact (hsteady' first _ _).trans hsecond

/-- The records of a document are those of its annotated keys in their order, under paths of their
own that lead to the resolved values. -/
structure Traceable (ctx : Context) (symbols : Mapping) (doc : Node) (log : Log) (config : Node) :
    Prop where
  recorded : extract doc = (annotated doc).map (recordBelow "")
  distinct : (Fields.keys (extract doc)).Nodup
  reached : ∀ chain key typeName, (chain ++ [key], typeName) ∈ annotated doc ↔
    ∃ fields, doc.descend chain = some (.mapping fields) ∧ key ∈ Fields.keys fields ∧
      ∃ a, read? key = some a ∧ a.typeName = typeName
  leads : ∀ keys typeName, (keys, typeName) ∈ annotated doc → ∃ value resolved,
    doc.descend keys = some value ∧ config.getPath? (recordedPath keys) = some resolved ∧
    ResolvesAt ctx symbols doc log keys value resolved ∧
    (ctx.registry.PureAt ctx.place → ∀ other,
      ((Load.resolveTwice ctx symbols value).run other).1 = .ok resolved)

theorem resolveTwice_traceable {ctx : Context} {symbols : Mapping} {doc config : Node}
    {log log' : Log} (h : Recordable doc)
    (hrun : (Load.resolveTwice ctx symbols doc).run log = (.ok config, log')) :
    Traceable ctx symbols doc log config := by
  obtain ⟨tree, between, hfirst, hsecond⟩ := run_bind_eq_ok.mp hrun
  obtain ⟨hrecorded, hdistinct⟩ := extract_of_recordable h
  refine ⟨hrecorded, hdistinct, fun _ _ _ => mem_annotated_iff h, fun keys typeName hkeys => ?_⟩
  obtain ⟨value, hvalue⟩ := exists_descend h hkeys
  obtain ⟨first, after, hfirstValue, hfirstFound, halong⟩ :=
    resolve_along (stripsAlong_of_recordable h keys) hvalue hfirst
  obtain ⟨resolved, _, hresolved, hfound, -⟩ := resolve_along halong hfirstFound hsecond
  have hnames := map_strip_strip (findable_of_descend h hvalue).single
  have hat : ResolvesAt ctx symbols doc log keys value resolved :=
    ⟨tree, between, first, after, hfirst, hfirstValue, congrArg Prod.fst hresolved⟩
  refine ⟨value, resolved, hvalue, ?_, hat, hat.alone⟩
  rw [getPath?, pathKeys_of_recordable h hkeys, ← hnames]
  exact hfound

def countingContext : Context :=
  { sampleContext with
    registry := [("ticket", fun call => .ok (.int (Int64.ofNat call.earlierRuns.length)))] }

def countingTree : Node := .mapping [
  ("app<App>", .mapping [
    ("port<Port>", .expression "$ENV.PORT || $port"),
    ("ticket", .tag "ticket" []),
    ("late<Ticket>", .conditional "$debug" (.tag "ticket" []))]),
  ("next<Ticket>", .tag "ticket" []),
  ("hosts<Hosts>", .sequence [.expression "$host"])]

theorem resolveTwice_traceable_counting :
    Recordable countingTree ∧ ∃ config log,
      (Load.resolveTwice countingContext sampleSymbols countingTree).run [] = (.ok config, log) ∧
      extract countingTree = [("app", "App"), ("app.port", "Port"), ("app.late", "Ticket"),
        ("next", "Ticket"), ("hosts", "Hosts")] ∧
      config.getPath? "app.late" = some (.int 2) ∧
      Traceable countingContext sampleSymbols countingTree [] config := by
  have hnamed : Recordable countingTree := by
    apply Recordable.of_everywhere
    simp only [countingTree, Everywhere, FieldsEverywhere, ItemsEverywhere, RecordableNode, and_true]
    decide +kernel
  have hrun : ((Load.resolveTwice countingContext sampleSymbols countingTree).run []).1 =
      .ok (.mapping [
        ("app", .mapping [("port", .int 80), ("ticket", .int 0), ("late", .int 2)]),
        ("next", .int 1), ("hosts", .sequence [.string "localhost"])]) := by cbv
  exact ⟨hnamed, _, _, Prod.ext hrun rfl, by cbv, by cbv,
    resolveTwice_traceable hnamed (Prod.ext hrun rfl)⟩

end LayeredConfig.Resolution
