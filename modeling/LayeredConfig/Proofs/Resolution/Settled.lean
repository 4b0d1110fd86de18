import LayeredConfig.Proofs.Ascription.Shape
import LayeredConfig.Proofs.Node.Everywhere
import LayeredConfig.Resolution

namespace LayeredConfig.Resolution

open Node

def resolveEach (ctx : Context) : List (String × Node) → Run Mapping
  | [] => return []
  | (key, value) :: rest => do
    let value ← resolve ctx value
    return (Ascription.strip key, value) :: (← resolveEach ctx rest)

lemma resolveFields_of_nodup (ctx : Context) (done fields : Mapping)
    (h : (Fields.keys done ++ (Fields.keys fields).map Ascription.strip).Nodup) :
    resolveFields ctx done fields = (done ++ ·) <$> resolveEach ctx fields := by
  induction fields generalizing done with
  | nil => simp [resolveFields, resolveEach]
  | cons field rest ih =>
    obtain ⟨key, value⟩ := field
    have hkey : Ascription.strip key ∉ Fields.keys done := by
      intro hk
      exact (List.nodup_append.mp h).2.2 _ hk _ (by simp [Fields.keys]) rfl
    have hnext : ∀ v, (Fields.keys (done ++ [(Ascription.strip key, v)]) ++
        (Fields.keys rest).map Ascription.strip).Nodup := by
      intro v
      simpa [Fields.keys] using h
    simp only [resolveFields, resolveEach, Fields.insert_of_not_mem hkey, map_bind, map_pure]
    congr 1
    funext v
    rw [ih _ (hnext v)]
    simp

mutual

lemma resolve_settled (ctx : Context) : (n : Node) → n.Settled → resolve ctx n = pure n
  | .mapping fields, h => by
    obtain ⟨⟨hnodup, hkeys⟩, hfields⟩ := h
    have hstrip : (Fields.keys fields).map Ascription.strip = Fields.keys fields :=
      (List.map_congr_left fun key hk => Ascription.strip_of_unannotated (hkeys key hk)).trans
        (List.map_id _)
    have hn : (Fields.keys ([] : Mapping) ++ (Fields.keys fields).map Ascription.strip).Nodup := by
      rw [hstrip]
      exact hnodup
    rw [resolve, resolveFields_of_nodup ctx [] fields hn,
      resolveEach_settled ctx fields hfields hkeys]
    simp
  | .sequence items, h => by
    simp only [Settled, Everywhere] at h
    simp [resolve, resolveItems_settled ctx items h.2]
  | .null, _ => rfl
  | .bool _, _ => rfl
  | .int _, _ => rfl
  | .float _, _ => rfl
  | .string _, _ => rfl
  | .expression _, h => h.elim
  | .tag _ _, h => h.elim
  | .conditional _ _, h => h.1.elim

lemma resolveItems_settled (ctx : Context) :
    (items : List Node) → ItemsEverywhere SettledHere items → resolveItems ctx items = pure items
  | [], _ => rfl
  | item :: rest, h => by
    have hi := resolve_settled ctx item h.1
    have hr := resolveItems_settled ctx rest h.2
    cases item with
    | conditional condition value => exact h.1.1.elim
    | _ => simp [resolveItems, hi, hr]

lemma resolveEach_settled (ctx : Context) :
    (fields : List (String × Node)) → FieldsEverywhere SettledHere fields →
    (∀ key ∈ Fields.keys fields, Ascription.read? key = none) → resolveEach ctx fields = pure fields
  | [], _, _ => rfl
  | (key, value) :: rest, h, hk => by
    have hv := resolve_settled ctx value h.1
    have hr := resolveEach_settled ctx rest h.2 fun k hm => hk k (List.mem_cons_of_mem _ hm)
    have hs : Ascription.strip key = key :=
      Ascription.strip_of_unannotated (hk key (by simp [Fields.keys]))
    simp [resolveEach, hv, hr, hs]

end

end LayeredConfig.Resolution
