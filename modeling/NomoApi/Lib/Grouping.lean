import Mathlib.Data.List.Dedup
import Mathlib.Data.List.Perm.Basic

/-! # Grouping a list by a key

Go code that collects rows into a `map[key][]row` visits the groups in an arbitrary order
(`MapOrder`), and the rows of one group in list order. **`grouped_perm`**: together the groups are
the list, rearranged. -/

namespace NomoApi

open List

universe u v

/-- **The order in which a Go map is ranged over**: any rearrangement of its keys. -/
structure MapOrder (κ : Type v) where
  order : List κ → List κ
  perm : ∀ keys, (order keys).Perm keys

def MapOrder.given (κ : Type v) : MapOrder κ := ⟨id, fun _ => .rfl⟩

def MapOrder.reversed (κ : Type v) : MapOrder κ := ⟨List.reverse, List.reverse_perm⟩

variable {α : Type u} {κ : Type v} [DecidableEq κ]

theorem MapOrder.exists_order {keys l : List κ} (h : l.Perm keys) :
    ∃ m : MapOrder κ, m.order keys = l := by
  refine ⟨⟨fun keys' => if keys' = keys then l else keys', fun keys' => ?_⟩, if_pos rfl⟩
  by_cases hkeys : keys' = keys
  · rw [if_pos hkeys, hkeys]
    exact h
  · rw [if_neg hkeys]

/-- **The groups of a list**, in the order the map is ranged over. -/
def grouped (m : MapOrder κ) (key : α → κ) (l : List α) : List (κ × List α) :=
  (m.order (l.map key).dedup).map fun k => (k, l.filter fun a => key a = k)

theorem flatMap_filter_perm (key : α → κ) (keys : List κ) (hnodup : keys.Nodup) (l : List α)
    (hcover : ∀ a ∈ l, key a ∈ keys) :
    (keys.flatMap fun k => l.filter fun a => key a = k).Perm l := by
  induction keys generalizing l with
  | nil =>
    have hl : l = [] := eq_nil_iff_forall_not_mem.mpr fun a ha => by simpa using hcover a ha
    rw [hl]
    exact .rfl
  | cons k keys ih =>
    obtain ⟨hk, hnodup⟩ := nodup_cons.mp hnodup
    rw [flatMap_cons]
    have hrest : (keys.flatMap fun k' => l.filter fun a => key a = k') =
        keys.flatMap fun k' => (l.filter fun a => !decide (key a = k)).filter
          fun a => key a = k' := by
      refine flatMap_congr fun k' hk' => ?_
      rw [filter_filter]
      refine filter_congr fun a _ => ?_
      by_cases ha : key a = k'
      · have hne : key a ≠ k := by
          rintro rfl
          exact hk (ha ▸ hk')
        simp [ha, ha ▸ hne]
      · simp [ha]
    rw [hrest]
    refine (Perm.append_left _ (ih hnodup _ ?_)).trans (filter_append_perm _ l)
    intro a ha
    obtain ⟨hal, hne⟩ := mem_filter.mp ha
    exact (mem_cons.mp (hcover a hal)).resolve_left (by simpa using hne)

theorem grouped_perm (m : MapOrder κ) (key : α → κ) (l : List α) :
    ((grouped m key l).flatMap Prod.snd).Perm l := by
  have hperm := m.perm (l.map key).dedup
  rw [grouped, flatMap_map]
  refine flatMap_filter_perm key _ (hperm.nodup_iff.mpr (nodup_dedup _)) l fun a ha => ?_
  exact hperm.mem_iff.mpr (mem_dedup.mpr (mem_map_of_mem ha))

theorem nodup_grouped (m : MapOrder κ) (key : α → κ) (l : List α) :
    ((grouped m key l).map Prod.fst).Nodup := by
  have hfst : (grouped m key l).map Prod.fst = m.order (l.map key).dedup := by
    rw [grouped, map_map]
    exact map_id _
  rw [hfst]
  exact (m.perm _).nodup_iff.mpr (nodup_dedup _)

theorem mem_grouped {m : MapOrder κ} {key : α → κ} {l : List α} {k : κ} {g : List α}
    (h : (k, g) ∈ grouped m key l) : g = l.filter fun a => key a = k := by
  obtain ⟨k', -, heq⟩ := mem_map.mp h
  cases heq
  rfl

theorem countP_flatMap_le_one {β : Type v} {groups : List α} {f : α → List β} {p : β → Bool}
    (hnodup : groups.Nodup) (hone : ∀ a ∈ groups, (f a).countP p ≤ 1)
    (hsame : ∀ a ∈ groups, ∀ b ∈ groups, 0 < (f a).countP p → 0 < (f b).countP p → a = b) :
    (groups.flatMap f).countP p ≤ 1 := by
  induction groups with
  | nil => exact Nat.zero_le 1
  | cons a groups ih =>
    obtain ⟨ha, hnodup⟩ := nodup_cons.mp hnodup
    rw [flatMap_cons, countP_append]
    have hrest := ih hnodup (fun b hb => hone b (mem_cons_of_mem a hb))
      (fun b hb c hc => hsame b (mem_cons_of_mem a hb) c (mem_cons_of_mem a hc))
    have hhead := hone a mem_cons_self
    by_cases hzero : (f a).countP p = 0
    · omega
    · -- The first group has the one row, so the others have none.
      have hnone : (groups.flatMap f).countP p = 0 := by
        rw [countP_eq_zero]
        intro x hx hpx
        obtain ⟨b, hb, hxb⟩ := mem_flatMap.mp hx
        have hpos : 0 < (f b).countP p := countP_pos_iff.mpr ⟨x, hxb, hpx⟩
        have hab := hsame a mem_cons_self b (mem_cons_of_mem a hb) (Nat.pos_of_ne_zero hzero) hpos
        exact ha (hab ▸ hb)
      omega

end NomoApi
