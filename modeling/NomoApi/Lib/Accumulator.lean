import NomoApi.Lib.Table

/-! # Accumulators

A map from keys to integers that grows by recording differences. An absent key counts as zero. -/

namespace NomoApi

open Table

universe u

abbrev Accumulator (κ : Type u) : Type u := Table (κ × Int) Prod.fst

namespace Accumulator

variable {κ : Type u} [DecidableEq κ]

variable (m : Accumulator κ) (k : κ)

/-- **The entry of a key**, zero for a key that is absent. -/
def value : Int := ((m.find? k).map Prod.snd).getD 0

/-- **Record a difference**: a new entry, or a larger one. -/
def record (v : Int) : Accumulator κ :=
  match m.find? k with
  | none => (m.insert? (k, v)).getD m
  | some p => m.save (k, p.2 + v)

/-- **Remove the entry of a key.** -/
def take : Accumulator κ := m.erase k

@[simp] theorem value_empty : value (empty : Accumulator κ) k = 0 := rfl

theorem value_record (k k' : κ) (v : Int) :
    (m.record k v).value k' = m.value k' + if k' = k then v else 0 := by
  unfold record
  cases hk : m.find? k with
  | none =>
    obtain ⟨t, hinsert⟩ : ∃ t, m.insert? (k, v) = some t := exists_insert? hk
    simp only [hinsert, Option.getD_some]
    by_cases hk' : k' = k
    · subst hk'
      have hfind : t.find? k' = some (k', v) := find?_insert? hinsert
      simp [value, hk, hfind]
    · have hfind : t.find? k' = m.find? k' := find?_insert?_of_ne hinsert hk'
      simp [value, hfind, hk']
  | some p =>
    by_cases hk' : k' = k
    · subst hk'
      have hfind : (m.save (k', p.2 + v)).find? k' = some (k', p.2 + v) := find?_save rfl hk
      simp [value, hk, hfind]
    · have hfind : (m.save (k, p.2 + v)).find? k' = m.find? k' := find?_save_of_ne hk'
      simp [value, hfind, hk']

theorem value_take (k k' : κ) : (m.take k).value k' = if k' = k then 0 else m.value k' := by
  rw [value, take, find?_erase]
  by_cases hk : k' = k
  · rw [if_pos hk, if_pos hk]
    rfl
  · rw [if_neg hk, if_neg hk, value]

end Accumulator

end NomoApi
