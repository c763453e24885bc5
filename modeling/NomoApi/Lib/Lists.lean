import Mathlib.Data.List.Nodup

/-! # Lists in chunks, and lists without repeated keys -/

namespace NomoApi

open List

universe u v

variable {α : Type u} {κ : Type v}

def chunksUpTo (n : Nat) : Nat → List α → List (List α)
  | 0, _ => []
  | _ + 1, [] => []
  | fuel + 1, a :: l => (a :: l).take n :: chunksUpTo n fuel ((a :: l).drop n)

/-- **A list in pieces of `n`.** -/
def chunks (n : Nat) (l : List α) : List (List α) := chunksUpTo n l.length l

theorem flatten_chunksUpTo {n : Nat} (hn : 0 < n) (fuel : Nat) (l : List α)
    (hfuel : l.length ≤ fuel) : (chunksUpTo n fuel l).flatten = l := by
  induction fuel generalizing l with
  | zero => rw [length_eq_zero_iff.mp (Nat.le_zero.mp hfuel)]; rfl
  | succ fuel ih =>
    cases l with
    | nil => rfl
    | cons a l =>
      rw [chunksUpTo, flatten_cons, ih, take_append_drop]
      rw [length_drop]
      omega

theorem flatten_chunks {n : Nat} (hn : 0 < n) (l : List α) : (chunks n l).flatten = l :=
  flatten_chunksUpTo hn l.length l (Nat.le_refl _)

variable [DecidableEq κ]

theorem filter_key_eq {key : α → κ} {l : List α} (h : (l.map key).Nodup) {a : α} (ha : a ∈ l) :
    l.filter (fun b => key b = key a) = [a] := by
  induction l with
  | nil => cases ha
  | cons b l ih =>
    rw [map_cons, nodup_cons] at h
    rcases mem_cons.mp ha with rfl | ha
    · have hrest : l.filter (fun b => key b = key a) = [] :=
        filter_eq_nil_iff.mpr fun b hb hkey => h.1 (of_decide_eq_true hkey ▸ mem_map_of_mem hb)
      simp [hrest]
    · have hne : key b ≠ key a := fun hkey => h.1 (hkey ▸ mem_map_of_mem ha)
      simp [hne, ih h.2 ha]

/-- The entries whose key is not in `seen`. -/
def firstBySeen (key : α → κ) : List κ → List α → List α
  | _, [] => []
  | seen, a :: l =>
    if key a ∈ seen then firstBySeen key seen l else a :: firstBySeen key (key a :: seen) l

variable (key : α → κ) (l : List α)

/-- **The entries whose key has not occurred before.** -/
def firstByKey : List α := firstBySeen key [] l

theorem firstBySeen_sublist (seen : List κ) (l : List α) : (firstBySeen key seen l).Sublist l := by
  induction l generalizing seen with
  | nil => exact .slnil
  | cons a l ih =>
    rw [firstBySeen]
    split
    · exact (ih seen).cons a
    · exact (ih _).cons_cons a

theorem nodup_firstBySeen (seen : List κ) (l : List α) :
    ((firstBySeen key seen l).map key).Nodup ∧ ∀ a ∈ firstBySeen key seen l, key a ∉ seen := by
  induction l generalizing seen with
  | nil => simp [firstBySeen]
  | cons a l ih =>
    rw [firstBySeen]
    split
    · exact ih seen
    · rename_i ha
      obtain ⟨hnodup, hseen⟩ := ih (key a :: seen)
      refine ⟨?_, fun b hb => ?_⟩
      · rw [map_cons, nodup_cons]
        refine ⟨fun hmem => ?_, hnodup⟩
        obtain ⟨b, hb, hkey⟩ := mem_map.mp hmem
        exact hseen b hb (hkey ▸ mem_cons_self ..)
      · rcases mem_cons.mp hb with rfl | hb
        · exact ha
        · exact fun h => hseen b hb (mem_cons_of_mem _ h)

theorem exists_mem_firstBySeen {key : α → κ} {seen : List κ} {l : List α} {a : α} (ha : a ∈ l)
    (hseen : key a ∉ seen) : ∃ b ∈ firstBySeen key seen l, key b = key a := by
  induction l generalizing seen with
  | nil => cases ha
  | cons c l ih =>
    rw [firstBySeen]
    split
    · rename_i hc
      rcases mem_cons.mp ha with rfl | ha
      · exact absurd hc hseen
      · exact ih ha hseen
    · by_cases hac : key a = key c
      · exact ⟨c, mem_cons_self .., hac.symm⟩
      · rcases mem_cons.mp ha with rfl | ha
        · exact absurd rfl hac
        · have hnew : key a ∉ key c :: seen := by simp [hac, hseen]
          obtain ⟨b, hb, hkey⟩ := ih ha hnew
          exact ⟨b, mem_cons_of_mem _ hb, hkey⟩

theorem firstByKey_sublist : (firstByKey key l).Sublist l :=
  firstBySeen_sublist key [] l

theorem nodup_firstByKey : ((firstByKey key l).map key).Nodup :=
  (nodup_firstBySeen key [] l).1

theorem exists_mem_firstByKey {l : List α} {a : α} (ha : a ∈ l) :
    ∃ b ∈ firstByKey key l, key b = key a := exists_mem_firstBySeen ha (List.not_mem_nil)

theorem nodup_eraseDups {α : Type u} [BEq α] [LawfulBEq α] : (l : List α) → l.eraseDups.Nodup
  | [] => by simp
  | a :: l => by
    rw [eraseDups_cons, nodup_cons]
    exact ⟨by simp, nodup_eraseDups _⟩
termination_by l => l.length
decreasing_by exact Nat.lt_succ_of_le (length_filter_le ..)

end NomoApi
