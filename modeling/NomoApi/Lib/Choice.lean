import Mathlib.Data.List.Sort
import Mathlib.Data.List.Dedup
import NomoApi.Lib.Lists
import Mathlib.Algebra.GroupWithZero.Nat
import Mathlib.Algebra.Order.Group.Int

/-! # Ranks and weighted choice -/

namespace NomoApi

open List

universe u

/-! ### Ranks -/

/-- **The different numbers of a list**, the highest first. -/
def descending (l : List Int) : List Int := l.dedup.insertionSort (· ≥ ·)

/-- **The `n`-th highest number**, the lowest for an `n` beyond them. -/
def rank (l : List Int) (n : Nat) : Option Int :=
  (descending l)[min n ((descending l).length - 1)]?

variable {l : List Int} {n : Nat} {x : Int}

theorem mem_descending : x ∈ descending l ↔ x ∈ l := by
  rw [descending, mem_insertionSort, mem_dedup]

theorem descending_congr {l l' : List Int} (h : ∀ x, x ∈ l ↔ x ∈ l') :
    descending l = descending l' := by
  have hanti : ∀ a b : Int, a ∈ descending l → b ∈ descending l' → a ≥ b → b ≥ a → a = b :=
    fun a b _ _ hab hba => le_antisymm hba hab
  refine Perm.eq_of_pairwise hanti (pairwise_insertionSort _ _) (pairwise_insertionSort _ _) ?_
  refine ((perm_insertionSort _ _).trans ?_).trans (perm_insertionSort _ _).symm
  rw [perm_ext_iff_of_nodup l.nodup_dedup l'.nodup_dedup]
  intro x
  rw [mem_dedup, mem_dedup, h]

theorem rank_congr {l l' : List Int} (h : ∀ x, x ∈ l ↔ x ∈ l') (n : Nat) :
    rank l n = rank l' n := by
  rw [rank, rank, descending_congr h]

theorem mem_of_rank (h : rank l n = some x) : x ∈ l :=
  mem_descending.mp (mem_of_getElem? h)

/-- **The place of a number** is how many different ones are higher. -/
theorem countP_of_descending {i : Nat}
    (h : (descending l)[i]? = some x) : l.dedup.countP (x < ·) = i := by
  have hnodup : (descending l).Nodup := (perm_insertionSort _ _).nodup_iff.mpr l.nodup_dedup
  have hsorted : (descending l).Pairwise (· > ·) :=
    (pairwise_insertionSort (· ≥ ·) l.dedup).imp₂
      (fun _ _ hle hne => lt_of_le_of_ne hle hne.symm) hnodup
  obtain ⟨hi, hx⟩ := List.getElem?_eq_some_iff.mp h
  have hsplit : descending l = (descending l).take i ++ x :: (descending l).drop (i + 1) := by
    rw [← hx, getElem_cons_drop, take_append_drop]
  rw [hsplit, pairwise_append, pairwise_cons] at hsorted
  obtain ⟨-, ⟨hbelow, -⟩, habove⟩ := hsorted
  have habove' : ∀ y ∈ (descending l).take i, decide (x < y) = true := fun y hy =>
    decide_eq_true (habove y hy x mem_cons_self)
  have hbelow' : ∀ y ∈ (descending l).drop (i + 1), ¬ decide (x < y) = true := fun y hy => by
    have := hbelow y hy
    simp only [decide_eq_true_eq]
    omega
  have hcount : (descending l).countP (x < ·) = i := by
    rw [hsplit, countP_append, countP_cons, countP_eq_length.mpr habove',
      countP_eq_zero.mpr hbelow', length_take]
    simp only [lt_self_iff_false, decide_false, Bool.false_eq_true, if_false]
    omega
  rw [← hcount]
  exact ((perm_insertionSort _ _).countP_eq _).symm

theorem rank_eq_some_iff : rank l n = some x ↔
    x ∈ l ∧ l.dedup.countP (x < ·) = min n (l.dedup.length - 1) := by
  have hlength : (descending l).length = l.dedup.length := length_insertionSort _ _
  rw [rank, hlength]
  refine ⟨fun h => ⟨mem_descending.mp (mem_of_getElem? h), countP_of_descending h⟩, ?_⟩
  rintro ⟨hx, hcount⟩
  obtain ⟨i, hi⟩ := mem_iff_getElem?.mp (mem_descending.mpr hx)
  rw [← hcount, countP_of_descending hi, hi]

theorem exists_rank (h : l ≠ []) (n : Nat) : ∃ x, rank l n = some x := by
  obtain ⟨x, hx⟩ := exists_mem_of_ne_nil l h
  have hpos : 0 < (descending l).length := length_pos_of_mem (mem_descending.mpr hx)
  refine ⟨_, getElem?_eq_getElem (?_ : min n ((descending l).length - 1) < _)⟩
  omega

theorem rank_zero (l : List Int) : rank l 0 = l.max? := by
  rcases eq_nil_or_concat l with rfl | ⟨l', a, rfl⟩
  · rfl
  · obtain ⟨x, hx⟩ := exists_rank (l := l'.concat a) (by simp) 0
    rw [hx]
    refine (max?_eq_some_iff.mpr ⟨mem_of_rank hx, fun y hy => ?_⟩).symm
    rw [rank, Nat.zero_min] at hx
    have hsorted := pairwise_insertionSort (· ≥ ·) (l'.concat a).dedup
    have hy' : y ∈ descending (l'.concat a) := mem_descending.mpr hy
    cases hdesc : descending (l'.concat a) with
    | nil => rw [hdesc] at hy'; cases hy'
    | cons z zs =>
      rw [hdesc] at hx hy'
      rw [show (l'.concat a).dedup.insertionSort (· ≥ ·) = z :: zs from hdesc] at hsorted
      cases hx
      rcases mem_cons.mp hy' with rfl | hy'
      · exact le_refl _
      · exact (pairwise_cons.mp hsorted).1 y hy'

/-! ### Weighted choice -/

section

variable {α : Type u} (w : α → Nat) {l : List α}

/-- **The subtracting loop.** -/
def pick (accept : Int → Bool) : List α → Int → Option α
  | [], _ => none
  | a :: l, d => if accept (d - w a) then some a else pick accept l (d - w a)

/-- **The tickets**: every entry as often as its weight says. -/
def tickets (l : List α) : List α := l.flatMap fun a => replicate (w a) a

theorem length_tickets (l : List α) : (tickets w l).length = (l.map w).sum := by
  simp [tickets, length_flatMap]

theorem mem_tickets {a : α} : a ∈ tickets w l ↔ a ∈ l ∧ 0 < w a := by
  simp [tickets, Nat.pos_iff_ne_zero, and_comm]

theorem countP_tickets (l : List α) (p : α → Bool) :
    (tickets w l).countP p = ((l.filter p).map w).sum := by
  induction l with
  | nil => rfl
  | cons b l ih =>
    rw [tickets, flatMap_cons, countP_append, countP_replicate, ← tickets, ih, filter_cons]
    cases p b <;> simp

/-- **Below zero**: the draw is the number of a ticket. -/
theorem pick_neg (l : List α) (d : Nat) : pick w (fun d => d < 0) l d = (tickets w l)[d]? := by
  induction l generalizing d with
  | nil => rfl
  | cons b l ih =>
    rw [pick, tickets, flatMap_cons, getElem?_append, length_replicate]
    by_cases hd : d < w b
    · rw [if_pos (decide_eq_true (by omega)), if_pos hd, getElem?_replicate_of_lt hd]
    · have hrest : (d : Int) - w b = (d - w b : Nat) := by omega
      rw [if_neg (by simp; omega), if_neg hd, hrest, ih, tickets]

/-- **At zero**: the draws are one behind, so that the first entry has one more. -/
theorem pick_nonpos (b : α) (l : List α) (d : Nat) :
    pick w (fun d => d ≤ 0) (b :: l) d = (b :: tickets w (b :: l))[d]? := by
  have hshift (l : List α) (d : Int) :
      pick w (fun d => d ≤ 0) l (d + 1) = pick w (fun d => d < 0) l d := by
    induction l generalizing d with
    | nil => rfl
    | cons b l ih =>
      have hlater : d + 1 - w b = d - w b + 1 := by omega
      rw [pick, pick, hlater, ih]
      simp only [Int.add_one_le_iff]
  cases d with
  | zero => simp [pick]
  | succ d => rw [getElem?_cons_succ, ← pick_neg, ← hshift]; rfl

theorem countP_range_getElem? (l : List α) (p : α → Bool) :
    (List.range l.length).countP (fun d => l[d]?.any p) = l.countP p := by
  induction l with
  | nil => rfl
  | cons a l ih =>
    rw [length_cons, range_succ_eq_map, countP_cons, countP_cons, countP_map, ← ih]
    rfl

theorem getLast?_tickets (h : ∀ a, 0 < w a) (l : List α) : (tickets w l).getLast? = l.getLast? := by
  rcases eq_nil_or_concat l with rfl | ⟨l, a, rfl⟩
  · rfl
  · simp [tickets, getLast?_replicate, (h a).ne']

theorem countP_dropLast {l : List α} (hne : l ≠ []) (p : α → Bool) :
    l.dropLast.countP p + (if l.getLast?.any p then 1 else 0) = l.countP p := by
  conv_rhs => rw [← dropLast_concat_getLast hne, countP_append, countP_singleton]
  rw [getLast?_eq_some_getLast hne, Option.any_some]

/-- Who has two tickets keeps one without the last. -/
theorem mem_dropLast_tickets [DecidableEq α] (h : ∀ a, 1 < w a) {a b : α} :
    b ∈ (a :: tickets w (a :: l)).dropLast ↔ b ∈ a :: l := by
  constructor
  · intro hb
    rcases mem_cons.mp ((dropLast_sublist _).subset hb) with heq | hb
    · exact mem_cons.mpr (.inl heq)
    · exact ((mem_tickets w).mp hb).1
  · intro hb
    have hcount := countP_dropLast (cons_ne_nil a (tickets w (a :: l))) fun x => x = b
    have hle : w b ≤ (tickets w (a :: l)).countP fun x => x = b := by
      obtain ⟨l₁, l₂, hsplit⟩ := append_of_mem hb
      simp [countP_tickets, hsplit]
      omega
    have hpos : 0 < (a :: tickets w (a :: l)).dropLast.countP fun x => x = b := by
      rw [countP_cons] at hcount
      have := h b
      split at hcount <;> omega
    obtain ⟨x, hx, heq⟩ := countP_pos_iff.mp hpos
    exact of_decide_eq_true heq ▸ hx

end

end NomoApi
