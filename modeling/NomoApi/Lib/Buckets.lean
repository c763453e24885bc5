import NomoApi.Lib.Table

/-! # Buckets of lists under two keys

A map of maps of lists. The outer maps are made beforehand; an entry for an outer key that has none
is refused. Everything is said in terms of `list`, the bucket of two keys. -/

namespace NomoApi

open List Table

universe u v w

abbrev Buckets (κ : Type u) (μ : Type v) (α : Type w) : Type (max u v w) :=
  Table (κ × Table (μ × List α) Prod.fst) Prod.fst

namespace Buckets

variable {κ : Type u} {μ : Type v} {α : Type w} [DecidableEq κ] [DecidableEq μ]

def inner (t : Table (μ × List α) Prod.fst) (m : μ) : List α := ((t.find? m).map Prod.snd).getD []

variable (b : Buckets κ μ α) (g : κ)

/-- **The bucket of two keys.** -/
def list (m : μ) : List α :=
  ((b.find? g).map fun e => inner e.2 m).getD []

def HasKey : Prop := (b.find? g).isSome
deriving Decidable

/-- **Empty maps** for some outer keys. -/
def ofKeys (gs : List κ) : Buckets κ μ α := gs.foldl (fun b g => b.put (g, .empty)) .empty

/-- **Put an entry at the end of a bucket**, if there is a map for the outer key. -/
def append? (m : μ) (a : α) : Option (Buckets κ μ α) :=
  (b.find? g).map fun e => b.put (g, e.2.put (m, inner e.2 m ++ [a]))

/-- **Put in several entries.** -/
def appendAll? (l : List (κ × μ × α)) : Option (Buckets κ μ α) :=
  l.foldlM (fun b e => b.append? e.1 e.2.1 e.2.2) b

/-- **Change every bucket.** -/
def mapLists (f : List α → List α) (b : Buckets κ μ α) : Buckets κ μ α :=
  b.updateWhere (fun _ => true)
    (fun e => (e.1, e.2.updateWhere (fun _ => true) (fun e => (e.1, f e.2)) fun _ => rfl))
    fun _ => rfl

variable {b : Buckets κ μ α} {g : κ}

theorem list_put (g g' : κ) (t : Table (μ × List α) Prod.fst) (m : μ) :
    list (b.put (g, t)) g' m = if g' = g then inner t m else b.list g' m := by
  rw [list, find?_put]
  by_cases hg : g' = g
  · rw [if_pos hg, if_pos hg]
    rfl
  · rw [if_neg hg, if_neg hg]
    rfl

omit [DecidableEq μ] in
theorem hasKey_put (g g' : κ) (t : Table (μ × List α) Prod.fst) :
    HasKey (b.put (g, t)) g' ↔ g' = g ∨ b.HasKey g' := by
  rw [HasKey, HasKey, find?_put]
  by_cases hg : g' = g <;> simp [hg]

theorem ofKeys_spec (gs : List κ) : (∀ g, (ofKeys gs : Buckets κ μ α).HasKey g ↔ g ∈ gs) ∧
      ∀ g m, (ofKeys gs : Buckets κ μ α).list g m = [] := by
  -- the induction is on the keys, from any buckets that are empty so far
  have hloop : ∀ (gs : List κ) (b : Buckets κ μ α), (∀ g m, b.list g m = []) →
      (∀ g, (gs.foldl (fun b g => b.put (g, .empty)) b).HasKey g ↔ g ∈ gs ∨ b.HasKey g) ∧
        ∀ g m, (gs.foldl (fun b g => b.put (g, .empty)) b).list g m = [] := by
    intro gs
    induction gs with
    | nil => intro b hb; exact ⟨fun g => by simp, hb⟩
    | cons g₀ gs ih =>
      intro b hb
      have hput : ∀ g m, list (b.put (g₀, .empty)) g m = [] := by
        intro g m
        rw [list_put]
        split
        · rfl
        · exact hb g m
      obtain ⟨hkeys, hlists⟩ := ih _ hput
      refine ⟨fun g => ?_, hlists⟩
      rw [foldl_cons, hkeys, hasKey_put, mem_cons, or_assoc, or_left_comm]
  obtain ⟨hkeys, hlists⟩ := hloop gs .empty (fun _ _ => rfl)
  refine ⟨fun g => (hkeys g).trans (or_iff_left ?_), hlists⟩
  intro h
  cases h

variable {b' : Buckets κ μ α} {m : μ} {a : α}

theorem list_append? (h : b.append? g m a = some b') (g' : κ) (m' : μ) :
    b'.list g' m' = b.list g' m' ++ if g' = g ∧ m' = m then [a] else [] := by
  obtain ⟨e, hfind, rfl⟩ := Option.map_eq_some_iff.mp h
  rw [list_put]
  split
  · rename_i hg
    rw [hg, list, hfind, Option.map_some, Option.getD_some, inner, find?_put]
    by_cases hm : m' = m
    · rw [if_pos hm, if_pos ⟨rfl, hm⟩, hm]
      rfl
    · rw [if_neg hm, if_neg (fun h => hm h.2), append_nil]
      rfl
  · rename_i hg
    rw [if_neg (fun h => hg h.1), append_nil]

theorem append?_isSome : (b.append? g m a).isSome ↔ b.HasKey g := by
  rw [append?, Option.isSome_map, HasKey]

theorem hasKey_append? (h : b.append? g m a = some b') (g' : κ) : b'.HasKey g' ↔ b.HasKey g' := by
  obtain ⟨e, hfind, rfl⟩ := Option.map_eq_some_iff.mp h
  rw [hasKey_put, or_iff_right_of_imp]
  rintro rfl
  rw [HasKey, hfind]
  rfl

variable {l : List (κ × μ × α)}

theorem appendAll?_isSome : (b.appendAll? l).isSome ↔ ∀ e ∈ l, b.HasKey e.1 := by
  induction l generalizing b with
  | nil => simp [appendAll?]
  | cons e l ih =>
    rw [appendAll?, foldlM_cons, forall_mem_cons, ← append?_isSome (m := e.2.1) (a := e.2.2)]
    cases happend : b.append? e.1 e.2.1 e.2.2 with
    | none => simp
    | some b' =>
      have hrest : (b'.appendAll? l).isSome ↔ ∀ e ∈ l, b.HasKey e.1 := by
        rw [ih]
        exact forall_congr' fun e => imp_congr_right fun _ => hasKey_append? happend e.1
      simpa [appendAll?] using hrest

/-- **The buckets after several entries**: each has got its own ones. -/
theorem list_appendAll? (h : b.appendAll? l = some b') (g : κ) (m : μ) : b'.list g m = b.list g m ++
      (l.filter fun e => e.1 = g ∧ e.2.1 = m).map fun e => e.2.2 := by
  induction l generalizing b with
  | nil => cases h; simp
  | cons e l ih =>
    rw [appendAll?, foldlM_cons] at h
    obtain ⟨b₁, h₁, h₂⟩ := Option.bind_eq_some_iff.mp h
    rw [ih h₂, list_append? h₁, append_assoc, filter_cons]
    by_cases he : e.1 = g ∧ e.2.1 = m
    · rw [if_pos ⟨he.1.symm, he.2.symm⟩, if_pos (decide_eq_true he)]
      rfl
    · rw [if_neg (fun h => he ⟨h.1.symm, h.2.symm⟩), if_neg (by simpa using he)]
      rfl

theorem count_list_appendAll? [DecidableEq α] (h : b.appendAll? l = some b') (g : κ) (m : μ)
    (a : α) : (b'.list g m).count a = (b.list g m).count a + l.count (g, m, a) := by
  rw [list_appendAll? h, count_append]
  congr 1
  clear h
  induction l with
  | nil => rfl
  | cons e l ih =>
    obtain ⟨g', m', a'⟩ := e
    rw [filter_cons, count_cons, ← ih]
    by_cases hg : g' = g ∧ m' = m
    · obtain ⟨rfl, rfl⟩ := hg
      rw [if_pos (decide_eq_true ⟨rfl, rfl⟩), map_cons, count_cons]
      simp
    · rw [if_neg (by simpa using hg), if_neg, Nat.add_zero]
      simp only [beq_iff_eq, Prod.mk.injEq]
      exact fun heq => hg ⟨heq.1, heq.2.1⟩

theorem list_mapLists {f : List α → List α} (hf : f [] = []) (b : Buckets κ μ α) (g : κ) (m : μ) :
    (b.mapLists f).list g m = f (b.list g m) := by
  rw [list, mapLists, find?_updateWhere, list]
  cases b.find? g with
  | none => exact hf.symm
  | some e =>
    simp only [Option.map_some, if_true, Option.getD_some, inner, find?_updateWhere]
    cases e.2.find? m with
    | none => exact hf.symm
    | some e' => rfl

end Buckets

end NomoApi
