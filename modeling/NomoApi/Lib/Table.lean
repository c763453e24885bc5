import NomoApi.Lib.Lists
import Mathlib.Algebra.Order.BigOperators.Group.List
import Mathlib.Algebra.Order.Group.Int
import Mathlib.Algebra.Ring.Int.Defs

/-! # Keyed tables

A database table is a list of rows together with the proof that no two rows share a key. -/

namespace NomoApi

open List

universe u v

/-- A table with rows `α`, no two of which have the same `key`. -/
structure Table (α : Type u) {κ : Type v} (key : α → κ) where
  rows : List α
  nodup : (rows.map key).Nodup

namespace Table

variable {α : Type u} {κ : Type v} {key : α → κ}

variable {t t' : Table α key}

@[ext] theorem ext (h : t.rows = t'.rows) : t = t' := by
  cases t; cases t'; cases h; rfl

instance [DecidableEq α] : DecidableEq (Table α key) := fun t t' =>
  decidable_of_iff (t.rows = t'.rows) ⟨ext, congrArg rows⟩

instance : Membership α (Table α key) := ⟨fun t a => a ∈ t.rows⟩

variable {a : α}

theorem mem_iff : a ∈ t ↔ a ∈ t.rows := Iff.rfl

instance [DecidableEq α] (t : Table α key) (a : α) : Decidable (a ∈ t) :=
  inferInstanceAs (Decidable (a ∈ t.rows))

variable {b : α}

theorem eq_of_key_eq (ha : a ∈ t) (hb : b ∈ t) (h : key a = key b) :
    a = b := List.inj_on_of_nodup_map t.nodup ha hb h

def empty : Table α key := ⟨[], List.nodup_nil⟩

def singleton (a : α) : Table α key := ⟨[a], List.nodup_singleton _⟩

/-- **`UPDATE … SET … WHERE p`**: `f` applied to the rows that satisfy `p`. -/
def updateWhere (t : Table α key) (p : α → Bool) (f : α → α) (hf : ∀ a, key (f a) = key a) :
    Table α key where
  rows := t.rows.map fun a => if p a then f a else a
  nodup := by
    have hkey : (t.rows.map fun a => if p a then f a else a).map key = t.rows.map key := by
      rw [List.map_map]
      refine List.map_congr_left fun a _ => ?_
      by_cases hp : p a <;> simp [hp, hf]
    rw [hkey]
    exact t.nodup

variable {p : α → Bool}

theorem mem_updateWhere {f : α → α} {hf : ∀ a, key (f a) = key a} :
    b ∈ t.updateWhere p f hf ↔ ∃ a ∈ t, (if p a then f a else a) = b := List.mem_map

/-- **`SELECT … WHERE p`**, as a table of its own. -/
def filter (t : Table α key) (p : α → Bool) : Table α key where
  rows := t.rows.filter p
  nodup := t.nodup.sublist (List.filter_sublist.map key)

theorem mem_filter : a ∈ t.filter p ↔ a ∈ t ∧ p a = true := List.mem_filter

/-! ### Totals -/

/-- **The sum of a column.** -/
def total (t : Table α key) (f : α → Int) : Int := (t.rows.map f).sum

@[simp] theorem total_empty (f : α → Int) : (empty : Table α key).total f = 0 := rfl

theorem total_eq_zero {f : α → Int} (h : ∀ a ∈ t, f a = 0) : t.total f = 0 := by
  refine sum_eq_zero fun x hx => ?_
  obtain ⟨a, ha, rfl⟩ := mem_map.mp hx
  exact h a ha

theorem le_total {f : α → Int} (h : ∀ a ∈ t, 0 ≤ f a) (ha : a ∈ t) : f a ≤ t.total f := by
  refine single_le_sum ?_ _ (mem_map_of_mem ha)
  intro x hx
  obtain ⟨b, hb, rfl⟩ := mem_map.mp hx
  exact h b hb

/-! ### Rows by key -/

variable [DecidableEq κ]

/-- **Lookup by key.** -/
def find? (t : Table α key) (k : κ) : Option α := t.rows.find? fun a => key a = k

variable {k : κ}

theorem find?_eq_some : t.find? k = some a ↔ a ∈ t ∧ key a = k := by
  constructor
  · intro h
    exact ⟨mem_of_find?_eq_some h, by simpa using find?_some h⟩
  · rintro ⟨ha, rfl⟩
    -- the lookup finds some row with the key, and there is only one
    cases hfind : t.find? (key a) with
    | none =>
      have := find?_eq_none.mp hfind a ha
      simp at this
    | some b =>
      have hb : b ∈ t := mem_of_find?_eq_some hfind
      have hkey : key b = key a := by simpa using find?_some hfind
      rw [eq_of_key_eq hb ha hkey]

theorem find?_eq_none : t.find? k = none ↔ ∀ a ∈ t, key a ≠ k := by
  simp only [Option.eq_none_iff_forall_ne_some, ne_eq, find?_eq_some, not_and]

theorem find?_key (ha : a ∈ t) : t.find? (key a) = some a :=
  find?_eq_some.mpr ⟨ha, rfl⟩

theorem eq_of_find? (ha : a ∈ t) (hk : key a = k) (hb : t.find? k = some b) : a = b := by
  obtain ⟨hmem, hkey⟩ := find?_eq_some.mp hb
  exact eq_of_key_eq ha hmem (hk.trans hkey.symm)

theorem rows_filter_key (h : t.find? k = some a) : (t.filter fun b => key b = k).rows = [a] := by
  obtain ⟨ha, rfl⟩ := find?_eq_some.mp h
  exact filter_key_eq t.nodup ha

theorem find?_updateWhere (t : Table α key) (p : α → Bool) (f : α → α)
    (hf : ∀ a, key (f a) = key a) (k : κ) :
    (t.updateWhere p f hf).find? k = (t.find? k).map fun a => if p a then f a else a := by
  rw [find?, updateWhere, find?_map, find?]
  congr 2
  funext a
  by_cases hp : p a <;> simp [hp, hf]

/-- **Save**: the row with `a`'s key, if there is one, becomes `a`. -/
def save (t : Table α key) (a : α) : Table α key where
  rows := t.rows.map fun b => if key b = key a then a else b
  nodup := by
    have hkey : (t.rows.map fun b => if key b = key a then a else b).map key = t.rows.map key := by
      rw [List.map_map]
      refine List.map_congr_left fun b _ => ?_
      by_cases hb : key b = key a <;> simp [hb]
    rw [hkey]
    exact t.nodup

theorem mem_save : b ∈ t.save a ↔ ∃ c ∈ t, (if key c = key a then a else c) = b := List.mem_map

theorem mem_save_of_find? {x : α} (hk : key a = k) (h : t.find? k = some b) :
    x ∈ t.save a ↔ x = a ∨ (x ∈ t ∧ x ≠ b) := by
  subst hk
  obtain ⟨hb, hkey⟩ := find?_eq_some.mp h
  rw [mem_save]
  constructor
  · rintro ⟨c, hc, rfl⟩
    by_cases hca : key c = key a
    · exact .inl (if_pos hca)
    · rw [if_neg hca]
      refine .inr ⟨hc, ?_⟩
      rintro rfl
      exact hca hkey
  · rintro (rfl | ⟨hx, hne⟩)
    · exact ⟨b, hb, if_pos hkey⟩
    · refine ⟨x, hx, if_neg fun hkx => hne ?_⟩
      exact eq_of_key_eq hx hb (hkx.trans hkey.symm)

theorem find?_save (hk : key a = k) (h : t.find? k = some b) : (t.save a).find? k = some a := by
  subst hk
  obtain ⟨hb, hkey⟩ := find?_eq_some.mp h
  exact find?_eq_some.mpr ⟨mem_save.mpr ⟨b, hb, by rw [if_pos hkey]⟩, rfl⟩

theorem find?_save_of_ne (h : k ≠ key a) : (t.save a).find? k = t.find? k := by
  ext b
  rw [find?_eq_some, find?_eq_some, mem_save]
  constructor
  · rintro ⟨⟨c, hc, hcb⟩, rfl⟩
    split at hcb
    · exact absurd (congrArg key hcb).symm h
    · exact ⟨hcb ▸ hc, rfl⟩
  · rintro ⟨hb, rfl⟩
    exact ⟨⟨b, hb, if_neg h⟩, rfl⟩

theorem save_of_mem (ha : a ∈ t) : t.save a = t := by
  ext1
  have hrows : (t.rows.map fun b => if key b = key a then a else b) = t.rows.map id := by
    refine map_congr_left fun b hb => ?_
    by_cases hkey : key b = key a
    · rw [if_pos hkey]; exact (eq_of_key_eq hb ha hkey).symm
    · rw [if_neg hkey]; rfl
  simpa [save] using hrows

theorem save_save (h : key a = key b) : (t.save a).save b = t.save b := by
  ext1
  simp only [save, map_map]
  refine map_congr_left fun c _ => ?_
  by_cases hc : key c = key a
  · simp [hc, h]
  · have hcb : key c ≠ key b := h ▸ hc
    simp [hc, hcb]

theorem save_of_not_mem (h : ∀ b ∈ t, key b ≠ key a) : t.save a = t := by
  ext1
  have hrows : (t.rows.map fun b => if key b = key a then a else b) = t.rows.map id :=
    map_congr_left fun b hb => if_neg (h b hb)
  simpa [save] using hrows

theorem filter_save (h : ∀ b ∈ t, key b = key a → p b = p a) :
    (t.save a).filter p = (t.filter p).save a := by
  ext1
  simp only [save, filter]
  have hlist : ∀ l : List α, (∀ b ∈ l, key b = key a → p b = p a) →
      (l.map fun b => if key b = key a then a else b).filter p =
        (l.filter p).map fun b => if key b = key a then a else b := by
    intro l hl
    induction l with
    | nil => rfl
    | cons b l ih =>
      have hrest := ih fun c hc => hl c (mem_cons_of_mem b hc)
      have hb : p (if key b = key a then a else b) = p b := by
        by_cases hkey : key b = key a
        · rw [if_pos hkey, hl b mem_cons_self hkey]
        · rw [if_neg hkey]
      rw [map_cons, filter_cons, filter_cons, hb, hrest]
      by_cases hp : p b = true
      · rw [if_pos hp, if_pos hp, map_cons]
      · rw [if_neg hp, if_neg hp]
  exact hlist t.rows h

theorem find?_filter : (t.filter p).find? k = some a ↔ t.find? k = some a ∧ p a = true := by
  rw [find?_eq_some, find?_eq_some, mem_filter]
  exact and_right_comm

/-- **Insert**: refused when the key is taken. -/
def insert? (t : Table α key) (a : α) : Option (Table α key) :=
  if h : key a ∈ t.rows.map key then none
  else some ⟨t.rows ++ [a], by
    rw [List.map_append, List.nodup_append]
    refine ⟨t.nodup, List.nodup_singleton _, ?_⟩
    intro k hk k' hk'
    obtain rfl : k' = key a := by simpa using hk'
    rintro rfl
    exact h hk⟩

theorem insert?_eq_some (h : t.insert? a = some t') :
    t'.rows = t.rows ++ [a] ∧ key a ∉ t.rows.map key := by
  unfold insert? at h
  split at h
  · cases h
  · rename_i hkey
    cases h
    exact ⟨rfl, hkey⟩

theorem exists_insert? (h : t.find? (key a) = none) : ∃ t', t.insert? a = some t' := by
  have hfree : key a ∉ t.rows.map key := by
    intro hmem
    obtain ⟨b, hb, hkey⟩ := mem_map.mp hmem
    exact find?_eq_none.mp h b hb hkey
  exact ⟨_, dif_neg hfree⟩

theorem mem_insert? (h : t.insert? a = some t') : b ∈ t' ↔ b ∈ t ∨ b = a := by
  rw [mem_iff, (insert?_eq_some h).1, mem_append, mem_singleton, mem_iff]

theorem find?_insert? (h : t.insert? a = some t') : t'.find? (key a) = some a :=
  find?_eq_some.mpr ⟨(mem_insert? h).mpr (.inr rfl), rfl⟩

theorem find?_insert?_of_ne (h : t.insert? a = some t') (hk : k ≠ key a) :
    t'.find? k = t.find? k := by
  ext b
  rw [find?_eq_some, find?_eq_some, mem_insert? h]
  constructor
  · rintro ⟨hb | rfl, hkey⟩
    · exact ⟨hb, hkey⟩
    · exact absurd hkey.symm hk
  · rintro ⟨hb, hkey⟩
    exact ⟨.inl hb, hkey⟩

/-- **Insert unless the key is taken.** -/
def insertIgnore (t : Table α key) (a : α) : Table α key := (t.insert? a).getD t

theorem rows_foldl_insertIgnore {l : List α} (h : ((t.rows ++ l).map key).Nodup) :
    (l.foldl insertIgnore t).rows = t.rows ++ l := by
  induction l generalizing t with
  | nil => simp
  | cons a l ih =>
    have hfree : key a ∉ t.rows.map key := by
      intro hmem
      rw [map_append, nodup_append] at h
      exact h.2.2 _ hmem _ mem_cons_self rfl
    have hrows : (t.insertIgnore a).rows = t.rows ++ [a] := by
      rw [insertIgnore, insert?, dif_neg hfree]
      rfl
    rw [foldl_cons, ih]
    · simp [hrows]
    · simpa [hrows] using h

/-- **Delete by key.** -/
def erase (t : Table α key) (k : κ) : Table α key where
  rows := t.rows.filter fun a => key a ≠ k
  nodup := t.nodup.sublist (List.filter_sublist.map key)

theorem mem_erase : a ∈ t.erase k ↔ a ∈ t ∧ key a ≠ k := by
  simp [erase, mem_iff]

theorem find?_erase (t : Table α key) (k k' : κ) :
    (t.erase k).find? k' = if k' = k then none else t.find? k' := by
  ext b
  rw [find?_eq_some, mem_erase]
  split
  · rename_i hk
    constructor
    · rintro ⟨⟨-, hne⟩, hkey⟩
      exact absurd (hkey.trans hk) hne
    · intro h
      cases h
  · rename_i hk
    rw [find?_eq_some]
    constructor
    · rintro ⟨⟨hb, -⟩, hkey⟩
      exact ⟨hb, hkey⟩
    · rintro ⟨hb, hkey⟩
      exact ⟨⟨hb, fun h => hk (hkey.symm.trans h)⟩, hkey⟩

theorem mem_erase_of_find? {x : α} (h : t.find? k = some b) : x ∈ t.erase k ↔ x ∈ t ∧ x ≠ b := by
  obtain ⟨hb, rfl⟩ := find?_eq_some.mp h
  rw [mem_erase]
  constructor
  · rintro ⟨hx, hne⟩
    refine ⟨hx, ?_⟩
    rintro rfl
    exact hne rfl
  · rintro ⟨hx, hne⟩
    exact ⟨hx, fun hkey => hne (eq_of_key_eq hx hb hkey)⟩

/-- **A row in the place of what has its key.** -/
def put (t : Table α key) (a : α) : Table α key := (t.erase (key a)).insertIgnore a

theorem find?_put (t : Table α key) (a : α) (k : κ) :
    (t.put a).find? k = if k = key a then some a else t.find? k := by
  have hfree : (t.erase (key a)).find? (key a) = none := by rw [find?_erase, if_pos rfl]
  obtain ⟨t', hinsert⟩ := exists_insert? hfree
  rw [put, insertIgnore, hinsert, Option.getD_some]
  split
  · rename_i hk
    rw [hk, find?_insert? hinsert]
  · rename_i hk
    rw [find?_insert?_of_ne hinsert hk, find?_erase, if_neg hk]

@[simp] theorem put_empty (a : α) : (empty : Table α key).put a = singleton a := rfl

theorem total_insert? (h : t.insert? a = some t') (f : α → Int) : t'.total f = t.total f + f a := by
  rw [total, total, (insert?_eq_some h).1]
  simp

theorem total_save (hk : key a = k) (h : t.find? k = some b) (f : α → Int) :
    (t.save a).total f = t.total f - f b + f a := by
  subst hk
  obtain ⟨hb, hkey⟩ := find?_eq_some.mp h
  have hlist : ∀ l : List α, (l.map key).Nodup → b ∈ l →
      ((l.map fun x => if key x = key a then a else x).map f).sum =
        (l.map f).sum - f b + f a := by
    intro l hnodup hmem
    induction l with
    | nil => cases hmem
    | cons x l ih =>
      rw [map_cons, nodup_cons] at hnodup
      simp only [map_cons, sum_cons]
      rcases mem_cons.mp hmem with rfl | hmem
      · have hrest : (l.map fun x => if key x = key a then a else x) = l.map id := by
          refine map_congr_left fun y hy => ?_
          have hne : key y ≠ key a := by
            rintro heq
            exact hnodup.1 (mem_map.mpr ⟨y, hy, heq.trans hkey.symm⟩)
          rw [if_neg hne, id]
        rw [hrest, map_id, if_pos hkey]
        omega
      · have hne : key x ≠ key a := by
          rintro heq
          exact hnodup.1 (mem_map.mpr ⟨b, hmem, hkey.trans heq.symm⟩)
        rw [if_neg hne, ih hnodup.2 hmem]
        omega
  exact hlist t.rows t.nodup hb

end Table

end NomoApi
