import Mathlib.Data.Set.Function

/-! # Derived tables

`derive a` is the set of rows that the source row `a` stands for, and every derived row names its
*owner*, the key of the row it comes from. The derived table is the **view** of the source when it
holds exactly those rows. The view is checked one owner at a time. -/

namespace NomoApi

universe u v w

variable {α : Type u} {β : Type v} {κ : Type w}

/-- **The derived table is the view of the source.** -/
def IsView (derive : α → Set β) (S : Set α) (D : Set β) : Prop :=
  ∀ b, b ∈ D ↔ ∃ a ∈ S, b ∈ derive a

/-- **The derived rows of one owner.** -/
def ownedBy (owner : β → κ) (D : Set β) (k : κ) : Set β := {b | b ∈ D ∧ owner b = k}

@[simp] theorem mem_ownedBy {owner : β → κ} {D : Set β} {k : κ} {b : β} :
    b ∈ ownedBy owner D k ↔ b ∈ D ∧ owner b = k := Iff.rfl

variable {key : α → κ} {owner : β → κ} {derive : α → Set β} {S : Set α} {D : Set β}

/-- **The view, one owner at a time.** -/
theorem isView_iff_ownedBy (hkey : Set.InjOn key S)
    (howner : ∀ a, ∀ b ∈ derive a, owner b = key a) : IsView derive S D ↔
      (∀ b ∈ D, ∃ a ∈ S, key a = owner b) ∧ ∀ a ∈ S, ownedBy owner D (key a) = derive a := by
  constructor
  · intro h
    refine ⟨fun b hb => ?_, fun a ha => ?_⟩
    · obtain ⟨a, ha, hba⟩ := (h b).mp hb
      exact ⟨a, ha, (howner a b hba).symm⟩
    · ext b
      rw [mem_ownedBy, h b]
      constructor
      · rintro ⟨⟨a', ha', hb⟩, hba⟩
        -- the row comes from the source row with its owner's key, and there is only one
        obtain rfl : a' = a := hkey ha' ha ((howner a' b hb).symm.trans hba)
        exact hb
      · intro hb
        exact ⟨⟨a, ha, hb⟩, howner a b hb⟩
  · rintro ⟨hstray, howned⟩ b
    constructor
    · intro hb
      obtain ⟨a, ha, hkb⟩ := hstray b hb
      refine ⟨a, ha, ?_⟩
      rw [← howned a ha]
      exact ⟨hb, hkb.symm⟩
    · rintro ⟨a, ha, hb⟩
      rw [← howned a ha] at hb
      exact hb.1

end NomoApi
