import Mathlib.Logic.Relation

/-! # Chains of references

A partial function is followed from one element to the next, until an element leads nowhere or to
itself. -/

namespace NomoApi

universe u

variable {α : Type u} {next : α → Option α} {a e e' x y : α}

open Relation

/-- **One element leads to another.** -/
def Points (next : α → Option α) (x y : α) : Prop := next x = some y ∧ y ≠ x

/-- **The chain from `a` ends at `e`**, which leads to no other element. -/
def ChainEnd (next : α → Option α) (a e : α) : Prop :=
  ReflTransGen (Points next) a e ∧ ∀ y, next e = some y → y = e

theorem points_rightUnique : Relator.RightUnique (Points next) := by
  intro x y z hy hz
  exact Option.some.inj (hy.1.symm.trans hz.1)

theorem ChainEnd.eq_of_reaches (h : ChainEnd next a e) (hx : ReflTransGen (Points next) e x) :
    x = e := by
  rcases ReflTransGen.cases_head hx with rfl | ⟨y, hy, -⟩
  · rfl
  · exact absurd (h.2 y hy.1) hy.2

theorem ChainEnd.unique (h : ChainEnd next a e) (h' : ChainEnd next a e') : e = e' := by
  rcases ReflTransGen.total_of_right_unique points_rightUnique h.1 h'.1 with hto | hto
  · exact (h.eq_of_reaches hto).symm
  · exact h'.eq_of_reaches hto

/-- **The chain from `a` comes back** to an element that it has left. -/
def EntersCycle (next : α → Option α) (a : α) : Prop :=
  ∃ x y, ReflTransGen (Points next) a x ∧ Points next x y ∧ ReflTransGen (Points next) y x

theorem EntersCycle.not_chainEnd (h : EntersCycle next a) : ¬ ChainEnd next a e := by
  obtain ⟨x, y, hx, hy, hback⟩ := h
  intro hend
  -- what can be reached from `x` leads back to `x`
  have hcycle : ∀ z, ReflTransGen (Points next) x z → ReflTransGen (Points next) z x := by
    intro z hz
    induction hz with
    | refl => exact .refl
    | tail hz hstep ih =>
      rcases ReflTransGen.cases_head ih with rfl | ⟨w, hw, hback'⟩
      · exact points_rightUnique hy hstep ▸ hback
      · exact points_rightUnique hw hstep ▸ hback'
  have hreach : ReflTransGen (Points next) e x := by
    rcases ReflTransGen.total_of_right_unique points_rightUnique hx hend.1 with hto | hto
    · exact hcycle e hto
    · exact hto
  obtain rfl := hend.eq_of_reaches hreach
  exact hy.2 (hend.2 y hy.1)

end NomoApi
