import Mathlib.Logic.Function.Basic

/-! # Locks

A process of `ι` takes a lock of `κ` that is free or its own, and releases all its locks at once. -/

namespace NomoApi

universe u v w x

variable {ι : Type u} {κ : Type v}

/-- **The holder of every lock.** -/
abbrev Locks (ι : Type u) (κ : Type v) := κ → Option ι

namespace Locks

def allFree : Locks ι κ := fun _ => none

def Available (l : Locks ι κ) (i : ι) (k : κ) : Prop := l k = none ∨ l k = some i

instance [DecidableEq ι] (l : Locks ι κ) (i : ι) (k : κ) : Decidable (l.Available i k) :=
  inferInstanceAs (Decidable (_ ∨ _))

def take [DecidableEq κ] (l : Locks ι κ) (i : ι) (k : κ) : Locks ι κ :=
  Function.update l k (some i)

def release [DecidableEq ι] (l : Locks ι κ) (i : ι) : Locks ι κ :=
  fun k => if l k = some i then none else l k

variable {l : Locks ι κ} {i j : ι} {k k' : κ}

theorem take_self [DecidableEq κ] : l.take i k k = some i := Function.update_self ..

theorem held_take [DecidableEq κ] (h : l.Available i k) (hj : l k' = some j) :
    l.take i k k' = some j := by
  by_cases hk : k' = k
  · subst hk
    rcases h with h | h
    · rw [h] at hj
      cases hj
    · rw [h] at hj
      rw [take_self, hj]
  · rw [take, Function.update_of_ne hk, hj]

theorem held_release [DecidableEq ι] (hne : j ≠ i) (hj : l k = some j) :
    l.release i k = some j := by
  have hnot : l k ≠ some i := by
    rw [hj]
    exact fun h => hne (Option.some.inj h)
  rw [release, if_neg hnot, hj]

end Locks

theorem waits {σ : Type w} {φ : Type x} {P : σ → φ → Prop} {s : σ} {p : φ} {r : σ × φ} {c : Prop}
    [Decidable c] (hbefore : P s p) (hafter : c → P r.1 r.2) :
    P (if c then r else (s, p)).1 (if c then r else (s, p)).2 := by
  split
  · rename_i hc
    exact hafter hc
  · exact hbefore

end NomoApi
