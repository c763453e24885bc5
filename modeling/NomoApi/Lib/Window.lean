import Mathlib.Data.Int.Order.Basic
import Mathlib.Data.List.Basic
import Mathlib.Data.List.Count
import Mathlib.Order.Basic

/-! # Limits over a sliding window

A limiter admits at most `n` events in any time of length `d`. A queue of the last `n` times is
enough, and those that are `d` old may be forgotten. Times and queues are newest first. -/

namespace NomoApi

open List

variable {n : Nat} {d clock now : Int} {queue admitted : List Int}

/-- How many of the times are less than `d` old. -/
def recent (d now : Int) (times : List Int) : Nat := times.countP fun b => now < b + d

/-- How many of the times are in the window of length `d` from `t` on. -/
def inWindow (d t : Int) (times : List Int) : Nat := times.countP fun a => t ≤ a ∧ a < t + d

/-- **Each event was admitted while fewer than `n` were recent.** -/
def Limited (n : Nat) (d : Int) : List Int → Prop
  | [] => True
  | a :: times => recent d a times < n ∧ Limited n d times

theorem Limited.window (h : Limited n d admitted) (t : Int) : inWindow d t admitted ≤ n := by
  induction admitted with
  | nil => exact Nat.zero_le n
  | cons a times ih =>
    rw [inWindow, countP_cons]
    by_cases ha : t ≤ a ∧ a < t + d
    · have hle : inWindow d t times ≤ recent d a times := by
        refine countP_mono_left fun b _ hb => ?_
        simp only [decide_eq_true_eq] at hb ⊢
        omega
      have hlt := h.1
      rw [if_pos (decide_eq_true ha)]
      exact Nat.succ_le_of_lt (Nat.lt_of_le_of_lt hle hlt)
    · rw [if_neg (by simpa using ha)]
      exact ih h.2

/-- **The queue has room**, or its oldest event can be dropped. -/
def Room (n : Nat) (d now : Int) (queue : List Int) : Prop :=
  queue.length < n ∨ ∃ oldest ∈ queue.getLast?, oldest + d ≤ now
deriving Decidable

theorem Room.mono (h : Room n d clock queue) (hle : clock ≤ now) : Room n d now queue :=
  h.imp_right fun ⟨oldest, holdest, hd⟩ => ⟨oldest, holdest, hd.trans hle⟩

/-- **A queue of the last events**: what it has lost of them is `d` old. -/
structure Tracks (n : Nat) (d clock : Int) (queue admitted : List Int) : Prop where
  sorted : queue.Pairwise (· ≥ ·)
  le : ∀ b ∈ queue, b ≤ clock
  length_le : queue.length ≤ n
  lost : ∃ lost, admitted = queue ++ lost ∧ ∀ b ∈ lost, b + d ≤ clock

namespace Tracks

theorem nil (n : Nat) (d clock : Int) : Tracks n d clock [] [] :=
  ⟨.nil, nofun, Nat.zero_le n, [], rfl, nofun⟩

theorem mono (h : Tracks n d clock queue admitted) (hle : clock ≤ now) :
    Tracks n d now queue admitted := by
  obtain ⟨lost, heq, hlost⟩ := h.lost
  exact ⟨h.sorted, fun b hb => (h.le b hb).trans hle, h.length_le, lost, heq,
    fun b hb => (hlost b hb).trans hle⟩

theorem forget (h : Tracks n d clock queue admitted) (hold : ∀ b ∈ queue, b + d ≤ clock) :
    Tracks n d clock [] admitted := by
  obtain ⟨lost, heq, hlost⟩ := h.lost
  refine ⟨.nil, nofun, Nat.zero_le n, admitted, rfl, fun b hb => ?_⟩
  rw [heq] at hb
  exact (mem_append.mp hb).elim (hold b) (hlost b)

section

variable (h : Tracks n d now queue admitted)

include h

theorem recent_eq :
    recent d now admitted = recent d now queue := by
  obtain ⟨lost, rfl, hlost⟩ := h.lost
  have hnone : recent d now lost = 0 := by
    refine countP_eq_zero.mpr fun b hb => ?_
    simpa using hlost b hb
  rw [recent, countP_append]
  exact Nat.add_eq_left.mpr hnone

/-- **The queue has room iff fewer than `n` events are recent.** -/
theorem room_iff :
    Room n d now queue ↔ recent d now admitted < n := by
  rw [h.recent_eq]
  have hle : recent d now queue ≤ queue.length := countP_le_length
  have hlen := h.length_le
  cases hlast : queue.getLast? with
  | none =>
    rw [getLast?_eq_none_iff.mp hlast]
    simp [Room, recent]
  | some oldest =>
    obtain ⟨init, rfl⟩ := getLast?_eq_some_iff.mp hlast
    rw [Room, hlast]
    by_cases hold : oldest + d ≤ now
    · refine iff_of_true (.inr ⟨oldest, rfl, hold⟩) ?_
      have hinit : recent d now init ≤ init.length := countP_le_length
      have hlast : recent d now (init ++ [oldest]) = recent d now init := by
        simp [recent, hold]
      rw [hlast]
      rw [length_append, length_singleton] at hlen
      omega
    -- all events are at most as old as the oldest one
    · have hall : recent d now (init ++ [oldest]) = (init ++ [oldest]).length := by
        refine countP_eq_length.mpr fun b hb => decide_eq_true ?_
        rcases mem_append.mp hb with hb | hb
        · have hge := (pairwise_append.mp h.sorted).2.2 b hb oldest (by simp)
          omega
        · rw [mem_singleton.mp hb]
          omega
      rw [hall]
      exact or_iff_left fun ⟨_, rfl, hle⟩ => hold hle

/-- **An event is admitted**: a full queue drops the oldest one. -/
theorem push (hroom : Room n d now queue) :
    Tracks n d now ((now :: queue).take n) (now :: admitted) := by
  obtain ⟨lost, rfl, hlost⟩ := h.lost
  have hsorted : (now :: queue).Pairwise (· ≥ ·) := pairwise_cons.mpr ⟨h.le, h.sorted⟩
  refine ⟨hsorted.sublist (take_sublist ..), fun b hb => ?_, length_take_le ..,
    (now :: queue).drop n ++ lost, ?_, fun b hb => ?_⟩
  · rcases mem_cons.mp (mem_of_mem_take hb) with rfl | hb
    · exact le_rfl
    · exact h.le b hb
  · rw [← append_assoc, take_append_drop, cons_append]
  · rcases mem_append.mp hb with hb | hb
    · rcases hroom with hlt | ⟨oldest, holdest, hle⟩
      · rw [drop_eq_nil_of_le (Nat.succ_le_of_lt hlt)] at hb
        cases hb
      -- a full queue drops its oldest event only
      · obtain ⟨init, rfl⟩ := getLast?_eq_some_iff.mp holdest
        have hlen := h.length_le
        rw [length_append, length_singleton] at hlen
        rw [← cons_append, drop_append,
          drop_eq_nil_of_le (show (now :: init).length ≤ n from hlen)] at hb
        rw [mem_singleton.mp (mem_of_mem_drop hb)]
        exact hle
    · exact hlost b hb

end

end Tracks

end NomoApi
