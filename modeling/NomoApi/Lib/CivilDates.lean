import NomoApi.Lib.Calendar
import Mathlib.Order.Basic

/-! # Dates in UTC

The civil date of a day is computed from the day of its cycle of 400 years, in years that begin in
March. This file shows that the computation finds the date (`MarchDate.civil`) and what calendar
addition comes to in UTC. -/

namespace NomoApi

open Location Int

/-! ### Years that begin in March -/

def yearStart (y : Int) : Int := 365 * y + y / 4 - y / 100 + y / 400

theorem yearStart_mono {y y' : Int} (h : y ≤ y') : yearStart y ≤ yearStart y' := by
  unfold yearStart
  omega

theorem daysFromCivil_eq (y m d : Int) :
    daysFromCivil y m d = yearStart (if m ≤ 2 then y - 1 else y) +
      (153 * (if m > 2 then m - 3 else m + 9) + 2) / 5 + d - 1 - 719468 := by
  unfold daysFromCivil yearStart
  dsimp only
  omega

/-- The leap days before day `n` of a cycle of 400 years, taken off. -/
def leapless (n : Int) : Int := n - n / 1460 + n / 36524 - n / 146096

theorem leapless_mono {n n' : Int} (h : n ≤ n') : leapless n ≤ leapless n' := by
  unfold leapless
  omega

theorem leapless_yearStart : ∀ k : Fin 400, 365 * (k : Int) ≤ leapless (yearStart k) ∧
      leapless (yearStart (k + 1) - 1) < 365 * (k : Int) + 365 := by
  decide +kernel

theorem leapless_bounds {n : Int} (h0 : 0 ≤ n) (h1 : n < 146097) :
    0 ≤ leapless n / 365 ∧ leapless n / 365 < 400 ∧ yearStart (leapless n / 365) ≤ n ∧
      n < yearStart (leapless n / 365 + 1) := by
  have hrange : 0 ≤ leapless n / 365 ∧ leapless n / 365 < 400 := by
    unfold leapless
    omega
  generalize hk : leapless n / 365 = k at hrange ⊢
  obtain ⟨hk0, hk1⟩ := hrange
  refine ⟨hk0, hk1, ?_, ?_⟩
  · by_contra hlt
    rcases eq_or_ne k 0 with rfl | hne
    · exact hlt h0
    · obtain ⟨-, hstart⟩ := leapless_yearStart ⟨(k - 1).toNat, by omega⟩
      have hcast : (((k - 1).toNat : Nat) : Int) = k - 1 := by omega
      simp only [hcast, sub_add_cancel] at hstart
      have hmono := leapless_mono (show n ≤ yearStart k - 1 by omega)
      omega
  · by_contra hge
    rcases eq_or_ne k 399 with rfl | hne
    · exact hge h1
    · obtain ⟨hstart, -⟩ := leapless_yearStart ⟨(k + 1).toNat, by omega⟩
      have hcast : (((k + 1).toNat : Nat) : Int) = k + 1 := by omega
      simp only [hcast] at hstart
      have hmono := leapless_mono (show yearStart (k + 1) ≤ n by omega)
      omega

/-- **A date in the year that begins in March.** -/
structure MarchDate (z year month day : Int) : Prop where
  month_nonneg : 0 ≤ month
  month_lt : month < 12
  day_pos : 1 ≤ day
  eq : z + 719468 = yearStart year + (153 * month + 2) / 5 + day - 1
  inMonth : month < 11 → (153 * month + 2) / 5 + day - 1 < (153 * (month + 1) + 2) / 5
  inYear : z + 719468 < yearStart (year + 1)

def marchCivil (year month day : Int) : Int × Int × Int :=
  (if month < 10 then year else year + 1, if month < 10 then month + 3 else month - 9, day)

theorem civilFromDays_spec (z : Int) :
    ∃ year month day, MarchDate z year month day ∧ civilFromDays z = marchCivil year month day := by
  have hrange : 0 ≤ z + 719468 - (z + 719468) / 146097 * 146097 ∧
      z + 719468 - (z + 719468) / 146097 * 146097 < 146097 := by omega
  generalize hera : (z + 719468) / 146097 = era at hrange
  generalize hdoe : z + 719468 - era * 146097 = doe at hrange
  obtain ⟨hy0, hy1, hlow, hhigh⟩ := leapless_bounds hrange.1 hrange.2
  generalize hyoe : leapless doe / 365 = yoe at hy0 hy1 hlow hhigh
  have hstart : yearStart (yoe + era * 400) = era * 146097 + (365 * yoe + yoe / 4 - yoe / 100) := by
    unfold yearStart
    omega
  have hstart' : yearStart (yoe + era * 400 + 1) = era * 146097 + yearStart (yoe + 1) := by
    unfold yearStart
    omega
  have hyear : yearStart yoe = 365 * yoe + yoe / 4 - yoe / 100 := by
    unfold yearStart
    omega
  have hlen : yearStart (yoe + 1) ≤ yearStart yoe + 366 := by
    unfold yearStart
    omega
  generalize hdoy : doe - (365 * yoe + yoe / 4 - yoe / 100) = doy
  refine ⟨yoe + era * 400, (5 * doy + 2) / 153, doy - (153 * ((5 * doy + 2) / 153) + 2) / 5 + 1,
    ⟨by omega, by omega, by omega, by omega, fun _ => by omega, by omega⟩, ?_⟩
  unfold civilFromDays
  unfold leapless at hyoe
  simp only [hera, hdoe, hyoe, hdoy, marchCivil]
  by_cases hm : (5 * doy + 2) / 153 < 10
  · simp only [if_pos hm]
    rw [if_neg (by omega)]
  · simp only [if_neg hm]
    rw [if_pos (by omega)]

theorem MarchDate.unique {z year month day year' month' day' : Int}
    (h : MarchDate z year month day) (h' : MarchDate z year' month' day') :
    year = year' ∧ month = month' ∧ day = day' := by
  obtain ⟨hm0, hm1, hd, heq, hin, hyr⟩ := h
  obtain ⟨hm0', hm1', hd', heq', hin', hyr'⟩ := h'
  have hyear : year = year' := by
    rcases Int.lt_trichotomy year year' with hlt | heq | hlt
    · have := yearStart_mono (show year + 1 ≤ year' by omega)
      omega
    · exact heq
    · have := yearStart_mono (show year' + 1 ≤ year by omega)
      omega
  subst hyear
  have hmonth : month = month' := by omega
  subst hmonth
  exact ⟨rfl, rfl, by omega⟩

variable {z year month day : Int}

theorem MarchDate.civil (h : MarchDate z year month day) :
    civilFromDays z = marchCivil year month day := by
  obtain ⟨y, m, d, hdate, hcivil⟩ := civilFromDays_spec z
  obtain ⟨rfl, rfl, rfl⟩ := h.unique hdate
  exact hcivil

theorem MarchDate.daysFromCivil_marchCivil (h : MarchDate z year month day) (d : Int) :
    daysFromCivil (marchCivil year month day).1 (marchCivil year month day).2.1 d =
      z - day + d := by
  obtain ⟨hm0, hm1, -, heq, -, -⟩ := h
  rw [daysFromCivil_eq, marchCivil]
  dsimp only
  by_cases hm : month < 10
  · simp only [if_pos hm]
    rw [if_neg (by omega), if_pos (by omega), Int.add_sub_cancel]
    omega
  · simp only [if_neg hm]
    rw [if_pos (by omega), if_neg (by omega), Int.add_sub_cancel, sub_add_cancel]
    omega

/-! ### The clock that shows UTC -/

theorem utc_date (y m d s : Int) : utc.date y m d s =
      daysFromCivil (y + (m - 1) / 12) ((m - 1) % 12 + 1) d * 86400 + s := by
  simp only [date, utc, if_true, daysFromCivil_eq]
  omega

theorem MarchDate.utc_date (h : MarchDate z year month day) (d s : Int) :
    utc.date (marchCivil year month day).1 (marchCivil year month day).2.1 d s =
      (z - day + d) * 86400 + s := by
  have hm0 := h.month_nonneg
  have hm1 := h.month_lt
  have hmonth : 1 ≤ (marchCivil year month day).2.1 ∧ (marchCivil year month day).2.1 ≤ 12 := by
    simp only [marchCivil]
    omega
  rw [NomoApi.utc_date, ← h.daysFromCivil_marchCivil d]
  generalize (marchCivil year month day).2.1 = m at hmonth ⊢
  rw [show (m - 1) / 12 = 0 by omega, show (m - 1) % 12 + 1 = m by omega, add_zero]

theorem utc_civil {t year month day : Int} (h : MarchDate (t / 86400) year month day) :
    utc.civil t = marchCivil year month day := by
  rw [← h.civil, civil, localSeconds, utc, add_zero]

theorem utc_midnight (t : Int) : utc.midnight t = t / 86400 * 86400 := by
  obtain ⟨year, month, day, hdate, -⟩ := civilFromDays_spec (t / 86400)
  have hday := hdate.utc_date day 0
  rw [midnight, utc_civil hdate]
  rw [sub_add_cancel, add_zero] at hday
  exact hday

theorem utc_addDate_days (z n : Int) : utc.addDate (z * 86400) 0 0 n = (z + n) * 86400 := by
  have hz : z * 86400 / 86400 = z := by omega
  obtain ⟨year, month, day, hdate, -⟩ := civilFromDays_spec (z * 86400 / 86400)
  have hday := hdate.utc_date (day + n) 0
  have hsecond : utc.localSeconds (z * 86400) % 86400 = 0 := by
    rw [localSeconds, utc, add_zero]
    omega
  rw [addDate, utc_civil hdate, hsecond]
  dsimp only [marchCivil] at hday ⊢
  rw [add_zero, Int.add_zero, hday, hz]
  omega

theorem MarchDate.lt_nextMonth (h : MarchDate z year month day) :
    (z + 1) * 86400 ≤ utc.date (marchCivil year month 1).1
      ((marchCivil year month 1).2.1 + 1) 1 0 := by
  obtain ⟨hm0, hm1, hd, heq, hin, hyr⟩ := h
  rw [NomoApi.utc_date, Int.add_sub_cancel]
  by_cases hm : month < 9
  · have hcivil : marchCivil year month 1 = (year, month + 3, 1) := by
      rw [marchCivil, if_pos (by omega), if_pos (by omega)]
    rw [hcivil]
    dsimp only
    rw [show (month + 3) / 12 = 0 by omega, show (month + 3) % 12 + 1 = month + 4 by omega,
      daysFromCivil_eq, if_neg (by omega), if_pos (by omega), Int.add_zero year,
      show month + 4 - 3 = month + 1 by omega]
    have hlast := hin (by omega)
    omega
  · obtain rfl | rfl | rfl : month = 9 ∨ month = 10 ∨ month = 11 := by omega
    · have hlast := hin (by omega)
      simp [marchCivil, daysFromCivil_eq]
      omega
    · have hlast := hin (by omega)
      simp [marchCivil, daysFromCivil_eq]
      omega
    · simp [marchCivil, daysFromCivil_eq]
      omega

theorem lt_utc_nextMonth (t : Int) : t < utc.addDate (utc.monthStart t) 0 1 0 := by
  obtain ⟨year, month, day, hdate, -⟩ := civilFromDays_spec (t / 86400)
  have hstart : utc.monthStart t = (t / 86400 - day + 1) * 86400 := by
    have hfirst := hdate.utc_date 1 0
    rw [Int.add_zero] at hfirst
    rw [monthStart, utc_civil hdate]
    exact hfirst
  have hfirst : MarchDate ((t / 86400 - day + 1) * 86400 / 86400) year month 1 := by
    obtain ⟨hm0, hm1, hd, heq, hin, hyr⟩ := hdate
    exact ⟨hm0, hm1, Int.le_refl 1, by omega, fun h => by omega, by omega⟩
  have hsecond : utc.localSeconds ((t / 86400 - day + 1) * 86400) % 86400 = 0 := by
    rw [localSeconds, utc, Int.add_zero]
    omega
  have hnext := hdate.lt_nextMonth
  rw [hstart, addDate, utc_civil hfirst, hsecond]
  dsimp only [marchCivil] at hnext ⊢
  rw [Int.add_zero, Int.add_zero]
  omega

end NomoApi
