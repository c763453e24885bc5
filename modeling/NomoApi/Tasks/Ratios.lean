import NomoApi.Billing.Price
import NomoApi.Lib.Grouping
import NomoApi.Lib.Scaling

/-! # The ratios of a task

A task is priced per call: a base quota, times `OtherRatios`. `RelayTaskSubmit` multiplies by one
ratio after the other, truncating each product, in the order of the map. If the upstream reports
other ratios, `recalcQuotaFromRatios` divides the old ones out again, truncating each quotient.
Ratios are exact, quotas have no bound. -/

namespace NomoApi

open Scaling List Decimal

/-- **`map[string]float64`**: ratios by name. -/
abbrev OtherRatios := Table (String × ℚ) Prod.fst

def ratiosInOrder (order : MapOrder (String × ℚ)) (ratios : OtherRatios) : List ℚ :=
  (order.order ratios.rows).map Prod.snd

def toQuota (q : ℚ) : Int := trunc q

/-- **`PriceData`**, the fields of a price per call. -/
structure TaskPriceData where
  freeModel : Bool := false
  modelPrice : ℚ := 0
  modelRatio : ℚ := 0
  quota : Int := 0
  groupRatioInfo : GroupRatioInfo := ⟨0, 0, false⟩
  otherRatios : OtherRatios := .empty
  deriving DecidableEq

def TaskPriceData.addOtherRatio (p : TaskPriceData) (key : String) (ratio : ℚ) : TaskPriceData :=
  if ratio ≤ 0 then p else { p with otherRatios := p.otherRatios.put (key, ratio) }

def multiplyQuota (quota : Int) (ratios : List ℚ) : Int :=
  ratios.foldl (fun q ra => if ra ≠ 1 then toQuota (q * ra) else q) quota

/-- **The ratios applied to the base quota**, unless the model is in `TaskPricePatches`. -/
def TaskPriceData.applyOtherRatios (patched : Bool) (order : MapOrder (String × ℚ))
    (p : TaskPriceData) : TaskPriceData :=
  if patched then p
  else { p with quota := multiplyQuota p.quota (ratiosInOrder order p.otherRatios) }

def divideQuota (quota : Int) (ratios : List ℚ) : Int :=
  ratios.foldl (fun q ra => if ra ≠ 1 ∧ ra > 0 then toQuota (q / ra) else q) quota

/-- **`recalcQuotaFromRatios`**, each map in its own order. -/
def recalcQuotaFromRatios (oldOrder newOrder : MapOrder (String × ℚ)) (p : TaskPriceData)
    (ratios : OtherRatios) : Int :=
  -- the old ratios are divided out, also where they were never applied
  let baseQuota := divideQuota p.quota (ratiosInOrder oldOrder p.otherRatios)
  let result := (ratiosInOrder newOrder ratios).foldl
    (fun result ra => if ra ≠ 1 then result * ra else result) (baseQuota : ℚ)
  toQuota result

/-! ### Quotas as scalings -/

theorem toQuota_natCast_mul (n : ℕ) {r : ℚ} (hr : 0 ≤ r) : toQuota (n * r) = ⌊(n : ℚ) * r⌋₊ := by
  have hnonneg : 0 ≤ (n : ℚ) * r := mul_nonneg (Nat.cast_nonneg n) hr
  rw [toQuota, trunc_of_nonneg hnonneg, Int.natCast_floor_eq_floor hnonneg]

@[simp] theorem toQuota_intCast (n : Int) : toQuota n = n := by
  rw [toQuota, trunc, Rat.num_intCast, Rat.den_intCast, Nat.cast_one, Int.tdiv_one]

variable {ε : Int} {ratios : OtherRatios}

theorem toQuota_sign_mul (hε : ε = 1 ∨ ε = -1) (q : ℚ) : toQuota (ε * q) = ε * toQuota q := by
  rcases hε with rfl | rfl
  · rw [Int.cast_one, one_mul, one_mul]
  · rw [Int.cast_neg, Int.cast_one, neg_one_mul, neg_one_mul, toQuota, trunc_neg, toQuota]

theorem multiplyQuota_cons (quota : Int) (ra : ℚ) (ratios : List ℚ) :
    multiplyQuota quota (ra :: ratios) = multiplyQuota (toQuota (quota * ra)) ratios := by
  by_cases hra : ra = 1
  · rw [hra, mul_one, toQuota_intCast]
    rfl
  · rw [multiplyQuota, foldl_cons, if_pos hra, multiplyQuota]

theorem divideQuota_cons (quota : Int) {ra : ℚ} (hpos : 0 < ra) (ratios : List ℚ) :
    divideQuota quota (ra :: ratios) = divideQuota (toQuota (quota * ra⁻¹)) ratios := by
  by_cases hra : ra = 1
  · rw [hra, inv_one, mul_one, toQuota_intCast]
    rfl
  · rw [divideQuota, foldl_cons, if_pos ⟨hra, hpos⟩, divideQuota, div_eq_mul_inv]

theorem foldl_mul_ratios (ratios : List ℚ) (x : ℚ) :
    ratios.foldl (fun result ra => if ra ≠ 1 then result * ra else result) x = x * ratios.prod := by
  induction ratios generalizing x with
  | nil => rw [foldl_nil, prod_nil, mul_one]
  | cons ra ratios ih =>
    rw [foldl_cons, ih, prod_cons]
    by_cases hra : ra = 1
    · rw [if_neg (not_not.mpr hra), hra, one_mul]
    · rw [if_pos hra, mul_assoc]

theorem toQuota_mul_eq (hε : ε = 1 ∨ ε = -1) {q : ℚ} (hq : 0 ≤ q) (n : ℕ) :
    toQuota ((ε * n : Int) * q) = ε * (scale n q : ℕ) := by
  rw [Int.cast_mul, mul_assoc, toQuota_sign_mul hε, Int.cast_natCast, toQuota_natCast_mul n hq,
    scale]

section

variable (hε : ε = 1 ∨ ε = -1) {ratios : List ℚ} (hpos : Positive ratios) (n : ℕ)

include hε hpos

/-- **Applying ratios is scaling**, of credits and of debts. -/
theorem multiplyQuota_eq : multiplyQuota (ε * n) ratios = ε * scaleAll n ratios := by
  induction ratios generalizing n with
  | nil => rfl
  | cons ra ratios ih =>
    have hra : 0 < ra := hpos ra mem_cons_self
    rw [multiplyQuota_cons, toQuota_mul_eq hε hra.le,
      ih fun r hr => hpos r (mem_cons_of_mem ra hr), scaleAll_cons]

theorem divideQuota_eq : divideQuota (ε * n) ratios = ε * unscaleAll n ratios := by
  induction ratios generalizing n with
  | nil => rfl
  | cons ra ratios ih =>
    have hra : 0 < ra := hpos ra mem_cons_self
    rw [divideQuota_cons _ hra, toQuota_mul_eq hε (inv_pos.mpr hra).le,
      ih fun r hr => hpos r (mem_cons_of_mem ra hr)]
    rfl

end

/-! ### Ratios in every order -/

def ratioValues (ratios : OtherRatios) : List ℚ := ratios.rows.map Prod.snd

theorem ratiosInOrder_perm (order : MapOrder (String × ℚ)) (ratios : OtherRatios) :
    (ratiosInOrder order ratios).Perm (ratioValues ratios) :=
  (order.perm ratios.rows).map Prod.snd

theorem exists_ratiosInOrder {l : List ℚ} (h : l.Perm (ratioValues ratios)) :
    ∃ order, ratiosInOrder order ratios = l := by
  have hrows : Forall₂ (fun (value : ℚ) (row : String × ℚ) => row.2 = value)
      (ratioValues ratios) ratios.rows := by
    rw [ratioValues, forall₂_map_left_iff]
    exact forall₂_same.mpr fun _ _ => rfl
  obtain ⟨rows, hvalues, hperm⟩ := perm_comp_forall₂ h hrows
  obtain ⟨order, horder⟩ := MapOrder.exists_order hperm
  refine ⟨order, ?_⟩
  have hmap : Forall₂ Eq l (rows.map Prod.snd) :=
    forall₂_map_right_iff.mpr (hvalues.imp fun _ _ h => h.symm)
  rw [ratiosInOrder, horder]
  exact (forall₂_eq_eq_eq ▸ hmap : l = _).symm

def PositiveRatios (ratios : OtherRatios) : Prop := ∀ r ∈ ratios.rows, 0 < r.2

theorem PositiveRatios.values (h : PositiveRatios ratios) : Positive (ratioValues ratios) :=
  forall_mem_map.mpr h

/-- **Repricing with the same ratios changes nothing**, in whatever order they were applied. -/
def Repriced (patched : Bool) (p : TaskPriceData) : Prop :=
  (∀ order order', (p.applyOtherRatios patched order).quota =
      (p.applyOtherRatios patched order').quota) ∧
    ∀ order oldOrder newOrder,
      recalcQuotaFromRatios oldOrder newOrder (p.applyOtherRatios patched order) p.otherRatios =
        (p.applyOtherRatios patched order).quota

/-- **The base quotas that are repriced exactly**: where the ratios are not applied, multiples of
the unit of the divisions; where they are, what the quota has above a multiple of their unit is
below what one unit needs, in every order. -/
def ExactBase (patched : Bool) (p : TaskPriceData) : Prop :=
  if patched then wholeUnit ((ratioValues p.otherRatios).map (·⁻¹)) ∣ p.quota.natAbs
  else ∀ order, p.quota.natAbs % wholeUnit (ratioValues p.otherRatios) <
    needed 1 (ratiosInOrder order p.otherRatios)

theorem forall_ratiosInOrder {P : List ℚ → Prop} :
    (∀ order, P (ratiosInOrder order ratios)) ↔ ∀ l, l.Perm (ratioValues ratios) → P l := by
  constructor
  · intro h l hl
    obtain ⟨order, rfl⟩ := exists_ratiosInOrder hl
    exact h order
  · exact fun h order => h _ (ratiosInOrder_perm order ratios)

theorem recalcQuotaFromRatios_eq (hε : ε = 1 ∨ ε = -1) {p : TaskPriceData}
    (hpos : PositiveRatios p.otherRatios) {n : ℕ} (hquota : p.quota = ε * n)
    (oldOrder newOrder : MapOrder (String × ℚ)) :
    recalcQuotaFromRatios oldOrder newOrder p p.otherRatios =
      ε * (⌊(unscaleAll n (ratiosInOrder oldOrder p.otherRatios) : ℚ) *
        (ratioValues p.otherRatios).prod⌋₊ : ℕ) := by
  have hold := hpos.values.perm (ratiosInOrder_perm oldOrder p.otherRatios)
  have hprod := (ratiosInOrder_perm newOrder p.otherRatios).prod_eq
  simp only [recalcQuotaFromRatios, foldl_mul_ratios]
  rw [hquota, divideQuota_eq hε hold, hprod, Int.cast_mul, mul_assoc, toQuota_sign_mul hε,
    Int.cast_natCast, toQuota_natCast_mul _ hpos.values.prod_pos.le]

theorem exists_sign_mul_natAbs (q : Int) : ∃ ε : Int, (ε = 1 ∨ ε = -1) ∧ q = ε * q.natAbs := by
  rcases Int.natAbs_eq q with h | h
  · exact ⟨1, Or.inl rfl, by rw [one_mul]; exact h⟩
  · exact ⟨-1, Or.inr rfl, by rw [neg_one_mul]; exact h⟩

theorem sign_mul_natCast_inj (hε : ε = 1 ∨ ε = -1) {m n : ℕ} : ε * m = ε * n ↔ m = n := by
  rcases hε with rfl | rfl <;> omega

theorem repriced_patched_iff (p : TaskPriceData) (hpos : PositiveRatios p.otherRatios) :
    Repriced true p ↔ ExactBase true p := by
  obtain ⟨ε, hε, hquota⟩ := exists_sign_mul_natAbs p.quota
  have hback (oldOrder newOrder : MapOrder (String × ℚ)) :
      recalcQuotaFromRatios oldOrder newOrder p p.otherRatios = p.quota ↔
        ⌊(unscaleAll p.quota.natAbs (ratiosInOrder oldOrder p.otherRatios) : ℚ) *
          (ratioValues p.otherRatios).prod⌋₊ = p.quota.natAbs := by
    rw [recalcQuotaFromRatios_eq hε hpos hquota oldOrder newOrder, ← sign_mul_natCast_inj hε,
      ← hquota]
  rw [ExactBase, if_pos rfl, ← unscale_back_iff hpos.values, ← forall_ratiosInOrder]
  constructor
  · exact fun h oldOrder => (hback oldOrder oldOrder).mp (h.2 oldOrder oldOrder oldOrder)
  · exact fun h => ⟨fun _ _ => rfl, fun _ oldOrder newOrder => (hback oldOrder newOrder).mpr
      (h oldOrder)⟩

theorem repriced_applied_iff (p : TaskPriceData) (hpos : PositiveRatios p.otherRatios) :
    Repriced false p ↔ ExactBase false p := by
  obtain ⟨ε, hε, hquota⟩ := exists_sign_mul_natAbs p.quota
  have happly (order : MapOrder (String × ℚ)) : (p.applyOtherRatios false order).quota =
      ε * scaleAll p.quota.natAbs (ratiosInOrder order p.otherRatios) := by
    rw [← multiplyQuota_eq hε (hpos.values.perm (ratiosInOrder_perm order _)), ← hquota]
    rfl
  have hrecalc (order oldOrder newOrder : MapOrder (String × ℚ)) :
      recalcQuotaFromRatios oldOrder newOrder (p.applyOtherRatios false order) p.otherRatios =
        ε * (⌊(unscaleAll (scaleAll p.quota.natAbs
          (ratiosInOrder order p.otherRatios)) (ratiosInOrder oldOrder p.otherRatios) : ℚ) *
            (ratioValues p.otherRatios).prod⌋₊ : ℕ) :=
    @recalcQuotaFromRatios_eq ε hε (p.applyOtherRatios false order) hpos _ (happly order) oldOrder
      newOrder
  have hexact : ExactBase false p ↔ ∀ l, l.Perm (ratioValues p.otherRatios) →
      p.quota.natAbs % wholeUnit (ratioValues p.otherRatios) < needed 1 l :=
    @forall_ratiosInOrder p.otherRatios fun l =>
      p.quota.natAbs % wholeUnit (ratioValues p.otherRatios) < needed 1 l
  simp only [Repriced, happly, hrecalc, sign_mul_natCast_inj hε]
  rw [hexact, ← rescale_iff hpos.values]
  constructor
  · rintro ⟨horder, hback⟩
    exact ⟨forall_ratiosInOrder.mp fun order => horder order (.given _),
      forall_ratiosInOrder.mp fun oldOrder => hback (.given _) oldOrder oldOrder⟩
  · rintro ⟨horder, hback⟩
    have hsame := forall_ratiosInOrder.mpr horder
    refine ⟨fun order order' => (hsame order).trans (hsame order').symm, ?_⟩
    intro order oldOrder _
    rw [hsame order]
    exact forall_ratiosInOrder.mpr hback oldOrder

/-- **Which base quotas are repriced exactly.** -/
theorem repriced_iff (patched : Bool) (p : TaskPriceData) (hpos : PositiveRatios p.otherRatios) :
    Repriced patched p ↔ ExactBase patched p := by
  cases patched with
  | true => exact repriced_patched_iff p hpos
  | false => exact repriced_applied_iff p hpos

def longLargeRatios : OtherRatios :=
  ⟨[("seconds", 4), ("size", 1666667 / 1000000)], by decide⟩

/-- Two seconds in the small format are repriced exactly. -/
theorem two_seconds_repriced : Repriced false
    { quota := 100, otherRatios := ⟨[("seconds", 2), ("size", 1)], by decide⟩ } := by
  have hpos : PositiveRatios ⟨[("seconds", 2), ("size", 1)], by decide⟩ := by
    unfold PositiveRatios
    decide +kernel
  refine (repriced_iff false _ hpos).mpr ?_
  intro order
  -- the unit is one, so that nothing is left above a multiple of it
  have hunit : 100 % wholeUnit [2, 1] = 0 := by decide +kernel
  have hkept := (scaleAll_eq_zero_iff (hpos.values.perm (ratiosInOrder_perm order _)) 0).mp
    (scaleAll_zero _)
  exact hunit.symm ▸ hkept

/-- **The order matters, and the same ratios give another quota**: 100 becomes 666 or 664, and
recalculating the 666 gives 660. -/
theorem order_changes_quota : (TaskPriceData.applyOtherRatios false (.given _)
        { quota := 100, otherRatios := longLargeRatios }).quota = 666 ∧
      (TaskPriceData.applyOtherRatios false (.reversed _)
        { quota := 100, otherRatios := longLargeRatios }).quota = 664 ∧
      recalcQuotaFromRatios (.given _) (.given _)
        { quota := 666, otherRatios := longLargeRatios } longLargeRatios = 660 := by
  decide +kernel

end NomoApi
