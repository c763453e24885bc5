import NomoApi.TopUp.Completion

/-! # Top-ups in tokens

When quotas are displayed as tokens, `getPayMoney` (`controller/topup.go`) prices the exact fraction
of units, but the order keeps a whole number of units, and `EpayNotify` credits that number times
`QuotaPerUnit`. -/

namespace NomoApi

open Decimal Int

/-- **The units of an order** for `a` tokens: the quotient, rounded to sixteen places, without its
fraction. -/
def wholeUnits (a : Int) (q : Nat) : Int := Decimal.trunc (Decimal.roundPlaces (a / q))

section WholeUnits

variable {a : Int} {q : Nat} (ha : 0 ≤ a)

include ha

theorem wholeUnits_eq_floor : wholeUnits a q = ⌊Decimal.roundPlaces (a / q)⌋ :=
  trunc_of_nonneg
    (roundPlaces_nonneg (div_nonneg (cast_nonneg ha) (Nat.cast_nonneg q)))

theorem wholeUnits_nonneg : 0 ≤ wholeUnits a q := by
  rw [wholeUnits_eq_floor ha, floor_nonneg]
  exact roundPlaces_nonneg (div_nonneg (cast_nonneg ha) (Nat.cast_nonneg q))

theorem wholeUnits_le_half : (wholeUnits a q : ℚ) ≤ a / q + 1 / 2 := by
  have hx : (0 : ℚ) ≤ a / q := div_nonneg (cast_nonneg ha) (Nat.cast_nonneg q)
  have hround := (abs_le.mp (abs_roundPlaces_sub_le hx)).2
  have hulp : (1 / 2 / 10 ^ 16 : ℚ) ≤ 1 / 2 := by norm_num
  rw [wholeUnits_eq_floor ha]
  linarith [floor_le (roundPlaces ((a : ℚ) / q))]

variable (hq : 0 < q)

include hq

theorem wholeUnits_le : wholeUnits a q ≤ a := by
  have hdiv : (a : ℚ) / q ≤ a :=
    div_le_self (cast_nonneg ha) (Nat.one_le_cast.mpr hq)
  have hle : (wholeUnits a q : ℚ) ≤ a + 1 / 2 := (wholeUnits_le_half ha).trans (by linarith)
  have hlt : (wholeUnits a q : ℚ) < ((a + 1 : Int) : ℚ) := by
    rw [cast_add, cast_one]
    linarith
  exact lt_add_one_iff.mp (cast_lt.mp hlt)

theorem wholeUnits_mul_le : wholeUnits a q * q ≤ 2 * a := by
  have hq' : (0 : ℚ) < q := Nat.cast_pos.mpr hq
  rcases (wholeUnits_nonneg (q := q) ha).eq_or_lt with hzero | hpos
  · rw [← hzero, zero_mul]
    exact mul_nonneg (by norm_num) ha
  · -- one unit is at most `a + q / 2` tokens, so that a unit is at most `2 * a`
    have hone : (1 : ℚ) ≤ wholeUnits a q := by exact_mod_cast hpos
    have hworth : (wholeUnits a q : ℚ) * q ≤ a + q / 2 := by
      calc (wholeUnits a q : ℚ) * q ≤ (a / q + 1 / 2) * q :=
            mul_le_mul_of_nonneg_right (wholeUnits_le_half ha) hq'.le
        _ = a + q / 2 := by field_simp
    have hunit : (q : ℚ) ≤ wholeUnits a q * q := le_mul_of_one_le_left hq'.le hone
    have hle : (wholeUnits a q : ℚ) * q ≤ 2 * a := by linarith
    exact_mod_cast hle

theorem wholeUnits_of_dvd (hdvd : (q : Int) ∣ a) : wholeUnits a q * q = a := by
  obtain ⟨k, rfl⟩ := hdvd
  have hq' : (q : ℚ) ≠ 0 := Nat.cast_ne_zero.mpr hq.ne'
  have hquot : (((q : Int) * k : Int) : ℚ) / q = k := by
    rw [cast_mul, cast_natCast, mul_div_cancel_left₀ _ hq']
  have hplaces : (k : ℚ) * 10 ^ 16 = (k * 10 ^ 16 : Int) := by
    rw [cast_mul, cast_pow, cast_ofNat]
  have hwhole : wholeUnits (q * k) q = k := by
    rw [wholeUnits_eq_floor ha, hquot, roundPlaces_of_places hplaces, floor_intCast]
  rw [hwhole, mul_comm]

theorem wholeUnits_mul_eq_iff (hlt : a < 2 ^ 63) :
    wholeUnits a q * q ≡ a [ZMOD 2 ^ 64] ↔ (q : Int) ∣ a := by
  constructor
  · intro hmod
    -- both sides are below `2 ^ 64`, so they are equal
    have hle := wholeUnits_mul_le ha hq
    have hnonneg : 0 ≤ wholeUnits a q * q :=
      mul_nonneg (wholeUnits_nonneg ha) (natCast_nonneg q)
    have heq : wholeUnits a q * q = a := by
      rw [ModEq, emod_eq_of_lt hnonneg (by omega), emod_eq_of_lt ha (by omega)] at hmod
      exact hmod
    exact ⟨wholeUnits a q, by rw [mul_comm, heq]⟩
  · intro hdvd
    rw [wholeUnits_of_dvd ha hq hdvd]

end WholeUnits

/-! ### The orders -/

section Orders

variable {cfg : PaymentSettings} {q : Nat} (htokens : cfg.quotaDisplayType = .tokens)
  (hunit : cfg.quotaPerUnit = q) (hq : 0 < q)

include htokens hunit hq

theorem amountUnits_tokens (amount : Int64) :
    amountUnits cfg amount = .ok (Decimal.roundPlaces (amount.toInt / q)) := by
  have hq' : (q : ℚ) ≠ 0 := Nat.cast_ne_zero.mpr hq.ne'
  rw [amountUnits, if_pos htokens, hunit, divide, div, if_neg hq']

theorem epayAmount_tokens (amount : Int64) :
    epayAmount cfg amount = .ok (Int64.ofInt (wholeUnits amount.toInt q)) := by
  have hq' : (q : ℚ) ≠ 0 := Nat.cast_ne_zero.mpr hq.ne'
  rw [epayAmount, if_pos htokens, hunit, divide, div, if_neg hq']
  rfl

theorem getPayMoney_zero {amount : Int64} (hzero : amount.toInt = 0) (group : String) :
    getPayMoney cfg amount group = .ok 0 := by
  have hround : roundPlaces ((0 : Int) / q) = 0 := by
    have hplaces : ((0 : Int) / q : ℚ) * 10 ^ 16 = (0 : Int) := by
      rw [cast_zero, zero_div, zero_mul]
    rw [roundPlaces_of_places hplaces, cast_zero, zero_div]
  rw [getPayMoney, amountUnits_tokens htokens hunit hq, hzero, hround]
  simp

omit htokens hunit hq in
theorem epay_of_creates {env : RequestEnv} {req : EpayRequest} {s₀ : PaymentStore} {o : TopUp}
    (h : Creates cfg env (.epay req) s₀ o) :
    (∃ group, getPayMoney cfg req.amount group = .ok o.money) ∧ 1 / 100 ≤ o.money ∧
      epayAmount cfg req.amount = .ok o.amount := by
  have horder := order_of_creates h
  simp only [PayRequest.order, epayOrder, bind_eq_ok] at horder
  obtain ⟨_, -, group, -, payMoney, hmoney, _, hlow, _, -, _, -, _, -, amount, hamount, horder⟩ :=
    horder
  cases horder
  refine ⟨⟨group, hmoney⟩, ?_, hamount⟩
  by_contra hlt
  rw [refuseIf, if_pos (decide_eq_true (not_le.mp hlt))] at hlow
  cases hlow

theorem amount_ne_zero_of_creates {env : RequestEnv} {req : EpayRequest} {s₀ : PaymentStore}
    {o : TopUp} (h : Creates cfg env (.epay req) s₀ o) : req.amount.toInt ≠ 0 := by
  intro hzero
  obtain ⟨⟨group, hmoney⟩, hcent, -⟩ := epay_of_creates h
  have hfree : o.money = 0 :=
    (Except.ok.inj ((getPayMoney_zero htokens hunit hq hzero group).symm.trans hmoney)).symm
  rw [hfree] at hcent
  norm_num at hcent

omit htokens in
theorem max_unitsQuota_tokens_iff (amount : Int64) :
    max 0 (unitsQuota cfg (Int64.ofInt (wholeUnits amount.toInt q))).toInt = amount.toInt ↔
      0 ≤ amount.toInt ∧ (q : Int) ∣ amount.toInt := by
  have hlt := amount.toInt_lt
  by_cases ha : 0 ≤ amount.toInt
  · have hwhole : (Int64.ofInt (wholeUnits amount.toInt q)).toInt = wholeUnits amount.toInt q :=
      Int64.toInt_ofInt_of_le (by have := wholeUnits_nonneg (q := q) ha; omega)
        (lt_of_le_of_lt (wholeUnits_le ha hq) hlt)
    have hquota : ∀ n : Int64, unitsQuota cfg (Int64.ofInt (wholeUnits amount.toInt q)) = n ↔
        wholeUnits amount.toInt q * q ≡ n.toInt [ZMOD 2 ^ 64] := by
      intro n
      obtain ⟨k, hk⟩ := eq_ofNat_of_zero_le (wholeUnits_nonneg (q := q) ha)
      have htrunc : trunc ((wholeUnits amount.toInt q : ℚ) * q) =
          wholeUnits amount.toInt q * q := by
        rw [hk, cast_natCast, ← Nat.cast_mul, trunc_natCast, Nat.cast_mul]
      rw [unitsQuota, intPart_eq_iff, hwhole, hunit, htrunc]
    rw [and_iff_right ha, ← wholeUnits_mul_eq_iff ha hq hlt, ← hquota amount, ← Int64.toInt_inj]
    constructor
    · intro hmax
      rcases ha.eq_or_lt with hzero | hpos
      · -- no units are worth no tokens
        rw [Int64.toInt_inj, hquota, ← hzero]
        have hdvd : (q : Int) ∣ (0 : Int) := dvd_zero _
        exact (wholeUnits_mul_eq_iff le_rfl hq (by norm_num)).mpr hdvd
      · omega
    · intro heq
      rw [heq, max_eq_right ha]
  · refine iff_of_false (fun hmax => ha ?_) fun h => ha h.1
    rw [← hmax]
    exact le_max_left _ _

end Orders

/-- **The callback credits the tokens that were paid for** iff there is a user to credit and the
tokens are a multiple of `QuotaPerUnit`, not negative. -/
theorem tokens_credited_iff {cfg : PaymentSettings} {env : RequestEnv} {req : EpayRequest}
    {s₀ s : PaymentStore} {o : TopUp} {q : Nat} (now : Int) (customer : Customer)
    (htokens : cfg.quotaDisplayType = .tokens) (hunit : cfg.quotaPerUnit = q) (hq : 0 < q)
    (hcreated : Creates cfg env (.epay req) s₀ o) (ho : o ∈ s.orders) :
    credited s (callback cfg (.working now) customer o.tradeNo s .epay) o.userId =
        req.amount.toInt ↔
      (s.users.find? o.userId).isSome ∧ 0 ≤ req.amount.toInt ∧ (q : Int) ∣ req.amount.toInt := by
  obtain ⟨-, -, hamount⟩ := epay_of_creates hcreated
  have hkept : o.amount = Int64.ofInt (wholeUnits req.amount.toInt q) :=
    Except.ok.inj (hamount.symm.trans (epayAmount_tokens htokens hunit hq req.amount))
  rw [callback, credited_epayNotify ho (fresh_of_creates hcreated).pending, hkept,
    PaymentStore.gain]
  split
  · rename_i huser
    rw [and_iff_right huser, Int.cast_inj, max_unitsQuota_tokens_iff hunit hq]
  · rename_i huser
    refine iff_of_false (fun hzero => ?_) fun h => huser h.1
    have hne := amount_ne_zero_of_creates htokens hunit hq hcreated
    exact hne (cast_eq_zero.mp hzero.symm)

def tokenSettings : PaymentSettings := { shopSettings with quotaDisplayType := .tokens }

def tokenStore (tokens : Int64) : PaymentStore :=
  (requestPay tokenSettings buyer shopStore (.epay ⟨tokens, "alipay"⟩)).2

def millionTokensOrder : TopUp := ⟨7, 2, 73 / 5, "USR7NOx1", "alipay", 100, 0, .pending⟩

/-- **A million tokens**, two units, are credited as paid. -/
theorem tokens_credited_million :
    Creates tokenSettings buyer (.epay ⟨1000000, "alipay"⟩) shopStore millionTokensOrder ∧
      credited (tokenStore 1000000)
        (callback tokenSettings (.working 200) ⟨"", ""⟩ "USR7NOx1" (tokenStore 1000000) .epay) 7 =
        1000000 := by
  have hcreated : Creates tokenSettings buyer (.epay ⟨1000000, "alipay"⟩) shopStore
      millionTokensOrder := by decide +kernel
  have hcredit := (tokens_credited_iff (s := tokenStore 1000000) (q := 500000) 200
    ⟨"", ""⟩ rfl rfl (by norm_num) hcreated hcreated.1).mpr
    ⟨by decide +kernel, by decide, by decide⟩
  exact ⟨hcreated, hcredit⟩

/-- **`999999` tokens**, priced at almost two units, are credited as one unit. -/
theorem tokens_credited_short :
    (∃ o, Creates tokenSettings buyer (.epay ⟨999999, "alipay"⟩) shopStore o ∧
      o.money = 999999 / 500000 * (73 / 10)) ∧ credited (tokenStore 999999)
        (callback tokenSettings (.working 200) ⟨"", ""⟩ "USR7NOx1" (tokenStore 999999) .epay) 7 =
        500000 := by
  refine ⟨⟨⟨7, 1, 999999 / 500000 * (73 / 10), "USR7NOx1", "alipay", 100, 0, .pending⟩, ?_, rfl⟩,
    ?_⟩
  · decide +kernel
  · decide +kernel

end NomoApi
