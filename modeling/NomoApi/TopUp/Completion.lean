import NomoApi.TopUp.Orders

/-! # Completing top-up orders

An order is completed by the callback of the payment provider or by `ManualCompleteTopUp`
(`model/topup.go`, `controller/topup.go`). The manual way guesses from the payment method what the
columns of the order mean: "units" for Creem orders, whose `Amount` is a quota. -/

namespace NomoApi

open PaymentStore Decimal

structure DbEnv where
  now : Int
  beginTx : Option String
  findOrder : Option String
  saveOrder : Option String
  findUser : Option String
  saveUser : Option String
  commitTx : Option String

def DbEnv.working (now : Int) : DbEnv := ⟨now, none, none, none, none, none, none⟩

structure UserUpdate where
  quota : ℚ
  stripeCustomer : Option String
  email : Option String

def UserUpdate.add (quota : ℚ) : UserUpdate := ⟨quota, none, none⟩

def UserUpdate.apply (upd : UserUpdate) (u : User) : User :=
  { u with
    quota := u.quota + upd.quota
    stripeCustomer := upd.stripeCustomer.getD u.stripeCustomer
    email := upd.email.getD u.email }

@[simp] theorem UserUpdate.apply_id (upd : UserUpdate) (u : User) : (upd.apply u).id = u.id := rfl

def PaymentStore.update (s : PaymentStore) (userId : Int) (upd : UserUpdate) : PaymentStore :=
  { s with users := s.users.updateWhere (fun u => u.id = userId) upd.apply upd.apply_id }

section Credit
variable (cfg : PaymentSettings) (db : DbEnv)

variable (tradeNo : String) (s : PaymentStore)

/-- **Read an order by its trade number.** -/
def firstOrder : Except Halt TopUp :=
  match db.findOrder, s.orders.find? tradeNo with
  | none, some topUp => .ok topUp
  | _, _ => .error (.error "充值订单不存在")

def saveOrder (topUp : TopUp) (s : PaymentStore) : Except Halt PaymentStore := do
  attempt db.saveOrder
  return { s with orders := s.orders.save topUp }

/-- **Update a user**; a user that is not there is no error. -/
def updateUser (userId : Int) (upd : UserUpdate) (s : PaymentStore) : Except Halt PaymentStore := do
  attempt db.saveUser
  return s.update userId upd

def TopUp.complete (now : Int) (topUp : TopUp) : TopUp :=
  { topUp with completeTime := now, status := .success }

def kept {α : Type} : Except Halt (α × PaymentStore) → PaymentStore
  | .ok (_, s') => s'
  | .error _ => s

/-! ## The callbacks -/

def rechargeTx (referenceId customerId : String)
    (s : PaymentStore) : Except Halt (Unit × PaymentStore) := do
  let topUp ← firstOrder db referenceId s
  if topUp.status ≠ .pending then .error (.error "充值订单状态错误")
  else
    let s ← saveOrder db (topUp.complete db.now) s
    -- the product is added as it is, without dropping its fraction
    let quota := topUp.money * cfg.quotaPerUnit
    let s ← updateUser db topUp.userId ⟨quota, some customerId, none⟩ s
    return ((), s)

/-- **`Recharge`**, the Stripe callback. All failures are reported by one text. -/
def recharge (referenceId customerId : String)
    (s : PaymentStore) : Except Halt (Unit × PaymentStore) :=
  if referenceId = "" then .error (.error "未提供支付单号")
  else
    match transaction db.beginTx db.commitTx (rechargeTx cfg db referenceId customerId) s with
    | .ok r => .ok r
    | .error _ => .error (.error "充值失败，请稍后重试")

/-- The email that `RechargeCreem` writes: the buyer's, when the user has none. -/
def creemEmail (userId : Int) (customerEmail : String) (s : PaymentStore) :
    Except Halt (Option String) :=
  if customerEmail = "" then .ok none
  else
    match db.findUser, s.users.find? userId with
    | some text, _ => .error (.error text)
    | none, none => .error (.error "record not found")
    | none, some user => .ok (if user.email = "" then some customerEmail else none)

def rechargeCreemTx (referenceId customerEmail : String) (s : PaymentStore) :
    Except Halt (Unit × PaymentStore) := do
  let topUp ← firstOrder db referenceId s
  if topUp.status ≠ .pending then .error (.error "充值订单状态错误")
  else
    let s ← saveOrder db (topUp.complete db.now) s
    let email ← creemEmail db topUp.userId customerEmail s
    -- the amount of a Creem order is the quota itself
    let s ← updateUser db topUp.userId ⟨topUp.amount.toInt, none, email⟩ s
    return ((), s)

/-- **`RechargeCreem`**, the Creem callback. -/
def rechargeCreem (referenceId customerEmail : String) (s : PaymentStore) :
    Except Halt (Unit × PaymentStore) :=
  if referenceId = "" then .error (.error "未提供支付单号")
  else
    match transaction db.beginTx db.commitTx (rechargeCreemTx db referenceId customerEmail) s with
    | .ok r => .ok r
    | .error _ => .error (.error "充值失败，请稍后重试")

/-- **`IncreaseUserQuota`**, written through; a negative quota is refused. -/
def PaymentStore.increaseUserQuota (userId : Int) (quota : Int64)
    (s : PaymentStore) : Except Halt PaymentStore :=
  if quota < 0 then .error (.error "quota 不能为负数！")
  else updateUser db userId (.add quota.toInt) s

def unitsQuota (amount : Int64) : Int64 :=
  intPart (amount.toInt * cfg.quotaPerUnit)

/-- **`EpayNotify`** for a verified notification of a paid trade. The order is saved first, and
stays so if the credit fails. -/
def epayNotify : PaymentStore :=
  match firstOrder db tradeNo s with
  | .error _ => s
  | .ok topUp =>
    if topUp.status = .pending then
      match saveOrder db { topUp with status := .success } s with
      | .error _ => s
      | .ok s' =>
        match s'.increaseUserQuota db topUp.userId (unitsQuota cfg topUp.amount) with
        | .error _ => s'
        | .ok s'' => s''
    else s

structure Customer where
  customerId : String
  email : String
  deriving DecidableEq

/-- **The store after a provider's callback.** -/
def callback (customer : Customer) (tradeNo : String) (s : PaymentStore) : Provider → PaymentStore
  | .epay => epayNotify cfg db tradeNo s
  | .stripe => kept s (recharge cfg db tradeNo customer.customerId s)
  | .creem => kept s (rechargeCreem db tradeNo customer.email s)

/-! ## The administrator's way -/

/-- What the administrator's way takes an order to be worth: the money of a Stripe order and the
amount of any other are units. -/
def manualQuota (topUp : TopUp) : Int64 :=
  if topUp.paymentMethod = "stripe" then intPart (topUp.money * cfg.quotaPerUnit)
  else unitsQuota cfg topUp.amount

def manualCompleteTx : Except Halt (Unit × PaymentStore) := do
  let topUp ← firstOrder db tradeNo s
  if topUp.status = .success then return ((), s)
  else if topUp.status ≠ .pending then .error (.error "订单状态不是待支付，无法补单")
  else if manualQuota cfg topUp ≤ 0 then .error (.error "无效的充值额度")
  else
    let s ← saveOrder db (topUp.complete db.now) s
    let s ← updateUser db topUp.userId (.add (manualQuota cfg topUp).toInt) s
    return ((), s)

def manualCompleteTopUp : Except Halt (Unit × PaymentStore) :=
  if tradeNo = "" then .error (.error "未提供订单号")
  else transaction db.beginTx db.commitTx (manualCompleteTx cfg db tradeNo) s

/-! ## What a completion credits -/

end Credit

/-- **The quota a user gains** between two stores. -/
def credited (s s' : PaymentStore) (userId : Int) : ℚ := s'.quotaOf userId - s.quotaOf userId

def PaymentStore.gain (s : PaymentStore) (userId : Int) (quota : ℚ) : ℚ :=
  if (s.users.find? userId).isSome then quota else 0

@[simp] theorem PaymentStore.gain_zero (s : PaymentStore) (userId : Int) : s.gain userId 0 = 0 := by
  simp [gain]

theorem PaymentStore.gain_eq_gain {s : PaymentStore} {userId : Int} {q q' : ℚ} :
    s.gain userId q = s.gain userId q' ↔ s.users.find? userId = none ∨ q = q' := by
  cases h : s.users.find? userId <;> simp [gain, h]

theorem credited_of_users_eq {s s' : PaymentStore} {userId : Int} (h : s'.users = s.users) :
    credited s s' userId = 0 := by
  rw [credited, quotaOf, quotaOf, h, sub_self]

theorem PaymentStore.find?_update (s : PaymentStore) (userId : Int) (upd : UserUpdate) :
    (s.update userId upd).users.find? userId = (s.users.find? userId).map upd.apply := by
  simp only [update, Table.find?_updateWhere]
  cases hu : s.users.find? userId with
  | none => rfl
  | some u =>
    have hid : u.id = userId := (Table.find?_eq_some.mp hu).2
    simp [hid]

theorem credited_of_update {s s' : PaymentStore} {userId : Int} {upd : UserUpdate}
    (h : s'.users = (s.update userId upd).users) :
    credited s s' userId = s.gain userId upd.quota := by
  rw [credited, quotaOf, quotaOf, gain, h, find?_update]
  cases s.users.find? userId with
  | none => simp
  | some u => simp [UserUpdate.apply]

theorem firstOrder_working {now : Int} {o : TopUp} {s : PaymentStore} (ho : o ∈ s.orders) :
    firstOrder (.working now) o.tradeNo s = .ok o := by
  rw [firstOrder, Table.find?_key ho]
  rfl

@[simp] theorem saveOrder_working (now : Int) (o : TopUp) (s : PaymentStore) :
    saveOrder (.working now) o s = .ok { s with orders := s.orders.save o } := rfl

theorem transaction_working {σ α : Type} {now : Int} {body : σ → Except Halt (α × σ)} {s : σ} :
    transaction (DbEnv.working now).beginTx (DbEnv.working now).commitTx body s = body s := by
  cases h : body s <;> simp [transaction, DbEnv.working, h, attempt] <;> rfl

theorem creemEmail_working (now userId : Int) (email : String) (s : PaymentStore) :
    (∃ e, creemEmail (.working now) userId email s = .ok e) ∨ s.users.find? userId = none := by
  unfold creemEmail
  by_cases hempty : email = ""
  · exact .inl ⟨none, if_pos hempty⟩
  · rw [if_neg hempty]
    cases s.users.find? userId with
    | none => exact .inr rfl
    | some user => exact .inl ⟨_, rfl⟩

section Pending

variable {cfg : PaymentSettings} {now : Int} {s : PaymentStore} {o : TopUp}
  (ho : o ∈ s.orders) (hpending : o.status = .pending)

include ho hpending

theorem credited_epayNotify : credited s (epayNotify cfg (.working now) o.tradeNo s) o.userId =
      s.gain o.userId (max 0 (unitsQuota cfg o.amount).toInt : Int) := by
  simp only [epayNotify, firstOrder_working ho, hpending, if_true, saveOrder_working]
  by_cases hneg : unitsQuota cfg o.amount < 0
  · have hneg' : (unitsQuota cfg o.amount).toInt < 0 := Int64.lt_iff_toInt_lt.mp hneg
    rw [max_eq_left hneg'.le, Int.cast_zero, gain_zero, PaymentStore.increaseUserQuota, if_pos hneg]
    exact credited_of_users_eq rfl
  · have hnonneg : 0 ≤ (unitsQuota cfg o.amount).toInt :=
      Int.not_lt.mp fun h => hneg (Int64.lt_iff_toInt_lt.mpr h)
    rw [max_eq_right hnonneg, PaymentStore.increaseUserQuota, if_neg hneg]
    exact credited_of_update rfl

variable (htrade : o.tradeNo ≠ "")

include htrade

theorem credited_manual :
    credited s (kept s (manualCompleteTopUp cfg (.working now) o.tradeNo s)) o.userId =
      s.gain o.userId (max 0 (manualQuota cfg o).toInt : Int) := by
  rw [manualCompleteTopUp, if_neg htrade, transaction_working, manualCompleteTx,
    firstOrder_working ho]
  simp only [bind, Except.bind, hpending]
  by_cases hle : manualQuota cfg o ≤ 0
  · have hle' : (manualQuota cfg o).toInt ≤ 0 := Int64.le_iff_toInt_le.mp hle
    rw [max_eq_left hle', Int.cast_zero, gain_zero, if_pos hle]
    exact credited_of_users_eq rfl
  · have hlt : 0 ≤ (manualQuota cfg o).toInt :=
      (Int.not_le.mp fun h => hle (Int64.le_iff_toInt_le.mpr h)).le
    rw [max_eq_right hlt, if_neg hle]
    exact credited_of_update rfl

theorem credited_recharge {customerId : String} :
    credited s (kept s (recharge cfg (.working now) o.tradeNo customerId s)) o.userId =
      s.gain o.userId (o.money * cfg.quotaPerUnit) := by
  rw [recharge, if_neg htrade, transaction_working, rechargeTx, firstOrder_working ho]
  simp only [bind, Except.bind, hpending]
  exact credited_of_update rfl

theorem credited_rechargeCreem {email : String} :
    credited s (kept s (rechargeCreem (.working now) o.tradeNo email s)) o.userId =
      s.gain o.userId o.amount.toInt := by
  rw [rechargeCreem, if_neg htrade, transaction_working, rechargeCreemTx, firstOrder_working ho]
  simp only [bind, Except.bind, hpending]
  simp only [ne_eq, not_true_eq_false, if_false, saveOrder_working]
  cases hemail : creemEmail (.working now) o.userId email
      { s with orders := s.orders.save (o.complete (DbEnv.working now).now) } with
  | ok e => exact credited_of_update rfl
  | error e =>
    -- only a user that is not there makes the read fail, and such a user gains nothing
    have hnone : s.users.find? o.userId = none := by
      rcases creemEmail_working now o.userId email _ with ⟨e', he'⟩ | hnone
      · rw [hemail] at he'; cases he'
      · exact hnone
    rw [gain, hnone]
    exact credited_of_users_eq rfl

end Pending

/-! ## When the two ways agree -/

/-- **The orders for which the two ways credit the same**: an Epay order not named `"stripe"`, or
whose money and amount are worth the same whole quota, or both none; a Stripe order whose money is
worth a whole, non-negative quota; a Creem order whose amount, taken for units, is worth itself. -/
def CreditsAgree (cfg : PaymentSettings) (o : TopUp) : Provider → Prop
  | .epay =>
    o.paymentMethod ≠ "stripe" ∨
      intPart (o.money * cfg.quotaPerUnit) = unitsQuota cfg o.amount ∨
      (intPart (o.money * cfg.quotaPerUnit) ≤ 0 ∧ unitsQuota cfg o.amount ≤ 0)
  | .stripe => ∃ n : Nat, n < 2 ^ 63 ∧ o.money * cfg.quotaPerUnit = n
  | .creem =>
    0 ≤ o.amount.toInt ∧
      trunc (o.amount.toInt * cfg.quotaPerUnit) ≡ o.amount.toInt [ZMOD 2 ^ 64]

theorem max_zero_eq_iff {a b : Int64} :
    max 0 a.toInt = max 0 b.toInt ↔ a = b ∨ (a ≤ 0 ∧ b ≤ 0) := by
  rw [← Int64.toInt_inj, Int64.le_iff_toInt_le, Int64.le_iff_toInt_le, Int64.toInt_zero]
  omega

theorem max_intPart_eq_self_iff {q : ℚ} :
    ((max 0 (intPart q).toInt : Int) : ℚ) = q ↔ ∃ n : Nat, n < 2 ^ 63 ∧ q = n := by
  constructor
  · intro h
    have hlt := (intPart q).toInt_lt
    refine ⟨(max 0 (intPart q).toInt).toNat, by omega, ?_⟩
    have hcast : (((max 0 (intPart q).toInt).toNat : Int) : ℚ) = q := by
      rw [Int.toNat_of_nonneg (le_max_left _ _), h]
    exact hcast.symm.trans (Int.cast_natCast _)
  · rintro ⟨n, hn, rfl⟩
    rw [toInt_intPart_natCast hn, max_eq_right (Int.natCast_nonneg n), Int.cast_natCast]

/-- **Creem**: when the whole quota of an amount of units is the amount. -/
theorem max_unitsQuota_eq_self_iff {cfg : PaymentSettings} {a : Int64} :
    max 0 (unitsQuota cfg a).toInt = a.toInt ↔
      0 ≤ a.toInt ∧ trunc (a.toInt * cfg.quotaPerUnit) ≡ a.toInt [ZMOD 2 ^ 64] := by
  rw [← intPart_eq_iff]
  constructor
  · intro h
    have hnonneg : 0 ≤ a.toInt := h ▸ le_max_left _ _
    refine ⟨hnonneg, ?_⟩
    -- the quota of no units is no quota, so a zero amount is no exception
    rcases hnonneg.eq_or_lt with hzero | hpos
    · rw [intPart_eq_iff, ← hzero, Int.cast_zero, zero_mul, trunc_zero]
    · rw [← Int64.toInt_inj]
      have : (unitsQuota cfg a).toInt = a.toInt := by omega
      exact this
  · rintro ⟨hnonneg, hself⟩
    rw [unitsQuota, hself, max_eq_right hnonneg]

/-- **The administrator's way and the provider's callback credit the same quota** for an order that
a request created iff it is one of `CreditsAgree`, or there is no user to credit. -/
theorem manual_credit_eq_callback_iff {cfg₀ cfg : PaymentSettings} {env : RequestEnv}
    {req : PayRequest} {s₀ s : PaymentStore} {o : TopUp} {now now' : Int} {customer : Customer}
    (hcreated : Creates cfg₀ env req s₀ o) (ho : o ∈ s.orders) :
    credited s (kept s (manualCompleteTopUp cfg (.working now) o.tradeNo s)) o.userId =
        credited s (callback cfg (.working now') customer o.tradeNo s req.provider) o.userId ↔
      s.users.find? o.userId = none ∨ CreditsAgree cfg o req.provider := by
  obtain ⟨hpending, htrade, hstripe, hcreem⟩ := fresh_of_creates hcreated
  rw [credited_manual ho hpending htrade]
  cases hprovider : req.provider with
  | epay =>
    rw [callback, credited_epayNotify ho hpending, gain_eq_gain, Int.cast_inj,
      max_zero_eq_iff, CreditsAgree, manualQuota]
    by_cases hmethod : o.paymentMethod = "stripe"
    · simp [hmethod]
    · simp [hmethod]
  | stripe =>
    rw [callback, credited_recharge ho hpending htrade, gain_eq_gain, manualQuota,
      if_pos (hstripe hprovider), max_intPart_eq_self_iff, CreditsAgree]
  | creem =>
    have hmethod : o.paymentMethod ≠ "stripe" := by
      rw [hcreem hprovider]
      decide
    rw [callback, credited_rechargeCreem ho hpending htrade, gain_eq_gain,
      manualQuota, if_neg hmethod, Int.cast_inj, max_unitsQuota_eq_self_iff, CreditsAgree]

def shopSettings : PaymentSettings where
  quotaPerUnit := 500000
  quotaDisplayType := .usd
  price := 73 / 10
  minTopUp := 1
  stripeMinTopUp := 1
  topupGroupRatio := [("default", 1), ("vip", 1), ("svip", 1)]
  amountDiscount := []
  payMethods := [[("name", "支付宝"), ("type", "alipay")], [("name", "微信"), ("type", "wxpay")]]
  payAddress := "pay"
  epayId := "1"
  epayKey := "key"
  creemProducts := some [⟨"prod", 10, 1000⟩]

def buyer : RequestEnv := ⟨7, 100, "x1", false, false, false, false, fun _ => false⟩

def shopStore : PaymentStore := ⟨.empty, .singleton ⟨7, "default", "", 0, ""⟩⟩

def alipayStore : PaymentStore :=
  (requestPay shopSettings buyer shopStore (.epay ⟨10, "alipay"⟩)).2

def alipayOrder : TopUp := ⟨7, 10, 73, "USR7NOx1", "alipay", 100, 0, .pending⟩

/-- **Ten units bought with Epay** are worth the same either way. -/
theorem manual_credit_alipay :
    Creates shopSettings buyer (.epay ⟨10, "alipay"⟩) shopStore alipayOrder ∧ credited alipayStore
          (kept alipayStore
            (manualCompleteTopUp shopSettings (.working 200) "USR7NOx1" alipayStore)) 7 =
        credited alipayStore
          (callback shopSettings (.working 200) ⟨"", ""⟩ "USR7NOx1" alipayStore .epay) 7 := by
  have hcreated : Creates shopSettings buyer (.epay ⟨10, "alipay"⟩) shopStore alipayOrder := by
    decide +kernel
  exact ⟨hcreated,
    (manual_credit_eq_callback_iff hcreated hcreated.1).mpr (.inr (.inl (by decide)))⟩

def creemStore : PaymentStore :=
  (requestPay shopSettings buyer shopStore (.creem ⟨"prod", "creem"⟩)).2

def creemShopOrder : TopUp := ⟨7, 1000, 10, "ref_x1", "", 100, 0, .pending⟩

/-- **A Creem order completed by the administrator** credits `500000` times what its callback
credits. -/
theorem manual_credit_ne_creem :
    Creates shopSettings buyer (.creem ⟨"prod", "creem"⟩) shopStore creemShopOrder ∧
      credited creemStore (kept creemStore
            (manualCompleteTopUp shopSettings (.working 200) "ref_x1" creemStore)) 7 = 500000000 ∧
      credited creemStore
          (callback shopSettings (.working 200) ⟨"", ""⟩ "ref_x1" creemStore .creem) 7 = 1000 := by
  refine ⟨?_, ?_, ?_⟩ <;> decide +kernel

end NomoApi
