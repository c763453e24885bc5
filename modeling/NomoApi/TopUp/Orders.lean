import NomoApi.Lib.Decimal
import NomoApi.Lib.Table
import NomoApi.Lib.Transaction

/-! # Top-up orders

The request handlers that create top-up orders (`controller/topup.go`, `topup_stripe.go`,
`topup_creem.go`) fill the same columns with different things. **Epay**: `Amount` is a number of
units, `Money` what the buyer pays, the payment method the one the request names. **Stripe**:
`Amount` is a number of units, `Money` that number times the ratio of the buyer's group, the payment
method `"stripe"`. **Creem**: `Amount` is a quota, `Money` a price, the payment method empty. Money,
prices, ratios and quotas are exact. -/

namespace NomoApi

inductive TopUpStatus where
  | pending
  | success
  | expired
  deriving DecidableEq

/-- A top-up order (`TopUp`); the trade number carries a unique index. -/
structure TopUp where
  userId : Int
  amount : Int64
  money : ℚ
  tradeNo : String
  paymentMethod : String
  createTime : Int
  completeTime : Int
  status : TopUpStatus
  deriving DecidableEq

structure User where
  id : Int
  group : String
  email : String
  quota : ℚ
  stripeCustomer : String
  deriving DecidableEq

structure PaymentStore where
  orders : Table TopUp TopUp.tradeNo
  users : Table User User.id

/-- **A user's quota**, zero for a user that is not there. -/
def PaymentStore.quotaOf (s : PaymentStore) (userId : Int) : ℚ :=
  ((s.users.find? userId).map User.quota).getD 0

/-! ## Settings -/

inductive QuotaDisplayType where
  | usd
  | cny
  | tokens
  | custom
  deriving DecidableEq

structure CreemProduct where
  productId : String
  price : ℚ
  quota : Int64
  deriving DecidableEq

/-- **The payment settings**, as an administrator edits them. -/
structure PaymentSettings where
  quotaPerUnit : ℚ
  quotaDisplayType : QuotaDisplayType
  price : ℚ
  minTopUp : Int64
  stripeMinTopUp : Int64
  topupGroupRatio : List (String × ℚ)
  amountDiscount : List (Int × ℚ)
  payMethods : List (List (String × String))
  payAddress : String
  epayId : String
  epayKey : String
  /-- The Creem products, `none` for a text that is not a list of products. -/
  creemProducts : Option (List CreemProduct)

variable (cfg : PaymentSettings)

def getTopupGroupRatio (name : String) : ℚ :=
  (cfg.topupGroupRatio.lookup name).getD 1

def chargedRatio (group : String) : ℚ :=
  if getTopupGroupRatio cfg group = 0 then 1 else getTopupGroupRatio cfg group

def containsPayMethod (method : String) : Bool :=
  cfg.payMethods.any fun payMethod => (payMethod.lookup "type").getD "" == method

/-- **`getMinTopup`**, in tokens when quotas are displayed so. -/
def getMinTopup : Int64 :=
  if cfg.quotaDisplayType = .tokens then
    Decimal.intPart (cfg.minTopUp.toInt * cfg.quotaPerUnit)
  else cfg.minTopUp

/-- The product is taken in machine integers. -/
def getStripeMinTopup : Int64 :=
  if cfg.quotaDisplayType = .tokens then cfg.stripeMinTopUp * Decimal.intPart cfg.quotaPerUnit
  else cfg.stripeMinTopUp

/-! ## Requests -/

/-- Why a request creates no order: an answer with a text, or a panic. -/
inductive Rejection where
  | reply (text : String)
  | panic (text : String)
  deriving DecidableEq

/-- Answer with `text` when `c` holds. -/
def refuseIf (c : Bool) (text : String) : Except Rejection Unit :=
  if c then .error (.reply text) else .ok ()

def divide (a b : ℚ) : Except Rejection ℚ :=
  match Decimal.div a b with
  | some q => .ok q
  | none => .error (.panic "decimal division by 0")

structure RequestEnv where
  id : Int
  now : Int
  nonce : String
  userFault : Bool
  clientFault : Bool
  purchaseFault : Bool
  insertFault : Bool
  trusted : String → Bool

variable (env : RequestEnv)

/-- **`GetUserGroup`** from the database; empty for a user that is not there. -/
def getUserGroup (s : PaymentStore) : Except Rejection String := do
  refuseIf env.userFault "获取用户分组失败"
  return ((s.users.find? env.id).map User.group).getD ""

/-- **`GetUserById`**, with its error dropped by the callers: an unreadable user is an empty record,
and for the id `0` the caller panics. -/
def getUserById (s : PaymentStore) : Except Rejection User :=
  if env.id = 0 then .error (.panic "invalid memory address or nil pointer dereference")
  else
    let unread : User := ⟨env.id, "", "", 0, ""⟩
    .ok (if env.userFault then unread else (s.users.find? env.id).getD unread)

def getEpayClient : Bool :=
  !(cfg.payAddress == "" || cfg.epayId == "" || cfg.epayKey == "") && !env.clientFault

def insertOrder (topUp : TopUp) (s : PaymentStore) : Except Rejection Unit × PaymentStore :=
  match if env.insertFault then none else s.orders.insert? topUp with
  | none => (.error (.reply "创建订单失败"), s)
  | some orders => (.ok (), { s with orders })

/-! ### Epay -/

structure EpayRequest where
  amount : Int64
  paymentMethod : String
  deriving DecidableEq

def amountUnits (amount : Int64) : Except Rejection ℚ :=
  if cfg.quotaDisplayType = .tokens then divide amount.toInt cfg.quotaPerUnit
  else .ok amount.toInt

def discount (amount : Int64) : ℚ :=
  match cfg.amountDiscount.lookup amount.toInt with
  | some ds => if ds > 0 then ds else 1
  | none => 1

/-- What an amount costs a member of `group`. -/
def getPayMoney (amount : Int64) (group : String) : Except Rejection ℚ := do
  let dAmount ← amountUnits cfg amount
  return dAmount * cfg.price * chargedRatio cfg group * discount cfg amount

def epayAmount (amount : Int64) : Except Rejection Int64 :=
  -- a number of tokens that is no multiple of a unit is rounded down
  if cfg.quotaDisplayType = .tokens then do
    let dAmount ← divide amount.toInt cfg.quotaPerUnit
    return Decimal.intPart dAmount
  else .ok amount

def epayOrder (req : EpayRequest) (s : PaymentStore) : Except Rejection TopUp := do
  refuseIf (req.amount < getMinTopup cfg) ("充值数量不能小于 " ++ toString (getMinTopup cfg))
  let group ← getUserGroup env s
  let payMoney ← getPayMoney cfg req.amount group
  refuseIf (payMoney < 1 / 100) "充值金额过低"
  refuseIf (!containsPayMethod cfg req.paymentMethod) "支付方式不存在"
  refuseIf (!getEpayClient cfg env) "当前管理员未配置支付信息"
  -- the order is written after the purchase, so a refused purchase leaves no order
  refuseIf env.purchaseFault "拉起支付失败"
  let amount ← epayAmount cfg req.amount
  return { userId := env.id
           amount
           money := payMoney
           tradeNo := "USR" ++ (toString env.id ++ "NO" ++ env.nonce)
           paymentMethod := req.paymentMethod
           createTime := env.now
           completeTime := 0
           status := .pending }

def requestEpay (req : EpayRequest) (s : PaymentStore) : Except Rejection Unit × PaymentStore :=
  match epayOrder cfg env req s with
  | .error e => (.error e, s)
  | .ok topUp => insertOrder env topUp s

/-! ### Stripe -/

structure StripePayRequest where
  amount : Int64
  paymentMethod : String
  successURL : String
  cancelURL : String
  deriving DecidableEq

def getChargedAmount (count : ℚ) (user : User) : ℚ :=
  count * chargedRatio cfg user.group

def stripeOrder (req : StripePayRequest) (s : PaymentStore) : Except Rejection TopUp := do
  refuseIf (req.paymentMethod != "stripe") "不支持的支付渠道"
  refuseIf (req.amount < getStripeMinTopup cfg)
    ("充值数量不能小于 " ++ toString (getStripeMinTopup cfg))
  refuseIf (req.amount > 10000) "充值数量不能大于 10000"
  refuseIf (req.successURL != "" && !env.trusted req.successURL)
    "支付成功重定向URL不在可信任域名列表中"
  refuseIf (req.cancelURL != "" && !env.trusted req.cancelURL)
    "支付取消重定向URL不在可信任域名列表中"
  let user ← getUserById env s
  refuseIf env.purchaseFault "拉起支付失败"
  return { userId := env.id
           amount := req.amount
           money := getChargedAmount cfg req.amount.toInt user
           tradeNo := "ref_" ++ env.nonce
           paymentMethod := "stripe"
           createTime := env.now
           completeTime := 0
           status := .pending }

/-- **`StripeAdaptor.RequestPay`**. -/
def requestStripe (req : StripePayRequest) (s : PaymentStore) :
    Except Rejection Unit × PaymentStore :=
  match stripeOrder cfg env req s with
  | .error e => (.error e, s)
  | .ok topUp => insertOrder env topUp s

/-! ### Creem -/

structure CreemPayRequest where
  productId : String
  paymentMethod : String
  deriving DecidableEq

def selectProduct (productId : String) : Except Rejection CreemProduct :=
  match cfg.creemProducts with
  | none => .error (.reply "产品配置错误")
  | some products =>
    match products.find? fun product => product.productId == productId with
    | none => .error (.reply "产品不存在")
    | some product => .ok product

/-- The order a Creem request asks for. Its payment method stays empty. -/
def creemOrder (req : CreemPayRequest) (s : PaymentStore) : Except Rejection TopUp := do
  refuseIf (req.paymentMethod != "creem") "不支持的支付渠道"
  refuseIf (req.productId == "") "请选择产品"
  let product ← selectProduct cfg req.productId
  -- the user is read for the trade number and the link; without one the handler panics
  let _user ← getUserById env s
  return { userId := env.id
           amount := product.quota
           money := product.price
           tradeNo := "ref_" ++ env.nonce
           paymentMethod := ""
           createTime := env.now
           completeTime := 0
           status := .pending }

/-- **`CreemAdaptor.RequestPay`**. The order is written before the link is asked for, and stays
without one. -/
def requestCreem (req : CreemPayRequest) (s : PaymentStore) :
    Except Rejection Unit × PaymentStore :=
  match creemOrder cfg env req s with
  | .error e => (.error e, s)
  | .ok topUp =>
    match insertOrder env topUp s with
    | (.error e, s') => (.error e, s')
    | (.ok (), s') => (refuseIf env.purchaseFault "拉起支付失败", s')

/-! ### All three -/

inductive Provider where
  | epay
  | stripe
  | creem
  deriving DecidableEq

inductive PayRequest where
  | epay (req : EpayRequest)
  | stripe (req : StripePayRequest)
  | creem (req : CreemPayRequest)
  deriving DecidableEq

def PayRequest.provider : PayRequest → Provider
  | .epay _ => .epay
  | .stripe _ => .stripe
  | .creem _ => .creem

def PayRequest.order (s : PaymentStore) : PayRequest → Except Rejection TopUp
  | .epay req => epayOrder cfg env req s
  | .stripe req => stripeOrder cfg env req s
  | .creem req => creemOrder cfg env req s

def requestPay (s : PaymentStore) : PayRequest → Except Rejection Unit × PaymentStore
  | .epay req => requestEpay cfg env req s
  | .stripe req => requestStripe cfg env req s
  | .creem req => requestCreem cfg env req s

/-- **The order `topUp` is created by a request.** -/
def Creates (req : PayRequest) (s : PaymentStore) (topUp : TopUp) : Prop :=
  topUp ∈ (requestPay cfg env s req).2.orders ∧ topUp ∉ s.orders
deriving Decidable

open PayRequest

theorem mem_insertOrder {env : RequestEnv} {topUp o : TopUp} {s : PaymentStore}
    (h : o ∈ (insertOrder env topUp s).2.orders) (hnew : o ∉ s.orders) : o = topUp := by
  unfold insertOrder at h
  split at h
  · exact absurd h hnew
  · rename_i orders hins
    have hins' : s.orders.insert? topUp = some orders := by
      by_cases hfault : env.insertFault = true
      · simp [hfault] at hins
      · simpa [hfault] using hins
    rcases (Table.mem_insert? hins').mp h with hold | rfl
    · exact absurd hold hnew
    · rfl

theorem order_of_creates {cfg : PaymentSettings} {env : RequestEnv} {req : PayRequest}
    {s : PaymentStore} {o : TopUp} (h : Creates cfg env req s o) : req.order cfg env s = .ok o := by
  obtain ⟨hmem, hnew⟩ := h
  cases req with
  | epay req =>
    simp only [requestPay, requestEpay] at hmem
    split at hmem
    · exact absurd hmem hnew
    · rename_i topUp horder
      rw [order, horder, mem_insertOrder hmem hnew]
  | stripe req =>
    simp only [requestPay, requestStripe] at hmem
    split at hmem
    · exact absurd hmem hnew
    · rename_i topUp horder
      rw [order, horder, mem_insertOrder hmem hnew]
  | creem req =>
    have hstore : ∀ topUp, creemOrder cfg env req s = .ok topUp →
        (requestCreem cfg env req s).2 = (insertOrder env topUp s).2 := by
      intro topUp horder
      simp only [requestCreem, horder]
      split <;> simp_all
    cases horder : creemOrder cfg env req s with
    | error e =>
      simp only [requestPay, requestCreem, horder] at hmem
      exact absurd hmem hnew
    | ok topUp =>
      rw [requestPay, hstore topUp horder] at hmem
      rw [order, horder, mem_insertOrder hmem hnew]

structure Fresh (provider : Provider) (o : TopUp) : Prop where
  pending : o.status = .pending
  tradeNo : o.tradeNo ≠ ""
  stripe : provider = .stripe → o.paymentMethod = "stripe"
  creem : provider = .creem → o.paymentMethod = ""

theorem marked_ne_empty {mark rest : String} (h : mark ≠ "") : mark ++ rest ≠ "" := by
  intro happ
  exact h (String.append_eq_empty_iff.mp happ).1

theorem fresh_of_creates {cfg : PaymentSettings} {env : RequestEnv} {req : PayRequest}
    {s : PaymentStore} {o : TopUp} (h : Creates cfg env req s o) : Fresh req.provider o := by
  have horder := order_of_creates h
  cases req with
  | epay req =>
    simp only [order, epayOrder, bind_eq_ok] at horder
    obtain ⟨_, -, _, -, _, -, _, -, _, -, _, -, _, -, _, -, horder⟩ := horder
    cases horder
    exact ⟨rfl, marked_ne_empty (by decide), (fun h => by cases h), (fun h => by cases h)⟩
  | stripe req =>
    simp only [order, stripeOrder, bind_eq_ok] at horder
    obtain ⟨_, -, _, -, _, -, _, -, _, -, _, -, _, -, horder⟩ := horder
    cases horder
    exact ⟨rfl, marked_ne_empty (by decide), fun _ => rfl, (fun h => by cases h)⟩
  | creem req =>
    simp only [order, creemOrder, bind_eq_ok] at horder
    obtain ⟨_, -, _, -, _, -, _, -, horder⟩ := horder
    cases horder
    exact ⟨rfl, marked_ne_empty (by decide), (fun h => by cases h), fun _ => rfl⟩

end NomoApi
