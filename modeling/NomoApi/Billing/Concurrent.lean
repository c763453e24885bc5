import Mathlib.Algebra.Order.BigOperators.Group.Finset
import NomoApi.Billing.Session
import NomoApi.Lib.Interleave

/-! # Sessions that are opened at the same time

`NewBillingSession` takes the amount of a wallet-funded request in six statements: wallet and token
are read and compared, then lowered without a condition. Requests opened at the same time are all
compared with balances that none has lowered yet. -/

namespace NomoApi

open List Finset BillingSession Int

universe u

/-! ### The statements of a request -/

/-- **A request that is paid from the wallet**, through a token with a limit, not trusted. -/
structure WalletRequest where
  env : SessionEnv
  info : RelayInfo
  preConsumedQuota : Int
  uncachedUser : env.cachedUserQuota = none
  uncachedToken : env.cachedTokenQuota .wallet = none
  unbatched : env.funding.batchUpdateEnabled = false
  limited : info.tokenUnlimited = false
  counted : info.isPlayground = false
  untrusted : ∀ userQuota, (init (.wallet ⟨0⟩)).shouldTrust env
    { info with userQuota } = false

inductive OpeningPhase where
  | started
  | walletRead (userQuota : Int)
  | walletHolds
  | tokenRead (remainQuota : Int)
  | tokenHolds
  | tokenCharged
  | opened
  | failed (err : SessionHalt)
  deriving DecidableEq

def TokenAccount.charge (token : TokenAccount) (quota : Int) : TokenAccount :=
  { token with
    remainQuota := token.remainQuota - quota
    usedQuota := token.usedQuota + quota }

def UserAccount.charge (user : UserAccount) (quota : Int) : UserAccount :=
  { user with quota := user.quota - quota }

namespace WalletRequest

def compareWallet (r : WalletRequest) (userQuota : Int) : OpeningPhase :=
  if userQuota ≤ 0 then
    .failed (.api (newForbidden ("用户额度不足, 剩余额度: " ++ r.env.formatQuota userQuota)
      .insufficientUserQuota))
  else if userQuota - r.preConsumedQuota < 0 then
    .failed (.api (newForbidden ("预扣费额度失败, 用户剩余额度: " ++ r.env.formatQuota userQuota ++
      ", 需要预扣费额度: " ++ r.env.formatQuota r.preConsumedQuota) .insufficientUserQuota))
  else .walletHolds

/-- The comparison with the token (`PreConsumeTokenQuota`). -/
def compareToken (r : WalletRequest) (remainQuota : Int) : OpeningPhase :=
  if remainQuota < r.preConsumedQuota then
    .failed (.api (newForbidden ("token quota is not enough, token remain quota: " ++
      r.env.formatQuota remainQuota ++ ", need quota: " ++ r.env.formatQuota r.preConsumedQuota)
      .preConsumeTokenQuotaFailed))
  else .tokenHolds

/-- **The next statement** of a request, on the shared accounts. -/
def next (r : WalletRequest) (a : Accounts) : OpeningPhase → Accounts × OpeningPhase
  | .started => (a, .walletRead a.user.quota)
  | .walletRead userQuota => (a, r.compareWallet userQuota)
  | .walletHolds =>
    -- an amount that is not positive is taken neither from the token nor from the wallet
    if r.preConsumedQuota > 0 then (a, .tokenRead a.token.remainQuota) else (a, .opened)
  | .tokenRead remainQuota => (a, r.compareToken remainQuota)
  -- no condition: the balances are not looked at again
  | .tokenHolds => (a.withToken (a.token.charge r.preConsumedQuota), .tokenCharged)
  | .tokenCharged => ({ a with user := a.user.charge r.preConsumedQuota }, .opened)
  | .opened => (a, .opened)
  | .failed err => (a, .failed err)

end WalletRequest

/-! ### A request that is not interrupted -/

open WalletRequest

theorem decreaseTokenQuota_eq_charge {quota : Int} (hpos : 0 < quota) (token : TokenAccount) :
    decreaseTokenQuota false none quota token = .ok (token.charge quota) := by
  rw [decreaseTokenQuota, if_neg (by omega), TokenAccount.add_none, TokenAccount.charge]
  simp [sub_eq_add_neg]

theorem decreaseUserQuota_eq_charge {quota : Int} (hpos : 0 < quota) (user : UserAccount) :
    decreaseUserQuota false none quota user = .ok (user.charge quota) := by
  rw [decreaseUserQuota, if_neg (by omega), UserAccount.add_none, UserAccount.charge]
  simp [sub_eq_add_neg]

/-- **The statements and the session come to the same**: the accounts, and whether it is open. -/
def Agree (left : Accounts × OpeningPhase)
    (result : SessionResult) : Prop :=
  left.1 = result.2.accounts ∧ ((∃ s, result.1 = .ok s) ∧ left.2 = .opened ∨
    ∃ err, result.1 = .error err ∧ left.2 = .failed err)

section

variable (r : WalletRequest) (a : Accounts) (userQuota : Int)

theorem preConsumeTokenQuota_eq (hpos : 0 < r.preConsumedQuota) :
    preConsumeTokenQuota r.env .none .wallet { r.info with userQuota } r.preConsumedQuota a.token =
      if a.token.remainQuota < r.preConsumedQuota then
        .error (.error ("token quota is not enough, token remain quota: " ++
          r.env.formatQuota a.token.remainQuota ++ ", need quota: " ++
          r.env.formatQuota r.preConsumedQuota))
      else .ok (a.token.charge r.preConsumedQuota) := by
  have hread : readQuota (r.env.cachedTokenQuota .wallet) (SessionFaults.none.getToken .wallet)
      a.token.remainQuota = .ok a.token.remainQuota := by
    rw [r.uncachedToken]
    rfl
  have hcharge : decreaseTokenQuota r.env.funding.batchUpdateEnabled
      (SessionFaults.none.decreaseToken .wallet) r.preConsumedQuota a.token =
        .ok (a.token.charge r.preConsumedQuota) := by
    rw [r.unbatched]
    exact decreaseTokenQuota_eq_charge hpos a.token
  rw [preConsumeTokenQuota, if_neg (by omega), if_neg (by simp [r.counted]), hread]
  change (if _ ∧ _ then _ else _) = _
  rw [hcharge]
  by_cases hlt : a.token.remainQuota < r.preConsumedQuota
  · rw [if_pos ⟨by simp [r.limited], hlt⟩, if_pos hlt]
  · rw [if_neg fun h => hlt h.2, if_neg hlt]

theorem alone_eq_preConsume :
    Agree (alone (fun (_ : Unit) => r.next) (List.replicate 4 ()) (a, .walletHolds))
      ((init (.wallet ⟨0⟩)).preConsume r.env .none r.preConsumedQuota
        ⟨{ r.info with userQuota }, a⟩) := by
  have hsource : (FundingSource.wallet ⟨0⟩).source = .wallet := rfl
  have hfunding : (init (.wallet ⟨0⟩)).funding = .wallet ⟨0⟩ := rfl
  unfold preConsume
  simp only [r.untrusted userQuota, Bool.false_eq_true, if_false, hsource, hfunding, alone,
    replicate, foldl_cons, foldl_nil, WalletRequest.next]
  by_cases hpos : r.preConsumedQuota > 0
  · simp only [if_pos hpos, preConsumeTokenQuota_eq r a userQuota hpos]
    by_cases hlt : a.token.remainQuota < r.preConsumedQuota
    · simp only [compareToken, if_pos hlt]
      exact ⟨rfl, .inr ⟨_, rfl, rfl⟩⟩
    · have hwallet : decreaseUserQuota r.env.funding.batchUpdateEnabled
          SessionFaults.none.funding.decreaseUser r.preConsumedQuota a.user =
            .ok (a.user.charge r.preConsumedQuota) := by
        rw [r.unbatched]
        exact decreaseUserQuota_eq_charge hpos a.user
      simp only [compareToken, if_neg hlt, FundingSource.preConsume,
        if_neg (show ¬ r.preConsumedQuota ≤ 0 by omega), Accounts.withToken_user, hwallet]
      exact ⟨rfl, .inl ⟨⟨_, rfl⟩, rfl⟩⟩
  · simp only [if_neg hpos, FundingSource.preConsume,
      if_pos (show r.preConsumedQuota ≤ 0 by omega)]
    exact ⟨rfl, .inl ⟨⟨_, rfl⟩, rfl⟩⟩

/-- **Uninterrupted, the six statements are `tryWallet`.** -/
theorem alone_eq_tryWallet :
    Agree (alone (fun (_ : Unit) => r.next) (List.replicate 6 ()) (a, .started))
      (tryWallet r.env .none r.preConsumedQuota ⟨r.info, a⟩) := by
  have hread : readQuota r.env.cachedUserQuota SessionFaults.none.userQuota a.user.quota =
      .ok a.user.quota := by
    rw [r.uncachedUser]
    rfl
  change Agree (alone (fun (_ : Unit) => r.next) (replicate 4 ())
    (a, r.compareWallet a.user.quota)) _
  unfold tryWallet
  dsimp only
  rw [hread]
  dsimp only
  unfold compareWallet
  by_cases hzero : a.user.quota ≤ 0
  · rw [if_pos hzero, if_pos hzero]
    exact ⟨rfl, .inr ⟨_, rfl, rfl⟩⟩
  rw [if_neg hzero, if_neg hzero]
  by_cases hless : a.user.quota - r.preConsumedQuota < 0
  · rw [if_pos hless, if_pos hless]
    exact ⟨rfl, .inr ⟨_, rfl, rfl⟩⟩
  rw [if_neg hless, if_neg hless]
  exact alone_eq_preConsume r a a.user.quota

end

/-! ### Many requests -/

section Race

variable {ι : Type u} [DecidableEq ι]

abbrev OpeningRace (ι : Type u) := Processes Accounts ι OpeningPhase

def openingStep (rs : ι → WalletRequest) : OpeningRace ι → ι → OpeningRace ι :=
  interleave id fun i => (rs i).next

def OpeningRace.start (a : Accounts) : OpeningRace ι := ⟨a, fun _ => .started⟩

def WalletRequest.outstanding (r : WalletRequest) : OpeningPhase → Int
  | .opened => max r.preConsumedQuota 0
  | _ => 0

def WalletRequest.tokenTaken (r : WalletRequest) : OpeningPhase → Int
  | .tokenCharged | .opened => max r.preConsumedQuota 0
  | _ => 0

def WalletRequest.Fits (a : Accounts) (r : WalletRequest) : Prop :=
  0 < r.preConsumedQuota ∧ r.preConsumedQuota ≤ a.user.quota ∧
    r.preConsumedQuota ≤ a.token.remainQuota
deriving Decidable

variable [Fintype ι]

/-- **What is taken is covered** by the initial balances, and no balance is negative. -/
structure PreConsumedCovered (rs : ι → WalletRequest) (a : Accounts) (p : OpeningRace ι) :
    Prop where
  byWallet : ∑ i, (rs i).outstanding (p.phase i) ≤ a.user.quota
  byToken : ∑ i, (rs i).outstanding (p.phase i) ≤ a.token.remainQuota
  wallet : 0 ≤ p.shared.user.quota
  token : 0 ≤ p.shared.token.remainQuota

def fittingTotal (rs : ι → WalletRequest) (a : Accounts) : Int :=
  ∑ i, if (rs i).Fits a then (rs i).preConsumedQuota else 0

/-! ### What holds in every interleaving -/

def WalletRequest.Sound (a : Accounts) (r : WalletRequest) : OpeningPhase → Prop
  | .started => True
  | .walletRead userQuota => userQuota ≤ a.user.quota
  | .walletHolds => r.preConsumedQuota ≤ a.user.quota
  | .tokenRead remainQuota =>
    0 < r.preConsumedQuota ∧ r.preConsumedQuota ≤ a.user.quota ∧
      remainQuota ≤ a.token.remainQuota
  | .tokenHolds => r.Fits a
  | .tokenCharged => r.Fits a
  | .opened => 0 < r.preConsumedQuota → r.Fits a
  | .failed _ => True

/-- **The invariant**: the balances are the initial ones less what was taken. -/
structure OpeningInv (rs : ι → WalletRequest) (a : Accounts) (p : OpeningRace ι) : Prop where
  wallet : p.shared.user.quota = a.user.quota - ∑ i, (rs i).outstanding (p.phase i)
  token : p.shared.token.remainQuota = a.token.remainQuota - ∑ i, (rs i).tokenTaken (p.phase i)
  sound : ∀ i, (rs i).Sound a (p.phase i)

variable {rs : ι → WalletRequest} {a : Accounts} {p : OpeningRace ι}

theorem outstanding_nonneg (r : WalletRequest) (phase : OpeningPhase) :
    0 ≤ r.outstanding phase := by
  cases phase <;> simp [outstanding]

theorem tokenTaken_le_of_sound {r : WalletRequest} {phase : OpeningPhase} (h : r.Sound a phase) :
    r.tokenTaken phase ≤ if r.Fits a then r.preConsumedQuota else 0 := by
  have hzero : (0 : Int) ≤ if r.Fits a then r.preConsumedQuota else 0 := by
    split
    · rename_i hfits
      exact hfits.1.le
    · exact le_rfl
  cases phase with
  | tokenCharged =>
    have hfits : r.Fits a := h
    rw [if_pos hfits, tokenTaken, max_eq_left hfits.1.le]
  | opened =>
    rw [tokenTaken]
    by_cases hpos : 0 < r.preConsumedQuota
    · rw [if_pos (h hpos), max_eq_left hpos.le]
    · rw [max_eq_right (not_lt.mp hpos)]
      exact hzero
  | _ => exact hzero

theorem next_effect (r : WalletRequest) {s : Accounts} {phase : OpeningPhase}
    (hw : s.user.quota ≤ a.user.quota) (ht : s.token.remainQuota ≤ a.token.remainQuota)
    (h : r.Sound a phase) : (r.next s phase).1.user.quota =
        s.user.quota - (r.outstanding (r.next s phase).2 - r.outstanding phase) ∧
      (r.next s phase).1.token.remainQuota =
        s.token.remainQuota - (r.tokenTaken (r.next s phase).2 - r.tokenTaken phase) ∧
      r.Sound a (r.next s phase).2 := by
  cases phase with
  | started =>
    simp only [WalletRequest.next, outstanding, tokenTaken]
    exact ⟨by omega, by omega, hw⟩
  | walletRead userQuota =>
    have hle : userQuota ≤ a.user.quota := h
    simp only [WalletRequest.next, compareWallet]
    by_cases hzero : userQuota ≤ 0
    · rw [if_pos hzero]
      exact ⟨(sub_zero _).symm, (sub_zero _).symm, trivial⟩
    rw [if_neg hzero]
    by_cases hless : userQuota - r.preConsumedQuota < 0
    · rw [if_pos hless]
      exact ⟨(sub_zero _).symm, (sub_zero _).symm, trivial⟩
    rw [if_neg hless]
    -- the balance that was read has only been lowered since the beginning
    refine ⟨(sub_zero _).symm, (sub_zero _).symm, ?_⟩
    show r.preConsumedQuota ≤ a.user.quota
    omega
  | walletHolds =>
    have hle : r.preConsumedQuota ≤ a.user.quota := h
    simp only [WalletRequest.next]
    split
    · rename_i hpos
      exact ⟨(sub_zero _).symm, (sub_zero _).symm, hpos, hle, ht⟩
    · rename_i hpos
      have hnone : max r.preConsumedQuota 0 = 0 := max_eq_right (not_lt.mp hpos)
      simp only [outstanding, tokenTaken, hnone]
      exact ⟨by omega, by omega, fun h => absurd h hpos⟩
  | tokenRead remainQuota =>
    obtain ⟨hpos, hle, hread⟩ : 0 < r.preConsumedQuota ∧ r.preConsumedQuota ≤ a.user.quota ∧
      remainQuota ≤ a.token.remainQuota := h
    simp only [WalletRequest.next, compareToken]
    split
    · exact ⟨(sub_zero _).symm, (sub_zero _).symm, trivial⟩
    · exact ⟨(sub_zero _).symm, (sub_zero _).symm, hpos, hle, by omega⟩
  | tokenHolds =>
    have hfits : r.Fits a := h
    have hamount : max r.preConsumedQuota 0 = r.preConsumedQuota := max_eq_left hfits.1.le
    simp only [WalletRequest.next, outstanding, tokenTaken, hamount, Accounts.withToken,
      TokenAccount.charge]
    exact ⟨by omega, by omega, hfits⟩
  | tokenCharged =>
    have hfits : r.Fits a := h
    have hamount : max r.preConsumedQuota 0 = r.preConsumedQuota := max_eq_left hfits.1.le
    simp only [WalletRequest.next, outstanding, tokenTaken, hamount, UserAccount.charge]
    exact ⟨by omega, by omega, fun _ => hfits⟩
  | opened => exact ⟨by simp [WalletRequest.next], by simp [WalletRequest.next], h⟩
  | failed err => exact ⟨by simp [WalletRequest.next], by simp [WalletRequest.next], trivial⟩

omit [DecidableEq ι] in
theorem openingInv_start : OpeningInv rs a (OpeningRace.start a) where
  wallet := by simp [OpeningRace.start, outstanding]
  token := by simp [OpeningRace.start, tokenTaken]
  sound := fun _ => trivial

theorem OpeningInv.step (h : OpeningInv rs a p) (i : ι) : OpeningInv rs a (openingStep rs p i) := by
  have hw : p.shared.user.quota ≤ a.user.quota := by
    have hsum := sum_nonneg fun i (_ : i ∈ univ) =>
      outstanding_nonneg (rs i) (p.phase i)
    have hwallet := h.wallet
    omega
  have ht : p.shared.token.remainQuota ≤ a.token.remainQuota := by
    have hsum : 0 ≤ ∑ i, (rs i).tokenTaken (p.phase i) :=
      sum_nonneg fun i _ => by cases p.phase i <;> simp [tokenTaken]
    have htoken := h.token
    omega
  obtain ⟨hwallet, htoken, hsound⟩ := next_effect (rs i) hw ht (h.sound i)
  refine ⟨?_, ?_, ?_⟩
  · rw [openingStep, sum_interleave fun i => (rs i).outstanding, shared_interleave, id, hwallet,
      h.wallet]
    omega
  · rw [openingStep, sum_interleave fun i => (rs i).tokenTaken, shared_interleave, id, htoken,
      h.token]
    omega
  · exact forall_interleave (J := fun i _ phase => (rs i).Sound a phase) hsound
      fun j _ => h.sound j

omit [DecidableEq ι] in
theorem OpeningInv.sum_le (h : OpeningInv rs a p) :
    ∑ i, (rs i).tokenTaken (p.phase i) ≤ fittingTotal rs a :=
  sum_le_sum fun i _ => tokenTaken_le_of_sound (h.sound i)

omit [DecidableEq ι] in
theorem OpeningInv.covered (h : OpeningInv rs a p) (hw : fittingTotal rs a ≤ a.user.quota)
    (ht : fittingTotal rs a ≤ a.token.remainQuota) : PreConsumedCovered rs a p := by
  have hle := h.sum_le
  have hsum : ∑ i, (rs i).outstanding (p.phase i) ≤ ∑ i, (rs i).tokenTaken (p.phase i) :=
    sum_le_sum fun i _ => by cases p.phase i <;> simp [outstanding, tokenTaken]
  have hwallet := h.wallet
  have htoken := h.token
  exact ⟨by omega, by omega, by omega, by omega⟩

/-! ### The interleaving in which all requests are compared first -/

omit [DecidableEq ι] [Fintype ι] in
theorem alone_compares {i : ι} (h : (rs i).Fits a) :
    alone (fun i => (rs i).next) (List.replicate 4 i) (a, .started) = (a, .tokenHolds) := by
  obtain ⟨hpos, hw, ht⟩ := h
  have hwallet : (rs i).compareWallet a.user.quota = .walletHolds := by
    rw [compareWallet, if_neg (by omega), if_neg (by omega)]
  have hholds : (rs i).next a .walletHolds = (a, .tokenRead a.token.remainQuota) := if_pos hpos
  have htoken : (rs i).compareToken a.token.remainQuota = .tokenHolds := if_neg (by omega)
  change (rs i).next ((rs i).next a ((rs i).compareWallet a.user.quota)).1
    ((rs i).next a ((rs i).compareWallet a.user.quota)).2 = _
  rw [hwallet, hholds]
  exact congrArg (Prod.mk a) htoken

/-- **All requests that fit can be open at once**: all are compared before any is charged. -/
theorem exists_all_opened (rs : ι → WalletRequest) (a : Accounts) : ∃ es, ∀ i, (rs i).Fits a →
      (run (openingStep rs) (OpeningRace.start a) es).phase i = .opened := by
  let fitting : List ι := (univ.filter fun i => (rs i).Fits a).toList
  have hmem : ∀ i, i ∈ fitting ↔ (rs i).Fits a := by
    intro i
    rw [mem_toList, Finset.mem_filter, and_iff_right (mem_univ i)]
  have hnodup : fitting.Nodup := nodup_toList _
  have hown : ∀ n, ∀ i ∈ fitting, ∀ e ∈ replicate n i, id e = i :=
    fun n i _ e he => eq_of_mem_replicate he
  -- first everybody is compared, with nothing taken yet
  have hcompared : ∀ i ∈ fitting, (run (openingStep rs) (OpeningRace.start a)
      (fitting.flatMap (replicate 4))).phase i = .tokenHolds := by
    refine (run_each (fun i => (rs i).next) (P := fun s => s = a) (f := fun _ => .started)
      (g := fun _ => .tokenHolds) hnodup (hown 4) (fun i hi s hs => ?_)
      (p := OpeningRace.start a) rfl (fun _ _ => rfl)).2.1
    rw [hs, alone_compares ((hmem i).mp hi)]
    exact ⟨rfl, rfl⟩
  -- then everybody is charged
  have hopened : ∀ i ∈ fitting, (run (openingStep rs) (run (openingStep rs) (OpeningRace.start a)
      (fitting.flatMap (replicate 4))) (fitting.flatMap (replicate 2))).phase i =
        .opened :=
    (run_each (fun i => (rs i).next) (P := fun _ => True) (f := fun _ => .tokenHolds)
      (g := fun _ => .opened) hnodup (hown 2) (fun _ _ _ _ => ⟨trivial, rfl⟩) trivial
      hcompared).2.1
  refine ⟨fitting.flatMap (replicate 4) ++ fitting.flatMap (replicate 2), ?_⟩
  intro i hi
  rw [run_append]
  exact hopened i ((hmem i).mpr hi)

omit [DecidableEq ι] in
theorem fittingTotal_le_of_opened (h : ∀ i, (rs i).Fits a → p.phase i = .opened) :
    fittingTotal rs a ≤ ∑ i, (rs i).outstanding (p.phase i) := by
  refine sum_le_sum fun i _ => ?_
  split
  · rename_i hfits
    rw [h i hfits]
    exact le_max_left _ _
  · exact outstanding_nonneg _ _

/-- **Every interleaving is covered by the balances** iff these hold all together the amounts that
they hold one by one. -/
theorem preConsumed_covered_iff (rs : ι → WalletRequest) (a : Accounts) :
    (∀ es, PreConsumedCovered rs a (run (openingStep rs) (OpeningRace.start a) es)) ↔
      fittingTotal rs a ≤ a.user.quota ∧ fittingTotal rs a ≤ a.token.remainQuota := by
  constructor
  · intro h
    obtain ⟨es, hopened⟩ := exists_all_opened rs a
    have hle := fittingTotal_le_of_opened hopened
    exact ⟨hle.trans (h es).byWallet, hle.trans (h es).byToken⟩
  · rintro ⟨hw, ht⟩ es
    have hinv : OpeningInv rs a (run (openingStep rs) (OpeningRace.start a) es) :=
      run_induction (fun p i h => h.step i) openingInv_start es
    exact hinv.covered hw ht

end Race

def plainWalletRequest (preConsumedQuota : Int) : WalletRequest where
  env := plainEnv
  info := plainInfo "wallet_only"
  preConsumedQuota := preConsumedQuota
  uncachedUser := rfl
  uncachedToken := rfl
  unbatched := rfl
  limited := rfl
  counted := rfl
  untrusted := fun _ => rfl

/-- **Two requests over 30 each, with 50 in the wallet**, which ends up at -10. -/
theorem both_requests_opened :
    let p := run (openingStep fun (_ : Bool) => plainWalletRequest 30)
      (OpeningRace.start walletAccounts)
      (List.replicate 4 false ++ List.replicate 4 true ++ List.replicate 2 false ++
        List.replicate 2 true)
    p.phase false = .opened ∧ p.phase true = .opened ∧ p.shared.user.quota = -10 ∧
      ¬ PreConsumedCovered (fun _ => plainWalletRequest 30) walletAccounts p := by
  intro p
  have hwallet : p.shared.user.quota = -10 := rfl
  refine ⟨rfl, rfl, hwallet, fun h => ?_⟩
  have hnonneg := h.wallet
  rw [hwallet] at hnonneg
  exact absurd hnonneg (by decide)

end NomoApi
