import NomoApi.Claude.Stream
import NomoApi.Relay.RetryLimits

/-! # Retries of streams

When an attempt fails in the middle of its stream, what it has written stays written, and the loop
of `Relay` decides about the next attempt by the error alone. -/

namespace NomoApi

open List ClaudeResponse

/-! ### Errors on their way to the loop -/

def isViolationFeeCode (code : String) : Bool := hasPrefix code "violation_fee."

def csamViolationMarker : String := "Failed check: SAFETY_CHECK_TYPE"

def contentViolatesUsageMarker : String := "Content violates usage guidelines"

variable (mask : String → String) (err : NewAPIError)

/-- The message of `ToOpenAIError`, with the masking `MaskSensitiveInfo`. -/
def NewAPIError.openAIMessage : String :=
  let message := if err.errorCode ≠ "count_token_failed" then mask err.message else err.message
  if message = "" then err.errorType else message

def hasCSAMViolationMarker : Bool :=
  if contains err.message csamViolationMarker || contains err.message contentViolatesUsageMarker
  then true
  else
    -- the second marker is looked for in the message itself again
    contains (err.openAIMessage mask) csamViolationMarker ||
      contains err.message contentViolatesUsageMarker

def normalizeViolationFeeError : NewAPIError :=
  if hasCSAMViolationMarker mask err then
    { err with
      errorType := "openai_error"
      errorCode := "violation_fee.grok.csam"
      skipRetry := true
      message := err.openAIMessage mask }
  else if isViolationFeeCode err.errorCode then
    { err with errorType := "openai_error", skipRetry := true, message := err.openAIMessage mask }
  else err

/-- `ResetStatusCode`, with the channel's mapping. -/
def resetStatusCode (statusCodeMapping : Int → Option Int) (err : NewAPIError) : NewAPIError :=
  if err.statusCode = 200 then err
  else { err with statusCode := (statusCodeMapping err.statusCode).getD err.statusCode }

def NewAPIError.toRelayError : RelayError :=
  ⟨err.errorCode, err.skipRetry, err.statusCode⟩

/-! ### Attempts -/

inductive ClaudeAnswer
  | bodyFailed
  /-- No answer: not sent, or without the status of a success. -/
  | rejected (err : NewAPIError)
  | streamed (datas : List UpstreamData)

structure ClaudeAttempt where
  upstreamModelName : String
  statusCodeMapping : Int → Option Int := fun _ => none
  answer : ClaudeAnswer

def ClaudeResponse.isContent (r : ClaudeResponse) : Bool :=
  r.type = .contentBlockStart || r.type = .contentBlockDelta

def ClaudeStream.content (s : ClaudeStream) : List ClaudeResponse :=
  s.written.filter (·.isContent)

namespace ClaudeAttempt

def run (format : ClientFormat) (a : ClaudeAttempt) : ClaudeStream × Option NewAPIError :=
  match a.answer with
  | .bodyFailed => ({ upstreamModelName := a.upstreamModelName }, none)
  | .rejected err => ({ upstreamModelName := a.upstreamModelName }, some err)
  | .streamed datas =>
    let scanned := scanStream format datas { upstreamModelName := a.upstreamModelName }
    (scanned.1, scanned.2.map (resetStatusCode a.statusCodeMapping))

/-- **The client's view**: the content that the attempt has written. -/
def content (format : ClientFormat) (a : ClaudeAttempt) : List ClaudeResponse :=
  (a.run format).1.content

/-- **The loop's view** of an attempt. -/
def outcome (format : ClientFormat) (mask : String → String) (a : ClaudeAttempt) : RelayOutcome :=
  match a.answer with
  | .bodyFailed => .bodyFailed
  | _ =>
    match (a.run format).2 with
    | none => .success
    | some err => .failed (normalizeViolationFeeError mask err).toRelayError

end ClaudeAttempt

def firstError : List UpstreamData → Option NewAPIError
  | [] => none
  | .error message :: _ => some (badResponseBody message)
  | .ok r :: rest =>
    match r.upstreamError with
    | some err => some (withClaudeError err 500)
    | none => firstError rest

open ClaudeAttempt

/-- **The error that a stream ends with after content**, if it does. -/
def errorAfterContent : List UpstreamData → Option NewAPIError
  | [] => none
  | .error _ :: _ => none
  | .ok r :: rest =>
    match r.upstreamError with
    | some _ => none
    | none => if r.isContent then firstError rest else errorAfterContent rest

/-- The error that an attempt ends with after content, as the loop sees it. -/
def ClaudeAttempt.lateError (mask : String → String) (a : ClaudeAttempt) : Option RelayError :=
  match a.answer with
  | .streamed datas =>
    (errorAfterContent datas).map fun err =>
      (normalizeViolationFeeError mask (resetStatusCode a.statusCodeMapping err)).toRelayError
  | _ => none

def claudeWorld (format : ClientFormat) (mask : String → String)
    (available : Nat → String → Nat → Bool) (ready : Nat → Bool)
    (attempts : Nat → ClaudeAttempt) : RelayWorld where
  available := available
  ready := ready
  outcome := fun n => (attempts n).outcome format mask

/-- **The attempts of a request** within a number of rounds, ended or not. -/
def relayWithin (cfg : RelayConfig) (w : RelayWorld) (fuel : Nat) : List (Option Nat) :=
  match distribute cfg w with
  | none => []
  | some (g, s) =>
    match relayAttempt cfg w g s with
    | .inr visited => visited
    | .inl s' => progress (relayStep cfg w) (·.visited) fuel s'

theorem relayWithin_of_relay {cfg : RelayConfig} {w : RelayWorld} {fuel : Nat}
    {visited : List (Option Nat)} (h : relay cfg w fuel = some visited) :
    relayWithin cfg w fuel = visited := by
  rw [relay] at h
  rw [relayWithin]
  cases hd : distribute cfg w with
  | none =>
    rw [hd] at h
    exact Option.some.inj h
  | some first =>
    obtain ⟨g, s⟩ := first
    rw [hd] at h
    dsimp only at h ⊢
    cases ha : relayAttempt cfg w g s with
    | inr visited' =>
      rw [ha] at h
      exact Option.some.inj h
    | inl s' =>
      rw [ha] at h
      exact progress_of_iterate h

/-! ### What a failing stream has written -/

theorem isContent_of_not_sent {r : ClaudeResponse} {info : ClaudeResponseInfo}
    (h : (formatClaudeResponseInfo r info).2 = false) : r.isContent = false := by
  unfold formatClaudeResponseInfo at h
  cases htype : r.type with
  | other name => simp [isContent, htype]
  | messageStart => simp [isContent, htype]
  | messageDelta => simp [isContent, htype]
  | contentBlockStart =>
    rw [htype] at h
    cases h
  | contentBlockDelta =>
    rw [htype] at h
    cases hdelta : r.delta with
    | none =>
      rw [hdelta] at h
      cases h
    | some delta =>
      rw [hdelta] at h
      cases h

theorem content_handleStreamResponseData {r : ClaudeResponse} (h : r.upstreamError = none)
    (format : ClientFormat) (s : ClaudeStream) :
    ∃ s', handleStreamResponseData format (.ok r) s = .ok s' ∧
      s'.content = s.content ++ [r].filter (·.isContent) := by
  simp only [handleStreamResponseData, h]
  cases format with
  | claude => exact ⟨_, rfl, filter_append _ _⟩
  | openAI =>
    refine ⟨_, rfl, ?_⟩
    by_cases hf : (formatClaudeResponseInfo r s.toClaudeResponseInfo).2 = true
    · rw [if_pos hf]
      exact filter_append _ _
    · have hcontent : r.isContent = false := isContent_of_not_sent (by simpa using hf)
      rw [if_neg hf, filter_cons_of_neg (by simp [hcontent]), filter_nil, append_nil]
      rfl

variable (format : ClientFormat) (datas : List UpstreamData)

theorem scanStream_firstError
    (s : ClaudeStream) : (scanStream format datas s).2 = firstError datas := by
  induction datas generalizing s with
  | nil => rfl
  | cons data rest ih =>
    cases data with
    | error message => rfl
    | ok r =>
      cases herr : r.upstreamError with
      | some err =>
        rw [scanStream, firstError]
        simp [handleStreamResponseData, herr]
      | none =>
        obtain ⟨s', hs', -⟩ := content_handleStreamResponseData herr format s
        rw [scanStream, firstError, hs', herr]
        exact ih s'

theorem firstError_of_errorAfterContent {err : NewAPIError} {datas : List UpstreamData}
    (h : errorAfterContent datas = some err) : firstError datas = some err := by
  induction datas with
  | nil => cases h
  | cons data rest ih =>
    cases data with
    | error message => cases h
    | ok r =>
      rw [errorAfterContent] at h
      rw [firstError]
      cases herr : r.upstreamError with
      | some err' =>
        rw [herr] at h
        cases h
      | none =>
        rw [herr] at h
        dsimp only at h ⊢
        split at h
        · exact h
        · exact ih h

theorem content_scanStream_ne_nil
    {s : ClaudeStream} (hs : s.content ≠ []) : (scanStream format datas s).1.content ≠ [] := by
  induction datas generalizing s with
  | nil => exact hs
  | cons data rest ih =>
    cases data with
    | error message => exact hs
    | ok r =>
      rw [scanStream]
      cases herr : r.upstreamError with
      | some err =>
        simp only [handleStreamResponseData, herr]
        exact hs
      | none =>
        obtain ⟨s', hs', hcontent⟩ := content_handleStreamResponseData herr format s
        rw [hs']
        refine ih ?_
        rw [hcontent]
        exact append_ne_nil_of_left_ne_nil hs _

/-- **A stream that fails has written content exactly if its error is a late one.** -/
theorem content_scanStream_iff {err : NewAPIError}
    {datas : List UpstreamData} {s : ClaudeStream} (hfails : firstError datas = some err)
    (hs : s.content = []) :
    (scanStream format datas s).1.content ≠ [] ↔ errorAfterContent datas = some err := by
  induction datas generalizing s with
  | nil => cases hfails
  | cons data rest ih =>
    cases data with
    | error message => simpa [scanStream, handleStreamResponseData, errorAfterContent] using hs
    | ok r =>
      rw [firstError] at hfails
      rw [scanStream, errorAfterContent]
      cases herr : r.upstreamError with
      | some err' => simpa [handleStreamResponseData, herr] using hs
      | none =>
        rw [herr] at hfails
        obtain ⟨s', hs', hcontent'⟩ := content_handleStreamResponseData herr format s
        rw [hs]  at hcontent'
        rw [hs']
        dsimp only at hfails ⊢
        by_cases hcontent : r.isContent = true
        · -- from here on every error is late
          rw [if_pos hcontent]
          rw [filter_cons_of_pos hcontent] at hcontent'
          have hne : s'.content ≠ [] := by
            rw [hcontent']
            exact cons_ne_nil _ _
          exact iff_of_true (content_scanStream_ne_nil format rest hne) hfails
        · rw [if_neg hcontent]
          rw [filter_cons_of_neg hcontent, filter_nil] at hcontent'
          exact ih hfails hcontent'

theorem ClaudeAttempt.lateError_eq_some_iff {mask : String → String}
    {a : ClaudeAttempt} {err : RelayError} : a.lateError mask = some err ↔
      a.outcome format mask = .failed err ∧ a.content format ≠ [] := by
  unfold outcome content lateError
  cases hanswer : a.answer with
  | bodyFailed => simp
  | rejected err' => simp [run, hanswer, ClaudeStream.content]
  | streamed datas =>
    simp only [run, hanswer, scanStream_firstError]
    cases hfirst : firstError datas with
    | none =>
      -- a stream without an error has no late one
      have hnone : errorAfterContent datas = none := by
        by_contra hsome
        obtain ⟨late, hlate⟩ := Option.ne_none_iff_exists'.mp hsome
        rw [firstError_of_errorAfterContent hlate] at hfirst
        cases hfirst
      rw [hnone]
      simp
    | some first =>
      rw [content_scanStream_iff format hfirst rfl]
      cases hlate : errorAfterContent datas with
      | none => simp
      | some late =>
        have heq := firstError_of_errorAfterContent hlate
        rw [hfirst] at heq
        cases heq
        simp

/-! ### Rounds of the loop -/

section Rounds

variable {cfg : RelayConfig} {w : RelayWorld} {s s' : RelayState} {g : Option Nat}

theorem relayAttempt_goes_on (h : relayAttempt cfg w g s = .inl s') :
    (∃ err, w.outcome s.visited.length = .failed err ∧
      cfg.shouldRetry err ((cfg.retryTimes : Int) - s.retry) = true) ∧
      s'.visited = s.visited ++ [g] := by
  refine ⟨?_, ?_⟩
  · rw [relayAttempt] at h
    cases houtcome : w.outcome s.visited.length with
    | success =>
      rw [houtcome] at h
      cases h
    | bodyFailed =>
      rw [houtcome] at h
      cases h
    | failed err =>
      rw [houtcome] at h
      refine ⟨err, rfl, ?_⟩
      by_contra hno
      dsimp only at h
      rw [if_neg hno] at h
      cases h
  · obtain ⟨-, rfl⟩ := relayAttempt_continue h
    exact visited_increaseRetry _

theorem relayStep_cases (cfg : RelayConfig) (w : RelayWorld) (s : RelayState) :
    relayStep cfg w s = .inr s.visited ∨
      ∃ g s₁, s₁.visited = s.visited ∧ relayStep cfg w s = relayAttempt cfg w (some g) s₁ := by
  rw [relayStep]
  have hkept := visited_select cfg w s
  split
  · rcases hselect : cacheGetRandomSatisfiedChannel cfg w s with ⟨_ | g, s₁⟩
    · rw [hselect] at hkept
      exact .inl (congrArg Sum.inr hkept)
    · rw [hselect] at hkept
      dsimp only at hkept ⊢
      by_cases hready : w.ready s₁.visited.length = true
      · rw [if_pos hready]
        exact .inr ⟨g, s₁, hkept, rfl⟩
      · rw [if_neg hready, hkept]
        exact .inl rfl
  · exact .inl rfl

theorem shouldRetry_mono {err : RelayError} {left left' : Int} (hle : left ≤ left')
    (h : cfg.shouldRetry err left = true) : cfg.shouldRetry err left' = true := by
  unfold RelayConfig.shouldRetry at h ⊢
  by_cases hskip : cfg.skipRetryAfterAffinity = true
  · rw [if_pos hskip] at h
    cases h
  rw [if_neg hskip] at h ⊢
  by_cases hchannel : isChannelError err = true
  · rw [if_pos hchannel]
  rw [if_neg hchannel] at h ⊢
  by_cases hpos : left ≤ 0
  · -- without retries left only an error of the channel is retried
    rw [if_pos hpos] at h
    split at h <;> cases h
  · rw [if_neg hpos] at h
    rw [if_neg (show ¬ left' ≤ 0 by omega)]
    exact h

end Rounds

/-! ### One answer for the client -/

section OneAnswer

variable {cfg : RelayConfig} {format : ClientFormat} {mask : String → String}
  {w : RelayWorld} {attempts : Nat → ClaudeAttempt} {s s' : RelayState} {g : Option Nat}

/-- **Only the last of some attempts has written content.** -/
def OnlyLastWrote (format : ClientFormat) (attempts : Nat → ClaudeAttempt) (n : Nat) : Prop :=
  ∀ i j, i < j → j < n → (attempts i).content format = []

/-- **The condition on the attempts**: an error after content is not retried. -/
def ClaudeAttempt.EndsRequest (cfg : RelayConfig) (mask : String → String) (a : ClaudeAttempt) :
    Prop :=
  ∀ err ∈ a.lateError mask, cfg.shouldRetry err cfg.retryTimes = false

section

variable (hend : ∀ n, (attempts n).EndsRequest cfg mask)
  (hw : ∀ n, w.outcome n = (attempts n).outcome format mask)

include hend hw

theorem content_of_goes_on (h : relayAttempt cfg w g s = .inl s') :
    (attempts s.visited.length).content format = [] := by
  obtain ⟨⟨err, houtcome, hretry⟩, -⟩ := relayAttempt_goes_on h
  by_contra hne
  have hlate : (attempts s.visited.length).lateError mask = some err :=
    (lateError_eq_some_iff format).mpr ⟨hw _ ▸ houtcome, hne⟩
  have hno := hend _ err hlate
  -- the loop has fewer retries left than in the beginning
  rw [shouldRetry_mono (by omega) hretry] at hno
  cases hno

end

/-- **No attempt so far has written content.** -/
def NothingWritten (format : ClientFormat) (attempts : Nat → ClaudeAttempt) (s : RelayState) :
    Prop :=
  ∀ i < s.visited.length, (attempts i).content format = []

section

variable (hs : NothingWritten format attempts s)

include hs

theorem NothingWritten.ends {visited : List (Option Nat)}
    (h : relayAttempt cfg w g s = .inr visited) :
    OnlyLastWrote format attempts visited.length := by
  intro i j hij hj
  rw [relayAttempt_done h, length_append, length_singleton] at hj
  exact hs i (by omega)

theorem NothingWritten.onlyLast : OnlyLastWrote format attempts s.visited.length :=
  fun i _ hij hj => hs i (hij.trans hj)

variable (hend : ∀ n, (attempts n).EndsRequest cfg mask)
  (hw : ∀ n, w.outcome n = (attempts n).outcome format mask)

include hend hw

theorem NothingWritten.goes_on (h : relayAttempt cfg w g s = .inl s') :
    NothingWritten format attempts s' := by
  intro i hi
  rw [(relayAttempt_goes_on h).2, length_append, length_singleton] at hi
  rcases Nat.lt_succ_iff_lt_or_eq.mp hi with hlt | rfl
  · exact hs i hlt
  · exact content_of_goes_on hend hw h

theorem NothingWritten.step :
    (∀ s', relayStep cfg w s = .inl s' → NothingWritten format attempts s') ∧
      ∀ visited, relayStep cfg w s = .inr visited →
        OnlyLastWrote format attempts visited.length := by
  rcases relayStep_cases cfg w s with heq | ⟨g, s₁, hkept, heq⟩
  · rw [heq]
    refine ⟨fun s' h => (Sum.inr_ne_inl h).elim, fun visited h => ?_⟩
    rw [← Sum.inr.inj h]
    exact hs.onlyLast
  · have hs₁ : NothingWritten format attempts s₁ := by
      rw [NothingWritten, hkept]
      exact hs
    rw [heq]
    exact ⟨fun s' h => hs₁.goes_on hend hw h, fun visited h => hs₁.ends h⟩

end

/-- **Under the condition only the last attempt has written content.** -/
theorem onlyLastWrote_of_endsRequest (hend : ∀ n, (attempts n).EndsRequest cfg mask)
    (hw : ∀ n, w.outcome n = (attempts n).outcome format mask) (fuel : Nat) :
    OnlyLastWrote format attempts (relayWithin cfg w fuel).length := by
  have hloop : ∀ s, NothingWritten format attempts s → OnlyLastWrote format attempts
      (progress (relayStep cfg w) (·.visited) fuel s).length := by
    intro s hs
    let Q : List (Option Nat) → Prop := fun visited => OnlyLastWrote format attempts visited.length
    have hdone : ∀ s visited, NothingWritten format attempts s →
        relayStep cfg w s = .inr visited → Q visited :=
      fun s visited hs => (hs.step hend hw).2 visited
    exact progress_of_invariant (fun s s' hs => (hs.step hend hw).1 s') hdone
      (fun s hs => hs.onlyLast) fuel hs
  rw [relayWithin]
  cases hd : distribute cfg w with
  | none => exact fun i j _ hj => absurd hj (Nat.not_lt_zero j)
  | some first =>
    obtain ⟨g, s⟩ := first
    have hs : NothingWritten format attempts s := by
      intro i hi
      rw [(distribute_fresh hd).visited] at hi
      exact absurd hi (Nat.not_lt_zero i)
    dsimp only
    cases ha : relayAttempt cfg w g s with
    | inr visited => exact hs.ends ha
    | inl s' => exact hloop s' (hs.goes_on hend hw ha)

end OneAnswer

/-! ### Requests that are retried -/

section Retried

variable {cfg : RelayConfig} {w : RelayWorld} {g : Option Nat} {s s' : RelayState}

/-- **A second attempt is never made**: no retries, or no groups. -/
def RelayConfig.SingleAttempt (cfg : RelayConfig) : Prop :=
  cfg.retryTimes = 0 ∨ (cfg.tokenGroup = "auto" ∧ cfg.autoGroups = [])

theorem select_no_groups (hauto : cfg.tokenGroup = "auto") (hnone : cfg.autoGroups = [])
    (s : RelayState) : (cacheGetRandomSatisfiedChannel cfg w s).1 = none := by
  rw [cacheGetRandomSatisfiedChannel, if_pos hauto]
  split
  · rfl
  · rw [hnone, drop_nil]
    rfl

theorem relayStep_no_channel (h : (cacheGetRandomSatisfiedChannel cfg w s).1 = none) :
    relayStep cfg w s = .inr s.visited := by
  rw [relayStep]
  have hkept := visited_select cfg w s
  rcases hselect : cacheGetRandomSatisfiedChannel cfg w s with ⟨_ | g, s₁⟩
  · rw [hselect] at hkept
    dsimp only at hkept ⊢
    rw [hkept]
    split <;> rfl
  · rw [hselect] at h
    cases h

theorem relayStep_singleAttempt (h : cfg.SingleAttempt) (hs : s.Fresh cfg) :
    relayStep cfg w ({ s with visited := [g] }).increaseRetry = .inr [g] := by
  rcases h with hzero | ⟨hauto, hnone⟩
  · exact relayStep_no_retries hs hzero
  · rw [relayStep_no_channel (select_no_groups hauto hnone _), visited_increaseRetry]

theorem length_relayWithin_le_one (h : cfg.SingleAttempt) (w : RelayWorld) (fuel : Nat) :
    (relayWithin cfg w fuel).length ≤ 1 := by
  rw [relayWithin]
  cases hd : distribute cfg w with
  | none => exact Nat.zero_le 1
  | some first =>
    obtain ⟨g, s⟩ := first
    have hfresh := distribute_fresh hd
    dsimp only
    cases ha : relayAttempt cfg w g s with
    | inr visited =>
      dsimp only
      rw [relayAttempt_done ha, hfresh.visited, nil_append]
      exact le_rfl
    | inl s' =>
      obtain ⟨-, rfl⟩ := relayAttempt_continue ha
      dsimp only
      rw [hfresh.visited, nil_append]
      cases fuel with
      | zero =>
        rw [progress, visited_increaseRetry]
        exact le_rfl
      | succ fuel =>
        rw [progress, relayStep_singleAttempt h hfresh]
        exact le_rfl

variable (hav : ∀ n group r, w.available n group r = true) (hmore : ¬ cfg.SingleAttempt)

include hav hmore

theorem select_available (hidx : s.groupIndex = 0) :
    (cacheGetRandomSatisfiedChannel cfg w s).1 = some 0 := by
  rw [cacheGetRandomSatisfiedChannel]
  by_cases hauto : cfg.tokenGroup = "auto"
  · have hgroups : cfg.autoGroups ≠ [] := fun hnone => hmore (.inr ⟨hauto, hnone⟩)
    have hsetting : cfg.autoGroupSetting ≠ [] := by
      intro hnil
      rw [RelayConfig.autoGroups, hnil] at hgroups
      exact hgroups rfl
    obtain ⟨first, rest, hcons⟩ := exists_cons_of_ne_nil hgroups
    rw [if_pos hauto, if_neg hsetting, hcons, hidx]
    exact searchGroups_available hav _ _ _ _ _
  · rw [if_neg hauto, hav]
    rfl

theorem groupIndex_select_available :
    (cacheGetRandomSatisfiedChannel cfg w {}).2.groupIndex = 0 := by
  rw [cacheGetRandomSatisfiedChannel]
  by_cases hauto : cfg.tokenGroup = "auto"
  · rw [if_pos hauto]
    split
    · rfl
    · cases hgroups : cfg.autoGroups with
      | nil => rfl
      | cons first rest =>
        have hretries : ¬ 0 ≥ cfg.retryTimes := fun hle => hmore (.inl (Nat.le_zero.mp hle))
        simp [searchGroups, hav, hretries]
  · rw [if_neg hauto]

theorem distributeSelect_available :
    ∃ g s, distributeSelect cfg w = some (g, s) ∧ s.groupIndex = 0 := by
  have hfound := select_available (s := {}) hav hmore rfl
  have hidx := groupIndex_select_available hav hmore
  rw [distributeSelect]
  rcases hselect : cacheGetRandomSatisfiedChannel cfg w {} with ⟨_ | g, s₁⟩
  · rw [hselect] at hfound
    cases hfound
  · rw [hselect] at hidx
    exact ⟨_, _, rfl, hidx⟩

theorem distribute_available (hskip : cfg.skipRetryAfterAffinity = false) :
    ∃ g s, distribute cfg w = some (g, s) ∧ s.groupIndex = 0 := by
  rw [distribute]
  split
  · exact ⟨_, _, rfl, rfl⟩
  · split
    · exact distributeSelect_available hav hmore
    · split
      · rw [hskip]
        exact distributeSelect_available hav hmore
      · split
        · split
          · exact ⟨_, _, rfl, rfl⟩
          · exact distributeSelect_available hav hmore
        · split
          · exact ⟨_, _, rfl, rfl⟩
          · exact distributeSelect_available hav hmore

theorem two_attempts {err : RelayError} (hready : ∀ n, w.ready n = true)
    (hfails : w.outcome 0 = .failed err) (hretry : cfg.shouldRetry err cfg.retryTimes = true) :
    2 ≤ (relayWithin cfg w 1).length := by
  have hskip : cfg.skipRetryAfterAffinity = false := by
    by_contra hskip
    rw [RelayConfig.shouldRetry, if_pos (by simpa using hskip)] at hretry
    cases hretry
  obtain ⟨g, s, hd, hidx⟩ := distribute_available hav hmore hskip
  have hfresh := distribute_fresh hd
  have hfirst : relayAttempt cfg w g s = .inl { s with retry := 1, visited := [g] } := by
    simp only [relayAttempt, hfresh.visited, length_nil, hfails, hfresh.retry,
      Nat.cast_zero, sub_zero, hretry, if_true, RelayState.increaseRetry, hfresh.noReset,
      nil_append]
    rfl
  obtain ⟨s₁, hkept, hstep⟩ : ∃ s₁ : RelayState, s₁.visited = [g] ∧
      relayStep cfg w { s with retry := 1, visited := [g] } = relayAttempt cfg w (some 0) s₁ := by
    have hfound := select_available (s := { s with retry := 1, visited := [g] }) hav hmore hidx
    have hvisited := visited_select cfg w { s with retry := 1, visited := [g] }
    rw [relayStep, if_pos (Nat.one_le_iff_ne_zero.mpr fun hzero => hmore (.inl hzero))]
    rcases hselect : cacheGetRandomSatisfiedChannel cfg w _ with ⟨found, s₁⟩
    rw [hselect] at hfound hvisited
    obtain rfl : found = some 0 := hfound
    refine ⟨s₁, hvisited, ?_⟩
    dsimp only
    rw [if_pos (hready _)]
  rw [relayWithin, hd]
  dsimp only
  rw [hfirst]
  dsimp only
  rw [progress, hstep]
  cases ha : relayAttempt cfg w (some 0) s₁ with
  | inl s₂ =>
    dsimp only
    rw [progress, (relayAttempt_goes_on ha).2, hkept]
    exact le_rfl
  | inr visited =>
    dsimp only
    rw [relayAttempt_done ha, hkept]
    exact le_rfl

end Retried

/-- **The client gets the content of one attempt** in every run, iff the request is not tried twice
or every answer of its upstreams meets the condition. -/
theorem onlyLastWrote_iff (cfg : RelayConfig) (format : ClientFormat) (mask : String → String)
    (answers : Set ClaudeAttempt) :
    (∀ (attempts : Nat → ClaudeAttempt) (available : Nat → String → Nat → Bool)
        (ready : Nat → Bool) (fuel : Nat), (∀ n, attempts n ∈ answers) →
      OnlyLastWrote format attempts
        (relayWithin cfg (claudeWorld format mask available ready attempts) fuel).length) ↔
      cfg.SingleAttempt ∨ ∀ a ∈ answers, a.EndsRequest cfg mask := by
  constructor
  · intro h
    by_contra hnot
    simp only [not_or, not_forall] at hnot
    obtain ⟨hmore, a, ha, hends⟩ := hnot
    simp only [EndsRequest, not_forall, Bool.not_eq_false] at hends
    obtain ⟨err, hlate, hretry⟩ := hends
    obtain ⟨hfails, hcontent⟩ := (lateError_eq_some_iff format).mp hlate
    -- every attempt gives this answer, and there is always another channel
    have htwo := two_attempts
      (w := claudeWorld format mask (fun _ _ _ => true) (fun _ => true) (fun _ => a))
      (fun _ _ _ => rfl) hmore (fun _ => rfl) hfails hretry
    exact hcontent (h (fun _ => a) (fun _ _ _ => true) (fun _ => true) 1 (fun _ => ha) 0 1
      Nat.zero_lt_one htwo)
  · rintro (hsingle | hends) attempts available ready fuel hmem
    · intro i j hij hj
      have hle := length_relayWithin_le_one hsingle
        (claudeWorld format mask available ready attempts) fuel
      omega
    · exact onlyLastWrote_of_endsRequest (fun n => hends _ (hmem n)) (fun _ => rfl) fuel

/-! ### A stream that fails in the middle -/

def oneRetry : RelayConfig where
  retryTimes := 1
  tokenGroup := "default"
  autoGroupSetting := []
  usable := fun _ => true
  crossGroupRetry := false
  specificChannel := false
  skipRetryAfterAffinity := false
  preferred := none

def textDelta (text : String) : ClaudeResponse :=
  { type := .contentBlockDelta, delta := some { text := some text } }

def overloadedThenAnswers (n : Nat) : ClaudeAttempt where
  upstreamModelName := "claude"
  answer :=
    if n = 0 then
      .streamed [.ok (textDelta "Hello"),
        .ok { type := .other "error", error := some ⟨"overloaded_error", "Overloaded"⟩ }]
    else .streamed [.ok (textDelta "Hi"), .ok { type := .other "message_stop" }]

/-- **The client gets two answers**: `Hello` and `Hi`. -/
theorem two_answers_written :
    let world := claudeWorld .claude id (fun _ _ _ => true) (fun _ => true) overloadedThenAnswers
    relay oneRetry world 4 = some [some 0, some 0] ∧
      (overloadedThenAnswers 0).content .claude = [textDelta "Hello"] ∧
      (overloadedThenAnswers 1).content .claude = [textDelta "Hi"] ∧
      ¬ OnlyLastWrote .claude overloadedThenAnswers (relayWithin oneRetry world 4).length := by
  intro world
  have hrelay : relay oneRetry world 4 = some [some 0, some 0] := by
    decide +kernel
  refine ⟨hrelay, rfl, rfl, ?_⟩
  rw [relayWithin_of_relay hrelay]
  intro h
  exact absurd (h 0 1 Nat.zero_lt_one (by decide)) (cons_ne_nil _ _)

end NomoApi
