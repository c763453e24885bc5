import NomoApi.Billing.Price
import NomoApi.Claude.Usage

/-! # Answers of a Claude upstream

A Claude upstream answers with a JSON body or a stream of events
(`relay/channel/claude/relay-claude.go`). Both handlers leave behind a `Usage` and the number of web
searches. -/

namespace NomoApi

open List

/-! ### Events -/

inductive ClaudeEventType
  | messageStart
  | contentBlockStart
  | contentBlockDelta
  | messageDelta
  /-- `content_block_stop`, `message_stop`, `ping` and all others. -/
  | other (name : String)
  deriving DecidableEq

structure ClaudeError where
  type : String
  message : String
  deriving DecidableEq

/-- `ClaudeMediaMessage`, as the message of a `message_start`. -/
structure ClaudeMediaMessage where
  model : String
  usage : Option ClaudeUsage
  deriving DecidableEq

structure ClaudeDelta where
  text : Option String := none
  thinking : Option String := none
  deriving DecidableEq

/-- **`dto.ClaudeResponse`**: an event of a stream, or a whole JSON body. -/
structure ClaudeResponse where
  type : ClaudeEventType
  message : Option ClaudeMediaMessage := none
  delta : Option ClaudeDelta := none
  usage : Option ClaudeUsage := none
  /-- `GetClaudeError`. -/
  error : Option ClaudeError := none
  deriving DecidableEq

abbrev UpstreamData := Except String ClaudeResponse

def ClaudeResponse.upstreamError (r : ClaudeResponse) : Option ClaudeError :=
  r.error.filter (·.type ≠ "")

/-! ### Errors -/

/-- **`types.NewAPIError`**, with what the relay reads of it. -/
structure NewAPIError where
  errorType : String
  errorCode : String
  statusCode : Int
  skipRetry : Bool := false
  message : String
  deriving DecidableEq

def badResponseBody (message : String) : NewAPIError where
  errorType := "new_api_error"
  errorCode := "bad_response_body"
  statusCode := 500
  message := message

def withClaudeError (err : ClaudeError) (statusCode : Int) : NewAPIError where
  errorType := "claude_error"
  errorCode := if err.type = "" then "upstream_error" else err.type
  statusCode := statusCode
  message := err.message

/-! ### The handling of a stream -/

/-- The format of the client's request. Claude channels serve these two. -/
inductive ClientFormat
  | claude
  | openAI
  deriving DecidableEq

structure ClaudeResponseInfo where
  responseText : String := ""
  usage : Usage := {}
  done : Bool := false
  deriving DecidableEq

structure ClaudeStream extends ClaudeResponseInfo where
  upstreamModelName : String
  claudeWebSearchRequests : Int := 0
  written : List ClaudeResponse := []
  deriving DecidableEq

def Usage.start (usage : Usage) (u : ClaudeUsage) : Usage :=
  { usage with
    promptTokens := u.inputTokens
    cachedTokens := u.cacheReadInputTokens
    cachedCreationTokens := u.cacheCreationInputTokens
    claudeCacheCreation5mTokens := u.getCacheCreation5mTokens
    claudeCacheCreation1hTokens := u.getCacheCreation1hTokens
    completionTokens := u.outputTokens }

def newerCount (new old : Int) : Int := if new > 0 then new else old

/-- The counts of a `message_delta`: the latest ones, not their sum. -/
def Usage.finish (usage : Usage) (u : ClaudeUsage) : Usage where
  promptTokens := newerCount u.inputTokens usage.promptTokens
  cachedTokens := newerCount u.cacheReadInputTokens usage.cachedTokens
  cachedCreationTokens := newerCount u.cacheCreationInputTokens usage.cachedCreationTokens
  claudeCacheCreation5mTokens :=
    newerCount u.getCacheCreation5mTokens usage.claudeCacheCreation5mTokens
  claudeCacheCreation1hTokens :=
    newerCount u.getCacheCreation1hTokens usage.claudeCacheCreation1hTokens
  completionTokens := newerCount u.outputTokens usage.completionTokens
  totalTokens :=
    newerCount u.inputTokens usage.promptTokens + newerCount u.outputTokens usage.completionTokens

/-- **What an event adds** (`FormatClaudeResponseInfo`), and whether it is sent to an OpenAI client.
-/
def formatClaudeResponseInfo (r : ClaudeResponse) (info : ClaudeResponseInfo) :
    ClaudeResponseInfo × Bool :=
  match r.type with
  | .messageStart =>
    match r.message.bind (·.usage) with
    | some u => ({ info with usage := info.usage.start u }, true)
    | none => (info, true)
  | .contentBlockDelta =>
    match r.delta with
    | some delta =>
      ({ info with
        responseText := info.responseText ++ delta.text.getD "" ++ delta.thinking.getD "" },
        true)
    | none => (info, true)
  | .messageDelta =>
    match r.usage with
    -- `server_tool_use` is not read here, unlike in the handler of a body
    | some u => ({ info with usage := info.usage.finish u, done := true }, true)
    | none => ({ info with done := true }, true)
  | .contentBlockStart => (info, true)
  | .other _ => (info, false)

def handleStreamResponseData (format : ClientFormat) (data : UpstreamData) (s : ClaudeStream) :
    Except NewAPIError ClaudeStream :=
  match data with
  | .error message => .error (badResponseBody message)
  | .ok r =>
    match r.upstreamError with
    -- what was written before stays written
    | some err => .error (withClaudeError err 500)
    | none =>
      let formatted := formatClaudeResponseInfo r s.toClaudeResponseInfo
      let gathered := { s with toClaudeResponseInfo := formatted.1 }
      match format with
      | .claude =>
        .ok { gathered with
          upstreamModelName :=
            if r.type = .messageStart then
              (r.message.map (·.model)).getD s.upstreamModelName
            else s.upstreamModelName
          written := s.written ++ [r] }
      | .openAI =>
        .ok (if formatted.2 then { gathered with written := s.written ++ [r] } else gathered)

/-- The loop of `ClaudeStreamHandler`, up to the end of the stream or the first error. -/
def scanStream (format : ClientFormat) :
    List UpstreamData → ClaudeStream → ClaudeStream × Option NewAPIError
  | [], s => (s, none)
  | data :: rest, s =>
    match handleStreamResponseData format data s with
    | .error err => (s, some err)
    | .ok s' => scanStream format rest s'

/-- `ResponseText2Usage`, with the estimate `EstimateTokenByModel`. -/
def responseText2Usage (estimateTokenByModel : String → String → Int)
    (responseText modelName : String) (promptTokens : Int) : Usage where
  promptTokens := promptTokens
  completionTokens := estimateTokenByModel modelName responseText
  totalTokens := promptTokens + estimateTokenByModel modelName responseText

/-- Without a final count, what was received is counted. -/
def handleStreamFinalResponse (estimateTokenByModel : String → String → Int) (s : ClaudeStream) :
    ClaudeStream :=
  if s.usage.completionTokens = 0 || !s.done then
    { s with
      -- a new usage: of the counts of `message_start` only the prompt is carried over
      usage := responseText2Usage estimateTokenByModel s.responseText s.upstreamModelName
        s.usage.promptTokens }
  else s

structure BillingInputs where
  usage : Usage
  claudeWebSearchRequests : Int
  deriving DecidableEq

def claudeStreamHandler (format : ClientFormat) (estimateTokenByModel : String → String → Int)
    (upstreamModelName : String) (datas : List UpstreamData) : Except NewAPIError BillingInputs :=
  match scanStream format datas { upstreamModelName := upstreamModelName } with
  | (_, some err) => .error err
  | (s, none) =>
    let final := handleStreamFinalResponse estimateTokenByModel s
    .ok ⟨final.usage, final.claudeWebSearchRequests⟩

/-! ### The handling of a body -/

def Usage.ofBody (u : ClaudeUsage) : Usage where
  promptTokens := u.inputTokens
  completionTokens := u.outputTokens
  totalTokens := u.inputTokens + u.outputTokens
  cachedTokens := u.cacheReadInputTokens
  cachedCreationTokens := u.cacheCreationInputTokens
  claudeCacheCreation5mTokens := u.getCacheCreation5mTokens
  claudeCacheCreation1hTokens := u.getCacheCreation1hTokens

def ClaudeUsage.webSearches (u : ClaudeUsage) : Int :=
  match u.webSearchRequests with
  | some n => if n > 0 then n else 0
  | none => 0

def claudeHandler (data : UpstreamData) : Except NewAPIError BillingInputs :=
  match data with
  | .error message => .error (badResponseBody message)
  | .ok r =>
    match r.upstreamError with
    | some err => .error (withClaudeError err 500)
    | none =>
      match r.usage with
      | some u => .ok ⟨.ofBody u, u.webSearches⟩
      | none => .ok ⟨{}, 0⟩

/-! ### A stream without errors -/

section Gathered

variable {rs : List ClaudeResponse} {info : ClaudeResponseInfo}

def gather (rs : List ClaudeResponse) (info : ClaudeResponseInfo) : ClaudeResponseInfo :=
  rs.foldl (fun info r => (formatClaudeResponseInfo r info).1) info

theorem gather_cons (r : ClaudeResponse) :
    gather (r :: rs) info = gather rs (formatClaudeResponseInfo r info).1 := rfl

theorem gather_append (rs' : List ClaudeResponse) :
    gather (rs ++ rs') info = gather rs' (gather rs info) :=
  foldl_append

theorem handleStreamResponseData_ok {r : ClaudeResponse} (h : r.upstreamError = none)
    (format : ClientFormat) (s : ClaudeStream) :
    ∃ s', handleStreamResponseData format (.ok r) s = .ok s' ∧
      s'.toClaudeResponseInfo = (formatClaudeResponseInfo r s.toClaudeResponseInfo).1 ∧
      s'.claudeWebSearchRequests = s.claudeWebSearchRequests := by
  simp only [handleStreamResponseData, h]
  cases format with
  | claude => exact ⟨_, rfl, rfl, rfl⟩
  | openAI =>
    by_cases hf : (formatClaudeResponseInfo r s.toClaudeResponseInfo).2 = true
    · exact ⟨_, rfl, by rw [if_pos hf], by rw [if_pos hf]⟩
    · exact ⟨_, rfl, by rw [if_neg hf], by rw [if_neg hf]⟩

theorem scanStream_ok (h : ∀ r ∈ rs, r.upstreamError = none) (format : ClientFormat)
    (s : ClaudeStream) : ∃ s', scanStream format (rs.map .ok) s = (s', none) ∧
      s'.toClaudeResponseInfo = gather rs s.toClaudeResponseInfo ∧
      s'.claudeWebSearchRequests = s.claudeWebSearchRequests := by
  induction rs generalizing s with
  | nil => exact ⟨s, rfl, rfl, rfl⟩
  | cons r rs ih =>
    obtain ⟨s₁, hs₁, hinfo, hweb⟩ :=
      handleStreamResponseData_ok (h r mem_cons_self) format s
    obtain ⟨s', hs', hinfo', hweb'⟩ := ih (fun r' hr' => h r' (mem_cons_of_mem r hr')) s₁
    refine ⟨s', ?_, ?_, hweb'.trans hweb⟩
    · rw [map_cons, scanStream, hs₁]
      exact hs'
    · rw [hinfo', hinfo, gather_cons]

structure ClaudeResponse.Plain (r : ClaudeResponse) : Prop where
  noError : r.upstreamError = none
  notStart : r.type ≠ .messageStart
  notDelta : r.type ≠ .messageDelta

theorem ClaudeResponse.Plain.format {r : ClaudeResponse} (h : r.Plain) (info : ClaudeResponseInfo) :
    (formatClaudeResponseInfo r info).1.usage = info.usage ∧
      (formatClaudeResponseInfo r info).1.done = info.done := by
  unfold formatClaudeResponseInfo
  cases htype : r.type with
  | messageStart => exact absurd htype h.notStart
  | messageDelta => exact absurd htype h.notDelta
  | contentBlockStart => exact ⟨rfl, rfl⟩
  | other name => exact ⟨rfl, rfl⟩
  | contentBlockDelta =>
    cases r.delta with
    | none => exact ⟨rfl, rfl⟩
    | some delta => exact ⟨rfl, rfl⟩

theorem gather_plain (h : ∀ r ∈ rs, r.Plain) (info : ClaudeResponseInfo) :
    (gather rs info).usage = info.usage ∧ (gather rs info).done = info.done := by
  induction rs generalizing info with
  | nil => exact ⟨rfl, rfl⟩
  | cons r rs ih =>
    obtain ⟨husage, hdone⟩ := (h r mem_cons_self).format info
    obtain ⟨husage', hdone'⟩ :=
      ih (fun r' hr' => h r' (mem_cons_of_mem r hr')) (formatClaudeResponseInfo r info).1
    rw [gather_cons]
    exact ⟨husage'.trans husage, hdone'.trans hdone⟩

end Gathered

/-! ### Counts of the input -/

structure InputCounts where
  prompt : Int
  cacheRead : Int
  cacheCreation : Int
  cacheCreation5m : Int
  cacheCreation1h : Int
  deriving DecidableEq

open InputCounts

def ClaudeUsage.inputCounts (u : ClaudeUsage) : InputCounts where
  prompt := u.inputTokens
  cacheRead := u.cacheReadInputTokens
  cacheCreation := u.cacheCreationInputTokens
  cacheCreation5m := u.getCacheCreation5mTokens
  cacheCreation1h := u.getCacheCreation1hTokens

def Usage.inputCounts (usage : Usage) : InputCounts where
  prompt := usage.promptTokens
  cacheRead := usage.cachedTokens
  cacheCreation := usage.cachedCreationTokens
  cacheCreation5m := usage.claudeCacheCreation5mTokens
  cacheCreation1h := usage.claudeCacheCreation1hTokens

/-- A `message_start` that reports a usage. -/
structure ClaudeResponse.Starts (r : ClaudeResponse) (u : ClaudeUsage) : Prop where
  noError : r.upstreamError = none
  isStart : r.type = .messageStart
  reports : r.message.bind (·.usage) = some u

theorem ClaudeResponse.Starts.format {r : ClaudeResponse} {u : ClaudeUsage} (h : r.Starts u)
    (info : ClaudeResponseInfo) :
    (formatClaudeResponseInfo r info).1 = { info with usage := info.usage.start u } := by
  unfold formatClaudeResponseInfo
  rw [h.isStart, h.reports]

/-- The counts of a `message_delta` are those of its input or are left out. -/
structure InputCounts.Repeats (d u : InputCounts) : Prop where
  prompt : d.prompt ≤ 0 ∨ d.prompt = u.prompt
  cacheRead : d.cacheRead ≤ 0 ∨ d.cacheRead = u.cacheRead
  cacheCreation : d.cacheCreation ≤ 0 ∨ d.cacheCreation = u.cacheCreation
  cacheCreation5m : d.cacheCreation5m ≤ 0 ∨ d.cacheCreation5m = u.cacheCreation5m
  cacheCreation1h : d.cacheCreation1h ≤ 0 ∨ d.cacheCreation1h = u.cacheCreation1h

theorem newerCount_of_repeats {new old count : Int} (h : new ≤ 0 ∨ new = count)
    (hold : old = count) : newerCount new old = count := by
  rw [newerCount, hold]
  by_cases hpos : new > 0
  · rw [if_pos hpos]
    omega
  · rw [if_neg hpos]

theorem finish_eq_ofBody {usage : Usage} {d u : ClaudeUsage}
    (hcounts : usage.inputCounts = u.inputCounts)
    (hrepeats : d.inputCounts.Repeats u.inputCounts) (hout : d.outputTokens = u.outputTokens)
    (hpos : 0 < u.outputTokens) : usage.finish d = .ofBody u := by
  have hprompt : newerCount d.inputTokens usage.promptTokens = u.inputTokens :=
    newerCount_of_repeats hrepeats.prompt (congrArg prompt hcounts)
  have hread : newerCount d.cacheReadInputTokens usage.cachedTokens = u.cacheReadInputTokens :=
    newerCount_of_repeats hrepeats.cacheRead (congrArg cacheRead hcounts)
  have hcreation : newerCount d.cacheCreationInputTokens usage.cachedCreationTokens =
      u.cacheCreationInputTokens :=
    newerCount_of_repeats hrepeats.cacheCreation (congrArg cacheCreation hcounts)
  have h5m : newerCount d.getCacheCreation5mTokens usage.claudeCacheCreation5mTokens =
      u.getCacheCreation5mTokens :=
    newerCount_of_repeats hrepeats.cacheCreation5m (congrArg cacheCreation5m hcounts)
  have h1h : newerCount d.getCacheCreation1hTokens usage.claudeCacheCreation1hTokens =
      u.getCacheCreation1hTokens :=
    newerCount_of_repeats hrepeats.cacheCreation1h (congrArg cacheCreation1h hcounts)
  rw [Usage.finish, Usage.ofBody, hprompt, hread, hcreation, h5m, h1h, hout, newerCount,
    if_pos hpos]

/-! ### Complete streams -/

/-- **A complete stream** of a message with the usage `u`. -/
structure CompleteStream (u : ClaudeUsage) where
  before : List ClaudeResponse := []
  start : ClaudeResponse
  startUsage : ClaudeUsage
  deltas : List ClaudeResponse
  delta : ClaudeResponse
  deltaUsage : ClaudeUsage
  after : List ClaudeResponse
  before_plain : ∀ r ∈ before, r.Plain
  starts : start.Starts startUsage
  start_counts : startUsage.inputCounts = u.inputCounts
  deltas_plain : ∀ r ∈ deltas, r.Plain
  delta_noError : delta.upstreamError = none
  delta_type : delta.type = .messageDelta
  delta_usage : delta.usage = some deltaUsage
  delta_counts : deltaUsage.inputCounts.Repeats u.inputCounts
  delta_output : deltaUsage.outputTokens = u.outputTokens
  delta_webSearch : deltaUsage.webSearchRequests = u.webSearchRequests
  after_plain : ∀ r ∈ after, r.Plain
  stops : ∃ r ∈ after, r.type = .other "message_stop"

namespace CompleteStream

variable {u : ClaudeUsage}

def events (c : CompleteStream u) : List ClaudeResponse :=
  c.before ++ c.start :: (c.deltas ++ c.delta :: c.after)

theorem events_noError (c : CompleteStream u) : ∀ r ∈ c.events, r.upstreamError = none := by
  intro r hr
  simp only [events, mem_append, mem_cons] at hr
  rcases hr with hr | rfl | hr | rfl | hr
  · exact (c.before_plain r hr).noError
  · exact c.starts.noError
  · exact (c.deltas_plain r hr).noError
  · exact c.delta_noError
  · exact (c.after_plain r hr).noError

theorem gather_events (c : CompleteStream u) (hpos : 0 < u.outputTokens)
    (info : ClaudeResponseInfo) :
    (gather c.events info).usage = .ofBody u ∧ (gather c.events info).done = true := by
  rw [events, gather_append, gather_cons, gather_append, gather_cons, c.starts.format]
  obtain ⟨husage, -⟩ := gather_plain c.deltas_plain { gather c.before info with
    usage := (gather c.before info).usage.start c.startUsage }
  rw [(gather_plain c.after_plain _).1, (gather_plain c.after_plain _).2]
  unfold formatClaudeResponseInfo
  rw [c.delta_type, c.delta_usage]
  refine ⟨?_, rfl⟩
  dsimp only
  rw [husage]
  exact finish_eq_ofBody c.start_counts c.delta_counts c.delta_output hpos

theorem claudeStreamHandler_events (c : CompleteStream u) (hpos : 0 < u.outputTokens)
    (format : ClientFormat) (estimateTokenByModel : String → String → Int)
    (upstreamModelName : String) :
    claudeStreamHandler format estimateTokenByModel upstreamModelName (c.events.map .ok) =
      .ok ⟨.ofBody u, 0⟩ := by
  obtain ⟨s, hs, hinfo, hweb⟩ := scanStream_ok c.events_noError format
    { upstreamModelName := upstreamModelName }
  obtain ⟨husage, hdone⟩ := c.gather_events hpos {}
  rw [← hinfo] at husage hdone
  -- there is a final count, so that nothing is estimated
  have hne : s.usage.completionTokens ≠ 0 := by
    rw [husage]
    exact hpos.ne'
  rw [claudeStreamHandler, hs]
  dsimp only
  rw [handleStreamFinalResponse, if_neg (by simp [hne, hdone]), husage, hweb]

end CompleteStream

theorem webSearches_eq_zero_iff (u : ClaudeUsage) :
    u.webSearches = 0 ↔ u.webSearchRequests.getD 0 ≤ 0 := by
  rw [ClaudeUsage.webSearches]
  cases u.webSearchRequests with
  | none => simp
  | some n =>
    dsimp only [Option.getD_some]
    split <;> omega

/-- **The two forms of a message are billed alike** iff it has no web search: the handler of a
stream never reports their number. -/
theorem claudeStreamHandler_eq_iff {u : ClaudeUsage} (c : CompleteStream u)
    (hpos : 0 < u.outputTokens) {body : ClaudeResponse} (husage : body.usage = some u)
    (hno : body.upstreamError = none) (format : ClientFormat)
    (estimateTokenByModel : String → String → Int) (upstreamModelName : String) :
    claudeStreamHandler format estimateTokenByModel upstreamModelName (c.events.map .ok) =
        claudeHandler (.ok body) ↔ u.webSearchRequests.getD 0 ≤ 0 := by
  rw [c.claudeStreamHandler_events hpos, claudeHandler, hno]
  dsimp only
  rw [husage, ← webSearches_eq_zero_iff, Except.ok.injEq, BillingInputs.mk.injEq]
  constructor
  · rintro ⟨-, h⟩
    exact h.symm
  · intro h
    exact ⟨rfl, h.symm⟩

def shortUsage : ClaudeUsage :=
  { inputTokens := 10, cacheReadInputTokens := 1000, outputTokens := 7 }

def shortStream (u : ClaudeUsage) : CompleteStream u where
  start := { type := .messageStart, message := some ⟨"claude", some u⟩ }
  startUsage := u
  deltas := [{ type := .contentBlockDelta, delta := some { text := some "hello" } }]
  delta := { type := .messageDelta, usage := some u }
  deltaUsage := u
  after := [{ type := .other "message_stop" }]
  before_plain := by simp
  starts := ⟨rfl, rfl, rfl⟩
  start_counts := rfl
  deltas_plain := by simpa using ⟨rfl, by decide, by decide⟩
  delta_noError := rfl
  delta_type := rfl
  delta_usage := rfl
  delta_counts := ⟨.inr rfl, .inr rfl, .inr rfl, .inr rfl, .inr rfl⟩
  delta_output := rfl
  delta_webSearch := rfl
  after_plain := by simpa using ⟨rfl, by decide, by decide⟩
  stops := ⟨_, List.mem_cons_self, rfl⟩

/-- A cached prompt and a short answer are billed alike in both forms. -/
theorem shortStream_billed_alike :
    claudeStreamHandler .claude (fun _ _ => 0) "claude" ((shortStream shortUsage).events.map .ok) =
      claudeHandler (.ok { type := .other "message", usage := some shortUsage }) :=
  (claudeStreamHandler_eq_iff (shortStream shortUsage) (by decide) rfl rfl .claude _ _).mpr
    (by decide)

/-- The same answer with three web searches: the stream leaves none in the context. -/
theorem web_searches_not_billed :
    let u : ClaudeUsage := { shortUsage with webSearchRequests := some 3 }
    claudeStreamHandler .claude (fun _ _ => 0) "claude" ((shortStream u).events.map .ok) =
        .ok ⟨.ofBody u, 0⟩ ∧
      claudeHandler (.ok { type := .other "message", usage := some u }) = .ok ⟨.ofBody u, 3⟩ := by
  exact ⟨rfl, rfl⟩

/-! ### Streams that break off -/

/-- **A stream cut off** after its `message_start` and before its `message_delta`. -/
structure CutStream (u : ClaudeUsage) where
  before : List ClaudeResponse := []
  start : ClaudeResponse
  deltas : List ClaudeResponse
  before_plain : ∀ r ∈ before, r.Plain
  starts : start.Starts u
  deltas_plain : ∀ r ∈ deltas, r.Plain

/-- The input's part of the price (`calculateTextQuotaSummary`), cached tokens apart. -/
def promptQuota (price : PriceData) (counts : InputCounts) : ℚ :=
  let cachedCreationTokensWithRatio :=
    if counts.cacheCreation ≠ 0 ∨ counts.cacheCreation5m > 0 ∨ counts.cacheCreation1h > 0 then
      (max 0 (counts.cacheCreation - counts.cacheCreation5m - counts.cacheCreation1h) : Int) *
          price.cacheCreationRatio +
        counts.cacheCreation5m * price.cacheCreation5mRatio +
        counts.cacheCreation1h * price.cacheCreation1hRatio
    else 0
  counts.prompt + counts.cacheRead * price.cacheRatio + cachedCreationTokensWithRatio

/-- **The input is kept**: the counts of `message_start`, and at no price a lower cost. -/
structure KeepsInput (u : ClaudeUsage) (usage : Usage) : Prop where
  counts : usage.inputCounts = u.inputCounts
  billed : ∀ price, promptQuota price u.inputCounts ≤ promptQuota price usage.inputCounts

theorem keepsInput_iff (u : ClaudeUsage) (usage : Usage) :
    KeepsInput u usage ↔ usage.inputCounts = u.inputCounts := by
  constructor
  · exact KeepsInput.counts
  · intro h
    exact ⟨h, fun price => by rw [h]⟩

def InputCounts.Uncached (counts : InputCounts) : Prop :=
  counts.cacheRead = 0 ∧ counts.cacheCreation = 0 ∧ counts.cacheCreation5m = 0 ∧
    counts.cacheCreation1h = 0
deriving Decidable

namespace CutStream

variable {u : ClaudeUsage}

def events (c : CutStream u) : List ClaudeResponse := c.before ++ c.start :: c.deltas

theorem events_noError (c : CutStream u) : ∀ r ∈ c.events, r.upstreamError = none := by
  intro r hr
  simp only [events, mem_append, mem_cons] at hr
  rcases hr with hr | rfl | hr
  · exact (c.before_plain r hr).noError
  · exact c.starts.noError
  · exact (c.deltas_plain r hr).noError

theorem gather_events (c : CutStream u) : (gather c.events {}).usage.inputCounts = u.inputCounts ∧
      (gather c.events {}).done = false := by
  obtain ⟨-, hdone⟩ := gather_plain c.before_plain {}
  obtain ⟨husage', hdone'⟩ := gather_plain c.deltas_plain { gather c.before {} with
    usage := (gather c.before {}).usage.start u }
  rw [events, gather_append, gather_cons, c.starts.format, husage', hdone']
  exact ⟨rfl, hdone⟩

theorem claudeStreamHandler_events (c : CutStream u) (format : ClientFormat)
    (estimateTokenByModel : String → String → Int) (upstreamModelName : String) :
    ∃ usage, claudeStreamHandler format estimateTokenByModel upstreamModelName
        (c.events.map .ok) = .ok ⟨usage, 0⟩ ∧ usage.inputCounts = ⟨u.inputTokens, 0, 0, 0, 0⟩ := by
  obtain ⟨s, hs, hinfo, hweb⟩ := scanStream_ok c.events_noError format
    { upstreamModelName := upstreamModelName }
  obtain ⟨hcounts, hdone⟩ := c.gather_events
  rw [← hinfo] at hcounts hdone
  have hprompt : s.usage.promptTokens = u.inputTokens := congrArg prompt hcounts
  refine ⟨responseText2Usage estimateTokenByModel s.responseText s.upstreamModelName
    u.inputTokens, ?_, rfl⟩
  rw [claudeStreamHandler, hs]
  dsimp only
  rw [handleStreamFinalResponse, if_pos (by simp [hdone]), hprompt, hweb]

end CutStream

/-- **A stream that breaks off keeps its input's counts** exactly if the cache was not used. -/
theorem claudeStreamHandler_cut_iff {u : ClaudeUsage} (c : CutStream u) (format : ClientFormat)
    (estimateTokenByModel : String → String → Int) (upstreamModelName : String) :
    (∃ billing, claudeStreamHandler format estimateTokenByModel upstreamModelName
        (c.events.map .ok) = .ok billing ∧ KeepsInput u billing.usage) ↔
      u.inputCounts.Uncached := by
  obtain ⟨usage, hok, hcounts⟩ :=
    c.claudeStreamHandler_events format estimateTokenByModel upstreamModelName
  have hkept : KeepsInput u usage ↔ u.inputCounts.Uncached := by
    rw [keepsInput_iff, hcounts]
    constructor
    · intro h
      rw [← h]
      exact ⟨rfl, rfl, rfl, rfl⟩
    · rintro ⟨hread, hcreation, h5m, h1h⟩
      change _ = (⟨u.inputTokens, u.inputCounts.cacheRead, u.inputCounts.cacheCreation,
        u.inputCounts.cacheCreation5m, u.inputCounts.cacheCreation1h⟩ : InputCounts)
      rw [hread, hcreation, h5m, h1h]
  rw [← hkept]
  constructor
  · rintro ⟨billing, hbilling, hkeeps⟩
    rw [hok] at hbilling
    cases hbilling
    exact hkeeps
  · intro hkeeps
    exact ⟨_, hok, hkeeps⟩

def brokenStream (u : ClaudeUsage) : CutStream u where
  start := { type := .messageStart, message := some ⟨"claude", some u⟩ }
  deltas := [{ type := .contentBlockDelta, delta := some { text := some "hello" } }]
  before_plain := by simp
  starts := ⟨rfl, rfl, rfl⟩
  deltas_plain := by simpa using ⟨rfl, by decide, by decide⟩

/-- A prompt with 1000 tokens from the cache: when the stream breaks off, they are not billed. -/
theorem cached_tokens_lost : claudeStreamHandler .claude (fun _ _ => 1) "claude"
        ((brokenStream shortUsage).events.map .ok) =
      .ok ⟨{ promptTokens := 10, completionTokens := 1, totalTokens := 11 }, 0⟩ ∧
      promptQuota { flatPrice 0 with cacheRatio := 1 / 10 }
          (Usage.inputCounts { promptTokens := 10, completionTokens := 1, totalTokens := 11 }) <
        promptQuota { flatPrice 0 with cacheRatio := 1 / 10 } shortUsage.inputCounts := by
  refine ⟨rfl, ?_⟩
  decide +kernel

end NomoApi
