import NomoApi.Convert.ClaudeEnd

/-! # The relay of an OpenAI stream

`OaiStreamHandler` (`relay/channel/openai/relay-openai.go`, `helper.go`). A chunk is handed on when
the next one has arrived; the last one is first searched for the usage. For an OpenAI client it is
then sent or left out, for a Claude client it is converted with that usage. -/

namespace NomoApi

open StreamChunk List ClaudeEvent

def Usage.valid (u : Usage) : Bool := u.promptTokens ≠ 0 ∨ u.completionTokens ≠ 0

/-- What the relay of a stream depends on. `ForceFormat`, which sends a chunk anew, is left out. -/
structure OaiRelay where
  shouldIncludeUsage : Bool := false
  thinkingToContent : Bool := false
  upstreamModelName : String := ""
  /-- `ResponseText2Usage`, with the tokens of the tool calls. -/
  estimate : List StreamChunk → Usage := fun _ => {}
  applyUsagePostProcessing : Usage → Usage := id

open OaiRelay

/-! ### Chunks that are handed on late -/

structure Delayed (σ : Type) where
  state : σ
  lastStreamData : Option StreamChunk := none

section Delay

variable {σ : Type} (handle : σ → StreamChunk → σ)

/-- **The data handler**: `handle` gets the chunk before this one. -/
def delay (d : Delayed σ) (data : StreamChunk) : Delayed σ :=
  ⟨d.lastStreamData.elim d.state (handle d.state), some data⟩

theorem run_delay_some (s : σ) (last : StreamChunk) (chunks : List StreamChunk) :
    run (delay handle) ⟨s, some last⟩ chunks =
      ⟨run handle s (last :: chunks).dropLast, (last :: chunks).getLast?⟩ := by
  induction chunks generalizing s last with
  | nil => rfl
  | cons c cs ih =>
    rw [run_cons, delay, Option.elim_some, ih, dropLast_cons_cons, run_cons, getLast?_cons_cons]

theorem run_delay (s : σ) (chunks : List StreamChunk) :
    run (delay handle) ⟨s, none⟩ chunks = ⟨run handle s chunks.dropLast, chunks.getLast?⟩ := by
  cases chunks with
  | nil => rfl
  | cons c cs => exact run_delay_some handle s c cs

end Delay

/-! ### The usage of the stream -/

variable (c : StreamChunk)

def StreamChunk.validUsage : Option Usage := c.usage.filter Usage.valid

variable (r : OaiRelay) (chunks : List StreamChunk)

/-- `containStreamUsage`: in the last chunk, or for an audio model in the one before. -/
def OaiRelay.streamUsage : Option Usage :=
  let isAudioModel := contains (toLower r.upstreamModelName) "audio"
  (chunks.getLast?.bind validUsage).or
    (if isAudioModel then chunks.dropLast.getLast?.bind validUsage else none)

def OaiRelay.finalUsage : Usage :=
  r.applyUsagePostProcessing ((r.streamUsage chunks).getD (r.estimate chunks))

/-! ### An OpenAI client -/

structure ThinkingContentInfo where
  isFirstThinkingContent : Bool := true
  sendLastThinkingContent : Bool := false
  hasSentThinkingContent : Bool := false

def StreamChunk.setContent (content : ChunkDelta → String) : StreamChunk :=
  { c with
    choices := c.choices.map fun choice =>
      { choice with
        delta := { choice.delta with content := content choice.delta, reasoning := "" } } }

def sendStreamData (thinkToContent : Bool) (info : ThinkingContentInfo) (data : StreamChunk) :
    List StreamChunk × ThinkingContentInfo :=
  if thinkToContent = false then ([data], info)
  else
    let thinkingContent := String.join (data.choices.map (·.delta.reasoning))
    let hasThinkingContent := data.choices.any (·.delta.reasoning ≠ "")
    let hasContent := data.choices.any (·.delta.content ≠ "")
    if info.isFirstThinkingContent && hasThinkingContent then
      -- the content of this chunk is overwritten
      ([data.setContent fun _ => "<think>\n" ++ thinkingContent],
        { info with isFirstThinkingContent := false, hasSentThinkingContent := true })
    else if data.choices = [] then ([data], info)
    else
      let ends := hasContent && !info.sendLastThinkingContent && info.hasSentThinkingContent
      ((if ends then [data.setContent fun _ => "\n</think>\n"] else []) ++
          [data.setContent fun d => if d.reasoning ≠ "" then d.reasoning else d.content],
        { info with sendLastThinkingContent := info.sendLastThinkingContent || ends })

structure OaiStream where
  info : ThinkingContentInfo := {}
  sent : List StreamChunk := []

def OaiRelay.handleStreamFormat (s : OaiStream) (data : StreamChunk) : OaiStream :=
  let out := sendStreamData r.thinkingToContent s.info data
  ⟨out.2, s.sent ++ out.1⟩

def StreamChunk.hasText : Bool :=
  c.choices.any fun choice => choice.delta.content ≠ "" ∨ choice.delta.reasoning ≠ ""

/-- `handleLastResponse`: whether the last chunk is sent. -/
def OaiRelay.shouldSendLastResp (last : StreamChunk) : Bool :=
  last.validUsage.isNone || r.shouldIncludeUsage || last.hasText

def OaiRelay.finalUsageResponse : StreamChunk where
  id := chunks.getLast?.elim "" (·.id)
  model := chunks.getLast?.elim r.upstreamModelName (·.model)
  choices := []
  usage := some (r.finalUsage chunks)

/-- **`OaiStreamHandler`** for an OpenAI client: the chunks before `[DONE]`. -/
def OaiRelay.oaiStreamHandler : List StreamChunk :=
  let d := run (delay r.handleStreamFormat) ⟨{}, none⟩ chunks
  let s := match d.lastStreamData with
    | none => d.state
    | some last => if r.shouldSendLastResp last then r.handleStreamFormat d.state last else d.state
  s.sent ++
    if r.shouldIncludeUsage && (r.streamUsage chunks).isNone then [r.finalUsageResponse chunks]
    else []

/-! ### What is forwarded -/

def StreamChunk.carries : Bool :=
  c.hasText || c.choices.any fun choice => choice.delta.toolCalls ≠ [] ∨ choice.finishReason.isSome

/-- **A last chunk that is lost**: it has the usage, which the client did not ask for, and tool
calls or a finish reason, but no text. -/
def OaiRelay.LosesLast : Prop :=
  ∃ last ∈ chunks.getLast?, last.validUsage.isSome ∧ r.shouldIncludeUsage = false ∧
    last.hasText = false ∧ last.carries = true

variable {r chunks}

theorem sent_run_handleStreamFormat (hthink : r.thinkingToContent = false) (s : OaiStream) :
    (run r.handleStreamFormat s chunks).sent = s.sent ++ chunks := by
  induction chunks generalizing s with
  | nil => simp
  | cons c cs ih =>
    rw [run_cons, ih]
    simp [handleStreamFormat, sendStreamData, hthink]

theorem filter_usageResponse (r : OaiRelay) (chunks : List StreamChunk) (b : Bool) :
    (if b then [r.finalUsageResponse chunks] else []).filter carries = [] := by
  cases b <;> rfl

theorem oaiStreamHandler_concat (r : OaiRelay) (chunks : List StreamChunk) (last : StreamChunk) :
    r.oaiStreamHandler (chunks ++ [last]) =
      (if r.shouldSendLastResp last then run r.handleStreamFormat {} (chunks ++ [last])
        else run r.handleStreamFormat {} chunks).sent ++
      if r.shouldIncludeUsage && (r.streamUsage (chunks ++ [last])).isNone then
        [r.finalUsageResponse (chunks ++ [last])] else [] := by
  have hrun := run_delay r.handleStreamFormat {} (chunks ++ [last])
  rw [dropLast_concat, getLast?_concat] at hrun
  have happend : run r.handleStreamFormat {} (chunks ++ [last]) =
      r.handleStreamFormat (run r.handleStreamFormat {} chunks) last := run_append ..
  rw [oaiStreamHandler, hrun, happend]

/-- **Every chunk that carries something is forwarded once and in order**, exactly if the last chunk
is not one that is lost. -/
theorem oaiStreamHandler_forwards_iff (r : OaiRelay) (hthink : r.thinkingToContent = false)
    (chunks : List StreamChunk) :
    (r.oaiStreamHandler chunks).filter carries = chunks.filter carries ↔ ¬ r.LosesLast chunks := by
  cases chunks using reverseRecOn with
  | nil =>
    have hnil : (r.oaiStreamHandler []).filter carries = [] :=
      filter_usageResponse r [] _
    simp [hnil, LosesLast]
  | append_singleton chunks last =>
    have hlose : r.LosesLast (chunks ++ [last]) ↔
        r.shouldSendLastResp last = false ∧ last.carries = true := by
      simp [LosesLast, shouldSendLastResp, Option.isSome_iff_ne_none, and_assoc]
    rw [oaiStreamHandler_concat, filter_append, filter_usageResponse, append_nil, hlose]
    cases hsend : r.shouldSendLastResp last with
    | true => simp [sent_run_handleStreamFormat hthink]
    | false => simp [sent_run_handleStreamFormat hthink, filter_cons]

def sampleUsage : Usage := { promptTokens := 9, completionTokens := 4 }

def toolStream : List StreamChunk :=
  [chunkOf { toolCalls := [{ index := some 0, id := "call_1", name := "f", arguments := "[" }] }
      none,
    { chunkOf { toolCalls := [{ index := some 0, arguments := "1]" }] } (some "tool_calls") with
      usage := some sampleUsage }]

theorem oaiStreamHandler_forwards_toolStream :
    let r : OaiRelay := { shouldIncludeUsage := true }
    r.thinkingToContent = false ∧ ¬ r.LosesLast toolStream ∧
      (r.oaiStreamHandler toolStream).filter carries =
        toolStream.filter carries := by
  intro r
  have hkeep : ¬ r.LosesLast toolStream := by
    rintro ⟨last, -, -, hinclude, -⟩
    cases hinclude
  exact ⟨rfl, hkeep, (oaiStreamHandler_forwards_iff r rfl toolStream).mpr hkeep⟩

theorem oaiStreamHandler_loses_toolStream :
    let r : OaiRelay := {}
    r.thinkingToContent = false ∧ toolStream.filter carries = toolStream ∧
      r.oaiStreamHandler toolStream = toolStream.take 1 := by
  decide +kernel

/-! ### Reasoning that is sent as content -/

def StreamChunk.content : String := String.join (c.choices.map (·.delta.content))

def StreamChunk.reasoning : String :=
  String.join (c.choices.map (·.delta.reasoning))

def contentOf (chunks : List StreamChunk) : String := String.join (chunks.map content)

def reasoningOf (chunks : List StreamChunk) : String :=
  String.join (chunks.map reasoning)

/-- **The content for a client**, from the reasoning and the content so far. -/
def tagged (reasoning content : String) : String :=
  (if reasoning = "" then "" else "<think>\n" ++ reasoning) ++
    if content = "" then "" else "\n</think>\n" ++ content

/-- **What has been sent** for this reasoning and this content. -/
structure OaiStream.Told (s : OaiStream) (reasoning content : String) : Prop where
  info : s.info = ⟨reasoning = "", content ≠ "", reasoning ≠ ""⟩
  sent : contentOf s.sent = tagged reasoning content

variable {c} {s : OaiStream} {reasoning content : String}

@[simp] theorem contentOf_nil : contentOf [] = "" := rfl

@[simp] theorem contentOf_cons (cs : List StreamChunk) :
    contentOf (c :: cs) = c.content ++ contentOf cs := String.join_cons

@[simp] theorem contentOf_append (cs ds : List StreamChunk) :
    contentOf (cs ++ ds) = contentOf cs ++ contentOf ds := by
  rw [contentOf, map_append, String.join_append, contentOf, contentOf]

theorem contentOf_handle_of_not_hasText (hthink : r.thinkingToContent = true)
    (hsingle : c.choices.length ≤ 1) (h : c.hasText = false) (s : OaiStream) :
    contentOf (r.handleStreamFormat s c).sent = contentOf s.sent := by
  unfold handleStreamFormat sendStreamData
  obtain ⟨id, model, choices, usage⟩ := c
  match choices, hsingle with
  | [], _ => simp [hthink, content]
  | [choice], _ => simp_all [hasText, content, setContent]

theorem OaiStream.Told.think (h : s.Told reasoning "") (hthink : r.thinkingToContent = true)
    (hsingle : c.choices.length ≤ 1) (hc : c.content = "") :
    (r.handleStreamFormat s c).Told (reasoning ++ c.reasoning) "" := by
  obtain ⟨hinfo, hsent⟩ := h
  unfold handleStreamFormat sendStreamData
  obtain ⟨id, model, choices, usage⟩ := c
  match choices, hsingle with
  | [], _ => constructor <;> simp [hthink, hinfo, hsent, content, StreamChunk.reasoning]
  | [choice], _ =>
    have hc : choice.delta.content = "" := by simpa [content] using hc
    by_cases hnew : choice.delta.reasoning = "" <;> by_cases hold : reasoning = "" <;>
      constructor <;>
      simp [hthink, hinfo, hsent, content, setContent,
        StreamChunk.reasoning, hnew, hc, hold, tagged, String.append_assoc]

theorem OaiStream.Told.text (h : s.Told reasoning content) (hthink : r.thinkingToContent = true)
    (hreason : reasoning ≠ "") (hsingle : c.choices.length ≤ 1) (hc : c.reasoning = "") :
    (r.handleStreamFormat s c).Told reasoning (content ++ c.content) := by
  obtain ⟨hinfo, hsent⟩ := h
  unfold handleStreamFormat sendStreamData
  obtain ⟨id, model, choices, usage⟩ := c
  match choices, hsingle with
  | [], _ => constructor <;> simp [hthink, hinfo, hsent, StreamChunk.content]
  | [choice], _ =>
    have hc : choice.delta.reasoning = "" := by simpa [StreamChunk.reasoning] using hc
    by_cases hnew : choice.delta.content = "" <;> by_cases hold : content = "" <;>
      constructor <;>
      simp [hthink, hinfo, hsent, StreamChunk.content, StreamChunk.setContent, hnew, hc, hold,
        hreason, tagged, String.append_assoc]

theorem OaiStream.Told.run_think (h : s.Told reasoning "") (hthink : r.thinkingToContent = true)
    (hchunks : ∀ c ∈ chunks, c.choices.length ≤ 1 ∧ c.content = "") :
    (run r.handleStreamFormat s chunks).Told (reasoning ++ reasoningOf chunks) "" := by
  induction chunks generalizing s reasoning with
  | nil => simpa [reasoningOf] using h
  | cons c cs ih =>
    obtain ⟨⟨hsingle, hc⟩, hcs⟩ := forall_mem_cons.mp hchunks
    have hrest := ih (h.think hthink hsingle hc) hcs
    rwa [String.append_assoc, reasoningOf, ← String.join_cons] at hrest

theorem OaiStream.Told.run_text (h : s.Told reasoning content) (hthink : r.thinkingToContent = true)
    (hreason : reasoning ≠ "") (hchunks : ∀ c ∈ chunks, c.choices.length ≤ 1 ∧ c.reasoning = "") :
    (run r.handleStreamFormat s chunks).Told reasoning (content ++ contentOf chunks) := by
  induction chunks generalizing s content with
  | nil => simpa using h
  | cons c cs ih =>
    obtain ⟨⟨hsingle, hc⟩, hcs⟩ := forall_mem_cons.mp hchunks
    have hrest := ih (h.text hthink hreason hsingle hc) hcs
    rwa [String.append_assoc, ← contentOf_cons] at hrest

/-- **A chunk with both** sends its reasoning in the place of its content. -/
theorem OaiStream.Told.both (h : s.Told reasoning "") (hthink : r.thinkingToContent = true)
    (hsingle : c.choices.length ≤ 1) (hreason : c.reasoning ≠ "") (hcontent : c.content ≠ "") :
    (r.handleStreamFormat s c).Told (if reasoning = "" then c.reasoning else reasoning)
      (if reasoning = "" then "" else c.reasoning) := by
  obtain ⟨hinfo, hsent⟩ := h
  unfold handleStreamFormat sendStreamData
  obtain ⟨id, model, choices, usage⟩ := c
  match choices, hsingle with
  | [], _ => exact absurd rfl hreason
  | [choice], _ =>
    have hr : choice.delta.reasoning ≠ "" := by simpa [StreamChunk.reasoning] using hreason
    have hc : choice.delta.content ≠ "" := by simpa [content] using hcontent
    by_cases hold : reasoning = "" <;> constructor <;>
      simp [hthink, hinfo, hsent, content, setContent, StreamChunk.reasoning, hr, hc, hold, tagged,
        String.append_assoc]

/-- **The last chunk makes no difference**: if it is left out, it has no text. -/
theorem contentOf_oaiStreamHandler (hthink : r.thinkingToContent = true)
    (hsingle : ∀ c ∈ chunks, c.choices.length ≤ 1) :
    contentOf (r.oaiStreamHandler chunks) =
      contentOf (run r.handleStreamFormat {} chunks).sent := by
  have husage : ∀ b : Bool, contentOf (if b then [r.finalUsageResponse chunks] else []) = "" := by
    intro b
    cases b <;> rfl
  cases chunks using reverseRecOn with
  | nil => exact husage _
  | append_singleton chunks last =>
    rw [oaiStreamHandler_concat, contentOf_append, husage, String.append_empty]
    cases hsend : r.shouldSendLastResp last with
    | true => rw [if_pos rfl]
    | false =>
      rw [if_neg Bool.false_ne_true, run_append]
      exact (contentOf_handle_of_not_hasText hthink (hsingle last (by simp))
        (Bool.or_eq_false_iff.mp hsend).2 _).symm

theorem length_tagged_le (reasoning content : String) :
    (tagged reasoning content).length ≤ 18 + reasoning.length + content.length := by
  have hopen : "<think>\n".length = 8 := rfl
  have hclose : "\n</think>\n".length = 10 := rfl
  unfold tagged
  split <;> split <;> simp only [String.length_append, hopen, hclose, String.length_empty] <;> omega

theorem tagged_eq_iff (hreason : reasoning ≠ "") :
    tagged reasoning content = "<think>\n" ++ reasoning ++ "\n</think>\n" ++ content ↔
      content ≠ "" := by
  rw [tagged, if_neg hreason]
  by_cases hc : content = ""
  · have hclose : "\n</think>\n".length = 10 := rfl
    refine iff_of_false (fun h => ?_) (not_not.mpr hc)
    have hlen := congrArg String.length h
    simp only [if_pos hc, String.length_append, hclose, String.length_empty] at hlen
    omega
  · simp [hc, String.append_assoc]

/-- **The tags around the reasoning**: a stream of reasoning and then content is sent with them iff
no chunk has both and there is some content. -/
theorem contentOf_oaiStreamHandler_iff (r : OaiRelay) (hthink : r.thinkingToContent = true)
    (thoughts texts : List StreamChunk) (both : Option StreamChunk)
    (hthoughts : ∀ c ∈ thoughts, c.choices.length ≤ 1 ∧ c.content = "")
    (hboth : ∀ c ∈ both, c.choices.length ≤ 1 ∧ c.reasoning ≠ "" ∧ c.content ≠ "")
    (htexts : ∀ c ∈ texts, c.choices.length ≤ 1 ∧ c.reasoning = "")
    (hreason : reasoningOf (thoughts ++ both.toList) ≠ "") :
    contentOf (r.oaiStreamHandler (thoughts ++ both.toList ++ texts)) =
        "<think>\n" ++ reasoningOf (thoughts ++ both.toList) ++ "\n</think>\n" ++
          contentOf (both.toList ++ texts) ↔
      both = none ∧ contentOf texts ≠ "" := by
  have hstart : OaiStream.Told {} "" "" := ⟨rfl, rfl⟩
  have hopen := hstart.run_think hthink hthoughts
  rw [String.empty_append] at hopen
  have hsingle : ∀ c ∈ thoughts ++ both.toList ++ texts, c.choices.length ≤ 1 := by
    simp only [forall_mem_append, Option.mem_toList]
    exact ⟨⟨fun c hc => (hthoughts c hc).1, fun c hc => (hboth c hc).1⟩,
      fun c hc => (htexts c hc).1⟩
  rw [contentOf_oaiStreamHandler hthink hsingle]
  cases both with
  | none =>
    simp only [Option.toList_none, append_nil, nil_append] at hreason ⊢
    have htold := hopen.run_text hthink hreason htexts
    rw [String.empty_append] at htold
    rw [run_append, htold.sent, tagged_eq_iff hreason, true_and]
  | some b =>
    obtain ⟨hone, hthinks, hspoken⟩ := hboth b rfl
    refine iff_of_false (fun h => ?_) (fun h => by cases h.1)
    -- the content of this chunk is missing from what is sent
    have hmixed := hopen.both hthink hone hthinks hspoken
    have hne : (if reasoningOf thoughts = "" then b.reasoning else reasoningOf thoughts) ≠ "" := by
      split
      · exact hthinks
      · assumption
    have htold := hmixed.run_text hthink hne htexts
    have hrun : run r.handleStreamFormat {} (thoughts ++ (some b).toList ++ texts) =
        run r.handleStreamFormat
          (r.handleStreamFormat (run r.handleStreamFormat {} thoughts) b) texts := by
      rw [run_append, run_append]
      rfl
    have hclose : "\n</think>\n".length = 10 := rfl
    have hopening : "<think>\n".length = 8 := rfl
    have hlost : 0 < b.content.length := by
      rw [Nat.pos_iff_ne_zero, ne_eq, String.length_eq_zero_iff]
      exact hspoken
    have hreasoning : reasoningOf (thoughts ++ (some b).toList) =
        reasoningOf thoughts ++ b.reasoning := by
      simp [reasoningOf]
    have hle := length_tagged_le
      (if reasoningOf thoughts = "" then b.reasoning else reasoningOf thoughts)
      ((if reasoningOf thoughts = "" then "" else b.reasoning) ++ contentOf texts)
    rw [hrun, htold.sent] at h
    have hlen := congrArg String.length h
    rw [hreasoning] at hlen
    simp only [Option.toList_some, contentOf_append, contentOf_cons, contentOf_nil,
      String.append_empty, String.length_append, hclose, hopening] at hlen hle
    split at hle <;> rename_i hempty <;> simp [hempty] at hlen hle <;> omega

theorem contentOf_oaiStreamHandler_sample :
    let r : OaiRelay := { thinkingToContent := true }
    contentOf (r.oaiStreamHandler
      ([chunkOf { reasoning := "hm" } none] ++ [chunkOf { content := "yes" } none])) =
        "<think>\nhm\n</think>\nyes" :=
  (contentOf_oaiStreamHandler_iff { thinkingToContent := true } rfl
    [chunkOf { reasoning := "hm" } none] [chunkOf { content := "yes" } none] none (by decide) nofun
    (by decide) (by decide)).mpr ⟨rfl, by decide⟩

/-- The tag is not closed before a tool call, and a chunk with both loses its content. -/
theorem contentOf_oaiStreamHandler_untagged :
    let r : OaiRelay := { thinkingToContent := true }
    contentOf (r.oaiStreamHandler
        [chunkOf { reasoning := "hm" } none, chunkOf {} (some "tool_calls")]) = "<think>\nhm" ∧
      contentOf (r.oaiStreamHandler
        [chunkOf { reasoning := "hm" } none, chunkOf { reasoning := "!", content := "yes" } none,
          chunkOf {} (some "stop")]) = "<think>\nhm\n</think>\n!" := by
  decide +kernel

/-! ### A Claude client -/

variable (r) (inputTokens : Int)

/-- **`OaiStreamHandler`** for a Claude client. `HandleFinalResponse` does not count the last chunk.
-/
def OaiRelay.oaiClaudeHandler (chunks : List StreamChunk) : List ClaudeEvent :=
  let d := run (delay (handleClaudeFormat inputTokens)) ⟨{}, none⟩ chunks
  match d.lastStreamData with
  | none => d.state.sent
  | some last =>
    d.state.sent ++
      (streamResponseOpenAI2Claude d.state.sendResponseCount inputTokens last
        { d.state.info with usage := some (r.finalUsage chunks) }).1

def OaiRelay.usageOf (chunks : List StreamChunk) : Usage :=
  (chunks.filterMap (·.usage)).getLast?.getD (r.finalUsage chunks)

/-- **The end of a message**: one `message_delta` with the reason and the usage, right before the
one `message_stop`. -/
def ClosesWith (es : List ClaudeEvent) (reason : String) (usage : Usage) : Prop :=
  ∃ body, (∀ e ∈ body, e.closing = false) ∧
    es = body ++ [.messageDelta (closingUsage usage) (openAIFinishReasonToClaudeStopReason reason),
      .messageStop]

theorem streamResponse_eq_finishDelta (n : Nat) (inputTokens : Int) (c : StreamChunk)
    (info : ClaudeConvertInfo) (hdone : info.done = false) : ∃ out, GoesOn info out ∧
      streamResponseOpenAI2Claude n inputTokens c info = finishDelta c.usage c.finished out := by
  rw [streamResponseOpenAI2Claude, if_neg (by simp [hdone])]
  split
  · have hfirst := goesOn_firstDelta c.delta info
    refine ⟨(.messageStart c.id c.model inputTokens :: (firstDelta c.delta info).1,
      (firstDelta c.delta info).2), ⟨?_, hfirst.done, hfirst.usage⟩, ?_⟩
    · exact forall_mem_cons.mpr ⟨rfl, hfirst.events⟩
    · rw [convertFirstChunk_eq]
      cases c.finished <;> rfl
  · obtain ⟨hdone, husage⟩ := convertDelta_keeps c.delta info
    refine ⟨_, ⟨fun e he => ?_, hdone, husage⟩, convertLaterChunk_eq c info⟩
    exact closing_of_block (convertDelta_block c info e he)

/-- **The message goes on**, with the last usage of the chunks so far. -/
structure ConvertStream.Open (s : ConvertStream) (chunks : List StreamChunk) : Prop where
  events : ∀ e ∈ s.sent, e.closing = false
  done : s.info.done = false
  usage : s.info.usage = (chunks.filterMap (·.usage)).getLast?

theorem getLast?_usage_concat (chunks : List StreamChunk) (c : StreamChunk) :
    ((chunks ++ [c]).filterMap (·.usage)).getLast? =
      c.usage.orElse fun _ => (chunks.filterMap (·.usage)).getLast? := by
  rw [filterMap_append]
  cases hu : c.usage with
  | none => simp [hu]
  | some u => simp [hu]

theorem run_handleClaudeFormat_open (hopen : ∀ c ∈ chunks, c.finished = none) :
    (run (handleClaudeFormat inputTokens) {} chunks).Open chunks := by
  induction chunks using reverseRecOn with
  | nil => exact ⟨by simp, rfl, rfl⟩
  | append_singleton chunks c ih =>
    rw [forall_mem_append] at hopen
    obtain ⟨hevents, hdone, husage⟩ := ih hopen.1
    rw [run_append]
    set s := run (handleClaudeFormat inputTokens) {} chunks
    obtain ⟨out, hout, heq⟩ := streamResponse_eq_finishDelta (s.sendResponseCount + 1) inputTokens c
      (s.info.arrive c) hdone
    rw [hopen.2 c (by simp)] at heq
    have hstep : run (handleClaudeFormat inputTokens) s [c] =
        ⟨s.sendResponseCount + 1, out.2, s.sent ++ out.1⟩ := by
      rw [run_cons, run_nil, handleClaudeFormat_eq, heq]
      rfl
    rw [hstep]
    refine ⟨forall_mem_append.mpr ⟨hevents, hout.events⟩, hout.done.trans hdone, ?_⟩
    rw [getLast?_usage_concat, ← husage]
    exact hout.usage

/-- What the end of a message adds, when this usage is known. -/
def messageEnd (usage : Option Usage) (reason : String) : List ClaudeEvent :=
  (usage.map fun u =>
    .messageDelta (closingUsage u) (openAIFinishReasonToClaudeStopReason reason)).toList ++
    [.messageStop]

/-- **The end is complete iff the usage that is sent is the given one.** -/
theorem closesWith_iff {es body : List ClaudeEvent} {sent : Option Usage} {reason : String}
    {usage : Usage} (hbody : ∀ e ∈ body, e.closing = false)
    (hes : es = body ++ messageEnd sent reason) :
    ClosesWith es reason usage ↔ sent.map closingUsage = some (closingUsage usage) := by
  have hnone : ∀ {l : List ClaudeEvent}, (∀ e ∈ l, e.closing = false) →
      l.filter closing = [] := by
    intro l hl
    exact filter_eq_nil_iff.mpr (by simpa using hl)
  constructor
  · rintro ⟨body', hbody', heq⟩
    have hfilter := congrArg (filter closing) (hes.symm.trans heq)
    rw [filter_append, filter_append, hnone hbody, hnone hbody', nil_append, nil_append] at hfilter
    cases sent with
    | none => cases hfilter
    | some u =>
      have hhead := congrArg head? hfilter
      simp only [messageEnd, Option.map_some, Option.toList_some, cons_append, nil_append] at hhead
      injection hhead with hhead
      injection hhead with hdelta
      exact congrArg some hdelta
  · intro h
    cases sent with
    | none => cases h
    | some u =>
      refine ⟨body, hbody, hes.trans ?_⟩
      rw [messageEnd, Option.map_some, Option.some.inj h]
      rfl

/-- **The chunk with the finish reason** closes the message with the usage that is known then. -/
theorem finish_events {s : ConvertStream} {last : StreamChunk} {reason : String} (n : Nat)
    (inputTokens : Int) (info : ClaudeConvertInfo) (hevents : ∀ e ∈ s.sent, e.closing = false)
    (hdone : info.done = false) (hlast : last.finished = some reason) :
    ∃ body, (∀ e ∈ body, e.closing = false) ∧
      s.sent ++ (streamResponseOpenAI2Claude n inputTokens last info).1 =
        body ++ messageEnd (last.usage.orElse fun _ => info.usage) reason ∧
      (streamResponseOpenAI2Claude n inputTokens last info).2.done = true := by
  obtain ⟨out, hout, heq⟩ := streamResponse_eq_finishDelta n inputTokens last info hdone
  rw [hlast] at heq
  refine ⟨s.sent ++ (out.1 ++ stopOpenBlocks { out.2 with finishReason := reason }), ?_, ?_, ?_⟩
  · simp only [forall_mem_append]
    exact ⟨hevents, hout.events,
      fun e he => closing_of_block (stopOpenBlocks_block he)⟩
  · simp only [heq, finishDelta, closeMessage, messageEnd, hout.usage, append_assoc]
  · rw [heq]
    rfl

/-- **The usage that is sent with the finish reason**: the last one so far, or, if the chunk with
the finish reason is the last one, its own or that of `HandleFinalResponse`. -/
def OaiRelay.sentUsage (chunks : List StreamChunk) (finish : StreamChunk) :
    Option StreamChunk → Option Usage
  | none => finish.usage.orElse fun _ => some (r.finalUsage (chunks ++ [finish]))
  | some _ => ((chunks ++ [finish]).filterMap (·.usage)).getLast?

/-- **How a message ends**, whether or not a chunk follows the one with the finish reason: with the
final usage of the stream iff that is what is sent with the finish reason. -/
theorem oaiClaudeHandler_closesWith_iff (r : OaiRelay) (inputTokens : Int)
    (chunks : List StreamChunk) (finish : StreamChunk) (tail : Option StreamChunk) (reason : String)
    (hopen : ∀ c ∈ chunks, c.finished = none) (hfinish : finish.finished = some reason) :
    ClosesWith (r.oaiClaudeHandler inputTokens (chunks ++ [finish] ++ tail.toList)) reason
        (r.usageOf (chunks ++ [finish] ++ tail.toList)) ↔
      (r.sentUsage chunks finish tail).map closingUsage =
        some (closingUsage (r.usageOf (chunks ++ [finish] ++ tail.toList))) := by
  obtain ⟨hevents, hdone, husage⟩ := run_handleClaudeFormat_open inputTokens hopen
  cases tail with
  | none =>
    rw [Option.toList_none, append_nil]
    have hrun := run_delay (handleClaudeFormat inputTokens) {} (chunks ++ [finish])
    rw [dropLast_concat, getLast?_concat] at hrun
    set s := run (handleClaudeFormat inputTokens) {} chunks
    obtain ⟨body, hbody, heq, -⟩ := finish_events s.sendResponseCount inputTokens
      { s.info with usage := some (r.finalUsage (chunks ++ [finish])) } hevents hdone hfinish
    refine closesWith_iff hbody ?_
    rw [oaiClaudeHandler, hrun]
    exact heq
  | some last =>
    rw [Option.toList_some]
    have hrun := run_delay (handleClaudeFormat inputTokens) {} (chunks ++ [finish] ++ [last])
    have hstep : run (handleClaudeFormat inputTokens) {} (chunks ++ [finish]) =
        handleClaudeFormat inputTokens (run (handleClaudeFormat inputTokens) {} chunks) finish :=
      run_append ..
    rw [dropLast_concat, getLast?_concat, hstep] at hrun
    set s := run (handleClaudeFormat inputTokens) {} chunks
    obtain ⟨body, hbody, heq, hclosed⟩ := finish_events (s.sendResponseCount + 1) inputTokens
      (s.info.arrive finish) hevents hdone hfinish
    -- nothing is converted once the message is closed
    have hlast : ∀ n, (streamResponseOpenAI2Claude n inputTokens last
        { (handleClaudeFormat inputTokens s finish).info with
          usage := some (r.finalUsage (chunks ++ [finish] ++ [last])) }).1 = [] := by
      intro n
      rw [streamResponseOpenAI2Claude]
      exact congrArg Prod.fst (if_pos hclosed)
    have hsent : r.sentUsage chunks finish (some last) =
        finish.usage.orElse fun _ => (s.info.arrive finish).usage := by
      rw [sentUsage, getLast?_usage_concat, ← husage]
      cases hu : finish.usage <;> simp [ClaudeConvertInfo.arrive, hu]
    refine closesWith_iff hbody ?_
    rw [oaiClaudeHandler, hrun, hsent, ← heq]
    simp only [hlast, append_nil]
    rfl

theorem oaiClaudeHandler_closesWith_sample : ClosesWith (({} : OaiRelay).oaiClaudeHandler 12
      ([chunkOf { content := "Hi" } none] ++
        [{ chunkOf {} (some "stop") with usage := some sampleUsage }] ++
        [{ choices := [], usage := some sampleUsage }])) "stop" sampleUsage :=
  (oaiClaudeHandler_closesWith_iff {} 12 [chunkOf { content := "Hi" } none]
    { chunkOf {} (some "stop") with usage := some sampleUsage }
    (some { choices := [], usage := some sampleUsage }) "stop" (by decide) (by decide)).mpr rfl

/-- **No `message_delta`** when the usage comes in a chunk after the finish reason. -/
theorem oaiClaudeHandler_without_delta :
    let chunks := [chunkOf { content := "Hi" } none, chunkOf {} (some "stop"),
      { choices := [], usage := some sampleUsage }]
    let es := ({} : OaiRelay).oaiClaudeHandler 12 chunks
    es.filter ClaudeEvent.closing = [.messageStop] ∧
      ¬ ClosesWith es "stop" (({} : OaiRelay).usageOf chunks) := by
  intro chunks es
  have hfilter : es.filter closing = [.messageStop] := by decide +kernel
  refine ⟨hfilter, fun ⟨body, hbody, heq⟩ => ?_⟩
  rw [heq, filter_append, filter_eq_nil_iff.mpr (by simpa using hbody)] at hfilter
  cases hfilter

end NomoApi
