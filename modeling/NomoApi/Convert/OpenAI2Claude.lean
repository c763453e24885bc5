import NomoApi.Lib.Run
import NomoApi.Claude.Usage

/-! # From OpenAI chunks to Claude events

For a client of the Claude API, `StreamResponseOpenAI2Claude` (`service/convert.go`) turns every
OpenAI chunk into events of a Claude message. Between chunks it remembers `ClaudeConvertInfo`: the
type of the last delta, the current block and, for tool calls, the first block and the largest
offset from it. -/

namespace NomoApi

/-! ### Chunks and events -/

structure ToolCallFragment where
  index : Option Nat := none
  id : String := ""
  name : String := ""
  arguments : String := ""
  deriving DecidableEq

structure ChunkDelta where
  reasoning : String := ""
  content : String := ""
  toolCalls : List ToolCallFragment := []
  deriving DecidableEq

structure ChunkChoice where
  delta : ChunkDelta
  finishReason : Option String := none
  deriving DecidableEq

/-- **An OpenAI chunk** (`ChatCompletionsStreamResponse`). -/
structure StreamChunk where
  id : String := ""
  model : String := ""
  choices : List ChunkChoice
  usage : Option Usage := none
  deriving DecidableEq

inductive BlockKind where
  | text
  | thinking
  | toolUse
  deriving DecidableEq

inductive ContentBlock where
  | text
  | thinking
  | toolUse (id name : String)
  deriving DecidableEq

inductive BlockDelta where
  | textDelta (text : String)
  | thinkingDelta (thinking : String)
  | inputJsonDelta (partialJson : String)
  deriving DecidableEq

def ContentBlock.kind : ContentBlock → BlockKind
  | .text => .text
  | .thinking => .thinking
  | .toolUse _ _ => .toolUse

def BlockDelta.kind : BlockDelta → BlockKind
  | .textDelta _ => .text
  | .thinkingDelta _ => .thinking
  | .inputJsonDelta _ => .toolUse

inductive ClaudeEvent where
  | messageStart (id model : String) (inputTokens : Int)
  | contentBlockStart (index : Nat) (block : ContentBlock)
  | contentBlockDelta (index : Nat) (delta : BlockDelta)
  | contentBlockStop (index : Nat)
  | messageDelta (usage : ClaudeUsage) (stopReason : String)
  | messageStop
  deriving DecidableEq

/-! ### The state of the conversion -/

inductive LastMessageType where
  | none
  | text
  | tools
  | thinking
  deriving DecidableEq

structure ClaudeConvertInfo where
  lastMessagesType : LastMessageType := .none
  index : Nat := 0
  usage : Option Usage := none
  finishReason : String := ""
  done : Bool := false
  toolCallBaseIndex : Nat := 0
  toolCallMaxIndexOffset : Nat := 0
  deriving DecidableEq

abbrev Converted := List ClaudeEvent × ClaudeConvertInfo

def stopOpenBlocks (info : ClaudeConvertInfo) : List ClaudeEvent :=
  match info.lastMessagesType with
  | .none => []
  | .text => [.contentBlockStop info.index]
  | .thinking => [.contentBlockStop info.index]
  | .tools =>
    -- all blocks from the base on, also those that no fragment has started
    (List.range (info.toolCallMaxIndexOffset + 1)).map fun offset =>
      .contentBlockStop (info.toolCallBaseIndex + offset)

def stopOpenBlocksAndAdvance (info : ClaudeConvertInfo) : Converted :=
  match info.lastMessagesType with
  | .none => ([], info)
  | .tools =>
    (stopOpenBlocks info,
      { info with
        index := info.toolCallBaseIndex + info.toolCallMaxIndexOffset + 1
        toolCallBaseIndex := 0
        toolCallMaxIndexOffset := 0
        lastMessagesType := .none })
  | _ => (stopOpenBlocks info, { info with index := info.index + 1, lastMessagesType := .none })

def closingUsage (u : Usage) : ClaudeUsage where
  inputTokens := u.promptTokens
  outputTokens := u.completionTokens
  cacheCreationInputTokens := u.cachedCreationTokens
  cacheReadInputTokens := u.cachedTokens

/-- The end of a message: the open blocks, `message_delta` if a usage is known, `message_stop`. -/
def closeMessage (usage : Option Usage) (info : ClaudeConvertInfo) : List ClaudeEvent :=
  let oaiUsage := usage.orElse fun _ => info.usage
  stopOpenBlocks info ++
    (oaiUsage.map fun u =>
      ClaudeEvent.messageDelta (closingUsage u)
        (openAIFinishReasonToClaudeStopReason info.finishReason)).toList ++
    [.messageStop]

def ChunkChoice.finished (c : ChunkChoice) : Option String := c.finishReason.filter (· ≠ "")

/-! ### The first chunk -/

variable (toolCalls : List ToolCallFragment) (info : ClaudeConvertInfo)

/-- The tool call of the first chunk: its first fragment, in block zero. -/
def convertFirstToolCall : Converted :=
  match toolCalls with
  | [] => ([], info)
  | toolCall :: _ =>
    (.contentBlockStart 0 (.toolUse toolCall.id toolCall.name) ::
      (if toolCall.arguments = "" then []
        else [.contentBlockDelta 0 (.inputJsonDelta toolCall.arguments)]),
      { info with
        lastMessagesType := .tools, toolCallBaseIndex := 0, toolCallMaxIndexOffset := 0 })

def startWithDelta (block : ContentBlock) (delta : BlockDelta) (type : LastMessageType)
    (info : ClaudeConvertInfo) : Converted :=
  let out := if info.lastMessagesType ≠ type then stopOpenBlocksAndAdvance info else ([], info)
  (out.1 ++ [.contentBlockStart out.2.index block, .contentBlockDelta out.2.index delta],
    { out.2 with lastMessagesType := type })

def convertFirstContent (delta : ChunkDelta) (info : ClaudeConvertInfo) : Converted :=
  if delta.reasoning ≠ "" then
    startWithDelta .thinking (.thinkingDelta delta.reasoning) .thinking info
  else if delta.content ≠ "" then
    startWithDelta .text (.textDelta delta.content) .text info
  else ([], info)

def finishChunk (usage : Option Usage) (choice : ChunkChoice) (info : ClaudeConvertInfo) :
    Converted :=
  match choice.finished with
  | none => ([], info)
  | some reason =>
    let info := { info with finishReason := reason }
    (closeMessage usage info, { info with done := true })

/-- **The first chunk**; `inputTokens` is the estimate of the prompt. -/
def convertFirstChunk (inputTokens : Int) (chunk : StreamChunk) (info : ClaudeConvertInfo) :
    Converted :=
  let start := ClaudeEvent.messageStart chunk.id chunk.model inputTokens
  match chunk.choices with
  | [] => ([start], info)
  | choice :: _ =>
    let tool := convertFirstToolCall choice.delta.toolCalls info
    -- a chunk may carry content besides a tool call, whose block is then closed
    let content := convertFirstContent choice.delta tool.2
    let last := finishChunk chunk.usage choice content.2
    (start :: tool.1 ++ content.1 ++ last.1, last.2)

/-! ### The later chunks -/

def ToolCallFragment.offset (toolCall : ToolCallFragment) (i : Nat) : Nat := toolCall.index.getD i

def fragmentsOf : List (Nat × ToolCallFragment) :=
  toolCalls.zipIdx.map fun (toolCall, i) => (toolCall.offset i, toolCall)

def fragmentEvents (blockIndex : Nat) (toolCall : ToolCallFragment) : List ClaudeEvent :=
  (if toolCall.name = "" then []
    else [.contentBlockStart blockIndex (.toolUse toolCall.id toolCall.name)]) ++
  (if toolCall.arguments = "" then []
    else [.contentBlockDelta blockIndex (.inputJsonDelta toolCall.arguments)])

def convertToolCalls : Converted :=
  let out := if info.lastMessagesType ≠ .tools then stopOpenBlocksAndAdvance info else ([], info)
  let opened :=
    if info.lastMessagesType ≠ .tools then
      -- the offsets are not set back: they count the tool calls of the whole message
      { out.2 with toolCallBaseIndex := out.2.index, toolCallMaxIndexOffset := 0 }
    else out.2
  let base := opened.toolCallBaseIndex
  let fragments := fragmentsOf toolCalls
  let maxOffset := (fragments.map Prod.fst).foldl max opened.toolCallMaxIndexOffset
  (out.1 ++ fragments.flatMap fun (offset, toolCall) => fragmentEvents (base + offset) toolCall,
    { opened with
      lastMessagesType := .tools
      toolCallMaxIndexOffset := maxOffset
      index := base + maxOffset })

/-- A delta of a later chunk; a block is started when the last delta was of another type. -/
def continueWithDelta (block : ContentBlock) (delta : BlockDelta) (type : LastMessageType)
    (info : ClaudeConvertInfo) : Converted :=
  if info.lastMessagesType ≠ type then
    let out := stopOpenBlocksAndAdvance info
    (out.1 ++ [.contentBlockStart out.2.index block, .contentBlockDelta out.2.index delta],
      { out.2 with lastMessagesType := type })
  else ([.contentBlockDelta info.index delta], info)

def convertDelta (delta : ChunkDelta) (info : ClaudeConvertInfo) : Converted :=
  if delta.toolCalls ≠ [] then convertToolCalls delta.toolCalls info
  else if delta.reasoning ≠ "" then
    continueWithDelta .thinking (.thinkingDelta delta.reasoning) .thinking info
  else if delta.content ≠ "" then
    continueWithDelta .text (.textDelta delta.content) .text info
  else ([], info)

def convertLaterChunk (chunk : StreamChunk) (info : ClaudeConvertInfo) : Converted :=
  match chunk.choices with
  | [] => ([], info)
  | choice :: _ =>
    let out := convertDelta choice.delta info
    let last := finishChunk chunk.usage choice out.2
    (out.1 ++ last.1, last.2)

/-! ### The conversion of a stream -/

/-- A message that is done gets no more events. -/
def streamResponseOpenAI2Claude (sendResponseCount : Nat) (inputTokens : Int) (chunk : StreamChunk)
    (info : ClaudeConvertInfo) : Converted :=
  if info.done then ([], info)
  else if sendResponseCount = 1 then convertFirstChunk inputTokens chunk info
  else convertLaterChunk chunk info

structure ConvertStream where
  sendResponseCount : Nat := 0
  info : ClaudeConvertInfo := {}
  sent : List ClaudeEvent := []

/-- **`handleClaudeFormat`**, with the count of `HandleStreamFormat`. -/
def handleClaudeFormat (inputTokens : Int) (s : ConvertStream) (chunk : StreamChunk) :
    ConvertStream :=
  -- the last usage that came with a chunk is kept for the end of the message
  let info := { s.info with usage := chunk.usage.orElse fun _ => s.info.usage }
  let out := streamResponseOpenAI2Claude (s.sendResponseCount + 1) inputTokens chunk info
  ⟨s.sendResponseCount + 1, out.2, s.sent ++ out.1⟩

def claudeEvents (inputTokens : Int) (chunks : List StreamChunk) : List ClaudeEvent :=
  (run (handleClaudeFormat inputTokens) {} chunks).sent

end NomoApi
