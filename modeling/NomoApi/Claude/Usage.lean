import NomoApi.Lib.Text

/-! # Token usage

The usage records of the two APIs (`dto/openai_response.go`, `dto/claude.go`), and the reasons for
which a message ends. -/

namespace NomoApi

/-- **`dto.Usage`**: what a request is billed by. -/
structure Usage where
  promptTokens : Int := 0
  completionTokens : Int := 0
  totalTokens : Int := 0
  cachedTokens : Int := 0
  cachedCreationTokens : Int := 0
  claudeCacheCreation5mTokens : Int := 0
  claudeCacheCreation1hTokens : Int := 0
  deriving DecidableEq

structure ClaudeCacheCreationUsage where
  ephemeral5mInputTokens : Int
  ephemeral1hInputTokens : Int
  deriving DecidableEq

structure ClaudeUsage where
  inputTokens : Int := 0
  cacheCreationInputTokens : Int := 0
  cacheReadInputTokens : Int := 0
  outputTokens : Int := 0
  cacheCreation : Option ClaudeCacheCreationUsage := none
  /-- `ServerToolUse.WebSearchRequests`, if there is a `ServerToolUse`. -/
  webSearchRequests : Option Int := none
  deriving DecidableEq

def ClaudeUsage.getCacheCreation5mTokens (u : ClaudeUsage) : Int :=
  (u.cacheCreation.map (·.ephemeral5mInputTokens)).getD 0

def ClaudeUsage.getCacheCreation1hTokens (u : ClaudeUsage) : Int :=
  (u.cacheCreation.map (·.ephemeral1hInputTokens)).getD 0

def openAIFinishReasonToClaudeStopReason (finishReason : String) : String :=
  match toLower finishReason with
  | "stop" => "end_turn"
  | "stop_sequence" => "stop_sequence"
  | "length" => "max_tokens"
  | "max_tokens" => "max_tokens"
  | "content_filter" => "refusal"
  | "tool_calls" => "tool_use"
  | _ => finishReason

end NomoApi
