import NomoApi.Convert.ClaudeStreams

/-! # The end of a converted stream

`StreamResponseOpenAI2Claude` (`service/convert.go`) ends the Claude message at the first chunk with
a finish reason, and ignores what comes after it. -/

namespace NomoApi

open List ClaudeEvent ClaudeConvertInfo

variable {info : ClaudeConvertInfo} {c : StreamChunk} {cs : List StreamChunk}

/-! ### A message that goes on -/

def ClaudeEvent.closing : ClaudeEvent → Bool
  | .messageDelta _ _ => true
  | .messageStop => true
  | _ => false

/-- The message is not ended. -/
structure GoesOn (info : ClaudeConvertInfo) (out : Converted) : Prop where
  events : ∀ e ∈ out.1, e.closing = false
  done : out.2.done = info.done
  usage : out.2.usage = info.usage

theorem ClaudeEvent.closing_of_block {e : ClaudeEvent} (h : e.blockEvent.isSome) :
    e.closing = false := by
  cases e <;> first | rfl | cases h

theorem GoesOn.trans {out out' : Converted} (h : GoesOn info out) (h' : GoesOn out.2 out') :
    GoesOn info (out.1 ++ out'.1, out'.2) where
  events := fun e he => (List.mem_append.mp he).elim (h.events e) (h'.events e)
  done := h'.done.trans h.done
  usage := h'.usage.trans h.usage

theorem goesOn_firstDelta (d : ChunkDelta) (info : ClaudeConvertInfo) :
    GoesOn info (firstDelta d info) := by
  have hstart : ∀ info block delta type, GoesOn info (startWithDelta block delta type info) := by
    intro info block delta type
    refine ⟨fun e he => ?_, ?_, ?_⟩
    · rcases mem_append.mp he with he | he
      · split at he
        · rw [advance_events] at he
          exact closing_of_block (stopOpenBlocks_block he)
        · cases he
      · rcases mem_pair.mp he with rfl | rfl <;> rfl
    all_goals
      cases hlast : info.lastMessagesType <;> cases type <;>
        simp [startWithDelta, stopOpenBlocksAndAdvance, hlast]
  have htool : GoesOn info (convertFirstToolCall d.toolCalls info) := by
    cases d.toolCalls with
    | nil => exact ⟨by simp [convertFirstToolCall], rfl, rfl⟩
    | cons t ts =>
      refine ⟨?_, rfl, rfl⟩
      by_cases hargs : t.arguments = "" <;>
        simp [convertFirstToolCall, hargs, closing]
  refine htool.trans ?_
  unfold convertFirstContent
  split
  · exact hstart _ _ _ _
  · split
    · exact hstart _ _ _ _
    · exact ⟨by simp, rfl, rfl⟩

/-! ### The end of a message -/

/-- **`message_stop` comes at the end**, iff the chunks finish. -/
def Ended (cs : List StreamChunk) (es : List ClaudeEvent) : Prop :=
  ∃ body, (∀ e ∈ body, e ≠ .messageStop) ∧ es = body ++ if Finishes cs then [.messageStop] else []

theorem ended_cons {out : Converted} {cs : List StreamChunk} (hout : ∀ e ∈ out.1, e ≠ .messageStop)
    (h : Ended cs (laterEvents out.2 cs)) : Ended (c :: cs) (match c.finished with
      | none => out.1 ++ laterEvents out.2 cs
      | some reason => (finishDelta c.usage (some reason) out).1) := by
  cases hreason : c.finished with
  | none =>
    obtain ⟨body, hbody, heq⟩ := h
    refine ⟨out.1 ++ body, forall_mem_append.mpr ⟨hout, hbody⟩, ?_⟩
    simp only [heq, finishes_cons hreason, append_assoc]
  | some reason =>
    refine ⟨out.1 ++ closingEvents c.usage { out.2 with finishReason := reason },
      forall_mem_append.mpr ⟨hout, fun e he => (closingEvents_inner _ _ e he).2⟩, ?_⟩
    rw [if_pos (finishes_of_some hreason), append_assoc]
    rfl

theorem ended_laterEvents (hdone : info.done = false) (cs : List StreamChunk) :
    Ended cs (laterEvents info cs) := by
  induction cs generalizing info with
  | nil => exact ⟨[], by simp, rfl⟩
  | cons c cs ih =>
    rw [laterEvents_cons hdone]
    exact ended_cons (fun e he => (convertDelta_inner c _ e he).2)
      (ih ((convertDelta_keeps ..).1.trans hdone))

/-- **`message_start` first, `message_stop` last**, and this once and iff a chunk has a finish
reason: for all chunks, though the blocks between may break the grammar. -/
theorem claudeEvents_ended (inputTokens : Int) (c : StreamChunk) (cs : List StreamChunk) :
    ∃ es, claudeEvents inputTokens (c :: cs) = .messageStart c.id c.model inputTokens :: es ∧
      Ended (c :: cs) es := by
  have hfirst := goesOn_firstDelta c.delta (({} : ClaudeConvertInfo).arrive c)
  refine ⟨_, claudeEvents_cons .., ended_cons ?_ (ended_laterEvents hfirst.done cs)⟩
  rintro e he rfl
  cases hfirst.events _ he

end NomoApi
