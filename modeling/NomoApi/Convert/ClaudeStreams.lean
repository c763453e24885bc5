import NomoApi.Convert.ClaudeGrammar

/-! # The messages of whole streams

Which streams of OpenAI chunks are converted to a message of Claude's grammar. The chunks after the
first one (`laterEvents`) start in a state which fits the open blocks, and the proofs go by
induction over them. -/

namespace NomoApi

open List StreamChunk Option ClaudeConvertInfo ClaudeEvent

/-! ### What is left of a stream -/

/-- **The rest of a stream continues**: its tool calls come in one piece with those before, none
hidden. -/
def Ready (info : ClaudeConvertInfo) (n : Nat) (cs : List StreamChunk) : Prop :=
  if info.lastMessagesType = .tools then
    (info.toolCallMaxIndexOffset + 1 = n ∨ OnlyFirstTool cs) ∧
      ¬ [ChunkKind.content, .tools].Sublist (cs.map kind)
  else if n = 0 then ¬ [ChunkKind.tools, .content, .tools].Sublist (cs.map kind)
  else .tools ∉ cs.map kind

variable {cs : List StreamChunk}

theorem onlyFirstTool_of_notMem (h : .tools ∉ cs.map kind) : OnlyFirstTool cs := by
  intro c hc f hf
  rcases convertDelta_cases c {} with ⟨hkind, -⟩ | ⟨-, hfrag, -⟩ | ⟨-, hfrag, -⟩
  · exact absurd (hkind ▸ mem_map_of_mem hc) h
  · rw [hfrag] at hf
    cases hf
  · rw [hfrag] at hf
    cases hf

variable {c : StreamChunk}

theorem onlyFirstTool_cons :
    OnlyFirstTool (c :: cs) ↔ (∀ f ∈ c.fragments, f.1 = 0) ∧ OnlyFirstTool cs :=
  forall_mem_cons

theorem sublist_cons_iff_of_ne {α : Type} {a b : α} {l m : List α} (h : a ≠ b) :
    (a :: l).Sublist (b :: m) ↔ (a :: l).Sublist m := by
  rw [cons_sublist_cons', or_iff_left fun hab => h hab.1]

section Ready

variable {info : ClaudeConvertInfo} {b : Blocks.State BlockKind} {n : Nat} {c : StreamChunk}

theorem continues_of_kind (h : c.kind ≠ .tools) : Continues info n c :=
  fun htools => absurd htools h

theorem ready_cons_tools (h : Fits info b n) (hkind : c.kind = .tools)
    (horder : ToolsInOrder n c.fragments) (cs : List StreamChunk) :
    Ready info n (c :: cs) ↔ Continues info n c ∧
      Ready (convertToolCalls c.delta.toolCalls info).2 (n + namedCount c.fragments) cs := by
  obtain ⟨htype', -, hmax'⟩ := convertToolCalls_state c.delta.toolCalls info
  rw [Ready, Ready, if_pos htype', map_cons, hkind]
  by_cases htype : info.lastMessagesType = .tools
  · have hstart : startOffset info = info.toolCallMaxIndexOffset := if_pos htype
    rw [if_pos htype, Continues, hkind, if_pos htype, hmax', hstart, onlyFirstTool_cons,
      sublist_cons_iff_of_ne (by simp)]
    obtain ⟨hpos, hone⟩ := h.tools htype
    by_cases hall : info.toolCallMaxIndexOffset + 1 = n
    · have hcount := foldl_max_of_inOrder horder (.inl hall)
      simp only [hall, true_or, true_and, forall_const, fragments] at hcount ⊢
      simp [hcount]
    · have hzero : info.toolCallMaxIndexOffset = 0 := hone.resolve_left hall
      by_cases hfirst : ∀ f ∈ c.fragments, f.1 = 0
      -- the first chunk has hidden tool calls, and this one goes on with the first
      · have hmax : ((fragmentsOf c.delta.toolCalls).map Prod.fst).foldl max
            info.toolCallMaxIndexOffset = info.toolCallMaxIndexOffset := foldl_max_of_zero hfirst
        have hnamed := (horder.of_zero hpos hfirst).2
        rw [hmax, hnamed, Nat.add_zero]
        tauto
      · tauto
  · have hstart : startOffset info = 0 := if_neg htype
    rw [if_neg htype, Continues, hkind, if_neg htype, hmax', hstart]
    by_cases hn : n = 0
    · subst hn
      have hcount := foldl_max_of_inOrder (m := 0) horder (.inr ⟨rfl, rfl, fragments_ne_nil hkind⟩)
      simp only [fragments] at hcount ⊢
      simp only [if_true, hcount, true_or, true_and, forall_const, cons_sublist_cons]
    · rw [if_neg hn]
      simp [hn]

theorem ready_cons_content (h : Fits info b n) (hkind : c.kind = .content)
    (hfrag : c.fragments = []) {info' : ClaudeConvertInfo}
    (hne : info'.lastMessagesType ≠ .tools) (cs : List StreamChunk) :
    Ready info n (c :: cs) ↔ Ready info' n cs := by
  rw [Ready, Ready, if_neg hne, map_cons, hkind]
  by_cases htools : info.lastMessagesType = .tools
  · obtain ⟨hpos, -⟩ := h.tools htools
    rw [if_pos htools, if_neg (by omega), cons_sublist_cons, singleton_sublist]
    -- after this chunk tool calls must not come at all, so that none is hidden
    refine ⟨fun hr => hr.2, fun hr => ⟨.inr ?_, hr⟩⟩
    refine onlyFirstTool_cons.mpr ⟨?_, onlyFirstTool_of_notMem hr⟩
    rw [hfrag]
    simp
  · rw [if_neg htools]
    by_cases hn : n = 0
    · rw [if_pos hn, if_pos hn, sublist_cons_iff_of_ne (by simp)]
    · rw [if_neg hn, if_neg hn]
      simp

theorem ready_cons (h : Fits info b n) (horder : ToolsInOrder n c.fragments)
    (cs : List StreamChunk) : Ready info n (c :: cs) ↔ Continues info n c ∧
      Ready (convertDelta c.delta info).2 (n + namedCount c.fragments) cs := by
  have hcount : n + namedCount [] = n := rfl
  rcases convertDelta_cases c info with
    ⟨hkind, heq⟩ | ⟨hkind, hfrag, block, delta, type, htype, -, heq⟩ | ⟨hkind, hfrag, heq⟩
  · rw [heq]
    exact ready_cons_tools h hkind horder cs
  · have hcont : Continues info n c := continues_of_kind (by rw [hkind]; decide)
    have hne : (continueWithDelta block delta type info).2.lastMessagesType ≠ .tools := by
      rw [(continueWithDelta_state block delta type info).1]
      exact htype.ne_tools
    rw [heq, and_iff_right hcont, ready_cons_content h hkind hfrag hne cs, hfrag, hcount]
  · have hcont : Continues info n c := continues_of_kind (by rw [hkind]; decide)
    rw [heq, hfrag, hcount, and_iff_right hcont, Ready, Ready, map_cons, hkind,
      onlyFirstTool_cons, hfrag, sublist_cons_iff_of_ne (by simp), sublist_cons_iff_of_ne (by simp)]
    simp

end Ready

/-! ### The rest of a stream -/

def Completes (b : Blocks.State BlockKind) (es : List ClaudeEvent) : Prop :=
  ∃ g, grammarRun (.within b) es = some g ∧ g.begun = true ∧ g.blocks.Closed

variable {e : ClaudeEvent}

theorem ClaudeEvent.inner_of_blockEvent (h : e.blockEvent.isSome) : e.Inner := by
  constructor
  · rintro id model n rfl
    cases h
  · rintro rfl
    cases h

variable {b b' : Blocks.State BlockKind} {es : List ClaudeEvent}

theorem completes_append {fs : List ClaudeEvent} (hinner : ∀ e ∈ es, e.Inner)
    (hrun : Blocks.run b (blockEvents es) = some b') :
    Completes b (es ++ fs) ↔ Completes b' fs := by
  simp [Completes, grammarRun_append, grammarRun_inner hinner, hrun]

theorem not_completes_append {fs : List ClaudeEvent} (hinner : ∀ e ∈ es, e.Inner)
    (h : ∀ b', Blocks.run b (blockEvents es) = some b' → ¬ Completes b' fs) :
    ¬ Completes b (es ++ fs) := by
  cases hrun : Blocks.run b (blockEvents es) with
  | none =>
    rintro ⟨g, hg, -⟩
    rw [grammarRun_append, grammarRun_inner hinner, hrun] at hg
    cases hg
  | some b' =>
    rw [completes_append hinner hrun]
    exact h b' hrun

variable {info : ClaudeConvertInfo}

theorem stopOpenBlocks_block (h : e ∈ stopOpenBlocks info) : e.blockEvent.isSome := by
  unfold stopOpenBlocks at h
  cases htype : info.lastMessagesType <;> simp only [htype] at h
  case none => cases h
  case tools =>
    obtain ⟨offset, -, rfl⟩ := mem_map.mp h
    rfl
  all_goals
    rw [mem_singleton.mp h]
    rfl

variable {base : Nat} {fs : List (Nat × ToolCallFragment)}

theorem fragmentsEvents_block (h : e ∈ fragmentsEvents base fs) : e.blockEvent.isSome := by
  obtain ⟨⟨offset, t⟩, -, he⟩ := mem_flatMap.mp h
  rcases mem_append.mp he with he | he
  · split at he
    · cases he
    · rw [mem_singleton.mp he]
      rfl
  · split at he
    · cases he
    · rw [mem_singleton.mp he]
      rfl

theorem continueWithDelta_block {block : ContentBlock} {delta : BlockDelta} {type : LastMessageType}
    (h : e ∈ (continueWithDelta block delta type info).1) : e.blockEvent.isSome := by
  unfold continueWithDelta at h
  split at h
  · rcases mem_append.mp h with h | h
    · rw [advance_events] at h
      exact stopOpenBlocks_block h
    · rcases mem_pair.mp h with rfl | rfl <;> rfl
  · rw [mem_singleton.mp h]
    rfl

theorem convertDelta_block (c : StreamChunk) (info : ClaudeConvertInfo) :
    ∀ e ∈ (convertDelta c.delta info).1, e.blockEvent.isSome := by
  intro e he
  rcases convertDelta_cases c info with
    ⟨-, heq⟩ | ⟨-, -, block, delta, type, -, -, heq⟩ | ⟨-, -, heq⟩
  · rw [heq] at he
    by_cases htype : info.lastMessagesType = .tools
    · rw [(convertToolCalls_of_tools _ htype).1] at he
      exact fragmentsEvents_block he
    · rw [(convertToolCalls_of_ne _ htype).1] at he
      rcases mem_append.mp he with he | he
      · exact stopOpenBlocks_block he
      · exact fragmentsEvents_block he
  · rw [heq] at he
    exact continueWithDelta_block he
  · rw [heq] at he
    cases he

theorem convertDelta_keeps (d : ChunkDelta) (info : ClaudeConvertInfo) :
    (convertDelta d info).2.done = info.done ∧ (convertDelta d info).2.usage = info.usage := by
  cases hlast : info.lastMessagesType <;>
    simp [convertDelta, convertToolCalls, continueWithDelta, stopOpenBlocksAndAdvance, hlast]
  all_goals repeat' split
  all_goals exact ⟨rfl, rfl⟩

theorem convertDelta_inner (c : StreamChunk) (info : ClaudeConvertInfo) :
    ∀ e ∈ (convertDelta c.delta info).1, e.Inner := fun e he =>
  ClaudeEvent.inner_of_blockEvent (convertDelta_block c info e he)

def closingEvents (usage : Option Usage) (info : ClaudeConvertInfo) : List ClaudeEvent :=
  stopOpenBlocks info ++
    ((usage.orElse fun _ => info.usage).map fun u =>
      ClaudeEvent.messageDelta (closingUsage u)
        (openAIFinishReasonToClaudeStopReason info.finishReason)).toList

theorem closingEvents_inner (usage : Option Usage) (info : ClaudeConvertInfo) :
    ∀ e ∈ closingEvents usage info, e.Inner := by
  intro e he
  rcases mem_append.mp he with he | he
  · exact inner_of_blockEvent (stopOpenBlocks_block he)
  · obtain ⟨u, -, rfl⟩ := map_eq_some_iff.mp (mem_toList.mp he)
    exact ⟨by simp, by simp⟩

theorem blockEvents_closingEvents (usage : Option Usage) (info : ClaudeConvertInfo) :
    blockEvents (closingEvents usage info) = blockEvents (stopOpenBlocks info) := by
  rw [closingEvents, blockEvents_append]
  cases usage.orElse fun _ => info.usage <;> simp [blockEvents, blockEvent]

variable {n : Nat}

theorem Fits.completes_close (h : Fits info b n) (usage : Option Usage) :
    Completes b (closeMessage usage info) := by
  obtain ⟨b', hrun, hb'⟩ := h.covered.advance
  rw [← blockEvents_closingEvents usage] at hrun
  have hstop : Completes b' [.messageStop] :=
    ⟨⟨true, true, b'⟩, rfl, rfl, (hb' .text).closed le_rfl⟩
  exact (completes_append (closingEvents_inner usage info) hrun).mpr hstop

theorem Doomed.not_completes_close (h : Doomed info b n) (usage : Option Usage) :
    ¬ Completes b (closeMessage usage info) := by
  have hrun : Blocks.run b (blockEvents (closingEvents usage info)) = none := by
    rw [blockEvents_closingEvents, h.run_stop]
  exact not_completes_append (closingEvents_inner usage info) fun b' hb' =>
    absurd (hrun.symm.trans hb') (by simp)

def finishDelta (usage : Option Usage) (finished : Option String) (out : Converted) : Converted :=
  match finished with
  | none => out
  | some reason =>
    (out.1 ++ closeMessage usage { out.2 with finishReason := reason },
      { out.2 with finishReason := reason, done := true })

theorem convertLaterChunk_eq (c : StreamChunk) (info : ClaudeConvertInfo) :
    convertLaterChunk c info = finishDelta c.usage c.finished (convertDelta c.delta info) := by
  unfold convertLaterChunk finished delta finishDelta
  cases c.choices with
  | nil => rfl
  | cons choice _ =>
    simp only [head?_cons, bind_some, map_some, getD_some, finishChunk]
    cases choice.finished with
    | none => simp
    | some reason => rfl

theorem completes_finish {out : Converted} (hinner : ∀ e ∈ out.1, e.Inner) (h : Followed b out n)
    (usage : Option Usage) (reason : String) :
    Completes b (finishDelta usage (some reason) out).1 := by
  obtain ⟨b', hrun, h⟩ := h
  have hlast : Fits { out.2 with finishReason := reason } b' n :=
    ⟨h.covered, h.done, h.tools, h.unopened⟩
  exact (completes_append hinner hrun).mpr (hlast.completes_close usage)

theorem not_completes_finish {out : Converted} (hinner : ∀ e ∈ out.1, e.Inner)
    (h : Spoiled b out n) (usage : Option Usage) (reason : String) :
    ¬ Completes b (finishDelta usage (some reason) out).1 := by
  refine not_completes_append hinner fun b' hrun => ?_
  have hdoomed := h b' hrun
  have hlast : Doomed { out.2 with finishReason := reason } b' n :=
    ⟨hdoomed.done, hdoomed.tools, hdoomed.hole⟩
  exact hlast.not_completes_close usage

def ClaudeConvertInfo.arrive (info : ClaudeConvertInfo) (c : StreamChunk) : ClaudeConvertInfo :=
  { info with usage := c.usage.orElse fun _ => info.usage }

def laterEvents : ClaudeConvertInfo → List StreamChunk → List ClaudeEvent
  | _, [] => []
  | info, c :: cs =>
    if info.done then []
    else
      let out := convertLaterChunk c (info.arrive c)
      out.1 ++ laterEvents out.2 cs

theorem laterEvents_of_done (h : info.done = true) (cs : List StreamChunk) :
    laterEvents info cs = [] := by
  cases cs with
  | nil => rfl
  | cons c cs => exact if_pos h

theorem handleClaudeFormat_eq (inputTokens : Int) (s : ConvertStream) (c : StreamChunk) :
    handleClaudeFormat inputTokens s c =
      let out :=
        streamResponseOpenAI2Claude (s.sendResponseCount + 1) inputTokens c (s.info.arrive c)
      ⟨s.sendResponseCount + 1, out.2, s.sent ++ out.1⟩ := rfl

theorem sent_run (inputTokens : Int) (cs : List StreamChunk) {s : ConvertStream}
    (hcount : 0 < s.sendResponseCount) :
    (run (handleClaudeFormat inputTokens) s cs).sent = s.sent ++ laterEvents s.info cs := by
  induction cs generalizing s with
  | nil => simp [laterEvents]
  | cons c cs ih =>
    rw [run_cons, ih (s := handleClaudeFormat inputTokens s c) (Nat.succ_pos _)]
    by_cases hdone : s.info.done = true
    · have hout : streamResponseOpenAI2Claude (s.sendResponseCount + 1) inputTokens c
          (s.info.arrive c) = ([], s.info.arrive c) := if_pos hdone
      have harrive : (s.info.arrive c).done = true := hdone
      rw [handleClaudeFormat_eq, hout, laterEvents_of_done hdone, laterEvents_of_done harrive,
        append_nil]
    · have hne : s.sendResponseCount + 1 ≠ 1 := by omega
      have hout : streamResponseOpenAI2Claude (s.sendResponseCount + 1) inputTokens c
          (s.info.arrive c) = convertLaterChunk c (s.info.arrive c) := by
        have harrive : ¬ (s.info.arrive c).done = true := hdone
        rw [streamResponseOpenAI2Claude, if_neg harrive, if_neg hne]
      rw [handleClaudeFormat_eq, hout, laterEvents, if_neg hdone, append_assoc]

theorem laterEvents_cons (hdone : info.done = false) (c : StreamChunk) (cs : List StreamChunk) :
    laterEvents info (c :: cs) =
      match c.finished with
      | none => (convertDelta c.delta (info.arrive c)).1 ++
          laterEvents (convertDelta c.delta (info.arrive c)).2 cs
      | some reason =>
        (finishDelta c.usage (some reason) (convertDelta c.delta (info.arrive c))).1 := by
  have hstep : laterEvents info (c :: cs) = (convertLaterChunk c (info.arrive c)).1 ++
        laterEvents (convertLaterChunk c (info.arrive c)).2 cs := by
    rw [laterEvents, if_neg (by simp [hdone])]
  rw [hstep, convertLaterChunk_eq]
  cases c.finished with
  | none => rfl
  | some reason =>
    have hdone : (finishDelta c.usage (some reason) (convertDelta c.delta
        (info.arrive c))).2.done = true := rfl
    rw [laterEvents_of_done hdone, append_nil]

/-! ### Streams with a finish reason -/

theorem finishes_of_some {reason : String} (hc : c.finished = some reason) : Finishes (c :: cs) :=
  ⟨c, mem_cons_self, by rw [isFinished, hc]; rfl⟩

theorem finishes_cons (hc : c.finished = none) : Finishes (c :: cs) ↔ Finishes cs := by
  have hopen : c.isFinished = false := by
    rw [isFinished, hc]
    rfl
  simp [Finishes, hopen]

theorem activeChunks_cons (c : StreamChunk) (cs : List StreamChunk) :
    activeChunks (c :: cs) = if c.finished = none then c :: activeChunks cs else [c] := by
  rw [activeChunks, isFinished]
  cases c.finished <;> simp

theorem ready_nil (info : ClaudeConvertInfo) (n : Nat) : Ready info n [] := by
  unfold Ready
  split
  · exact ⟨.inr fun _ hc => absurd hc (not_mem_nil), by simp⟩
  · split <;> simp

/-! ### Streams without a finish reason -/

def ClaudeConvertInfo.phase (info : ClaudeConvertInfo) : ChunkKind :=
  match info.lastMessagesType with
  | .none => .empty
  | .tools => .tools
  | _ => .content

theorem ContentType.phase {kind : BlockKind} (h : ContentType info.lastMessagesType kind) :
    info.phase = .content := by
  rcases h with ⟨htype, -⟩ | ⟨htype, -⟩ <;> simp only [ClaudeConvertInfo.phase, htype]

theorem convertDelta_phase (c : StreamChunk) (info : ClaudeConvertInfo) :
    (convertDelta c.delta info).2.phase = if c.kind = .empty then info.phase else c.kind := by
  rcases convertDelta_cases c info with
    ⟨hkind, heq⟩ | ⟨hkind, -, block, delta, type, htype, -, heq⟩ | ⟨hkind, -, heq⟩
  · rw [heq, hkind, if_neg (by simp), ClaudeConvertInfo.phase, (convertToolCalls_state _ info).1]
  · obtain ⟨htype', -⟩ := continueWithDelta_state block delta type info
    rw [heq, hkind, if_neg (by simp)]
    exact (htype'.symm ▸ htype : ContentType _ _).phase
  · rw [heq, hkind, if_pos rfl]

theorem lastKind_ne_empty {k : ChunkKind} (hk : k ≠ .empty) (cs : List StreamChunk) :
    lastKind k cs ≠ .empty := by
  induction cs generalizing k with
  | nil => exact hk
  | cons c cs ih =>
    refine ih (k := if c.kind = .empty then k else c.kind) ?_
    split
    · exact hk
    · assumption

theorem Covered.closed_iff (h : Covered info b) : b.Closed ↔ info.phase = .empty := by
  have hopen : 0 < openCount info → ¬ b.Closed := by
    intro hpos hclosed
    have hfirst := hclosed (openFrom info)
    rw [h.opened, if_pos ⟨le_rfl, by omega⟩] at hfirst
    cases hfirst
  cases htype : info.lastMessagesType with
  | none =>
    refine iff_of_true (h.closed ?_) (by simp only [phase, htype])
    simp [openCount, htype]
  | text | thinking | tools =>
    refine iff_of_false (hopen ?_) (by simp [phase, htype])
    simp only [openCount, htype]
    omega

theorem blockEvents_fragmentsEvents_eq_nil :
    blockEvents (fragmentsEvents base fs) = [] ↔ ∀ f ∈ fs, f.2.name = "" ∧ f.2.arguments = "" := by
  simp [blockEvents_fragmentsEvents, flatMap_eq_nil_iff, blockEvents_fragmentEvents]

theorem stop_notMem_fragments (i : Nat) : .stop i ∉ blockEvents (fragmentsEvents base fs) := by
  simp [blockEvents_fragmentsEvents, blockEvents_fragmentEvents]

theorem closed_fragments_iff
    (hrun : Blocks.run b (blockEvents (fragmentsEvents base fs)) = some b') :
    b'.Closed ↔ b.Closed ∧ ∀ f ∈ fs, f.2.name = "" ∧ f.2.arguments = "" := by
  have hnil := @blockEvents_fragmentsEvents_eq_nil base fs
  rw [← hnil]
  constructor
  · intro hclosed
    by_contra hnot
    refine Blocks.not_closed_of_run hrun (fun i => stop_notMem_fragments i) ?_ hclosed
    exact (not_and_or.mp hnot).symm
  · rintro ⟨hclosed, hnil⟩
    rw [hnil] at hrun
    cases hrun
    exact hclosed

theorem StreamChunk.silent_of_empty (hkind : c.kind = .empty) (hfrag : c.fragments = []) :
    c.Silent := by
  refine ⟨by simp [hkind], ?_⟩
  rw [hfrag]
  simp

theorem completes_nil : Completes b [] ↔ b.Closed := by
  simp [Completes, grammarRun, GrammarState.within]

/-- **In a wrong state, the stream can only be cut off**, while no block is open and none is
started. -/
theorem Doomed.completes_iff (h : Doomed info b n)
    (horder : ToolsInOrder n (cs.flatMap fragments)) :
    Completes b (laterEvents info cs) ↔ ¬ Finishes cs ∧ b.Closed ∧ ∀ c ∈ cs, c.Silent := by
  induction cs generalizing info b n with
  | nil => simp [laterEvents, completes_nil, Finishes]
  | cons c cs ih =>
    rw [flatMap_cons, toolsInOrder_append] at horder
    have h₁ : Doomed (info.arrive c) b n := ⟨h.done, h.tools, h.hole⟩
    have hinner := convertDelta_inner c (info.arrive c)
    rw [laterEvents_cons h.done, forall_mem_cons]
    cases hreason : c.finished with
    | some reason =>
      exact iff_of_false (not_completes_finish hinner (h₁.chunk horder.1) c.usage reason)
        fun hcut => hcut.1 (finishes_of_some hreason)
    | none =>
    rw [finishes_cons hreason]
    rcases convertDelta_cases c (info.arrive c) with
      ⟨hkind, heq⟩ | ⟨hkind, -, block, delta, type, htype, -, heq⟩ | ⟨hkind, hfrag, heq⟩
    · have hevents := (convertToolCalls_of_tools c.delta.toolCalls h₁.tools).1
      have hsilent : c.Silent ↔ ∀ f ∈ c.fragments, f.2.name = "" ∧ f.2.arguments = "" :=
        and_iff_right (by simp [hkind])
      cases hrun : Blocks.run b (blockEvents (convertDelta c.delta (info.arrive c)).1) with
      -- silent fragments give no events, which the blocks cannot refuse
      | none =>
        refine iff_of_false (not_completes_append hinner (by simp [hrun])) fun ⟨_, _, hs, _⟩ => ?_
        rw [hsilent, fragments] at hs
        rw [heq, hevents, blockEvents_fragmentsEvents_eq_nil.mpr hs] at hrun
        cases hrun
      | some b' =>
        rw [completes_append hinner hrun, ih (h₁.chunk horder.1 b' hrun) horder.2]
        rw [heq, hevents] at hrun
        rw [closed_fragments_iff hrun, hsilent, and_assoc]
        rfl
    -- other content stops the blocks, and with them the one that is not open
    · refine iff_of_false (not_completes_append hinner ?_) fun ⟨_, _, hs, _⟩ => hs.1 hkind
      simp [heq, h₁.run_content htype.ne_tools]
    · rw [hfrag] at horder
      simp only [heq, nil_append]
      rw [ih h₁ horder.2, and_iff_right (silent_of_empty hkind hfrag)]

/-- **The rest of a stream that is cut off while no block is open.** -/
def EndsQuietly (info : ClaudeConvertInfo) (n : Nat) (cs : List StreamChunk) : Prop :=
  lastKind info.phase cs = .empty ∨
    ∃ pre post, cs = pre ++ post ∧ Ready info n pre ∧ lastKind info.phase pre = .content ∧
      (∀ c ∈ post, c.Silent) ∧ ∃ c ∈ post, c.kind = .tools

theorem StreamChunk.Silent.ne_zero (h : c.Silent) (hkind : c.kind = .tools)
    (horder : ToolsInOrder n c.fragments) : n ≠ 0 := by
  rintro rfl
  cases hfrag : c.fragments with
  | nil => exact fragments_ne_nil hkind hfrag
  | cons f fs =>
    have hname := (h.2 f (hfrag ▸ mem_cons_self ..)).1
    rw [hfrag] at horder
    rcases horder with ⟨hlt, -⟩ | ⟨-, hne, -⟩
    · omega
    · exact hne hname

theorem lastKind_cons (info : ClaudeConvertInfo) (c : StreamChunk) (cs : List StreamChunk) :
    lastKind info.phase (c :: cs) = lastKind (convertDelta c.delta info).2.phase cs := by
  rw [convertDelta_phase]
  rfl

theorem endsQuietly_cons (h : Fits info b n) (horder : ToolsInOrder n c.fragments)
    (hc : Continues info n c) (cs : List StreamChunk) : EndsQuietly info n (c :: cs) ↔
      EndsQuietly (convertDelta c.delta info).2 (n + namedCount c.fragments) cs := by
  rw [EndsQuietly, EndsQuietly, lastKind_cons]
  refine or_congr_right ⟨?_, ?_⟩
  · rintro ⟨pre, post, heq, hready, hlast, hsilent, htools⟩
    rcases cons_eq_append_iff.mp heq with ⟨rfl, rfl⟩ | ⟨pre, rfl, rfl⟩
    · -- the silent chunks begin here, so this one is empty
      obtain ⟨hs, hrest⟩ := forall_mem_cons.mp hsilent
      have hphase : info.phase = .content := hlast
      have hnotTools : c.kind ≠ .tools := by
        intro hkind
        have hcont := hc hkind
        have htype : info.lastMessagesType ≠ .tools := by
          intro htype
          simp [phase, htype] at hphase
        rw [if_neg htype] at hcont
        exact hs.ne_zero hkind horder hcont
      have hempty : c.kind = .empty := by
        cases hkind : c.kind with
        | tools => exact absurd hkind hnotTools
        | content => exact absurd hkind hs.1
        | empty => rfl
      refine ⟨[], cs, rfl, ready_nil _ _, ?_, hrest, ?_⟩
      · rw [convertDelta_phase, if_pos hempty]
        exact hphase
      · obtain ⟨d, hd, hkind⟩ := htools
        rcases mem_cons.mp hd with rfl | hd
        · exact absurd hkind hnotTools
        · exact ⟨d, hd, hkind⟩
    · rw [lastKind_cons] at hlast
      exact ⟨pre, post, rfl, ((ready_cons h horder pre).mp hready).2, hlast, hsilent, htools⟩
  · rintro ⟨pre, post, rfl, hready, hlast, hsilent, htools⟩
    refine ⟨c :: pre, post, rfl, (ready_cons h horder pre).mpr ⟨hc, hready⟩, ?_, hsilent, htools⟩
    rw [lastKind_cons]
    exact hlast

theorem endsQuietly_cons_of_not (h : Fits info b n) (horder : ToolsInOrder n c.fragments)
    (hc : ¬ Continues info n c) (cs : List StreamChunk) : EndsQuietly info n (c :: cs) ↔
      (info.lastMessagesType ≠ .tools ∧ c.Silent) ∧ ∀ d ∈ cs, d.Silent := by
  obtain ⟨hkind, hcont⟩ := Classical.not_imp.mp hc
  constructor
  · rintro (hempty | ⟨pre, post, heq, hready, hlast, hsilent, -⟩)
    · refine absurd hempty (lastKind_ne_empty ?_ cs)
      simp [hkind]
    · rcases cons_eq_append_iff.mp heq with ⟨rfl, rfl⟩ | ⟨pre, rfl, rfl⟩
      · obtain ⟨hs, hrest⟩ := forall_mem_cons.mp hsilent
        refine ⟨⟨fun htype => ?_, hs⟩, hrest⟩
        have hphase : info.phase = .content := hlast
        simp [phase, htype] at hphase
      · exact absurd ((ready_cons h horder pre).mp hready).1 hc
  · rintro ⟨⟨htype, hs⟩, hrest⟩
    rw [if_neg htype] at hcont
    -- there have been tool calls, so that something has been streamed, and it is not tool calls
    have hphase : info.phase = .content := by
      cases hlast : info.lastMessagesType with
      | none => exact absurd (h.unopened hlast) hcont
      | tools => exact absurd hlast htype
      | text | thinking => simp only [phase, hlast]
    exact .inr ⟨[], c :: cs, rfl, ready_nil _ _, hphase, forall_mem_cons.mpr ⟨hs, hrest⟩,
      c, mem_cons_self .., hkind⟩

theorem Fits.closed_doomed_iff (h : Fits info b n) (hkind : c.kind = .tools) :
    (∀ b', Blocks.run b (blockEvents (convertToolCalls c.delta.toolCalls info).1) = some b' →
        (b'.Closed ↔ info.lastMessagesType ≠ .tools ∧ c.Silent)) ∧
      (info.lastMessagesType ≠ .tools ∧ c.Silent →
        Blocks.run b (blockEvents (convertToolCalls c.delta.toolCalls info).1) ≠ none) := by
  have hsilent : c.Silent ↔ ∀ f ∈ fragmentsOf c.delta.toolCalls,
      f.2.name = "" ∧ f.2.arguments = "" := and_iff_right (by simp [hkind])
  by_cases htype : info.lastMessagesType = .tools
  · refine ⟨fun b' hrun => iff_of_false ?_ fun ht => ht.1 htype, fun ht => absurd htype ht.1⟩
    rw [(convertToolCalls_of_tools _ htype).1] at hrun
    rw [closed_fragments_iff hrun, h.covered.closed_iff]
    rintro ⟨hphase, -⟩
    simp [phase, htype] at hphase
  · obtain ⟨b₁, hstop, hb₁⟩ := h.covered.advance
    have hclosed : b₁.Closed := (hb₁ .toolUse).closed le_rfl
    rw [(convertToolCalls_of_ne _ htype).1, blockEvents_append, Blocks.run_append, hstop, bind_some]
    refine ⟨fun b' hrun => ?_, fun ⟨_, hs⟩ => ?_⟩
    · rw [closed_fragments_iff hrun, hsilent, and_iff_right hclosed, and_iff_right htype]
    · rw [blockEvents_fragmentsEvents_eq_nil.mpr (hsilent.mp hs)]
      simp

/-- **The rest of a stream completes the message** iff it continues up to its finish reason, or ends
quietly without one. -/
theorem Fits.completes_iff (h : Fits info b n) (horder : ToolsInOrder n (cs.flatMap fragments)) :
    Completes b (laterEvents info cs) ↔
      if Finishes cs then Ready info n (activeChunks cs) else EndsQuietly info n cs := by
  induction cs generalizing info b n with
  | nil =>
    rw [laterEvents, completes_nil, h.covered.closed_iff, if_neg (by simp [Finishes])]
    refine ⟨.inl, fun hq => hq.resolve_right ?_⟩
    rintro ⟨pre, post, heq, -, -, -, c, hc, -⟩
    rw [(append_eq_nil_iff.mp heq.symm).2] at hc
    cases hc
  | cons c cs ih =>
    rw [flatMap_cons, toolsInOrder_append] at horder
    have h₁ : Fits (info.arrive c) b n := ⟨h.covered, h.done, h.tools, h.unopened⟩
    have hready : ∀ l, Ready info n l ↔ Ready (info.arrive c) n l := fun _ => Iff.rfl
    have hquiet : ∀ l, EndsQuietly info n l ↔ EndsQuietly (info.arrive c) n l := fun _ => Iff.rfl
    have hinner := convertDelta_inner c (info.arrive c)
    rw [laterEvents_cons h.done, activeChunks_cons, hready, hquiet]
    cases hreason : c.finished with
    | some reason =>
      rw [if_pos (finishes_of_some hreason), if_neg (by simp), ready_cons h₁ horder.1,
        and_iff_left (ready_nil _ _)]
      by_cases hc : Continues (info.arrive c) n c
      · exact iff_of_true (completes_finish hinner (h₁.chunk horder.1 hc) c.usage reason) hc
      · exact iff_of_false
          (not_completes_finish hinner (h₁.chunk_doomed horder.1 hc) c.usage reason) hc
    | none =>
      simp only [if_pos, finishes_cons hreason, ready_cons h₁ horder.1]
      by_cases hc : Continues (info.arrive c) n c
      · obtain ⟨b', hrun, hfits⟩ := h₁.chunk horder.1 hc
        rw [completes_append hinner hrun, endsQuietly_cons h₁ horder.1 hc, and_iff_right hc]
        exact ih hfits horder.2
      -- the chunk breaks the grammar at once, or leaves a hole that only silent chunks avoid
      · have hkind : c.kind = .tools := (Classical.not_imp.mp hc).1
        have htools : convertDelta c.delta (info.arrive c) =
            convertToolCalls c.delta.toolCalls (info.arrive c) := by
          rcases convertDelta_cases c (info.arrive c) with ⟨-, heq⟩ | ⟨hk, -⟩ | ⟨hk, -⟩
          · exact heq
          · simp [hkind] at hk
          · simp [hkind] at hk
        obtain ⟨hclosed, hsome⟩ := h₁.closed_doomed_iff hkind
        rw [← htools] at hclosed hsome
        rw [endsQuietly_cons_of_not h₁ horder.1 hc]
        cases hrun : Blocks.run b (blockEvents (convertDelta c.delta (info.arrive c)).1) with
        | none =>
          refine iff_of_false (not_completes_append hinner (by simp [hrun])) fun hq => ?_
          split at hq
          · exact hc hq.1
          · exact hsome hq.1 hrun
        | some b' =>
          rw [completes_append hinner hrun,
            (h₁.chunk_doomed horder.1 hc b' hrun).completes_iff horder.2, hclosed b' hrun]
          split <;> simp_all

/-! ### The first chunk -/

def firstDelta (d : ChunkDelta) (info : ClaudeConvertInfo) : Converted :=
  ((convertFirstToolCall d.toolCalls info).1 ++
      (convertFirstContent d (convertFirstToolCall d.toolCalls info).2).1,
    (convertFirstContent d (convertFirstToolCall d.toolCalls info).2).2)

/-- What the first chunk gives between `message_start` and its finish reason. -/
def firstOut (c : StreamChunk) : Converted := firstDelta c.delta (({} : ClaudeConvertInfo).arrive c)

theorem convertFirstChunk_eq (inputTokens : Int) (c : StreamChunk) (info : ClaudeConvertInfo) :
    convertFirstChunk inputTokens c info = (.messageStart c.id c.model inputTokens ::
          (finishDelta c.usage c.finished (firstDelta c.delta info)).1,
        (finishDelta c.usage c.finished (firstDelta c.delta info)).2) := by
  unfold convertFirstChunk finished delta finishDelta firstDelta
  cases c.choices with
  | nil => rfl
  | cons choice _ =>
    simp only [head?_cons, bind_some, map_some, getD_some, finishChunk]
    cases choice.finished with
    | none => simp
    | some reason => simp

theorem firstDelta_of_noTools {d : ChunkDelta} (hd : d.toolCalls = [])
    (hinfo : info.lastMessagesType = .none) : firstDelta d info = convertDelta d info := by
  have hstart : ∀ block delta type, type ≠ .none →
      startWithDelta block delta type info = continueWithDelta block delta type info := by
    intro block delta type htype
    have hne : info.lastMessagesType ≠ type := hinfo ▸ htype.symm
    simp [startWithDelta, continueWithDelta, if_pos hne]
  have htool : convertFirstToolCall d.toolCalls info = ([], info) := by rw [hd]; rfl
  have hcontent : convertFirstContent d info = convertDelta d info := by
    have htools : ¬ d.toolCalls ≠ [] := not_not.mpr hd
    rw [convertFirstContent, convertDelta, if_neg htools, hstart _ _ .thinking (by simp),
      hstart _ _ .text (by simp)]
  rw [firstDelta, htool, nil_append, hcontent]

theorem firstDelta_of_tools {d : ChunkDelta} {t : ToolCallFragment} {ts : List ToolCallFragment}
    (hd : d.toolCalls = t :: ts) (hone : d.OneKind) (info : ClaudeConvertInfo) : firstDelta d info =
      (.contentBlockStart 0 (.toolUse t.id t.name) :: (if t.arguments = "" then []
          else [.contentBlockDelta 0 (.inputJsonDelta t.arguments)]), { info with
          lastMessagesType := .tools, toolCallBaseIndex := 0, toolCallMaxIndexOffset := 0 }) := by
  obtain ⟨hreason, hcontent⟩ := hone.1.resolve_left (by simp [hd])
  simp [firstDelta, hd, convertFirstToolCall, convertFirstContent, hreason, hcontent]

theorem namedCount_eq_one_iff (horder : ToolsInOrder 0 fs) (hne : fs ≠ []) :
    0 + 1 = namedCount fs ↔ ∀ f ∈ fs, f.1 = 0 := by
  cases fs with
  | nil => exact absurd rfl hne
  | cons f fs =>
    obtain ⟨k, t⟩ := f
    rcases horder with ⟨hlt, -⟩ | ⟨rfl, hname, horder⟩
    · omega
    · rw [namedCount_cons, if_neg hname, forall_mem_cons, and_iff_right rfl]
      constructor
      · intro hzero
        exact offsets_of_namedCount_eq_zero horder (by omega)
      · intro hzero
        rw [(horder.of_zero Nat.zero_lt_one hzero).2]

/-- **After the first chunk the state fits**, and the rest must continue. -/
theorem firstDelta_spec (hone : c.delta.OneKind) (horder : ToolsInOrder 0 c.fragments) :
    (∀ e ∈ (firstOut c).1, e.Inner) ∧ Followed .init (firstOut c) (namedCount c.fragments) ∧
    (firstOut c).2.phase = c.kind ∧ ∀ cs, Ready (firstOut c).2 (namedCount c.fragments) cs ↔
      ToolsContiguous (c :: cs) ∧ FirstChunkComplete (c :: cs) := by
  have hinit : Fits (({} : ClaudeConvertInfo).arrive c) .init 0 :=
    ⟨Blocks.Interval.init _, rfl, nofun, fun _ => rfl⟩
  have hcomplete : ∀ cs, FirstChunkComplete (c :: cs) ↔
      (∀ f ∈ c.fragments, f.1 = 0) ∨ OnlyFirstTool cs := by
    intro cs
    simp [FirstChunkComplete, OnlyFirstTool]
  cases hd : c.delta.toolCalls with
  | nil =>
    have hkind : c.kind ≠ .tools := by
      rw [kind, if_neg (by simp [hd])]
      split <;> simp
    have hcont : Continues (({} : ClaudeConvertInfo).arrive c) 0 c := continues_of_kind hkind
    -- this is a later chunk that finds nothing open
    rw [firstOut, firstDelta_of_noTools hd rfl]
    have hchunk := hinit.chunk horder hcont
    rw [Nat.zero_add] at hchunk
    refine ⟨convertDelta_inner c _, hchunk, ?_, fun cs => ?_⟩
    · rw [convertDelta_phase]
      split
      · rename_i hempty
        rw [hempty]
        rfl
      · rfl
    · have hready := ready_cons hinit horder cs
      rw [Nat.zero_add, and_iff_right hcont] at hready
      have hfrag : c.fragments = [] := by rw [fragments, hd]; rfl
      rw [← hready, hcomplete, hfrag, and_iff_left (.inl (by simp))]
      rfl
  | cons t ts =>
    have hkind : c.kind = .tools := by rw [kind, if_pos (by simp [hd])]
    -- one block, for the first tool call; the others of the chunk are hidden
    rw [firstOut, firstDelta_of_tools hd hone]
    obtain ⟨b, hstart, hb⟩ := (Blocks.Interval.init BlockKind.toolUse).start le_rfl
    have hpos : 0 < namedCount c.fragments := namedCount_pos horder (fragments_ne_nil hkind)
    refine ⟨fun e he => inner_of_blockEvent ?_, ⟨b, ?_, hb, rfl,
      fun _ => ⟨hpos, .inr rfl⟩, fun hn => by cases hn⟩, hkind.symm, fun cs => ?_⟩
    · rcases mem_cons.mp he with rfl | he
      · rfl
      · split at he
        · cases he
        · rw [mem_singleton.mp he]
          rfl
    · have hargs := run_arguments hb (le_refl 0) Nat.zero_lt_one t.arguments
      have hevents : blockEvents (contentBlockStart 0 (.toolUse t.id t.name) ::
          (if t.arguments = "" then []
            else [contentBlockDelta 0 (.inputJsonDelta t.arguments)])) =
          .start 0 .toolUse :: (if t.arguments = "" then [] else [.part 0 .toolUse]) := by
        split <;> rfl
      rw [hevents, Blocks.run_cons, hstart, bind_some]
      exact hargs
    · rw [Ready, if_pos rfl, hcomplete, ToolsContiguous, map_cons, hkind,
        cons_sublist_cons, namedCount_eq_one_iff horder (fragments_ne_nil hkind), and_comm]

/-! ### Whole streams -/

theorem claudeEvents_cons (inputTokens : Int) (c : StreamChunk) (cs : List StreamChunk) :
    claudeEvents inputTokens (c :: cs) = .messageStart c.id c.model inputTokens ::
        match c.finished with
        | none => (firstOut c).1 ++ laterEvents (firstOut c).2 cs
        | some reason => (finishDelta c.usage (some reason) (firstOut c)).1 := by
  have hfirst : handleClaudeFormat inputTokens {} c =
      ⟨1, (convertFirstChunk inputTokens c (({} : ClaudeConvertInfo).arrive c)).2,
        [] ++ (convertFirstChunk inputTokens c (({} : ClaudeConvertInfo).arrive c)).1⟩ := rfl
  rw [claudeEvents, run_cons, hfirst, sent_run inputTokens cs Nat.zero_lt_one, nil_append,
    convertFirstChunk_eq]
  cases c.finished with
  | none => rfl
  | some reason =>
    have hdone : (finishDelta c.usage (some reason) (firstOut c)).2.done = true := rfl
    rw [← firstOut, laterEvents_of_done hdone, append_nil]

theorem endsQuietly_iff (hphase : info.phase = c.kind)
    (hready : ∀ cs, Ready info n cs ↔ ToolsContiguous (c :: cs) ∧ FirstChunkComplete (c :: cs))
    (cs : List StreamChunk) : EndsQuietly info n cs ↔ CutWhileClosed (c :: cs) := by
  have hlast : ∀ l, lastKind .empty (c :: l) = lastKind info.phase l := by
    intro l
    rw [hphase]
    change lastKind (if c.kind = .empty then .empty else c.kind) l = _
    split
    · rename_i hempty
      rw [hempty]
    · rfl
  rw [EndsQuietly, CutWhileClosed, hlast]
  refine or_congr_right ⟨?_, ?_⟩
  · rintro ⟨pre, post, rfl, hr, hk, hsilent, htools⟩
    exact ⟨c :: pre, post, rfl, (hready pre).mp hr, (hlast pre).trans hk, hsilent, htools⟩
  · rintro ⟨pre, post, heq, hr, hk, hsilent, htools⟩
    rcases cons_eq_append_iff.mp heq with ⟨rfl, -⟩ | ⟨pre, rfl, rfl⟩
    · cases hk
    · exact ⟨pre, post, rfl, (hready pre).mpr hr, (hlast pre).symm.trans hk, hsilent, htools⟩

/-- **The streams that are converted to a message**: with a finish reason, tool calls in one piece
and none hidden by the first chunk; without one, cut off while no block is open. -/
theorem claudeEvents_followsGrammar_iff (inputTokens : Int) {cs : List StreamChunk}
    (hvalid : ValidStream cs) : FollowsGrammar (claudeEvents inputTokens cs) ↔ cs ≠ [] ∧
        ((Finishes cs ∧ ToolsContiguous (activeChunks cs) ∧ FirstChunkComplete (activeChunks cs)) ∨
          (¬ Finishes cs ∧ CutWhileClosed cs)) := by
  cases cs with
  | nil =>
    refine iff_of_false ?_ fun h => h.1 rfl
    rintro ⟨g, hg, hbegun, -⟩
    cases hg
    cases hbegun
  | cons c cs =>
    obtain ⟨hone, horder⟩ := hvalid
    rw [flatMap_cons, toolsInOrder_append, Nat.zero_add] at horder
    obtain ⟨hinner, hfollowed, hphase, hready⟩ :=
      firstDelta_spec (hone c mem_cons_self) horder.1
    obtain ⟨b, hrun, hfits⟩ := hfollowed
    rw [claudeEvents_cons, and_iff_right (cons_ne_nil c cs), activeChunks_cons]
    change Completes .init _ ↔ _
    cases hreason : c.finished with
    | none =>
      rw [if_pos rfl, completes_append hinner hrun, finishes_cons hreason,
        hfits.completes_iff horder.2, hready, endsQuietly_iff hphase hready]
      split <;> simp [*]
    | some reason =>
      refine iff_of_true (completes_finish hinner ⟨b, hrun, hfits⟩ c.usage reason)
        (.inl ⟨finishes_of_some hreason, ?_⟩)
      rw [if_neg (by simp), ← hready]
      exact ready_nil _ _

def chunkOf (delta : ChunkDelta) (finishReason : Option String) : StreamChunk where
  id := "chatcmpl-1"
  model := "gpt-4o"
  choices := [{ delta := delta, finishReason := finishReason }]

def textThenTools : List StreamChunk :=
  [chunkOf { content := "Let me look." } none,
    chunkOf { toolCalls := [{ index := some 0, id := "call_1", name := "search" },
      { index := some 1, id := "call_2", name := "fetch" }] } none,
    chunkOf { toolCalls := [{ index := some 1, arguments := "url" }] } none,
    chunkOf {} (some "tool_calls")]

theorem textThenTools_followsGrammar :
    ValidStream textThenTools ∧ FollowsGrammar (claudeEvents 12 textThenTools) := by
  have hvalid : ValidStream textThenTools := by decide
  exact ⟨hvalid, (claudeEvents_followsGrammar_iff 12 hvalid).mpr ⟨by decide, .inl (by decide)⟩⟩

def toolTextTool : List StreamChunk :=
  [chunkOf { toolCalls := [{ index := some 0, id := "call_1", name := "search" }] } none,
    chunkOf { content := "And now" } none,
    chunkOf { toolCalls := [{ index := some 1, id := "call_2", name := "fetch" }] } none,
    chunkOf {} (some "tool_calls")]

/-- **Tool calls that are resumed after text break the grammar**: the block 2 is stopped, and was
never started. -/
theorem resumed_tools_break_grammar : ValidStream toolTextTool ∧ Finishes toolTextTool ∧
      .contentBlockStop 2 ∈ claudeEvents 12 toolTextTool ∧
      ¬ FollowsGrammar (claudeEvents 12 toolTextTool) := by
  refine ⟨by decide, by decide, by decide, ?_⟩
  rintro ⟨g, hg, -⟩
  have hnone : grammarRun {} (claudeEvents 12 toolTextTool) = none := rfl
  rw [hnone] at hg
  cases hg

end NomoApi
