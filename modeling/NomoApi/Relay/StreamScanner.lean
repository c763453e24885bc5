import NomoApi.Lib.Run

/-! # The goroutines of a stream

`StreamScannerHandler` (`relay/helper/stream_scanner.go`) passes lines from a scanner through a
buffered channel to a handler, sends pings, and waits in main for the timeout, the client, or a
token on `stopChan`. The ping goroutine does not pass on a token that it takes, and main then waits
for the timeout while the scanner is stuck on a full channel. -/

namespace NomoApi

inductive PingPhase
  | off
  | waiting
  | pinging
  | exited
  deriving DecidableEq

/-- The goroutine of the data handler; `exiting` is its deferred send. -/
inductive HandlerPhase
  | waiting
  | handling
  | exiting
  | exited
  deriving DecidableEq

inductive StreamLine
  | skipped
  | data
  | done
  deriving DecidableEq

inductive ScannerPhase
  | reading
  | checking (line : StreamLine)
  | sending
  | exiting
  | exited
  deriving DecidableEq

/-- **The goroutines and their channels**: the tokens in `stopChan`, the lines in `dataChan`, and
what has ended. -/
structure StreamState where
  stop : Nat := 0
  data : Nat := 0
  dataClosed : Bool := false
  ping : PingPhase
  handler : HandlerPhase := .waiting
  scanner : ScannerPhase := .reading
  gaveUp : Bool := false
  clientGone : Bool := false
  returned : Bool := false
  deriving DecidableEq

/-- **What can happen next.** A `select` with several ready cases is several events. -/
inductive StreamEvent
  | mainTimeout
  | clientLeaves
  | mainSeesClient
  | mainStop
  | pingTick
  | pingDone
  | pingQuit
  | pingStop
  | handlerTake
  | handlerReturn (success : Bool)
  | handlerEnd
  | handlerExit
  | scannerLine (line : StreamLine)
  | scannerEnd
  | scannerCheck
  | scannerSeesClient
  | scannerPush
  | scannerStop
  | scannerExit
  deriving DecidableEq

def StreamEvent.external : StreamEvent → Bool
  | .mainTimeout | .clientLeaves | .scannerLine _ | .scannerEnd => true
  | _ => false

/-- The scanner returns: `dataChan` is closed, the deferred send comes next. -/
def StreamState.scannerReturns (s : StreamState) : StreamState :=
  { s with scanner := .exiting, dataClosed := true }

/-- **One step**; an event that cannot happen changes nothing. The capacities are 3 and 10. -/
def streamStep (s : StreamState) : StreamEvent → StreamState
  | .mainTimeout => { s with returned := true }
  | .clientLeaves => { s with clientGone := true }
  | .mainSeesClient => if s.clientGone then { s with returned := true } else s
  | .mainStop =>
    if s.returned = false ∧ 0 < s.stop then { s with stop := s.stop - 1, returned := true } else s
  | .pingTick => if s.ping = .waiting then { s with ping := .pinging } else s
  | .pingDone => if s.ping = .pinging then { s with ping := .waiting } else s
  | .pingQuit => if s.ping = .pinging ∨ s.ping = .waiting then { s with ping := .exited } else s
  | .pingStop =>
    -- the token is gone
    if (s.ping = .pinging ∨ s.ping = .waiting) ∧ 0 < s.stop then
      { s with stop := s.stop - 1, ping := .exited }
    else s
  | .handlerTake =>
    if s.handler = .waiting ∧ 0 < s.data then { s with data := s.data - 1, handler := .handling }
    else s
  | .handlerReturn success =>
    if s.handler = .handling then
      if success then { s with handler := .waiting }
      else { s with handler := .exiting, gaveUp := true }
    else s
  | .handlerEnd =>
    if s.handler = .waiting ∧ s.data = 0 ∧ s.dataClosed then { s with handler := .exiting } else s
  | .handlerExit =>
    if s.handler = .exiting ∧ s.stop < 3 then { s with stop := s.stop + 1, handler := .exited }
    else s
  | .scannerLine line => if s.scanner = .reading then { s with scanner := .checking line } else s
  | .scannerEnd => if s.scanner = .reading then s.scannerReturns else s
  | .scannerCheck =>
    match s.scanner with
    | .checking line =>
      if 0 < s.stop then { s with stop := s.stop - 1 }.scannerReturns
      else if s.clientGone then s.scannerReturns
      else
        match line with
        | .skipped => { s with scanner := .reading }
        | .data => { s with scanner := .sending }
        | .done => s.scannerReturns
    | _ => s
  | .scannerSeesClient =>
    match s.scanner with
    | .checking _ => if s.clientGone then s.scannerReturns else s
    | _ => s
  | .scannerPush =>
    if s.scanner = .sending ∧ s.data < 10 then
      { s with data := s.data + 1, scanner := .reading }
    else s
  | .scannerStop =>
    if s.scanner = .sending ∧ 0 < s.stop then { s with stop := s.stop - 1 }.scannerReturns else s
  | .scannerExit =>
    if s.scanner = .exiting ∧ s.stop < 3 then { s with stop := s.stop + 1, scanner := .exited }
    else s

def streamStart (pingEnabled : Bool) : StreamState where
  ping := if pingEnabled then .waiting else .off

/-- **Main can return** without an event of the world outside. -/
def StreamState.CanReturn (s : StreamState) : Prop :=
  ∃ events : List StreamEvent, (∀ e ∈ events, e.external = false) ∧
    (run streamStep s events).returned = true

/-- **A token is on its way** to main, if it is still waiting. -/
def StreamState.Pending (s : StreamState) : Prop :=
  s.returned = true ∨ 0 < s.stop ∨ s.handler = .exiting ∨ s.scanner = .exiting

/-- **A handler that gave up leaves main a token.** -/
def StreamState.Inv (pingEnabled : Bool) (s : StreamState) : Prop :=
  (s.gaveUp = true → s.Pending) ∧ (pingEnabled = false → s.ping = .off)

variable {s : StreamState}

theorem StreamState.Inv.step {e : StreamEvent} {pingEnabled : Bool}
    (h : s.Inv pingEnabled) (hping : pingEnabled = true → e ≠ .pingStop) :
    (streamStep s e).Inv pingEnabled := by
  unfold StreamState.Inv StreamState.Pending at h ⊢
  cases e <;> simp only [streamStep, StreamState.scannerReturns] <;> grind

theorem StreamState.canReturn_of_stop (h : 0 < s.stop) : s.CanReturn := by
  cases hreturned : s.returned with
  | true => exact ⟨[], nofun, hreturned⟩
  | false => exact ⟨[.mainStop], by decide, by simp [streamStep, hreturned, h]⟩

theorem StreamState.CanReturn.of_step {e : StreamEvent}
    (he : e.external = false) (h : (streamStep s e).CanReturn) : s.CanReturn := by
  obtain ⟨events, hinternal, hreturned⟩ := h
  exact ⟨e :: events, List.forall_mem_cons.mpr ⟨he, hinternal⟩, hreturned⟩

theorem StreamState.Pending.canReturn (h : s.Pending) : s.CanReturn := by
  by_cases hstop : 0 < s.stop
  · exact canReturn_of_stop hstop
  · have hroom : s.stop < 3 := by omega
    rcases h with hreturned | hpos | hhandler | hscanner
    · exact ⟨[], nofun, hreturned⟩
    · exact absurd hpos hstop
    -- the deferred send of a goroutine that is exiting
    · exact .of_step (e := .handlerExit) rfl
        (canReturn_of_stop (by simp [streamStep, hhandler, hroom]))
    · exact .of_step (e := .scannerExit) rfl
        (canReturn_of_stop (by simp [streamStep, hscanner, hroom]))

/-- **Main can return** in every state after the handler has given up, if there are no pings or
their goroutine takes no token. -/
theorem main_can_return {pingEnabled : Bool} {events : List StreamEvent}
    (hping : pingEnabled = true → .pingStop ∉ events)
    (hgave : (run streamStep (streamStart pingEnabled) events).gaveUp = true) :
    (run streamStep (streamStart pingEnabled) events).CanReturn := by
  have hinv : (run streamStep (streamStart pingEnabled) events).Inv pingEnabled :=
    run_induction_mem (fun _ _ he h => h.step fun hon heq => hping hon (heq ▸ he))
      ⟨nofun, fun hoff => by rw [hoff]; rfl⟩
  exact (hinv.1 hgave).canReturn

def passLine : List StreamEvent := [.scannerLine .data, .scannerCheck, .scannerPush]

def fullThenGiveUp : List StreamEvent :=
  passLine ++ [.handlerTake] ++ (List.replicate 10 passLine).flatten ++
    [.scannerLine .data, .scannerCheck, .handlerReturn false, .handlerExit]

theorem main_can_return_full : (run streamStep (streamStart true) fullThenGiveUp).CanReturn :=
  main_can_return (by decide) (by decide)

def stuckStream : StreamState where
  data := 10
  ping := .exited
  handler := .exited
  scanner := .sending
  gaveUp := true

/-- **With pings, main can be left waiting for the timeout or the client only.** -/
theorem main_waits_for_timeout :
    run streamStep (streamStart true) (fullThenGiveUp ++ [.pingStop]) = stuckStream ∧
      stuckStream.returned = false ∧
      ∀ e, streamStep stuckStream e ≠ stuckStream → e = .mainTimeout ∨ e = .clientLeaves := by
  refine ⟨by decide, rfl, fun e he => ?_⟩
  cases e with
  | mainTimeout => exact .inl rfl
  | clientLeaves => exact .inr rfl
  | _ => exact absurd rfl he

end NomoApi
