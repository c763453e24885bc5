import NomoApi.Lib.Text
import NomoApi.Relay.StreamScanner

/-! # What a stream delivers

`StreamScannerHandler` (`relay/helper/stream_scanner.go`), for a data handler that always goes on, a
client that stays and no timeout. Main wakes up by the deferred sends of scanner and handler and
then waits for both, so that nothing in `dataChan` is lost. A bare `[DONE]` line passes the check of
the first six bytes, but five of them are cut off as if they were `data:`. -/

namespace NomoApi

open List

/-! ### Lines -/

inductive LineVerdict
  | skip
  | data (payload : String)
  | done
  deriving DecidableEq

def judgePayload (text : String) : LineVerdict :=
  let data := trimSpace text
  if data = "" then .skip else if hasPrefix data "[DONE]" then .done else .data data

def afterFive (line : String) : String := String.ofList (line.toList.drop 5)

/-- **The loop body of the scanner.** -/
def judgeLine (line : String) : LineVerdict :=
  if line.utf8ByteSize < 6 then .skip
  else if hasPrefix line "data:" = false ∧ hasPrefix line "[DONE]" = false then .skip
  else judgePayload (afterFive line)

/-- **What a line means**: a bare `[DONE]` line ends the stream. -/
def lineMeaning (line : String) : LineVerdict :=
  if hasPrefix line "data:" then judgePayload (afterFive line)
  else if hasPrefix line "[DONE]" then .done
  else .skip

def payloadsBy (judge : String → LineVerdict) : List String → List String
  | [] => []
  | line :: lines =>
    match judge line with
    | .skip => payloadsBy judge lines
    | .data payload => payload :: payloadsBy judge lines
    | .done => []

abbrev payloads : List String → List String := payloadsBy judgeLine

/-! ### The goroutines -/

/-- The scanner; `exiting` is its deferred send. -/
inductive ScannerState
  | reading
  | checking (line : String)
  | sending (data : String)
  | exiting
  | exited
  deriving DecidableEq

open ScannerState

inductive HandlerState
  | waiting
  | handling (data : String)
  | exiting
  | exited
  deriving DecidableEq

/-- The ping goroutine; it may end by taking a token. -/
inductive PingState
  | running
  | tookToken
  | ended
  deriving DecidableEq

/-- The main goroutine: `select`, `cancel`, its own token, and the wait group. -/
inductive MainState
  | waiting
  | cancelled
  | stopping
  | returned
  deriving DecidableEq

/-- **The goroutines, the lines to be read and the finished calls of the data handler.** -/
structure Delivery where
  lines : List String
  scanner : ScannerState := .reading
  dataChan : List String := []
  handler : HandlerState := .waiting
  handled : List String := []
  stop : Nat := 0
  ping : PingState
  main : MainState := .waiting
  deriving DecidableEq

def ScannerState.running : ScannerState → Bool
  | .exiting | .exited => false
  | _ => true

def HandlerState.running : HandlerState → Bool
  | .exiting | .exited => false
  | _ => true

/-- The scanner waits in one of its two `select`s. -/
def ScannerState.selecting : ScannerState → Bool
  | .checking _ | .sending _ => true
  | _ => false

/-- **What can happen next.** A `select` with several ready cases is several events. -/
inductive DeliveryEvent
  | scannerRead
  | scannerCheck
  | scannerPush
  | scannerStop
  | scannerCancel
  | scannerExit
  | handlerTake
  | handlerReturn
  | handlerEnd
  | handlerExit
  | pingStop
  | pingQuit
  | mainStop
  | mainSend
  | mainReturn
  deriving DecidableEq

/-- **One step**; an event that cannot happen changes nothing. -/
def Delivery.step (s : Delivery) : DeliveryEvent → Delivery
  | .scannerRead =>
    match s.scanner, s.lines with
    | .reading, line :: lines => { s with scanner := .checking line, lines := lines }
    | .reading, [] => { s with scanner := .exiting }
    | _, _ => s
  | .scannerCheck =>
    match s.scanner with
    | .checking line =>
      -- the default case of the `select`
      if s.stop = 0 ∧ s.main = .waiting then
        match judgeLine line with
        | .skip => { s with scanner := .reading }
        | .data payload => { s with scanner := .sending payload }
        | .done => { s with scanner := .exiting }
      else s
    | _ => s
  | .scannerPush =>
    match s.scanner with
    | .sending data =>
      if s.dataChan.length < 10 then
        { s with scanner := .reading, dataChan := s.dataChan ++ [data] }
      else s
    | _ => s
  | .scannerStop =>
    if s.scanner.selecting ∧ 0 < s.stop then { s with scanner := .exiting, stop := s.stop - 1 }
    else s
  | .scannerCancel =>
    if s.scanner.selecting ∧ s.main ≠ .waiting then { s with scanner := .exiting } else s
  | .scannerExit =>
    if s.scanner = .exiting ∧ s.stop < 3 then { s with scanner := .exited, stop := s.stop + 1 }
    else s
  | .handlerTake =>
    match s.handler, s.dataChan with
    | .waiting, data :: rest => { s with handler := .handling data, dataChan := rest }
    | _, _ => s
  | .handlerReturn =>
    match s.handler with
    | .handling data => { s with handler := .waiting, handled := s.handled ++ [data] }
    | _ => s
  | .handlerEnd =>
    if s.handler = .waiting ∧ s.dataChan = [] ∧ s.scanner.running = false then
      { s with handler := .exiting }
    else s
  | .handlerExit =>
    if s.handler = .exiting ∧ s.stop < 3 then { s with handler := .exited, stop := s.stop + 1 }
    else s
  | .pingStop =>
    if s.ping = .running ∧ 0 < s.stop then { s with ping := .tookToken, stop := s.stop - 1 } else s
  | .pingQuit => if s.ping = .running then { s with ping := .ended } else s
  | .mainStop =>
    if s.main = .waiting ∧ 0 < s.stop then { s with main := .cancelled, stop := s.stop - 1 } else s
  | .mainSend =>
    if s.main = .cancelled ∧ s.stop < 3 then { s with main := .stopping, stop := s.stop + 1 } else s
  | .mainReturn =>
    if s.main = .stopping ∧ s.scanner.running = false ∧ s.handler.running = false ∧
        s.ping ≠ .running then
      { s with main := .returned }
    else s

def Delivery.start (pingEnabled : Bool) (lines : List String) : Delivery where
  lines
  ping := if pingEnabled then .running else .ended

/-! ### Nothing is lost -/

def ScannerState.left (lines : List String) : ScannerState → List String
  | .reading => payloads lines
  | .checking line => payloads (line :: lines)
  | .sending data => data :: payloads lines
  | _ => []

def HandlerState.current : HandlerState → List String
  | .handling data => [data]
  | _ => []

/-- **Where the payloads are**, and what has ended: while the scanner runs, nobody has a token. -/
structure Delivery.Inv (all : List String) (s : Delivery) : Prop where
  flow : s.handled ++ s.handler.current ++ s.dataChan ++ s.scanner.left s.lines = all
  scanning : s.scanner.running = true → s.stop = 0 ∧ s.main = .waiting ∧ s.handler.running = true
  drained : s.handler.running = false → s.dataChan = []
  returned : s.main = .returned → s.handler.running = false
  tokens : s.stop + (if s.ping = .tookToken then 1 else 0) +
      (if s.main = .cancelled then 1 else 0) =
    (if s.scanner = .exited then 1 else 0) + if s.handler = .exited then 1 else 0

variable {all : List String} {s : Delivery}

theorem ScannerState.running_of_selecting {c : ScannerState} (h : c.selecting = true) :
    c.running = true := by
  cases c <;> first | rfl | cases h

namespace Delivery.Inv

section

variable (h : s.Inv all)

include h

/-- **The scanner stops first**: before anybody has a token, and before the handler. -/
theorem not_running (hlate : 0 < s.stop ∨ s.main ≠ .waiting ∨ s.handler.running = false) :
    s.scanner.running = false := by
  by_contra hrunning
  obtain ⟨hstop, hmain, hhandler⟩ := h.scanning (by simpa using hrunning)
  rw [hstop, hmain, hhandler] at hlate
  simp at hlate

theorem ite {c : Prop} [Decidable c] {s' : Delivery} (hs : c → s'.Inv all) :
    (if c then s' else s).Inv all := by
  split
  · exact hs ‹c›
  · exact h

/-- **The scanner moves on**, and has as much left as before. -/
theorem scans {scanner : ScannerState} {lines dataChan : List String}
    (hrunning : s.scanner.running = true) (hexited : scanner ≠ .exited)
    (hleft : dataChan ++ scanner.left lines = s.dataChan ++ s.scanner.left s.lines) :
    { s with scanner, lines, dataChan }.Inv all := by
  obtain ⟨hstop, hmain, hhandler⟩ := h.scanning hrunning
  refine ⟨?_, fun _ => ⟨hstop, hmain, hhandler⟩, fun hh => ?_, h.returned, ?_⟩
  · have hflow := h.flow
    rwa [append_assoc, ← hleft, ← append_assoc] at hflow
  · cases hhandler.symm.trans hh
  · have hbefore : s.scanner ≠ .exited := fun hs => by rw [hs] at hrunning; cases hrunning
    simpa only [if_neg hbefore, if_neg hexited] using h.tokens

/-- **The handler moves on**; it ends after the scanner, when nothing is in the channel. -/
theorem handles {handler : HandlerState} {handled dataChan : List String}
    (hrunning : s.handler.running = true) (hexited : handler ≠ .exited)
    (hflow : handled ++ handler.current ++ dataChan = s.handled ++ s.handler.current ++ s.dataChan)
    (hends : handler.running = false → s.scanner.running = false ∧ dataChan = []) :
    { s with handler, handled, dataChan }.Inv all := by
  refine ⟨by rw [← h.flow, ← hflow], fun hs => ?_, fun hh => (hends hh).2, fun hr => ?_, ?_⟩
  · obtain ⟨hstop, hmain, -⟩ := h.scanning hs
    refine ⟨hstop, hmain, Bool.not_eq_false _ |>.mp fun hh => ?_⟩
    cases hs.symm.trans (hends hh).1
  · cases hrunning.symm.trans (h.returned hr)
  · have hbefore : s.handler ≠ .exited := fun hs => by rw [hs] at hrunning; cases hrunning
    simpa only [if_neg hbefore, if_neg hexited] using h.tokens

theorem step (e : DeliveryEvent) : (s.step e).Inv all := by
  cases e with
  | scannerRead =>
    rw [Delivery.step]
    split
    · next hs hl => exact h.scans (by rw [hs]; rfl) nofun (by rw [hs, hl]; rfl)
    · next hs hl => exact h.scans (by rw [hs]; rfl) nofun (by rw [hs, hl]; rfl)
    · exact h
  | scannerCheck =>
    rw [Delivery.step]
    split
    · next line hs =>
      refine h.ite fun _ => ?_
      split <;> rename_i hj <;> refine h.scans (by rw [hs]; rfl) nofun ?_ <;>
        simp [hs, left, payloadsBy, hj]
    · exact h
  | scannerPush =>
    rw [Delivery.step]
    split
    · next data hs =>
      exact h.ite fun _ => h.scans (by rw [hs]; rfl) nofun (by simp [hs, left])
    · exact h
  | scannerStop =>
    -- a scanner that selects is running, so that there is nothing to receive
    refine h.ite fun hc => ?_
    cases (running_of_selecting hc.1).symm.trans (h.not_running (.inl hc.2))
  | scannerCancel =>
    refine h.ite fun hc => ?_
    cases (running_of_selecting hc.1).symm.trans (h.not_running (.inr (.inl hc.2)))
  | handlerTake =>
    rw [Delivery.step]
    split
    · next hs hd =>
      exact h.handles (by rw [hs]; rfl) nofun (by simp [hs, hd, HandlerState.current]) nofun
    · exact h
  | handlerReturn =>
    rw [Delivery.step]
    split
    · next hs =>
      exact h.handles (by rw [hs]; rfl) nofun (by simp [hs, HandlerState.current]) nofun
    · exact h
  | handlerEnd =>
    exact h.ite fun hc => h.handles (by rw [hc.1]; rfl) nofun (by rw [hc.1]; rfl) fun _ =>
      ⟨hc.2.2, hc.2.1⟩
  | _ =>
    -- a token is passed on; the payloads stay where they are
    refine h.ite fun hc => ?_
    have hstopped := h.not_running
    obtain ⟨hflow, hscan, hdrained, hreturned, htokens⟩ := h
    constructor <;> grind [left, running, HandlerState.current,
      HandlerState.running]

end

end Delivery.Inv

theorem Delivery.inv_run (pingEnabled : Bool) (lines : List String) (events : List DeliveryEvent) :
    (run Delivery.step (.start pingEnabled lines) events).Inv (payloads lines) := by
  refine run_induction (fun s e h => h.step e) ⟨rfl, fun _ => ⟨rfl, rfl, rfl⟩, nofun, nofun, ?_⟩ _
  cases pingEnabled <;> rfl

theorem Delivery.Inv.handled_of_returned (h : s.Inv all)
    (hreturned : s.main = .returned) : s.handled = all := by
  have hhandler := h.returned hreturned
  have hscanner : s.scanner.left s.lines = [] := by
    cases hs : s.scanner with
    | exiting => rfl
    | exited => rfl
    | _ =>
      have hwait := (h.scanning (by rw [hs]; rfl)).2.1
      rw [hreturned] at hwait
      cases hwait
  have hcurrent : s.handler.current = [] := by
    cases hh : s.handler with
    | handling data =>
      rw [hh] at hhandler
      cases hhandler
    | _ => rfl
  have hflow := h.flow
  rwa [hcurrent, h.drained hhandler, hscanner, append_nil, append_nil, append_nil] at hflow

/-! ### The goroutines of a delivery -/

@[simp] def LineVerdict.kind : LineVerdict → StreamLine
  | .skip => .skipped
  | .data _ => .data
  | .done => .done

@[simp] def ScannerState.phase : ScannerState → ScannerPhase
  | .reading => .reading
  | .checking line => .checking (judgeLine line).kind
  | .sending _ => .sending
  | .exiting => .exiting
  | .exited => .exited

@[simp] def HandlerState.phase : HandlerState → HandlerPhase
  | .waiting => .waiting
  | .handling _ => .handling
  | .exiting => .exiting
  | .exited => .exited

/-- **The goroutines of a delivery**, without the lines. -/
def Delivery.view (s : Delivery) : StreamState where
  stop := s.stop
  data := s.dataChan.length
  dataClosed := !s.scanner.running
  ping := if s.ping = .running then .waiting else .exited
  handler := s.handler.phase
  scanner := s.scanner.phase
  returned := s.main ≠ .waiting

def Delivery.viewed (s : Delivery) : DeliveryEvent → StreamEvent
  | .scannerRead => match s.lines with
    | [] => .scannerEnd
    | line :: _ => .scannerLine (judgeLine line).kind
  | .scannerCheck => .scannerCheck
  | .scannerPush => .scannerPush
  -- the first `select` of the scanner is one event there
  | .scannerStop => match s.scanner with
    | .checking _ => .scannerCheck
    | _ => .scannerStop
  | .scannerExit => .scannerExit
  | .handlerTake => .handlerTake
  | .handlerReturn => .handlerReturn true
  | .handlerEnd => .handlerEnd
  | .handlerExit => .handlerExit
  | .pingStop => .pingStop
  | .pingQuit => .pingQuit
  | .scannerCancel | .mainStop | .mainSend | .mainReturn => .mainStop

/-- **A step of a delivery is one of its goroutines**, or none of them sees it. -/
theorem Delivery.view_step (h : s.main = .waiting) (e : DeliveryEvent) :
    (s.step e).view = s.view ∨ (s.step e).view = streamStep s.view (s.viewed e) := by
  obtain ⟨lines, scanner, dataChan, handler, handled, stop, ping, main⟩ := s
  obtain rfl : main = .waiting := h
  cases e with
  | scannerStop =>
    cases scanner <;> dsimp only [step, view, viewed] <;> split <;>
      simp_all [ScannerState.running, selecting, streamStep, StreamState.scannerReturns]
  | scannerRead | scannerCheck | scannerPush | scannerExit =>
    dsimp only [step, view, viewed]
    (repeat' split) <;>
      simp_all [ScannerState.running, streamStep, StreamState.scannerReturns]
  | _ =>
    dsimp only [step, view, viewed]
    (repeat' split) <;> simp_all [streamStep, ScannerState.running]

/-- **A delivery is a run of the goroutines** as long as main waits. -/
theorem Delivery.view_run {events : List DeliveryEvent}
    (h : AllSteps (fun s _ => s.main = .waiting) Delivery.step s events) :
    ∃ es, (run Delivery.step s events).view = run streamStep s.view es := by
  induction events generalizing s with
  | nil => exact ⟨[], rfl⟩
  | cons e events ih =>
    obtain ⟨es, hes⟩ := ih h.2
    rcases view_step h.1 e with hsame | hnext
    · exact ⟨es, hes.trans (by rw [hsame])⟩
    · exact ⟨s.viewed e :: es, hes.trans (by rw [hnext, run_cons])⟩

/-! ### Main returns -/

def ScannerState.weight : ScannerState → Nat
  | .reading => 2
  | .checking _ => 6
  | .sending _ => 5
  | .exiting => 1
  | .exited => 0

def HandlerState.weight : HandlerState → Nat
  | .waiting => 2
  | .handling _ => 3
  | .exiting => 1
  | .exited => 0

def MainState.weight : MainState → Nat
  | .waiting => 3
  | .cancelled => 2
  | .stopping => 1
  | .returned => 0

/-- **A bound on the steps to come.** -/
def Delivery.weight (s : Delivery) : Nat :=
  5 * s.lines.length + s.scanner.weight + 2 * s.dataChan.length + s.handler.weight +
    s.main.weight + if s.ping = .running then 1 else 0

theorem ScannerState.one_lt_weight {c : ScannerState} (h : c.selecting = true) : 1 < c.weight := by
  cases c <;> simp_all [selecting, weight]

theorem Delivery.weight_step_lt (s : Delivery) (e : DeliveryEvent) (h : s.step e ≠ s) :
    (s.step e).weight < s.weight := by
  obtain ⟨lines, scanner, dataChan, handler, handled, stop, ping, main⟩ := s
  revert h
  cases e <;> simp only [Delivery.step, Delivery.weight] <;>
    grind [ScannerState.weight, one_lt_weight, HandlerState.weight, MainState.weight]

theorem Delivery.handler_progress (hrunning : s.handler.running = true)
    (hwork : s.dataChan ≠ [] ∨ s.scanner.running = false) : ∃ e, s.step e ≠ s := by
  obtain ⟨lines, scanner, dataChan, handler, handled, stop, ping, main⟩ := s
  cases handler with
  | waiting =>
    cases dataChan with
    | nil => exact ⟨.handlerEnd, by simpa [Delivery.step] using hwork⟩
    | cons data rest => exact ⟨.handlerTake, by simp [Delivery.step]⟩
  | handling data => exact ⟨.handlerReturn, by simp [Delivery.step]⟩
  | exiting => cases hrunning
  | exited => cases hrunning

/-- **No goroutine is stuck** before main has returned. -/
theorem Delivery.Inv.progress (h : s.Inv all) (hmain : s.main ≠ .returned) : ∃ e, s.step e ≠ s := by
  obtain ⟨-, hscan, -, -, htokens⟩ := h
  cases hhandler : s.handler.running with
  | true =>
    by_cases hwork : s.dataChan ≠ [] ∨ s.scanner.running = false
    · exact Delivery.handler_progress hhandler hwork
    · obtain ⟨lines, scanner, dataChan, handler, handled, stop, ping, main⟩ := s
      obtain ⟨rfl, hscanner⟩ : dataChan = [] ∧ scanner.running = true := by simpa using hwork
      obtain ⟨rfl, rfl, -⟩ := hscan hscanner
      cases scanner with
      | reading => exact ⟨.scannerRead, by cases lines <;> simp [Delivery.step]⟩
      | checking line =>
        exact ⟨.scannerCheck, by cases hj : judgeLine line <;> simp [Delivery.step, hj]⟩
      | sending data => exact ⟨.scannerPush, by simp [Delivery.step]⟩
      | exiting => cases hscanner
      | exited => cases hscanner
  | false =>
    obtain ⟨lines, scanner, dataChan, handler, handled, stop, ping, main⟩ := s
    have hscanner : scanner.running = false := by
      by_contra hrunning
      simp [hscan (by simpa using hrunning)] at hhandler
    have hroom : stop < 3 := by grind
    by_cases hs : scanner = .exiting
    · exact ⟨.scannerExit, by simp [Delivery.step, hs, hroom]⟩
    by_cases hh : handler = .exiting
    · exact ⟨.handlerExit, by simp [Delivery.step, hh, hroom]⟩
    have hs : scanner = .exited := by grind [running]
    have hh : handler = .exited := by grind [HandlerState.running]
    subst hs hh
    cases main with
    | waiting =>
      have hstop : 0 < stop := by grind
      exact ⟨.mainStop, by simp [Delivery.step, hstop]⟩
    | cancelled => exact ⟨.mainSend, by simp [Delivery.step, hroom]⟩
    | stopping =>
      by_cases hping : ping = .running
      · exact ⟨.pingQuit, by simp [Delivery.step, hping]⟩
      · exact ⟨.mainReturn, by simp [Delivery.step, hscanner, hhandler, hping]⟩
    | returned => exact absurd rfl hmain

theorem Delivery.Inv.returns (h : s.Inv all) :
    ∃ events, (run Delivery.step s events).main = .returned := by
  induction hn : s.weight using Nat.strong_induction_on generalizing s with
  | _ n ih =>
    by_cases hmain : s.main = .returned
    · exact ⟨[], hmain⟩
    · obtain ⟨e, he⟩ := h.progress hmain
      obtain ⟨events, hevents⟩ := ih _ (hn ▸ Delivery.weight_step_lt s e he) (h.step e) rfl
      exact ⟨e :: events, hevents⟩

/-! ### What the lines mean -/

/-- No bare `[DONE]` line is read. -/
def NoBareDone (lines : List String) : Prop :=
  ∀ line ∈ lines.takeWhile (fun line => judgeLine line ≠ .done),
    hasPrefix line "data:" = false → hasPrefix line "[DONE]" = false

theorem eq_append_of_hasPrefix {s start : String} (h : hasPrefix s start = true) :
    ∃ rest, s = start ++ rest := by
  obtain ⟨rest, hrest⟩ := of_decide_eq_true h
  exact ⟨String.ofList rest, by rw [← String.toList_inj, String.toList_append]; simp [hrest]⟩

theorem trimChars_cons {c : Char} (hc : isSpace c = false) (cs : List Char) :
    ∃ t, trimChars (c :: cs) = c :: t := by
  rw [trimChars, dropWhile_cons_of_neg (by simp [hc])]
  obtain ⟨t, ht⟩ := rdropWhile_prefix isSpace (c :: cs)
  cases hr : (c :: cs).rdropWhile isSpace with
  | nil =>
    have hspace := rdropWhile_eq_nil_iff.mp hr c mem_cons_self
    rw [hc] at hspace
    cases hspace
  | cons d r =>
    rw [hr, cons_append] at ht
    exact ⟨r, by rw [(cons.inj ht).1]⟩

theorem judgeLine_bareDone {line : String} (h : hasPrefix line "[DONE]" = true) :
    ∃ payload, judgeLine line = .data payload := by
  obtain ⟨rest, rfl⟩ := eq_append_of_hasPrefix h
  have hsize : ¬ ("[DONE]" ++ rest).utf8ByteSize < 6 := by
    rw [String.utf8ByteSize_append]
    have : "[DONE]".utf8ByteSize = 6 := rfl
    omega
  -- what is left begins with the bracket
  have hfive : (afterFive ("[DONE]" ++ rest)).toList = ']' :: rest.toList := by
    simp [afterFive]
  obtain ⟨t, ht⟩ := trimChars_cons (c := ']') (by decide) rest.toList
  have hdata : trimSpace (afterFive ("[DONE]" ++ rest)) = String.ofList (']' :: t) := by
    rw [trimSpace, hfive, ht]
  have hempty : String.ofList (']' :: t) ≠ "" := by simp
  have hdone : hasPrefix (String.ofList (']' :: t)) "[DONE]" = false := by simp [hasPrefix]
  refine ⟨String.ofList (']' :: t), ?_⟩
  rw [judgeLine, if_neg hsize, if_neg (by simp [h]), judgePayload, hdata, if_neg hempty, hdone]
  rfl

theorem judgeLine_eq_lineMeaning {line : String}
    (h : hasPrefix line "data:" = false → hasPrefix line "[DONE]" = false) :
    judgeLine line = lineMeaning line := by
  unfold judgeLine lineMeaning
  cases hdata : hasPrefix line "data:" with
  | false => simp [h hdata]
  | true =>
    obtain ⟨rest, rfl⟩ := eq_append_of_hasPrefix hdata
    by_cases hsize : ("data:" ++ rest).utf8ByteSize < 6
    · have hrest : rest = "" := by
        rw [String.utf8ByteSize_append] at hsize
        have : "data:".utf8ByteSize = 5 := rfl
        exact String.utf8ByteSize_eq_zero_iff.mp (by omega)
      subst hrest
      rfl
    · rw [if_neg hsize, if_neg (by simp), if_pos rfl]

/-- **The scanner passes on what the lines mean**, exactly if it reads no bare `[DONE]` line. -/
theorem payloads_eq_iff (lines : List String) :
    payloads lines = payloadsBy lineMeaning lines ↔ NoBareDone lines := by
  induction lines with
  | nil => simp [payloads, payloadsBy, NoBareDone]
  | cons line lines ih =>
    by_cases hline : hasPrefix line "data:" = false → hasPrefix line "[DONE]" = false
    · have hjudge := judgeLine_eq_lineMeaning hline
      have hcons : judgeLine line ≠ .done → (NoBareDone (line :: lines) ↔ NoBareDone lines) := by
        intro hne
        rw [NoBareDone, takeWhile_cons_of_pos (by simpa using hne), forall_mem_cons,
          and_iff_right hline, NoBareDone]
      rw [payloads, payloadsBy, payloadsBy, ← hjudge]
      cases hj : judgeLine line with
      | skip => exact ih.trans (hcons (by simp [hj])).symm
      | data payload => simpa using ih.trans (hcons (by simp [hj])).symm
      | done => simp [NoBareDone, hj]
    · obtain ⟨hdata, hdone⟩ := Classical.not_imp.mp hline
      obtain ⟨payload, hpayload⟩ := judgeLine_bareDone (by simpa using hdone)
      have hmeaning : lineMeaning line = .done := by
        rw [lineMeaning, hdata, if_neg Bool.false_ne_true, if_pos (by simpa using hdone)]
      have hbad : ¬ NoBareDone (line :: lines) := fun h => hline (h line (by simp [hpayload]))
      simp [payloadsBy, hpayload, hmeaning, hbad]

/-- **What is delivered**: if no bare `[DONE]` line is read, the payloads of the lines, each once
and in order, when main returns, whatever the schedule; and main can return from every state. -/
theorem delivers_payloads (pingEnabled : Bool) (lines : List String) (hlines : NoBareDone lines)
    (events : List DeliveryEvent) :
    let s := run Delivery.step (.start pingEnabled lines) events
    (s.main = .returned → s.handled = payloadsBy lineMeaning lines) ∧
      ∃ more, (run Delivery.step s more).main = .returned := by
  intro s
  have hinv : s.Inv (payloads lines) := Delivery.inv_run pingEnabled lines events
  refine ⟨fun hreturned => ?_, hinv.returns⟩
  rw [← (payloads_eq_iff lines).mpr hlines]
  exact hinv.handled_of_returned hreturned

def passAll (n : Nat) : List DeliveryEvent :=
  (List.replicate n [.scannerRead, .scannerCheck, .scannerPush, .handlerTake,
    .handlerReturn]).flatten ++
    [.scannerRead, .scannerExit, .handlerEnd, .mainStop, .mainSend, .mainReturn]

theorem delivers_payloads_sample :
    let s := run Delivery.step (.start false ["data: a", "", "data: [DONE]"]) (passAll 3)
    NoBareDone ["data: a", "", "data: [DONE]"] ∧ s.main = .returned ∧ s.handled = ["a"] := by
  have hlines : NoBareDone ["data: a", "", "data: [DONE]"] := by
    unfold NoBareDone
    decide +kernel
  have hmain : (run Delivery.step (.start false ["data: a", "", "data: [DONE]"])
      (passAll 3)).main = .returned := by decide +kernel
  exact ⟨hlines, hmain, (delivers_payloads false _ hlines (passAll 3)).1 hmain⟩

/-- **A bare `[DONE]` line is delivered as a payload**, and the lines after it are. -/
theorem delivers_after_bareDone :
    let lines := ["data: a", "[DONE]", "data: b"]
    let s := run Delivery.step (.start false lines) (passAll 3)
    payloadsBy lineMeaning lines = ["a"] ∧ s.main = .returned ∧ s.handled = ["a", "]", "b"] := by
  decide +kernel

end NomoApi
