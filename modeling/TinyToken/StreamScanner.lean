import TinyToken.EnabledSteps
import TinyToken.GoText

/-! `StreamScannerHandler`: a scanner reads the upstream lines and hands their payloads over a
bounded channel to a goroutine that calls the data handler, while the caller waits on the stop
channel and pings may go to the client. Reading does not fail, nothing times out, the client stays
and the handler does not stop the stream. -/
namespace StreamScanner

open EnabledSteps
open Option (ite_none_right_eq_some map_eq_some_iff isSome_iff_exists bind_eq_some_iff)
open GoText (byteLength hasLead trimSpace)

inductive EndReason where
  | done | eof
  deriving DecidableEq

inductive Verdict where
  | skip
  | data (data : String)
  | done

/-- What stands after the first five bytes, which are ASCII wherever this is read. -/
def rest (line : String) : String := trimSpace (String.ofList (line.toList.drop 5))

def classify (line : String) : Verdict :=
  if byteLength line < 6 then .skip
  else if hasLead line "data:" = false ∧ hasLead line "[DONE]" = false then .skip
  else if rest line = "" then .skip
  else if hasLead (rest line) "[DONE]" = false then .data (rest line)
  else .done

def outcome : List String → List String × EndReason
  | [] => ([], .eof)
  | line :: lines =>
    match classify line with
    | .skip => outcome lines
    | .data data => (data :: (outcome lines).1, (outcome lines).2)
    | .done => ([], .done)

inductive Scanner where
  | reading
  | offering (data : String)
  | closing
  | signalling
  | exited
  deriving DecidableEq

inductive Handler where
  | ranging | signalling | exited
  deriving DecidableEq

inductive Caller where
  | waiting | woken | cleaning | returned
  deriving DecidableEq

structure State where
  lines : List String
  scanner : Scanner
  dataChan : List String
  /-- Whether `dataChan` is closed. -/
  closed : Bool
  handled : List String
  handler : Handler
  caller : Caller
  pinging : Bool
  /-- The number of messages in `stopChan`, which the caller closes when it returns. -/
  stopChan : ℕ
  cancelled : Bool
  endReason : Option EndReason
  receivedResponseCount : ℕ
  deriving DecidableEq

def start (pingEnabled : Bool) (lines : List String) : State where
  lines
  scanner := .reading
  dataChan := []
  closed := false
  handled := []
  handler := .ranging
  caller := .waiting
  pinging := pingEnabled
  stopChan := 0
  cancelled := false
  endReason := none
  receivedResponseCount := 0

def State.setEndReason (s : State) (reason : EndReason) : State :=
  { s with endReason := s.endReason <|> some reason }

/-- `SafeSendBool`, which waits for room and does nothing when the channel is closed. -/
def State.signal (s : State) : Option State :=
  if s.caller = .returned then some s
  else if s.stopChan < 3 then some { s with stopChan := s.stopChan + 1 }
  else none

def State.scan (s : State) : Option State :=
  match s.scanner, s.lines with
  | .reading, [] => some { s.setEndReason .eof with scanner := .closing }
  | .reading, line :: lines =>
    -- a stop is seen before the line
    if s.stopChan > 0 ∨ s.cancelled then none
    else
      match classify line with
      | .skip => some { s with lines }
      | .data data => some
          { s with
            lines
            scanner := .offering data
            receivedResponseCount := s.receivedResponseCount + 1 }
      | .done => some { s.setEndReason .done with lines, scanner := .closing }
  | _, _ => none

def State.offer (s : State) : Option State :=
  match s.scanner with
  | .offering data =>
    if s.dataChan.length < 10 then
      some { s with dataChan := s.dataChan ++ [data], scanner := .reading }
    else none
  | _ => none

def State.abandon (s : State) : Option State :=
  match s.scanner, s.lines with
  | .reading, _ :: lines => some { s with lines, scanner := .closing }
  | .offering _, _ => some { s with scanner := .closing }
  | _, _ => none

def State.takeStop (s : State) : Option State :=
  if s.stopChan > 0 then some { s with stopChan := s.stopChan - 1 } else none

inductive Action where
  | scan | offer | scannerStop | scannerCancel | closeData | scannerSignal
  | handle | handlerEnd | handlerSignal
  | wake | clean | giveBack
  | pingStop | pingCancel

def step (action : Action) (s : State) : Option State :=
  match action with
  | .scan => s.scan
  | .offer => s.offer
  | .scannerStop => s.takeStop.bind State.abandon
  | .scannerCancel => if s.cancelled then s.abandon else none
  | .closeData =>
    if s.scanner = .closing then some { s with closed := true, scanner := .signalling } else none
  | .scannerSignal =>
    if s.scanner = .signalling then s.signal.map fun s => { s with scanner := .exited } else none
  | .handle =>
    match s.handler, s.dataChan with
    | .ranging, data :: dataChan => some { s with dataChan, handled := s.handled ++ [data] }
    | _, _ => none
  | .handlerEnd =>
    if s.handler = .ranging ∧ s.dataChan = [] ∧ s.closed then
      some { s with handler := .signalling }
    else none
  | .handlerSignal =>
    if s.handler = .signalling then s.signal.map fun s => { s with handler := .exited } else none
  | .wake =>
    if s.caller = .waiting then
      s.takeStop.map fun s => { s with caller := .woken, cancelled := true }
    else none
  | .clean =>
    if s.caller = .woken then s.signal.map fun s => { s with caller := .cleaning } else none
  -- after the goroutines or after five seconds
  | .giveBack => if s.caller = .cleaning then some { s with caller := .returned } else none
  | .pingStop =>
    if s.pinging then s.takeStop.map fun s => { s with pinging := false } else none
  | .pingCancel =>
    if s.pinging ∧ s.cancelled then some { s with pinging := false } else none

def State.Finished (s : State) : Prop := s.scanner = .exited ∧ s.handler = .exited

instance (s : State) : Decidable s.Finished := inferInstanceAs (Decidable (_ ∧ _))

def State.promised (s : State) : List String × Option EndReason :=
  match s.scanner with
  | .reading => (s.handled ++ s.dataChan ++ (outcome s.lines).1, s.endReason <|> some (outcome s.lines).2)
  | .offering data =>
    (s.handled ++ s.dataChan ++ data :: (outcome s.lines).1, s.endReason <|> some (outcome s.lines).2)
  | _ => (s.handled ++ s.dataChan, s.endReason)

/-- The messages that have been sent to `stopChan`. -/
def State.signals (s : State) : ℕ :=
  (if s.scanner = .exited then 1 else 0) + (if s.handler = .exited then 1 else 0) +
    (if s.caller = .cleaning ∨ s.caller = .returned then 1 else 0)

structure Sound (lines : List String) (s : State) : Prop where
  promise : s.promised = ((outcome lines).1, some (outcome lines).2)
  quiet : s.closed = false →
    s.stopChan = 0 ∧ s.cancelled = false ∧ s.handler = .ranging ∧ s.caller = .waiting
  closing : s.closed = true ↔ s.scanner = .signalling ∨ s.scanner = .exited
  drained : s.handler ≠ .ranging → s.dataChan = []
  room : s.stopChan ≤ s.signals

theorem sound_start (pingEnabled : Bool) (lines : List String) :
    Sound lines (start pingEnabled lines) := by
  constructor <;> simp [start, State.promised]

theorem Sound.open_of_scanner {lines : List String} {s : State} (h : Sound lines s)
    (hscanner : s.scanner ≠ .signalling ∧ s.scanner ≠ .exited) : s.closed = false := by
  rw [← Bool.not_eq_true, h.closing]
  exact not_or.mpr hscanner

theorem ite_map_eq_some {α β : Type} {p : Prop} [Decidable p] {a : Option α} {f : α → β} {b : β}
    (h : (if p then a.map f else none) = some b) : p ∧ ∃ u, a = some u ∧ f u = b := by
  obtain ⟨hp, h⟩ := ite_none_right_eq_some.mp h
  exact ⟨hp, map_eq_some_iff.mp h⟩

section Steps

variable {lines : List String} {s t : State}

theorem abandon_scanner (hstep : s.abandon = some t) :
    s.scanner ≠ .signalling ∧ s.scanner ≠ .exited := by
  rw [State.abandon] at hstep
  split at hstep
  next hreading _ =>
    simp [hreading]
  next hoffering =>
    simp [hoffering]
  · cases hstep

theorem takeStop_eq_some (hstep : s.takeStop = some t) :
    s.stopChan > 0 ∧ t = { s with stopChan := s.stopChan - 1 } := by
  obtain ⟨hstop, ⟨⟩⟩ := ite_none_right_eq_some.mp hstep
  exact ⟨hstop, rfl⟩

theorem signal_eq_some (hstep : s.signal = some t) :
    t = s ∨ t = { s with stopChan := s.stopChan + 1 } := by
  rw [State.signal] at hstep
  split at hstep
  · cases hstep
    exact .inl rfl
  · split at hstep
    · cases hstep
      exact .inr rfl
    · cases hstep

theorem promised_late (hs : s.scanner = .closing ∨ s.scanner = .signalling ∨ s.scanner = .exited) :
    s.promised = (s.handled ++ s.dataChan, s.endReason) := by
  rcases hs with hs | hs | hs <;> simp [State.promised, hs]

section

variable (h : Sound lines s)
include h

theorem sound_early (hopen : s.closed = false) (hclosed : t.closed = s.closed)
    (hstop : t.stopChan = s.stopChan) (hcancelled : t.cancelled = s.cancelled)
    (hhandler : t.handler = s.handler) (hcaller : t.caller = s.caller)
    (hscanner : t.scanner ≠ .signalling ∧ t.scanner ≠ .exited)
    (hpromise : t.promised = s.promised) :
    Sound lines t := by
  obtain ⟨hzero, hrunning, hranging, hwaiting⟩ := h.quiet hopen
  constructor
  case promise => rw [hpromise, h.promise]
  case quiet =>
    intro _
    rw [hstop, hcancelled, hhandler, hcaller]
    exact ⟨hzero, hrunning, hranging, hwaiting⟩
  case closing =>
    rw [hclosed, hopen]
    exact ⟨fun he => absurd he (by simp), fun he => (not_or.mpr hscanner he).elim⟩
  case drained =>
    intro hne
    exact absurd (hhandler.trans hranging) hne
  case room =>
    rw [hstop, hzero]
    exact Nat.zero_le _

theorem sound_late (hclosed : s.closed = true) (hstill : t.closed = s.closed)
    (hscanner : t.scanner = .signalling ∨ t.scanner = .exited) (hpromise : t.promised = s.promised)
    (hdrained : t.handler ≠ .ranging → t.dataChan = []) (hroom : t.stopChan ≤ t.signals) :
    Sound lines t := by
  constructor
  case promise => rw [hpromise, h.promise]
  case quiet =>
    intro hopen
    rw [hstill, hclosed] at hopen
    cases hopen
  case closing =>
    rw [hstill, hclosed]
    exact ⟨fun _ => hscanner, fun _ => rfl⟩
  case drained => exact hdrained
  case room => exact hroom

theorem sound_scan (hstep : s.scan = some t) : Sound lines t := by
  rw [State.scan] at hstep
  split at hstep
  next hreading hlines =>
    have hopen := h.open_of_scanner (by simp [hreading])
    cases hstep
    refine sound_early h hopen rfl rfl rfl rfl rfl (by simp) ?_
    simp [State.promised, State.setEndReason, hreading, hlines, outcome]
  next line later hreading hlines =>
    have hopen := h.open_of_scanner (by simp [hreading])
    split at hstep
    · cases hstep
    · split at hstep
      next hverdict =>
        cases hstep
        refine sound_early h hopen rfl rfl rfl rfl rfl (by simp [hreading]) ?_
        simp [State.promised, hreading, hlines, outcome, hverdict]
      next data hverdict =>
        cases hstep
        refine sound_early h hopen rfl rfl rfl rfl rfl (by simp) ?_
        simp [State.promised, hreading, hlines, outcome, hverdict]
      next hverdict =>
        cases hstep
        refine sound_early h hopen rfl rfl rfl rfl rfl (by simp) ?_
        simp [State.promised, State.setEndReason, hreading, hlines, outcome, hverdict]
  · cases hstep

theorem sound_offer (hstep : s.offer = some t) : Sound lines t := by
  rw [State.offer] at hstep
  split at hstep
  next data hoffering =>
    have hopen := h.open_of_scanner (by simp [hoffering])
    split at hstep
    · cases hstep
      refine sound_early h hopen rfl rfl rfl rfl rfl (by simp) ?_
      simp [State.promised, hoffering]
    · cases hstep
  · cases hstep

theorem closed_of_stop (hstop : s.stopChan > 0) : s.closed = true := by
  by_contra hopen
  have hzero := (h.quiet (Bool.eq_false_iff.mpr hopen)).1
  omega

theorem closed_of_cancelled (hcancelled : s.cancelled = true) :
    s.closed = true := by
  by_contra hopen
  rw [(h.quiet (Bool.eq_false_iff.mpr hopen)).2.1] at hcancelled
  cases hcancelled

theorem sound_scannerSignal (hstep : step .scannerSignal s = some t) : Sound lines t := by
  obtain ⟨hsignalling, u, hu, rfl⟩ := ite_map_eq_some hstep
  have hclosed := h.closing.mpr (.inl hsignalling)
  have hroom := h.room
  have hpromise := promised_late (.inr (.inl hsignalling))
  simp only [State.signals, hsignalling, reduceCtorEq, if_false] at hroom
  rcases signal_eq_some hu with rfl | rfl
  all_goals
    refine sound_late h hclosed rfl (.inr rfl) (by rw [hpromise]; rfl) h.drained ?_
    simp only [State.signals, if_true]
    omega

theorem sound_handlerSignal (hstep : step .handlerSignal s = some t) : Sound lines t := by
  obtain ⟨hsignalling, u, hu, rfl⟩ := ite_map_eq_some hstep
  have hclosed : s.closed = true := by
    by_contra hopen
    have hranging := (h.quiet (Bool.eq_false_iff.mpr hopen)).2.2.1
    rw [hsignalling] at hranging
    cases hranging
  have hscanner := h.closing.mp hclosed
  have hempty := h.drained (by simp [hsignalling])
  have hroom := h.room
  simp only [State.signals, hsignalling, reduceCtorEq, if_false] at hroom
  rcases signal_eq_some hu with rfl | rfl
  all_goals
    refine sound_late h hclosed rfl hscanner rfl (fun _ => hempty) ?_
    simp only [State.signals, if_true]
    omega

theorem sound_handle (hstep : step .handle s = some t) : Sound lines t := by
  simp only [step] at hstep
  split at hstep
  next data dataChan hranging hdata =>
    cases hstep
    constructor
    case promise =>
      rw [← h.promise]
      cases hscanner : s.scanner <;> simp [State.promised, hscanner, hdata]
    case quiet => exact h.quiet
    case closing => exact h.closing
    case drained =>
      intro hne
      exact absurd hranging hne
    case room => exact h.room
  · cases hstep

theorem sound_wake (hstep : step .wake s = some t) : Sound lines t := by
  obtain ⟨hwaiting, u, hu, rfl⟩ := ite_map_eq_some hstep
  obtain ⟨hstop, rfl⟩ := takeStop_eq_some hu
  have hclosed := closed_of_stop h hstop
  have hroom := h.room
  refine sound_late h hclosed rfl (h.closing.mp hclosed) rfl h.drained ?_
  simp only [State.signals, hwaiting, reduceCtorEq, or_self, if_false] at hroom ⊢
  omega

theorem sound_clean (hstep : step .clean s = some t) : Sound lines t := by
  obtain ⟨hwoken, u, hu, rfl⟩ := ite_map_eq_some hstep
  have hclosed : s.closed = true := by
    by_contra hopen
    have hwaiting := (h.quiet (Bool.eq_false_iff.mpr hopen)).2.2.2
    rw [hwoken] at hwaiting
    cases hwaiting
  have hroom := h.room
  simp only [State.signals, hwoken, reduceCtorEq, or_self, if_false] at hroom
  rcases signal_eq_some hu with rfl | rfl
  all_goals
    refine sound_late h hclosed rfl (h.closing.mp hclosed) rfl h.drained ?_
    simp only [State.signals, true_or, if_true]
    omega

end

theorem sound_step (action : Action) (s t : State) (h : Sound lines s) (hstep : step action s = some t) :
    Sound lines t := by
  cases action with
  | scan => exact sound_scan h hstep
  | offer => exact sound_offer h hstep
  | scannerStop =>
    -- before the channel is closed there is no stop to see
    obtain ⟨u, hu, habandon⟩ := bind_eq_some_iff.mp hstep
    obtain ⟨hstop, rfl⟩ := takeStop_eq_some hu
    have hscanner := abandon_scanner habandon
    have hopen := h.open_of_scanner hscanner
    rw [closed_of_stop h hstop] at hopen
    cases hopen
  | scannerCancel =>
    obtain ⟨hcancelled, hstep⟩ := ite_none_right_eq_some.mp hstep
    have hopen := h.open_of_scanner (abandon_scanner hstep)
    rw [closed_of_cancelled h hcancelled] at hopen
    cases hopen
  | closeData =>
    obtain ⟨hclosing, ⟨⟩⟩ := ite_none_right_eq_some.mp hstep
    have hquiet := h.quiet (h.open_of_scanner (by simp [hclosing]))
    constructor
    case promise =>
      rw [← h.promise, promised_late (.inl hclosing)]
      rfl
    case quiet => simp
    case closing => simp
    case drained => exact h.drained
    case room =>
      rw [hquiet.1]
      exact Nat.zero_le _
  | scannerSignal => exact sound_scannerSignal h hstep
  | handle => exact sound_handle h hstep
  | handlerEnd =>
    obtain ⟨hend, ⟨⟩⟩ := ite_none_right_eq_some.mp hstep
    have hroom := h.room
    refine sound_late h hend.2.2 rfl (h.closing.mp hend.2.2) rfl (fun _ => hend.2.1) ?_
    simpa only [State.signals, hend.1, reduceCtorEq, if_false] using hroom
  | handlerSignal => exact sound_handlerSignal h hstep
  | wake => exact sound_wake h hstep
  | clean => exact sound_clean h hstep
  | giveBack =>
    obtain ⟨hcleaning, ⟨⟩⟩ := ite_none_right_eq_some.mp hstep
    have hclosed : s.closed = true := by
      by_contra hopen
      have hwaiting := (h.quiet (Bool.eq_false_iff.mpr hopen)).2.2.2
      rw [hcleaning] at hwaiting
      cases hwaiting
    refine sound_late h hclosed rfl (h.closing.mp hclosed) rfl h.drained ?_
    simpa only [State.signals, hcleaning, true_or, or_true, if_true] using h.room
  | pingStop =>
    obtain ⟨-, u, hu, rfl⟩ := ite_map_eq_some hstep
    obtain ⟨hstop, rfl⟩ := takeStop_eq_some hu
    have hclosed := closed_of_stop h hstop
    refine sound_late h hclosed rfl (h.closing.mp hclosed) rfl h.drained ?_
    exact (Nat.sub_le _ _).trans h.room
  | pingCancel =>
    obtain ⟨hping, ⟨⟩⟩ := ite_none_right_eq_some.mp hstep
    have hclosed := closed_of_cancelled h hping.2
    exact sound_late h hclosed rfl (h.closing.mp hclosed) rfl h.drained h.room

theorem signal_of_room (h : Sound lines s) (hless : s.signals < 3) : ∃ t, s.signal = some t := by
  have hroom := h.room
  rw [State.signal]
  split
  · exact ⟨_, rfl⟩
  · rw [if_pos (by omega)]
    exact ⟨_, rfl⟩

theorem moves (action : Action) {s : State} (h : (step action s).isSome) :
    ∃ action t, step action s = some t := ⟨action, isSome_iff_exists.mp h⟩

theorem can_move (s : State) (h : Sound lines s) (hrunning : ¬ s.Finished) :
    ∃ action t, step action s = some t := by
  cases hscanner : s.scanner with
  | reading =>
    obtain ⟨hzero, hcancelled, -, -⟩ := h.quiet (h.open_of_scanner (by simp [hscanner]))
    cases hlines : s.lines with
    | nil => exact moves .scan (by simp [step, State.scan, hscanner, hlines])
    | cons line later =>
      cases hverdict : classify line <;>
        exact moves .scan (by simp [step, State.scan, hscanner, hlines, hzero, hcancelled, hverdict])
  | offering data =>
    obtain ⟨-, -, hranging, -⟩ := h.quiet (h.open_of_scanner (by simp [hscanner]))
    by_cases hfull : s.dataChan.length < 10
    · exact moves .offer (by simp [step, State.offer, hscanner, hfull])
    · cases hdata : s.dataChan with
      | nil => simp [hdata] at hfull
      | cons next waiting => exact moves .handle (by simp [step, hranging, hdata])
  | closing => exact moves .closeData (by simp [step, hscanner])
  | signalling =>
    have hless : s.signals < 3 := by
      simp only [State.signals, hscanner, reduceCtorEq, if_false]
      split <;> split <;> omega
    obtain ⟨t, ht⟩ := signal_of_room h hless
    exact moves .scannerSignal (by simp [step, hscanner, ht])
  | exited =>
    have hclosed := h.closing.mpr (.inr hscanner)
    cases hhandler : s.handler with
    | ranging =>
      cases hdata : s.dataChan with
      | nil => exact moves .handlerEnd (by simp [step, hhandler, hdata, hclosed])
      | cons next waiting => exact moves .handle (by simp [step, hhandler, hdata])
    | signalling =>
      have hless : s.signals < 3 := by
        simp only [State.signals, hhandler, reduceCtorEq, if_false]
        split <;> split <;> omega
      obtain ⟨t, ht⟩ := signal_of_room h hless
      exact moves .handlerSignal (by simp [step, hhandler, ht])
    | exited => exact absurd ⟨hscanner, hhandler⟩ hrunning

end Steps

def Scanner.work : Scanner → ℕ
  | .reading => 3
  | .offering _ => 5
  | .closing => 2
  | .signalling => 1
  | .exited => 0

def Handler.work : Handler → ℕ
  | .ranging => 2
  | .signalling => 1
  | .exited => 0

def Caller.work : Caller → ℕ
  | .waiting => 3
  | .woken => 2
  | .cleaning => 1
  | .returned => 0

def State.work (s : State) : ℕ :=
  4 * s.lines.length + s.dataChan.length + s.scanner.work + s.handler.work + s.caller.work +
    s.pinging.toNat

section Work

variable {s t : State}

theorem work_scan (hstep : s.scan = some t) : t.work < s.work := by
  rw [State.scan] at hstep
  split at hstep
  next hreading hlines =>
    cases hstep
    simp [State.work, State.setEndReason, hreading, Scanner.work]
  next line later hreading hlines =>
    split at hstep
    · cases hstep
    · split at hstep <;> cases hstep <;>
        simp [State.work, State.setEndReason, hreading, hlines, Scanner.work]
      all_goals omega
  · cases hstep

theorem work_offer (hstep : s.offer = some t) : t.work < s.work := by
  rw [State.offer] at hstep
  split at hstep
  next data hoffering =>
    split at hstep
    · cases hstep
      simp [State.work, hoffering, Scanner.work]
      omega
    · cases hstep
  · cases hstep

theorem work_abandon (hstep : s.abandon = some t) : t.work < s.work := by
  rw [State.abandon] at hstep
  split at hstep
  next hreading hlines =>
    cases hstep
    simp only [State.work, hreading, hlines, Scanner.work, List.length_cons]
    omega
  next hoffering =>
    cases hstep
    simp [State.work, hoffering, Scanner.work]
  · cases hstep

theorem work_step (action : Action) (s t : State) (hstep : step action s = some t) :
    t.work < s.work := by
  cases action with
  | scan => exact work_scan hstep
  | offer => exact work_offer hstep
  | scannerStop =>
    obtain ⟨u, hu, habandon⟩ := bind_eq_some_iff.mp hstep
    obtain ⟨-, rfl⟩ := takeStop_eq_some hu
    have hless := work_abandon habandon
    exact hless
  | scannerCancel =>
    obtain ⟨-, hstep⟩ := ite_none_right_eq_some.mp hstep
    exact work_abandon hstep
  | closeData =>
    obtain ⟨hclosing, ⟨⟩⟩ := ite_none_right_eq_some.mp hstep
    simp [State.work, hclosing, Scanner.work]
  | scannerSignal =>
    obtain ⟨hsignalling, u, hu, rfl⟩ := ite_map_eq_some hstep
    rcases signal_eq_some hu with rfl | rfl <;> simp [State.work, hsignalling, Scanner.work]
  | handle =>
    simp only [step] at hstep
    split at hstep
    next hranging hdata =>
      cases hstep
      simp [State.work, hdata]
    · cases hstep
  | handlerEnd =>
    obtain ⟨hend, ⟨⟩⟩ := ite_none_right_eq_some.mp hstep
    simp [State.work, hend.1, Handler.work]
  | handlerSignal =>
    obtain ⟨hsignalling, u, hu, rfl⟩ := ite_map_eq_some hstep
    rcases signal_eq_some hu with rfl | rfl <;> simp [State.work, hsignalling, Handler.work]
  | wake =>
    obtain ⟨hwaiting, u, hu, rfl⟩ := ite_map_eq_some hstep
    obtain ⟨-, rfl⟩ := takeStop_eq_some hu
    simp [State.work, hwaiting, Caller.work]
  | clean =>
    obtain ⟨hwoken, u, hu, rfl⟩ := ite_map_eq_some hstep
    rcases signal_eq_some hu with rfl | rfl <;> simp [State.work, hwoken, Caller.work]
  | giveBack =>
    obtain ⟨hcleaning, ⟨⟩⟩ := ite_none_right_eq_some.mp hstep
    simp [State.work, hcleaning, Caller.work]
  | pingStop =>
    obtain ⟨hping, u, hu, rfl⟩ := ite_map_eq_some hstep
    obtain ⟨-, rfl⟩ := takeStop_eq_some hu
    simp [State.work, hping]
  | pingCancel =>
    obtain ⟨hping, ⟨⟩⟩ := ite_none_right_eq_some.mp hstep
    simp [State.work, hping.1]

end Work

theorem finished_outcome {pingEnabled : Bool} {lines : List String} {s : State}
    (hreach : Reachable step (start pingEnabled lines) s) (hfinished : s.Finished) :
    s.handled = (outcome lines).1 ∧ s.endReason = some (outcome lines).2 := by
  have h : Sound lines s := hreach.invariant sound_step (sound_start pingEnabled lines)
  have hempty : s.dataChan = [] := h.drained (by simp [hfinished.2])
  have hpromise := h.promise
  rw [promised_late (.inr (.inr hfinished.1)), hempty, List.append_nil] at hpromise
  exact Prod.mk.inj hpromise

end StreamScanner
