import TinyToken.ResponsesStream

/-! What the handler of a Responses stream sends besides tool calls: the text of the deltas and one
finish reason, at the response or at the end. -/
namespace ResponsesStream

open ChatChunks (joined)
open List String Bool
open EmittingMachines

def textDelta : Event → String
  | .outputTextDelta _ _ delta => delta
  | _ => ""

def streamText (events : List Event) : String := joined (events.map textDelta)

def isCompleted : Event → Bool
  | .completed _ => true
  | _ => false

def isFailed : Event → Bool
  | .failed .. => true
  | _ => false

section Sending

variable (responseId : String)

theorem sendStartIfNeeded_state (s : State) :
    (sendStartIfNeeded responseId s).2 = { s with sentStart := true } := by
  rw [sendStartIfNeeded]
  split
  next hsent =>
    rw [← hsent]
  · rfl

theorem sendStopIfNeeded_state (s : State) :
    (sendStopIfNeeded responseId s).2 = { s with sentStop := true } := by
  rw [sendStopIfNeeded]
  split
  next hsent =>
    rw [← hsent]
  · rfl

theorem sendStartIfNeeded_sent (s : State) : textOf (sendStartIfNeeded responseId s).1 = "" ∧
      fragmentsOf (sendStartIfNeeded responseId s).1 = [] ∧
      finishesOf (sendStartIfNeeded responseId s).1 = [] := by
  rw [sendStartIfNeeded]
  split <;> exact ⟨rfl, rfl, rfl⟩

variable (g : Step) (s : State)

@[simp] theorem textOf_start_then :
    textOf (andThen (sendStartIfNeeded responseId) g s).1 = textOf (g { s with sentStart := true }).1 := by
  rw [andThen, textOf_append, (sendStartIfNeeded_sent responseId s).1, sendStartIfNeeded_state,
    empty_append]

@[simp] theorem fragmentsOf_start_then :
    fragmentsOf (andThen (sendStartIfNeeded responseId) g s).1 =
      fragmentsOf (g { s with sentStart := true }).1 := by
  rw [andThen, fragmentsOf_append, (sendStartIfNeeded_sent responseId s).2.1,
    sendStartIfNeeded_state, nil_append]

@[simp] theorem finishesOf_start_then : finishesOf (andThen (sendStartIfNeeded responseId) g s).1 =
      finishesOf (g { s with sentStart := true }).1 := by
  rw [andThen, finishesOf_append, (sendStartIfNeeded_sent responseId s).2.2,
    sendStartIfNeeded_state, nil_append]

@[simp] theorem state_start_then :
    (andThen (sendStartIfNeeded responseId) g s).2 = (g { s with sentStart := true }).2 := by
  rw [andThen, sendStartIfNeeded_state]

theorem sendToolCallDelta_sent (callID name argsDelta : String) :
    textOf (sendToolCallDelta responseId callID name argsDelta s).1 = "" ∧
      finishesOf (sendToolCallDelta responseId callID name argsDelta s).1 = [] := by
  rw [sendToolCallDelta]
  split
  · exact ⟨rfl, rfl⟩
  · split
    · exact ⟨rfl, rfl⟩
    · simp only [textOf_start_then, finishesOf_start_then]
      exact ⟨rfl, rfl⟩

theorem sendToolCallDelta_state (callID name argsDelta : String) :
    let s' := (sendToolCallDelta responseId callID name argsDelta s).2
    s'.outputText = s.outputText ∧ s'.sentStop = s.sentStop ∧ s'.streamErr = s.streamErr := by
  simp only [sendToolCallDelta]
  split
  · exact ⟨rfl, rfl, rfl⟩
  · split
    · exact ⟨rfl, rfl, rfl⟩
    · simp only [state_start_then]
      exact ⟨rfl, rfl, rfl⟩

theorem handleCompleted_spec (response : Option Response) :
    let after := handleCompleted responseId response s
    textOf after.1 = "" ∧ fragmentsOf after.1 = [] ∧
      finishesOf after.1 = (if s.sentStop then [] else [s.finishReason]) ∧
      after.2.outputText = s.outputText ∧ after.2.sentStop = true ∧ after.2.streamErr = s.streamErr := by
  simp only [handleCompleted, textOf_start_then, fragmentsOf_start_then, finishesOf_start_then,
    state_start_then, sendStopIfNeeded]
  cases hstop : s.sentStop <;> cases response <;> simp [hstop, State.complete, State.describe] <;>
    exact ⟨rfl, rfl, rfl⟩

structure Sends (event : Event) (after : List Sent × State) : Prop where
  text : textOf after.1 = textDelta event
  finishes : finishesOf after.1 =
    if isCompleted event = true ∧ s.sentStop = false then [s.finishReason] else []
  outputText : after.2.outputText = s.outputText ++ textDelta event
  sentStop : after.2.sentStop = (s.sentStop || isCompleted event)
  running : isFailed event = false → after.2.streamErr = s.streamErr

theorem sends_nothing {event : Event} {s' : State} (hevent : isCompleted event = false)
    (htext : textDelta event = "") (houtput : s'.outputText = s.outputText)
    (hstop : s'.sentStop = s.sentStop)
    (hrunning : isFailed event = false → s'.streamErr = s.streamErr) : Sends s event ([], s') where
  text := htext.symm
  finishes := by simp [hevent, finishesOf, choicesOf]
  outputText := by rw [houtput, htext, append_empty]
  sentStop := by rw [hstop, hevent, Bool.or_false]
  running := hrunning

theorem sends_toolCallDelta {event : Event} {before : State} (callID name argsDelta : String)
    (hevent : isCompleted event = false) (htext : textDelta event = "")
    (houtput : before.outputText = s.outputText) (hstop : before.sentStop = s.sentStop)
    (hrunning : before.streamErr = s.streamErr) :
    Sends s event (sendToolCallDelta responseId callID name argsDelta before) where
  text := by rw [htext, (sendToolCallDelta_sent ..).1]
  finishes := by rw [(sendToolCallDelta_sent ..).2, hevent, if_neg (by simp)]
  outputText := by rw [(sendToolCallDelta_state ..).1, houtput, htext, append_empty]
  sentStop := by rw [(sendToolCallDelta_state ..).2.1, hstop, hevent, Bool.or_false]
  running := fun _ => by rw [(sendToolCallDelta_state ..).2.2, hrunning]

theorem sends_text (delta : String) (k j : ℕ) : Sends s (.outputTextDelta k j delta)
      (andThen (sendStartIfNeeded responseId) (sendText responseId delta) s) := by
  constructor
  case text =>
    rw [textOf_start_then, sendText]
    split
    · exact append_empty
    next hempty =>
      exact (not_not.mp hempty).symm
  case finishes =>
    rw [finishesOf_start_then, sendText]
    split <;> rfl
  case outputText =>
    rw [state_start_then, sendText]
    split
    · rfl
    next hempty =>
      rw [textDelta, not_not.mp hempty, append_empty]
  case sentStop =>
    rw [state_start_then, sendText]
    split <;> exact (Bool.or_false _).symm
  case running =>
    intro _
    rw [state_start_then, sendText]
    split <;> rfl

theorem sends_reasoning (delta : String) :
    Sends s (.reasoningSummaryTextDelta delta) (sendReasoningSummaryDelta responseId delta s) := by
  rw [sendReasoningSummaryDelta]
  split
  · exact sends_nothing s rfl rfl rfl rfl fun _ => rfl
  · constructor
    case text => rw [textOf_start_then]; rfl
    case finishes => rw [finishesOf_start_then]; rfl
    case outputText => rw [state_start_then]; exact append_empty.symm
    case sentStop => rw [state_start_then]; exact (Bool.or_false _).symm
    case running => intro _; rw [state_start_then]

theorem sends_completed (response : Option Response) :
    Sends s (.completed response) (handleCompleted responseId response s) := by
  obtain ⟨htext, -, hfinishes, houtput, hstop, hrunning⟩ := handleCompleted_spec responseId s response
  constructor
  case text => exact htext
  case finishes =>
    apply hfinishes.trans
    cases s.sentStop <;> simp [isCompleted]
  case outputText => exact houtput.trans append_empty.symm
  case sentStop => exact hstop.trans (Bool.or_true _).symm
  case running => exact fun _ => hrunning

theorem handleEvent_sends (event : Event) : Sends s event (handleEvent responseId event s) := by
  cases event with
  | created response => cases response <;> exact sends_nothing s rfl rfl rfl rfl fun _ => rfl
  | reasoningSummaryTextDelta delta => exact sends_reasoning responseId s delta
  | reasoningSummaryTextDone =>
    refine sends_nothing s rfl rfl ?_ ?_ fun _ => ?_ <;> split <;> rfl
  | outputTextDelta k j delta => exact sends_text responseId s delta k j
  | outputItem type k item =>
    cases item with
    | none => exact sends_nothing s rfl rfl rfl rfl fun _ => rfl
    | some item =>
      simp only [handleEvent]
      split
      · exact sends_toolCallDelta responseId s _ _ _ rfl rfl rfl rfl rfl
      · exact sends_nothing s rfl rfl rfl rfl fun _ => rfl
  | functionCallArgumentsDelta k itemID delta =>
    simp only [handleEvent, handleArguments]
    split
    · exact sends_nothing s rfl rfl rfl rfl fun _ => rfl
    · exact sends_toolCallDelta responseId s _ _ _ rfl rfl rfl rfl rfl
  | completed response => exact sends_completed responseId s response
  | failed => exact sends_nothing s rfl rfl rfl rfl fun hfailed => absurd hfailed (by simp [isFailed])
  | functionCallArgumentsDone | other | malformed =>
    exact sends_nothing s rfl rfl rfl rfl fun _ => rfl

variable {s}

theorem handle_sends (hrunning : s.streamErr = none) (event : Event) :
    Sends s event (handle responseId event s) := by
  rw [handle, hrunning]
  exact handleEvent_sends responseId s event

theorem fragmentsOf_sendToolCallDelta_text (htext : s.outputText ≠ "") (callID name argsDelta : String) :
    fragmentsOf (sendToolCallDelta responseId callID name argsDelta s).1 = [] := by
  rw [sendToolCallDelta, if_pos htext]
  split <;> rfl

theorem fragmentsOf_handle_text (htext : s.outputText ≠ "") (event : Event) :
    fragmentsOf (handle responseId event s).1 = [] := by
  rw [handle]
  split
  · rfl
  · cases event with
    | created response => cases response <;> rfl
    | reasoningSummaryTextDelta delta =>
      simp only [handleEvent, sendReasoningSummaryDelta]
      split
      · rfl
      · rw [fragmentsOf_start_then]
        rfl
    | outputTextDelta k j delta =>
      rw [handleEvent, fragmentsOf_start_then, sendText]
      split <;> rfl
    | outputItem type k item =>
      cases item with
      | none => rfl
      | some item =>
        simp only [handleEvent]
        split
        · refine fragmentsOf_sendToolCallDelta_text responseId ?_ _ _ _
          simpa only [State.noteCall] using htext
        · rfl
    | functionCallArgumentsDelta k itemID delta =>
      simp only [handleEvent, handleArguments]
      split
      · rfl
      · refine fragmentsOf_sendToolCallDelta_text responseId ?_ _ _ _
        simpa only [State.noteArguments] using htext
    | completed response => exact (handleCompleted_spec responseId s response).2.1
    | reasoningSummaryTextDone | failed | functionCallArgumentsDone | other | malformed => rfl

end Sending

section Runs

variable {responseId : String} {s : State}

theorem outputText_handle_ne (h : s.outputText ≠ "") (event : Event) :
    (handle responseId event s).2.outputText ≠ "" := by
  cases hrunning : s.streamErr with
  | none =>
    rw [(handle_sends responseId hrunning event).outputText]
    exact fun hempty => h (append_eq_empty_iff.mp hempty).1
  | some error =>
    rw [handle, hrunning]
    exact h

theorem run_after_text (h : s.outputText ≠ "") (events : List Event) :
    fragmentsOf (emitAll (handle responseId) events s).1 = [] := by
  induction events generalizing s with
  | nil => rfl
  | cons event rest ih =>
    rw [emitAll, andThen, fragmentsOf_append, fragmentsOf_handle_text responseId h,
      ih (outputText_handle_ne h event)]
    rfl

theorem finishReason_completed (response : Option Response) (hrunning : s.streamErr = none) :
    (handle responseId (.completed response) s).2.finishReason = s.finishReason := by
  rw [handle, hrunning]
  simp only [Option.isSome_none, false_eq_true, if_false, handleEvent, handleCompleted,
    state_start_then, sendStopIfNeeded_state]
  cases response <;> rfl

structure RunSends (s : State) (events : List Event) (run : List Sent × State) : Prop where
  text : textOf run.1 = streamText events
  outputText : run.2.outputText = s.outputText ++ streamText events
  running : run.2.streamErr = none
  finishes : s.sentStop = false → (∀ event ∈ events.dropLast, isCompleted event = false) →
    finishesOf run.1 ++ (if run.2.sentStop then [] else [run.2.finishReason]) = [run.2.finishReason]

theorem run_sends {events : List Event} (hrunning : s.streamErr = none)
    (hfailed : ∀ event ∈ events, isFailed event = false) :
    RunSends s events (emitAll (handle responseId) events s) := by
  induction events generalizing s with
  | nil =>
    constructor
    case text => rfl
    case outputText => exact append_empty.symm
    case running => exact hrunning
    case finishes =>
      intro hstop _
      simp [emitAll, emit, hstop, finishesOf, choicesOf]
  | cons event rest ih =>
    have hsends := handle_sends responseId hrunning event
    have hnext : (handle responseId event s).2.streamErr = none := by
      rw [hsends.running (hfailed event mem_cons_self), hrunning]
    have hrest := ih hnext fun later hlater => hfailed later (mem_cons_of_mem event hlater)
    constructor
    case text =>
      rw [emitAll, andThen, textOf_append, hsends.text, hrest.text]
      rfl
    case outputText =>
      rw [emitAll, andThen, hrest.outputText, hsends.outputText, String.append_assoc]
      rfl
    case running => exact hrest.running
    case finishes =>
      intro hstop hlast
      rw [emitAll, andThen, finishesOf_append, hsends.finishes]
      by_cases hevent : isCompleted event = true
      · -- the response is the last event
        have hnil : rest = [] := by
          by_contra hne
          have hmem : event ∈ (event :: rest).dropLast := by
            rw [dropLast_cons_of_ne_nil hne]
            exact mem_cons_self
          rw [hlast event hmem] at hevent
          cases hevent
        subst hnil
        cases event with
        | completed response =>
          have hdone : (handle responseId (.completed response) s).2.sentStop = true := by
            rw [hsends.sentStop, hevent, Bool.or_true]
          simp [emitAll, emit, hevent, hstop, hdone, finishReason_completed response hrunning,
            finishesOf, choicesOf]
        | _ => cases hevent
      · have hopen : (handle responseId event s).2.sentStop = false := by
          rw [hsends.sentStop, hstop, eq_false_iff.mpr hevent]
          rfl
        rw [if_neg (fun hboth => hevent hboth.1), nil_append]
        refine hrest.finishes hopen fun later hlater => hlast later ?_
        cases rest with
        | nil => cases hlater
        | cons first others => exact mem_cons_of_mem event hlater

theorem stop_end_sent (shouldIncludeUsage : Bool) :
    let sent := (andThen (sendStopIfNeeded responseId) (sendEnd responseId shouldIncludeUsage) s).1
    textOf sent = "" ∧ fragmentsOf sent = [] ∧
      finishesOf sent = if s.sentStop then [] else [s.finishReason] := by
  cases hstop : s.sentStop <;> cases shouldIncludeUsage <;>
    simp only [andThen, sendStopIfNeeded, hstop] <;> exact ⟨rfl, rfl, rfl⟩

variable (responseId) in
theorem finishStream_sent (shouldIncludeUsage : Bool) (responseText2Usage : String → Usage)
    (hrunning : s.streamErr = none) :
    let sent := (finishStream responseId shouldIncludeUsage responseText2Usage s).1
    textOf sent = "" ∧ fragmentsOf sent = [] ∧
      finishesOf sent = if s.sentStop then [] else [s.finishReason] := by
  simp only [finishStream, hrunning, Option.isSome_none, false_eq_true, if_false,
    textOf_start_then, fragmentsOf_start_then, finishesOf_start_then]
  exact stop_end_sent shouldIncludeUsage

end Runs

end ResponsesStream
