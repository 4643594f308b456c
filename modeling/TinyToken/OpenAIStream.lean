import TinyToken.ChatChunks
import TinyToken.EmittingMachines

/-! A chat completion stream relayed to a client of the same format by `OaiStreamHandler`: each
chunk is sent when the next one has arrived, the last one at the end, and `sendStreamData` may turn
reasoning into content. -/
namespace OpenAIStream

open ChatChunks EmittingMachines List String

structure ThinkingContentInfo where
  isFirstThinkingContent : Bool
  sendLastThinkingContent : Bool
  hasSentThinkingContent : Bool

def noThinkingYet : ThinkingContentInfo := ⟨true, false, false⟩

/-- What the client is sent: upstream's data as it is, a chunk encoded again, the final usage and
the end. -/
inductive Sent where
  | data (chunk : Chunk)
  | object (chunk : Chunk)
  | usage (id model : String) (usage : Usage)
  | done

def showContent (content : String) (choice : Choice) : Choice :=
  { choice with
    delta := { choice.delta with content := some content, reasoningContent := none, reasoning := none } }

def hideReasoning (choice : Choice) : Choice :=
  { choice with delta := { choice.delta with reasoningContent := none, reasoning := none } }

def reasoningOf (chunk : Chunk) : String :=
  joined (chunk.choices.map fun choice => choice.delta.getReasoningContent)

def contentOf (chunk : Chunk) : String :=
  joined (chunk.choices.map fun choice => choice.delta.getContentString)

def hasThinkingContent (chunk : Chunk) : Bool :=
  chunk.choices.any fun choice => choice.delta.getReasoningContent ≠ ""

def hasContent (chunk : Chunk) : Bool :=
  chunk.choices.any fun choice => choice.delta.getContentString ≠ ""

def processChoice (chunk : Chunk) (choice : Choice) : Choice :=
  if choice.delta.getReasoningContent ≠ "" then showContent choice.delta.getReasoningContent choice
  else if !hasThinkingContent chunk && !hasContent chunk then hideReasoning choice
  else choice

def processChoices (chunk : Chunk) : Emit ThinkingContentInfo Sent := fun info =>
  let processed := Sent.object { chunk with choices := chunk.choices.map (processChoice chunk) }
  if hasContent chunk && !info.sendLastThinkingContent && info.hasSentThinkingContent then
    ([.object { chunk with choices := chunk.choices.map (showContent "\n</think>\n") }, processed],
      { info with sendLastThinkingContent := true })
  else ([processed], info)

def thinkToContent (chunk : Chunk) : Emit ThinkingContentInfo Sent := fun info =>
  if info.isFirstThinkingContent && hasThinkingContent chunk then
    ([.object
        { chunk with choices := chunk.choices.map (showContent ("<think>\n" ++ reasoningOf chunk)) }],
      { info with isFirstThinkingContent := false, hasSentThinkingContent := true })
  else if chunk.choices = [] then ([.object chunk], info)
  else processChoices chunk info

def sendStreamData (forceFormat thinkingToContent : Bool) (data : Option Chunk) :
    Emit ThinkingContentInfo Sent := fun info =>
  match data with
  | none => ([], info)
  | some chunk =>
    if !forceFormat && !thinkingToContent then ([.data chunk], info)
    else if !thinkingToContent then ([.object chunk], info)
    else thinkToContent chunk info

structure Relay where
  forceFormat : Bool
  thinkingToContent : Bool
  shouldIncludeUsage : Bool
  isAudioModel : Bool
  upstreamModelName : String

structure State where
  thinking : ThinkingContentInfo
  lastStreamData : Option Chunk
  secondLastStreamData : Option Chunk

def initial : State := ⟨noThinkingYet, none, none⟩

variable (relay : Relay)

def handleData (chunk : Chunk) : Emit State Sent := fun s =>
  let sent := sendStreamData relay.forceFormat relay.thinkingToContent s.lastStreamData s.thinking
  (sent.1,
    { thinking := sent.2
      lastStreamData := some chunk
      secondLastStreamData :=
        if relay.isAudioModel && s.lastStreamData.isSome then s.lastStreamData
        else s.secondLastStreamData })

def usageOf (data : Option Chunk) : Option Usage := data.bind Chunk.usage

/-- A last chunk with usage that the client has not asked for is sent for its text only. -/
def handleLastResponse (last : Option Chunk) : Bool :=
  if validUsage (usageOf last) && !relay.shouldIncludeUsage then
    last.any fun chunk => chunk.choices.any fun choice =>
      choice.delta.getContentString ≠ "" || choice.delta.getReasoningContent ≠ ""
  else true

/-- The usage sent at the end is that of the text where upstream has sent none. -/
def handleFinalResponse (usage : Usage) : Emit State Sent := fun s =>
  let containStreamUsage :=
    relay.isAudioModel && validUsage (usageOf s.secondLastStreamData) ||
      validUsage (usageOf s.lastStreamData)
  let responseId := (s.lastStreamData.map Chunk.id).getD ""
  let model := (s.lastStreamData.map Chunk.model).getD relay.upstreamModelName
  ((if relay.shouldIncludeUsage && !containStreamUsage then [.usage responseId model usage] else []) ++
    [.done], s)

def sendLast : Emit State Sent := fun s =>
  if handleLastResponse relay s.lastStreamData then
    let sent := sendStreamData relay.forceFormat relay.thinkingToContent s.lastStreamData s.thinking
    (sent.1, { s with thinking := sent.2 })
  else ([], s)

def oaiStreamHandler (usage : Usage) (chunks : List Chunk) : List Sent :=
  (andThen (emitAll (handleData relay) chunks)
    (andThen (sendLast relay) (handleFinalResponse relay usage)) initial).1

def forwarded (sent : List Sent) : List Chunk :=
  sent.filterMap fun message =>
    match message with
    | .data chunk => some chunk
    | _ => none

def carriesChoice (choice : Choice) : Bool :=
  choice.delta.getContentString ≠ "" || choice.delta.getReasoningContent ≠ "" ||
    choice.delta.toolCalls ≠ [] || choice.finish.isSome

def carries (chunk : Chunk) : Bool := chunk.choices.any carriesChoice

def usageOnly (chunk : Chunk) : Bool := chunk.usage.isSome && !carries chunk

/-- Chunks are sent once and in order, only such with nothing but usage are left out, and one end
follows. -/
structure Delivered (chunks : List Chunk) (sent : List Sent) : Prop where
  order : (forwarded sent).Sublist chunks
  complete : (forwarded sent).filter (fun chunk => !usageOnly chunk) =
    chunks.filter fun chunk => !usageOnly chunk
  ended : ∃ before, sent = before ++ [.done] ∧ Sent.done ∉ before

def hasText (chunk : Chunk) : Bool :=
  chunk.choices.any fun choice =>
    choice.delta.getContentString ≠ "" || choice.delta.getReasoningContent ≠ ""

/-- The last chunk has text, or nothing to lose, or its usage is wanted or is none. -/
def LastKept (chunks : List Chunk) : Prop :=
  ∀ last ∈ chunks.getLast?,
    relay.shouldIncludeUsage = true ∨ validUsage last.usage = false ∨ hasText last = true ∨
      carries last = false

instance (relay : Relay) (chunks : List Chunk) : Decidable (LastKept relay chunks) :=
  match h : chunks.getLast? with
  | none => isTrue (by simp [LastKept, h])
  | some last => decidable_of_iff
      (relay.shouldIncludeUsage = true ∨ validUsage last.usage = false ∨ hasText last = true ∨
        carries last = false) (by simp [LastKept, h])

section Delivery

variable {relay : Relay}

/-- The messages at the end: the last chunk if it is kept, usage and the end. -/
def tail (relay : Relay) (usage : Usage) (s : State) : List Sent :=
  (andThen (sendLast relay) (handleFinalResponse relay usage) s).1

theorem forwarded_append (sent later : List Sent) :
    forwarded (sent ++ later) = forwarded sent ++ forwarded later := by
  simp [forwarded]

theorem forwarded_data (chunks : List Chunk) : forwarded (chunks.map Sent.data) = chunks := by
  induction chunks with
  | nil => rfl
  | cons chunk rest _ => simp [forwarded]

theorem done_not_mem_data (chunks : List Chunk) : Sent.done ∉ chunks.map Sent.data := by
  simp

section

variable (hforce : relay.forceFormat = false) (hthinking : relay.thinkingToContent = false)
include hforce hthinking

theorem sendStreamData_plain (data : Option Chunk) (info : ThinkingContentInfo) :
    sendStreamData relay.forceFormat relay.thinkingToContent data info =
      (data.toList.map Sent.data, info) := by
  cases data with
  | none => rfl
  | some chunk => simp [sendStreamData, hforce, hthinking]

theorem run_plain (chunks : List Chunk) (s : State) :
    let run := emitAll (handleData relay) chunks s
    run.1 ++ run.2.lastStreamData.toList.map Sent.data =
        (s.lastStreamData.toList ++ chunks).map Sent.data ∧
      run.2.lastStreamData = (s.lastStreamData.toList ++ chunks).getLast? := by
  induction chunks generalizing s with
  | nil =>
    cases hlast : s.lastStreamData <;> simp [emitAll, emit, hlast]
  | cons chunk rest ih =>
    obtain ⟨hsent, hlast⟩ := ih (handleData relay chunk s).2
    have hstep : (handleData relay chunk s).1 = s.lastStreamData.toList.map Sent.data := by
      rw [handleData, sendStreamData_plain hforce hthinking]
    have hnext : (handleData relay chunk s).2.lastStreamData = some chunk := rfl
    rw [hnext] at hsent hlast
    simp only [emitAll, andThen]
    refine ⟨?_, ?_⟩
    · rw [hstep, List.append_assoc, hsent]
      simp
    · rw [hlast]
      cases s.lastStreamData <;> simp

theorem tail_plain (usage : Usage) (s : State) :
    ∃ final, tail relay usage s =
        (if handleLastResponse relay s.lastStreamData then s.lastStreamData.toList else []).map Sent.data ++
          final ++ [.done] ∧
      forwarded final = [] ∧ Sent.done ∉ final := by
  have hend : ∀ s' : State, ∃ final, (handleFinalResponse relay usage s').1 = final ++ [.done] ∧
      forwarded final = [] ∧ Sent.done ∉ final := by
    intro s'
    refine ⟨_, rfl, ?_, ?_⟩
    · split <;> rfl
    · split <;> simp
  by_cases hkept : handleLastResponse relay s.lastStreamData
  · obtain ⟨final, hfinal, hnone, hdone⟩ := hend s
    refine ⟨final, ?_, hnone, hdone⟩
    simp only [tail, andThen, sendLast, if_pos hkept, sendStreamData_plain hforce hthinking]
    rw [hfinal, List.append_assoc]
  · obtain ⟨final, hfinal, hnone, hdone⟩ := hend s
    refine ⟨final, ?_, hnone, hdone⟩
    simp only [tail, andThen, sendLast, if_neg hkept]
    rw [hfinal]
    rfl

theorem handler_plain (usage : Usage) (chunks : List Chunk) :
    ∃ final, oaiStreamHandler relay usage chunks = (chunks.dropLast ++
            (if handleLastResponse relay chunks.getLast? then chunks.getLast?.toList else [])).map Sent.data ++
          final ++ [.done] ∧
      forwarded final = [] ∧ Sent.done ∉ final := by
  obtain ⟨hsent, hlast⟩ := run_plain hforce hthinking chunks initial
  have hall : (initial.lastStreamData.toList ++ chunks) = chunks := rfl
  rw [hall] at hsent hlast
  obtain ⟨final, hfinal, hnone, hdone⟩ :=
    tail_plain hforce hthinking usage (emitAll (handleData relay) chunks initial).2
  refine ⟨final, ?_, hnone, hdone⟩
  have hbefore : (emitAll (handleData relay) chunks initial).1 = chunks.dropLast.map Sent.data := by
    rw [hlast] at hsent
    rcases eq_nil_or_concat chunks with rfl | ⟨before, last, rfl⟩
    · rfl
    · simpa using hsent
  change (emitAll (handleData relay) chunks initial).1 ++
    tail relay usage (emitAll (handleData relay) chunks initial).2 = _
  rw [hbefore, hfinal, hlast, map_append]
  simp only [List.append_assoc]

end

theorem handleLastResponse_eq_false (last : Chunk) : handleLastResponse relay (some last) = false ↔
      relay.shouldIncludeUsage = false ∧ validUsage last.usage = true ∧ hasText last = false := by
  cases hinclude : relay.shouldIncludeUsage <;> cases hvalid : validUsage last.usage <;>
    simp [handleLastResponse, usageOf, hinclude, hvalid, hasText]

theorem usage_isSome_of_valid {usage : Option Usage} (h : validUsage usage = true) :
    usage.isSome = true := by
  cases usage with
  | none => cases h
  | some usage => rfl

/-- With both conversions off, chunks are delivered exactly when the last one is not left out with
something to lose. -/
theorem chunks_delivered_iff (relay : Relay) (hforce : relay.forceFormat = false)
    (hthinking : relay.thinkingToContent = false) (usage : Usage) (chunks : List Chunk) :
    Delivered chunks (oaiStreamHandler relay usage chunks) ↔ LastKept relay chunks := by
  obtain ⟨final, hsent, hnone, hdone⟩ := handler_plain hforce hthinking usage chunks
  have hended : ∃ before, oaiStreamHandler relay usage chunks = before ++ [.done] ∧
      Sent.done ∉ before := by
    refine ⟨_, hsent, ?_⟩
    rw [List.mem_append, not_or]
    exact ⟨done_not_mem_data _, hdone⟩
  have hforwarded : forwarded (oaiStreamHandler relay usage chunks) = chunks.dropLast ++
        (if handleLastResponse relay chunks.getLast? then chunks.getLast?.toList else []) := by
    rw [hsent, forwarded_append, forwarded_append, forwarded_data, hnone]
    simp [forwarded]
  rcases List.eq_nil_or_concat chunks with rfl | ⟨before, last, rfl⟩
  · refine iff_of_true ⟨?_, ?_, hended⟩ (by simp [LastKept])
    · rw [hforwarded]
      exact List.Sublist.refl _
    · rw [hforwarded]
      rfl
  · simp only [List.concat_eq_append, List.dropLast_concat, List.getLast?_concat] at hforwarded hended ⊢
    have hlastKept : LastKept relay (before ++ [last]) ↔
        handleLastResponse relay (some last) = true ∨ carries last = false := by
      rw [← Bool.not_eq_false, handleLastResponse_eq_false]
      simp only [LastKept, List.getLast?_concat, Option.mem_def, Option.some.injEq, forall_eq']
      cases relay.shouldIncludeUsage <;> cases validUsage last.usage <;> cases hasText last <;> simp
    rw [hlastKept]
    cases hkept : handleLastResponse relay (some last) with
    | true =>
      rw [hkept] at hforwarded
      refine iff_of_true ⟨?_, ?_, hended⟩ (.inl rfl)
      · rw [hforwarded]
        exact List.Sublist.refl _
      · rw [hforwarded]
        rfl
    | false =>
      rw [hkept] at hforwarded
      have hvalid := ((handleLastResponse_eq_false last).mp hkept).2.1
      have husage : usageOnly last = !carries last := by
        rw [usageOnly, usage_isSome_of_valid hvalid, Bool.true_and]
      have hall : forwarded (oaiStreamHandler relay usage (before ++ [last])) = before := by
        rw [hforwarded]
        simp
      constructor
      · intro h
        have hcomplete := h.complete
        rw [hall, List.filter_append] at hcomplete
        have hlast : [last].filter (fun chunk => !usageOnly chunk) = [] := by
          simpa using hcomplete
        simpa [husage] using hlast
      · rintro (hfalse | hnothing)
        · cases hfalse
        · refine ⟨?_, ?_, hended⟩
          · rw [hall]
            exact List.sublist_append_left before [last]
          · rw [hall, List.filter_append]
            simp [husage, hnothing]

end Delivery

def plainRelay : Relay := ⟨false, false, false, false, "gpt-5"⟩

def sampleUsage : Usage := ⟨7, 5, 0, 0, 0, 0⟩

def textChunk (text : String) (usage : Option Usage) : Chunk :=
  ⟨"chatcmpl-1", "gpt-5", [⟨⟨some text, none, none, []⟩, none⟩], usage⟩

def finishChunk (usage : Option Usage) : Chunk :=
  ⟨"chatcmpl-1", "gpt-5", [⟨⟨none, none, none, []⟩, some "stop"⟩], usage⟩

def usageChunk : Chunk := ⟨"chatcmpl-1", "gpt-5", [], some sampleUsage⟩

/-- Usage in a chunk of its own may be left out. -/
theorem usage_chunk_delivered : Delivered [textChunk "Hello" none, finishChunk none, usageChunk]
      (oaiStreamHandler plainRelay sampleUsage
        [textChunk "Hello" none, finishChunk none, usageChunk]) :=
  (chunks_delivered_iff plainRelay rfl rfl sampleUsage _).mpr (by decide +kernel)

/-- A finish reason beside usage is left out with it. -/
theorem finish_beside_usage_lost :
    ¬ Delivered [textChunk "Hello" none, finishChunk (some sampleUsage)]
      (oaiStreamHandler plainRelay sampleUsage
        [textChunk "Hello" none, finishChunk (some sampleUsage)]) := by
  intro h
  have hcomplete := h.complete
  revert hcomplete
  decide +kernel

def sentContent (sent : List Sent) : String :=
  joined (sent.map fun message =>
    match message with
    | .data chunk | .object chunk => contentOf chunk
    | _ => "")

def reasoningText (chunks : List Chunk) : String := joined (chunks.map reasoningOf)

def contentText (chunks : List Chunk) : String := joined (chunks.map contentOf)

def ReasoningFirst (chunks : List Chunk) : Prop :=
  chunks.Pairwise fun chunk later => contentOf chunk ≠ "" → reasoningOf later = ""

instance (chunks : List Chunk) : Decidable (ReasoningFirst chunks) :=
  inferInstanceAs (Decidable (chunks.Pairwise _))

def Apart (chunks : List Chunk) : Prop := ∀ chunk ∈ chunks, reasoningOf chunk = "" ∨ contentOf chunk = ""

instance (chunks : List Chunk) : Decidable (Apart chunks) :=
  inferInstanceAs (Decidable (∀ chunk ∈ chunks, _))

def thinkingRun (forceFormat : Bool) (chunks : List Chunk) : Emit ThinkingContentInfo Sent :=
  emitAll (fun chunk => sendStreamData forceFormat true (some chunk)) chunks

section Thinking

variable (forceFormat : Bool)

theorem sentContent_append (sent later : List Sent) :
    sentContent (sent ++ later) = sentContent sent ++ sentContent later := by
  simp [sentContent]

theorem sentContent_cons (chunk : Chunk) (rest : List Chunk) (info : ThinkingContentInfo) :
    sentContent (thinkingRun forceFormat (chunk :: rest) info).1 =
      sentContent (thinkToContent chunk info).1 ++
        sentContent (thinkingRun forceFormat rest (thinkToContent chunk info).2).1 := by
  have hsend : sendStreamData forceFormat true (some chunk) info = thinkToContent chunk info := by
    cases forceFormat <;> rfl
  rw [thinkingRun, emitAll, andThen, hsend, sentContent_append]
  rfl

variable {chunk : Chunk}

theorem choices_of_single (h : chunk.choices.length ≤ 1) :
    chunk.choices = [] ∨ ∃ choice, chunk.choices = [choice] := by
  cases hchoices : chunk.choices with
  | nil => exact .inl rfl
  | cons choice rest =>
    rw [hchoices, length_cons] at h
    have hrest : rest = [] := length_eq_zero_iff.mp (by omega)
    exact .inr ⟨choice, by rw [hrest]⟩

theorem thinkToContent_first (info : ThinkingContentInfo)
    (hsingle : chunk.choices.length ≤ 1) (hfirst : info.isFirstThinkingContent = true)
    (hreasoning : reasoningOf chunk ≠ "") :
    sentContent (thinkToContent chunk info).1 = "<think>\n" ++ reasoningOf chunk ∧
      (thinkToContent chunk info).2 =
        { info with isFirstThinkingContent := false, hasSentThinkingContent := true } := by
  rcases choices_of_single hsingle with hchoices | ⟨choice, hchoices⟩
  · simp [reasoningOf, hchoices] at hreasoning
  · have hthinking : hasThinkingContent chunk = true := by
      simpa [hasThinkingContent, reasoningOf, hchoices] using hreasoning
    rw [thinkToContent, hfirst, hthinking]
    refine ⟨?_, rfl⟩
    simp [sentContent, contentOf, hchoices, showContent, Delta.getContentString]

def closesTag (chunk : Chunk) (info : ThinkingContentInfo) : Bool :=
  contentOf chunk != "" && !info.sendLastThinkingContent && info.hasSentThinkingContent

theorem thinkToContent_later (info : ThinkingContentInfo) (hsingle : chunk.choices.length ≤ 1)
    (hlater : info.isFirstThinkingContent = false ∨ reasoningOf chunk = "") :
    sentContent (thinkToContent chunk info).1 =
        (if closesTag chunk info then "\n</think>\n" else "") ++
          (if reasoningOf chunk ≠ "" then reasoningOf chunk else contentOf chunk) ∧
      (thinkToContent chunk info).2 =
        if closesTag chunk info then { info with sendLastThinkingContent := true } else info := by
  rcases choices_of_single hsingle with hchoices | ⟨choice, hchoices⟩
  · have hnone : contentOf chunk = "" ∧ reasoningOf chunk = "" := by
      simp [contentOf, reasoningOf, hchoices]
    have hquiet : closesTag chunk info = false := by simp [closesTag, hnone.1]
    rw [thinkToContent, hchoices, hasThinkingContent, hchoices, hquiet]
    simp [hnone, sentContent, contentOf, hchoices]
  · have hnot : (info.isFirstThinkingContent && hasThinkingContent chunk) = false := by
      rcases hlater with hfirst | hreasoning
      · rw [hfirst, Bool.false_and]
      · have hthinking : hasThinkingContent chunk = false := by
          simpa [hasThinkingContent, reasoningOf, hchoices] using hreasoning
        rw [hthinking, Bool.and_false]
    have hshown : contentOf { chunk with choices := chunk.choices.map (processChoice chunk) } =
        if reasoningOf chunk ≠ "" then reasoningOf chunk else contentOf chunk := by
      by_cases hreasoning : choice.delta.getReasoningContent = ""
      · by_cases hcontent : choice.delta.getContentString = ""
        · have hboth : (!hasThinkingContent chunk && !hasContent chunk) = true := by
            simp [hasThinkingContent, hasContent, hchoices, hreasoning, hcontent]
          simp [contentOf, reasoningOf, hchoices, processChoice, hreasoning, hboth, hideReasoning,
            Delta.getContentString]
        · have hnotBoth : (!hasThinkingContent chunk && !hasContent chunk) = false := by
            simp [hasThinkingContent, hasContent, hchoices, hreasoning, hcontent]
          simp [contentOf, reasoningOf, hchoices, processChoice, hreasoning, hnotBoth]
      · simp [contentOf, reasoningOf, hchoices, processChoice, hreasoning, showContent,
          Delta.getContentString]
    have hcloses : (hasContent chunk && !info.sendLastThinkingContent && info.hasSentThinkingContent) =
        closesTag chunk info := by
      have hcontent : hasContent chunk = (contentOf chunk != "") := by
        rw [Bool.eq_iff_iff]
        simp [hasContent, contentOf, hchoices]
      rw [hcontent, closesTag]
    rw [thinkToContent, hnot, if_neg (by simp), if_neg (by simp [hchoices]), processChoices, hcloses]
    by_cases hclose : closesTag chunk info = true
    · have htag : contentOf { chunk with choices := chunk.choices.map (showContent "\n</think>\n") } =
          "\n</think>\n" := by
        simp [contentOf, hchoices, showContent, Delta.getContentString]
      simp only [hclose, if_true]
      refine ⟨?_, trivial⟩
      simp only [sentContent, map_cons, map_nil, joined_cons, joined_nil, htag, hshown,
        append_empty]
    · simp only [hclose, Bool.false_eq_true, if_false]
      refine ⟨?_, trivial⟩
      simp only [sentContent, map_cons, map_nil, joined_cons, joined_nil, hshown,
        append_empty, empty_append]

@[simp]
theorem reasoningText_cons (chunk : Chunk) (rest : List Chunk) :
    reasoningText (chunk :: rest) = reasoningOf chunk ++ reasoningText rest := by
  simp [reasoningText]

@[simp]
theorem contentText_cons (chunk : Chunk) (rest : List Chunk) :
    contentText (chunk :: rest) = contentOf chunk ++ contentText rest := by
  simp [contentText]

variable {chunks : List Chunk}

theorem reasoningText_eq_empty (h : ∀ chunk ∈ chunks, reasoningOf chunk = "") :
    reasoningText chunks = "" := by
  induction chunks with
  | nil => rfl
  | cons chunk rest ih =>
    rw [reasoningText_cons, h chunk (by simp), ih fun later hlater => h later (by simp [hlater])]
    rfl

theorem apart_cons {rest : List Chunk} :
    Apart (chunk :: rest) ↔ (reasoningOf chunk = "" ∨ contentOf chunk = "") ∧ Apart rest := by
  simp [Apart]

theorem length_pos_of_ne {s : String} (h : s ≠ "") : 0 < s.length := by
  rcases Nat.eq_zero_or_pos s.length with hzero | hpos
  · exact absurd (String.length_eq_zero_iff.mp hzero) h
  · exact hpos

def closing (content : String) : String := if content = "" then "" else "\n</think>\n" ++ content

theorem closing_lt {content : String} (h : content ≠ "") (later : String) :
    (closing later).length < (closing (content ++ later)).length := by
  have hpos := length_pos_of_ne h
  have hboth : content ++ later ≠ "" := fun hempty => h (append_eq_empty_iff.mp hempty).1
  unfold closing
  rw [if_neg hboth]
  split <;> simp only [String.length_append, String.length_empty] <;> omega

/-- The run sends `expected`, or it loses text that stands beside reasoning. -/
def SendsOrLoses (sent expected : String) (chunks : List Chunk) : Prop :=
  (sent = expected ∧ Apart chunks) ∨ (sent.length < expected.length ∧ ¬ Apart chunks)

def Single (chunks : List Chunk) : Prop := ∀ chunk ∈ chunks, chunk.choices.length ≤ 1

theorem single_cons {rest : List Chunk} :
    Single (chunk :: rest) ↔ chunk.choices.length ≤ 1 ∧ Single rest := by
  simp [Single]

instance (chunks : List Chunk) : Decidable (Single chunks) :=
  inferInstanceAs (Decidable (∀ chunk ∈ chunks, _))

theorem run_closed (hsingle : Single chunks)
    (hreasoning : ∀ chunk ∈ chunks, reasoningOf chunk = "") :
    sentContent (thinkingRun forceFormat chunks ⟨false, true, true⟩).1 = contentText chunks := by
  induction chunks with
  | nil => rfl
  | cons chunk rest ih =>
    have hchunk := hreasoning chunk (by simp)
    obtain ⟨hsent, hstate⟩ := thinkToContent_later ⟨false, true, true⟩
      (single_cons.mp hsingle).1 (.inl rfl)
    have hcloses : closesTag chunk ⟨false, true, true⟩ = false := by simp [closesTag]
    rw [hcloses] at hsent hstate
    rw [sentContent_cons, hsent, hstate, contentText_cons]
    simp only [Bool.false_eq_true, if_false, hchunk, ne_eq, not_true_eq_false, empty_append]
    rw [ih (single_cons.mp hsingle).2 fun later hlater => hreasoning later (by simp [hlater])]

theorem run_open (hsingle : Single chunks) (hfirst : ReasoningFirst chunks) :
    SendsOrLoses (sentContent (thinkingRun forceFormat chunks ⟨false, false, true⟩).1)
      (reasoningText chunks ++ closing (contentText chunks)) chunks := by
  induction chunks with
  | nil => exact .inl ⟨rfl, by simp [Apart]⟩
  | cons chunk rest ih =>
    obtain ⟨hchunk, hrest⟩ := single_cons.mp hsingle
    obtain ⟨hbefore, hlater⟩ := List.pairwise_cons.mp hfirst
    obtain ⟨hsent, hstate⟩ := thinkToContent_later ⟨false, false, true⟩ hchunk (.inl rfl)
    by_cases hcontent : contentOf chunk = ""
    · -- the tag stays open
      have hcloses : closesTag chunk ⟨false, false, true⟩ = false := by simp [closesTag, hcontent]
      have hshown : sentContent (thinkToContent chunk ⟨false, false, true⟩).1 = reasoningOf chunk := by
        rw [hsent, hcloses, hcontent]
        by_cases hreasoning : reasoningOf chunk = "" <;> simp [hreasoning]
      rw [hcloses] at hstate
      rw [sentContent_cons, hshown, hstate, SendsOrLoses, apart_cons, reasoningText_cons,
        contentText_cons, hcontent, String.empty_append]
      rcases ih hrest hlater with ⟨heq, hapart⟩ | ⟨hless, hapart⟩
      · exact .inl ⟨by simp [heq, String.append_assoc], .inr rfl, hapart⟩
      · refine .inr ⟨?_, fun h => hapart h.2⟩
        simp only [String.length_append] at hless ⊢
        simp only [Bool.false_eq_true, if_false]
        omega
    · -- the tag is closed, and no reasoning comes after
      have hcloses : closesTag chunk ⟨false, false, true⟩ = true := by simp [closesTag, hcontent]
      have hnone : ∀ later ∈ rest, reasoningOf later = "" := fun later h => hbefore later h hcontent
      have hclosing : closing (contentOf chunk ++ contentText rest) =
          "\n</think>\n" ++ (contentOf chunk ++ contentText rest) :=
        if_neg fun h => hcontent (String.append_eq_empty_iff.mp h).1
      rw [hcloses] at hsent hstate
      rw [sentContent_cons, hsent, hstate, SendsOrLoses, apart_cons, reasoningText_cons,
        contentText_cons, hclosing, reasoningText_eq_empty hnone]
      simp only [if_true]
      rw [run_closed forceFormat hrest hnone]
      by_cases hreasoning : reasoningOf chunk = ""
      · refine .inl ⟨?_, .inl hreasoning, fun later h => .inl (hnone later h)⟩
        simp [hreasoning, String.append_assoc]
      · refine .inr ⟨?_, fun h => h.1.elim hreasoning hcontent⟩
        have hlost := length_pos_of_ne hcontent
        rw [if_pos hreasoning]
        simp only [String.length_append, String.length_empty]
        omega

theorem run_initial (hsingle : Single chunks) (hfirst : ReasoningFirst chunks)
    (hreasoning : reasoningText chunks ≠ "") :
    SendsOrLoses (sentContent (thinkingRun forceFormat chunks noThinkingYet).1)
      ("<think>\n" ++ reasoningText chunks ++ closing (contentText chunks)) chunks := by
  induction chunks with
  | nil => exact absurd rfl hreasoning
  | cons chunk rest ih =>
    obtain ⟨hchunk, hrest⟩ := single_cons.mp hsingle
    obtain ⟨hbefore, hlater⟩ := List.pairwise_cons.mp hfirst
    by_cases hempty : reasoningOf chunk = ""
    · -- content here would come before the reasoning
      have hcontent : contentOf chunk = "" := by
        by_contra hcontent
        have hnone := reasoningText_eq_empty fun later h => hbefore later h hcontent
        exact hreasoning (by rw [reasoningText_cons, hempty, hnone]; rfl)
      obtain ⟨hsent, hstate⟩ := thinkToContent_later noThinkingYet hchunk (.inr hempty)
      have hcloses : closesTag chunk noThinkingYet = false := by simp [closesTag, hcontent]
      rw [hcloses] at hsent hstate
      rw [reasoningText_cons, hempty, String.empty_append] at hreasoning
      rw [sentContent_cons, hsent, hstate, SendsOrLoses, apart_cons, reasoningText_cons,
        contentText_cons, hempty, hcontent, String.empty_append, String.empty_append]
      simpa [SendsOrLoses] using ih hrest hlater hreasoning
    · obtain ⟨hsent, hstate⟩ := thinkToContent_first noThinkingYet hchunk rfl hempty
      rw [sentContent_cons, hsent, hstate, SendsOrLoses, apart_cons, reasoningText_cons,
        contentText_cons]
      by_cases hcontent : contentOf chunk = ""
      · rw [hcontent, String.empty_append]
        rcases run_open forceFormat hrest hlater with ⟨heq, hapart⟩ | ⟨hless, hapart⟩
        · refine .inl ⟨?_, .inr rfl, hapart⟩
          simp only [noThinkingYet, heq, String.append_assoc]
        · refine .inr ⟨?_, fun h => hapart h.2⟩
          simp only [String.length_append, noThinkingYet] at hless ⊢
          omega
      · refine .inr ⟨?_, fun h => h.1.elim hempty hcontent⟩
        have hrun : (sentContent (thinkingRun forceFormat rest ⟨false, false, true⟩).1).length ≤
            (reasoningText rest ++ closing (contentText rest)).length := by
          rcases run_open forceFormat hrest hlater with ⟨heq, -⟩ | ⟨hless, -⟩
          · exact Nat.le_of_eq (by rw [heq])
          · exact Nat.le_of_lt hless
        have hlost := closing_lt hcontent (contentText rest)
        simp only [String.length_append, noThinkingYet] at hrun ⊢
        omega

/-- Reasoning and content of a single choice come out in order exactly when no chunk carries both. -/
theorem think_content_iff {chunks : List Chunk} (hsingle : Single chunks)
    (hfirst : ReasoningFirst chunks) (hreasoning : reasoningText chunks ≠ "")
    (hcontent : contentText chunks ≠ "") :
    sentContent (thinkingRun forceFormat chunks noThinkingYet).1 =
        "<think>\n" ++ reasoningText chunks ++ "\n</think>\n" ++ contentText chunks ↔
      Apart chunks := by
  have hrun := run_initial forceFormat hsingle hfirst hreasoning
  rw [closing, if_neg hcontent, ← String.append_assoc] at hrun
  constructor
  · intro hsent
    rcases hrun with ⟨-, hapart⟩ | ⟨hless, -⟩
    · exact hapart
    · rw [hsent] at hless
      exact absurd hless (Nat.lt_irrefl _)
  · intro hapart
    rcases hrun with ⟨heq, -⟩ | ⟨-, hnot⟩
    · exact heq
    · exact absurd hapart hnot

def thought (reasoning content : Option String) : Chunk :=
  ⟨"chatcmpl-1", "deepseek-r1", [⟨⟨content, reasoning, none, []⟩, none⟩], none⟩

def separateThoughts : List Chunk :=
  [thought (some "2 plus") none, thought (some " 2") none, thought none (some "4")]

def mixedThoughts : List Chunk :=
  [thought (some "2 plus") none, thought (some " 2") (some "4"), thought none (some "!")]

theorem think_content_in_order : sentContent (thinkingRun false separateThoughts noThinkingYet).1 =
      "<think>\n" ++ reasoningText separateThoughts ++ "\n</think>\n" ++
        contentText separateThoughts :=
  (think_content_iff false (by decide +kernel) (by decide +kernel) (by decide +kernel)
    (by decide +kernel)).mpr (by decide +kernel)

/-- The content beside the last reasoning is lost, and the closing tag comes too early. -/
theorem content_overwritten_by_reasoning :
    Single mixedThoughts ∧ ReasoningFirst mixedThoughts ∧ reasoningText mixedThoughts = "2 plus 2" ∧
      contentText mixedThoughts = "4!" ∧
      sentContent (thinkingRun false mixedThoughts noThinkingYet).1 =
        "<think>\n2 plus\n</think>\n 2!" ∧
      sentContent (thinkingRun false mixedThoughts noThinkingYet).1 ≠
        "<think>\n" ++ reasoningText mixedThoughts ++ "\n</think>\n" ++ contentText mixedThoughts := by
  decide +kernel

end Thinking

end OpenAIStream
