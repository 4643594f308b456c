import TinyToken.ResponsesStreamCalls

/-! When the stream of a response and the whole response are the same answer for a client. -/
namespace ResponsesStream

open ChatChunks (ToolCall joined)
open List Option Function String
open EmittingMachines

variable (output : List OutputItem) (events : List Event)

def outputTextAt (k j : ℕ) : Option String :=
  let out := itemAt output k
  if out.type = "message" ∧ (out.role = "" ∨ out.role = "assistant") then
    (out.content[j]?.filter fun content => content.type = "output_text").map OutputContent.text
  else none

def textPlace : Event → Option (ℕ × ℕ)
  | .outputTextDelta k j _ => some (k, j)
  | _ => none

def textAt (k j : ℕ) : String :=
  streamText (events.filter fun event => textPlace event = some (k, j))

/-- Text comes at places of assistant's texts, and there its deltas are the text. -/
def TextsComplete : Prop :=
  (∀ event ∈ events, ∀ place ∈ textPlace event, (outputTextAt output place.1 place.2).isSome) ∧
  ∀ k < output.length, ∀ j < (itemAt output k).content.length, ∀ text ∈ outputTextAt output k j,
    textAt events k j = text

instance (output : List OutputItem) (events : List Event) : Decidable (TextsComplete output events) :=
  inferInstanceAs (Decidable (_ ∧ _))

/-- Every function call of the output has been named with all its arguments. -/
def Completes : Option Progress → Prop
  | none => False
  | some progress => ∀ k < output.length, CallAt output k →
      k ∈ progress.order ∧ progress.args k = (itemAt output k).argumentsString

instance (output : List OutputItem) : ∀ read, Decidable (Completes output read)
  | none => inferInstanceAs (Decidable False)
  | some progress => inferInstanceAs (Decidable (∀ k < output.length, CallAt output k →
      k ∈ progress.order ∧ progress.args k = (itemAt output k).argumentsString))

/-- The text and argument deltas concatenate to the items of the final response, whatever the order
of the items, and nothing follows the response. -/
structure Consistent (response : Response) (events : List Event) : Prop where
  names : WellNamed response.output
  texts : TextsComplete response.output events
  calls : Completes response.output (watch (accept response) start events)
  last : ∀ event ∈ events.dropLast, isCompleted event = false

instance (response : Response) (events : List Event) : Decidable (Consistent response events) :=
  decidable_of_iff
    (WellNamed response.output ∧ TextsComplete response.output events ∧
      Completes response.output (watch (accept response) start events) ∧ ∀ event ∈ events.dropLast, isCompleted event = false)
    ⟨fun ⟨hnames, htexts, hcalls, hlast⟩ => ⟨hnames, htexts, hcalls, hlast⟩,
      fun h => ⟨h.names, h.texts, h.calls, h.last⟩⟩

/-- The client reads the same text, tool calls and finish reason from the stream as from the whole
response. -/
def Matches (relay : Relay) (response : Response) (events : List Event) : Prop :=
  let sent := (oaiResponsesToChatStreamHandler relay events).1
  ∃ completion,
    responsesResponseToChatCompletionsResponse (some response) relay.responseId = .ok completion ∧
    textOf sent = completion.content ∧
    (assembleCalls sent).map (fun call => (call.id, call.name, call.arguments)) =
      completion.toolCalls.map (fun call => (call.id, call.name, call.arguments)) ∧
    finishesOf sent = [completion.finishReason]

def callPlaces : List ℕ :=
  (range output.length).filter fun k => CallAt output k

/-- Text comes in the order of the output, only the assistant's messages have text, and there is
text before all function calls or no text and the function calls come in the order of the output. -/
structure Ordered (response : Response) (events : List Event) : Prop where
  text : streamText events = messageText response.output
  only : messageText response.output = "" → anyText response.output = ""
  first : streamText events ≠ "" → textFirst events = true
  order : streamText events = "" → callOrder [] events = callPlaces response.output

instance (response : Response) (events : List Event) : Decidable (Ordered response events) :=
  decidable_of_iff
    (streamText events = messageText response.output ∧
      (messageText response.output = "" → anyText response.output = "") ∧
      (streamText events ≠ "" → textFirst events = true) ∧
      (streamText events = "" → callOrder [] events = callPlaces response.output))
    ⟨fun ⟨htext, honly, hfirst, horder⟩ => ⟨htext, honly, hfirst, horder⟩,
      fun h => ⟨h.text, h.only, h.first, h.order⟩⟩

section Reading

variable (relay : Relay) {response : Response} {events : List Event} {after : Progress}

def ranEvents (relay : Relay) (events : List Event) : List Sent × State :=
  emitAll (handle relay.responseId) events (initial relay.createAt relay.upstreamModelName)

theorem read_stream (hwatch : watch (accept response) start events = some after)
    (hlast : ∀ event ∈ events.dropLast, isCompleted event = false) :
    let sent := (oaiResponsesToChatStreamHandler relay events).1
    textOf sent = streamText events ∧
      assembleCalls sent = (fragmentsOf (ranEvents relay events).1).foldl addFragment [] ∧
      finishesOf sent = [(ranEvents relay events).2.finishReason] := by
  have hrun : RunSends _ events (ranEvents relay events) := run_sends rfl (isFailed_of_watch hwatch)
  obtain ⟨htext, hfragments, hfinishes⟩ := finishStream_sent relay.responseId
    relay.shouldIncludeUsage relay.responseText2Usage hrun.running
  simp only [oaiResponsesToChatStreamHandler, andThen, textOf_append, assembleCalls,
    fragmentsOf_append, finishesOf_append]
  change textOf (ranEvents relay events).1 ++ textOf (finishStream _ _ _ (ranEvents relay events).2).1 = _ ∧
    (fragmentsOf (ranEvents relay events).1 ++
      fragmentsOf (finishStream _ _ _ (ranEvents relay events).2).1).foldl addFragment [] = _ ∧
    finishesOf (ranEvents relay events).1 ++ finishesOf (finishStream _ _ _ (ranEvents relay events).2).1 = _
  rw [htext, hfragments, hfinishes, hrun.text, append_empty, append_nil]
  exact ⟨rfl, rfl, hrun.finishes rfl hlast⟩

theorem read_without_text (hnames : WellNamed response.output)
    (hwatch : watch (accept response) start events = some after) (htext : streamText events = "") :
    (fragmentsOf (ranEvents relay events).1).foldl addFragment [] = callsOf response.output after ∧
      (ranEvents relay events).2.finishReason = if after.order ≠ [] then "tool_calls" else "stop" := by
  have hfollows : Follows response.output start after (ranEvents relay events) :=
    run_follows hnames (tracks_start ..) hwatch htext
  refine ⟨hfollows.2, ?_⟩
  rw [State.finishReason, hfollows.1.silent]
  simp only [hfollows.1.saw, and_true]

theorem read_with_text (hnames : WellNamed response.output)
    (hwatch : watch (accept response) start events = some after) (htext : streamText events ≠ "") :
    ((fragmentsOf (ranEvents relay events).1).foldl addFragment [] = [] ↔ textFirst events = true) ∧
      (ranEvents relay events).2.finishReason = "stop" := by
  have hrun : RunSends _ events (ranEvents relay events) := run_sends rfl (isFailed_of_watch hwatch)
  have hcalls := run_text_calls relay.responseId hnames
    (tracks_start response.output relay.createAt relay.upstreamModelName) hwatch htext
  refine ⟨hcalls.trans ⟨And.right, fun hfirst => ⟨rfl, hfirst⟩⟩, ?_⟩
  have hsaid : (ranEvents relay events).2.outputText ≠ "" := by
    rw [hrun.outputText]
    exact fun hempty => htext (append_eq_empty_iff.mp hempty).2
  rw [State.finishReason, if_neg (fun hboth => hsaid hboth.2)]

end Reading

section Output

variable {output : List OutputItem} {events : List Event}

theorem joined_eq_empty {l : List String} : joined l = "" ↔ ∀ s ∈ l, s = "" := by
  induction l with
  | nil => simp
  | cons s rest ih => simp [append_eq_empty_iff, ih]

theorem itemAt_mem {k : ℕ} (h : k < output.length) : itemAt output k ∈ output := by
  rw [itemAt, List.getD, List.getElem?_eq_getElem h, Option.getD_some]
  exact List.getElem_mem h

theorem map_itemAt (output : List OutputItem) : (range output.length).map (itemAt output) = output := by
  refine List.ext_getElem (by simp) fun k hk hk' => ?_
  rw [List.getElem_map, List.getElem_range, itemAt, List.getD, List.getElem?_eq_getElem hk',
    Option.getD_some]

theorem outputTextAt_spec {k j : ℕ} {text : String} (h : outputTextAt output k j = some text) :
    k < output.length ∧ j < (itemAt output k).content.length ∧
      (messageText output = "" → text = "") := by
  simp only [outputTextAt] at h
  split at h
  next hmessage =>
    obtain ⟨content, hcontent, rfl⟩ := map_eq_some_iff.mp h
    obtain ⟨hget, htype⟩ := filter_eq_some_iff.mp hcontent
    have hk : k < output.length := by
      by_contra hge
      have hnone : (itemAt output k).type = "" := by
        rw [itemAt, List.getD, List.getElem?_eq_none (by omega), Option.getD_none]
      rw [hnone] at hmessage
      exact absurd hmessage.1 (by decide)
    obtain ⟨hj, hget⟩ := List.getElem?_eq_some_iff.mp hget
    refine ⟨hk, hj, fun hempty => ?_⟩
    refine joined_eq_empty.mp hempty content.text (mem_flatMap.mpr ⟨_, itemAt_mem hk, ?_⟩)
    have hrole : ¬ ((itemAt output k).role ≠ "" ∧ (itemAt output k).role ≠ "assistant") := by
      rintro ⟨hsome, hother⟩
      exact hmessage.2.elim hsome hother
    rw [if_neg (not_not.mpr hmessage.1), if_neg hrole]
    exact mem_map_of_mem (mem_filter.mpr ⟨hget ▸ getElem_mem hj, htype⟩)
  · cases h

theorem streamText_of_no_message (h : TextsComplete output events) (hempty : messageText output = "") :
    streamText events = "" := by
  refine joined_eq_empty.mpr fun delta hdelta => ?_
  obtain ⟨event, hevent, rfl⟩ := mem_map.mp hdelta
  cases event with
  | outputTextDelta k j delta =>
    obtain ⟨text, htext⟩ := isSome_iff_exists.mp (h.1 _ hevent (k, j) rfl)
    obtain ⟨hk, hj, hpart⟩ := outputTextAt_spec htext
    have hwhole : textAt events k j = "" := by rw [h.2 k hk j hj text htext, hpart hempty]
    refine joined_eq_empty.mp hwhole delta (mem_map.mpr ⟨.outputTextDelta k j delta, ?_, rfl⟩)
    exact mem_filter.mpr ⟨hevent, by simp [textPlace]⟩
  | _ => rfl

theorem filterMap_eq_map_filter {α β : Type} {f : α → Option β} {p : α → Prop} [DecidablePred p]
    {g : α → β} {l : List α} (h : ∀ x ∈ l, f x = if p x then some (g x) else none) :
    l.filterMap f = (l.filter p).map g := by
  induction l with
  | nil => rfl
  | cons x rest ih =>
    have hx := h x mem_cons_self
    have hrest := ih fun y hy => h y (mem_cons_of_mem x hy)
    by_cases hp : p x
    · rw [if_pos hp] at hx
      simp [hx, hp, hrest]
    · rw [if_neg hp] at hx
      simp [hx, hp, hrest]

theorem chatToolCalls_eq (hnames : WellNamed output) :
    chatToolCalls output = (callPlaces output).map fun k =>
      ⟨none, (itemAt output k).callID, (itemAt output k).callName, (itemAt output k).argumentsString⟩ := by
  have hoverall : chatToolCalls output = (range output.length).filterMap ((fun out =>
      if ¬ out.IsCall then none
      else if out.callName = "" then none
      else some ⟨none, out.callID, out.callName, out.argumentsString⟩) ∘ itemAt output) := by
    rw [← filterMap_map, map_itemAt]
    rfl
  rw [hoverall]
  refine filterMap_eq_map_filter fun k hk => ?_
  simp only [comp_apply]
  by_cases hcall : CallAt output k
  · have hitem : (itemAt output k).IsCall := hcall
    rw [if_neg (not_not.mpr hitem), if_neg (hnames.1 k (callAt_lt hcall) hcall).2, if_pos hcall]
  · have hitem : ¬ (itemAt output k).IsCall := hcall
    rw [if_pos hitem, if_neg hcall]

theorem eq_of_map_eq {l m : List ℕ} {f : ℕ → String} (hinj : ∀ j ∈ l, ∀ k ∈ m, f j = f k → j = k)
    (h : l.map f = m.map f) : l = m := by
  induction l generalizing m with
  | nil => exact (map_eq_nil_iff.mp h.symm).symm
  | cons j rest ih =>
    cases m with
    | nil => cases h
    | cons k others =>
      simp only [map_cons, cons.injEq] at h
      have hhead : j = k := hinj j mem_cons_self k mem_cons_self h.1
      have htail : rest = others := ih
        (fun i hi i' hi' => hinj i (mem_cons_of_mem j hi) i' (mem_cons_of_mem k hi')) h.2
      rw [hhead, htail]

def signature (call : ToolCall) : String × String × String := (call.id, call.name, call.arguments)

theorem calls_match_iff {after : Progress} (hnames : WellNamed output)
    (hcalls : ∀ k ∈ after.order, CallAt output k) (hcomplete : Completes output (some after)) :
    (callsOf output after).map signature = (chatToolCalls output).map signature ↔
      after.order = callPlaces output := by
  have hplaces : ∀ k ∈ callPlaces output, CallAt output k := by
    intro k hk
    simpa using (mem_filter.mp hk).2
  rw [chatToolCalls_eq hnames, callsOf, List.map_map, List.map_map]
  constructor
  · intro h
    refine eq_of_map_eq (f := fun k => (itemAt output k).callID)
      (fun j hj k hk => hnames.eq_of_callID (hcalls j hj) (hplaces k hk)) ?_
    have hids := congrArg (map Prod.fst) h
    simpa only [List.map_map, Function.comp_def, signature] using hids
  · intro h
    conv_rhs => rw [← h]
    refine map_congr_left fun k hk => ?_
    have hcall := hcalls k hk
    simp only [comp_apply, signature, (hcomplete k (callAt_lt hcall) hcall).2]

end Output

section Agreement

variable {response : Response} {events : List Event}

theorem completion_eq (response : Response) (id : String) :
    ∃ completion, responsesResponseToChatCompletionsResponse (some response) id = .ok completion ∧
      completion.content = extractOutputTextFromResponses response ∧
      completion.toolCalls =
        (if extractOutputTextFromResponses response = "" then chatToolCalls response.output else []) ∧
      completion.finishReason = if completion.toolCalls ≠ [] then "tool_calls" else "stop" := by
  refine ⟨_, rfl, ?_, rfl, rfl⟩
  by_cases htext : extractOutputTextFromResponses response = ""
  · simp [htext]
  · simp [htext]

/-- The text of the stream is that of the whole response when the messages' texts come in order and
are all the text there is. -/
theorem text_match_iff (htexts : TextsComplete response.output events) :
    streamText events = extractOutputTextFromResponses response ↔
      streamText events = messageText response.output ∧
        (messageText response.output = "" → anyText response.output = "") := by
  rw [extractOutputTextFromResponses]
  by_cases hmessage : messageText response.output = ""
  · have hstream := streamText_of_no_message htexts hmessage
    rw [if_neg (not_not.mpr hmessage), hstream, hmessage]
    exact ⟨fun hany => ⟨rfl, fun _ => hany.symm⟩, fun hany => (hany.2 rfl).symm⟩
  · rw [if_pos hmessage]
    simp [hmessage]

theorem calls_of_watch {after : Progress} (hnames : WellNamed response.output)
    (hwatch : watch (accept response) start events = some after) (htext : streamText events = "") :
    ∀ k ∈ after.order, CallAt response.output k := by
  have hfollows : Follows response.output start after
      (emitAll (handle "") events (initial 0 "")) :=
    run_follows hnames (tracks_start ..) hwatch htext
  exact hfollows.1.calls

theorem calls_agree_iff (relay : Relay) {after : Progress} {completion : ChatCompletion}
    (hnames : WellNamed response.output) (hcomplete : Completes response.output (some after))
    (hwatch : watch (accept response) start events = some after)
    (htext : streamText events = extractOutputTextFromResponses response)
    (htools : completion.toolCalls =
      if extractOutputTextFromResponses response = "" then chatToolCalls response.output else [])
    (hreason : completion.finishReason = if completion.toolCalls ≠ [] then "tool_calls" else "stop") :
    ((fragmentsOf (ranEvents relay events).1).foldl addFragment []).map signature =
        completion.toolCalls.map signature ∧
      (ranEvents relay events).2.finishReason = completion.finishReason ↔
    (streamText events ≠ "" → textFirst events = true) ∧
      (streamText events = "" → callOrder [] events = callPlaces response.output) := by
  rw [← htext] at htools
  by_cases hempty : streamText events = ""
  · obtain ⟨hfold, hfinish⟩ := read_without_text relay hnames hwatch hempty
    rw [if_pos hempty] at htools
    have hmatch := calls_match_iff hnames (calls_of_watch hnames hwatch hempty) hcomplete
    have horder : after.order = callOrder [] events := callOrder_watch hwatch
    rw [hfold, hfinish, hreason, htools, hmatch, horder]
    constructor
    · exact fun hboth => ⟨absurd hempty, fun _ => hboth.1⟩
    · rintro ⟨-, hsame⟩
      refine ⟨hsame hempty, ?_⟩
      have hnone : callOrder [] events ≠ [] ↔ chatToolCalls response.output ≠ [] := by
        rw [hsame hempty, chatToolCalls_eq hnames, Ne, Ne, map_eq_nil_iff]
      simp only [hnone]
  · obtain ⟨hfold, hfinish⟩ := read_with_text relay hnames hwatch hempty
    rw [if_neg hempty] at htools
    rw [hfinish, hreason, htools, map_nil, map_eq_nil_iff, hfold]
    simp [hempty]

/-- For a consistent stream the client reads the whole response exactly when text and calls come in
order. -/
theorem stream_matches_iff (relay : Relay) (response : Response) (events : List Event)
    (h : Consistent response events) : Matches relay response events ↔ Ordered response events := by
  obtain ⟨hnames, htexts, hcalls, hlast⟩ := h
  obtain ⟨after, hwatch⟩ : ∃ after, watch (accept response) start events = some after := by
    cases hwatch : watch (accept response) start events with
    | none =>
      rw [hwatch] at hcalls
      exact hcalls.elim
    | some after => exact ⟨after, rfl⟩
  rw [hwatch] at hcalls
  obtain ⟨completion, hcompletion, hcontent, htools, hreason⟩ :=
    completion_eq response relay.responseId
  obtain ⟨htext, hassembled, hfinishes⟩ := read_stream relay hwatch hlast
  have hagree (hsame : streamText events = extractOutputTextFromResponses response) :=
    calls_agree_iff relay hnames hcalls hwatch hsame htools hreason
  constructor
  · rintro ⟨other, hother, hread, htoolCalls, hfinish⟩
    rw [hcompletion] at hother
    cases hother
    rw [htext, hcontent] at hread
    rw [hassembled] at htoolCalls
    rw [hfinishes] at hfinish
    obtain ⟨hmessage, honly⟩ := (text_match_iff htexts).mp hread
    obtain ⟨hfirst, horder⟩ := (hagree hread).mp ⟨htoolCalls, singleton_inj.mp hfinish⟩
    exact ⟨hmessage, honly, hfirst, horder⟩
  · rintro ⟨hmessage, honly, hfirst, horder⟩
    have hread := (text_match_iff htexts).mpr ⟨hmessage, honly⟩
    obtain ⟨htoolCalls, hfinish⟩ := (hagree hread).mpr ⟨hfirst, horder⟩
    refine ⟨completion, hcompletion, ?_, ?_, ?_⟩
    · rw [htext, hcontent, hread]
    · rw [hassembled]
      exact htoolCalls
    · rw [hfinishes, hfinish]

def callItem (id callId name arguments : String) : OutputItem :=
  ⟨"function_call", id, "", [], callId, name, .string arguments⟩

def messageItem (text : String) : OutputItem :=
  ⟨"message", "msg_1", "assistant", [⟨"output_text", text⟩], "", "", .missing⟩

def responseOf (output : List OutputItem) : Response :=
  ⟨"gpt-5", 1700000000, output, some ⟨7, 5, 12, none, 0⟩, none⟩

def chatRelay : Relay := ⟨"chatcmpl-1", 0, "gpt-5", true, fun _ => noUsage⟩

def twoCalls : Response :=
  responseOf [callItem "fc_1" "call_1" "weather" "[1,3]", callItem "fc_2" "call_2" "time" "[2]"]

def parallelCalls : List Event :=
  [.outputItem .added 0 (some (callItem "fc_1" "call_1" "weather" "")),
    .outputItem .added 1 (some (callItem "fc_2" "call_2" "time" "")),
    .functionCallArgumentsDelta 0 "fc_1" "[1", .functionCallArgumentsDelta 1 "fc_2" "[2",
    .functionCallArgumentsDelta 0 "fc_1" ",3]", .functionCallArgumentsDelta 1 "fc_2" "]",
    .outputItem .done 1 (some (callItem "fc_2" "call_2" "time" "[2]")),
    .outputItem .done 0 (some (callItem "fc_1" "call_1" "weather" "[1,3]")),
    .completed (some twoCalls)]

theorem parallelCalls_match :
    Consistent twoCalls parallelCalls ∧ Matches chatRelay twoCalls parallelCalls :=
  have hconsistent : Consistent twoCalls parallelCalls := by decide +kernel
  ⟨hconsistent, (stream_matches_iff _ _ _ hconsistent).mpr (by decide +kernel)⟩

def callAndText : Response :=
  responseOf [callItem "fc_1" "call_1" "weather" "[1]", messageItem "Wait."]

def callBeforeText : List Event :=
  [.outputItem .added 0 (some (callItem "fc_1" "call_1" "weather" "")),
    .functionCallArgumentsDelta 0 "fc_1" "[1]",
    .outputItem .done 0 (some (callItem "fc_1" "call_1" "weather" "[1]")),
    .outputTextDelta 1 0 "Wait.", .completed (some callAndText)]

/-- A call before the text is in the stream but not in the whole response. -/
theorem call_before_text_differs :
    Consistent callAndText callBeforeText ∧ ¬ Matches chatRelay callAndText callBeforeText := by
  refine ⟨by decide +kernel, ?_⟩
  rintro ⟨completion, hcompletion, -, hcalls, -⟩
  obtain rfl := Except.ok.inj hcompletion
  revert hcalls
  decide +kernel

end Agreement

end ResponsesStream
