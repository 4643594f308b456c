import TinyToken.ChatChunks

/-! A chat completion answer for a Gemini client, as a stream by `StreamResponseOpenAI2Gemini` and
as a whole by `ResponseOpenAI2Gemini`. -/
namespace GeminiStream

open ChatChunks (ToolCall joined joined_append)
open List

structure Usage where
  promptTokens : ℤ
  completionTokens : ℤ
  totalTokens : ℤ

structure Delta where
  content : Option String
  toolCalls : Option (List ToolCall)

def Delta.getContentString (delta : Delta) : String := delta.content.getD ""

structure Choice where
  index : ℤ
  delta : Delta
  finishReason : Option String

structure Chunk where
  choices : List Choice
  usage : Option Usage

/-- The arguments of a function call: an object, encoded, or a text under the key arguments. -/
inductive Arguments where
  | object (encoded : String)
  | wrapped (arguments : String)
  deriving DecidableEq

structure FunctionCall where
  functionName : String
  arguments : Arguments
  deriving DecidableEq

inductive Part where
  | text (text : String)
  | functionCall (call : FunctionCall)

structure Candidate where
  index : ℤ
  finishReason : Option String
  parts : List Part

structure UsageMetadata where
  promptTokenCount : ℤ
  candidatesTokenCount : ℤ
  totalTokenCount : ℤ

structure GeminiResponse where
  candidates : List Candidate
  usageMetadata : UsageMetadata

def convertFinishReason (reason : String) : String :=
  if reason = "length" then "MAX_TOKENS"
  else if reason = "content_filter" then "SAFETY"
  else "STOP"

section Conversion

-- `json.Unmarshal` into an object, encoded again
variable (unmarshal : String → Option String)

def parseArguments (arguments : String) : Arguments :=
  if arguments = "" then .object "\x7b\x7d"
  else
    match unmarshal arguments with
    | some encoded => .object encoded
    | none => .wrapped arguments

def functionPart (name arguments : String) : Part :=
  .functionCall ⟨name, parseArguments unmarshal arguments⟩

def textParts (text : String) : List Part := if text ≠ "" then [.text text] else []

def deltaParts (delta : Delta) : List Part :=
  match delta.toolCalls with
  | some toolCalls => toolCalls.map fun toolCall => functionPart unmarshal toolCall.name toolCall.arguments
  | none => textParts delta.getContentString

def streamResponseOpenAI2Gemini (estimatePromptTokens : ℤ) (chunk : Chunk) : Option GeminiResponse :=
  let hasContent := chunk.choices.any fun choice =>
    choice.delta.getContentString ≠ "" || !(choice.delta.toolCalls.getD []).isEmpty
  let hasFinishReason := chunk.choices.any fun choice => choice.finishReason.isSome
  if !hasContent && !hasFinishReason then none
  else some
    { candidates := chunk.choices.map fun choice =>
        ⟨choice.index, choice.finishReason.map convertFinishReason, deltaParts unmarshal choice.delta⟩
      usageMetadata := match chunk.usage with
        | some usage => ⟨usage.promptTokens, usage.completionTokens, usage.totalTokens⟩
        | none => ⟨estimatePromptTokens, 0, estimatePromptTokens⟩ }

structure AnswerCall where
  name : String
  arguments : String

structure AnswerChoice where
  index : ℤ
  content : String
  toolCalls : List AnswerCall
  finishReason : String

def answerParts (choice : AnswerChoice) : List Part :=
  if choice.toolCalls ≠ [] then
    choice.toolCalls.map fun toolCall => functionPart unmarshal toolCall.name toolCall.arguments
  else textParts choice.content

def responseOpenAI2Gemini (usage : Usage) (choices : List AnswerChoice) : GeminiResponse where
  candidates := choices.map fun choice =>
    ⟨choice.index, some (convertFinishReason choice.finishReason), answerParts unmarshal choice⟩
  usageMetadata := ⟨usage.promptTokens, usage.completionTokens,
    usage.promptTokens + usage.completionTokens⟩

/-- What the client is sent: each chunk is converted once, the last one by the final handler. -/
def relayed (estimatePromptTokens : ℤ) (chunks : List Chunk) : List GeminiResponse :=
  chunks.filterMap (streamResponseOpenAI2Gemini unmarshal estimatePromptTokens)

end Conversion

def partsOf (responses : List GeminiResponse) : List Part :=
  responses.flatMap fun response => response.candidates.flatMap Candidate.parts

def callsOf (parts : List Part) : List FunctionCall :=
  parts.filterMap fun part =>
    match part with
    | .functionCall call => some call
    | .text _ => none

def textOf (parts : List Part) : String :=
  joined (parts.filterMap fun part =>
    match part with
    | .text text => some text
    | .functionCall _ => none)

structure Fragment where
  index : ℤ
  name : String
  arguments : String

def fragmentsFrom : ℕ → List ToolCall → List Fragment
  | _, [] => []
  | position, toolCall :: rest =>
    ⟨toolCall.index.getD position, toolCall.name, toolCall.arguments⟩ :: fragmentsFrom (position + 1) rest

def deltasOf (chunks : List Chunk) : List Delta :=
  chunks.flatMap fun chunk => chunk.choices.map Choice.delta

def fragmentsOf (chunks : List Chunk) : List Fragment :=
  (deltasOf chunks).flatMap fun delta => fragmentsFrom 0 (delta.toolCalls.getD [])

def firsts : List ℤ → List ℤ
  | [] => []
  | index :: rest => index :: (firsts rest).filter (· ≠ index)

def callOf (fragments : List Fragment) (index : ℤ) : AnswerCall :=
  let own := fragments.filter fun fragment => fragment.index = index
  ⟨joined (own.map Fragment.name), joined (own.map Fragment.arguments)⟩

def assembleCalls (fragments : List Fragment) : List AnswerCall :=
  (firsts (fragments.map Fragment.index)).map (callOf fragments)

def contentOf (chunks : List Chunk) : String :=
  joined ((deltasOf chunks).map Delta.getContentString)

def assemble (chunks : List Chunk) (finishReason : String) : AnswerChoice :=
  ⟨0, contentOf chunks, assembleCalls (fragmentsOf chunks), finishReason⟩

variable (unmarshal : String → Option String) {fragments : List Fragment}

/-- The stream has the calls and the text of the answer, and so has the answer sent as a whole. -/
def Matches (estimatePromptTokens : ℤ) (usage : Usage) (finishReason : String)
    (chunks : List Chunk) : Prop :=
  let streamed := partsOf (relayed unmarshal estimatePromptTokens chunks)
  let whole := partsOf [responseOpenAI2Gemini unmarshal usage [assemble chunks finishReason]]
  callsOf streamed = (assembleCalls (fragmentsOf chunks)).map (fun call =>
      ⟨call.name, parseArguments unmarshal call.arguments⟩) ∧
  textOf streamed = contentOf chunks ∧ callsOf whole = callsOf streamed ∧ textOf whole = textOf streamed

/-- Every tool call comes in one fragment, no delta with a list of tool calls has content, and
the answer has no text beside tool calls. -/
def Carried (chunks : List Chunk) : Prop :=
  ((fragmentsOf chunks).map Fragment.index).Nodup ∧
  (∀ delta ∈ deltasOf chunks, delta.toolCalls ≠ none → delta.getContentString = "") ∧
  (fragmentsOf chunks = [] ∨ contentOf chunks = "")

section Parts

variable {unmarshal : String → Option String}

theorem deltaParts_of_skipped {delta : Delta} (hcontent : delta.getContentString = "")
    (hcalls : delta.toolCalls.getD [] = []) : deltaParts unmarshal delta = [] := by
  cases htools : delta.toolCalls with
  | none => simp [deltaParts, htools, textParts, hcontent]
  | some toolCalls =>
    have hnil : toolCalls = [] := by simpa [htools] using hcalls
    simp [deltaParts, htools, hnil]

theorem partsOf_relayed (estimatePromptTokens : ℤ) (chunks : List Chunk) :
    partsOf (relayed unmarshal estimatePromptTokens chunks) =
      (deltasOf chunks).flatMap (deltaParts unmarshal) := by
  induction chunks with
  | nil => rfl
  | cons chunk rest ih =>
    have hrest : partsOf (rest.filterMap (streamResponseOpenAI2Gemini unmarshal estimatePromptTokens)) =
        (deltasOf rest).flatMap (deltaParts unmarshal) := ih
    have hdeltas : (deltasOf (chunk :: rest)).flatMap (deltaParts unmarshal) =
        (chunk.choices.map Choice.delta).flatMap (deltaParts unmarshal) ++
          (deltasOf rest).flatMap (deltaParts unmarshal) := by
      simp [deltasOf]
    rw [relayed, hdeltas, ← hrest]
    cases hsent : streamResponseOpenAI2Gemini unmarshal estimatePromptTokens chunk with
    | none =>
      have hnone : (chunk.choices.map Choice.delta).flatMap (deltaParts unmarshal) = [] := by
        rw [List.flatMap_eq_nil_iff]
        intro delta hdelta
        obtain ⟨choice, hchoice, rfl⟩ := List.mem_map.mp hdelta
        simp only [streamResponseOpenAI2Gemini] at hsent
        split at hsent
        next hskip =>
          simp only [Bool.and_eq_true, List.any_eq_false, Bool.or_eq_true,
            decide_eq_true_eq, not_or, not_not, Bool.not_eq_eq_eq_not, Bool.not_true] at hskip
          have hquiet := hskip.1 choice hchoice
          apply deltaParts_of_skipped hquiet.1
          simpa using hquiet.2
        · cases hsent
      simp [hsent, hnone]
    | some response =>
      have hparts : response.candidates.flatMap Candidate.parts =
          (chunk.choices.map Choice.delta).flatMap (deltaParts unmarshal) := by
        simp only [streamResponseOpenAI2Gemini] at hsent
        split at hsent
        · cases hsent
        · cases hsent
          simp [List.flatMap_map]
      simp [hsent, partsOf, hparts]

theorem callsOf_append (parts later : List Part) :
    callsOf (parts ++ later) = callsOf parts ++ callsOf later := by
  simp [callsOf]

theorem textOf_append (parts later : List Part) :
    textOf (parts ++ later) = textOf parts ++ textOf later := by
  simp [textOf]

theorem textOf_textParts (text : String) : textOf (textParts text) = text := by
  by_cases htext : text = "" <;> simp [textParts, textOf, htext]

theorem callsOf_textParts (text : String) : callsOf (textParts text) = [] := by
  by_cases htext : text = "" <;> simp [textParts, callsOf, htext]

theorem callsOf_functions {α : Type} (name arguments : α → String) (l : List α) :
    callsOf (l.map fun x => functionPart unmarshal (name x) (arguments x)) =
      l.map fun x => ⟨name x, parseArguments unmarshal (arguments x)⟩ := by
  induction l with
  | nil => rfl
  | cons x rest _ => simp [callsOf, functionPart]

theorem textOf_functions {α : Type} (name arguments : α → String) (l : List α) :
    textOf (l.map fun x => functionPart unmarshal (name x) (arguments x)) = "" := by
  induction l with
  | nil => rfl
  | cons x rest _ => simp [textOf, functionPart]

def shownContent (delta : Delta) : String :=
  if delta.toolCalls = none then delta.getContentString else ""

theorem textOf_deltaParts (delta : Delta) : textOf (deltaParts unmarshal delta) = shownContent delta := by
  cases htools : delta.toolCalls with
  | none => simp [deltaParts, htools, shownContent, textOf_textParts]
  | some toolCalls =>
    simp only [deltaParts, htools, shownContent, reduceCtorEq, if_false]
    exact textOf_functions ToolCall.name ToolCall.arguments toolCalls

theorem map_fragmentsFrom (position : ℕ) (toolCalls : List ToolCall) :
    (fragmentsFrom position toolCalls).map (fun fragment =>
      (⟨fragment.name, parseArguments unmarshal fragment.arguments⟩ : FunctionCall)) =
      toolCalls.map fun toolCall => ⟨toolCall.name, parseArguments unmarshal toolCall.arguments⟩ := by
  induction toolCalls generalizing position with
  | nil => rfl
  | cons toolCall rest ih => simp [fragmentsFrom, ih]

theorem callsOf_deltaParts (delta : Delta) : callsOf (deltaParts unmarshal delta) =
      (fragmentsFrom 0 (delta.toolCalls.getD [])).map fun fragment =>
        ⟨fragment.name, parseArguments unmarshal fragment.arguments⟩ := by
  rw [map_fragmentsFrom]
  cases htools : delta.toolCalls with
  | none => simp [deltaParts, htools, callsOf_textParts]
  | some toolCalls =>
    simp only [deltaParts, htools, Option.getD_some]
    exact callsOf_functions ToolCall.name ToolCall.arguments toolCalls

theorem callsOf_streamed (deltas : List Delta) : callsOf (deltas.flatMap (deltaParts unmarshal)) =
      (deltas.flatMap fun delta => fragmentsFrom 0 (delta.toolCalls.getD [])).map fun fragment =>
        ⟨fragment.name, parseArguments unmarshal fragment.arguments⟩ := by
  induction deltas with
  | nil => rfl
  | cons delta rest ih =>
    rw [flatMap_cons, callsOf_append, callsOf_deltaParts, ih, flatMap_cons, map_append]

theorem textOf_streamed (deltas : List Delta) :
    textOf (deltas.flatMap (deltaParts unmarshal)) = joined (deltas.map shownContent) := by
  induction deltas with
  | nil => rfl
  | cons delta rest ih =>
    rw [flatMap_cons, textOf_append, textOf_deltaParts, ih]
    rfl

end Parts

theorem length_firsts_le (l : List ℤ) : (firsts l).length ≤ l.length := by
  induction l with
  | nil => exact Nat.le_refl _
  | cons index rest ih =>
    have hfilter := length_filter_le (· ≠ index) (firsts rest)
    simp only [firsts, length_cons]
    omega

theorem firsts_of_nodup {l : List ℤ} (h : l.Nodup) : firsts l = l := by
  induction l with
  | nil => rfl
  | cons index rest ih =>
    obtain ⟨hnot, hrest⟩ := nodup_cons.mp h
    rw [firsts, ih hrest, filter_eq_self.mpr]
    intro other hother
    have hne : other ≠ index := fun he => hnot (he ▸ hother)
    simpa using hne

theorem nodup_of_length_firsts {l : List ℤ} (h : (firsts l).length = l.length) : l.Nodup := by
  induction l with
  | nil => exact nodup_nil
  | cons index rest ih =>
    have hfilter := length_filter_le (· ≠ index) (firsts rest)
    have hle := length_firsts_le rest
    simp only [firsts, length_cons] at h
    have hrest : rest.Nodup := ih (by omega)
    refine nodup_cons.mpr ⟨fun hmem => ?_, hrest⟩
    -- the filter would have taken the index out
    rw [firsts_of_nodup hrest] at h hfilter
    have hless : (rest.filter (· ≠ index)).length < rest.length :=
      length_filter_lt_length_iff_exists.mpr ⟨index, hmem, by simp⟩
    omega

theorem callOf_fragment (h : (fragments.map Fragment.index).Nodup) {fragment : Fragment}
    (hmem : fragment ∈ fragments) :
    callOf fragments fragment.index = ⟨fragment.name, fragment.arguments⟩ := by
  have hown : fragments.filter (fun other => other.index = fragment.index) = [fragment] := by
    induction fragments with
    | nil => cases hmem
    | cons first rest ih =>
      obtain ⟨hnot, hrest⟩ := nodup_cons.mp h
      rcases mem_cons.mp hmem with rfl | hlater
      · have hnone : rest.filter (fun other => other.index = fragment.index) = [] := by
          rw [filter_eq_nil_iff]
          intro other hother
          have hne : other.index ≠ fragment.index := fun he =>
            hnot (he ▸ mem_map_of_mem hother)
          simpa using hne
        simp [hnone]
      · have hne : first.index ≠ fragment.index := fun he =>
          hnot (he ▸ mem_map_of_mem hlater)
        simpa [hne] using ih hrest hlater
  simp [callOf, hown]

theorem assembleCalls_of_nodup (h : (fragments.map Fragment.index).Nodup) :
    assembleCalls fragments = fragments.map fun fragment => ⟨fragment.name, fragment.arguments⟩ := by
  rw [assembleCalls, firsts_of_nodup h, List.map_map]
  exact map_congr_left fun fragment hmem => callOf_fragment h hmem

theorem assembleCalls_eq_nil : assembleCalls fragments = [] ↔ fragments = [] := by
  cases fragments with
  | nil | cons fragment rest => simp [assembleCalls, firsts]

theorem calls_match_iff (fragments : List Fragment) : (fragments.map fun fragment =>
        (⟨fragment.name, parseArguments unmarshal fragment.arguments⟩ : FunctionCall)) =
      (assembleCalls fragments).map (fun call => ⟨call.name, parseArguments unmarshal call.arguments⟩) ↔
      (fragments.map Fragment.index).Nodup := by
  constructor
  · intro h
    have hlength := congrArg List.length h
    simp only [List.length_map, assembleCalls] at hlength
    exact nodup_of_length_firsts (by rw [List.length_map]; exact hlength.symm)
  · intro h
    rw [assembleCalls_of_nodup h, List.map_map]
    rfl

theorem length_joined_le {α : Type} {f g : α → String} (h : ∀ x, f x = g x ∨ f x = "") (l : List α) :
    (joined (l.map f)).length ≤ (joined (l.map g)).length := by
  induction l with
  | nil => exact Nat.le_refl _
  | cons x rest ih =>
    simp only [List.map_cons, joined, String.length_append]
    rcases h x with hx | hx
    · rw [hx]
      omega
    · rw [hx, String.length_empty]
      omega

theorem joined_eq_iff {α : Type} {f g : α → String} (h : ∀ x, f x = g x ∨ f x = "") (l : List α) :
    joined (l.map f) = joined (l.map g) ↔ ∀ x ∈ l, f x = g x := by
  constructor
  · intro heq
    have hlength : (joined (l.map f)).length = (joined (l.map g)).length := by rw [heq]
    clear heq
    induction l with
    | nil => simp
    | cons x rest ih =>
      have hrest := length_joined_le h rest
      simp only [List.map_cons, joined, String.length_append] at hlength
      have hx : f x = g x := by
        rcases h x with hx | hx
        · exact hx
        · rw [hx, String.length_empty] at hlength
          have hzero : (g x).length = 0 := by omega
          rw [hx, String.length_eq_zero_iff.mp hzero]
      rw [hx] at hlength
      intro y hy
      rcases List.mem_cons.mp hy with rfl | hy
      · exact hx
      · exact ih (by omega) y hy
  · intro hall
    rw [List.map_congr_left hall]

theorem text_matches_iff (deltas : List Delta) :
    joined (deltas.map shownContent) = joined (deltas.map Delta.getContentString) ↔
      ∀ delta ∈ deltas, delta.toolCalls ≠ none → delta.getContentString = "" := by
  rw [joined_eq_iff]
  · refine forall₂_congr fun delta _ => ?_
    by_cases hnone : delta.toolCalls = none
    · simp [shownContent, hnone]
    · rw [shownContent, if_neg hnone]
      exact ⟨fun hempty _ => hempty.symm, fun hempty => (hempty hnone).symm⟩
  · intro delta
    by_cases hnone : delta.toolCalls = none
    · exact .inl (by simp [shownContent, hnone])
    · exact .inr (by simp [shownContent, hnone])

theorem whole_parts (usage : Usage) (choice : AnswerChoice) :
    callsOf (partsOf [responseOpenAI2Gemini unmarshal usage [choice]]) =
        choice.toolCalls.map (fun call => ⟨call.name, parseArguments unmarshal call.arguments⟩) ∧
      textOf (partsOf [responseOpenAI2Gemini unmarshal usage [choice]]) =
        if choice.toolCalls = [] then choice.content else "" := by
  have hparts : partsOf [responseOpenAI2Gemini unmarshal usage [choice]] =
      answerParts unmarshal choice := by
    simp [partsOf, responseOpenAI2Gemini]
  rw [hparts]
  by_cases hcalls : choice.toolCalls = []
  · simp [answerParts, hcalls, callsOf_textParts, textOf_textParts]
  · rw [answerParts, if_pos hcalls, if_neg hcalls]
    exact ⟨callsOf_functions AnswerCall.name AnswerCall.arguments _,
      textOf_functions AnswerCall.name AnswerCall.arguments _⟩

/-- The stream and the whole answer agree exactly for streams with whole calls and no text beside
them. -/
theorem gemini_stream_matches_iff (unmarshal : String → Option String) (estimatePromptTokens : ℤ)
    (usage : Usage) (finishReason : String) (chunks : List Chunk) :
    Matches unmarshal estimatePromptTokens usage finishReason chunks ↔ Carried chunks := by
  obtain ⟨hwholeCalls, hwholeText⟩ := whole_parts unmarshal usage (assemble chunks finishReason)
  have hcalls := calls_match_iff unmarshal (fragmentsOf chunks)
  have htext := text_matches_iff (deltasOf chunks)
  simp only [Matches, Carried, partsOf_relayed, callsOf_streamed, textOf_streamed, hwholeCalls,
    hwholeText]
  change (fragmentsOf chunks).map _ = _ ∧ _ = contentOf chunks ∧
    (assembleCalls (fragmentsOf chunks)).map _ = (fragmentsOf chunks).map _ ∧
    (if assembleCalls (fragmentsOf chunks) = [] then contentOf chunks else "") = _ ↔ _
  rw [hcalls]
  constructor
  · rintro ⟨hnodup, hstreamed, -, hwhole⟩
    refine ⟨hnodup, htext.mp hstreamed, ?_⟩
    rw [hstreamed] at hwhole
    by_cases hnone : assembleCalls (fragmentsOf chunks) = []
    · exact .inl (assembleCalls_eq_nil.mp hnone)
    · rw [if_neg hnone] at hwhole
      exact .inr hwhole.symm
  · rintro ⟨hnodup, hseparate, hbeside⟩
    have hstreamed := htext.mpr hseparate
    refine ⟨hnodup, hstreamed, (hcalls.mpr hnodup).symm, ?_⟩
    rw [hstreamed]
    change _ = contentOf chunks
    rcases hbeside with hnone | hempty
    · rw [if_pos (assembleCalls_eq_nil.mpr hnone)]
    · rw [hempty]
      split <;> rfl

/-- A call in two fragments is sent as two calls, one of them without a name. -/
theorem call_in_two_fragments_doubled :
    ¬ Matches (fun arguments => if arguments = "\x7b\"city\":1\x7d" then some arguments else none)
      7 ⟨7, 5, 12⟩ "tool_calls"
      [⟨[⟨0, ⟨none, some [⟨some 0, "call_1", "weather", "\x7b\"city\":"⟩]⟩, none⟩], none⟩,
        ⟨[⟨0, ⟨none, some [⟨some 0, "", "", "1\x7d"⟩]⟩, none⟩], none⟩,
        ⟨[⟨0, ⟨none, none⟩, some "tool_calls"⟩], none⟩] := by
  rintro ⟨hcalls, -⟩
  revert hcalls
  decide +kernel

end GeminiStream
