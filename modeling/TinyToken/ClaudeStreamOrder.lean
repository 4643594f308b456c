import TinyToken.ClaudeStream
import TinyToken.StepMachines

/-! The order of the events of a converted stream. A monitor reads the events as a Claude client
does: one message start, blocks numbered without gaps, deltas of a block's own type while it is
open, then the message delta and the stop, and nothing after it. -/
namespace ClaudeStream

open ChatChunks EmittingMachines StepMachines List Option

inductive BlockKind where
  | text | thinking | toolUse
  deriving DecidableEq

def ContentBlock.kind : ContentBlock → BlockKind
  | .text => .text
  | .thinking => .thinking
  | .toolUse _ _ => .toolUse

def BlockDelta.kind : BlockDelta → BlockKind
  | .text _ => .text
  | .thinking _ => .thinking
  | .inputJson _ => .toolUse

inductive Phase where
  | beforeStart | blocks | afterDelta | stopped
  deriving DecidableEq

structure Monitor where
  phase : Phase
  next : ℤ
  opened : List (ℤ × BlockKind)

def Monitor.start : Monitor := ⟨.beforeStart, 0, []⟩

def accept (m : Monitor) : Event → Option Monitor
  | .messageStart _ _ _ => if m.phase = .beforeStart then some { m with phase := .blocks } else none
  | .blockStart index block =>
    if m.phase = .blocks ∧ index = m.next then
      some { m with next := m.next + 1, opened := m.opened ++ [(index, block.kind)] }
    else none
  | .blockDelta index delta =>
    if m.phase = .blocks ∧ (index, delta.kind) ∈ m.opened then some m else none
  | .blockStop index =>
    if m.phase = .blocks ∧ index ∈ m.opened.map Prod.fst then
      some { m with opened := m.opened.filter fun block => block.1 ≠ index }
    else none
  | .messageDelta _ _ =>
    if m.phase = .blocks ∧ m.opened = [] then some { m with phase := .afterDelta } else none
  | .messageStop => if m.phase = .afterDelta then some { m with phase := .stopped } else none

def ValidStream (events : List Event) : Prop :=
  (watch accept Monitor.start events).map Monitor.phase = some .stopped

instance (events : List Event) : Decidable (ValidStream events) :=
  inferInstanceAs (Decidable (_ = some _))

def toolBlocks (base : ℤ) (count : ℕ) : List (ℤ × BlockKind) :=
  (range count).map fun (offset : ℕ) => (base + offset, .toolUse)

def ConvertInfo.openBlocks (info : ConvertInfo) : List (ℤ × BlockKind) :=
  match info.lastMessagesType with
  | .none => []
  | .text => [(info.index, .text)]
  | .thinking => [(info.index, .thinking)]
  | .tools => toolBlocks info.toolCallBaseIndex (info.toolCallMaxIndexOffset + 1).toNat

def ConvertInfo.nextBlock (info : ConvertInfo) : ℤ :=
  match info.lastMessagesType with
  | .none => info.index
  | .text | .thinking => info.index + 1
  | .tools => info.toolCallBaseIndex + info.toolCallMaxIndexOffset + 1

/-- The converter's blocks are the monitor's, and the message is not closed. -/
structure Tracks (info : ConvertInfo) (m : Monitor) : Prop where
  running : info.done = false
  phase : m.phase = .blocks
  opened : m.opened = info.openBlocks
  next : m.next = info.nextBlock
  offset : 0 ≤ info.toolCallMaxIndexOffset

structure Closed (info : ConvertInfo) (m : Monitor) : Prop where
  done : info.done = true
  phase : m.phase = .stopped

structure Stopped (info : ConvertInfo) (m : Monitor) : Prop where
  running : info.done = false
  phase : m.phase = .blocks
  opened : m.opened = []
  next : m.next = info.nextBlock
  offset : 0 ≤ info.toolCallMaxIndexOffset

def TracksAt (type : LastMessageType) (info : ConvertInfo) (m : Monitor) : Prop :=
  info.lastMessagesType = type ∧ Tracks info m

theorem watch_toolStops (base next : ℤ) (n k : ℕ) : watch accept
        ⟨.blocks, next, (range' k n).map fun (offset : ℕ) => (base + offset, .toolUse)⟩
        ((range' k n).map fun (offset : ℕ) => .blockStop (base + offset)) =
      some ⟨.blocks, next, []⟩ := by
  induction n generalizing k with
  | zero => rfl
  | succ n ih =>
    -- the blocks after the first have other numbers
    have hrest : ((range' (k + 1) n).map fun (offset : ℕ) =>
        (base + (offset : ℤ), BlockKind.toolUse)).filter (fun block => block.1 ≠ base + (k : ℤ)) =
        (range' (k + 1) n).map fun (offset : ℕ) => (base + (offset : ℤ), BlockKind.toolUse) := by
      rw [filter_eq_self]
      intro block hblock
      obtain ⟨offset, hoffset, rfl⟩ := mem_map.mp hblock
      have hge : k + 1 ≤ offset := (mem_range'_1.mp hoffset).1
      have hne : base + (offset : ℤ) ≠ base + (k : ℤ) := by omega
      simpa using hne
    rw [range'_succ, map_cons, map_cons, watch]
    simp only [accept, map_cons, mem_cons, true_or, and_self, if_true, bind_some,
      filter_cons, ne_eq, not_true_eq_false, decide_false, Bool.false_eq_true, if_false]
    simp only [ne_eq] at hrest
    rw [hrest]
    exact ih (k + 1)

theorem leads_stopOpenBlocks : Leads accept Tracks stopOpenBlocks Stopped := by
  intro info m h
  refine ⟨{ m with opened := [] }, ?_, ?_⟩
  · obtain ⟨phase, next, opened⟩ := m
    have hphase : phase = .blocks := h.phase
    have hopened : opened = info.openBlocks := h.opened
    subst hphase hopened
    cases htype : info.lastMessagesType with
    | none => simp [stopOpenBlocks, htype, ConvertInfo.openBlocks, watch]
    | text | thinking => simp [stopOpenBlocks, htype, ConvertInfo.openBlocks, watch, accept]
    | tools =>
      simp only [stopOpenBlocks, htype, ConvertInfo.openBlocks, toolBlocks, range_eq_range']
      exact watch_toolStops _ _ _ _
  · rw [state_stopOpenBlocks]
    exact ⟨h.running, h.phase, rfl, h.next, h.offset⟩

theorem leads_stopOpenBlocksAndAdvance :
    Leads accept Tracks stopOpenBlocksAndAdvance (TracksAt .none) := by
  intro info m h
  obtain ⟨m', hm', hstopped⟩ := leads_stopOpenBlocks info m h
  rw [state_stopOpenBlocks] at hstopped
  obtain ⟨hrunning, hphase, hopened, hnext, hoffset⟩ := hstopped
  cases htype : info.lastMessagesType with
  | none =>
    refine ⟨m, by simp [stopOpenBlocksAndAdvance, htype, watch], ?_⟩
    simp only [stopOpenBlocksAndAdvance, htype]
    exact ⟨htype, h⟩
  | text | thinking =>
    simp only [stopOpenBlocksAndAdvance, htype]
    refine ⟨m', hm', rfl, hrunning, hphase, hopened, ?_, hoffset⟩
    simpa [ConvertInfo.nextBlock, htype] using hnext
  | tools =>
    simp only [stopOpenBlocksAndAdvance, htype]
    refine ⟨m', hm', rfl, hrunning, hphase, hopened, ?_, Int.le_rfl⟩
    simpa [ConvertInfo.nextBlock, htype] using hnext

theorem leads_finishMessage (usage : Usage) (reason : ConvertInfo → String) :
    Leads accept Tracks (finishMessage (some usage) reason) Closed := by
  apply leads_stopOpenBlocks.andThen
  intro info m h
  refine ⟨{ m with phase := .stopped }, ?_, rfl, rfl⟩
  simp [watch, accept, h.phase, h.opened]

def LastMessageType.kind? : LastMessageType → Option BlockKind
  | .text => some .text
  | .thinking => some .thinking
  | .none | .tools => Option.none

variable {type : LastMessageType}

theorem leads_openBlock {block : ContentBlock} (hkind : type.kind? = some block.kind) :
    Leads accept (TracksAt .none) (openBlock type block) (TracksAt type) := by
  rintro info m ⟨hnone, hrunning, hphase, hopened, hnext, hoffset⟩
  have hempty : m.opened = [] := by simpa [ConvertInfo.openBlocks, hnone] using hopened
  have hindex : m.next = info.index := by simpa [ConvertInfo.nextBlock, hnone] using hnext
  refine ⟨{ m with next := m.next + 1, opened := [(info.index, block.kind)] }, ?_, rfl, hrunning,
    hphase, ?_, ?_, hoffset⟩
  · simp [openBlock, watch, accept, hphase, hempty, hindex]
  · cases type <;> simp_all [openBlock, ConvertInfo.openBlocks, LastMessageType.kind?]
  · cases type <;> simp_all [openBlock, ConvertInfo.nextBlock, LastMessageType.kind?]

theorem leads_emitDelta {delta : BlockDelta} (hkind : type.kind? = some delta.kind) :
    Leads accept (TracksAt type) (emitDelta delta) Tracks := by
  rintro info m ⟨htype, h⟩
  refine ⟨m, ?_, h⟩
  have hmem : (info.index, delta.kind) ∈ m.opened := by
    rw [h.opened]
    cases type <;> simp_all [ConvertInfo.openBlocks, LastMessageType.kind?]
  simp [emitDelta, watch, accept, h.phase, hmem]

theorem leads_switchTo {block : ContentBlock} (hkind : type.kind? = some block.kind) :
    Leads accept Tracks (switchTo type block) (TracksAt type) := by
  intro info m h
  by_cases htype : info.lastMessagesType = type
  · refine ⟨m, ?_, ?_⟩ <;> simp only [switchTo, htype, ne_eq, not_true_eq_false, if_false]
    · rfl
    · exact ⟨htype, h⟩
  · rw [switchTo, if_pos htype]
    exact (leads_stopOpenBlocksAndAdvance.andThen (leads_openBlock hkind)) info m h

theorem leads_emitText (delta : Delta) : Leads accept Tracks (emitText delta) Tracks := by
  unfold emitText
  split
  · exact (leads_switchTo rfl).andThen (leads_emitDelta rfl)
  · split
    · exact (leads_switchTo rfl).andThen (leads_emitDelta rfl)
    · exact leads_nothing fun _ _ h => h

/-- Tool calls from a position on, with some blocks started: each one starts the next block, with
a name, or goes on with one that is started, without a name. -/
def CallsInOrder : ℕ → List ToolCall → ℕ → Prop
  | _, [], _ => True
  | started, toolCall :: rest, position =>
    if toolCall.name ≠ "" then
      offsetOf toolCall position = started ∧ CallsInOrder (started + 1) rest (position + 1)
    else
      (0 ≤ offsetOf toolCall position ∧ offsetOf toolCall position < started) ∧
        CallsInOrder started rest (position + 1)

instance decidableCallsInOrder : (started : ℕ) → (toolCalls : List ToolCall) → (position : ℕ) →
    Decidable (CallsInOrder started toolCalls position)
  | _, [], _ => isTrue trivial
  | started, toolCall :: rest, position =>
    have : Decidable (CallsInOrder (started + 1) rest (position + 1)) :=
      decidableCallsInOrder (started + 1) rest (position + 1)
    have : Decidable (CallsInOrder started rest (position + 1)) :=
      decidableCallsInOrder started rest (position + 1)
    inferInstanceAs (Decidable (if toolCall.name ≠ "" then _ ∧ _ else (0 ≤ _ ∧ _ < _) ∧ _))

def toolMonitor (base : ℤ) (started : ℕ) : Monitor :=
  ⟨.blocks, base + started, toolBlocks base started⟩

theorem mem_toolBlocks {base offset : ℤ} {count : ℕ} (h : 0 ≤ offset) (hlt : offset < count) :
    (base + offset, BlockKind.toolUse) ∈ toolBlocks base count := by
  refine mem_map.mpr ⟨offset.toNat, mem_range.mpr (by omega), ?_⟩
  rw [Int.toNat_of_nonneg h]

theorem watch_arguments {base offset : ℤ} {started : ℕ} (h : 0 ≤ offset) (hlt : offset < started)
    (arguments : String) :
    watch accept (toolMonitor base started)
        (if arguments ≠ "" then [.blockDelta (base + offset) (.inputJson arguments)] else []) =
      some (toolMonitor base started) := by
  split
  · simp [watch, accept, toolMonitor, BlockDelta.kind, mem_toolBlocks h hlt]
  · rfl

variable {started position : ℕ}

theorem watch_emitToolCall_start {base : ℤ} {toolCall : ToolCall}
    (hname : toolCall.name ≠ "") (hoffset : offsetOf toolCall position = started) :
    watch accept (toolMonitor base started) (emitToolCall base toolCall position) =
      some (toolMonitor base (started + 1)) := by
  have hstart : watch accept (toolMonitor base started)
      [.blockStart (base + started) (.toolUse toolCall.id toolCall.name)] =
      some (toolMonitor base (started + 1)) := by
    simp [watch, accept, toolMonitor, toolBlocks, range_succ, ContentBlock.kind, Int.add_assoc]
  have hargs := @watch_arguments base started (started + 1) (by omega) (by omega) toolCall.arguments
  simp only [emitToolCall, hoffset, if_pos hname]
  rw [watch_append, hstart]
  exact hargs

theorem watch_emitToolCall_goesOn {base : ℤ} {toolCall : ToolCall}
    (hname : toolCall.name = "") (h : 0 ≤ offsetOf toolCall position)
    (hlt : offsetOf toolCall position < started) :
    watch accept (toolMonitor base started) (emitToolCall base toolCall position) =
      some (toolMonitor base started) := by
  simp only [emitToolCall, hname, ne_eq, not_true_eq_false, if_false, nil_append]
  exact watch_arguments h hlt toolCall.arguments

/-- The largest offset of a number of blocks; without blocks it is zero as well. -/
def largestOffset (started : ℕ) : ℤ := max 0 ((started : ℤ) - 1)

theorem watch_emitToolCallsFrom (base : ℤ) (toolCalls : List ToolCall)
    (h : CallsInOrder started toolCalls position) :
    ∃ started', started ≤ started' ∧ (toolCalls ≠ [] → 1 ≤ started') ∧
      watch accept (toolMonitor base started)
        (emitToolCallsFrom base toolCalls position (largestOffset started)).1 =
        some (toolMonitor base started') ∧
      (emitToolCallsFrom base toolCalls position (largestOffset started)).2 =
        largestOffset started' := by
  induction toolCalls generalizing started position with
  | nil => exact ⟨started, Nat.le_refl _, absurd rfl, rfl, rfl⟩
  | cons toolCall rest ih =>
    rw [CallsInOrder] at h
    by_cases hname : toolCall.name = ""
    · -- the call goes on with a block, and the largest offset stays
      rw [if_neg (not_not.mpr hname)] at h
      obtain ⟨⟨hnonneg, hlt⟩, hrest⟩ := h
      have hmax : max (largestOffset started) (offsetOf toolCall position) =
          largestOffset started := by
        unfold largestOffset
        omega
      obtain ⟨started', hle, -, hwatch, hlargest⟩ := ih hrest
      refine ⟨started', hle, fun _ => by omega, ?_, ?_⟩
      · simp only [emitToolCallsFrom, hmax]
        rw [watch_append, watch_emitToolCall_goesOn hname hnonneg hlt]
        exact hwatch
      · simp only [emitToolCallsFrom, hmax]
        exact hlargest
    · rw [if_pos hname] at h
      obtain ⟨hoffset, hrest⟩ := h
      have hmax : max (largestOffset started) (offsetOf toolCall position) =
          largestOffset (started + 1) := by
        unfold largestOffset
        omega
      obtain ⟨started', hle, -, hwatch, hlargest⟩ := ih hrest
      refine ⟨started', by omega, fun _ => by omega, ?_, ?_⟩
      · simp only [emitToolCallsFrom, hmax]
        rw [watch_append, watch_emitToolCall_start hname hoffset]
        exact hwatch
      · simp only [emitToolCallsFrom, hmax]
        exact hlargest

def ConvertInfo.startedTools (info : ConvertInfo) : ℕ :=
  if info.lastMessagesType = .tools then (info.toolCallMaxIndexOffset + 1).toNat else 0

structure InTools (started : ℕ) (info : ConvertInfo) (m : Monitor) : Prop where
  running : info.done = false
  type : info.lastMessagesType = .tools
  monitor : m = toolMonitor info.toolCallBaseIndex started
  offset : info.toolCallMaxIndexOffset = largestOffset started

theorem leads_enterTools (started : ℕ) :
    Leads accept (fun info m => info.startedTools = started ∧ Tracks info m) enterTools
      (InTools started) := by
  rintro info m ⟨hstarted, h⟩
  by_cases htype : info.lastMessagesType = .tools
  · have hcount : ((info.toolCallMaxIndexOffset + 1).toNat : ℤ) = info.toolCallMaxIndexOffset + 1 :=
      Int.toNat_of_nonneg (by have := h.offset; omega)
    rw [ConvertInfo.startedTools, if_pos htype] at hstarted
    have hsame : enterTools info = ([], info) := by simp [enterTools, htype]
    rw [hsame]
    refine ⟨m, rfl, h.running, htype, ?_, ?_⟩
    · obtain ⟨phase, next, opened⟩ := m
      have hphase : phase = .blocks := h.phase
      have hopened : opened = info.openBlocks := h.opened
      have hnext : next = info.nextBlock := h.next
      simp only [hphase, hopened, hnext, ConvertInfo.openBlocks, ConvertInfo.nextBlock, htype,
        toolMonitor, ← hstarted, hcount, Int.add_assoc]
    · change info.toolCallMaxIndexOffset = _
      rw [← hstarted, largestOffset, hcount]
      have := h.offset
      omega
  · rw [ConvertInfo.startedTools, if_neg htype] at hstarted
    obtain ⟨m', hm', hnone, hrunning, hphase, hopened, hnext, -⟩ :=
      leads_stopOpenBlocksAndAdvance info m h
    rw [enterTools, if_pos htype]
    refine ⟨m', ?_, hrunning, rfl, ?_, ?_⟩
    · rw [EmittingMachines.andThen, append_nil]
      exact hm'
    · -- the first block of the tool calls is the next one
      obtain ⟨phase, next, opened⟩ := m'
      have hphase' : phase = .blocks := hphase
      have hopened' : opened = [] := by simpa [ConvertInfo.openBlocks, hnone] using hopened
      have hnext' : next = (stopOpenBlocksAndAdvance info).2.index := by
        simpa [ConvertInfo.nextBlock, hnone] using hnext
      simp [EmittingMachines.andThen, toolMonitor, toolBlocks, ← hstarted, hphase', hopened', hnext']
    · rw [← hstarted]
      rfl

theorem leads_emitToolCalls {toolCalls : List ToolCall} (hne : toolCalls ≠ []) :
    Leads accept (fun info m => CallsInOrder info.startedTools toolCalls 0 ∧ Tracks info m)
      (emitToolCalls toolCalls) Tracks := by
  rintro info m ⟨hcalls, h⟩
  refine ((leads_enterTools info.startedTools).andThen ?_) info m ⟨rfl, h⟩
  rintro entered m' ⟨hrunning, htype, rfl, hoffset⟩
  obtain ⟨started', -, hone, hwatch, hlargest⟩ :=
    watch_emitToolCallsFrom entered.toolCallBaseIndex toolCalls hcalls
  have hpos := hone hne
  have hlast : largestOffset started' = (started' : ℤ) - 1 := by
    unfold largestOffset
    omega
  dsimp only
  rw [hoffset]
  refine ⟨toolMonitor entered.toolCallBaseIndex started', hwatch, hrunning, rfl, ?_, ?_, ?_⟩
  · simp [ConvertInfo.openBlocks, htype, hlargest, hlast, toolMonitor]
  · simp only [ConvertInfo.nextBlock, htype, hlargest, hlast, toolMonitor]
    omega
  · simp only [hlargest, hlast]
    omega

def Follows (info : ConvertInfo) (m : Monitor) : Prop := Tracks info m ∨ Closed info m

def FirstOrderly (chunk : Chunk) : Prop :=
  ∀ choice ∈ chunk.choices.head?, choice.finish.isSome = true → chunk.usage.isSome = true

/-- The tool calls of a later chunk, unless it is put off, fit the blocks that are open. -/
def LaterOrderly (info : ConvertInfo) (chunk : Chunk) : Prop :=
  ∀ choice ∈ chunk.choices.head?, (choice.finish.isSome = true → chunk.usage.isSome = true) →
    CallsInOrder info.startedTools choice.delta.toolCalls 0

instance (chunk : Chunk) : Decidable (FirstOrderly chunk) :=
  inferInstanceAs (Decidable (∀ choice ∈ chunk.choices.head?, _ → _))

instance (info : ConvertInfo) (chunk : Chunk) : Decidable (LaterOrderly info chunk) :=
  inferInstanceAs (Decidable (∀ choice ∈ chunk.choices.head?, (_ → _) → CallsInOrder _ _ _))

theorem Tracks.of_fields {info other : ConvertInfo} {m : Monitor} (h : Tracks info m)
    (hdone : other.done = info.done) (htype : other.lastMessagesType = info.lastMessagesType)
    (hindex : other.index = info.index) (hbase : other.toolCallBaseIndex = info.toolCallBaseIndex)
    (hoffset : other.toolCallMaxIndexOffset = info.toolCallMaxIndexOffset) : Tracks other m := by
  obtain ⟨hrunning, hphase, hopened, hnext, hnonneg⟩ := h
  constructor
  · rw [hdone, hrunning]
  · exact hphase
  · simpa only [ConvertInfo.openBlocks, htype, hindex, hbase, hoffset] using hopened
  · simpa only [ConvertInfo.nextBlock, htype, hindex, hbase, hoffset] using hnext
  · rwa [hoffset]

theorem leads_emitContent (delta : Delta) :
    Leads accept (fun info m => CallsInOrder info.startedTools delta.toolCalls 0 ∧ Tracks info m)
      (emitContent delta) Tracks := by
  by_cases hne : delta.toolCalls = []
  · simp only [emitContent, hne, ne_eq, not_true_eq_false, if_false]
    exact (leads_emitText delta).mono (fun _ _ h => h.2) fun _ _ h => h
  · simp only [emitContent, ne_eq, hne, not_false_eq_true, if_true]
    exact leads_emitToolCalls hne

variable {chunk : Chunk}

theorem leads_convertChoice {choice : Choice} {others : List Choice}
    (hchoices : chunk.choices = choice :: others) :
    Leads accept (fun info m => LaterOrderly info chunk ∧ Tracks info m)
      (convertChoice chunk choice) Follows := by
  rintro info m ⟨horderly, h⟩
  have hcalls := horderly choice (by simp [hchoices])
  cases hfinish : choice.finish with
  | none =>
    simp only [convertChoice, hfinish]
    obtain ⟨m', hm', htracks⟩ :=
      leads_emitContent choice.delta info m ⟨hcalls (by simp [hfinish]), h⟩
    exact ⟨m', hm', .inl htracks⟩
  | some reason =>
    have h' : Tracks { info with finishReason := reason } m := h.of_fields rfl rfl rfl rfl rfl
    cases husage : chunk.usage with
    | none =>
      simp only [convertChoice, hfinish, husage]
      exact ⟨m, rfl, .inl h'⟩
    | some usage =>
      simp only [convertChoice, hfinish, husage]
      obtain ⟨m', hm', hclosed⟩ := ((leads_emitContent choice.delta).andThen
        (leads_finishMessage usage fun info => stopReasonOpenAI2Claude info.finishReason))
          { info with finishReason := reason } m ⟨hcalls (by simp [husage]), h'⟩
      exact ⟨m', hm', .inr hclosed⟩

theorem leads_convertUsageOnly (chunk : Chunk) :
    Leads accept Tracks (convertUsageOnly chunk) Follows := by
  intro info m h
  cases husage : chunk.usage <|> info.usage with
  | none =>
    simp only [convertUsageOnly, husage]
    exact ⟨m, rfl, .inl h⟩
  | some usage =>
    simp only [convertUsageOnly, husage]
    obtain ⟨m', hm', hclosed⟩ := leads_finishMessage usage _ info m h
    exact ⟨m', hm', .inr hclosed⟩

structure Fresh (info : ConvertInfo) (m : Monitor) : Prop where
  running : info.done = false
  type : info.lastMessagesType = .none
  index : info.index = 0
  offset : info.toolCallMaxIndexOffset = 0
  monitor : m = Monitor.start

def TracksNoText (info : ConvertInfo) (m : Monitor) : Prop :=
  info.lastMessagesType.kind? = none ∧ Tracks info m

theorem leads_emitMessageStart (chunk : Chunk) : Leads accept Fresh (emitMessageStart chunk)
      (fun info m => info.index = 0 ∧ TracksAt .none info m) := by
  rintro info m ⟨hrunning, htype, hindex, hoffset, rfl⟩
  refine ⟨{ Monitor.start with phase := .blocks }, rfl, hindex, htype, hrunning, rfl, ?_, ?_, ?_⟩
  · simp [emitMessageStart, ConvertInfo.openBlocks, htype, Monitor.start]
  · simp [emitMessageStart, ConvertInfo.nextBlock, htype, hindex, Monitor.start]
  · simp [emitMessageStart, hoffset]

theorem leads_startFirstToolCall (toolCalls : List ToolCall) :
    Leads accept (fun info m => info.index = 0 ∧ TracksAt .none info m)
      (startFirstToolCall toolCalls) TracksNoText := by
  rintro info m ⟨hindex, htype, h⟩
  cases toolCalls with
  | nil => exact ⟨m, rfl, by simp [startFirstToolCall, emit, htype, LastMessageType.kind?], h⟩
  | cons toolCall rest =>
    obtain ⟨phase, next, opened⟩ := m
    have hphase : phase = .blocks := h.phase
    have hopened : opened = [] := by simpa [ConvertInfo.openBlocks, htype] using h.opened
    have hnext : next = 0 := by simpa [ConvertInfo.nextBlock, htype, hindex] using h.next
    subst hphase hopened hnext
    refine ⟨⟨.blocks, 1, [(0, .toolUse)]⟩, ?_, rfl, h.running, rfl, rfl, rfl, Int.le_rfl⟩
    by_cases ha : toolCall.arguments = "" <;>
      simp [startFirstToolCall, watch, accept, ContentBlock.kind, BlockDelta.kind, ha]

theorem leads_leaveFor {kind : BlockKind} (hkind : type.kind? = some kind) :
    Leads accept TracksNoText (leaveFor type) (TracksAt .none) := by
  rintro info m ⟨hnone, h⟩
  have hne : info.lastMessagesType ≠ type := by
    intro he
    rw [he, hkind] at hnone
    cases hnone
  rw [leaveFor, if_pos hne]
  exact leads_stopOpenBlocksAndAdvance info m h

theorem leads_emitFirstText (delta : Delta) :
    Leads accept TracksNoText (emitFirstText delta) Tracks := by
  by_cases hreasoning : delta.getReasoningContent = ""
  · by_cases hcontent : delta.getContentString = ""
    · simp only [emitFirstText, hreasoning, hcontent, ne_eq, not_true_eq_false, if_false]
      exact leads_nothing fun _ _ h => h.2
    · simp only [emitFirstText, hreasoning, hcontent, ne_eq, not_true_eq_false, if_false,
        not_false_eq_true, if_true]
      exact (leads_leaveFor rfl).andThen ((leads_openBlock rfl).andThen (leads_emitDelta rfl))
  · simp only [emitFirstText, hreasoning, ne_eq, not_false_eq_true, if_true]
    exact (leads_leaveFor rfl).andThen ((leads_openBlock rfl).andThen (leads_emitDelta rfl))

theorem leads_finishFirst {choice : Choice} {others : List Choice}
    (hchoices : chunk.choices = choice :: others) (hfirst : FirstOrderly chunk) :
    Leads accept Tracks (finishFirst chunk choice) Follows := by
  intro info m h
  cases hfinish : choice.finish with
  | none =>
    simp only [finishFirst, hfinish]
    exact ⟨m, rfl, .inl h⟩
  | some reason =>
    have hsome := hfirst choice (by simp [hchoices]) (by simp [hfinish])
    obtain ⟨usage, husage⟩ := isSome_iff_exists.mp hsome
    simp only [finishFirst, hfinish, husage]
    obtain ⟨m', hm', hclosed⟩ := leads_finishMessage usage
      (fun info => stopReasonOpenAI2Claude info.finishReason) { info with finishReason := reason } m
      (h.of_fields rfl rfl rfl rfl rfl)
    exact ⟨m', hm', .inr hclosed⟩

theorem leads_convertFirst (hfirst : FirstOrderly chunk) :
    Leads accept Fresh (convertFirst chunk) Follows := by
  apply (leads_emitMessageStart chunk).andThen
  cases hchoices : chunk.choices with
  | nil => exact leads_nothing fun _ _ h => .inl h.2.2
  | cons choice others =>
    exact (leads_startFirstToolCall _).andThen
      ((leads_emitFirstText _).andThen (leads_finishFirst hchoices hfirst))

def Orderly (info : ConvertInfo) (chunk : Chunk) : Prop :=
  info.done = false →
    if info.sendResponseCount = 0 then FirstOrderly chunk else LaterOrderly info chunk

/-- The condition on the last chunk: unless the message is closed, two chunks came before it, and
it closes the message. -/
def FinalOrderly (info : ConvertInfo) (chunk : Chunk) : Prop :=
  info.done = false → 2 ≤ info.sendResponseCount ∧ LaterOrderly info chunk ∧
    ∀ choice ∈ chunk.choices.head?, choice.finish.isSome = true ∧ chunk.usage.isSome = true

def OrderlyStream (estimatePromptTokens : ℤ) (chunks : List Chunk) : Prop :=
  Along (fun info chunk => handleStreamFormat chunk info) Orderly (initial estimatePromptTokens)
    chunks.dropLast ∧
  ∃ last ∈ chunks.getLast?,
    FinalOrderly (emitAll handleStreamFormat chunks.dropLast (initial estimatePromptTokens)).2 last

instance (info : ConvertInfo) (chunk : Chunk) : Decidable (Orderly info chunk) :=
  inferInstanceAs (Decidable (_ = false → if _ = 0 then FirstOrderly chunk else LaterOrderly info chunk))

instance (info : ConvertInfo) (chunk : Chunk) : Decidable (FinalOrderly info chunk) :=
  inferInstanceAs (Decidable (_ = false → 2 ≤ _ ∧ LaterOrderly info chunk ∧
    ∀ choice ∈ chunk.choices.head?, _ = true ∧ _ = true))

variable {info : ConvertInfo}

theorem streamResponse_done (h : info.done = true) :
    streamResponseOpenAI2Claude chunk info = ([], info) := by
  simp [streamResponseOpenAI2Claude, h]

theorem follows_first (estimatePromptTokens : ℤ)
    (h : Orderly (initial estimatePromptTokens) chunk) :
    ∃ m, watch accept Monitor.start (handleStreamFormat chunk (initial estimatePromptTokens)).1 =
        some m ∧
      Follows (handleStreamFormat chunk (initial estimatePromptTokens)).2 m :=
  leads_convertFirst (h rfl) (counted chunk (initial estimatePromptTokens)) Monitor.start
    ⟨rfl, rfl, rfl, rfl, rfl⟩

theorem follows_later {m : Monitor} (h : Follows info m)
    (hcount : 1 ≤ info.sendResponseCount) (horderly : Orderly info chunk) :
    ∃ m', watch accept m (handleStreamFormat chunk info).1 = some m' ∧
      Follows (handleStreamFormat chunk info).2 m' := by
  rcases h with htracks | hclosed
  · have hlater := horderly htracks.running
    rw [if_neg (by omega)] at hlater
    have hcounted : Tracks (counted chunk info) m := htracks.of_fields rfl rfl rfl rfl rfl
    rw [handleStreamFormat_later htracks.running hcount]
    cases hchoices : chunk.choices with
    | nil => exact leads_convertUsageOnly chunk _ m hcounted
    | cons choice others => exact leads_convertChoice hchoices _ m ⟨hlater, hcounted⟩
  · have hdone : handleStreamFormat chunk info = ([], counted chunk info) :=
      streamResponse_done hclosed.done
    rw [hdone]
    exact ⟨m, rfl, .inr ⟨hclosed.done, hclosed.phase⟩⟩

theorem follows_run (chunks : List Chunk) {m : Monitor} (h : Follows info m)
    (hcount : 1 ≤ info.sendResponseCount)
    (horderly : Along (fun info chunk => handleStreamFormat chunk info) Orderly info chunks) :
    ∃ m', watch accept m (emitAll handleStreamFormat chunks info).1 = some m' ∧
      Follows (emitAll handleStreamFormat chunks info).2 m' := by
  induction chunks generalizing info m with
  | nil => exact ⟨m, rfl, h⟩
  | cons chunk rest ih =>
    obtain ⟨m₁, hm₁, hfollows⟩ := follows_later h hcount horderly.1
    obtain ⟨m₂, hm₂, hrest⟩ := ih hfollows (count_handleStreamFormat_pos chunk info) horderly.2
    refine ⟨m₂, ?_, hrest⟩
    rw [emitAll, andThen, watch_append, hm₁]
    exact hm₂

theorem closed_final {usage : Usage} {m : Monitor}
    (h : Follows info m) (horderly : FinalOrderly info chunk) :
    ∃ m', watch accept m (handleFinalResponse usage chunk info).1 = some m' ∧ m'.phase = .stopped := by
  rcases h with htracks | hclosed
  · obtain ⟨hcount, hlater, hcloses⟩ := horderly htracks.running
    have hfinal : Tracks { info with usage := some usage } m := htracks.of_fields rfl rfl rfl rfl rfl
    have hnotFirst : info.sendResponseCount ≠ 1 := by omega
    cases hchoices : chunk.choices with
    | nil =>
      obtain ⟨finalUsage, husage⟩ : ∃ finalUsage, (chunk.usage <|> some usage) = some finalUsage := by
        cases chunk.usage with
        | none => exact ⟨usage, rfl⟩
        | some own => exact ⟨own, rfl⟩
      obtain ⟨m', hm', hclosed⟩ := leads_finishMessage finalUsage (fun info =>
        let stopReason := stopReasonOpenAI2Claude info.finishReason
        if stopReason = "" then "end_turn" else stopReason) _ m hfinal
      refine ⟨m', ?_, hclosed.phase⟩
      simpa [handleFinalResponse, streamResponseOpenAI2Claude, htracks.running, hnotFirst, hchoices,
        convertUsageOnly, husage] using hm'
    | cons choice others =>
      obtain ⟨hfinish, hsome⟩ := hcloses choice (by simp [hchoices])
      obtain ⟨reason, hreason⟩ := isSome_iff_exists.mp hfinish
      obtain ⟨own, hown⟩ := isSome_iff_exists.mp hsome
      have hcalls := hlater choice (by simp [hchoices]) fun _ => hsome
      obtain ⟨m', hm', hclosed⟩ := ((leads_emitContent choice.delta).andThen
        (leads_finishMessage own fun info => stopReasonOpenAI2Claude info.finishReason))
          { info with usage := some usage, finishReason := reason } m
          ⟨hcalls, htracks.of_fields rfl rfl rfl rfl rfl⟩
      refine ⟨m', ?_, hclosed.phase⟩
      simpa [handleFinalResponse, streamResponseOpenAI2Claude, htracks.running, hnotFirst, hchoices,
        convertChoice, hreason, hown] using hm'
  · have hdone : streamResponseOpenAI2Claude chunk { info with usage := some usage } =
        ([], { info with usage := some usage }) := streamResponse_done hclosed.done
    refine ⟨m, ?_, hclosed.phase⟩
    simp only [handleFinalResponse, hdone, watch]

/-- Under the conditions on its chunks, a relayed stream is one that a Claude client reads to its
end, whatever usage the handler settles on. -/
theorem relayed_stream_valid (estimatePromptTokens : ℤ) (usage : Usage) (chunks : List Chunk)
    (h : OrderlyStream estimatePromptTokens chunks) :
    ValidStream (oaiStreamHandler estimatePromptTokens usage chunks) := by
  obtain ⟨halong, last, hlast, hfinal⟩ := h
  have hlast' : chunks.getLast? = some last := hlast
  simp only [oaiStreamHandler, hlast']
  generalize chunks.dropLast = earlier at halong hfinal ⊢
  cases earlier with
  | nil =>
    -- a single chunk comes before anything is counted
    obtain ⟨hcount, -⟩ := hfinal rfl
    simp [emitAll, emit, initial] at hcount
  | cons chunk rest =>
    obtain ⟨m₁, hm₁, hfirst⟩ := follows_first estimatePromptTokens halong.1
    obtain ⟨m₂, hm₂, hrun⟩ := follows_run rest hfirst (count_handleStreamFormat_pos chunk _) halong.2
    obtain ⟨m₃, hm₃, hstopped⟩ := @closed_final last _ usage m₂ hrun hfinal
    have hwatch : watch accept Monitor.start (andThen (emitAll handleStreamFormat (chunk :: rest))
        (handleFinalResponse usage last) (initial estimatePromptTokens)).1 = some m₃ := by
      rw [andThen, watch_append, emitAll, andThen, watch_append, hm₁, bind_some, hm₂]
      exact hm₃
    rw [ValidStream, hwatch, map_some, hstopped]

def deltaChunk (content reasoning : Option String) (toolCalls : List ToolCall)
    (finishReason : Option String) : Chunk :=
  ⟨"chatcmpl-1", "gpt-4o", [⟨⟨content, reasoning, none, toolCalls⟩, finishReason⟩], none⟩

/-- Reasoning, text and two tool calls in turns, then the finish chunk and the usage chunk. -/
def parallelTools : List Chunk :=
  [deltaChunk none (some "Let me see.") [] none, deltaChunk (some "I look it up.") none [] none,
    deltaChunk none none [⟨some 0, "call_1", "search", ""⟩] none,
    deltaChunk none none [⟨some 1, "call_2", "read", ""⟩, ⟨some 0, "", "", "[1]"⟩] none,
    deltaChunk none none [⟨some 1, "", "", "[2]"⟩] none, deltaChunk none none [] (some "tool_calls"),
    ⟨"chatcmpl-1", "gpt-4o", [], some ⟨7, 5, 0, 0, 0, 0⟩⟩]

theorem parallelTools_valid : OrderlyStream 7 parallelTools ∧
      ValidStream (oaiStreamHandler 7 ⟨7, 5, 0, 0, 0, 0⟩ parallelTools) := by
  have horderly : OrderlyStream 7 parallelTools :=
    ⟨by decide +kernel, ⟨"chatcmpl-1", "gpt-4o", [], some ⟨7, 5, 0, 0, 0, 0⟩⟩, rfl,
      by decide +kernel⟩
  exact ⟨horderly, relayed_stream_valid 7 ⟨7, 5, 0, 0, 0, 0⟩ parallelTools horderly⟩

/-- A stream that ends with a finish chunk without usage is never closed. -/
theorem finish_without_usage_not_closed : ¬ ValidStream (oaiStreamHandler 7 ⟨7, 1, 0, 0, 0, 0⟩
      [deltaChunk (some "") none [] none, deltaChunk (some "Hi") none [] none,
        deltaChunk none none [] (some "stop")]) := by
  decide +kernel

end ClaudeStream
