import TinyToken.ResponsesStreamEvents

/-! The tool calls a client puts together from a Responses stream. A consistent stream names places
of the final output, and what it has said of a function call so far begins what the output says;
the handler's maps and the client's calls follow it event by event. -/
namespace ResponsesStream

open ChatChunks (ToolCall)
open List Option Function String
open EmittingMachines
open GoText (hasLead trimSpace)

section Places

variable (output : List OutputItem)

def itemAt (k : ℕ) : OutputItem := output.getD k ⟨"", "", "", [], "", "", .missing⟩

def CallAt (k : ℕ) : Prop := (itemAt output k).IsCall

instance (k : ℕ) : Decidable (CallAt output k) := inferInstanceAs (Decidable (OutputItem.IsCall _))

def Apart (j k : ℕ) : Prop :=
  (itemAt output j).itemID ≠ (itemAt output k).itemID ∧
    (itemAt output j).callID ≠ (itemAt output k).callID

instance (j k : ℕ) : Decidable (Apart output j k) := inferInstanceAs (Decidable (_ ∧ _))

def WellNamed : Prop :=
  (∀ k < output.length, CallAt output k →
    (itemAt output k).itemID ≠ "" ∧ (itemAt output k).callName ≠ "") ∧
  ∀ k < output.length, CallAt output k → ∀ j < k, CallAt output j → Apart output j k

instance : Decidable (WellNamed output) := inferInstanceAs (Decidable (_ ∧ _))

end Places

/-- The function calls a stream has named, in the order of their first events, with the arguments
so far. -/
structure Progress where
  order : List ℕ
  args : ℕ → String

def start : Progress := ⟨[], fun _ => ""⟩

def opened (order : List ℕ) (k : ℕ) : List ℕ := if k ∈ order then order else order ++ [k]

def Progress.set (progress : Progress) (k : ℕ) (args : String) : Progress :=
  ⟨opened progress.order k, update progress.args k args⟩

def Begins (text whole : String) : Prop := text.toList <+: whole.toList

instance (text whole : String) : Decidable (Begins text whole) :=
  inferInstanceAs (Decidable (_ <+: _))

def accept (response : Response) (progress : Progress) (event : Event) : Option Progress :=
  match event with
  | .outputItem _ k (some item) =>
    let final := itemAt response.output k
    if ¬ item.IsCall then some progress
    else if CallAt response.output k ∧ item.itemID = final.itemID ∧ item.callID = final.callID ∧
        item.callName = final.callName ∧ Begins (progress.args k) item.argumentsString ∧
        Begins item.argumentsString final.argumentsString then
      some (progress.set k item.argumentsString)
    else none
  | .functionCallArgumentsDelta k itemID delta =>
    let final := itemAt response.output k
    if k ∈ progress.order ∧ trimSpace itemID = final.itemID ∧
        Begins (progress.args k ++ delta) final.argumentsString then
      some (progress.set k (progress.args k ++ delta))
    else none
  | .completed upstream => if upstream = some response then some progress else none
  | .failed .. => none
  | _ => some progress

def textFirst : List Event → Bool
  | [] => true
  | .outputTextDelta _ _ delta :: rest => delta ≠ "" || textFirst rest
  | .outputItem _ _ (some item) :: rest => ¬ item.IsCall && textFirst rest
  | _ :: rest => textFirst rest

def callOrder (order : List ℕ) : List Event → List ℕ
  | [] => order
  | .outputItem _ k (some item) :: rest => callOrder (if item.IsCall then opened order k else order) rest
  | _ :: rest => callOrder order rest

variable {output : List OutputItem}

variable {order : List ℕ} {k : ℕ}

theorem callAt_lt (h : CallAt output k) : k < output.length := by
  by_contra hge
  have hdefault : itemAt output k = ⟨"", "", "", [], "", "", .missing⟩ := by
    rw [itemAt, List.getD, List.getElem?_eq_none (by omega), Option.getD_none]
  rw [CallAt, hdefault] at h
  exact absurd h (by decide)

namespace WellNamed

variable {output : List OutputItem} (h : WellNamed output)

include h

theorem callID_ne (hk : CallAt output k) : (itemAt output k).callID ≠ "" := by
  have hitem := (h.1 k (callAt_lt hk) hk).1
  rw [OutputItem.callID]
  split
  · exact hitem
  · assumption

theorem apart {j k : ℕ} (hj : CallAt output j) (hk : CallAt output k) (hne : j ≠ k) :
    Apart output j k := by
  rcases Nat.lt_or_gt_of_ne hne with hlt | hgt
  · exact h.2 k (callAt_lt hk) hk j hlt hj
  · have hapart := h.2 j (callAt_lt hj) hj k hgt hk
    exact ⟨hapart.1.symm, hapart.2.symm⟩

theorem eq_of_callID {j k : ℕ} (hj : CallAt output j) (hk : CallAt output k)
    (hid : (itemAt output j).callID = (itemAt output k).callID) : j = k := by
  by_contra hne
  exact (h.apart hj hk hne).2 hid

end WellNamed

theorem idxOf_map {l : List ℕ} {f : ℕ → String} (hinj : ∀ j ∈ l, f j = f k → j = k) :
    (l.map f).idxOf (f k) = l.idxOf k := by
  induction l with
  | nil => rfl
  | cons j rest ih =>
    have hrest := ih fun i hi => hinj i (mem_cons_of_mem j hi)
    rw [map_cons, idxOf_cons, idxOf_cons, hrest]
    by_cases hjk : j = k
    · simp [hjk]
    · have hne : f j ≠ f k := fun he => hjk (hinj j mem_cons_self he)
      rw [beq_false_of_ne hjk, beq_false_of_ne hne]

def callsOf (output : List OutputItem) (progress : Progress) : List ToolCall :=
  progress.order.map fun k =>
    ⟨some (progress.order.idxOf k : ℕ), (itemAt output k).callID, (itemAt output k).callName,
      progress.args k⟩

def fragmentFor (output : List OutputItem) (progress : Progress) (k : ℕ) (delta : String) : ToolCall :=
  ⟨some (progress.order.idxOf k : ℕ), (itemAt output k).callID,
    if k ∈ progress.order then "" else (itemAt output k).callName, delta⟩

theorem opened_of_mem (h : k ∈ order) : opened order k = order := if_pos h

theorem opened_of_not_mem (h : k ∉ order) : opened order k = order ++ [k] :=
  if_neg h

theorem mem_opened {k j : ℕ} : j ∈ opened order k ↔ j ∈ order ∨ j = k := by
  by_cases hk : k ∈ order
  · rw [opened_of_mem hk]
    constructor
    · exact .inl
    · rintro (hj | rfl)
      · exact hj
      · exact hk
  · rw [opened_of_not_mem hk]
    simp

theorem addFragment_known {progress : Progress} (hk : k ∈ progress.order) (delta : String) :
    addFragment (callsOf output progress) (fragmentFor output progress k delta) =
      callsOf output (progress.set k (progress.args k ++ delta)) := by
  have hindex : (fragmentFor output progress k delta).index ∈
      (callsOf output progress).map ToolCall.index := by
    simp only [callsOf, fragmentFor, List.map_map, List.mem_map]
    exact ⟨k, hk, rfl⟩
  rw [addFragment, if_pos hindex]
  simp only [callsOf, Progress.set, opened_of_mem hk, List.map_map]
  refine List.map_congr_left fun j hj => ?_
  simp only [Function.comp_apply, fragmentFor, if_pos hk, Option.some.injEq, Int.natCast_inj]
  by_cases hjk : j = k
  · subst hjk
    simp [String.append_empty]
  · have hne : progress.order.idxOf j ≠ progress.order.idxOf k := fun he =>
      hjk ((List.idxOf_inj hj).mp he)
    simp [hne, hjk]

theorem addFragment_new {progress : Progress} (hk : k ∉ progress.order) (delta : String) :
    addFragment (callsOf output progress) (fragmentFor output progress k delta) =
      callsOf output (progress.set k delta) := by
  have hlength : progress.order.idxOf k = progress.order.length := idxOf_eq_length hk
  have hindex : (fragmentFor output progress k delta).index ∉
      (callsOf output progress).map ToolCall.index := by
    simp only [callsOf, fragmentFor, List.map_map, List.mem_map, not_exists, not_and]
    intro j hj he
    have hlt := List.idxOf_lt_length_of_mem hj
    simp only [comp_apply, some.injEq, Int.natCast_inj] at he
    omega
  rw [addFragment, if_neg hindex]
  simp only [callsOf, Progress.set, opened_of_not_mem hk, map_append, map_cons,
    map_nil, fragmentFor, if_neg hk]
  congr 1
  · refine map_congr_left fun j hj => ?_
    have hjk : j ≠ k := fun he => hk (he ▸ hj)
    rw [idxOf_append_of_mem hj, update_of_ne hjk]
  · rw [idxOf_append_of_notMem hk, hlength]
    simp

structure Tracks (output : List OutputItem) (s : State) (progress : Progress) : Prop where
  running : s.streamErr = none
  silent : s.outputText = ""
  calls : ∀ k ∈ progress.order, CallAt output k
  indexes : s.toolCallIndexByID = progress.order.map fun k => (itemAt output k).callID
  args : ∀ k, CallAt output k → s.toolCallArgsByID (itemAt output k).callID = progress.args k
  unnamed : ∀ k, k ∉ progress.order → progress.args k = ""
  sent : ∀ k, CallAt output k →
    (s.toolCallNameSent (itemAt output k).callID = true ↔ k ∈ progress.order)
  canonical : ∀ k ∈ progress.order,
    s.toolCallCanonicalIDByItemID (itemAt output k).itemID = (itemAt output k).callID
  saw : s.sawToolCall = true ↔ progress.order ≠ []

theorem tracks_start (output : List OutputItem) (createAt : ℤ) (upstreamModelName : String) :
    Tracks output (initial createAt upstreamModelName) start := by
  constructor <;> simp [initial, start]

theorem Begins.eq_empty {text : String} (h : Begins text "") : text = "" :=
  toList_inj.mp (prefix_nil.mp h)

theorem argsDelta_append {prevArgs newArgs : String} (h : Begins prevArgs newArgs) :
    prevArgs ++ argsDelta prevArgs newArgs = newArgs := by
  by_cases hempty : newArgs = ""
  · subst hempty
    rw [h.eq_empty]
    rfl
  · have hlead : hasLead newArgs prevArgs = true := isPrefixOf_iff_prefix.mpr h
    obtain ⟨rest, hrest⟩ := h
    rw [argsDelta, if_neg hempty, if_pos hlead, ← hrest, drop_left]
    apply toList_inj.mp
    rw [toList_append, toList_ofList, hrest]

section Tracking

variable {responseId : String} {output : List OutputItem} {s noted : State} {progress : Progress}
  {k : ℕ}

/-- The state from which a fragment is sent: the arguments are noted, and so is the call of the
item. -/
structure Noted (output : List OutputItem) (s noted : State) (progress : Progress) (k : ℕ)
    (delta : String) : Prop where
  running : noted.streamErr = s.streamErr
  silent : noted.outputText = s.outputText
  indexes : noted.toolCallIndexByID = s.toolCallIndexByID
  sent : noted.toolCallNameSent = s.toolCallNameSent
  args : noted.toolCallArgsByID =
    update s.toolCallArgsByID (itemAt output k).callID (progress.args k ++ delta)
  canonical : ∀ j ∈ opened progress.order k,
    noted.toolCallCanonicalIDByItemID (itemAt output j).itemID = (itemAt output j).callID

theorem noted_arguments (h : Tracks output s progress) (hk : k ∈ progress.order) (delta : String) :
    Noted output s (s.noteArguments (itemAt output k).callID delta) progress k delta := by
  have hargs := h.args k (h.calls k hk)
  constructor
  case args => simp only [State.noteArguments, hargs]
  case canonical =>
    intro j hj
    rw [opened_of_mem hk] at hj
    simp only [State.noteArguments, h.canonical j hj]
  all_goals simp only [State.noteArguments]

theorem addFragment_calls (h : Tracks output s progress) (k : ℕ) (delta : String) :
    addFragment (callsOf output progress) (fragmentFor output progress k delta) =
      callsOf output (progress.set k (progress.args k ++ delta)) := by
  by_cases hk : k ∈ progress.order
  · exact addFragment_known hk delta
  · rw [h.unnamed k hk, empty_append]
    exact addFragment_new hk delta

def Follows (output : List OutputItem) (progress after : Progress) (sent : List Sent × State) : Prop :=
  Tracks output sent.2 after ∧
    (fragmentsOf sent.1).foldl addFragment (callsOf output progress) = callsOf output after

section

variable (hnames : WellNamed output) (h : Tracks output s progress)
include hnames h

section

variable (hk : CallAt output k)
include hk

theorem idxOf_callID :
    s.toolCallIndexByID.idxOf (itemAt output k).callID = progress.order.idxOf k := by
  rw [h.indexes]
  exact idxOf_map (f := fun j => (itemAt output j).callID) fun j hj =>
    hnames.eq_of_callID (h.calls j hj) hk

theorem mem_indexes :
    (itemAt output k).callID ∈ s.toolCallIndexByID ↔ k ∈ progress.order := by
  rw [h.indexes, List.mem_map]
  constructor
  · rintro ⟨j, hj, hid⟩
    have hjk : j = k := hnames.eq_of_callID (h.calls j hj) hk hid
    rwa [← hjk]
  · intro hmem
    exact ⟨k, hmem, rfl⟩

theorem shownName_eq {name : String} (hsent : noted.toolCallNameSent = s.toolCallNameSent)
    (hname : name = (itemAt output k).callName ∨ k ∈ progress.order) :
    noted.shownName (itemAt output k).callID name =
      if k ∈ progress.order then "" else (itemAt output k).callName := by
  rw [State.shownName, hsent]
  by_cases hmem : k ∈ progress.order
  · have hknown := (h.sent k hk).mpr hmem
    rw [if_pos hmem, if_neg (fun hunsent => hunsent.2 hknown)]
  · have hcall : name = (itemAt output k).callName := hname.resolve_right hmem
    have hne : name ≠ "" := by
      rw [hcall]
      exact (hnames.1 k (callAt_lt hk) hk).2
    have hunsent : ¬ s.toolCallNameSent (itemAt output k).callID = true := fun hsent =>
      hmem ((h.sent k hk).mp hsent)
    have hnamed : noted.named (itemAt output k).callID name (itemAt output k).callID = name := by
      rw [State.named, if_pos hne, update_self]
    simp only [hnamed, if_pos hne, if_neg hmem, if_pos (And.intro hne hunsent)]
    exact hcall

variable {name delta : String}

section

variable (hnoted : Noted output s noted progress k delta)
include hnoted

theorem sendToolCallDelta_eq :
    sendToolCallDelta responseId (itemAt output k).callID name delta noted =
      andThen (sendStartIfNeeded responseId)
        (sendTool responseId (itemAt output k).callID name delta) noted := by
  have hsilent : ¬ noted.outputText ≠ "" := by simp [hnoted.silent, h.silent]
  rw [sendToolCallDelta, if_neg (hnames.callID_ne hk), if_neg hsilent]

theorem fragmentsOf_sendToolCallDelta
    (hname : name = (itemAt output k).callName ∨ k ∈ progress.order) :
    fragmentsOf (sendToolCallDelta responseId (itemAt output k).callID name delta noted).1 =
      [fragmentFor output progress k delta] := by
  have hshown := shownName_eq hnames h hk hnoted.sent hname
  have hindex := idxOf_callID hnames h hk
  rw [sendToolCallDelta_eq hnames h hk hnoted, fragmentsOf_start_then]
  change [(⟨some (noted.toolCallIndexByID.idxOf (itemAt output k).callID : ℕ),
    (itemAt output k).callID, noted.shownName (itemAt output k).callID name, delta⟩ : ToolCall)] = _
  rw [hnoted.indexes, hindex, hshown]
  rfl

theorem tracks_sendToolCallDelta (hname : name = (itemAt output k).callName ∨ k ∈ progress.order) :
    Tracks output (sendToolCallDelta responseId (itemAt output k).callID name delta noted).2
      (progress.set k (progress.args k ++ delta)) := by
  have hshown : ({ noted with sentStart := true } : State).shownName (itemAt output k).callID name =
      if k ∈ progress.order then "" else (itemAt output k).callName :=
    shownName_eq hnames h hk hnoted.sent hname
  have hmem := mem_indexes hnames h hk
  rw [sendToolCallDelta_eq hnames h hk hnoted, state_start_then]
  constructor
  case running => exact hnoted.running.trans h.running
  case silent => exact hnoted.silent.trans h.silent
  case calls =>
    intro j hj
    rcases mem_opened.mp hj with hj | rfl
    · exact h.calls j hj
    · exact hk
  case indexes =>
    simp only [sendTool, Progress.set, hnoted.indexes, hmem]
    by_cases hopen : k ∈ progress.order
    · rw [if_pos hopen, opened_of_mem hopen, h.indexes]
    · rw [if_neg hopen, opened_of_not_mem hopen, h.indexes, map_append, map_singleton]
  case args =>
    intro j hj
    simp only [sendTool, Progress.set, hnoted.args]
    by_cases hjk : j = k
    · rw [hjk, update_self, update_self]
    · rw [update_of_ne (hnames.apart hj hk hjk).2, update_of_ne hjk, h.args j hj]
  case unnamed =>
    intro j hj
    have hout := mt mem_opened.mpr hj
    rw [not_or] at hout
    simp only [Progress.set]
    rw [update_of_ne hout.2, h.unnamed j hout.1]
  case sent =>
    intro j hj
    change (if State.shownName _ _ name ≠ "" then
        update noted.toolCallNameSent (itemAt output k).callID true
      else noted.toolCallNameSent) (itemAt output j).callID = true ↔ j ∈ opened progress.order k
    rw [hshown, hnoted.sent, mem_opened]
    by_cases hopen : k ∈ progress.order
    · have hsame : j ∈ progress.order ∨ j = k ↔ j ∈ progress.order :=
        or_iff_left_of_imp fun hjk => hjk ▸ hopen
      rw [if_pos hopen, if_neg (not_not.mpr rfl), hsame]
      exact h.sent j hj
    · rw [if_neg hopen, if_pos (hnames.1 k (callAt_lt hk) hk).2]
      by_cases hjk : j = k
      · rw [hjk, update_self]
        simp
      · rw [update_of_ne (hnames.apart hj hk hjk).2, h.sent j hj]
        simp [hjk]
  case canonical => exact hnoted.canonical
  case saw =>
    simp only [sendTool, Progress.set, true_iff]
    exact ne_nil_of_mem (mem_opened.mpr (.inr rfl))

end

section

variable {item : OutputItem} (hitem : item.itemID = (itemAt output k).itemID)
  (hcall : item.callID = (itemAt output k).callID)
include hitem hcall

theorem noted_call (hbegins : Begins (progress.args k) item.argumentsString) :
    Noted output s (s.noteCall item) progress k
      (argsDelta (s.toolCallArgsByID item.callID) item.argumentsString) := by
  have hargs : s.toolCallArgsByID item.callID = progress.args k := by rw [hcall, h.args k hk]
  have hne : item.itemID ≠ "" ∧ item.callID ≠ "" := by
    rw [hitem, hcall]
    exact ⟨(hnames.1 k (callAt_lt hk) hk).1, hnames.callID_ne hk⟩
  refine ⟨rfl, rfl, rfl, rfl, ?_, ?_⟩
  · rw [hargs, argsDelta_append hbegins, ← hcall]
    simp only [State.noteCall]
    split
    · rfl
    next hempty =>
      have hprev : s.toolCallArgsByID item.callID = item.argumentsString := by
        rw [not_not.mp hempty] at hbegins ⊢
        rw [hargs, hbegins.eq_empty]
      rw [← hprev, update_eq_self]
  · intro j hj
    have hcanonical : (s.noteCall item).toolCallCanonicalIDByItemID =
        update s.toolCallCanonicalIDByItemID item.itemID item.callID := if_pos hne
    rw [hcanonical]
    by_cases hjk : j = k
    · rw [hjk, ← hitem, update_self, hcall]
    · have hmem : j ∈ progress.order := (mem_opened.mp hj).resolve_right hjk
      rw [hitem, update_of_ne (hnames.apart (h.calls j hmem) hk hjk).1, h.canonical j hmem]

theorem follows_call (hname : item.callName = (itemAt output k).callName)
    (hbegins : Begins (progress.args k) item.argumentsString) :
    Follows output progress (progress.set k item.argumentsString) (handleCall responseId item s) := by
  have hnoted := noted_call hnames h hk hitem hcall hbegins
  have hargs : s.toolCallArgsByID item.callID = progress.args k := by rw [hcall, h.args k hk]
  have hwhole := argsDelta_append hbegins
  rw [hargs] at hnoted
  have htracks : Tracks output (sendToolCallDelta responseId (itemAt output k).callID item.callName
      (argsDelta (progress.args k) item.argumentsString) (s.noteCall item)).2 _ :=
    tracks_sendToolCallDelta hnames h hk hnoted (.inl hname)
  have hcalls := addFragment_calls h k (argsDelta (progress.args k) item.argumentsString)
  rw [hwhole] at htracks hcalls
  rw [Follows, handleCall, hargs, hcall,
    fragmentsOf_sendToolCallDelta hnames h hk hnoted (.inl hname)]
  exact ⟨htracks, hcalls⟩

end

end

theorem follows_arguments (hk : k ∈ progress.order) {itemID delta : String}
    (hitem : trimSpace itemID = (itemAt output k).itemID) :
    Follows output progress (progress.set k (progress.args k ++ delta))
      (handleArguments responseId itemID delta s) := by
  have hcallAt := h.calls k hk
  have hcallID : s.callIDOf (trimSpace itemID) = (itemAt output k).callID := by
    rw [State.callIDOf, hitem, h.canonical k hk, if_neg (hnames.callID_ne hcallAt)]
  have hnoted := noted_arguments h hk delta
  rw [Follows, handleArguments, hcallID]
  simp only [if_neg (hnames.callID_ne hcallAt)]
  refine ⟨tracks_sendToolCallDelta hnames h hcallAt hnoted (.inr hk), ?_⟩
  rw [fragmentsOf_sendToolCallDelta hnames h hcallAt hnoted (.inr hk)]
  exact addFragment_calls h k delta

end

theorem Tracks.of_same {s' : State} (h : Tracks output s progress)
    (hrunning : s'.streamErr = s.streamErr) (hsilent : s'.outputText = s.outputText)
    (hindexes : s'.toolCallIndexByID = s.toolCallIndexByID)
    (hargs : s'.toolCallArgsByID = s.toolCallArgsByID)
    (hsent : s'.toolCallNameSent = s.toolCallNameSent)
    (hcanonical : s'.toolCallCanonicalIDByItemID = s.toolCallCanonicalIDByItemID)
    (hsaw : s'.sawToolCall = s.sawToolCall) : Tracks output s' progress := by
  constructor
  case running => rw [hrunning, h.running]
  case silent => rw [hsilent, h.silent]
  case calls => exact h.calls
  case indexes => rw [hindexes, h.indexes]
  case args => rw [hargs]; exact h.args
  case unnamed => exact h.unnamed
  case sent => rw [hsent]; exact h.sent
  case canonical => rw [hcanonical]; exact h.canonical
  case saw => rw [hsaw]; exact h.saw

theorem follows_nothing {s' : State} (h : Tracks output s' progress) :
    Follows output progress progress ([], s') :=
  ⟨h, rfl⟩

variable {after : Progress} {event : Event} {response : Response}

theorem isFailed_of_accept
    (h : accept response progress event = some after) : isFailed event = false := by
  cases event with
  | failed => cases h
  | _ => rfl

theorem handle_follows (hnames : WellNamed response.output) (h : Tracks response.output s progress)
    (haccept : accept response progress event = some after) (htext : textDelta event = "") :
    Follows response.output progress after (handle responseId event s) := by
  rw [handle, h.running]
  simp only [isSome_none, Bool.false_eq_true, if_false]
  cases event with
  | outputItem type k item =>
    cases item with
    | none =>
      cases haccept
      exact follows_nothing h
    | some item =>
      simp only [accept] at haccept
      simp only [handleEvent]
      split at haccept
      next hother =>
        cases haccept
        rw [if_neg hother]
        exact follows_nothing h
      next hcall =>
        rw [if_pos (not_not.mp hcall)]
        split at haccept
        next hsame =>
          obtain ⟨hk, hitem, hcallID, hname, hbegins, -⟩ := hsame
          cases haccept
          exact follows_call hnames h hk hitem hcallID hname hbegins
        · cases haccept
  | functionCallArgumentsDelta k itemID delta =>
    simp only [accept] at haccept
    split at haccept
    next hsame =>
      cases haccept
      exact follows_arguments hnames h hsame.1 hsame.2.1
    · cases haccept
  | outputTextDelta k j delta =>
    cases haccept
    subst htext
    refine ⟨?_, ?_⟩
    · rw [handleEvent, state_start_then]
      exact h.of_same rfl rfl rfl rfl rfl rfl rfl
    · rw [handleEvent, fragmentsOf_start_then]
      rfl
  | reasoningSummaryTextDelta delta =>
    cases haccept
    simp only [handleEvent, sendReasoningSummaryDelta]
    split
    · exact follows_nothing h
    · refine ⟨?_, ?_⟩
      · rw [state_start_then]
        exact h.of_same rfl rfl rfl rfl rfl rfl rfl
      · rw [fragmentsOf_start_then]
        rfl
  | completed upstream =>
    have hafter : after = progress := by
      simp only [accept] at haccept
      split at haccept
      · cases haccept
        rfl
      · cases haccept
    subst hafter
    refine ⟨?_, ?_⟩
    · simp only [handleEvent, handleCompleted, state_start_then, sendStopIfNeeded_state]
      cases upstream <;> exact h.of_same rfl rfl rfl rfl rfl rfl rfl
    · simp only [handleEvent]
      rw [(handleCompleted_spec responseId s upstream).2.1]
      rfl
  | created upstream =>
    cases haccept
    cases upstream with
    | none => exact follows_nothing h
    | some upstream => exact follows_nothing (h.of_same rfl rfl rfl rfl rfl rfl rfl)
  | reasoningSummaryTextDone =>
    cases haccept
    apply follows_nothing
    split
    · exact h.of_same rfl rfl rfl rfl rfl rfl rfl
    · exact h
  | failed => cases haccept
  | functionCallArgumentsDone | other | malformed =>
    cases haccept
    exact follows_nothing h

variable {events : List Event}

theorem run_follows (hnames : WellNamed response.output) (h : Tracks response.output s progress)
    (hwatch : watch (accept response) progress events = some after) (htext : streamText events = "") :
    Follows response.output progress after (emitAll (handle responseId) events s) := by
  induction events generalizing s progress with
  | nil =>
    cases hwatch
    exact follows_nothing h
  | cons event rest ih =>
    obtain ⟨next, haccept, hrest⟩ := bind_eq_some_iff.mp hwatch
    obtain ⟨hevent, hlater⟩ := append_eq_empty_iff.mp htext
    obtain ⟨htracks, hcalls⟩ := handle_follows hnames h haccept hevent
    obtain ⟨hdone, hrun⟩ := ih htracks hrest hlater
    refine ⟨hdone, ?_⟩
    rw [emitAll, andThen, fragmentsOf_append, foldl_append, hcalls, hrun]

theorem opened_ne_nil (order : List ℕ) (k : ℕ) : opened order k ≠ [] :=
  ne_nil_of_mem (mem_opened.mpr (.inr rfl))

theorem accept_order {next : Progress} (haccept : accept response progress event = some next) :
    (∃ type k item, event = .outputItem type k (some item) ∧ item.IsCall ∧
        next.order = opened progress.order k) ∨
      (∃ k itemID delta, event = .functionCallArgumentsDelta k itemID delta ∧ progress.order ≠ [] ∧
        next.order = progress.order) ∨
      (∀ type k item, event = .outputItem type k (some item) → ¬ item.IsCall) ∧
        next.order = progress.order := by
  cases event with
  | outputItem type k item =>
    cases item with
    | none =>
      cases haccept
      exact .inr (.inr ⟨by simp, rfl⟩)
    | some item =>
      simp only [accept] at haccept
      split at haccept
      next hother =>
        cases haccept
        refine .inr (.inr ⟨?_, rfl⟩)
        rintro type k item ⟨⟩
        exact hother
      next hcall =>
        split at haccept
        · cases haccept
          exact .inl ⟨type, k, item, rfl, not_not.mp hcall, rfl⟩
        · cases haccept
  | functionCallArgumentsDelta k itemID delta =>
    simp only [accept] at haccept
    split at haccept
    next hsame =>
      cases haccept
      exact .inr (.inl ⟨k, itemID, delta, rfl, ne_nil_of_mem hsame.1, opened_of_mem hsame.1⟩)
    · cases haccept
  | completed upstream =>
    simp only [accept] at haccept
    split at haccept
    · cases haccept
      exact .inr (.inr ⟨by simp, rfl⟩)
    · cases haccept
  | failed => cases haccept
  | _ =>
    cases haccept
    exact .inr (.inr ⟨by simp, rfl⟩)

theorem callOrder_step {next : Progress} (rest : List Event)
    (haccept : accept response progress event = some next) :
    callOrder progress.order (event :: rest) = callOrder next.order rest := by
  rcases accept_order haccept with ⟨type, k, item, rfl, hcall, horder⟩ |
    ⟨k, itemID, delta, rfl, -, horder⟩ | ⟨hother, horder⟩
  · rw [callOrder, if_pos hcall, horder]
  · rw [callOrder, horder]
    simp
  · rw [horder]
    cases event with
    | outputItem type k item =>
      cases item with
      | none => rfl
      | some item => rw [callOrder, if_neg (hother type k item rfl)]
    | _ => rfl

theorem callOrder_watch (hwatch : watch (accept response) progress events = some after) :
    after.order = callOrder progress.order events := by
  induction events generalizing progress with
  | nil =>
    cases hwatch
    rfl
  | cons event rest ih =>
    obtain ⟨next, haccept, hrest⟩ := bind_eq_some_iff.mp hwatch
    rw [callOrder_step rest haccept]
    exact ih hrest

theorem textFirst_step {next : Progress} (rest : List Event)
    (haccept : accept response progress event = some next) (htext : textDelta event = "") :
    (next.order = [] ∧ textFirst rest = true) ↔
      (progress.order = [] ∧ textFirst (event :: rest) = true) := by
  rcases accept_order haccept with ⟨type, k, item, rfl, hcall, horder⟩ |
    ⟨k, itemID, delta, rfl, hsome, horder⟩ | ⟨hother, horder⟩
  · simp [horder, opened_ne_nil, textFirst, hcall]
  · simp [horder, hsome]
  · rw [horder]
    cases event with
    | outputItem type k item =>
      cases item with
      | none => rfl
      | some item => simp [textFirst, hother type k item rfl]
    | outputTextDelta k j delta =>
      change delta = "" at htext
      simp [textFirst, htext]
    | _ => rfl

variable (responseId) in
theorem run_text_calls (hnames : WellNamed response.output) (h : Tracks response.output s progress)
    (hwatch : watch (accept response) progress events = some after) (htext : streamText events ≠ "") :
    (fragmentsOf (emitAll (handle responseId) events s).1).foldl addFragment
        (callsOf response.output progress) = [] ↔
      progress.order = [] ∧ textFirst events = true := by
  induction events generalizing s progress with
  | nil => exact absurd rfl htext
  | cons event rest ih =>
    obtain ⟨next, haccept, hrest⟩ := bind_eq_some_iff.mp hwatch
    by_cases hevent : textDelta event = ""
    · have hlater : streamText rest ≠ "" := fun hempty =>
        htext (append_eq_empty_iff.mpr ⟨hevent, hempty⟩)
      have hfollows : Follows response.output progress next (handle responseId event s) :=
        handle_follows hnames h haccept hevent
      obtain ⟨htracks, hcalls⟩ := hfollows
      rw [emitAll, andThen, fragmentsOf_append, foldl_append, hcalls, ih htracks hrest hlater]
      exact textFirst_step rest haccept hevent
    · cases event with
      | outputTextDelta k j delta =>
        have hnone : fragmentsOf (handle responseId (.outputTextDelta k j delta) s).1 = [] := by
          rw [handle, h.running]
          change fragmentsOf (andThen _ _ s).1 = []
          rw [fragmentsOf_start_then, sendText]
          split <;> rfl
        have hsaid : (handle responseId (.outputTextDelta k j delta) s).2.outputText ≠ "" := by
          rw [(handle_sends responseId h.running _).outputText]
          exact fun hempty => hevent (append_eq_empty_iff.mp hempty).2
        have hfirst : textFirst (.outputTextDelta k j delta :: rest) = true := by
          simpa [textFirst] using .inl hevent
        rw [emitAll, andThen, fragmentsOf_append, hnone, run_after_text hsaid, hfirst]
        simp [callsOf]
      | _ => exact absurd rfl hevent

theorem isFailed_of_watch (hwatch : watch (accept response) progress events = some after) :
    ∀ event ∈ events, isFailed event = false := by
  induction events generalizing progress with
  | nil => simp
  | cons event rest ih =>
    obtain ⟨next, haccept, hrest⟩ := bind_eq_some_iff.mp hwatch
    intro later hlater
    rcases mem_cons.mp hlater with rfl | hlater
    · exact isFailed_of_accept haccept
    · exact ih hrest later hlater

end Tracking

end ResponsesStream
