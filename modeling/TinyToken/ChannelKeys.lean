import TinyToken.StepMachines

/-! The keys of a multi-key channel: which one the next request takes, and how keys are disabled. -/
namespace ChannelKeys

open List

def channelStatusEnabled : ℤ := 1

def channelStatusAutoDisabled : ℤ := 3

inductive MultiKeyMode where
  | random | polling | other

/-- `keys` is what `GetKeys` gives; a key without an entry in the status list is enabled. -/
structure Channel where
  status : ℤ
  isMultiKey : Bool
  key : String
  keys : List String
  multiKeyMode : MultiKeyMode
  multiKeyStatusList : ℕ → Option ℤ
  multiKeyPollingIndex : ℤ

def getStatus (channel : Channel) (idx : ℕ) : ℤ :=
  (channel.multiKeyStatusList idx).getD channelStatusEnabled

def isEnabled (channel : Channel) (idx : ℕ) : Bool := getStatus channel idx = channelStatusEnabled

def enabledIdx (channel : Channel) : List ℕ := (range channel.keys.length).filter (isEnabled channel)

def keyAt (channel : Channel) (idx : ℕ) : String := channel.keys.getD idx ""

def pollingStart (channel : Channel) : ℕ :=
  if channel.multiKeyPollingIndex < 0 ∨ channel.multiKeyPollingIndex ≥ channel.keys.length then 0
  else channel.multiKeyPollingIndex.toNat

def pollingOrder (n start : ℕ) : List ℕ := (range n).map fun i => (start + i) % n

/-- `draw` is the random number of the random mode. The channel is the shared cached one, so the
polling index that is read is the one that was written last. -/
def getNextEnabledKey (draw : ℕ) (channel : Channel) : Except String (String × ℕ) × Channel :=
  let enabled := enabledIdx channel
  let first := enabled.headD 0
  if !channel.isMultiKey then (.ok (channel.key, 0), channel)
  else if channel.keys = [] then (.error "no keys available", channel)
  else if enabled = [] then (.error "no enabled keys", channel)
  else
    match channel.multiKeyMode with
    | .random =>
      let selectedIdx := enabled.getD (draw % enabled.length) 0
      (.ok (keyAt channel selectedIdx, selectedIdx), channel)
    | .polling =>
      match (pollingOrder channel.keys.length (pollingStart channel)).find? (isEnabled channel) with
      | some idx => (.ok (keyAt channel idx, idx),
          { channel with multiKeyPollingIndex := ((idx + 1) % channel.keys.length : ℕ) })
      | none => (.ok (keyAt channel first, first), channel)
    | .other => (.ok (keyAt channel first, first), channel)

def answers : List ℕ → Channel → List (Except String (String × ℕ))
  | [], _ => []
  | draw :: draws, channel =>
    (getNextEnabledKey draw channel).1 :: answers draws (getNextEnabledKey draw channel).2

section Polling

theorem pollingOrder_eq (n start : ℕ) : pollingOrder n start = (range n).rotate start := by
  refine ext_getElem (by simp [pollingOrder]) fun i h₁ h₂ => ?_
  simp [pollingOrder, getElem_rotate, Nat.add_comm]

/-- Going on behind an index that was found turns the order so that this index comes last. -/
theorem pollingOrder_next {n start idx : ℕ} {before later : List ℕ}
    (h : pollingOrder n start = before ++ idx :: later) :
    pollingOrder n ((idx + 1) % n) = later ++ (before ++ [idx]) := by
  have hlength : before.length < n := by
    have := congrArg length h
    simp only [pollingOrder, length_map, length_range, length_append,
      length_cons] at this
    omega
  have hidx : idx = (start + before.length) % n := by
    have hget : (pollingOrder n start)[before.length]? = some idx := by simp [h]
    simpa [pollingOrder, hlength] using hget.symm
  have hturn : (idx + 1) % n % n = (start + (before.length + 1)) % n := by
    rw [hidx, Nat.mod_mod, Nat.mod_add_mod, Nat.add_assoc]
  rw [pollingOrder_eq] at h ⊢
  have hmod : ∀ k, (range n).rotate k = (range n).rotate (k % n) := fun k => by
    simpa using (rotate_mod (range n) k).symm
  rw [hmod, hturn, ← hmod, ← rotate_rotate, h]
  have hsplit : before ++ idx :: later = (before ++ [idx]) ++ later := by simp
  have hlen : before.length + 1 = (before ++ [idx]).length := by simp
  rw [hsplit, hlen, rotate_append_length_eq]

def upcoming (channel : Channel) : List ℕ :=
  (pollingOrder channel.keys.length (pollingStart channel)).filter (isEnabled channel)

theorem upcoming_perm (channel : Channel) : (upcoming channel).Perm (enabledIdx channel) := by
  rw [upcoming, pollingOrder_eq]
  exact (rotate_perm _ _).filter _

variable {channel : Channel}

/-- A call returns the first index of the order, and puts it behind the others. -/
theorem getNextEnabledKey_polling (hmulti : channel.isMultiKey = true)
    (hmode : channel.multiKeyMode = .polling) {idx : ℕ} {rest : List ℕ}
    (h : upcoming channel = idx :: rest) (draw : ℕ) :
    ∃ next, getNextEnabledKey draw channel = (.ok (keyAt channel idx, idx),
        { channel with multiKeyPollingIndex := next }) ∧
      upcoming { channel with multiKeyPollingIndex := next } = rest ++ [idx] := by
  have hfind : (pollingOrder channel.keys.length (pollingStart channel)).find? (isEnabled channel) =
      some idx := by
    rw [← head?_filter]
    exact congrArg head? h
  obtain ⟨hidx, before, later, horder, hbefore⟩ := find?_eq_some_iff_append.mp hfind
  have hkeys : channel.keys ≠ [] := fun hnil => by simp [upcoming, pollingOrder, hnil] at h
  have hpos := length_pos_iff.mpr hkeys
  have henabled : enabledIdx channel ≠ [] := fun hnil => by
    have hperm := upcoming_perm channel
    rw [h, hnil] at hperm
    simp at hperm
  refine ⟨((idx + 1) % channel.keys.length : ℕ), ?_, ?_⟩
  · simp [getNextEnabledKey, hmulti, hkeys, henabled, hmode, hfind]
  · have hlt := Nat.mod_lt (idx + 1) hpos
    have hstart : pollingStart { channel with
        multiKeyPollingIndex := (((idx + 1) % channel.keys.length : ℕ) : ℤ) } =
        (idx + 1) % channel.keys.length := by
      simp only [pollingStart]
      rw [if_neg (by omega)]
      rfl
    have hnone : before.filter (isEnabled channel) = [] := by
      rw [filter_eq_nil_iff]
      intro i hi
      simpa using hbefore i hi
    have hrest : later.filter (isEnabled channel) = rest := by
      rw [upcoming, horder, filter_append, hnone, nil_append,
        filter_cons_of_pos hidx] at h
      exact (cons.inj h).2
    have hnext : upcoming { channel with
        multiKeyPollingIndex := (((idx + 1) % channel.keys.length : ℕ) : ℤ) } =
        (pollingOrder channel.keys.length ((idx + 1) % channel.keys.length)).filter
          (isEnabled channel) := by
      rw [upcoming, hstart]
      rfl
    rw [hnext, pollingOrder_next horder, filter_append, filter_append, hnone, hrest,
      nil_append, filter_cons_of_pos hidx, filter_nil]

/-- The calls return the indexes in their order, as long as they last. -/
theorem answers_polling (draws : List ℕ) (hmulti : channel.isMultiKey = true)
    (hmode : channel.multiKeyMode = .polling) (hlength : draws.length ≤ (upcoming channel).length) :
    answers draws channel =
      ((upcoming channel).take draws.length).map fun idx => .ok (keyAt channel idx, idx) := by
  induction draws generalizing channel with
  | nil => rfl
  | cons draw draws ih =>
    cases hup : upcoming channel with
    | nil => simp [hup] at hlength
    | cons idx rest =>
      obtain ⟨next, hcall, hnext⟩ := getNextEnabledKey_polling hmulti hmode hup draw
      rw [hup, length_cons, length_cons] at hlength
      have hle : draws.length ≤ rest.length := by omega
      have hrest := @ih { channel with multiKeyPollingIndex := next } hmulti hmode
        (by rw [hnext, length_append]; omega)
      rw [answers, hcall, hrest, hnext, take_append_of_le_length hle]
      rfl

/-- No call returns a disabled key. -/
theorem answers_enabled (draws : List ℕ) (hmulti : channel.isMultiKey = true)
    (hmode : channel.multiKeyMode = .polling) (henabled : enabledIdx channel ≠ []) :
    ∀ answer ∈ answers draws channel, ∃ idx ∈ enabledIdx channel,
      answer = .ok (keyAt channel idx, idx) := by
  induction draws generalizing channel with
  | nil => simp [answers]
  | cons draw draws ih =>
    cases hup : upcoming channel with
    | nil => exact absurd (nil_perm.mp (hup ▸ upcoming_perm channel)) henabled
    | cons idx rest =>
      obtain ⟨next, hcall, -⟩ := getNextEnabledKey_polling hmulti hmode hup draw
      have hmem : idx ∈ enabledIdx channel := (upcoming_perm channel).subset (by simp [hup])
      rw [answers, hcall]
      intro answer hanswer
      rcases mem_cons.mp hanswer with rfl | hlater
      · exact ⟨idx, hmem, rfl⟩
      · exact @ih { channel with multiKeyPollingIndex := next } hmulti hmode henabled
          answer hlater

/-- As many calls as there are enabled keys return each of them once, from any polling index. -/
theorem polling_takes_turns (channel : Channel) (hmulti : channel.isMultiKey = true)
    (hmode : channel.multiKeyMode = .polling) (henabled : 1 ≤ (enabledIdx channel).length) :
    (∀ draws : List ℕ, draws.length = (enabledIdx channel).length → ∃ indexes : List ℕ,
        indexes.Perm (enabledIdx channel) ∧
        answers draws channel = indexes.map fun idx => .ok (keyAt channel idx, idx)) ∧
      ∀ draws, ∀ answer ∈ answers draws channel, ∃ idx ∈ enabledIdx channel,
        answer = .ok (keyAt channel idx, idx) := by
  constructor
  · intro draws hlength
    have hsame := (upcoming_perm channel).length_eq
    refine ⟨upcoming channel, upcoming_perm channel, ?_⟩
    rw [answers_polling draws hmulti hmode (by omega), hlength, ← hsame, take_length]
  · exact fun draws => answers_enabled draws hmulti hmode (ne_nil_of_length_pos henabled)

end Polling

def threeKeys : Channel :=
  ⟨1, true, "a\nb\nc", ["a", "b", "c"], .polling, fun i => if i = 1 then some 3 else none, 7⟩

theorem two_keys_take_turns : ∃ indexes : List ℕ, indexes.Perm [0, 2] ∧
      answers [0, 0] threeKeys = indexes.map fun idx => .ok (keyAt threeKeys idx, idx) :=
  (polling_takes_turns threeKeys rfl rfl (by decide)).1 [0, 0] rfl

def hasEnabledMultiKey (keys : List String) (statusList : ℕ → Option ℤ) : Bool :=
  (range keys.length).any fun i =>
    (statusList i).isNone || statusList i = some channelStatusEnabled

def setKeyStatus (statusList : ℕ → Option ℤ) (keyIndex : ℕ) (status : ℤ) : ℕ → Option ℤ :=
  Function.update statusList keyIndex (if status = channelStatusEnabled then none else some status)

def handlerMultiKeyUpdate (usingKey : String) (status : ℤ) (channel : Channel) : Channel :=
  if channel.keys = [] then { channel with status := status }
  else
    match channel.keys.findIdx? (· = usingKey) with
    | none => if usingKey ≠ "" then channel else { channel with status := status }
    | some keyIndex =>
      let statusList := setKeyStatus channel.multiKeyStatusList keyIndex status
      let updated := { channel with multiKeyStatusList := statusList }
      if !hasEnabledMultiKey channel.keys statusList then
        { updated with status := channelStatusAutoDisabled }
      else if status = channelStatusEnabled then { updated with status := channelStatusEnabled }
      else updated

/-- The cached and the stored channel; a stored channel that has the status already is not
updated, whatever the call does to the cached one. -/
def updateChannelStatus (usingKey : String) (status : ℤ) (cached stored : Channel) :
    Bool × Channel × Channel :=
  let update (channel : Channel) : Channel :=
    if channel.isMultiKey then handlerMultiKeyUpdate usingKey status channel
    else { channel with status := status }
  if !cached.isMultiKey && cached.status = status then (false, cached, stored)
  else if stored.status = status then (false, update cached, stored)
  else (true, update cached, update stored)

/-- The two copies, and what the calls so far have asked for: whether the channel is disabled as a
whole, and which keys are disabled. -/
structure Copies where
  cached : Channel
  stored : Channel
  whole : Bool
  off : List String

def step (s : Copies) (call : String × ℤ) : Bool × Copies :=
  let (usingKey, status) := call
  let (updated, cached, stored) := updateChannelStatus usingKey status s.cached s.stored
  let whole := if usingKey = "" ∧ "" ∉ s.cached.keys then decide (status ≠ channelStatusEnabled)
    else s.whole
  let off := if usingKey ∉ s.cached.keys then s.off
    else if status = channelStatusEnabled then s.off.filter (· ≠ usingKey) else usingKey :: s.off
  (updated, ⟨cached, stored, whole, off⟩)

/-- A call for a key changes the status the channel has, and enables no key of a channel that is
disabled as a whole; a channel is enabled as a whole only with an enabled key. -/
def Orderly (s : Copies) (call : String × ℤ) : Prop :=
  (call.2 = channelStatusEnabled ∨ call.2 = channelStatusAutoDisabled) ∧
  (call.1 ∈ s.cached.keys →
    call.2 ≠ s.stored.status ∧ (call.2 = channelStatusEnabled → s.whole = false)) ∧
  (call.1 = "" → "" ∉ s.cached.keys → call.2 = channelStatusEnabled →
    hasEnabledMultiKey s.cached.keys s.cached.multiKeyStatusList = true)

instance (s : Copies) (call : String × ℤ) : Decidable (Orderly s call) :=
  inferInstanceAs (Decidable (_ ∧ _ ∧ _))

/-- The copies differ in nothing but the polling index, and say what the calls have asked for. -/
structure Agree (s : Copies) : Prop where
  multi : s.cached.isMultiKey = true
  same : s.stored = { s.cached with multiKeyPollingIndex := s.stored.multiKeyPollingIndex }
  nonempty : s.cached.keys ≠ []
  distinct : s.cached.keys.Nodup
  disabled : s.cached.status = channelStatusAutoDisabled ↔
    hasEnabledMultiKey s.cached.keys s.cached.multiKeyStatusList = false ∨ s.whole = true
  off : ∀ key ∈ s.off, ∀ i, s.cached.keys[i]? = some key → isEnabled s.cached i = false

section Copies

variable {channel : Channel} {usingKey : String} {s : Copies}

theorem getNextEnabledKey_enabled (hmulti : channel.isMultiKey = true) {draw idx : ℕ} {key : String}
    (h : (getNextEnabledKey draw channel).1 = .ok (key, idx)) :
    channel.keys[idx]? = some key ∧ isEnabled channel idx = true := by
  have hmem : idx ∈ enabledIdx channel ∧ key = keyAt channel idx := by
    simp only [getNextEnabledKey, hmulti, Bool.not_true, Bool.false_eq_true, if_false] at h
    split_ifs at h with hkeys hnone
    have hpos := List.length_pos_iff.mpr hnone
    have hfirst : (enabledIdx channel).headD 0 ∈ enabledIdx channel := by
      obtain ⟨i, rest, hcons⟩ := exists_cons_of_ne_nil hnone
      simp [hcons]
    split at h
    · cases h
      rw [getD_eq_getElem _ _ (Nat.mod_lt draw hpos)]
      exact ⟨getElem_mem _, rfl⟩
    · split at h
      next found hfound =>
        cases h
        have hturn := mem_of_find?_eq_some hfound
        rw [pollingOrder_eq, mem_rotate] at hturn
        exact ⟨mem_filter.mpr ⟨hturn, find?_some hfound⟩, rfl⟩
      · cases h
        exact ⟨hfirst, rfl⟩
    · cases h
      exact ⟨hfirst, rfl⟩
  obtain ⟨hidx, rfl⟩ := hmem
  obtain ⟨hlt, henabled⟩ := mem_filter.mp hidx
  have hlt := mem_range.mp hlt
  exact ⟨by simp [keyAt, hlt], henabled⟩

/-- The handler does not look at the polling index. -/
theorem handlerMultiKeyUpdate_polling (status next : ℤ) :
    handlerMultiKeyUpdate usingKey status { channel with multiKeyPollingIndex := next } =
      { handlerMultiKeyUpdate usingKey status channel with multiKeyPollingIndex := next } := by
  by_cases hkeys : channel.keys = []
  · simp only [handlerMultiKeyUpdate, if_pos hkeys]
  · cases hfind : channel.keys.findIdx? (· = usingKey) <;>
      simp only [handlerMultiKeyUpdate, if_neg hkeys, hfind] <;> split_ifs <;> rfl

theorem handlerMultiKeyUpdate_whole (hkeys : channel.keys ≠ []) (h : usingKey ∉ channel.keys)
    (status : ℤ) : handlerMultiKeyUpdate usingKey status channel =
      { channel with status := if usingKey = "" then status else channel.status } := by
  have hfind : channel.keys.findIdx? (· = usingKey) = none := by
    rw [findIdx?_eq_none_iff]
    intro key hkey
    rw [decide_eq_false_iff_not]
    rintro rfl
    exact h hkey
  simp only [handlerMultiKeyUpdate, if_neg hkeys, hfind, ne_eq, ite_not]
  split_ifs <;> rfl

/-- A call for a key sets the status at the one index of the key. -/
theorem handlerMultiKeyUpdate_key (hdistinct : channel.keys.Nodup) (h : usingKey ∈ channel.keys)
    (status : ℤ) : ∃ i, i < channel.keys.length ∧
      (∀ j, channel.keys[j]? = some usingKey ↔ j = i) ∧
      handlerMultiKeyUpdate usingKey status channel = { channel with
        multiKeyStatusList := setKeyStatus channel.multiKeyStatusList i status
        status := if !hasEnabledMultiKey channel.keys
            (setKeyStatus channel.multiKeyStatusList i status) then channelStatusAutoDisabled
          else if status = channelStatusEnabled then channelStatusEnabled else channel.status } := by
  have hne : channel.keys ≠ [] := ne_nil_of_mem h
  cases hfind : channel.keys.findIdx? (· = usingKey) with
  | none =>
    rw [findIdx?_eq_none_iff] at hfind
    simpa using hfind usingKey h
  | some i =>
    obtain ⟨hi, hkey, -⟩ := findIdx?_eq_some_iff_getElem.mp hfind
    have hkey := of_decide_eq_true hkey
    refine ⟨i, hi, fun j => ⟨fun hj => ?_, fun hj => ?_⟩, ?_⟩
    · obtain ⟨hlt, hjkey⟩ := List.getElem?_eq_some_iff.mp hj
      exact (List.Nodup.getElem_inj_iff hdistinct).mp (hjkey.trans hkey.symm)
    · rw [hj, getElem?_eq_getElem hi, hkey]
    · simp only [handlerMultiKeyUpdate, if_neg hne, hfind]
      split_ifs <;> rfl

theorem step_cached (h : Agree s) (status : ℤ) :
    (step s (usingKey, status)).2.cached = handlerMultiKeyUpdate usingKey status s.cached := by
  simp only [step, updateChannelStatus, h.multi, Bool.not_true, Bool.false_and, Bool.false_eq_true,
    if_false, if_true]
  split_ifs <;> rfl

/-- The copies stay the same if a call that the stored one skips leaves the cached one as it is. -/
theorem step_stored (h : Agree s) {status : ℤ} (hskip : s.cached.status = status →
      handlerMultiKeyUpdate usingKey status s.cached = s.cached) :
    (step s (usingKey, status)).2.stored =
      { (step s (usingKey, status)).2.cached with
        multiKeyPollingIndex := (step s (usingKey, status)).2.stored.multiKeyPollingIndex } := by
  have hmulti : s.stored.isMultiKey = true := by rw [h.same]; exact h.multi
  have hstatus : s.stored.status = s.cached.status := by rw [h.same]
  have hhandler := @handlerMultiKeyUpdate_polling s.cached usingKey status
    s.stored.multiKeyPollingIndex
  rw [← h.same] at hhandler
  rw [step_cached h]
  simp only [step, updateChannelStatus, h.multi, hmulti, hstatus, Bool.not_true, Bool.false_and,
    Bool.false_eq_true, if_false, if_true]
  split_ifs with hskipped
  · rw [hskip hskipped]
    exact h.same
  · rw [hhandler]

theorem autoDisabled_ne_enabled : channelStatusAutoDisabled ≠ channelStatusEnabled := by decide

theorem hasEnabledMultiKey_enable {keys : List String} {i : ℕ} (hi : i < keys.length)
    (statusList : ℕ → Option ℤ) :
    hasEnabledMultiKey keys (setKeyStatus statusList i channelStatusEnabled) = true :=
  any_eq_true.mpr ⟨i, mem_range.mpr hi, by simp [setKeyStatus]⟩

theorem isEnabled_setKeyStatus {i j : ℕ} {status : ℤ}
    (hchannel : channel.multiKeyStatusList = setKeyStatus s.cached.multiKeyStatusList i status) :
    isEnabled channel j = if j = i then decide (status = channelStatusEnabled)
      else isEnabled s.cached j := by
  by_cases hj : j = i
  · subst hj
    by_cases hstatus : status = channelStatusEnabled <;>
      simp [isEnabled, getStatus, hchannel, setKeyStatus, hstatus]
  · rw [if_neg hj, isEnabled, getStatus, hchannel, setKeyStatus, Function.update_of_ne hj]
    rfl

/-- A call for a key keeps the agreement. -/
theorem agree_key (h : Agree s) {status : ℤ} (hcall : Orderly s (usingKey, status))
    (hmem : usingKey ∈ s.cached.keys) : Agree (step s (usingKey, status)).2 := by
  obtain ⟨hvalues, hkey, -⟩ := hcall
  obtain ⟨hchange, hwhole⟩ := hkey hmem
  obtain ⟨i, hi, hindex, hupdate⟩ := handlerMultiKeyUpdate_key h.distinct hmem status
  have hcached := (step_cached h status).trans hupdate
  have hchange : s.cached.status ≠ status := by
    rw [h.same] at hchange
    exact Ne.symm hchange
  have hw : (step s (usingKey, status)).2.whole = s.whole :=
    if_neg fun hempty => hempty.2 (hempty.1 ▸ hmem)
  refine ⟨?_, step_stored h fun heq => absurd heq hchange, ?_, ?_, ?_, ?_⟩
  · rw [hcached]; exact h.multi
  · rw [hcached]; exact h.nonempty
  · rw [hcached]; exact h.distinct
  · rw [hcached, hw]
    rcases hvalues with henable | hdisable
    · -- an enabled key: the channel is enabled, and was not disabled as a whole
      subst henable
      simp [hasEnabledMultiKey_enable hi, hwhole rfl, autoDisabled_ne_enabled.symm]
    · -- a disabled key: the channel was enabled, so not disabled as a whole
      subst hdisable
      have hnot := not_or.mp (mt h.disabled.mpr hchange)
      by_cases hleft : hasEnabledMultiKey s.cached.keys
          (setKeyStatus s.cached.multiKeyStatusList i channelStatusAutoDisabled) = true
      · simp [hleft, hnot.2, hchange, autoDisabled_ne_enabled]
      · simp [hleft]
  · intro key hoff j hj
    have hlist := congrArg Channel.multiKeyStatusList hcached
    rw [isEnabled_setKeyStatus hlist]
    rw [hcached] at hj
    have hoff' : key ∈ if status = channelStatusEnabled then s.off.filter (· ≠ usingKey)
        else usingKey :: s.off := by simpa [step, hmem] using hoff
    by_cases hji : j = i
    · have hsame : key = usingKey := Option.some.inj (hj.symm.trans ((hindex j).mpr hji))
      rw [if_pos hji]
      by_contra hstatus
      simp only [Bool.not_eq_false, decide_eq_true_eq] at hstatus
      simp [hstatus, hsame] at hoff'
    · have hother : key ≠ usingKey := fun heq => hji ((hindex j).mp (heq ▸ hj))
      rw [if_neg hji]
      refine h.off key ?_ j hj
      split_ifs at hoff'
      · exact (mem_filter.mp hoff').1
      · exact (mem_cons.mp hoff').resolve_left hother

/-- A call for the whole channel, or for a key that it does not have, keeps the agreement. -/
theorem agree_whole (h : Agree s) {status : ℤ} (hcall : Orderly s (usingKey, status))
    (hmem : usingKey ∉ s.cached.keys) : Agree (step s (usingKey, status)).2 := by
  have hupdate := handlerMultiKeyUpdate_whole h.nonempty hmem status
  have hcached := (step_cached h status).trans hupdate
  have hoff : (step s (usingKey, status)).2.off = s.off := if_pos hmem
  refine ⟨?_, step_stored h ?_, ?_, ?_, ?_, ?_⟩
  · rw [hcached]; exact h.multi
  · rintro rfl; rw [hupdate, ite_self]
  · rw [hcached]; exact h.nonempty
  · rw [hcached]; exact h.distinct
  · rw [hcached]
    by_cases hempty : usingKey = ""
    · subst hempty
      rw [if_pos rfl, show (step s ("", status)).2.whole = decide (status ≠ channelStatusEnabled)
        from if_pos ⟨rfl, hmem⟩]
      rcases hcall.1 with rfl | rfl
      · simp [hcall.2.2 rfl hmem rfl, autoDisabled_ne_enabled.symm]
      · simp [autoDisabled_ne_enabled]
    · rw [if_neg hempty, show (step s (usingKey, status)).2.whole = s.whole
        from if_neg fun hboth => hempty hboth.1]
      exact h.disabled
  · rw [hcached, hoff]; exact h.off

/-- After orderly calls the copies agree, the channel is disabled as it should be, and no disabled
key is handed out. -/
theorem disabled_keys_stay_off (s : Copies) (h : Agree s) (calls : List (String × ℤ))
    (hcalls : StepMachines.Along step Orderly s calls) :
    let s' := StepMachines.after step s calls
    s'.cached.status = s'.stored.status ∧
      (∀ i, getStatus s'.cached i = getStatus s'.stored i) ∧
      (s'.cached.status = channelStatusAutoDisabled ↔
        hasEnabledMultiKey s'.cached.keys s'.cached.multiKeyStatusList = false ∨ s'.whole = true) ∧
      ∀ key ∈ s'.off, ∀ draw idx, (getNextEnabledKey draw s'.cached).1 ≠ .ok (key, idx) := by
  have hagree : Agree (StepMachines.after step s calls) := by
    refine StepMachines.invariant_after (fun s call h hcall => ?_) h hcalls
    by_cases hmem : call.1 ∈ s.cached.keys
    · exact agree_key h hcall hmem
    · exact agree_whole h hcall hmem
  refine ⟨by rw [hagree.same], fun i => by rw [hagree.same]; rfl, hagree.disabled, ?_⟩
  intro key hkey draw idx hnext
  obtain ⟨hidx, henabled⟩ := getNextEnabledKey_enabled hagree.multi hnext
  rw [hagree.off key hkey idx hidx] at henabled
  exact Bool.false_ne_true henabled

end Copies

def twoKeys (keys : List String) : Copies :=
  let channel : Channel := ⟨1, true, "", keys, .polling, fun _ => none, 0⟩
  ⟨channel, channel, false, []⟩

theorem two_keys_disabled :
    let s := StepMachines.after step (twoKeys ["a", "b"]) [("a", 3), ("b", 3), ("a", 1)]
    s.off = ["b"] ∧ s.cached.status = s.stored.status ∧
      ∀ draw idx, (getNextEnabledKey draw s.cached).1 ≠ .ok ("b", idx) := by
  have h := disabled_keys_stay_off (twoKeys ["a", "b"])
    ⟨rfl, rfl, by decide, by decide, by decide, by simp [twoKeys]⟩
    [("a", 3), ("b", 3), ("a", 1)] (by decide)
  exact ⟨by decide, h.1, h.2.2.2 "b" (by decide)⟩

/-- A key enabled in an enabled channel stays disabled in the store; a key enabled in a channel that
is disabled as a whole enables the channel; a key listed twice is handed out when it is disabled. -/
theorem copies_drift_apart :
    (let s := StepMachines.after step (twoKeys ["a", "b"]) [("a", 3), ("a", 1)]
     getStatus s.cached 0 = 1 ∧ getStatus s.stored 0 = 3) ∧
    (let s := StepMachines.after step (twoKeys ["a", "b"]) [("", 3), ("a", 1)]
     s.whole = true ∧ s.cached.status = 1) ∧
    (let s := StepMachines.after step (twoKeys ["a", "a"]) [("a", 3)]
     s.off = ["a"] ∧ (getNextEnabledKey 0 s.cached).1.toOption = some ("a", 1)) := by
  decide

end ChannelKeys
