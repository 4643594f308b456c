import Mathlib

/-! The retry loop of a relayed request with cross-group retries: which auto group serves each
attempt, how the counter is reset between groups, and when the loop ends. -/
namespace ChannelRetries

open List

/-- `available i p` says whether a channel is found for the model in group `i` at retry `p`. -/
abbrev Availability := ℕ → ℕ → Bool

/-- The retry parameter, with the group index that the request context keeps. -/
structure RetryParam where
  retry : ℕ
  resetNextTry : Bool
  autoGroupIndex : Option ℕ

def increaseRetry (param : RetryParam) : RetryParam :=
  if param.resetNextTry then { param with resetNextTry := false }
  else { param with retry := param.retry + 1 }

/-- An attempt in a group, with what its selection has found available. -/
structure Attempt where
  group : ℕ
  priorityRetry : ℕ
  available : Availability

/-- The loop over the groups that are left. -/
def selectFrom (retryTimes : ℕ) (available : Availability) :
    List ℕ → ℕ → RetryParam → Option Attempt × RetryParam
  | [], _, param => (none, param)
  | i :: groups, priorityRetry, param =>
    if available i priorityRetry then
      (some ⟨i, priorityRetry, available⟩,
        if priorityRetry ≥ retryTimes then ⟨0, true, some (i + 1)⟩
        else { param with autoGroupIndex := some i })
    else selectFrom retryTimes available groups 0
      { param with retry := 0, autoGroupIndex := some (i + 1) }

def startGroupIndex (param : RetryParam) : ℕ := param.autoGroupIndex.getD 0

def cacheGetRandomSatisfiedChannel (retryTimes groups : ℕ) (available : Availability)
    (param : RetryParam) : Option Attempt × RetryParam :=
  selectFrom retryTimes available
    (range' (startGroupIndex param) (groups - startGroupIndex param)) param.retry param

/-- What decides about a retry after a failed attempt. -/
structure Failure where
  affinitySkip : Bool
  channelError : Bool
  skipRetry : Bool
  retryCode : Bool

def shouldRetry : Option Failure → ℤ → Bool
  | none, _ => false
  | some failure, retryTimes =>
    if failure.affinitySkip then false
    else if failure.channelError then true
    else if failure.skipRetry then false
    else if retryTimes ≤ 0 then false
    else failure.retryCode

/-- One pass of the loop: the channels at its selection, and how its attempt ends. -/
structure Pass where
  available : Availability
  outcome : Option Failure

def relay (retryTimes groups : ℕ) : List Pass → RetryParam → List Attempt
  | [], _ => []
  | pass :: passes, param =>
    if param.retry ≤ retryTimes then
      match cacheGetRandomSatisfiedChannel retryTimes groups pass.available param with
      | (none, _) => []
      | (some attempt, param') => attempt ::
        if shouldRetry pass.outcome (retryTimes - param'.retry) then
          relay retryTimes groups passes (increaseRetry param')
        else []
    else []

/-- The first attempt takes the channel of the distributor: one that it has selected, or the one
that channel affinity prefers, for which no group index is kept. -/
inductive Preselection where
  | selected (available : Availability)
  | preferred (group : ℕ)

def preselect (retryTimes groups : ℕ) : Preselection → Option (Attempt × Option ℕ)
  | .selected available =>
    match cacheGetRandomSatisfiedChannel retryTimes groups available ⟨0, false, none⟩ with
    | (none, _) => none
    | (some attempt, param) => some (attempt, param.autoGroupIndex)
  | .preferred group =>
    if group < groups then some (⟨group, 0, fun _ _ => true⟩, none) else none

/-- The attempts of a request; `outcome` is how the first one ends. -/
def attempts (retryTimes groups : ℕ) (first : Preselection) (outcome : Option Failure)
    (passes : List Pass) : List Attempt :=
  match preselect retryTimes groups first with
  | none => []
  | some (attempt, index) => attempt :: if shouldRetry outcome retryTimes then
      relay retryTimes groups passes (increaseRetry ⟨0, false, index⟩)
    else []

/-- A later group follows only where the group before has used its retries or has no channel,
and so have the groups between them. -/
structure Follows (retryTimes : ℕ) (a b : Attempt) : Prop where
  ordered : a.group ≤ b.group
  left : a.group < b.group →
    a.priorityRetry ≥ retryTimes ∨ b.available a.group (a.priorityRetry + 1) = false
  between : ∀ i, a.group < i → i < b.group → b.available i 0 = false

section Loop

variable {retryTimes groups : ℕ} {available : Availability} {param param' : RetryParam}
  {attempt : Attempt} {first : Preselection}

structure Selected (retryTimes start len retry : ℕ) (available : Availability) (attempt : Attempt)
    (param : RetryParam) : Prop where
  seen : attempt.available = available
  low : start ≤ attempt.group
  high : attempt.group < start + len
  here : attempt.group = start → attempt.priorityRetry = retry
  later : start < attempt.group → attempt.priorityRetry = 0 ∧ available start retry = false ∧
    ∀ i, start < i → i < attempt.group → available i 0 = false
  next : increaseRetry param = if attempt.priorityRetry ≥ retryTimes
    then ⟨0, false, some (attempt.group + 1)⟩
    else ⟨attempt.priorityRetry + 1, false, some attempt.group⟩

theorem selected_of_selectFrom {start len : ℕ} (hreset : param.resetNextTry = false)
    (h : selectFrom retryTimes available (range' start len) param.retry param =
      (some attempt, param')) :
    Selected retryTimes start len param.retry available attempt param' := by
  induction len generalizing start param with
  | zero => cases h
  | succ len ih =>
    rw [range'_succ, selectFrom] at h
    split_ifs at h with hfound hlast
    · cases h
      exact ⟨rfl, le_rfl, by simp, fun _ => rfl, fun hlt => absurd hlt (lt_irrefl _),
        by simp [increaseRetry, hlast]⟩
    · cases h
      exact ⟨rfl, le_rfl, by simp, fun _ => rfl, fun hlt => absurd hlt (lt_irrefl _),
        by simp [increaseRetry, hlast, hreset]⟩
    · have hrest := @ih { param with retry := 0, autoGroupIndex := some (start + 1) } (start + 1)
        hreset h
      have hlow := hrest.low
      refine ⟨hrest.seen, by omega, by have := hrest.high; omega, by omega, fun _ => ?_, hrest.next⟩
      have hfound : available start param.retry = false := by simpa using hfound
      rcases Nat.lt_or_ge (start + 1) attempt.group with hlt | hge
      · obtain ⟨hzero, hnext, hbetween⟩ := hrest.later hlt
        refine ⟨hzero, hfound, fun i hi hlast => ?_⟩
        rcases Nat.lt_or_ge (start + 1) i with hlater | hsame
        · exact hbetween i hlater hlast
        · rwa [show i = start + 1 by omega]
      · exact ⟨hrest.here (by omega), hfound, fun i hi hlast => by omega⟩

/-- Where the loop stands behind an attempt in a group at a retry. -/
structure Behind (retryTimes groups group retry : ℕ) (param : RetryParam) : Prop where
  inside : group < groups
  reset : param.resetNextTry = false
  used : retry ≥ retryTimes → param.retry > retryTimes ∨
    startGroupIndex param = group + 1 ∧ param.retry = 0
  left : retry < retryTimes → startGroupIndex param = group ∧ param.retry = retry + 1

def budget (retryTimes groups group retry : ℕ) : ℕ :=
  (retryTimes - retry) + (groups - group - 1) * (retryTimes + 1)

theorem budget_later {group group' retry : ℕ} (hlt : group < group') (hin : group' < groups) :
    budget retryTimes groups group' 0 + 1 ≤ budget retryTimes groups group retry := by
  have hsplit : groups - group' = groups - group' - 1 + 1 := by omega
  have hle : (groups - group') * (retryTimes + 1) ≤ (groups - group - 1) * (retryTimes + 1) :=
    Nat.mul_le_mul_right _ (by omega)
  rw [hsplit, Nat.succ_mul] at hle
  simp only [budget]
  omega

/-- What is left of the loop behind an attempt keeps to the budget and to the order. -/
theorem relay_behind (passes : List Pass) {a : Attempt}
    (h : Behind retryTimes groups a.group a.priorityRetry param) :
    (relay retryTimes groups passes param).length ≤
        budget retryTimes groups a.group a.priorityRetry ∧
      List.IsChain (Follows retryTimes) (a :: relay retryTimes groups passes param) := by
  induction passes generalizing param a with
  | nil => exact ⟨Nat.zero_le _, .singleton a⟩
  | cons pass passes ih =>
    rw [relay]
    split_ifs with hretry
    · match hselect : cacheGetRandomSatisfiedChannel retryTimes groups pass.available param with
      | (none, _) => exact ⟨Nat.zero_le _, .singleton a⟩
      | (some b, param') =>
        have hb := selected_of_selectFrom h.reset hselect
        have hhigh := hb.high
        have hlow := hb.low
        have hin : b.group < groups := by omega
        have hnext : Behind retryTimes groups b.group b.priorityRetry (increaseRetry param') := by
          rw [hb.next]
          refine ⟨hin, ?_, fun hused => ?_, fun hleft => ?_⟩
          · split_ifs <;> rfl
          · exact .inr (by simp [hused, startGroupIndex])
          · simp [Nat.not_le.mpr hleft, startGroupIndex]
        -- the next attempt is in the same group at the next retry, or in a later group
        have hstep : budget retryTimes groups b.group b.priorityRetry + 1 ≤
            budget retryTimes groups a.group a.priorityRetry ∧ Follows retryTimes a b := by
          rcases Nat.lt_or_ge a.priorityRetry retryTimes with hleft | hused
          · obtain ⟨hstart, hcount⟩ := h.left hleft
            rcases Nat.lt_or_ge a.group b.group with hlt | hge
            · obtain ⟨hzero, hnone, hbetween⟩ := hb.later (by omega)
              rw [hstart, hcount] at hnone
              rw [hzero]
              exact ⟨budget_later hlt hin, hlt.le, fun _ => .inr (by rwa [hb.seen]),
                fun i hi hlast => by rw [hb.seen]; exact hbetween i (by omega) hlast⟩
            · have hsame : b.group = a.group := by omega
              have hpriority := hb.here (by omega)
              rw [hcount] at hpriority
              rw [hsame, hpriority, budget, budget]
              exact ⟨by omega, by omega, fun hlt => by omega, fun i hi hlast => by omega⟩
          · obtain ⟨hstart, hcount⟩ := (h.used hused).resolve_left (by omega)
            have hlt : a.group < b.group := by omega
            have hfirst : b.priorityRetry = 0 ∧ ∀ i, a.group < i → i < b.group →
                pass.available i 0 = false := by
              rcases Nat.lt_or_ge (a.group + 1) b.group with hlater | hsame
              · obtain ⟨hzero, hnone, hbetween⟩ := hb.later (by omega)
                rw [hstart, hcount] at hnone
                refine ⟨hzero, fun i hi hlast => ?_⟩
                rcases Nat.lt_or_ge (a.group + 1) i with hi' | hi'
                · exact hbetween i (by omega) hlast
                · rwa [show i = a.group + 1 by omega]
              · exact ⟨(hb.here (by omega)).trans hcount, fun i hi hlast => by omega⟩
            rw [hfirst.1]
            exact ⟨budget_later hlt hin, hlt.le, fun _ => .inl hused,
              fun i hi hlast => by rw [hb.seen]; exact hfirst.2 i hi hlast⟩
        dsimp only
        split_ifs with hagain
        · obtain ⟨hlength, hchain⟩ := ih hnext
          exact ⟨by rw [length_cons]; omega, .cons_cons hstep.2 hchain⟩
        · exact ⟨by rw [length_singleton]; omega, .cons_cons hstep.2 (.singleton b)⟩
    · exact ⟨Nat.zero_le _, .singleton a⟩

theorem budget_le {group : ℕ} (hin : group < groups) :
    budget retryTimes groups group 0 + 1 ≤ (retryTimes + 1) * groups := by
  have hle : (groups - group - 1 + 1) * (retryTimes + 1) ≤ groups * (retryTimes + 1) :=
    Nat.mul_le_mul_right _ (by omega)
  rw [Nat.succ_mul, Nat.mul_comm groups] at hle
  simp only [budget]
  omega

def Preselection.Ordered : Preselection → Prop
  | .selected _ => True
  | .preferred group => group = 0

theorem behind_preselect {index : Option ℕ}
    (h : preselect retryTimes groups first = some (attempt, index)) :
    ∃ group, Behind retryTimes groups group 0 (increaseRetry ⟨0, false, index⟩) ∧
      attempt.priorityRetry = 0 ∧ (first.Ordered → attempt.group = group) := by
  cases first with
  | selected available =>
    rw [preselect] at h
    match hselect : cacheGetRandomSatisfiedChannel retryTimes groups available ⟨0, false, none⟩ with
    | (none, _) => rw [hselect] at h; cases h
    | (some b, param) =>
      rw [hselect] at h
      cases h
      have hb := selected_of_selectFrom rfl hselect
      have hhigh : attempt.group < 0 + (groups - 0) := hb.high
      have hzero : attempt.priorityRetry = 0 := by
        rcases Nat.eq_zero_or_pos attempt.group with hsame | hlater
        · exact hb.here hsame
        · exact (hb.later hlater).1
      have hindex : param.autoGroupIndex = (increaseRetry param).autoGroupIndex := by
        rw [increaseRetry]
        split_ifs <;> rfl
      rw [hb.next, hzero] at hindex
      refine ⟨attempt.group, ⟨by omega, rfl, fun hused => .inl ?_, fun hleft => ?_⟩, hzero,
        fun _ => rfl⟩
      · simp only [increaseRetry, Bool.false_eq_true, if_false]
        omega
      · rw [if_neg (by omega)] at hindex
        simp [increaseRetry, startGroupIndex, hindex]
  | preferred group =>
    rw [preselect] at h
    split_ifs at h with hin
    cases h
    refine ⟨0, ⟨by omega, rfl, fun hused => .inl ?_, fun _ => ⟨rfl, rfl⟩⟩, rfl, id⟩
    simp only [increaseRetry, Bool.false_eq_true, if_false]
    omega

/-- The loop ends within its budget. Unless channel affinity has begun it in a later group, the
groups follow one another, each behind the retries or the lack of channels of the last. -/
theorem retries_bounded_and_ordered (retryTimes groups : ℕ) (first : Preselection)
    (outcome : Option Failure) (passes : List Pass) :
    (attempts retryTimes groups first outcome passes).length ≤ (retryTimes + 1) * groups ∧
      (first.Ordered →
        List.IsChain (Follows retryTimes) (attempts retryTimes groups first outcome passes)) := by
  rw [attempts]
  match hfirst : preselect retryTimes groups first with
  | none => exact ⟨Nat.zero_le _, fun _ => .nil⟩
  | some (attempt, index) =>
    obtain ⟨group, hbehind, hzero, hgroup⟩ := behind_preselect hfirst
    have hbudget := @budget_le retryTimes groups group hbehind.inside
    have hrest := @relay_behind retryTimes groups _ passes ⟨group, 0, attempt.available⟩ hbehind
    have hlength : _ ≤ budget retryTimes groups group 0 := hrest.1
    split_ifs with hagain
    · refine ⟨by rw [length_cons]; omega, fun hordered => ?_⟩
      obtain ⟨g, p, available⟩ := attempt
      cases hzero
      cases hgroup hordered
      exact hrest.2
    · exact ⟨by rw [length_singleton]; omega, fun _ => .singleton attempt⟩

end Loop

/-- Every group has a channel, and every attempt fails with an error that is retried. -/
def failing : Pass := ⟨fun _ _ => true, some ⟨false, false, false, true⟩⟩

theorem two_groups_in_order : List.IsChain (Follows 1)
      (attempts 1 2 (.selected failing.available) failing.outcome [failing, failing, failing]) :=
  (retries_bounded_and_ordered 1 2 (.selected failing.available) failing.outcome
    [failing, failing, failing]).2 trivial

/-- A channel that affinity prefers in the second group is retried from the first one on. -/
theorem preferred_channel_goes_back :
    (attempts 1 2 (.preferred 1) failing.outcome [failing, failing, failing]).map Attempt.group =
        [1, 0, 1, 1] ∧
      ¬ List.IsChain (Follows 1)
        (attempts 1 2 (.preferred 1) failing.outcome [failing, failing, failing]) := by
  refine ⟨by decide, fun h => ?_⟩
  exact absurd (isChain_cons_cons.mp h).1.ordered (by decide)

end ChannelRetries
