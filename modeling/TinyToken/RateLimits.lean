import Mathlib

/-! The rate limits: the token bucket of the Redis script (`common/limiter/lua/rate_limit.lua`) and
the queues kept in memory (`common/rate-limit.go`). Times are whole seconds. -/
namespace RateLimits

open List

structure Bucket where
  tokens : ℤ
  lastTime : ℤ

section TokenBucket

variable (requested rate capacity now : ℤ) (bucket : Option Bucket)

def refilled : ℤ :=
  match bucket with
  | some b => min capacity (b.tokens + (now - b.lastTime) * rate)
  | none => capacity

/-- The script, for the hash of one key; the numbers are exact. -/
def rateLimit : Bool × Bucket :=
  let tokens := refilled rate capacity now bucket
  if requested ≤ tokens then (true, ⟨tokens - requested, now⟩) else (false, ⟨tokens, now⟩)

/-- What calls in the order of time leave of the hash. -/
inductive Reached : Option Bucket → Prop
  | fresh : Reached none
  | call {now : ℤ} {bucket : Option Bucket} : Reached bucket → (∀ b ∈ bucket, b.lastTime ≤ now) →
      Reached (some (rateLimit requested rate capacity now bucket).2)

def admitted (bucket : Option Bucket) : List ℤ → ℤ
  | [] => 0
  | now :: times =>
    let call := rateLimit requested rate capacity now bucket
    (if call.1 then 1 else 0) + admitted (some call.2) times

/-- What `redisRateLimitHandler` asks for. -/
def userAdmitted (totalMaxCount duration : ℤ) : Option Bucket → List ℤ → ℤ :=
  admitted duration totalMaxCount (totalMaxCount * duration)

def Bucket.Filled (b : Bucket) : Prop := 0 ≤ b.tokens ∧ b.tokens ≤ capacity

variable {requested rate capacity now bucket} {s t : ℤ} {times : List ℤ}
  (hrequested : 0 ≤ requested) (hrate : 0 ≤ rate) (hcapacity : 0 ≤ capacity)
include hrate hcapacity

theorem refilled_filled (hfilled : ∀ b ∈ bucket, b.Filled capacity)
    (hnow : ∀ b ∈ bucket, b.lastTime ≤ now) :
    Bucket.Filled capacity ⟨refilled rate capacity now bucket, now⟩ := by
  cases bucket with
  | none => exact ⟨hcapacity, le_rfl⟩
  | some b =>
    have hadded := mul_nonneg (sub_nonneg.mpr (hnow b rfl)) hrate
    exact ⟨le_min hcapacity (add_nonneg (hfilled b rfl).1 hadded), min_le_left _ _⟩

include hrequested

theorem rateLimit_spec (hfilled : ∀ b ∈ bucket, b.Filled capacity)
    (hnow : ∀ b ∈ bucket, b.lastTime ≤ now) :
    let call := rateLimit requested rate capacity now bucket
    call.2.Filled capacity ∧ call.2.lastTime = now ∧ requested * (if call.1 then 1 else 0) +
      call.2.tokens = refilled rate capacity now bucket := by
  have hrefilled := refilled_filled hrate hcapacity hfilled hnow
  unfold rateLimit
  dsimp only
  split
  next henough =>
    refine ⟨⟨sub_nonneg.mpr henough, ?_⟩, rfl, by simp⟩
    exact (sub_le_self _ hrequested).trans hrefilled.2
  next => exact ⟨hrefilled, rfl, by simp⟩

theorem Reached.filled (h : Reached requested rate capacity bucket) :
    ∀ b ∈ bucket, b.Filled capacity := by
  induction h with
  | fresh => nofun
  | call _ hnow ih =>
    rintro _ ⟨⟩
    exact (rateLimit_spec hrequested hrate hcapacity ih hnow).1

theorem admitted_le_refilled (hfilled : ∀ b ∈ bucket, b.Filled capacity)
    (hnow : ∀ b ∈ bucket, b.lastTime ≤ now) (hsorted : (now :: times).Pairwise (· ≤ ·))
    (ht : ∀ x ∈ now :: times, x ≤ t) :
    requested * admitted requested rate capacity bucket (now :: times) ≤
      refilled rate capacity now bucket + rate * (t - now) := by
  induction times generalizing bucket now with
  | nil =>
    obtain ⟨hcall, -, hcharge⟩ := rateLimit_spec hrequested hrate hcapacity hfilled hnow
    have hlater := mul_nonneg hrate (sub_nonneg.mpr (ht _ mem_cons_self))
    simp only [admitted]
    linarith [hcall.1]
  | cons next times ih =>
    obtain ⟨hcall, hlast, hcharge⟩ := rateLimit_spec hrequested hrate hcapacity hfilled hnow
    obtain ⟨hfirst, hrest⟩ := pairwise_cons.mp hsorted
    rw [admitted]
    generalize rateLimit requested rate capacity now bucket = call at hcall hlast hcharge ⊢
    have hlater := @ih next (some call.2) (by rintro _ ⟨⟩; exact hcall)
      (by rintro _ ⟨⟩; exact hlast ▸ hfirst next mem_cons_self) hrest
      fun x hx => ht x (mem_cons_of_mem _ hx)
    have hmin : refilled rate capacity next (some call.2) ≤ _ := min_le_right _ _
    rw [hlast] at hmin
    linarith

omit hrequested hrate hcapacity

/-- After any calls, in any interval. -/
theorem bucket_admits (requested rate capacity : ℤ) (hrequested : 0 ≤ requested) (hrate : 0 ≤ rate)
    (hcapacity : 0 ≤ capacity) {bucket : Option Bucket} (h : Reached requested rate capacity bucket)
    {s t : ℤ} (hst : s ≤ t) {times : List ℤ} (hsorted : times.Pairwise (· ≤ ·))
    (hafter : ∀ b ∈ bucket, ∀ x ∈ times, b.lastTime ≤ x) (hwithin : ∀ x ∈ times, s ≤ x ∧ x ≤ t) :
    (∀ b ∈ bucket, 0 ≤ b.tokens ∧ b.tokens ≤ capacity) ∧
    requested * admitted requested rate capacity bucket times ≤ capacity + rate * (t - s) ∧
    ∀ totalMaxCount duration : ℤ, 0 < duration → requested = duration → rate = totalMaxCount →
      capacity = totalMaxCount * duration →
      userAdmitted totalMaxCount duration bucket times ≤
        totalMaxCount + totalMaxCount * (t - s) / duration := by
  have hfilled := h.filled hrequested hrate hcapacity
  have hle : requested * admitted requested rate capacity bucket times ≤
      capacity + rate * (t - s) := by
    cases times with
    | nil => simpa [admitted] using add_nonneg hcapacity (mul_nonneg hrate (sub_nonneg.mpr hst))
    | cons now times =>
      have hnow := fun b hb => hafter b hb now mem_cons_self
      have hle := admitted_le_refilled hrequested hrate hcapacity hfilled hnow hsorted
        fun x hx => (hwithin x hx).2
      have hlater := sub_le_sub_left (hwithin now mem_cons_self).1 t
      exact hle.trans (add_le_add (refilled_filled hrate hcapacity hfilled hnow).2
        (mul_le_mul_of_nonneg_left hlater hrate))
  refine ⟨hfilled, hle, ?_⟩
  rintro totalMaxCount duration hduration rfl rfl rfl
  rw [add_comm, ← Int.add_mul_ediv_right _ _ hduration.ne']
  apply Int.le_ediv_of_mul_le hduration
  unfold userAdmitted
  linarith

theorem two_calls_admitted : userAdmitted 1 10 none [0, 5] ≤ 1 + 1 * (5 - 0) / 10 :=
  (bucket_admits 10 1 10 (by simp) (by simp) (by simp) .fresh (by simp) (by simp) nofun
    (by simp)).2.2 1 10 (by simp) rfl rfl rfl

/-- Calls that leave each other the time to refill are all admitted, after any calls. -/
theorem spaced_calls_admitted (requested rate capacity : ℤ) (hrequested : 0 ≤ requested)
    (hrate : 0 ≤ rate) (hcapacity : requested ≤ capacity) {bucket : Option Bucket}
    (h : Reached requested rate capacity bucket) {times : List ℤ}
    (hspaced : (bucket.toList.map Bucket.lastTime ++ times).IsChain fun s t =>
      s ≤ t ∧ requested ≤ (t - s) * rate) :
    admitted requested rate capacity bucket times = times.length := by
  induction times generalizing bucket with
  | nil => rfl
  | cons now times ih =>
    have hnow : ∀ b ∈ bucket, b.lastTime ≤ now ∧ requested ≤ (now - b.lastTime) * rate := by
      rintro b ⟨⟩
      exact (isChain_cons_cons.mp hspaced).1
    have henough : requested ≤ refilled rate capacity now bucket := by
      have hfilled := h.filled hrequested hrate (hrequested.trans hcapacity)
      cases bucket with
      | none => exact hcapacity
      | some b => exact le_min hcapacity (by linarith [(hfilled b rfl).1, (hnow b rfl).2])
    have hlater : ([now] ++ times).IsChain _ := hspaced.suffix (suffix_append _ _)
    have hnext := h.call fun b hb => (hnow b hb).1
    simp only [rateLimit, if_pos henough] at hnext
    simp only [admitted, rateLimit, if_pos henough, ih hnext hlater]
    simp [add_comm]

theorem three_calls_admitted : admitted 10 1 10 none [0, 10, 25] = 3 :=
  spaced_calls_admitted 10 1 10 (by simp) (by simp) (by simp) .fresh (by simp)

end TokenBucket

end RateLimits
