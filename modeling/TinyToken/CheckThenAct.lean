import Mathlib

/-! A balance that clients draw on after a check against a value they read before. The value
may lie above the balance by a slack, and then the clients together can overdraw by as much
and no more. -/
namespace CheckThenAct

open Function Finset

/-- The balance, what others have credited since the start, and what each client has drawn. -/
structure Till (ι : Type) where
  balance : ℤ
  credited : ℤ
  drawn : ι → ℤ

variable {ι : Type} [DecidableEq ι]

namespace Till

/-- A draw within the balance and the slack, a return of something drawn, or a change by
others that does not raise the balance above what they credit. -/
inductive Move (slack : ℤ) (t : Till ι) : Till ι → Prop
  | draw (i : ι) (amount : ℤ) : 0 ≤ amount → amount ≤ t.balance + slack → Move slack t { t with
        balance := t.balance - amount
        drawn := update t.drawn i (t.drawn i + amount) }
  | giveBack (i : ι) (amount : ℤ) : 0 ≤ amount → amount ≤ t.drawn i → Move slack t { t with
        balance := t.balance + amount
        drawn := update t.drawn i (t.drawn i - amount) }
  | others (balance credit : ℤ) : 0 ≤ credit → balance ≤ t.balance + credit →
      Move slack t { t with balance := balance, credited := t.credited + credit }

/-- What any set of clients has drawn is missing from the balance and within the limit. -/
structure Bounded (initial slack : ℤ) (t : Till ι) : Prop where
  nonneg : ∀ i, 0 ≤ t.drawn i
  missing : ∀ S : Finset ι, ∑ i ∈ S, t.drawn i ≤ initial + t.credited - t.balance
  limit : ∀ S : Finset ι, ∑ i ∈ S, t.drawn i ≤ max 0 (initial + t.credited + slack)

omit [DecidableEq ι] in
theorem bounded_start (initial slack : ℤ) :
    Bounded initial slack (⟨initial, 0, fun _ => 0⟩ : Till ι) where
  nonneg := fun _ => le_rfl
  missing := by
    intro S
    simp
  limit := by
    intro S
    simp

section Sums

variable (f : ι → ℤ) (i : ι) (x : ℤ) (S : Finset ι)

theorem sum_update_mem (hi : i ∈ S) :
    ∑ j ∈ S, update f i (f i + x) j = ∑ j ∈ S, f j + x := by
  rw [sum_update_of_mem hi, ← sum_sdiff (singleton_subset_iff.mpr hi),
    sum_singleton]
  omega

theorem sum_update_not_mem (hi : i ∉ S) : ∑ j ∈ S, update f i (f i + x) j = ∑ j ∈ S, f j :=
  sum_update_of_notMem hi f (f i + x)

end Sums

variable {initial slack : ℤ} {t t' : Till ι}

theorem Bounded.draw (h : Bounded initial slack t) (i : ι) {amount : ℤ} (hpos : 0 ≤ amount)
    (hle : amount ≤ t.balance + slack) :
    Bounded initial slack { t with
      balance := t.balance - amount
      drawn := update t.drawn i (t.drawn i + amount) } := by
  have hmissing : ∀ S : Finset ι, ∑ j ∈ S, update t.drawn i (t.drawn i + amount) j ≤
      initial + t.credited - (t.balance - amount) := by
    intro S
    have hS := h.missing S
    by_cases hi : i ∈ S
    · rw [sum_update_mem t.drawn i amount S hi]
      linarith
    · rw [sum_update_not_mem t.drawn i amount S hi]
      linarith
  refine ⟨?_, hmissing, ?_⟩
  · intro j
    have hj := h.nonneg j
    by_cases hji : j = i
    · subst hji
      simp only [update_self]
      linarith
    · simpa [update_of_ne hji] using hj
  · intro S
    have hS := hmissing S
    apply le_max_of_le_right
    linarith

theorem Bounded.giveBack (h : Bounded initial slack t) (i : ι) {amount : ℤ} (hpos : 0 ≤ amount)
    (hle : amount ≤ t.drawn i) :
    Bounded initial slack { t with
      balance := t.balance + amount
      drawn := update t.drawn i (t.drawn i - amount) } := by
  refine ⟨?_, ?_, ?_⟩
  · intro j
    have hj := h.nonneg j
    by_cases hji : j = i
    · subst hji
      simp only [update_self]
      linarith
    · simpa [update_of_ne hji] using hj
  · intro S
    by_cases hi : i ∈ S
    · have hS := h.missing S
      rw [sub_eq_add_neg (t.drawn i) amount, sum_update_mem t.drawn i (-amount) S hi]
      linarith
    · -- the client that gives back counts among those who have drawn
      have hS := h.missing (insert i S)
      rw [sum_insert hi] at hS
      rw [sub_eq_add_neg (t.drawn i) amount, sum_update_not_mem t.drawn i (-amount) S hi]
      linarith
  · intro S
    have hS := h.limit S
    by_cases hi : i ∈ S
    · rw [sub_eq_add_neg (t.drawn i) amount, sum_update_mem t.drawn i (-amount) S hi]
      linarith
    · rw [sub_eq_add_neg (t.drawn i) amount, sum_update_not_mem t.drawn i (-amount) S hi]
      exact hS

omit [DecidableEq ι] in
theorem Bounded.others (h : Bounded initial slack t) {balance credit : ℤ} (hpos : 0 ≤ credit)
    (hle : balance ≤ t.balance + credit) :
    Bounded initial slack
      { t with balance := balance, credited := t.credited + credit } := by
  refine ⟨h.nonneg, ?_, ?_⟩
  · intro S
    have hS := h.missing S
    linarith
  · intro S
    have hS := h.limit S
    apply hS.trans
    apply max_le_max (le_rfl)
    linarith

theorem Bounded.move (h : Bounded initial slack t) (hm : Move slack t t') :
    Bounded initial slack t' := by
  cases hm with
  | draw i amount hpos hle => exact h.draw i hpos hle
  | giveBack i amount hpos hle => exact h.giveBack i hpos hle
  | others balance credit hpos hle => exact h.others hpos hle

end Till

end CheckThenAct
