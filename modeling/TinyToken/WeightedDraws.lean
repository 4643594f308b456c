import Mathlib

/-! Drawing by subtraction: weights are taken from the number that was drawn until the test of
the loop is met. With `below` as the test each index is met by as many numbers as its weight. -/
namespace WeightedDraws

open List

def pick (stop : ℤ → Bool) : List ℕ → ℤ → Option ℕ
  | [], _ => none
  | w :: ws, r => if stop (r - w) then some 0 else (pick stop ws (r - w)).map (· + 1)

def below (r : ℤ) : Bool := r < 0

def atMost (r : ℤ) : Bool := r ≤ 0

/-- How many of the numbers under `total` come out at an index. -/
def hits (stop : ℤ → Bool) (ws : List ℕ) (total i : ℕ) : ℕ :=
  (range total).countP fun r : ℕ => pick stop ws r = some i

variable {ws : List ℕ} {w i : ℕ} {r : ℤ}

/-- The weaker test goes one number too far. -/
theorem pick_atMost (ws : List ℕ) (r : ℤ) : pick atMost ws r = pick below ws (r - 1) := by
  induction ws generalizing r with
  | nil => rfl
  | cons w ws ih =>
    have hstop : atMost (r - w) = below (r - 1 - w) := by
      simp only [atMost, below, decide_eq_decide]
      omega
    rw [pick, pick, hstop, ih, sub_right_comm]

theorem isSome_pick_below (hne : ws ≠ []) (hr : r < ws.sum) : (pick below ws r).isSome := by
  induction ws generalizing r with
  | nil => exact absurd rfl hne
  | cons w ws ih =>
    rw [pick]
    split_ifs with hstop
    · rfl
    · simp only [below, decide_eq_true_eq, not_lt] at hstop
      rw [sum_cons, Nat.cast_add] at hr
      rw [Option.isSome_map]
      refine ih ?_ (by omega)
      rintro rfl
      simp only [sum_nil, Nat.cast_zero] at hr
      omega

theorem isSome_pick_atMost (hne : ws ≠ []) (hr : r < ws.sum) : (pick atMost ws r).isSome := by
  rw [pick_atMost]
  exact isSome_pick_below hne (by omega)

theorem hits_below (ws : List ℕ) (i : ℕ) : hits below ws ws.sum i = ws.getD i 0 := by
  induction ws generalizing i with
  | nil => rfl
  | cons w ws ih =>
    have hhead : ∀ r ∈ range w, pick below (w :: ws) r = some 0 := by
      intro r hr
      have := mem_range.mp hr
      rw [pick, if_pos]
      simp only [below, decide_eq_true_eq]
      omega
    have htail : ∀ r : ℕ, pick below (w :: ws) (w + r) = (pick below ws r).map (· + 1) := by
      intro r
      rw [pick, add_sub_cancel_left, if_neg]
      simp only [below, decide_eq_true_eq]
      omega
    rw [hits, sum_cons, range_add, countP_append, countP_map]
    cases i with
    | zero =>
      rw [countP_eq_length.mpr fun r hr => by simpa using hhead r hr,
        countP_eq_zero.mpr fun r _ => by simp [htail], length_range]
      rfl
    | succ i =>
      rw [countP_eq_zero.mpr fun r hr => by simp [hhead r hr], Nat.zero_add,
        getD_cons_succ, ← ih, hits]
      exact countP_congr fun r _ => by simp [htail]

/-- The first index takes a number from the one behind it. -/
theorem hits_atMost_head (w : ℕ) (h : 0 < ws.sum) :
    hits atMost (w :: ws) (w :: ws).sum 0 = w + 1 := by
  have hsplit : (w :: ws).sum = (w + 1) + (ws.sum - 1) := by
    rw [sum_cons]
    omega
  have hpick : ∀ r : ℕ, pick atMost (w :: ws) r = some 0 ↔ r ≤ w := by
    intro r
    rw [pick]
    split_ifs with hstop <;> simp only [atMost, decide_eq_true_eq] at hstop <;> simp <;> omega
  rw [hits, hsplit, range_add, countP_append, countP_map,
    countP_eq_length.mpr fun r hr => ?_, countP_eq_zero.mpr fun r _ => ?_,
    length_range, Nat.add_zero]
  · simp only [Function.comp_apply, decide_eq_true_eq, hpick]
    omega
  · have := mem_range.mp hr
    simp only [decide_eq_true_eq, hpick]
    omega

end WeightedDraws
