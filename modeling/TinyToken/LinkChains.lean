import Mathlib

/-! Chains of links: every element has at most one successor. Following the links from an
element either comes to an element without a further successor, or runs into a cycle. The walk
that remembers what it has visited decides which, if only finitely many elements have one. -/
namespace LinkChains

open Option

variable {α : Type*} (next : α → Option α)

def Link (x y : α) : Prop := next x = some y

def Reaches : α → α → Prop := Relation.ReflTransGen (Link next)

/-- The chain from `x` ends at `y`: nothing follows `y`, or only `y` itself. -/
def EndsAt (x y : α) : Prop := Reaches next x y ∧ (next y = none ∨ next y = some y)

/-- The chain from `x` comes to an element that is followed by another one and comes back. -/
def RunsIntoCycle (x : α) : Prop :=
  ∃ y z, Reaches next x y ∧ next y = some z ∧ z ≠ y ∧ Reaches next z y

variable {next}

theorem reaches_of_end {x y : α} (hend : next x = none ∨ next x = some x)
    (h : Reaches next x y) : y = x := by
  induction h with
  | refl => rfl
  | tail _ hlink ih =>
    subst ih
    rcases hend with hend | hend
    · rw [Link, hend] at hlink
      cases hlink
    · rw [Link, hend] at hlink
      exact (some.inj hlink).symm

theorem link_rightUnique : Relator.RightUnique (Link next) := by
  intro x y z hy hz
  rw [Link, hy] at hz
  exact some.inj hz

/-- What is reached from an element of a cycle reaches it back. -/
theorem reaches_back {y z w : α} (hlink : next y = some z) (hback : Reaches next z y)
    (h : Reaches next y w) : Reaches next w y := by
  induction h with
  | refl => exact .refl
  | tail _ hw ih =>
    rcases Relation.ReflTransGen.cases_head ih with rfl | ⟨v, hv, hrest⟩
    · rw [Link, hlink] at hw
      cases hw
      exact hback
    · rw [Link, hw] at hv
      cases hv
      exact hrest

theorem EndsAt.not_cycle {x y : α} (h : EndsAt next x y) : ¬ RunsIntoCycle next x := by
  rintro ⟨c, z, hc, hlink, hne, hback⟩
  have hcy : c = y := by
    rcases Relation.ReflTransGen.total_of_right_unique link_rightUnique h.1 hc with hyc | hcy
    · exact reaches_of_end h.2 hyc
    · exact reaches_of_end h.2 (reaches_back hlink hback hcy)
  subst hcy
  rcases h.2 with hnone | hself
  · rw [hnone] at hlink
    cases hlink
  · rw [hself] at hlink
    exact hne (some.inj hlink).symm

theorem EndsAt.unique {x y z : α} (hy : EndsAt next x y) (hz : EndsAt next x z) : y = z := by
  rcases Relation.ReflTransGen.total_of_right_unique link_rightUnique hy.1 hz.1 with h | h
  · exact (reaches_of_end hy.2 h).symm
  · exact reaches_of_end hz.2 h

inductive Outcome (α : Type*) where
  /-- the last element, with nothing after it -/
  | ended (last : α)
  /-- an element that is its own successor -/
  | settled (last : α)
  | cycle

variable [DecidableEq α] (next)

/-- Follows the links for a number of steps; none while the walk goes on. -/
def follow : ℕ → α → List α → Option (Outcome α)
  | 0, _, _ => none
  | fuel + 1, x, visited =>
    match next x with
    | none => some (.ended x)
    | some y =>
      if y ∈ visited then if y = x then some (.settled x) else some .cycle
      else follow fuel y (y :: visited)

variable {next}

/-- What an outcome says about the chain from `x`. -/
def Outcome.Holds (next : α → Option α) (x : α) : Outcome α → Prop
  | .ended y => Reaches next x y ∧ next y = none
  | .settled y => Reaches next x y ∧ next y = some y
  | .cycle => RunsIntoCycle next x

theorem follow_holds {start : α} {fuel : ℕ} {x : α} {visited : List α} {outcome : Outcome α}
    (hx : Reaches next start x) (hvisited : ∀ v ∈ visited, Reaches next v x)
    (h : follow next fuel x visited = some outcome) : outcome.Holds next start := by
  induction fuel generalizing x visited with
  | zero => cases h
  | succ fuel ih =>
    unfold follow at h
    split at h
    next hnone =>
      cases h
      exact ⟨hx, hnone⟩
    next y hy =>
      split at h
      next hmem =>
        split at h
        next hself =>
          cases h
          exact ⟨hx, by rw [hy, hself]⟩
        next hne =>
          cases h
          exact ⟨x, y, hx, hy, hne, hvisited y hmem⟩
      · refine ih (hx.tail hy) ?_ h
        intro v hv
        rcases List.mem_cons.mp hv with rfl | hv
        · exact .refl
        · exact (hvisited v hv).tail hy

/-- The walk stops: each step but the last uses up an element that has a successor. -/
theorem follow_stops (elements : List α) (hfinite : ∀ x, next x ≠ none → x ∈ elements)
    {fuel : ℕ} {x : α} {visited : List α}
    (hfuel : (elements.filter (· ∉ visited)).length + 2 ≤ fuel) :
    follow next fuel x visited ≠ none := by
  induction fuel generalizing x visited with
  | zero => omega
  | succ fuel ih =>
    unfold follow
    split
    · simp
    next y hy =>
      split
      · split <;> simp
      next hnew =>
        by_cases hlast : next y = none
        · -- nothing follows `y`, and one more step shows it
          cases fuel with
          | zero => omega
          | succ fuel => simp [follow, hlast]
        · apply ih
          have hmem : y ∈ elements.filter (· ∉ visited) := by
            simpa using ⟨hfinite y hlast, hnew⟩
          have hfilter : elements.filter (· ∉ y :: visited) =
              (elements.filter (· ∉ visited)).filter (· ≠ y) := by
            simp [List.filter_filter, not_or]
          have hless : (elements.filter (· ∉ y :: visited)).length <
              (elements.filter (· ∉ visited)).length := by
            rw [hfilter]
            exact List.length_filter_lt_length_iff_exists.mpr ⟨y, hmem, by simp⟩
          omega

end LinkChains
