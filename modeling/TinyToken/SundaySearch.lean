import Mathlib

/-! The search for sensitive words (`service/str.go`). The text is compared byte by byte, while the
table of shifts is built of the characters of the pattern. -/
namespace SundaySearch

open List

def bytes (s : String) : List UInt8 := s.toList.flatMap String.utf8EncodeChar

/-- The entry of `offset` for a rune, from the characters at a byte index on; the last one counts. -/
def offset (length : ℕ) (rune : ℕ) : ℕ → List Char → Option ℕ
  | _, [] => none
  | i, c :: chars =>
    (offset length rune (i + c.utf8Size) chars).or
      (if c.toNat = rune then some (length - i) else none)

/-- The inner loop; `none` is an index out of range. -/
def matched : List UInt8 → List UInt8 → Option Bool
  | _, [] => some true
  | [], _ :: _ => none
  | b :: text, p :: pattern => if b = p then matched text pattern else some false

/-- The loop from an alignment on; `none` also when it does not end within the fuel. -/
def search (text pattern : List UInt8) (offset : ℕ → Option ℕ) : ℕ → ℕ → Option Bool
  | 0, _ => none
  | fuel + 1, i =>
    if i + pattern.length ≤ text.length then
      (matched (text.drop i) pattern).bind fun found =>
        if found then some true
        else if i + pattern.length < text.length then
          text[i + pattern.length]?.bind fun next =>
            search text pattern offset fuel
              (i + (offset next.toNat).getD (pattern.length + 1))
        else some false
    else some false

def sundaySearch (text pattern : String) : Option Bool :=
  search (bytes text) (bytes pattern)
    (fun rune => offset (bytes pattern).length rune 0 pattern.toList) ((bytes text).length + 1) 0

variable {text pattern : List UInt8} {i : ℕ} {b : UInt8} {chars : List Char}

theorem matched_eq (h : pattern.length ≤ text.length) :
    matched text pattern = some (decide (pattern <+: text)) := by
  induction pattern generalizing text with
  | nil => simp [matched]
  | cons p pattern ih =>
    cases text with
    | nil => simp at h
    | cons b text =>
      rw [matched, ih (Nat.le_of_succ_le_succ h)]
      by_cases hb : b = p
      · simp [hb, cons_prefix_cons]
      · simp [hb, cons_prefix_cons, Ne.symm hb]

theorem shift_pos {length rune : ℕ} (n : ℕ) (h : i + (chars.map Char.utf8Size).sum ≤ length) :
    0 < (offset length rune i chars).getD (n + 1) := by
  induction chars generalizing i with
  | nil => exact Nat.succ_pos n
  | cons c chars ih =>
    have hsize := c.utf8Size_pos
    rw [map_cons, sum_cons] at h
    have hlater := ih (i := i + c.utf8Size) (by omega)
    rw [offset]
    cases hd : offset length rune (i + c.utf8Size) chars with
    | some d => rwa [hd] at hlater
    | none =>
      split
      · exact Nat.sub_pos_of_lt (by omega)
      · exact Nat.succ_pos n

theorem search_sound {offset : ℕ → Option ℕ}
    (hshift : ∀ rune, 0 < (offset rune).getD (pattern.length + 1)) {fuel : ℕ}
    (hfuel : text.length < i + fuel) (hpos : 0 < fuel) :
    ∃ found, search text pattern offset fuel i = some found ∧ (found → pattern <:+: text) := by
  induction fuel generalizing i with
  | zero => cases hpos
  | succ fuel ih =>
    rw [search]
    split
    next hfits =>
      rw [matched_eq (by rw [length_drop]; omega), Option.bind_some]
      by_cases hfound : pattern <+: text.drop i
      · exact ⟨true, by simp [hfound], fun _ => hfound.isInfix.trans (drop_suffix i text).isInfix⟩
      · simp only [hfound, decide_false, Bool.false_eq_true, if_false]
        split
        next hmore =>
          rw [getElem?_eq_getElem hmore, Option.bind_some]
          have hnext := hshift (text[i + pattern.length]).toNat
          exact ih (by omega) (by omega)
        next => exact ⟨false, rfl, nofun⟩
    next => exact ⟨false, rfl, nofun⟩

/-- For any text and pattern the search ends within the text and finds only what is there. -/
theorem sundaySearch_sound (text pattern : String) : ∃ found,
    sundaySearch text pattern = some found ∧ (found → bytes pattern <:+: bytes text) := by
  refine search_sound (fun rune => shift_pos _ ?_) (by omega) (by omega)
  simp [bytes, length_flatMap]

end SundaySearch
