import TinyToken.StreamScanner

/-! The lines that `StreamScannerHandler` should hand over, and the streams for which it does. -/
namespace StreamScanner

open EnabledSteps List
open GoText (byteLength hasLead trimSpace)

def EndMarker (line : String) : Prop :=
  line = "[DONE]" ∨ hasLead line "data:" ∧ rest line = "[DONE]"

instance (line : String) : Decidable (EndMarker line) := inferInstanceAs (Decidable (_ ∨ _))

def expected : List String → List String × EndReason
  | [] => ([], .eof)
  | line :: lines =>
    if EndMarker line then ([], .done)
    else if hasLead line "data:" ∧ rest line ≠ "" then
      (rest line :: (expected lines).1, (expected lines).2)
    else expected lines

/-- Up to the first end marker no line begins with a bare marker and no payload begins with one
without being one. -/
def Clean : List String → Prop
  | [] => True
  | line :: lines =>
    hasLead line "[DONE]" = false ∧
    (hasLead line "data:" → hasLead (rest line) "[DONE]" → rest line = "[DONE]") ∧
    (EndMarker line ∨ Clean lines)

instance decidableClean : (lines : List String) → Decidable (Clean lines)
  | [] => isTrue trivial
  | _ :: lines =>
    have : Decidable (Clean lines) := decidableClean lines
    inferInstanceAs (Decidable (_ ∧ _ ∧ _))

def Delivered (lines : List String) (s : State) : Prop :=
  s.handled = (expected lines).1 ∧ s.endReason = some (expected lines).2

instance (lines : List String) (s : State) : Decidable (Delivered lines s) :=
  inferInstanceAs (Decidable (_ ∧ _))

section Lines

variable {line : String}

theorem hasLead_iff {text lead : String} : hasLead text lead = true ↔ lead.toList <+: text.toList :=
  isPrefixOf_iff_prefix

theorem length_le_byteLength (text : String) : text.toList.length ≤ byteLength text := by
  rw [byteLength]
  induction text.toList with
  | nil => exact Nat.le_refl _
  | cons c rest ih =>
    have hpos := Char.utf8Size_pos c
    simp only [map_cons, sum_cons, length_cons]
    omega

theorem rest_of_bare (h : hasLead line "[DONE]" = true) :
    ∃ later, (rest line).toList = ']' :: later := by
  obtain ⟨later, hline⟩ := hasLead_iff.mp h
  have hdrop : line.toList.drop 5 = ']' :: later := by
    rw [← hline]
    rfl
  rw [rest, trimSpace, hdrop, String.toList_ofList, String.toList_ofList, GoText.trimChars,
    dropWhile_cons_of_neg (by decide)]
  obtain ⟨tail, htail⟩ := rdropWhile_prefix GoText.isSpace (l := ']' :: later)
  cases hkept : (']' :: later).rdropWhile GoText.isSpace with
  | nil =>
    have hspace := rdropWhile_eq_nil_iff.mp hkept ']' mem_cons_self
    exact absurd hspace (by decide)
  | cons c kept =>
    rw [hkept] at htail
    exact ⟨kept, by rw [(cons.inj htail).1]⟩

theorem not_data_of_bare (h : hasLead line "[DONE]" = true) : hasLead line "data:" = false := by
  obtain ⟨later, hline⟩ := hasLead_iff.mp h
  rw [hasLead, ← hline]
  rfl

theorem not_marker_of_bare (hbare : hasLead line "[DONE]" = true) :
    hasLead (rest line) "[DONE]" = false := by
  obtain ⟨tail, htail⟩ := rest_of_bare hbare
  rw [hasLead, htail]
  rfl

theorem classify_bare (h : hasLead line "[DONE]" = true) : classify line = .data (rest line) := by
  obtain ⟨tail, htail⟩ := rest_of_bare h
  obtain ⟨later, hline⟩ := hasLead_iff.mp h
  have hlong : ¬ byteLength line < 6 := by
    have hle := length_le_byteLength line
    rw [← hline, length_append] at hle
    have hsix : "[DONE]".toList.length = 6 := rfl
    omega
  have hsome : rest line ≠ "" := by
    intro hempty
    rw [hempty] at htail
    cases htail
  rw [classify, if_neg hlong, if_neg (by simp [h]), if_neg hsome, if_pos (not_marker_of_bare h)]

theorem classify_data (h : hasLead line "data:" = true) (hsome : rest line ≠ "") :
    classify line = if hasLead (rest line) "[DONE]" = false then .data (rest line) else .done := by
  obtain ⟨later, hline⟩ := hasLead_iff.mp h
  have hlong : ¬ byteLength line < 6 := by
    have hle := length_le_byteLength line
    rw [← hline, length_append] at hle
    have hfive : "data:".toList.length = 5 := rfl
    have hne : later ≠ [] := by
      rintro rfl
      apply hsome
      rw [rest, ← hline]
      rfl
    have hpos := length_pos_iff.mpr hne
    omega
  rw [classify, if_neg hlong, if_neg (by simp [h]), if_neg hsome]

theorem classify_skip (hbare : hasLead line "[DONE]" = false)
    (h : ¬ (hasLead line "data:" = true ∧ rest line ≠ "")) : classify line = .skip := by
  rw [classify]
  by_cases hdata : hasLead line "data:" = true
  · have hempty : rest line = "" := by
      by_contra hsome
      exact h ⟨hdata, hsome⟩
    simp [hempty]
  · simp [hdata, hbare]

variable {lines : List String}

theorem outcome_skip (h : classify line = .skip) : outcome (line :: lines) = outcome lines := by
  rw [outcome, h]

theorem outcome_data {data : String} (h : classify line = .data data) :
    outcome (line :: lines) = (data :: (outcome lines).1, (outcome lines).2) := by
  rw [outcome, h]

theorem outcome_done (h : classify line = .done) : outcome (line :: lines) = ([], .done) := by
  rw [outcome, h]

theorem not_marker_of_mem_outcome {data : String}
    (h : data ∈ (outcome lines).1) : hasLead data "[DONE]" = false := by
  induction lines with
  | nil => cases h
  | cons line lines ih =>
    by_cases hbare : hasLead line "[DONE]" = true
    · rw [outcome_data (classify_bare hbare)] at h
      rcases mem_cons.mp h with rfl | hlater
      · exact not_marker_of_bare hbare
      · exact ih hlater
    · rw [Bool.not_eq_true] at hbare
      by_cases hdata : hasLead line "data:" = true ∧ rest line ≠ ""
      · have hverdict := classify_data hdata.1 hdata.2
        by_cases hlead : hasLead (rest line) "[DONE]" = false
        · rw [if_pos hlead] at hverdict
          rw [outcome_data hverdict] at h
          rcases mem_cons.mp h with rfl | hlater
          · exact hlead
          · exact ih hlater
        · rw [if_neg hlead] at hverdict
          rw [outcome_done hverdict] at h
          cases h
      · rw [outcome_skip (classify_skip hbare hdata)] at h
        exact ih h

theorem length_expected_le (h : ∀ data ∈ (expected lines).1, hasLead data "[DONE]" = false) :
    (expected lines).1.length ≤ (outcome lines).1.length := by
  induction lines with
  | nil => exact Nat.le_refl _
  | cons line lines ih =>
    rw [expected] at h ⊢
    by_cases hmarker : EndMarker line
    · rw [if_pos hmarker]
      exact Nat.zero_le _
    · rw [if_neg hmarker] at h ⊢
      by_cases hdata : hasLead line "data:" = true ∧ rest line ≠ ""
      · rw [if_pos hdata] at h ⊢
        have hlead : hasLead (rest line) "[DONE]" = false := h _ mem_cons_self
        have hverdict := classify_data hdata.1 hdata.2
        rw [if_pos hlead] at hverdict
        rw [outcome_data hverdict]
        have hrest := ih fun data hmem => h data (mem_cons_of_mem _ hmem)
        simpa using hrest
      · rw [if_neg hdata] at h ⊢
        have hrest := ih h
        by_cases hbare : hasLead line "[DONE]" = true
        · rw [outcome_data (classify_bare hbare)]
          exact hrest.trans (Nat.le_succ _)
        · rw [Bool.not_eq_true] at hbare
          rw [outcome_skip (classify_skip hbare hdata)]
          exact hrest

theorem outcome_bare_ne (hbare : hasLead line "[DONE]" = true) :
    outcome (line :: lines) ≠ expected (line :: lines) := by
  intro heq
  rw [outcome_data (classify_bare hbare), expected] at heq
  by_cases hmarker : EndMarker line
  · rw [if_pos hmarker] at heq
    have hnil := congrArg Prod.fst heq
    cases hnil
  · rw [if_neg hmarker, not_data_of_bare hbare, if_neg (by simp)] at heq
    have hsame : rest line :: (outcome lines).1 = (expected lines).1 := congrArg Prod.fst heq
    have hclean : ∀ data ∈ (expected lines).1, hasLead data "[DONE]" = false := by
      rw [← hsame]
      intro data hmem
      rcases mem_cons.mp hmem with rfl | hlater
      · exact not_marker_of_bare hbare
      · exact not_marker_of_mem_outcome hlater
    have hle := length_expected_le hclean
    rw [← hsame, length_cons] at hle
    omega

theorem endMarker_iff (hbare : hasLead line "[DONE]" = false) :
    EndMarker line ↔ hasLead line "data:" = true ∧ rest line = "[DONE]" := by
  rw [EndMarker]
  apply or_iff_right
  rintro rfl
  cases hbare

end Lines

theorem outcome_eq_expected_iff (lines : List String) : outcome lines = expected lines ↔ Clean lines := by
  induction lines with
  | nil => simp [outcome, expected, Clean]
  | cons line lines ih =>
    by_cases hbare : hasLead line "[DONE]" = true
    · exact iff_of_false (outcome_bare_ne hbare) fun h => by simp [Clean, hbare] at h
    · rw [Bool.not_eq_true] at hbare
      have hmarker := endMarker_iff hbare
      by_cases hdata : hasLead line "data:" = true ∧ rest line ≠ ""
      · have hverdict := classify_data hdata.1 hdata.2
        by_cases hdone : rest line = "[DONE]"
        · -- the end marker
          have hend : EndMarker line := hmarker.mpr ⟨hdata.1, hdone⟩
          have hlead : ¬ hasLead (rest line) "[DONE]" = false := by
            rw [hdone]
            decide
          rw [if_neg hlead] at hverdict
          rw [outcome_done hverdict, expected, if_pos hend]
          exact iff_of_true rfl ⟨hbare, fun _ _ => hdone, .inl hend⟩
        · have hnot : ¬ EndMarker line := fun hend => hdone (hmarker.mp hend).2
          rw [expected, if_neg hnot, if_pos hdata]
          by_cases hlead : hasLead (rest line) "[DONE]" = false
          · rw [if_pos hlead] at hverdict
            rw [outcome_data hverdict]
            simp only [Prod.mk.injEq, List.cons.injEq, true_and, Clean, hbare, hlead, hnot, false_or,
              Bool.false_eq_true, false_imp_iff, imp_true_iff]
            rw [← ih]
            exact Prod.ext_iff.symm
          · -- a longer payload that begins with a marker ends the stream
            rw [if_neg hlead] at hverdict
            rw [outcome_done hverdict]
            refine iff_of_false (fun heq => ?_) fun h => ?_
            · have hnil := congrArg Prod.fst heq
              cases hnil
            · exact hdone (h.2.1 hdata.1 (by simpa using hlead))
      · have hnot : ¬ EndMarker line := by
          rw [hmarker]
          rintro ⟨hlead, hdone⟩
          exact hdata ⟨hlead, by rw [hdone]; decide⟩
        rw [outcome_skip (classify_skip hbare hdata), expected, if_neg hnot, if_neg hdata, ih, Clean]
        refine ⟨fun h => ⟨hbare, fun hlead hdone => ?_, .inr h⟩, fun h => h.2.2.resolve_left hnot⟩
        have hempty : rest line = "" := by
          by_contra hsome
          exact hdata ⟨hlead, hsome⟩
        rw [hempty] at hdone
        cases hdone

/-- Every schedule comes to an end, and there the handler has had the payloads before the first end
marker and the end reason is right, for clean lines and no others. -/
theorem scanner_delivers_iff (pingEnabled : Bool) (lines : List String) :
    Inevitable step State.Finished (start pingEnabled lines) ∧
      ∀ s, Reachable step (start pingEnabled lines) s → s.Finished →
        (Delivered lines s ↔ Clean lines) := by
  refine ⟨inevitable_of_work State.work sound_step can_move work_step _ (sound_start _ _), ?_⟩
  intro s hreach hfinished
  obtain ⟨hhandled, hreason⟩ := finished_outcome hreach hfinished
  rw [← outcome_eq_expected_iff, Delivered, hhandled, hreason, Option.some_inj, Prod.ext_iff]

def bracketHandled : State where
  lines := []
  scanner := .exited
  dataChan := []
  closed := true
  handled := ["]"]
  handler := .exited
  caller := .waiting
  pinging := false
  stopChan := 2
  cancelled := false
  endReason := some .eof
  receivedResponseCount := 1

/-- A bare marker is handed over in part and does not end the stream. -/
theorem bare_done_line_handled :
    Reachable step (start false ["[DONE]"]) bracketHandled ∧ bracketHandled.Finished ∧
      ¬ Delivered ["[DONE]"] bracketHandled := by
  refine ⟨?_, by decide, by decide⟩
  exact reachable_of_run
    [.scan, .offer, .scan, .closeData, .handle, .handlerEnd, .scannerSignal, .handlerSignal]
    (by decide +kernel)

end StreamScanner
