import TinyToken.SubscriptionAlone

/-! Refunds of one request under store failures. The counter is adjusted in a transaction
of its own inside the one that marks the record, so a failure between the two commits
leaves a refunded counter behind an unmarked record, and the next attempt refunds again.
Without such a late failure the refund happens at most once over any number of calls. -/
namespace SubscriptionRefundRetry

open ProgramSteps ReadCommittedStore Db SubscriptionRows SubscriptionTransactions
  SubscriptionEffects SubscriptionAlone Option

section Statements

variable {t : Tables} {s : SubStore} {tx : TxId}

/-- The first of the eight statements of a refund to fail is the save of the record or the
outer commit: the inner transaction has committed by then. -/
def LateFailure (s : SubStore) : Prop :=
  (∀ i < 6, s.nth i = none) ∧ (s.nth 6 ≠ none ∨ s.nth 7 ≠ none)

instance (s : SubStore) : Decidable (LateFailure s) :=
  inferInstanceAs (Decidable ((∀ i < 6, s.nth i = none) ∧ (s.nth 6 ≠ none ∨ s.nth 7 ≠ none)))

def refunded (t : Tables) (record : SubscriptionPreConsumeRecord) : Tables :=
  marked (if record.preConsumed ≤ 0 then t
    else adjusted t record.userSubscriptionId (-record.preConsumed)) record

inductive RefundOutcome (t : Tables) (record : SubscriptionPreConsumeRecord) (s : SubStore)
    (r : Except String Unit) (u : SubDb) : Prop
  | unchanged : u = idle t → (r = .ok () → record.status = .refunded) → RefundOutcome t record s r u
  | done : r = .ok () → record.status ≠ .refunded → u = idle (refunded t record) →
      RefundOutcome t record s r u
  | late (e : String) : r = .error e → LateFailure s → record.status ≠ .refunded →
      u = idle (adjusted t record.userSubscriptionId (-record.preConsumed)) →
      RefundOutcome t record s r u

theorem wp_saveRecord {t₀ t₁ : Tables} {record : SubscriptionPreConsumeRecord} {s₀ : SubStore}
    (hs : s.state = idle t₁) (hstatus : record.status ≠ .refunded)
    (ht : refunded t₀ record = marked t₁ record)
    (hfail : s.nth 0 ≠ none ∨ s.nth 1 ≠ none → ∀ e, RefundOutcome t₀ record s₀ (.error e) (idle t₁)) :
    wp (faultyHandle engine) (saveRecord tx { record with status := .refunded })
      (AtEnd engine tx fun r u => RefundOutcome t₀ record s₀ r u.state) s := by
  obtain ⟨db, faults⟩ := s
  obtain rfl : db = idle t₁ := hs
  refine wp_fallible rfl ?_ ?_
  · intro e he
    refine wp_pure.mpr (hfail (.inl ?_) e)
    rw [show (Faulty.nth _ 0 : Option String) = some e from he]
    exact some_ne_none e
  · intro h0 r u hr
    cases hr
    refine wp_pure.mpr ⟨?_, ?_⟩
    · intro e he
      change RefundOutcome t₀ record s₀ (.error e) (((idle t₁ : SubDb).add tx _).discard tx)
      rw [discard_add_idle]
      refine hfail (.inr ?_) e
      simp only [Faulty.next, Faulty.after_nth] at he
      rw [he]
      exact some_ne_none e
    · intro _
      refine .done rfl hstatus ?_
      rw [ht]
      exact publish_add_idle t₁ tx _

theorem wp_refund {requestId : String} {inner : TxId} {record : SubscriptionPreConsumeRecord}
    (hs : s.state = idle t) (hrec : t.records.find? requestId = some record) :
    wp (faultyHandle engine) (refundSubscriptionPreConsume tx inner requestId)
      (fun r u => RefundOutcome t record s r u.state) s := by
  obtain ⟨db, faults⟩ := s
  obtain rfl : db = idle t := hs
  have failed : ∀ e : String, RefundOutcome t record ⟨idle t, faults⟩ (.error e) (idle t) :=
    fun e => .unchanged rfl nofun
  unfold refundSubscriptionPreConsume
  split
  · exact wp_pure.mpr (failed _)
  refine wp_transaction (fun e _ => failed e) ?_
  intro h0
  refine wp_fallible rfl ?_ ?_
  · exact fun e _ => wp_pure.mpr (failed e)
  intro h1 r u hr
  cases hr
  generalize hfound : engine.answer (.recordByRequest requestId) _ = found
  obtain rfl : some record = found := hrec.symm.trans hfound
  dsimp only [Prog.bind]
  split
  next hrefunded =>
    refine wp_pure.mpr ⟨fun e _ => failed e, fun _ => ?_⟩
    exact .unchanged rfl fun _ => hrefunded
  rename_i hstatus
  split
  next hpre =>
    refine wp_saveRecord (show _ = idle t from rfl) hstatus ?_ ?_
    · simp [refunded, hpre]
    · exact fun _ e => failed e
  rename_i hpre
  refine wp_bind.mpr (wp_mono (wp_postConsume rfl (by omega)) ?_)
  rintro (e | a) u ⟨herr, hok⟩
  · rw [show u = ⟨idle t, u.faults⟩ by rw [← herr e rfl]]
    exact wp_pure.mpr (failed e)
  · obtain ⟨hpassed, hrest, hstate, -⟩ := hok rfl
    simp only [Faulty.next, Faulty.after_nth] at h0 h1 hpassed hrest
    refine wp_saveRecord hstate hstatus ?_ ?_
    · simp [refunded, hpre]
    intro hlate e
    refine .late e rfl ⟨?_, ?_⟩ hstatus rfl
    · intro i hi
      interval_cases i
      · exact h0
      · exact h1
      · exact hpassed 0 (by omega)
      · exact hpassed 1 (by omega)
      · exact hpassed 2 (by omega)
      · exact hpassed 3 (by omega)
    · rw [hrest, hrest] at hlate
      exact hlate

end Statements

section Calls

variable {tx inner : TxId} {requestId : String}

/-- Every attempt of a `refundWithRetry` is free of a late failure. -/
def RetryInTime (tx inner : TxId) (requestId : String) : ℕ → SubStore → Prop
  | 0, _ => True
  | attempts + 1, s => ¬ LateFailure s ∧ ∀ e u,
      run (faultyHandle engine) (refundSubscriptionPreConsume tx inner requestId) s =
        some (.error e, u) → RetryInTime tx inner requestId attempts u

/-- Refund calls one after the other, alone or by `refundWithRetry`, each without a late
failure. -/
inductive RefundRun (tx inner : TxId) (requestId : String) : SubStore → SubStore → Prop
  | nil (s : SubStore) : RefundRun tx inner requestId s s
  | call {s u v : SubStore} {r : Except String Unit} : RefundRun tx inner requestId s u →
      ¬ LateFailure u →
      run (faultyHandle engine) (refundSubscriptionPreConsume tx inner requestId) u = some (r, v) →
      RefundRun tx inner requestId s v
  | retry {s u v : SubStore} {r : Except String Unit} : RefundRun tx inner requestId s u →
      RetryInTime tx inner requestId maxAttempts u →
      run (faultyHandle engine) (refundWithRetry tx inner requestId (.ok ()) maxAttempts) u =
        some (r, v) →
      RefundRun tx inner requestId s v

/-- The counter has been refunded only if the record says so, and then once. -/
structure Invariant (t : Tables) (record : SubscriptionPreConsumeRecord) (s : SubStore) : Prop where
  quiet : ∃ t', s.state = idle t'
  recorded : ∃ status, s.state.committed.records.find? record.requestId =
      some { record with status := status } ∧
    (status ≠ .refunded → usedOf s.state.committed record.userSubscriptionId =
      usedOf t record.userSubscriptionId)
  once : usedOf s.state.committed record.userSubscriptionId = usedOf t record.userSubscriptionId ∨
    usedOf s.state.committed record.userSubscriptionId =
      (usedOf t record.userSubscriptionId).map fun used => clampUsed used (-record.preConsumed)

variable {record : SubscriptionPreConsumeRecord}

variable {t : Tables} {s u : SubStore}

theorem initial_invariant (hrec : t.records.find? record.requestId = some record)
    (faults : List (Option String)) :
    Invariant t record ⟨idle t, faults⟩ :=
  ⟨⟨t, rfl⟩, ⟨record.status, hrec, fun _ => rfl⟩, .inl rfl⟩

/-- One call without a late failure keeps the invariant, and if it returns an error it
leaves the counter alone. -/
theorem call_preserves_invariant {r : Except String Unit} (hinv : Invariant t record s)
    (hlate : ¬ LateFailure s)
    (h : run (faultyHandle engine) (refundSubscriptionPreConsume tx inner record.requestId) s =
      some (r, u)) :
    Invariant t record u ∧ ∀ e, r = .error e → usedOf u.state.committed record.userSubscriptionId =
        usedOf s.state.committed record.userSubscriptionId := by
  obtain ⟨⟨t', ht'⟩, ⟨status, hfind, hsame⟩, honce⟩ := hinv
  rw [ht'] at hfind hsame honce ⊢
  simp only [idle_committed] at hfind hsame honce ⊢
  cases wp_refund ht' hfind r u h with
  | unchanged hu _ =>
    rw [hu]
    exact ⟨⟨⟨t', hu⟩, ⟨status, by rw [hu]; exact hfind, by rw [hu]; exact hsame⟩,
      by rw [hu]; exact honce⟩, fun _ _ => rfl⟩
  | done hr hstatus hu =>
    have hused := hsame hstatus
    have hnew : usedOf (refunded t' { record with status := status }) record.userSubscriptionId =
        if record.preConsumed ≤ 0 then usedOf t record.userSubscriptionId
        else (usedOf t record.userSubscriptionId).map
          fun used => clampUsed used (-record.preConsumed) := by
      rw [← hused]
      unfold refunded
      split
      · rfl
      · exact usedOf_adjusted t' record.userSubscriptionId (-record.preConsumed)
    refine ⟨⟨⟨_, hu⟩, ⟨.refunded, ?_, absurd rfl⟩, ?_⟩, fun e he => ?_⟩
    · rw [hu]
      exact marked_record _ { record with status := status }
    · rw [hu, idle_committed, hnew]
      split
      · exact .inl rfl
      · exact .inr rfl
    · rw [hr] at he
      cases he
  | late e _ hl => exact absurd hl hlate

theorem retry_preserves_invariant {attempts : ℕ} {last r : Except String Unit}
    (hinv : Invariant t record s) (htime : RetryInTime tx inner record.requestId attempts s)
    (h : run (faultyHandle engine) (refundWithRetry tx inner record.requestId last attempts) s =
      some (r, u)) : Invariant t record u := by
  induction attempts generalizing s last with
  | zero =>
    cases h
    exact hinv
  | succ attempts ih =>
    obtain ⟨hlate, hrest⟩ := htime
    simp only [refundWithRetry, run_bind] at h
    obtain ⟨⟨r', v⟩, hcall, h⟩ := bind_eq_some_iff.mp h
    have hv := (call_preserves_invariant hinv hlate hcall).1
    cases r' with
    | ok a =>
      cases h
      exact hv
    | error e => exact ih hv (hrest e v hcall) h

theorem run_preserves_invariant (hinv : Invariant t record s)
    (hr : RefundRun tx inner record.requestId s u) : Invariant t record u := by
  induction hr with
  | nil => exact hinv
  | call _ hlate h ih => exact (call_preserves_invariant ih hlate h).1
  | retry _ htime h ih => exact retry_preserves_invariant ih htime h

end Calls

/-- Over any refund calls and retries for a stored record, under any store failures but a
late one, the counter is decreased by the amount of the record at most once, and a call
that returns an error leaves it unchanged. -/
theorem refunded_at_most_once_without_late_failure {tx inner : TxId} {t : Tables}
    {record : SubscriptionPreConsumeRecord} {faults : List (Option String)} {s : SubStore}
    (hrec : t.records.find? record.requestId = some record)
    (hr : RefundRun tx inner record.requestId ⟨idle t, faults⟩ s) :
    (usedOf s.state.committed record.userSubscriptionId = usedOf t record.userSubscriptionId ∨
      usedOf s.state.committed record.userSubscriptionId = (usedOf t record.userSubscriptionId).map
          fun used => clampUsed used (-record.preConsumed)) ∧
    ∀ e u, ¬ LateFailure s →
      run (faultyHandle engine) (refundSubscriptionPreConsume tx inner record.requestId) s =
        some (.error e, u) →
      usedOf u.state.committed record.userSubscriptionId =
        usedOf s.state.committed record.userSubscriptionId := by
  have hinv := run_preserves_invariant (initial_invariant hrec faults) hr
  refine ⟨hinv.once, ?_⟩
  intro e u hlate h
  exact (call_preserves_invariant hinv hlate h).2 e rfl

def heldRecord : SubscriptionPreConsumeRecord := ⟨"req", 1, 7, 30, .consumed⟩

def heldTables : Tables :=
  { plainTables ⟨[plainSub 7 200 100], by decide⟩ with records := ⟨[heldRecord], by decide⟩ }

/-- A refund whose begin fails, and the next one, which goes through. -/
theorem early_failure_refunds_once : ∃ s,
    RefundRun 0 1 "req" ⟨idle heldTables, [some "timeout"]⟩ s ∧
    usedOf s.state.committed 7 = some 70 ∧
    (usedOf s.state.committed 7 = some 100 ∨
      usedOf s.state.committed 7 = some (clampUsed 100 (-30))) := by
  have hfirst : run (faultyHandle engine) (refundSubscriptionPreConsume 0 1 "req")
      ⟨idle heldTables, [some "timeout"]⟩ = some (.error "timeout", ⟨idle heldTables, []⟩) := rfl
  have hsecond : (run (faultyHandle engine) (refundSubscriptionPreConsume 0 1 "req")
      ⟨idle heldTables, []⟩).map (fun p => usedOf p.2.state.committed 7) = some (some 70) := by
    decide
  obtain ⟨⟨r, s⟩, hs, hused⟩ := map_eq_some_iff.mp hsecond
  have hrec : heldTables.records.find? heldRecord.requestId = some heldRecord := by decide
  have hr : RefundRun 0 1 heldRecord.requestId ⟨idle heldTables, [some "timeout"]⟩ s :=
    .call (.call (.nil _) (by decide) hfirst) (by decide) hs
  exact ⟨s, hr, hused, (refunded_at_most_once_without_late_failure hrec hr).1⟩

/-- The save of the record fails after the counter has been refunded: that call returns an
error with the counter at 70, and the retry takes another 30 off for the one record. -/
theorem late_failure_refunds_twice : usedOf heldTables 7 = some 100 ∧
    (run (faultyHandle engine) (refundSubscriptionPreConsume 0 1 "req")
      ⟨idle heldTables, [none, none, none, none, none, none, some "timeout"]⟩).map
        (fun p => (p.1, usedOf p.2.state.committed 7)) = some (.error "timeout", some 70) ∧
    (run (faultyHandle engine) (refundWithRetry 0 1 "req" (.ok ()) maxAttempts)
      ⟨idle heldTables, [none, none, none, none, none, none, some "timeout"]⟩).map
        (fun p => (p.1, usedOf p.2.state.committed 7)) = some (.ok (), some 40) := by
  decide

end SubscriptionRefundRetry
