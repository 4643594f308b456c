import TinyToken.PromptPayAutoVerify

/-! Automatic approvals against the calls that change their rule or shut it off. An approval
locks the rule it reads until it commits, so the rule that is saved when it commits is the
one that allowed it; and once the switch has returned, only a later change of the rule lets
an approval through. -/
namespace PromptPaySwitch

open ProgramSteps InterleavedPrograms LockingStore LockingPools PaymentStore PromptPayRule
  ManualTopUps PromptPayAutoVerify Option Bool
open ReadCommittedStore (TxId Db)
open GoText (isDigit digitValue digitValue_lt digitValue_inj)

/-- The minutes from `start` on, before `stop` comes next. -/
def WithinDaily (start stop minute : ℕ) : Prop :=
  ∃ k < (stop + 1440 - start) % 1440, minute = (start + k) % 1440

theorem withinDaily_of_inWindow {start stop minute : ℕ} (hstart : start < 1440)
    (hstop : stop < 1440) (hne : start ≠ stop) (hminute : minute < 1440)
    (h : inWindow start stop minute = true) : WithinDaily start stop minute := by
  refine ⟨(minute + 1440 - start) % 1440, ?_, by omega⟩
  unfold inWindow at h
  split at h
  · rw [and_eq_true, decide_eq_true_eq, decide_eq_true_eq] at h
    omega
  · rw [or_eq_true, decide_eq_true_eq, decide_eq_true_eq] at h
    omega

variable (c : PayConfig) {minute : ℕ} (w : SlipWorld) (tx : TxId)

theorem parseClock_cases {text : String} (h : parseClock text = some minute) :
    ∃ a b c d, text.toList = [a, b, ':', c, d] ∧ [a, b, c, d].all isDigit = true ∧
      digitValue a * 10 + digitValue b < 24 ∧ digitValue c * 10 + digitValue d < 60 ∧
      minute = (digitValue a * 10 + digitValue b) * 60 + (digitValue c * 10 + digitValue d) := by
  unfold parseClock at h
  split at h
  next a b c d htext =>
    split at h
    next hdigits =>
      dsimp only at h
      split at h
      next hbounds =>
        cases h
        exact ⟨a, b, c, d, htext, hdigits, hbounds.1, hbounds.2, rfl⟩
      · cases h
    · cases h
  · cases h

theorem parseClock_lt {text : String} (h : parseClock text = some minute) : minute < 1440 := by
  obtain ⟨a, b, c, d, -, -, hhour, hminute, rfl⟩ := parseClock_cases h
  omega

theorem parseClock_inj {s t : String} (hs : parseClock s = some minute)
    (ht : parseClock t = some minute) : s = t := by
  obtain ⟨a, b, c, d, hstext, hdigits, hhour, hminute, rfl⟩ := parseClock_cases hs
  obtain ⟨a', b', c', d', httext, hdigits', hhour', hminute', heq⟩ := parseClock_cases ht
  simp only [List.all_cons, List.all_nil, and_eq_true] at hdigits hdigits'
  obtain ⟨ha, hb, hc, hd, -⟩ := hdigits
  obtain ⟨ha', hb', hc', hd', -⟩ := hdigits'
  have := digitValue_lt hb
  have := digitValue_lt hb'
  have := digitValue_lt hd
  have := digitValue_lt hd'
  have haa := digitValue_inj ha ha' (by omega)
  have hbb := digitValue_inj hb hb' (by omega)
  have hcc := digitValue_inj hc hc' (by omega)
  have hdd := digitValue_inj hd hd' (by omega)
  rw [← haa, ← hbb, ← hcc, ← hdd, ← hstext] at httext
  exact String.toList_inj.mp httext.symm

theorem minuteOfDay_lt (zone : ℤ → ℤ) (now : ℤ) : minuteOfDay zone now < 1440 := by
  unfold minuteOfDay
  omega

structure Covers (c : PayConfig) (cfg : PromptPayAutoConfig) (mode : String) (userId : ℤ)
    (money : ℚ) (now : ℤ) : Prop where
  enabled : cfg.enabled = true
  mode : effectiveMode cfg = mode
  user : userId ∈ cfg.allowedUserIds
  maximum : money ≤ cfg.maxAmountTHB
  window : ∃ zone start stop, c.zoneOf cfg.timezone = some zone ∧
    parseClock cfg.start = some start ∧ parseClock cfg.stop = some stop ∧
    WithinDaily start stop (minuteOfDay zone now)

theorem ready_window {c : PayConfig} {cfg : PromptPayAutoConfig} {zone : ℤ → ℤ}
    {start stop : ℕ} (h : validateReady c cfg = .ok (zone, start, stop)) :
    c.zoneOf cfg.timezone = some zone ∧ parseClock cfg.start = some start ∧
      parseClock cfg.stop = some stop ∧ cfg.start ≠ cfg.stop := by
  unfold validateReady at h
  split at h
  · cases h
  split at h
  · cases h
  split at h
  · cases h
  rename_i start' hstart
  split at h
  · cases h
  rename_i stop' hstop
  split at h
  · cases h
  rename_i zone' hzone
  split at h
  · cases h
  cases h
  obtain ⟨hstop, hne⟩ := filter_eq_some_iff.mp hstop
  exact ⟨(filter_eq_some_iff.mp hzone).1, hstart, hstop, by simpa using hne⟩

theorem covers_of_allows {c : PayConfig} {cfg : PromptPayAutoConfig} {topUp : TopUp} {now : ℤ}
    (h : allows c cfg topUp now = true) :
    Covers c cfg (effectiveMode cfg) topUp.userId topUp.money now := by
  unfold allows at h
  rw [and_eq_true, and_eq_true] at h
  obtain ⟨⟨henabled, hfits⟩, hready⟩ := h
  split at hready
  · cases hready
  rename_i zone start stop hvalid
  rw [and_eq_true, decide_eq_true_eq] at hready
  obtain ⟨huser, hwindow⟩ := hready
  obtain ⟨hzone, hstart, hstop, hne⟩ := ready_window hvalid
  have hmoney : topUp.money ≤ cfg.maxAmountTHB := by
    unfold orderFits at hfits
    simp only [and_eq_true, decide_eq_true_eq] at hfits
    exact hfits.1.2
  refine ⟨henabled, rfl, huser, hmoney, zone, start, stop, hzone, hstart, hstop, ?_⟩
  refine withinDaily_of_inWindow (parseClock_lt hstart) (parseClock_lt hstop) ?_
    (minuteOfDay_lt zone now) hwindow
  rintro rfl
  exact hne (parseClock_inj hstart hstop)

def storeRule (cfg : PromptPayAutoConfig) (t : PayTables) : PayTables :=
  { t with rule := some (.config cfg) }

def ChangesTo (change : PromptPayAutoConfig → Except String PromptPayAutoConfig)
    (cfg : PromptPayAutoConfig) : Prop :=
  ∃ old changed, change old = .ok changed ∧
    cfg = { changed with allowedUserIds := changed.allowedUserIds.insertionSort (· ≤ ·) }

section Bodies

variable {tx : TxId} {ok : PayGuard} {err : PayTables → Prop}
  {change : PromptPayAutoConfig → Except String PromptPayAutoConfig}

def UpdatePost (tx : TxId) (change : PromptPayAutoConfig → Except String PromptPayAutoConfig)
    (cfg : PromptPayAutoConfig) (_ : PayHistory)
    (db : Db PayTables PayWrite) : Prop :=
  ChangesTo change cfg ∧ seen payEngine db tx = storeRule cfg db.committed

theorem body_applyChange {ws : List PayWrite} {p : PayTables → Prop} {cfg : PromptPayAutoConfig}
    (hat : AtFault payEngine ok err) (hlocks : ∀ t, applyAll payEngine ws t = t)
    (hguard : ∀ vs, Guards payEngine (ws ++ vs) p)
    (hrefuse : ∀ cfg e, change cfg = .error e → ∀ t, err t) :
    Body payEngine tx ok err (UpdatePost tx change) ws p [] (applyChange tx change (.ok cfg)) := by
  unfold applyChange
  dsimp only
  split
  next e he =>
    exact body_error hat.lasting fun t _ => hrefuse cfg e he t
  rename_i changed hchanged
  refine body_total hat (by simpa using hguard []) (execute_ne_error rfl)
    (fun _ => body_error hat.lasting fun _ h => h.2) ?_
  intro b vs t _ hexec
  cases hexec
  refine body_forget (body_mono (fun _ h => h.1) (body_ok (hguard _) ?_))
  rintro past db ⟨hown, -, -⟩
  refine ⟨⟨cfg, changed, hchanged, rfl⟩, ?_⟩
  rw [seen_of_own hown, applyAll_append, hlocks]
  rfl

/-- An update fails only where a statement may fail, where its change refuses, or on a rule
that is saved and does not parse. -/
theorem body_update (hat : AtFault payEngine ok err) (hsaved : ∀ t, t.rule.isSome = true → err t)
    (hrefuse : ∀ cfg e, change cfg = .error e → ∀ t, err t) :
    Body payEngine tx ok err (UpdatePost tx change) [] (fun _ => True) [] (updateBody tx change) := by
  refine body_lockRule hat guards_true (fun _ => body_error hat.lasting fun _ h => h.2) ?_ ?_
  · exact body_applyChange hat (fun _ => rfl) (fun _ => guards_true) hrefuse
  intro value
  cases value with
  | malformed text =>
    exact body_error hat.lasting fun t ht => hsaved t (by rw [show t.rule = _ from ht.2]; rfl)
  | config cfg =>
    exact body_mono (fun _ _ => trivial)
      (body_applyChange hat (fun _ => rfl) (fun _ => guards_true) hrefuse)

def RuleOff (t : PayTables) : Prop := ∀ cfg, t.rule = some (.config cfg) → cfg.enabled = false

def DisablePost (tx : TxId) (_ : Unit) (_ : PayHistory)
    (db : Db PayTables PayWrite) : Prop :=
  ∃ cfg : PromptPayAutoConfig, cfg.enabled = false ∧
    seen payEngine db tx = storeRule cfg db.committed

theorem body_overwrite : PayBody tx ok (DisablePost tx) []
      (fun t => t.rule.isSome = true) [] (overwriteBody tx) := by
  refine body_total atFault_true guards_rule_saved (execute_ne_error rfl) (fun _ => body_fail) ?_
  intro b vs t ht hexec
  simp only [payEngine, execute, applyAll_nil, ht, if_true] at hexec
  cases hexec
  refine body_forget (body_mono (fun _ h => h.1) (body_ok guards_rule_saved ?_))
  rintro past db ⟨hown, -, -⟩
  refine ⟨PromptPayAutoConfig.zero, rfl, ?_⟩
  rw [seen_of_own hown]
  rfl

theorem callSafe_disable (hat : AtFault payEngine ok fun t => t.rule.isSome = true) :
    CallSafe payEngine tx ok (fun _ => True) (fun _ => True) (DisablePost tx)
      (disablePromptPayAutoConfig tx) := by
  have hupdate : CallSafe payEngine tx ok (fun _ => True) (fun t => t.rule.isSome = true)
      (UpdatePost tx disable) (updatePromptPayAutoConfig tx disable) := by
    refine callSafe_transaction hat guards_true (body_update hat (fun _ h => h) ?_)
    nofun
  refine callSafe_then (fun cfg => rfl) ?_ ?_ ?_ hupdate
  · nofun
  · exact fun e => callSafe_transaction atFault_true guards_rule_saved body_overwrite
  · rintro cfg past db ⟨⟨old, changed, hchange, rfl⟩, hseen⟩
    cases hchange
    exact ⟨_, rfl, hseen⟩

theorem callSafe_update :
    CallSafe payEngine tx ok (fun _ => True) (fun _ => True) (UpdatePost tx change)
      (updatePromptPayAutoConfig tx change) :=
  callSafe_transaction atFault_true guards_true
    (body_update atFault_true (fun _ _ => trivial) fun _ _ _ _ => trivial)

end Bodies

/-- `complete` is `completeManualTopUp` itself, `attempt` the whole way from a slip to it. -/
inductive RuleCall where
  | attempt (s : Submission)
  | complete (call : Approval)
  | update (change : PromptPayAutoConfig → Except String PromptPayAutoConfig)
  | disable

inductive RuleOutcome where
  | completed (approved : Bool)
  | updated (cfg : PromptPayAutoConfig)
  | disabled
  deriving DecidableEq

def RuleCall.program : RuleCall → PayProg (Except String RuleOutcome)
  | .attempt s => tryAutoApprovePromptPay c w tx s >>= fun r => pure (r.map .completed)
  | .complete call => completeManualTopUp c tx call >>= fun r => pure (r.map .completed)
  | .update change => updatePromptPayAutoConfig tx change >>= fun r => pure (r.map .updated)
  | .disable => disablePromptPayAutoConfig tx >>= fun r => pure (r.map fun _ => .disabled)

inductive RuleStep (c : PayConfig) (w : SlipWorld) (t t' : PayTables) :
    RuleCall → RuleOutcome → Prop where
  | attempt {s : Submission} {call : Approval} {approved : Bool} (hcall : Attempts w s call)
      (h : CompleteEffect c call t approved t') : RuleStep c w t t' (.attempt s) (.completed approved)
  | complete {call : Approval} {approved : Bool} (h : CompleteEffect c call t approved t') :
      RuleStep c w t t' (.complete call) (.completed approved)
  | update {change : PromptPayAutoConfig → Except String PromptPayAutoConfig}
      {cfg : PromptPayAutoConfig} (hcfg : ChangesTo change cfg) (h : t' = storeRule cfg t) :
      RuleStep c w t t' (.update change) (.updated cfg)
  | disable {cfg : PromptPayAutoConfig} (hcfg : cfg.enabled = false) (h : t' = storeRule cfg t) :
      RuleStep c w t t' .disable .disabled

def RulePost (call : RuleCall) (outcome : RuleOutcome)
    (_ : PayHistory) (db : Db PayTables PayWrite) : Prop :=
  RuleStep c w db.committed (seen payEngine db tx) call outcome

def FaultsSpent (s : TransactionPools.Store PayTables PayWrite) : Prop :=
  s.faults = [] ∨ s.state.committed.rule.isSome = true

theorem atFault_saved :
    AtFault (S := PayStmt) payEngine (fun _ _ s => FaultsSpent s) fun t => t.rule.isSome = true where
  lasting := guards_rule_saved
  fault := fun _ _ _ h hne => h.resolve_left hne

theorem faultsSpent_step {o : RowOp PayStmt} {r : RowRes PayAnswer o}
    {s t : TransactionPools.Store PayTables PayWrite}
    (e : faultyHandle payEngine o s = some (r, t)) (h : FaultsSpent s) : FaultsSpent t := by
  rcases h with h | h
  · exact .inl (withFaults_nil e h)
  · exact .inr (guards_rule_saved.lasting e h)

theorem callSafe_rule (call : RuleCall) :
    CallSafe payEngine tx (fun _ _ s => FaultsSpent s) (fun _ => True) (fun _ => True)
      (RulePost c w tx call) (call.program c w tx) := by
  cases call with
  | attempt s =>
    refine callSafe_then (fun a => rfl) ?_ (fun e => callSafe_fail) ?_ (callSafe_attempt s)
    · nofun
    · rintro approved past db ⟨call, hcall, h⟩
      exact .attempt hcall h
  | complete call =>
    refine callSafe_then (fun a => rfl) ?_ (fun e => callSafe_fail) ?_ callSafe_complete
    · nofun
    · exact fun approved past db h => .complete h
  | update change =>
    refine callSafe_then (fun a => rfl) ?_ (fun e => callSafe_fail) ?_ callSafe_update
    · nofun
    · exact fun cfg past db h => .update h.1 h.2
  | disable =>
    refine callSafe_then (fun a => rfl) ?_ (fun e => callSafe_fail) ?_
      (callSafe_disable atFault_saved)
    · nofun
    · rintro _ past db ⟨cfg, hcfg, h⟩
      exact .disable hcfg h

section Runs

variable {ι : Type} [DecidableEq ι] {c : PayConfig} {w : SlipWorld} {conn : ι → TxId}
  {calls : ι → RuleCall} {t₀ : PayTables} {faults : List (Option String)}
  {p q : PayPool RuleOutcome ι}

def rulePool (c : PayConfig) (w : SlipWorld) (conn : ι → TxId) (calls : ι → RuleCall)
    (t : PayTables) (faults : List (Option String)) : PayPool RuleOutcome ι :=
  Pool.start ⟨Db.idle t, faults⟩ fun i => (calls i).program c w (conn i)

abbrev RuleRun (p q : PayPool RuleOutcome ι) : Prop :=
  Run (faultyHandle payEngine) (fun _ _ _ _ => True) (fun _ _ => False) p q

abbrev RuleMove (p q : PayPool RuleOutcome ι) : Prop :=
  Step (faultyHandle payEngine) (fun _ _ _ _ => True) (fun _ _ => False) p q

theorem spent_move (hspent : FaultsSpent p.state) (hmove : RuleMove p q) :
    Step (faultyHandle payEngine) (fun _ _ _ s => FaultsSpent s) (fun _ _ => False) p q := by
  cases hmove with
  | thread i hk _ hr => exact .thread i hk hspent hr
  | env he => exact he.elim

theorem CompleteEffect.rule {call : Approval} {t t' : PayTables} {approved : Bool}
    (h : CompleteEffect c call t approved t') : t'.rule = t.rule := by
  cases h with
  | approved topUp _ | already _ => rfl

def EnablesRule (calls : ι → RuleCall) (p q : PayPool RuleOutcome ι) : Prop :=
  ∃ j change cfg, calls j = .update change ∧ p.result? j = none ∧
    q.result? j = some (.ok (.updated cfg)) ∧ cfg.enabled = true

section

variable (hconn : Function.Injective conn) (hfaults : faults = [] ∨ t₀.rule.isSome = true)
  (hrun : RuleRun (rulePool c w conn calls t₀ faults) p)
include hconn hfaults hrun

theorem rule_sound :
    FaultsSpent p.state ∧ Sound payEngine conn (fun _ _ _ s => FaultsSpent s) (fun _ _ => True)
      (fun i => RulePost c w (conn i) (calls i)) p := by
  obtain ⟨hspent, hkept⟩ := Run.strengthen hrun FaultsSpent (fun _ _ _ s => FaultsSpent s) hfaults
    (fun _ _ _ _ h _ => h) (fun _ _ _ _ => faultsSpent_step) (fun _ _ h => h.elim)
  refine ⟨hspent, Run.invariant _ (fun _ _ h hs => h.step hconn hs) ?_ hkept⟩
  exact sound_start (fun i => callSafe_rule c w (conn i) (calls i)) (fun _ => trivial) faults

theorem rule_ends (hmove : RuleMove p q) {i : ι} {outcome : RuleOutcome}
    (hbefore : p.result? i = none) (hafter : q.result? i = some (.ok outcome)) :
    RuleStep c w (tables p) (tables q) (calls i) outcome := by
  obtain ⟨hspent, hsound⟩ := rule_sound hconn hfaults hrun
  obtain ⟨hP, -, hc⟩ := hsound.ends (spent_move hspent hmove) hbefore hafter
  change RuleStep c w (tables p) q.state.state.committed (calls i) outcome
  rw [hc]
  exact hP

theorem rule_move (hmove : RuleMove p q) (hoff : RuleOff (tables p)) :
    RuleOff (tables q) ∨ EnablesRule calls p q := by
  obtain ⟨hspent, hsound⟩ := rule_sound hconn hfaults hrun
  rcases hsound.cases (spent_move hspent hmove) with ⟨hsame, -⟩ | ⟨i, a, hbefore, hafter, -⟩
  · refine .inl ?_
    change RuleOff q.state.state.committed
    rw [hsame]
    exact hoff
  · have hstep := rule_ends hconn hfaults hrun hmove hbefore hafter
    generalize hcall : calls i = call at hstep
    cases hstep with
    | attempt _ h | complete h => exact .inl (by rwa [RuleOff, CompleteEffect.rule h])
    | @update change cfg hcfg h =>
      by_cases henabled : cfg.enabled = true
      · exact .inr ⟨i, change, cfg, hcall, hbefore, hafter, henabled⟩
      · refine .inl ?_
        rw [h]
        rintro cfg' hrule
        cases hrule
        exact eq_false_iff.mpr henabled
    | disable hcfg h =>
      refine .inl ?_
      rw [h]
      rintro cfg' hrule
      cases hrule
      exact hcfg

theorem off_until_enabled (hoff : RuleOff (tables p)) (hlater : RuleRun p q) :
    RuleOff (tables q) ∨ ∃ u v, RuleRun p u ∧ RuleMove u v ∧ RuleRun v q ∧ EnablesRule calls u v := by
  induction hlater with
  | refl => exact .inl hoff
  | @tail r s hpr hrs ih =>
    rcases ih with hoff | ⟨u, v, hpu, huv, hvr, henables⟩
    · rcases rule_move hconn hfaults (hrun.trans hpr) hrs hoff with hoff | henables
      · exact .inl hoff
      · exact .inr ⟨r, s, hpr, hrs, .refl, henables⟩
    · exact .inr ⟨u, v, hpu, huv, hvr.tail hrs, henables⟩

end

def RuleCall.Automatic (w : SlipWorld) : RuleCall → Approval → Prop
  | .attempt s, call => Attempts w s call
  | .complete a, call => call = a ∧ a.autoMode ≠ ""
  | .update _, _ => False
  | .disable, _ => False

def RuleCall.isAutomatic : RuleCall → Bool
  | .attempt _ => true
  | .complete a => a.autoMode ≠ ""
  | .update _ => false
  | .disable => false

def Covered (c : PayConfig) (w : SlipWorld) (t : PayTables) (call : RuleCall) : Prop :=
  ∃ a topUp cfg, call.Automatic w a ∧ t.topUps.find? topUp.id = some topUp ∧
    topUp.tradeNo = a.tradeNo ∧ t.rule = some (.config cfg) ∧
    Covers c cfg a.autoMode topUp.userId topUp.money a.sampledAt

theorem CompleteEffect.covered {call : Approval} {t t' : PayTables} {approved : Bool}
    (h : CompleteEffect c call t approved t') (hauto : call.autoMode ≠ "") :
    ∃ topUp cfg, t.topUps.find? topUp.id = some topUp ∧ topUp.tradeNo = call.tradeNo ∧
      t.rule = some (.config cfg) ∧
      Covers c cfg call.autoMode topUp.userId topUp.money call.sampledAt := by
  cases h with
  | already hmanual => exact absurd hmanual hauto
  | approved topUp ha =>
    obtain ⟨-, cfg, hrule, hmode, hallows⟩ := ha.automatic hauto
    have hcovers := covers_of_allows hallows
    rw [hmode] at hcovers
    exact ⟨topUp, cfg, ha.stored, ha.tradeNo, hrule, hcovers⟩

theorem RuleStep.covered {t t' : PayTables} {call : RuleCall} {outcome : RuleOutcome}
    (h : RuleStep c w t t' call outcome) (hauto : call.isAutomatic = true) :
    Covered c w t call := by
  cases h with
  | attempt hcall h =>
    obtain ⟨topUp, cfg, hcovered⟩ := CompleteEffect.covered h hcall.automatic
    exact ⟨_, topUp, cfg, hcall, hcovered⟩
  | @complete a _ h =>
    have hauto : a.autoMode ≠ "" := by simpa [RuleCall.isAutomatic] using hauto
    obtain ⟨topUp, cfg, hcovered⟩ := CompleteEffect.covered h hauto
    exact ⟨_, topUp, cfg, ⟨rfl, hauto⟩, hcovered⟩
  | update _ _ | disable _ _ => cases hauto

theorem Covered.not_off {t : PayTables} {call : RuleCall} (h : Covered c w t call) :
    ¬ RuleOff t := by
  obtain ⟨a, topUp, cfg, -, -, -, hrule, hcovers⟩ := h
  intro hoff
  have := hoff cfg hrule
  rw [hcovers.enabled] at this
  cases this

def Commits (p q : PayPool RuleOutcome ι) (i : ι) : Prop :=
  p.result? i = none ∧ ∃ outcome, q.result? i = some (.ok outcome)

/-- An automatic approval commits only under a saved rule that covers it; and after the switch
has returned, only once an update has enabled the rule again. -/
theorem automatic_approvals_obey_rule (hconn : Function.Injective conn)
    (hfaults : faults = [] ∨ t₀.rule.isSome = true)
    (hrun : RuleRun (rulePool c w conn calls t₀ faults) p) (hmove : RuleMove p q) :
    (∀ i, (calls i).isAutomatic = true → Commits p q i → Covered c w (tables p) (calls i)) ∧
    ∀ d, calls d = .disable → Commits p q d →
      ∀ r s i, RuleRun q r → RuleMove r s → (calls i).isAutomatic = true → Commits r s i →
        ∃ u v, RuleRun q u ∧ RuleMove u v ∧ RuleRun v r ∧ EnablesRule calls u v := by
  refine ⟨?_, ?_⟩
  · rintro i hauto ⟨hbefore, outcome, hafter⟩
    exact (rule_ends hconn hfaults hrun hmove hbefore hafter).covered hauto
  · rintro d hd ⟨hbefore, outcome, hafter⟩ r s i hqr hrs hauto ⟨hrbefore, outcome', hrafter⟩
    have hoff : RuleOff (tables q) := by
      have hstep := rule_ends hconn hfaults hrun hmove hbefore hafter
      rw [hd] at hstep
      cases hstep with
      | disable hcfg h =>
        rw [h]
        rintro cfg' hrule
        cases hrule
        exact hcfg
    have hrunr : RuleRun (rulePool c w conn calls t₀ faults) r := (hrun.tail hmove).trans hqr
    have hcovered := (rule_ends hconn hfaults hrunr hrs hrbefore hrafter).covered hauto
    exact (off_until_enabled hconn hfaults (hrun.tail hmove) hoff hqr).resolve_left hcovered.not_off

def nightRule : PromptPayAutoConfig :=
  ⟨true, modeVerified, "22:00", "06:00", "UTC", [7], 100⟩

def closedWorld : SlipWorld :=
  ⟨⟨false, false, "", "", "", "", none⟩, fun _ => "", fun _ => .error "unavailable"⟩

def nightApproval : Approval :=
  ⟨waitingOrder.tradeNo, 0, "REF_0001", modeVerified, 1700000100, 1700000101⟩

def switchCalls : Fin 3 → RuleCall
  | 0 => .complete nightApproval
  | 1 => .disable
  | 2 => .update fun _ => .ok nightRule

/-- The saved rule does not parse: the switch overwrites it, an update enables it again, and
then the approval passes, late in the evening. -/
theorem night_approval_after_switch : ∃ p q r s : PayPool RuleOutcome (Fin 3),
      RuleRun (rulePool unitConfig closedWorld Fin.val switchCalls
        (waitingTables ⟨[waitingOrder], by decide⟩ (some (.malformed "#"))) []) p ∧
      RuleMove p q ∧ Commits p q 1 ∧ RuleRun q r ∧ RuleMove r s ∧ Commits r s 0 ∧
      (∃ u v, RuleRun q u ∧ RuleMove u v ∧ RuleRun v r ∧ EnablesRule switchCalls u v) := by
  have hobs : ((rulePool unitConfig closedWorld Fin.val switchCalls
      (waitingTables ⟨[waitingOrder], by decide⟩ (some (.malformed "#"))) []).playAlone
        (faultyHandle payEngine) [1, 1, 1, 1, 1]).bind (fun p =>
          (p.step? (faultyHandle payEngine) 1).bind fun q =>
            (q.playAlone (faultyHandle payEngine)
              [2, 2, 2, 2, 0, 0, 0, 0, 0, 0]).bind fun r =>
                (r.step? (faultyHandle payEngine) 0).map fun s =>
                  decide (p.result? 1 = none ∧ q.result? 1 = some (.ok .disabled) ∧
                    r.result? 0 = none ∧ s.result? 0 = some (.ok (.completed true)))) =
      some true := by
    decide +kernel
  obtain ⟨p, hp, hobs⟩ := bind_eq_some_iff.mp hobs
  obtain ⟨q, hq, hobs⟩ := bind_eq_some_iff.mp hobs
  obtain ⟨r, hr, hobs⟩ := bind_eq_some_iff.mp hobs
  obtain ⟨s, hs, hobs⟩ := map_eq_some_iff.mp hobs
  obtain ⟨hp1, hq1, hr0, hs0⟩ := of_decide_eq_true hobs
  have hrun := play_run_alone hp
  have hlater := play_run_alone hr
  have hmove : RuleMove p q := Pool.step?_step hq
  have hlast : RuleMove r s := Pool.step?_step hs
  refine ⟨p, q, r, s, hrun, hmove, ⟨hp1, _, hq1⟩, hlater, hlast, ⟨hr0, _, hs0⟩, ?_⟩
  exact (automatic_approvals_obey_rule Fin.val_injective (.inl rfl) hrun hmove).2 1 rfl
    ⟨hp1, _, hq1⟩ r s 0 hlater hlast rfl ⟨hr0, _, hs0⟩

end Runs

end PromptPaySwitch
