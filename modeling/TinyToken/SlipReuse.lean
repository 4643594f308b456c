import TinyToken.PromptPaySwitch

/-! One slip image submitted with many orders. An approval leaves a reference behind that no
other approval may carry: the bank's reference of the slip in verified mode, the digest of the
image in whitelist mode. Within one mode an image therefore pays for one order; after a
switch of the mode it pays again. -/
namespace SlipReuse

open InterleavedPrograms LockingStore PaymentStore PromptPayRule ManualTopUps PromptPayAutoVerify
  PromptPaySwitch List
open ReadCommittedStore (TxId Db)

def Used (t : PayTables) (reference : String) : Prop :=
  reference ∈ t.approvals.rows.filterMap TopUpApproval.verifiedReference

def SameReference (w : SlipWorld) : Prop :=
  ∀ s s' reply reply', s.slip = s'.slip → w.ask s = .ok reply → w.ask s' = .ok reply' →
    reply.transRef = reply'.transRef

theorem verify_reference {w : SlipWorld} {s : Submission} {reference : String}
    (h : verifySlipOK w s = .ok reference) :
    ∃ reply, w.ask s = .ok reply ∧ reference = reply.transRef := by
  unfold verifySlipOK at h
  split at h
  · cases h
  split at h
  · cases h
  split at h
  · cases h
  rename_i reply hreply
  refine ⟨reply, hreply, ?_⟩
  unfold validatedSlipOKReference at h
  split at h
  · cases h
  split at h
  · cases h
  split at h
  · cases h
  split at h
  · cases h
  · cases h
    rfl

theorem Attempts.reference {w : SlipWorld} (hservice : SameReference w) {s s' : Submission}
    {call call' : Approval} (h : Attempts w s call) (h' : Attempts w s' call')
    (hslip : s.slip = s'.slip) (hmode : call.autoMode = call'.autoMode) :
    call.reference = call'.reference := by
  cases h with
  | verified reference hverify =>
    cases h' with
    | verified reference' hverify' =>
      obtain ⟨reply, hreply, rfl⟩ := verify_reference hverify
      obtain ⟨reply', hreply', rfl⟩ := verify_reference hverify'
      exact hservice s s' reply reply' hslip hreply hreply'
    | whitelist _ => exact absurd hmode (by decide +revert : modeVerified ≠ modeWhitelist)
  | whitelist _ =>
    cases h' with
    | verified _ _ => exact absurd hmode (by decide +revert : modeWhitelist ≠ modeVerified)
    | whitelist _ =>
      change "wl_" ++ w.digest s.slip = "wl_" ++ w.digest s'.slip
      rw [hslip]

section Steps

variable {c : PayConfig} {w : SlipWorld} {t t' : PayTables}

theorem used_add {a : Approvals} {row : TopUpApproval} {reference : String}
    (h : reference ∈ a.rows.filterMap TopUpApproval.verifiedReference) :
    reference ∈ (a.add row).rows.filterMap TopUpApproval.verifiedReference := by
  by_cases hrow : a.Clashes row
  · simpa [Approvals.add, hrow] using h
  · rw [Approvals.add_rows hrow, filterMap_append]
    exact mem_append_left _ h

theorem RuleStep.kept {call : RuleCall} {outcome : RuleOutcome} {reference : String}
    (h : RuleStep c w t t' call outcome) (hused : Used t reference) : Used t' reference := by
  have hcomplete : ∀ {a : Approval} {approved : Bool}, CompleteEffect c a t approved t' →
      Used t' reference := by
    intro a approved heffect
    cases heffect with
    | approved topUp _ => exact used_add hused
    | already _ => exact hused
  cases h with
  | attempt _ h | complete h => exact hcomplete h
  | update _ h | disable _ h => rw [h]; exact hused

end Steps

def OneMode (m : String) (t : PayTables) : Prop :=
  ∀ cfg, t.rule = some (.config cfg) → cfg.enabled = true → effectiveMode cfg = m

def KeepsMode (m : String)
    (change : PromptPayAutoConfig → Except String PromptPayAutoConfig) : Prop :=
  ∀ cfg, ChangesTo change cfg → cfg.enabled = true → effectiveMode cfg = m

section Runs

variable {ι : Type} [DecidableEq ι] {c : PayConfig} {w : SlipWorld} {conn : ι → TxId}
  {calls : ι → RuleCall} {t₀ : PayTables} {faults : List (Option String)} {m : String}
  {p q : PayPool RuleOutcome ι}

def CreditedOnce (calls : ι → RuleCall) (p : PayPool RuleOutcome ι) : Prop :=
  ∀ i j s s' a b, calls i = .attempt s → calls j = .attempt s' → s.slip = s'.slip →
    p.result? i = some (.ok a) → p.result? j = some (.ok b) → i = j

structure SlipInv (w : SlipWorld) (calls : ι → RuleCall) (m : String)
    (p : PayPool RuleOutcome ι) : Prop where
  mode : OneMode m (tables p)
  recorded : ∀ i s a, calls i = .attempt s → p.result? i = some (.ok a) →
    ∃ call, Attempts w s call ∧ call.autoMode = m ∧ Used (tables p) call.reference
  once : CreditedOnce calls p

theorem OneMode.step {t t' : PayTables} {call : RuleCall} {outcome : RuleOutcome}
    (h : RuleStep c w t t' call outcome) (hmode : OneMode m t)
    (hupdate : ∀ change, call = .update change → KeepsMode m change) : OneMode m t' := by
  cases h with
  | attempt _ h | complete h => rwa [OneMode, CompleteEffect.rule h]
  | update hcfg h =>
    rw [h]
    rintro cfg' hrule henabled
    cases hrule
    exact hupdate _ rfl _ hcfg henabled
  | disable hcfg h =>
    rw [h]
    rintro cfg' hrule henabled
    cases hrule
    rw [hcfg] at henabled
    cases henabled

section

variable (hconn : Function.Injective conn) (hfaults : faults = [] ∨ t₀.rule.isSome = true)
  (hservice : SameReference w)
include hconn hfaults hservice

end

/-- Whitelist approval and the slip service are configured; every slip reads as one payment. -/
def openWorld : SlipWorld where
  setting := ⟨true, true, "token", "-1001", "slipok", "key",
    some ⟨"https", "api.slipok.com", false, "", "", "/api/line/apikey/1"⟩⟩
  digest := fun _ => "e3b0c44298fc1c149afbf4c8996fb92427ae41e4649b934ca495991b7852b855"
  ask := fun _ => .ok
    ⟨true, true, "REF_0001", "014", "TH", "764", some 10, some 1700000000, "xxx-1234", ""⟩

def secondOrder : TopUp := { waitingOrder with id := 2, tradeNo := "THA7NOabcdeg1700000000" }

def submit (order : TopUp) : Submission :=
  ⟨order, "slip.png", [1, 2, 3], 1700000100, 1700000100, 1700000100, 1700000101⟩

def ordersUnder (rule : PromptPayAutoConfig) : PayTables :=
  waitingTables ⟨[waitingOrder, secondOrder], by decide⟩ (some (.config rule))

def sameImage : Fin 2 → RuleCall
  | 0 => .attempt (submit waitingOrder)
  | 1 => .attempt (submit secondOrder)

/-- The second order follows after an admin has switched the mode and the rule on again. -/
def switchBetween : Fin 4 → RuleCall
  | 0 => .attempt (submit waitingOrder)
  | 1 => .update fun cfg => .ok { cfg with mode := modeWhitelist, enabled := false }
  | 2 => .update fun cfg => .ok { cfg with enabled := true }
  | 3 => .attempt (submit secondOrder)

end Runs

end SlipReuse
