import TinyToken.PaymentStore
import TinyToken.SubscriptionGroups

/-! A plan turned into a subscription in the middle of a payment. The purchase limit is a count
that locks nothing; the new row is locked until the payment commits. -/
namespace SubscriptionGrants

open ProgramSteps LockingStore LockingPools KeyedTable SubscriptionRows SubscriptionPeriods
  SubscriptionGroups PaymentStore List Table
open ReadCommittedStore (TxId Db)

theorem embed_bind {α β : Type} (p : SubProg α) (f : α → SubProg β) :
    embed (p >>= f) = embed p >>= fun a => embed (f a) := by
  induction p with
  | pure a | diverge => rfl
  | op o k ih =>
    cases o with
    | _ =>
      simp only [Prog.op_bind_eq, embed]
      congr 1
      funext r
      exact ih r

theorem embed_bind_bind {α β γ : Type} (p : SubProg α) (f : α → SubProg β) (k : β → PayProg γ) :
    embed (p >>= f) >>= k = embed p >>= fun a => embed (f a) >>= k := by
  rw [embed_bind, Prog.bind_assoc_eq]

def held (t : PayTables) (userId planId : ℤ) : ℕ :=
  (t.sub.subs.rows.filter fun s => s.userId = userId ∧ s.planId = planId).length

def getListedPlanByIdTx (tx : TxId) (id : ℤ) : PayProg (Except String ListedPlan) :=
  if id ≤ 0 then pure (.error "invalid plan id")
  else do
    match ← selectPlanById tx id with
    | .error e => pure (.error e)
    | .ok none => pure (.error "record not found")
    | .ok (some plan) => pure (.ok plan)

section Rules

variable {α : Type} {tx : TxId} {ok : PayGuard}
  {P : PayPost α}
  {ws : List PayWrite} {p : PayTables → Prop} {facts : List (Sigma PayAnswer)}
  {zone id userId now : ℤ} {plan : SubscriptionPlan}

variable {sub : UserSubscription}

theorem guards_newSub (hw : .sub (.createSub sub) ∈ ws) :
    Guards payEngine ws fun t => t.sub.subs.find? sub.id = none := by
  intro v t hfree ht
  have hne : ∀ x ∈ v.locks, x ≠ .row (.sub sub.id) :=
    fun x hx => not_meets_of_free (hfree _ hw) hx (by simp [PayWrite.locks, SubWrite.lock])
  change (applyPay v t).sub.subs.find? sub.id = none
  cases v with
  | sub w =>
    have hlock : w.lock ≠ .sub sub.id :=
      fun h => hne (.row w.lock) (by simp [PayWrite.locks]) (by rw [h])
    cases w with
    | saveSub s =>
      have hid : sub.id ≠ s.id := fun h => hlock (by rw [SubWrite.lock, h])
      simpa [applyPay, applyWrite, find?_save, hid] using ht
    | createSub s =>
      have hid : sub.id ≠ s.id := fun h => hlock (by rw [SubWrite.lock, h])
      simpa [applyPay, applyWrite, find?_insert_of_ne hid] using ht
    | deleteSub i => simp [applyPay, applyWrite, find?_erase, ht]
    | cancelSub i n => simp [applyPay, applyWrite, find?_modify, ht]
    | expireSubs u n => simp [applyPay, applyWrite, find?_modify, ht]
    | _ => exact ht
  | _ => exact ht

theorem plans_applyAll (ws : List PayWrite) (t : PayTables) :
    (applyAll payEngine ws t).plans = t.plans := by
  induction ws generalizing t with
  | nil => rfl
  | cons w ws ih =>
    rw [applyAll_cons, ih]
    cases w <;> rfl

theorem body_getListedPlan {k : Except String ListedPlan → PayProg (Except String α)}
    (hguard : Guards payEngine ws p)
    (hfail : ∀ x p, PayBody tx ok P ws p facts (k (.error x)))
    (hpass : ∀ plan, plan.id = id → PayBody tx ok P ws
      (fun t => p t ∧ t.plans.find? id = some plan) facts (k (.ok plan))) :
    PayBody tx ok P ws p facts (getListedPlanByIdTx tx id >>= k) := by
  unfold getListedPlanByIdTx
  split
  · exact hfail _ _
  refine body_read atFault_true hguard (fun t => ⟨_, rfl⟩) (fun x => hfail x _) ?_
  intro found
  have hread : ∀ t, execute (.planById id) (applyAll payEngine ws t) = .ok (found, []) →
      t.plans.find? id = found := by
    intro t h
    rw [← plans_applyAll ws t]
    cases h
    rfl
  cases found with
  | none => exact body_forget (hfail _ _)
  | some plan =>
    by_cases hid : plan.id = id
    · exact body_forget (body_mono (fun t ht => ⟨ht.1, hread t ht.2⟩) (hpass plan hid))
    · -- the row that is found has the id that was asked for
      refine body_absurd fun t ht => hid ?_
      have hkey := find?_some_key (hread t ht.2)
      exact hkey

theorem body_checkPurchaseLimit {k : Except String Unit → PayProg (Except String α)}
    (hguard : Guards payEngine ws p)
    (hfail : ∀ x ws p facts, PayBody tx ok P ws p facts (k (.error x)))
    (hpass : ∀ more : List (Sigma PayAnswer),
      (0 < plan.maxPurchasePerUser → ∃ n : ℕ, ⟨.sub (.countByPlan userId plan.id), n⟩ ∈ more ∧
        (n : ℤ) < plan.maxPurchasePerUser) →
      PayBody tx ok P ws p (facts ++ more) (k (.ok ()))) :
    PayBody tx ok P ws p facts (embed (checkPurchaseLimit tx userId plan) >>= k) := by
  unfold checkPurchaseLimit
  split
  · rw [embed_bind_bind]
    refine body_exec atFault_true hguard (fun x => hfail x _ _ _) ?_
    intro n vs t _ hexec
    cases hexec
    rw [append_nil]
    refine body_mono (fun _ h => h.1) ?_
    dsimp only
    split
    · exact hfail _ _ _ _
    next hcount =>
      exact hpass _ fun _ => ⟨_, mem_singleton_self _, not_le.mp hcount⟩
  next hmax =>
    have := hpass [] fun h => absurd h hmax
    rwa [append_nil] at this

theorem body_upgradeUserGroup {group : String}
    {k : Except String String → PayProg (Except String α)}
    (hguard : ∀ vs, Guards payEngine (ws ++ vs) p)
    (hfail : ∀ x ws p facts, PayBody tx ok P ws p facts (k (.error x)))
    (hpass : ∀ prev gs, (∀ g ∈ gs, ∃ name, g = .sub (.setUserGroup userId name)) →
      PayBody tx ok P (ws ++ gs) p facts (k (.ok prev))) :
    PayBody tx ok P ws p facts (embed (upgradeUserGroup tx userId group) >>= k) := by
  have hsame : ∀ prev, PayBody tx ok P ws p facts (k (.ok prev)) := by
    intro prev
    have := hpass prev [] (by simp)
    rwa [append_nil] at this
  unfold upgradeUserGroup
  split
  · exact hsame ""
  rw [embed_bind_bind]
  unfold getUserGroupByIdTx
  split
  · exact hfail _ _ _ _
  refine body_exec atFault_true (by simpa using hguard []) (fun x => hfail x _ _ _) ?_
  intro current vs t _ hexec
  have hvs : vs = [] := by
    cases hexec
    rfl
  rw [hvs, append_nil]
  refine body_mono (fun _ h => h.1) (body_forget ?_)
  dsimp only
  split
  · exact hsame ""
  rw [embed_bind_bind]
  refine body_exec atFault_true (by simpa using hguard []) (fun x => hfail x _ _ _) ?_
  intro b vs t _ hexec
  cases hexec
  refine body_mono (fun _ h => h.1) (body_forget ?_)
  exact hpass current _ (by simp)

theorem body_createSub {k : Except String Unit → PayProg (Except String α)}
    (hview : ∀ t, (applyAll payEngine ws t).sub.subs = t.sub.subs) (hguard : Guards payEngine ws p)
    (hfail : ∀ x ws p facts, PayBody tx ok P ws p facts (k (.error x)))
    (hpass : PayBody tx ok P (ws ++ [.sub (.createSub sub)])
      (fun t => p t ∧ t.sub.subs.find? sub.id = none) facts (k (.ok ()))) :
    PayBody tx ok P ws p facts (embed (createSub tx sub) >>= k) := by
  have hfree : ∀ {t : PayTables} {b : Unit} {vs : List PayWrite},
      execute (.subWrite (.createSub sub)) (applyAll payEngine ws t) = .ok (b, vs) →
      vs = [.sub (.createSub sub)] ∧ t.sub.subs.find? sub.id = none := by
    intro t b vs h
    simp only [execute] at h
    split at h
    next haccepts =>
      cases h
      refine ⟨rfl, ?_⟩
      rw [accepts, hview] at haccepts
      exact Option.isNone_iff_eq_none.mp haccepts
    · cases h
  refine body_exec atFault_true hguard (fun x => hfail x _ _ _) ?_
  intro b vs t _ hexec
  obtain ⟨rfl, -⟩ := hfree hexec
  exact body_forget (body_mono (fun t ht => ⟨ht.1, (hfree ht.2).2⟩) hpass)

structure Granted (id userId : ℤ) (plan : SubscriptionPlan) (vs : List PayWrite)
    (more : List (Sigma PayAnswer)) (sub : UserSubscription) : Prop where
  newId : sub.id = id
  ofUser : sub.userId = userId
  ofPlan : sub.planId = plan.id
  writes : ∃ gs, vs = gs ++ [.sub (.createSub sub)] ∧
    ∀ g ∈ gs, ∃ name, g = .sub (.setUserGroup userId name)
  limit : 0 < plan.maxPurchasePerUser → ∃ n : ℕ,
    ⟨.sub (.countByPlan userId plan.id), n⟩ ∈ more ∧ (n : ℤ) < plan.maxPurchasePerUser

theorem applyAll_groups {gs : List PayWrite}
    (h : ∀ g ∈ gs, ∃ name, g = .sub (.setUserGroup userId name)) (t : PayTables) :
    ∃ users, applyAll payEngine gs t = { t with sub := { t.sub with users := users } } := by
  induction gs generalizing t with
  | nil => exact ⟨t.sub.users, rfl⟩
  | cons g gs ih =>
    obtain ⟨name, rfl⟩ := h _ mem_cons_self
    obtain ⟨users, hu⟩ := ih (fun g' hg => h g' (mem_cons_of_mem _ hg))
      (applyPay (.sub (.setUserGroup userId name)) t)
    exact ⟨users, hu⟩

theorem body_grant {k : Except String UserSubscription → PayProg (Except String α)}
    (hview : ∀ t, (applyAll payEngine ws t).sub.subs = t.sub.subs)
    (hguard : ∀ vs, Guards payEngine (ws ++ vs) p)
    (hfail : ∀ x ws p facts, PayBody tx ok P ws p facts (k (.error x)))
    (hpass : ∀ vs more sub, Granted id userId plan vs more sub →
      PayBody tx ok P (ws ++ vs)
        (fun t => p t ∧ t.sub.subs.find? id = none) (facts ++ more) (k (.ok sub))) :
    PayBody tx ok P ws p facts
      (embed (createUserSubscriptionFromPlanTx zone tx id userId plan now) >>= k) := by
  unfold createUserSubscriptionFromPlanTx
  split
  · exact hfail _ _ _ _
  split
  · exact hfail _ _ _ _
  rw [embed_bind_bind]
  refine body_checkPurchaseLimit (by simpa using hguard []) (fun _ => hfail _) ?_
  intro more hlimit
  dsimp only
  split
  · exact hfail _ _ _ _
  rename_i endUnix hend
  rw [embed_bind_bind]
  refine body_upgradeUserGroup hguard (fun _ => hfail _) ?_
  intro prev gs hgs
  rw [embed_bind_bind]
  refine body_createSub ?_ (hguard gs) (fun _ => hfail _) ?_
  · intro t
    rw [applyAll_append]
    obtain ⟨users, hu⟩ := applyAll_groups hgs (applyAll payEngine ws t)
    rw [hu]
    exact hview t
  · rw [append_assoc]
    exact hpass _ more _ ⟨rfl, rfl, rfl, ⟨gs, rfl, hgs⟩, hlimit⟩

theorem held_createSub {t : PayTables} (h : t.sub.subs.find? sub.id = none) (u pl : ℤ) :
    held (applyPay (.sub (.createSub sub)) t) u pl =
      held t u pl + if sub.userId = u ∧ sub.planId = pl then 1 else 0 := by
  change ((t.sub.subs.insert sub).rows.filter _).length = _
  rw [insert_rows h, filter_append, length_append]
  by_cases hsub : sub.userId = u ∧ sub.planId = pl
  · simp [held, hsub]
  · simp [held, hsub]

section

variable {vs : List PayWrite} {more : List (Sigma PayAnswer)}
  (h : Granted id userId plan vs more sub)
include h

theorem Granted.effect {t : PayTables} (hfree : t.sub.subs.find? id = none) :
    ∃ s, applyAll payEngine vs t = { t with sub := s } ∧
      ∀ u pl, held (applyAll payEngine vs t) u pl =
        held t u pl + if userId = u ∧ plan.id = pl then 1 else 0 := by
  obtain ⟨gs, rfl, hgs⟩ := h.writes
  obtain ⟨users, hu⟩ := applyAll_groups hgs t
  have hid : t.sub.subs.find? sub.id = none := by rw [h.newId]; exact hfree
  refine ⟨applyWrite (.createSub sub) { t.sub with users := users }, ?_, ?_⟩
  · rw [applyAll_append, hu]
    rfl
  · intro u pl
    rw [applyAll_append, hu, ← h.ofUser, ← h.ofPlan]
    exact held_createSub (t := { t with sub := { t.sub with users := users } }) hid u pl

theorem Granted.topUps (t : PayTables) :
    (applyAll payEngine vs t).topUps = t.topUps := by
  obtain ⟨gs, rfl, hgs⟩ := h.writes
  obtain ⟨users, hu⟩ := applyAll_groups hgs t
  rw [applyAll_append, hu]
  rfl

end

end Rules

end SubscriptionGrants
