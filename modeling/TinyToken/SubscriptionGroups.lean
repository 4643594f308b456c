import TinyToken.SubscriptionTransactions

/-! User groups and upgrade subscriptions. A subscription whose plan has an upgrade group
moves the user into it and keeps the group found at that moment; the end of the
subscription moves the user back. A single snapshot restores the original group as long
as no upgrade is bought while another one is still in force. -/
namespace SubscriptionGroups

open GoText ProgramSteps ReadCommittedStore SubscriptionRows

variable (tx : TxId) (id now : ℤ) (userId : ℤ) (sub : UserSubscription) (t : Tables)

def getUserGroupByIdTx (userId : ℤ) : SubProg (Except String String) :=
  if userId ≤ 0 then pure (.error "invalid userId")
  else selectUserGroup tx userId

def downgradeUserGroupForSubscriptionTx (sub : UserSubscription) (now : ℤ) :
    SubProg (Except String String) :=
  let upgradeGroup := trimSpace sub.upgradeGroup
  if upgradeGroup = "" then pure (.ok "")
  else do
    match ← getUserGroupByIdTx tx sub.userId with
    | .error e => pure (.error e)
    | .ok currentGroup =>
      if currentGroup ≠ upgradeGroup then pure (.ok "")
      else
        match ← selectActiveUpgrade tx sub.userId now (some sub.id) with
        | .ok (some _) => pure (.ok "")
        | _ =>
          let prevGroup := trimSpace sub.prevUserGroup
          if prevGroup = "" ∨ prevGroup = currentGroup then pure (.ok "")
          else
            match ← setUserGroup tx sub.userId prevGroup with
            | .error e => pure (.error e)
            | .ok _ => pure (.ok prevGroup)

def checkPurchaseLimit (userId : ℤ) (plan : SubscriptionPlan) : SubProg (Except String Unit) :=
  if plan.maxPurchasePerUser > 0 then do
    match ← countByPlan tx userId plan.id with
    | .error e => pure (.error e)
    | .ok count =>
      if (count : ℤ) ≥ plan.maxPurchasePerUser then pure (.error "已达到该套餐购买上限")
      else pure (.ok ())
  else pure (.ok ())

/-- Moves the user into the group of the plan and returns the group to go back to. -/
def upgradeUserGroup (userId : ℤ) (upgradeGroup : String) : SubProg (Except String String) :=
  if upgradeGroup = "" then pure (.ok "")
  else do
    match ← getUserGroupByIdTx tx userId with
    | .error e => pure (.error e)
    | .ok currentGroup =>
      if currentGroup = upgradeGroup then pure (.ok "")
      else
        match ← setUserGroup tx userId upgradeGroup with
        | .error e => pure (.error e)
        | .ok _ => pure (.ok currentGroup)

def newSubscription (zone id userId now endUnix : ℤ) (plan : SubscriptionPlan)
    (prevGroup : String) : UserSubscription :=
  let nextReset := calcNextResetTime zone now plan endUnix
  { id := id
    userId := userId
    planId := plan.id
    amountTotal := plan.totalAmount
    amountUsed := 0
    startTime := now
    endTime := endUnix
    status := .active
    lastResetTime := if nextReset > 0 then now else 0
    nextResetTime := nextReset
    upgradeGroup := trimSpace plan.upgradeGroup
    prevUserGroup := prevGroup }

def createUserSubscriptionFromPlanTx (zone : ℤ) (tx : TxId) (id userId : ℤ)
    (plan : SubscriptionPlan) (now : ℤ) : SubProg (Except String UserSubscription) :=
  if plan.id = 0 then pure (.error "invalid plan")
  else if userId ≤ 0 then pure (.error "invalid user id")
  else do
    match ← checkPurchaseLimit tx userId plan with
    | .error e => pure (.error e)
    | .ok _ =>
      match calcPlanEndTime zone now plan with
      | .error e => pure (.error e)
      | .ok endUnix =>
        match ← upgradeUserGroup tx userId (trimSpace plan.upgradeGroup) with
        | .error e => pure (.error e)
        | .ok prevGroup =>
          let sub := newSubscription zone id userId now endUnix plan prevGroup
          match ← createSub tx sub with
          | .error e => pure (.error e)
          | .ok _ => pure (.ok sub)

def downgradeMessage (downgradeGroup : String) : String :=
  if downgradeGroup ≠ "" then "用户分组将回退到 " ++ downgradeGroup else ""

def invalidateBody (userSubscriptionId now : ℤ) : SubProg (Except String String) := do
  match ← selectSub tx userSubscriptionId with
  | .error e => pure (.error e)
  | .ok none => pure (.error "record not found")
  | .ok (some sub) =>
    match ← cancelSub tx userSubscriptionId now with
    | .error e => pure (.error e)
    | .ok _ => downgradeUserGroupForSubscriptionTx tx sub now

def adminInvalidateUserSubscription (userSubscriptionId now : ℤ) : SubProg (Except String String) :=
  if userSubscriptionId ≤ 0 then pure (.error "invalid userSubscriptionId")
  else do
    match ← transaction tx (invalidateBody tx userSubscriptionId now) with
    | .error e => pure (.error e)
    | .ok downgradeGroup => pure (.ok (downgradeMessage downgradeGroup))

def deleteBody (userSubscriptionId now : ℤ) : SubProg (Except String String) := do
  match ← selectSub tx userSubscriptionId with
  | .error e => pure (.error e)
  | .ok none => pure (.error "record not found")
  | .ok (some sub) =>
    match ← downgradeUserGroupForSubscriptionTx tx sub now with
    | .error e => pure (.error e)
    | .ok target =>
      match ← deleteSub tx userSubscriptionId with
      | .error e => pure (.error e)
      | .ok _ => pure (.ok target)

def adminDeleteUserSubscription (userSubscriptionId now : ℤ) : SubProg (Except String String) :=
  if userSubscriptionId ≤ 0 then pure (.error "invalid userSubscriptionId")
  else do
    match ← transaction tx (deleteBody tx userSubscriptionId now) with
    | .error e => pure (.error e)
    | .ok downgradeGroup => pure (.ok (downgradeMessage downgradeGroup))

def downgradeToLastExpired (userId : ℤ) (lastExpired : UserSubscription) :
    SubProg (Except String Unit) :=
  let upgradeGroup := trimSpace lastExpired.upgradeGroup
  let prevGroup := trimSpace lastExpired.prevUserGroup
  if upgradeGroup = "" ∨ prevGroup = "" then pure (.ok ())
  else do
    match ← getUserGroupByIdTx tx userId with
    | .error e => pure (.error e)
    | .ok currentGroup =>
      if currentGroup ≠ upgradeGroup ∨ currentGroup = prevGroup then pure (.ok ())
      else setUserGroup tx userId prevGroup

def expireUser (now userId : ℤ) : SubProg (Except String Unit) := do
  match ← expireSubs tx userId now with
  | .error e => pure (.error e)
  | .ok _ =>
    match ← selectActiveUpgrade tx userId now none with
    | .ok (some _) => pure (.ok ())
    | _ =>
      match ← selectLastExpired tx userId with
      | .ok (some lastExpired) => downgradeToLastExpired tx userId lastExpired
      | _ => pure (.ok ())

def expireUsers (tx : TxId) (now : ℤ) : List ℤ → SubProg (Except String Unit)
  | [] => pure (.ok ())
  | userId :: userIds => do
    match ← transaction tx (expireUser tx now userId) with
    | .error e => pure (.error e)
    | .ok _ => expireUsers tx now userIds

/-- The users of the due subscriptions, in the iteration order of a map. The number of
expired rows that goes back to the caller's batching is left out. -/
def expireDueSubscriptions (order : List ℤ → List ℤ) (limit now : ℤ) :
    SubProg (Except String Unit) := do
  match ← selectDueSubs tx now (if limit ≤ 0 then 200 else limit.toNat) with
  | .error e => pure (.error e)
  | .ok subs =>
    expireUsers tx now (order ((subs.map UserSubscription.userId).filter (· > 0)).dedup)

def groupOf (t : Tables) (userId : ℤ) : String := answer (.userGroup userId) t

def activeUpgrade (t : Tables) (userId now : ℤ) (apart : Option ℤ) : Option UserSubscription :=
  answer (.activeUpgrade userId now apart) t

def lastExpired (t : Tables) (userId : ℤ) : Option UserSubscription :=
  answer (.lastExpired userId) t

section Statements

variable {α : Type} {P : α → Tables → Prop} {t : Tables} {tx : TxId}

theorem wp_selectUserGroup {userId : ℤ} {k : Except String String → SubProg α}
    (h : wp (direct engine) (k (.ok (groupOf t userId))) P t) :
    wp (direct engine) (selectUserGroup tx userId >>= k) P t := wp_direct_query h

variable {k : Except String (Option UserSubscription) → SubProg α}

theorem wp_selectActiveUpgrade {userId now : ℤ} {apart : Option ℤ}
    (h : wp (direct engine) (k (.ok (activeUpgrade t userId now apart))) P t) :
    wp (direct engine) (selectActiveUpgrade tx userId now apart >>= k) P t := wp_direct_query h

theorem wp_selectLastExpired {userId : ℤ}
    (h : wp (direct engine) (k (.ok (lastExpired t userId))) P t) :
    wp (direct engine) (selectLastExpired tx userId >>= k) P t := wp_direct_query h

theorem wp_selectSub {id : ℤ} (h : wp (direct engine) (k (.ok (t.subs.find? id))) P t) :
    wp (direct engine) (selectSub tx id >>= k) P t := wp_direct_query h

theorem wp_setUserGroup {userId : ℤ} {group : String} {k : Except String Unit → SubProg α}
    (h : wp (direct engine) (k (.ok ())) P (applyWrite (.setUserGroup userId group) t)) :
    wp (direct engine) (setUserGroup tx userId group >>= k) P t :=
  wp_direct_write (fun _ => h) (nofun)

end Statements

/-- The tables with a user moved to a group; the empty text stands for no move. -/
def regrouped (t : Tables) (userId : ℤ) (group : String) : Tables :=
  if group = "" then t else applyWrite (.setUserGroup userId group) t

def fallback (t : Tables) (sub : UserSubscription) (now : ℤ) : String :=
  if trimSpace sub.upgradeGroup = "" then ""
  else if groupOf t sub.userId ≠ trimSpace sub.upgradeGroup then ""
  else if (activeUpgrade t sub.userId now (some sub.id)).isSome then ""
  else if trimSpace sub.prevUserGroup = "" ∨
      trimSpace sub.prevUserGroup = groupOf t sub.userId then ""
  else trimSpace sub.prevUserGroup

theorem wp_downgrade (now : ℤ) (t : Tables) :
    wp (direct engine) (downgradeUserGroupForSubscriptionTx tx sub now) (fun r t' =>
      ∀ g, r = Except.ok g → g = fallback t sub now ∧
        t' = regrouped t sub.userId (fallback t sub now)) t := by
  have stays : fallback t sub now = "" →
      wp (direct engine) (pure (.ok "") : SubProg (Except String String)) (fun r t' =>
        ∀ g, r = .ok g → g = fallback t sub now ∧
          t' = regrouped t sub.userId (fallback t sub now)) t := by
    intro h
    refine wp_pure.mpr ?_
    intro g hg
    cases hg
    exact ⟨h.symm, by rw [h]; rfl⟩
  unfold downgradeUserGroupForSubscriptionTx getUserGroupByIdTx
  dsimp only
  split
  · rename_i hup
    exact stays (by simp [fallback, hup])
  rename_i hup
  split
  · exact wp_pure.mpr nofun
  refine wp_selectUserGroup ?_
  dsimp only
  split
  · rename_i hgroup
    exact stays (by simp [fallback, hgroup])
  rename_i hgroup
  refine wp_selectActiveUpgrade ?_
  cases hactive : activeUpgrade t sub.userId now (some sub.id) with
  | some b => exact stays (by simp [fallback, hactive])
  | none =>
    have hfall : fallback t sub now = if trimSpace sub.prevUserGroup = "" ∨
        trimSpace sub.prevUserGroup = groupOf t sub.userId then ""
        else trimSpace sub.prevUserGroup := by
      simp only [fallback, hup, hgroup, hactive, if_false, Option.isSome_none, Bool.false_eq_true]
    dsimp only
    split
    · rename_i hprev
      exact stays (by rw [hfall, if_pos hprev])
    · rename_i hprev
      rw [if_neg hprev] at hfall
      refine wp_setUserGroup (wp_pure.mpr ?_)
      intro g hg
      cases hg
      refine ⟨hfall.symm, ?_⟩
      rw [hfall, regrouped, if_neg (fun h => hprev (.inl h))]

def cancelled (t : Tables) (id now : ℤ) : Tables := applyWrite (.cancelSub id now) t

theorem wp_invalidateBody :
    wp (direct engine) (invalidateBody tx id now) (fun r t' => ∀ g, r = Except.ok g →
      ∃ sub, t.subs.find? id = some sub ∧ t' = regrouped (cancelled t id now) sub.userId
        (fallback (cancelled t id now) sub now)) t := by
  apply wp_selectSub
  cases hsub : t.subs.find? id with
  | none => exact wp_pure.mpr nofun
  | some sub =>
    refine wp_direct_write (fun _ => ?_) (nofun)
    refine wp_mono (wp_downgrade tx sub now (cancelled t id now)) ?_
    intro r t' h g hg
    exact ⟨sub, rfl, (h g hg).2⟩

theorem wp_deleteBody :
    wp (direct engine) (deleteBody tx id now) (fun r t' => ∀ g, r = Except.ok g →
      ∃ sub, t.subs.find? id = some sub ∧
        t' = applyWrite (.deleteSub id) (regrouped t sub.userId (fallback t sub now))) t := by
  apply wp_selectSub
  cases hsub : t.subs.find? id with
  | none => exact wp_pure.mpr nofun
  | some sub =>
    refine wp_bind.mpr (wp_mono (wp_downgrade tx sub now t) ?_)
    rintro (e | g) t' h
    · exact wp_pure.mpr nofun
    · refine wp_direct_write (fun _ => wp_pure.mpr ?_) (nofun)
      intro g' _
      refine ⟨sub, rfl, ?_⟩
      rw [(h g rfl).2]
      rfl

def expiryFallback (t : Tables) (userId now : ℤ) : String :=
  match activeUpgrade t userId now none, lastExpired t userId with
  | none, some sub =>
    if trimSpace sub.upgradeGroup = "" ∨ groupOf t userId ≠ trimSpace sub.upgradeGroup ∨
        groupOf t userId = trimSpace sub.prevUserGroup then ""
    else trimSpace sub.prevUserGroup
  | _, _ => ""

def expired (t : Tables) (userId now : ℤ) : Tables := applyWrite (.expireSubs userId now) t

theorem wp_downgradeToLastExpired {tx : TxId} {now userId : ℤ} {t : Tables}
    {sub : UserSubscription} (hactive : activeUpgrade t userId now none = none)
    (hlast : lastExpired t userId = some sub) :
    wp (direct engine) (downgradeToLastExpired tx userId sub) (fun r t' =>
      r = Except.ok () → t' = regrouped t userId (expiryFallback t userId now)) t := by
  have hfall : expiryFallback t userId now =
      if trimSpace sub.upgradeGroup = "" ∨ groupOf t userId ≠ trimSpace sub.upgradeGroup ∨
        groupOf t userId = trimSpace sub.prevUserGroup then ""
      else trimSpace sub.prevUserGroup := by
    simp only [expiryFallback, hactive, hlast]
  unfold downgradeToLastExpired getUserGroupByIdTx
  dsimp only
  split
  next hempty =>
    refine wp_pure.mpr fun _ => ?_
    have hnone : expiryFallback t userId now = "" := by
      rw [hfall]
      split
      · rfl
      next h =>
        exact hempty.resolve_left fun e => h (.inl e)
    rw [hnone]
    rfl
  rename_i hempty
  simp only [not_or] at hempty
  split
  · exact wp_pure.mpr nofun
  apply wp_selectUserGroup
  dsimp only
  split
  next hstay =>
    refine wp_pure.mpr fun _ => ?_
    rw [hfall, if_pos (.inr hstay)]
    rfl
  next hmove =>
    refine wp_setUserGroup (k := pure) (wp_pure.mpr fun _ => ?_)
    rw [hfall, if_neg (fun h => h.elim hempty.1 hmove), regrouped, if_neg hempty.2]

theorem wp_expireUser (now userId : ℤ) (t : Tables) :
    wp (direct engine) (expireUser tx now userId) (fun r t' => r = Except.ok () →
      t' = regrouped (expired t userId now) userId
        (expiryFallback (expired t userId now) userId now)) t := by
  refine wp_direct_write (fun _ => ?_) (nofun)
  change wp _ _ _ (expired t userId now)
  apply wp_selectActiveUpgrade
  cases hactive : activeUpgrade (expired t userId now) userId now none with
  | some b =>
    refine wp_pure.mpr fun _ => ?_
    simp only [expiryFallback, hactive]
    rfl
  | none =>
    apply wp_selectLastExpired
    cases hlast : lastExpired (expired t userId now) userId with
    | none =>
      refine wp_pure.mpr fun _ => ?_
      simp only [expiryFallback, hactive, hlast]
      rfl
    | some sub => exact wp_downgradeToLastExpired hactive hlast

def upgraded (t : Tables) (userId : ℤ) (upgradeGroup : String) : Tables × String :=
  if upgradeGroup = "" ∨ groupOf t userId = upgradeGroup then (t, "")
  else (regrouped t userId upgradeGroup, groupOf t userId)

theorem wp_checkPurchaseLimit (plan : SubscriptionPlan) (t : Tables) :
    wp (direct engine) (checkPurchaseLimit tx userId plan) (fun _ t' => t' = t) t := by
  unfold checkPurchaseLimit
  split
  · apply wp_direct_query
    change wp _ (if ((t.subs.rows.filter _).length : ℤ) ≥ _ then _ else _) _ _
    split <;> exact wp_pure.mpr rfl
  · exact wp_pure.mpr rfl

theorem wp_upgradeUserGroup (upgradeGroup : String) (t : Tables) :
    wp (direct engine) (upgradeUserGroup tx userId upgradeGroup) (fun r t' =>
      ∀ g, r = Except.ok g → (t', g) = upgraded t userId upgradeGroup) t := by
  unfold upgradeUserGroup getUserGroupByIdTx upgraded
  split
  next hempty =>
    refine wp_pure.mpr fun g hg => ?_
    cases hg
    rw [if_pos (.inl hempty)]
  rename_i hempty
  split
  · exact wp_pure.mpr nofun
  apply wp_selectUserGroup
  dsimp only
  split
  next hsame =>
    refine wp_pure.mpr fun g hg => ?_
    cases hg
    rw [if_pos (.inr hsame)]
  next hmove =>
    refine wp_setUserGroup (wp_pure.mpr fun g hg => ?_)
    cases hg
    rw [if_neg (fun h => h.elim hempty hmove), regrouped, if_neg hempty]

structure Created (zone now id userId : ℤ) (plan : SubscriptionPlan) (t : Tables)
    (sub : UserSubscription) (t' : Tables) : Prop where
  row : ∃ endUnix, calcPlanEndTime zone now plan = .ok endUnix ∧
    sub = newSubscription zone id userId now endUnix plan
      (upgraded t userId (trimSpace plan.upgradeGroup)).2
  unused : t.subs.find? id = none
  tables : t' = applyWrite (.createSub sub) (upgraded t userId (trimSpace plan.upgradeGroup)).1

theorem wp_createUserSubscriptionFromPlanTx (zone : ℤ) (tx : TxId) (id userId : ℤ)
    (plan : SubscriptionPlan) (now : ℤ) (t : Tables) :
    wp (direct engine) (createUserSubscriptionFromPlanTx zone tx id userId plan now) (fun r t' =>
      ∀ sub, r = Except.ok sub → Created zone now id userId plan t sub t') t := by
  have refused : ∀ (e : String) (t₁ : Tables), wp (direct engine)
      (pure (.error e) : SubProg (Except String UserSubscription)) (fun r t' =>
        ∀ sub, r = .ok sub → Created zone now id userId plan t sub t') t₁ :=
    fun e t₁ => wp_pure.mpr nofun
  unfold createUserSubscriptionFromPlanTx
  split
  · exact refused _ t
  split
  · exact refused _ t
  refine wp_bind.mpr (wp_mono (wp_checkPurchaseLimit tx userId plan t) ?_)
  rintro (e | _) t₁ rfl
  · exact refused e t₁
  cases hend : calcPlanEndTime zone now plan with
  | error e => exact refused e t₁
  | ok endUnix =>
    refine wp_bind.mpr (wp_mono (wp_upgradeUserGroup tx userId _ t₁) ?_)
    rintro (e | prev) t₂ hup
    · exact refused e t₂
    have hsubs : t₂.subs = t₁.subs := by
      rw [show t₂ = (upgraded t₁ userId (trimSpace plan.upgradeGroup)).1 by rw [← hup prev rfl]]
      unfold upgraded regrouped
      split
      · rfl
      · split <;> rfl
    refine wp_direct_write (fun haccept => wp_pure.mpr ?_) (fun _ => wp_pure.mpr ?_)
    · intro sub hs
      cases hs
      have hnone : (t₂.subs.find? id).isNone = true := haccept
      refine ⟨⟨endUnix, hend, ?_⟩, ?_, ?_⟩
      · rw [← hup prev rfl]
      · rw [← hsubs]
        exact Option.isNone_iff_eq_none.mp hnone
      · rw [← hup prev rfl]
        rfl
    · intro sub hs
      cases hs

theorem within_getUserGroupByIdTx : Within tx (getUserGroupByIdTx tx userId) := by
  unfold getUserGroupByIdTx
  split
  · trivial
  · exact within_query _

theorem within_downgrade (now : ℤ) :
    Within tx (downgradeUserGroupForSubscriptionTx tx sub now) := by
  unfold downgradeUserGroupForSubscriptionTx
  dsimp only
  split
  · trivial
  apply (within_getUserGroupByIdTx tx _).bind
  rintro (e | group)
  · trivial
  dsimp only
  split
  · trivial
  apply (within_query _).bind
  have falls : Within tx (if trimSpace sub.prevUserGroup = "" ∨
      trimSpace sub.prevUserGroup = group then pure (.ok "")
      else do
        match ← setUserGroup tx sub.userId (trimSpace sub.prevUserGroup) with
        | .error e => pure (.error e)
        | .ok _ => pure (.ok (trimSpace sub.prevUserGroup)) : SubProg (Except String String)) := by
    split
    · trivial
    · apply (within_write _).bind
      rintro (e | _) <;> trivial
  rintro (e | _ | b)
  · exact falls
  · exact falls
  · trivial

theorem within_checkPurchaseLimit (plan : SubscriptionPlan) :
    Within tx (checkPurchaseLimit tx userId plan) := by
  unfold checkPurchaseLimit
  split
  · apply (within_query _).bind
    rintro (e | (count : ℕ))
    · trivial
    · dsimp only
      split <;> trivial
  · trivial

theorem within_upgradeUserGroup (upgradeGroup : String) :
    Within tx (upgradeUserGroup tx userId upgradeGroup) := by
  unfold upgradeUserGroup
  split
  · trivial
  apply (within_getUserGroupByIdTx tx _).bind
  rintro (e | group)
  · trivial
  dsimp only
  split
  · trivial
  apply (within_write _).bind
  rintro (e | _) <;> trivial

theorem within_createUserSubscriptionFromPlanTx (zone : ℤ) (tx : TxId) (id userId : ℤ)
    (plan : SubscriptionPlan) (now : ℤ) :
    Within tx (createUserSubscriptionFromPlanTx zone tx id userId plan now) := by
  unfold createUserSubscriptionFromPlanTx
  split
  · trivial
  split
  · trivial
  apply (within_checkPurchaseLimit tx userId plan).bind
  rintro (e | _)
  · trivial
  dsimp only
  split
  · trivial
  apply (within_upgradeUserGroup tx userId _).bind
  rintro (e | prev)
  · trivial
  apply (within_write _).bind
  rintro (e | _) <;> trivial

theorem within_invalidateBody : Within tx (invalidateBody tx id now) := by
  apply (within_query _).bind
  rintro (e | _ | sub)
  · trivial
  · trivial
  apply (within_write _).bind
  rintro (e | _)
  · trivial
  · exact within_downgrade tx sub now

theorem within_deleteBody : Within tx (deleteBody tx id now) := by
  apply (within_query _).bind
  rintro (e | _ | sub)
  · trivial
  · trivial
  apply (within_downgrade tx sub now).bind
  rintro (e | target)
  · trivial
  apply (within_write _).bind
  rintro (e | _) <;> trivial

theorem within_downgradeToLastExpired : Within tx (downgradeToLastExpired tx userId sub) := by
  unfold downgradeToLastExpired
  dsimp only
  split
  · trivial
  apply (within_getUserGroupByIdTx tx _).bind
  rintro (e | group)
  · trivial
  dsimp only
  split
  · trivial
  · exact within_write _

theorem within_expireUser (now userId : ℤ) : Within tx (expireUser tx now userId) := by
  apply (within_write _).bind
  rintro (e | _)
  · trivial
  have last : Within tx (do
      match ← selectLastExpired tx userId with
      | .ok (some lastExpired) => downgradeToLastExpired tx userId lastExpired
      | _ => pure (.ok ()) : SubProg (Except String Unit)) := by
    apply (within_query _).bind
    rintro (e | _ | sub)
    · trivial
    · trivial
    · exact within_downgradeToLastExpired tx userId sub
  apply (within_query _).bind
  rintro (e | _ | b)
  · exact last
  · exact last
  · trivial

end SubscriptionGroups
