import TinyToken.BillingSession
import TinyToken.CheckThenAct
import TinyToken.ProgramMonitors

/-! Concurrent advance charges. A request compares what it needs with a quota it has read,
from a cache or from a row that lacks the batched changes, and lowers the quota later by a
relative update that checks nothing. What all requests together can take is bounded by the
quota only as far as the values read were not above it when they were used. -/
namespace BillingOvercommit

open ProgramSteps InterleavedPrograms ProgramMonitors Monitor ReadCommittedStore SubscriptionRows
  SubscriptionTransactions BillingStore BillingAccounts BillingSession CheckThenAct Option Function

structure Books where
  userRead : Option ℤ
  tokenRead : Option ℤ
  walletTaken : ℤ
  tokenTaken : ℤ

def Books.empty : Books := ⟨none, none, 0, 0⟩

variable (info : RelayInfo) (b : Books)

def Books.sawUser : Except String ℤ → Books
  | .ok quota => { b with userRead := some quota }
  | .error _ => b

def Books.sawToken : Except String ℤ → Books
  | .ok remain => { b with tokenRead := some remain }
  | .error _ => b

def found : Except String (Option ℤ) → Except String ℤ
  | .ok (some q) => .ok q
  | .ok none => .error "record not found"
  | .error e => .error e

def Books.changedWallet (delta : ℤ) : Except String Unit → Books
  | .ok _ => { b with walletTaken := b.walletTaken - delta }
  | .error _ => b

def Books.changedToken (delta : ℤ) : Except String Unit → Books
  | .ok _ => { b with tokenTaken := b.tokenTaken - delta }
  | .error _ => b

def Books.note : (o : BillOp) → BillRes o → Books
  | .cachedUser _, r => b.sawUser r
  | .selectUser _, r => b.sawUser (found r)
  | .selectUserQuota _, r => b.sawUser r
  | .updateUserQuota _ _ delta, r => b.changedWallet delta r
  | .batchUserQuota _ delta, _ => b.changedWallet delta (.ok ())
  | .cachedToken _, r => b.sawToken r
  | .selectToken _, r => b.sawToken (found r)
  | .updateTokenQuota _ _ delta, r => b.changedToken delta r
  | .batchTokenQuota _ delta, _ => b.changedToken delta (.ok ())
  | _, _ => b

def Covered (read : Option ℤ) (delta : ℤ) : Prop := delta < 0 ∧ ∃ q, read = some q ∧ -delta ≤ q

/-- The change of a token's quota: a charge, checked unless the token is unlimited, or the
return of something taken before. -/
def TokenMove (delta : ℤ) : Prop :=
  (delta < 0 ∧ (info.tokenUnlimited = false → Covered b.tokenRead delta)) ∨
    (0 ≤ delta ∧ delta ≤ b.tokenTaken)

def Books.allows : BillOp → Prop
  | .updateUserQuota _ id delta => id = info.userId ∧ Covered b.userRead delta
  | .batchUserQuota id delta => id = info.userId ∧ Covered b.userRead delta
  | .updateTokenQuota _ id delta => id = info.tokenId ∧ TokenMove info b delta
  | .batchTokenQuota id delta => id = info.tokenId ∧ TokenMove info b delta
  | _ => True

def books : Monitor BillOp BillRes Books := ⟨Books.note, Books.allows info⟩

section Programs

variable {cfg : Config} {c : Context} {info : RelayInfo} {b : Books}

theorem holds_spawn {task : CacheTask} {Q : Unit → Books → Prop} (h : Q () b) :
    (books info).holds (spawn cfg task) Q b := by
  unfold spawn
  split
  · exact ⟨trivial, fun _ => h⟩
  · exact h

variable (id : ℤ) (purpose : Purpose) {s : Session} {quota : ℤ} (key : String)

theorem holds_onStore {α : Type} (p : SubProg α) :
    (books info).holds (onStore purpose p) (fun _ b' => b' = b) b := by
  induction p with
  | pure a => rfl
  | op o k ih => exact ⟨trivial, ih⟩
  | diverge => trivial

def ReadUser (b : Books) (r : Except String ℤ) (b' : Books) : Prop :=
  ∃ x, b' = { b with userRead := x } ∧ ∀ q, r = .ok q → x = some q

theorem readUser_saw (b : Books) (r : Except String ℤ) : ReadUser b r (b.sawUser r) := by
  cases r with
  | error e => exact ⟨b.userRead, rfl, nofun⟩
  | ok q =>
    refine ⟨some q, rfl, ?_⟩
    intro q' h
    cases h
    rfl

theorem ReadUser.trans {b' b'' : Books} {r r' : Except String ℤ} (h : ReadUser b r b')
    (h' : ReadUser b' r' b'') : ReadUser b r' b'' := by
  obtain ⟨x, rfl, -⟩ := h
  obtain ⟨y, rfl, hy⟩ := h'
  exact ⟨y, rfl, hy⟩

theorem holds_getUserById : (books info).holds (getUserById id) (ReadUser b) b := by
  unfold getUserById
  split
  · exact ⟨b.userRead, rfl, nofun⟩
  · refine ⟨trivial, fun r => ?_⟩
    rcases r with e | _ | q
    · exact readUser_saw b (.error e)
    · exact readUser_saw b (.error "record not found")
    · exact readUser_saw b (.ok q)

theorem holds_cacheGetUserBase : (books info).holds (cacheGetUserBase cfg id) (ReadUser b) b := by
  unfold cacheGetUserBase
  split
  · exact ⟨trivial, fun r => readUser_saw b r⟩
  · exact ⟨b.userRead, rfl, nofun⟩

theorem holds_getUserCache : (books info).holds (getUserCache cfg id) (ReadUser b) b := by
  apply holds_bind
  apply holds_mono (holds_cacheGetUserBase id)
  rintro (e | q) b' hcached
  · apply holds_bind
    apply holds_mono (holds_getUserById id)
    rintro (e' | q) b'' hrow
    · exact hcached.trans hrow
    · exact holds_bind (holds_spawn (hcached.trans hrow))
  · exact hcached

theorem holds_getUserQuotaFromDb :
    (books info).holds (getUserQuotaFromDb cfg id) (ReadUser b) b := by
  refine holds_bind (holds_perform.mpr ⟨trivial, fun r => ?_⟩)
  have hread := readUser_saw b r
  rcases r with e | q
  · exact hread
  · exact holds_bind (holds_spawn hread)

theorem holds_getUserQuota (fromDB : Bool) :
    (books info).holds (getUserQuota cfg id fromDB) (ReadUser b) b := by
  unfold getUserQuota
  split
  · apply holds_bind
    apply holds_mono (holds_getUserCache id)
    rintro (e | q) b' hcached
    · apply holds_mono (holds_getUserQuotaFromDb id)
      exact fun r b'' hrow => hcached.trans hrow
    · exact hcached
  · exact holds_getUserQuotaFromDb id

def ReadToken (b : Books) (r : Except String ℤ) (b' : Books) : Prop :=
  ∃ x, b' = { b with tokenRead := x } ∧ ∀ q, r = .ok q → x = some q

theorem readToken_saw (b : Books) (r : Except String ℤ) : ReadToken b r (b.sawToken r) := by
  cases r with
  | error e => exact ⟨b.tokenRead, rfl, nofun⟩
  | ok q =>
    refine ⟨some q, rfl, ?_⟩
    intro q' h
    cases h
    rfl

theorem ReadToken.trans {b' b'' : Books} {r r' : Except String ℤ} (h : ReadToken b r b')
    (h' : ReadToken b' r' b'') : ReadToken b r' b'' := by
  obtain ⟨x, rfl, -⟩ := h
  obtain ⟨y, rfl, hy⟩ := h'
  exact ⟨y, rfl, hy⟩

theorem holds_getTokenFromDb : (books info).holds (getTokenFromDb cfg key) (ReadToken b) b := by
  refine holds_bind (holds_perform.mpr ⟨trivial, fun r => ?_⟩)
  rcases r with e | _ | q
  · exact readToken_saw b (.error e)
  · exact readToken_saw b (.error "record not found")
  · exact holds_bind (holds_spawn (readToken_saw b (.ok q)))

theorem holds_getTokenByKey (fromDB : Bool) :
    (books info).holds (getTokenByKey cfg key fromDB) (ReadToken b) b := by
  unfold getTokenByKey
  split
  · refine ⟨trivial, fun r => ?_⟩
    have hread := readToken_saw b r
    rcases r with e | q
    · apply holds_mono (holds_getTokenFromDb key)
      exact fun r b' hrow => hread.trans hrow
    · exact hread
  · exact holds_getTokenFromDb key

def Changed (b b₁ : Books) (r : Except String Unit) (b' : Books) : Prop :=
  (r = .ok () ∧ b' = b₁) ∨ ((∃ e, r = .error e) ∧ b' = b)

theorem holds_changeUserQuota {id delta : ℤ} (db : Bool) (hid : id = info.userId)
    (hcov : Covered b.userRead delta) :
    (books info).holds (changeUserQuota cfg purpose id delta db)
      (Changed b { b with walletTaken := b.walletTaken - delta }) b := by
  refine holds_bind (holds_spawn ?_)
  split
  · exact ⟨⟨hid, hcov⟩, fun _ => .inl ⟨rfl, rfl⟩⟩
  · refine ⟨⟨hid, hcov⟩, ?_⟩
    rintro (e | u)
    · exact .inr ⟨⟨e, rfl⟩, rfl⟩
    · exact .inl ⟨rfl, rfl⟩

theorem holds_changeTokenQuota {id delta : ℤ} (hid : id = info.tokenId)
    (hmove : TokenMove info b delta) :
    (books info).holds (changeTokenQuota cfg purpose id key delta)
      (Changed b { b with tokenTaken := b.tokenTaken - delta }) b := by
  refine holds_bind (holds_spawn ?_)
  split
  · exact ⟨⟨hid, hmove⟩, fun _ => .inl ⟨rfl, rfl⟩⟩
  · refine ⟨⟨hid, hmove⟩, ?_⟩
    rintro (e | u)
    · exact .inr ⟨⟨e, rfl⟩, rfl⟩
    · exact .inl ⟨rfl, rfl⟩

def SameAccounts (info info' : RelayInfo) : Prop :=
  info'.userId = info.userId ∧ info'.tokenId = info.tokenId ∧
    info'.tokenUnlimited = info.tokenUnlimited ∧ info'.isPlayground = info.isPlayground

/-- What the token has been charged covers the amount, unless it is not charged at all. -/
def TokenPaid (info : RelayInfo) (amount : ℤ) (b : Books) : Prop :=
  info.isPlayground = false → amount ≤ b.tokenTaken

def NothingOwed (b : Books) : Prop := 0 ≤ b.walletTaken ∧ 0 ≤ b.tokenTaken

def TokenCharged (info : RelayInfo) (quota : ℤ) (b : Books) (r : Except String Unit) (b' : Books) :
    Prop :=
  b'.userRead = b.userRead ∧ b'.walletTaken = b.walletTaken ∧ 0 ≤ b'.tokenTaken ∧
    (r = .ok () → TokenPaid info quota b')

variable {info' : RelayInfo}

theorem holds_preConsumeTokenQuota (hsame : SameAccounts info info') (hquota : 0 < quota)
    (hb : 0 ≤ b.tokenTaken) :
    (books info).holds (preConsumeTokenQuota cfg info' quota) (TokenCharged info quota b) b := by
  obtain ⟨-, htoken, hunlimited, hplay⟩ := hsame
  unfold preConsumeTokenQuota
  rw [if_neg (by omega)]
  split
  next hplayground =>
    refine ⟨rfl, rfl, hb, fun _ hno => ?_⟩
    rw [← hplay, hplayground] at hno
    cases hno
  · apply holds_bind
    apply holds_mono (holds_getTokenByKey info'.tokenKey false)
    rintro (e | remain) b' ⟨x, rfl, hx⟩
    · exact ⟨rfl, rfl, hb, nofun⟩
    · dsimp only
      split
      · exact ⟨rfl, rfl, hb, nofun⟩
      next henough =>
        obtain rfl := hx remain rfl
        have hcov : TokenMove info { b with tokenRead := some remain } (-quota) := by
          refine .inl ⟨by omega, fun hlimited => ⟨by omega, remain, rfl, ?_⟩⟩
          have hnot : ¬ remain < quota := fun hlt => henough ⟨hunlimited.trans hlimited, hlt⟩
          omega
        unfold decreaseTokenQuota
        rw [if_neg (by omega)]
        apply holds_mono (holds_changeTokenQuota .ordinary info'.tokenKey htoken hcov)
        rintro r b'' (⟨rfl, rfl⟩ | ⟨⟨e, rfl⟩, rfl⟩)
        · refine ⟨rfl, rfl, ?_, fun _ _ => ?_⟩ <;> dsimp only <;> omega
        · exact ⟨rfl, rfl, hb, nofun⟩

theorem holds_wallet_preConsume {w : WalletFunding} {amount : ℤ} (hid : w.userId = info.userId)
    (hread : ∃ q, b.userRead = some q ∧ amount ≤ q) (hb : 0 ≤ b.walletTaken) :
    (books info).holds (w.preConsume cfg amount) (fun r b' => b'.tokenTaken = b.tokenTaken ∧
      0 ≤ b'.walletTaken ∧ ∀ w', r = .ok w' → amount ≤ b'.walletTaken) b := by
  unfold WalletFunding.preConsume
  split
  · exact ⟨rfl, hb, fun _ _ => by omega⟩
  · obtain ⟨q, hq, hle⟩ := hread
    have hcov : Covered b.userRead (-amount) := ⟨by omega, q, hq, by omega⟩
    apply holds_bind
    unfold decreaseUserQuota
    rw [if_neg (by omega)]
    apply holds_mono (holds_changeUserQuota .ordinary false hid hcov)
    rintro r b' (⟨rfl, rfl⟩ | ⟨⟨e, rfl⟩, rfl⟩)
    · refine ⟨rfl, ?_, fun _ _ => ?_⟩ <;> dsimp only <;> omega
    · exact ⟨rfl, hb, nofun⟩

theorem holds_getPlanInfo :
    (books info).holds (getSubscriptionPlanInfoByUserSubscriptionId c id) (fun _ b' => b' = b) b := by
  unfold getSubscriptionPlanInfoByUserSubscriptionId
  split
  · rfl
  · refine holds_bind (holds_perform.mpr ⟨trivial, fun r => ?_⟩)
    rcases r with _ | cached
    · apply holds_bind
      apply holds_mono (holds_onStore .ordinary (selectSub c.tx id))
      rintro (e | _ | sub) b' rfl
      · rfl
      · rfl
      · apply holds_bind
        apply holds_mono (holds_onStore .ordinary (getSubscriptionPlanByIdTx c.tx sub.planId))
        rintro (e | plan) b'' rfl
        · rfl
        · exact holds_bind (holds_perform.mpr ⟨trivial, fun _ => rfl⟩)
    · rfl

theorem holds_subscription_preConsume (s : SubscriptionFunding) :
    (books info).holds (s.preConsume cfg c) (fun _ b' => b' = b) b := by
  apply holds_bind
  apply holds_mono (holds_onStore .ordinary _)
  rintro (e | res) b' rfl
  · rfl
  · apply holds_bind
    apply holds_mono (holds_getPlanInfo res.userSubscriptionId)
    rintro (e | plan) b'' rfl <;> rfl

def Fundable (info : RelayInfo) (amount : ℤ) (b : Books) : FundingSource → Prop
  | .wallet w => w.userId = info.userId ∧ ∃ q, b.userRead = some q ∧ amount ≤ q
  | .subscription _ => True

def Funded (amount : ℤ) (b : Books) (f : FundingSource) : Prop :=
  f.source = .wallet → amount ≤ b.walletTaken

theorem holds_funding_preConsume {f : FundingSource} {amount : ℤ} (hf : Fundable info amount b f)
    (hb : NothingOwed b) :
    (books info).holds (f.preConsume cfg c amount) (fun r b' => b'.tokenTaken = b.tokenTaken ∧
      0 ≤ b'.walletTaken ∧ ∀ f', r = .ok f' → Funded amount b' f') b := by
  cases f with
  | wallet w =>
    apply holds_bind
    apply holds_mono (holds_wallet_preConsume hf.1 hf.2 hb.1)
    rintro (e | w') b' ⟨htoken, hwallet, hpaid⟩
    · exact ⟨htoken, hwallet, nofun⟩
    · exact ⟨htoken, hwallet, fun f' _ _ => hpaid w' rfl⟩
  | subscription s =>
    apply holds_bind
    apply holds_mono (holds_subscription_preConsume s)
    rintro (e | s') b' rfl
    · exact ⟨rfl, hb.1, nofun⟩
    · refine ⟨rfl, hb.1, ?_⟩
      intro f' h hwallet
      cases h
      cases hwallet

def Accounted (info : RelayInfo) (r : Except NewAPIError Session) (b : Books) : Prop :=
  NothingOwed b ∧ ∀ s, r = .ok s →
    Funded s.preConsumedQuota b s.funding ∧ TokenPaid info s.preConsumedQuota b

theorem accounted_error (e : NewAPIError) (h : NothingOwed b) : Accounted info (.error e) b :=
  ⟨h, fun s hs => by cases hs⟩

theorem holds_chargeFunding {effectiveQuota : ℤ} (hsame : SameAccounts info s.relayInfo)
    (hf : Fundable info effectiveQuota b s.funding) (hb : NothingOwed b)
    (htaken : TokenPaid info s.tokenConsumed b) (hpaid : TokenPaid info effectiveQuota b) :
    (books info).holds (s.chargeFunding cfg c effectiveQuota) (Accounted info) b := by
  obtain ⟨-, htoken, -, hplay⟩ := hsame
  apply holds_bind
  apply holds_mono (holds_funding_preConsume hf hb)
  rintro (e | f) b' ⟨hsameTaken, hwallet, hfunded⟩
  · have howed : NothingOwed b' := ⟨hwallet, hsameTaken ▸ hb.2⟩
    dsimp only
    split
    next hroll =>
      have hback : s.tokenConsumed ≤ b'.tokenTaken := hsameTaken ▸ htaken (hplay ▸ hroll.2)
      apply holds_bind
      unfold increaseTokenQuota
      rw [if_neg (by omega)]
      apply holds_mono (holds_changeTokenQuota .undo s.relayInfo.tokenKey htoken
        (Or.inr ⟨by omega, hback⟩))
      rintro r b'' (⟨rfl, rfl⟩ | ⟨⟨e', rfl⟩, rfl⟩)
      · refine accounted_error _ ⟨hwallet, ?_⟩
        dsimp only
        omega
      · exact accounted_error _ howed
    · exact accounted_error _ howed
  · refine ⟨⟨hwallet, hsameTaken ▸ hb.2⟩, ?_⟩
    intro s' h
    cases h
    exact ⟨hfunded f rfl, fun hno => hsameTaken ▸ hpaid hno⟩

theorem holds_session_preConsume (hsame : SameAccounts info s.relayInfo)
    (hzero : s.tokenConsumed = 0) (hf : Fundable info quota b s.funding)
    (htrust : Fundable info 0 b s.funding) (hb : NothingOwed b) :
    (books info).holds (s.preConsume cfg c quota) (Accounted info) b := by
  have hfund : Fundable info
      (if ({ s with trusted := s.trusted || s.shouldTrust cfg c } : Session).shouldTrust cfg c
        then 0 else quota) b s.funding := by
    split
    · exact htrust
    · exact hf
  unfold Session.preConsume
  dsimp only
  generalize (if ({ s with trusted := s.trusted || s.shouldTrust cfg c } : Session).shouldTrust
    cfg c then 0 else quota) = effective at hfund ⊢
  have hnone : ∀ x ≤ 0, TokenPaid info x b := fun x hx _ => hx.trans hb.2
  split
  next hpos =>
    apply holds_bind
    apply holds_mono (holds_preConsumeTokenQuota hsame hpos hb.2)
    rintro (e | u) b' ⟨hread, hwallet, htaken, hpaid⟩
    · exact accounted_error _ ⟨hwallet ▸ hb.1, htaken⟩
    · refine holds_chargeFunding hsame ?_ ⟨hwallet ▸ hb.1, htaken⟩ (hpaid rfl) (hpaid rfl)
      cases hsource : s.funding with
      | wallet w =>
        rw [hsource] at hfund
        exact ⟨hfund.1, hread ▸ hfund.2⟩
      | subscription f => trivial
  · exact holds_chargeFunding hsame hfund hb (hnone _ (le_of_eq hzero)) (hnone _ (by omega))

theorem sameAccounts_refl (info : RelayInfo) : SameAccounts info info := ⟨rfl, rfl, rfl, rfl⟩

def Attempted (info : RelayInfo) (r : RelayInfo × Except NewAPIError Session) (b : Books) : Prop :=
  Accounted info r.2 b ∧ ∀ e, r.2 = .error e → SameAccounts info r.1

theorem attempted_error (e : NewAPIError) (hsame : SameAccounts info info')
    (h : NothingOwed b) : Attempted info (info', .error e) b :=
  ⟨accounted_error e h, fun _ _ => hsame⟩

theorem attempted_ok (h : Accounted info (.ok s) b) :
    Attempted info (info', .ok s) b := ⟨h, nofun⟩

theorem holds_tryWallet (hsame : SameAccounts info info') (hb : NothingOwed b) :
    (books info).holds (tryWallet cfg c info' quota) (Attempted info) b := by
  apply holds_bind
  apply holds_mono (holds_getUserQuota info'.userId false)
  rintro (e | userQuota) b' ⟨x, rfl, hx⟩
  · exact attempted_error _ hsame hb
  · obtain rfl := hx userQuota rfl
    dsimp only
    split
    · exact attempted_error _ hsame hb
    · split
      · exact attempted_error _ hsame hb
      · apply holds_bind
        refine holds_mono (holds_session_preConsume hsame rfl ?_ ?_ hb) ?_
        · exact ⟨hsame.1, userQuota, rfl, by omega⟩
        · exact ⟨hsame.1, userQuota, rfl, by omega⟩
        · rintro (e | s) b'' hacc
          · exact attempted_error _ hsame hacc.1
          · exact attempted_ok hacc

theorem holds_trySubscription (hsame : SameAccounts info info') (hb : NothingOwed b) :
    (books info).holds (trySubscription cfg c info' quota) (Attempted info) b := by
  apply holds_bind
  refine holds_mono (holds_session_preConsume hsame rfl trivial trivial hb) ?_
  rintro (e | s) b' hacc
  · exact attempted_error _ hsame hacc.1
  · exact attempted_ok hacc

theorem holds_hasActiveUserSubscription (userId : ℤ) :
    (books info).holds (hasActiveUserSubscription c userId) (fun _ b' => b' = b) b := by
  unfold hasActiveUserSubscription
  split
  · rfl
  · apply holds_bind
    apply holds_mono (holds_onStore .ordinary (countActive c.tx userId c.checkedAt))
    rintro (e | n) b' rfl <;> rfl

theorem holds_newBillingSession (quota : ℤ) (hb : NothingOwed b) :
    (books info).holds (newBillingSession cfg c info quota) (fun r => Accounted info r.2) b := by
  have hsame := sameAccounts_refl info
  unfold newBillingSession
  split
  · exact holds_mono (holds_trySubscription hsame hb) fun r b' h => h.1
  · exact holds_mono (holds_tryWallet hsame hb) fun r b' h => h.1
  · apply holds_bind
    apply holds_mono (holds_tryWallet hsame hb)
    rintro ⟨info', e | s⟩ b' ⟨hacc, hinfo⟩
    · dsimp only
      split
      · exact holds_mono (holds_trySubscription (hinfo e rfl) hacc.1) fun r b'' h => h.1
      · exact hacc
    · exact hacc
  · apply holds_bind
    apply holds_mono (holds_hasActiveUserSubscription info.userId)
    rintro (e | _ | _) b' rfl
    · exact accounted_error _ hb
    · exact holds_mono (holds_tryWallet hsame hb) fun r b'' h => h.1
    · apply holds_bind
      apply holds_mono (holds_trySubscription hsame hb)
      rintro ⟨info', e | s⟩ b'' ⟨hacc, hinfo⟩
      · dsimp only
        split
        · exact holds_mono (holds_tryWallet (hinfo e rfl) hacc.1) fun r b''' h => h.1
        · exact hacc
      · exact hacc

end Programs

def walletChange : BillOp → Option (ℤ × ℤ)
  | .updateUserQuota _ id delta => some (id, delta)
  | .batchUserQuota id delta => some (id, delta)
  | _ => none

def tokenChange : BillOp → Option (ℤ × ℤ)
  | .updateTokenQuota _ id delta => some (id, delta)
  | .batchTokenQuota id delta => some (id, delta)
  | _ => none

def shareOf (change : Option (ℤ × ℤ)) (id : ℤ) : ℤ :=
  match change with
  | some (id', delta) => if id' = id then delta else 0
  | none => 0

def amountOf (change : Option (ℤ × ℤ)) : ℤ := (change.map Prod.snd).getD 0

section Operations

variable {info : RelayInfo} {b : Books} {o : BillOp} {r : BillRes o} {w w' : World}

theorem addWallet_wallet (a : Ledger) (id delta userId : ℤ) : (a.addWallet id delta).wallet userId =
      (a.wallet userId).map (· + shareOf (some (id, delta)) userId) := by
  by_cases h : userId = id
  · subst h
    simp [Ledger.addWallet, shareOf]
  · have hne : ¬ id = userId := fun e => h e.symm
    simp [Ledger.addWallet, shareOf, update_of_ne h, hne]

theorem addToken_token (a : Ledger) (id delta tokenId : ℤ) : (a.addToken id delta).token tokenId =
      (a.token tokenId).map (·.add (shareOf (some (id, delta)) tokenId)) := by
  by_cases h : tokenId = id
  · subst h
    simp [Ledger.addToken, shareOf]
  · have hne : ¬ id = tokenId := fun e => h e.symm
    simp [Ledger.addToken, shareOf, update_of_ne h, hne, TokenQuota.add]

theorem wallet_unchanged (q : Option ℤ) (userId : ℤ) : q = q.map (· + shareOf none userId) := by
  cases q <;> simp [shareOf]

theorem token_unchanged (q : Option TokenQuota) (tokenId : ℤ) :
    q = q.map (·.add (shareOf none tokenId)) := by
  cases q <;> simp [shareOf, TokenQuota.add]

theorem ledger_wallet_of_handle (h : handleBill o w = some (r, w')) (userId : ℤ) :
    w'.ledger.wallet userId =
      (w.ledger.wallet userId).map (· + shareOf (walletChange o) userId) := by
  cases o with
  | updateUserQuota purpose id delta =>
    cases h
    rw [ledger_addUserQuota]
    exact addWallet_wallet w.ledger id delta userId
  | batchUserQuota id delta =>
    cases h
    rw [ledger_batchUser]
    exact addWallet_wallet w.ledger id delta userId
  | store purpose o =>
    obtain ⟨p, -, he⟩ := map_eq_some_iff.mp h
    cases he
    exact wallet_unchanged _ userId
  | _ =>
    cases h
    exact wallet_unchanged _ userId

theorem ledger_token_of_handle (h : handleBill o w = some (r, w')) (tokenId : ℤ) :
    w'.ledger.token tokenId =
      (w.ledger.token tokenId).map (·.add (shareOf (tokenChange o) tokenId)) := by
  cases o with
  | updateTokenQuota purpose id delta =>
    cases h
    rw [ledger_addTokenQuota]
    exact addToken_token w.ledger id delta tokenId
  | batchTokenQuota id delta =>
    cases h
    rw [ledger_batchToken]
    exact addToken_token w.ledger id delta tokenId
  | store purpose o =>
    obtain ⟨p, -, he⟩ := map_eq_some_iff.mp h
    cases he
    exact token_unchanged _ tokenId
  | _ =>
    cases h
    exact token_unchanged _ tokenId

theorem note_taken (b : Books) (h : handleBill o w = some (r, w')) :
    (b.note o r).walletTaken = b.walletTaken - amountOf (walletChange o) ∧
      (b.note o r).tokenTaken = b.tokenTaken - amountOf (tokenChange o) := by
  have hnone : b.walletTaken = b.walletTaken - amountOf none ∧
      b.tokenTaken = b.tokenTaken - amountOf none := by simp [amountOf]
  cases o with
  | cachedUser id | selectUserQuota id | cachedToken key => cases r <;> exact hnone
  | selectUser id | selectToken key => rcases r with e | _ | q <;> exact hnone
  | updateUserQuota purpose id delta =>
    cases h
    exact ⟨rfl, hnone.2⟩
  | batchUserQuota id delta => exact ⟨rfl, hnone.2⟩
  | updateTokenQuota purpose id delta =>
    cases h
    exact ⟨hnone.1, rfl⟩
  | batchTokenQuota id delta => exact ⟨hnone.1, rfl⟩
  | _ => exact hnone

theorem allows_wallet (h : b.allows info o) {id delta : ℤ} (hc : walletChange o = some (id, delta)) :
    id = info.userId ∧ Covered b.userRead delta := by
  cases o with
  | updateUserQuota purpose id' delta' | batchUserQuota id' delta' =>
    cases hc
    exact h
  | _ => cases hc

theorem allows_token (h : b.allows info o) {id delta : ℤ} (hc : tokenChange o = some (id, delta)) :
    id = info.tokenId ∧ TokenMove info b delta := by
  cases o with
  | updateTokenQuota purpose id' delta' | batchTokenQuota id' delta' =>
    cases hc
    exact h
  | _ => cases hc

end Operations

structure Purse where
  world : World
  credited : ℤ → ℤ

def handlePurse : Handler BillOp BillRes Purse := fun o s =>
  (handleBill o s.world).map fun p => (p.1, { s with world := p.2 })

/-- What happens between the operations of the requests. A credit changes the row or is
collected by the batch updater, and hands any updates of the cache to goroutines. -/
inductive Beside (s : Purse) : Purse → Prop
  | background {w : World} : Background s.world w → Beside s { s with world := w }
  | credit (userId amount : ℤ) (tasks : List CacheTask) : 0 ≤ amount →
      Beside s ⟨World.addUserQuota { s.world with tasks := s.world.tasks ++ tasks } userId amount,
        bump s.credited userId amount⟩
  | creditBatched (userId amount : ℤ) (tasks : List CacheTask) : 0 ≤ amount →
      Beside s ⟨{ s.world with
          tasks := s.world.tasks ++ tasks
          userBatch := bump s.world.userBatch userId amount },
        bump s.credited userId amount⟩

abbrev BillPool (ι : Type) :=
  Pool BillOp BillRes (RelayInfo × Except NewAPIError Session) Purse ι

abbrev BillHistory := List (Seen BillOp BillRes Purse)

def Books.after (past : BillHistory) : Books := past.foldl (fun b e => b.note e.op e.res) Books.empty

def walletBalance (userId : ℤ) (s : Purse) : ℤ := (s.world.ledger.wallet userId).getD 0

def tokenBalance (tokenId : ℤ) (s : Purse) : ℤ :=
  ((s.world.ledger.token tokenId).map TokenQuota.remain).getD 0

/-- At a charge of the wallet or of the token, the value the request has read is above the
real balance by no more than the lag. -/
structure Lag (userId tokenId walletLag tokenLag : ℤ) (past : BillHistory) (o : BillOp)
    (s : Purse) : Prop where
  wallet : ∀ delta read, delta < 0 → walletChange o = some (userId, delta) →
    (Books.after past).userRead = some read → read ≤ walletBalance userId s + walletLag
  token : ∀ delta read, delta < 0 → tokenChange o = some (tokenId, delta) →
    (Books.after past).tokenRead = some read → read ≤ tokenBalance tokenId s + tokenLag

theorem tokenBalance_of_handle {s : Purse} {o : BillOp} {r : BillRes o} {w : World} {tokenId : ℤ}
    (h : handleBill o s.world = some (r, w)) (htoken : (s.world.ledger.token tokenId).isSome) :
    tokenBalance tokenId { s with world := w } =
      tokenBalance tokenId s + shareOf (tokenChange o) tokenId := by
  obtain ⟨q, hq⟩ := isSome_iff_exists.mp htoken
  simp [tokenBalance, ledger_token_of_handle h, hq, TokenQuota.add]

section Pools

variable {ι : Type} [DecidableEq ι] (info : ι → RelayInfo) (userId tokenId : ℤ)

def walletTill (p : BillPool ι) : Till ι where
  balance := walletBalance userId p.state
  credited := p.state.credited userId
  drawn i := if (info i).userId = userId then (Books.after (p.past i)).walletTaken else 0

def tokenTill (p : BillPool ι) : Till ι where
  balance := tokenBalance tokenId p.state
  credited := 0
  drawn i := if (info i).tokenId = tokenId then (Books.after (p.past i)).tokenTaken else 0

/-- Every request keeps its books, and a finished one has been charged what they show. -/
def KeepsBooks (p : BillPool ι) : Prop :=
  Follows (fun i => books (info i)) Books.empty (fun i r => Accounted (info i) r.2) p

variable {info userId tokenId} {p q : BillPool ι} {walletLag tokenLag : ℤ}

theorem after_append (past : BillHistory) (e : Seen BillOp BillRes Purse) :
    Books.after (past ++ [e]) = (Books.after past).note e.op e.res := by
  simp [Books.after]

variable {rest : BillProg (RelayInfo × Except NewAPIError Session)} {w : World}

variable {i : ι} {o : BillOp} {r : BillRes o}

section

variable (h : handleBill o p.state.world = some (r, w))
include h

theorem walletTill_advance {s : Purse} (hs : s = { p.state with world := w }) :
    walletTill info userId (p.advance i o r s rest) = { walletTill info userId p with
        balance := walletBalance userId s
        drawn := update (walletTill info userId p).drawn i
          ((walletTill info userId p).drawn i -
            if (info i).userId = userId then amountOf (walletChange o) else 0) } := by
  subst hs
  simp only [walletTill, Pool.advance, Till.mk.injEq, true_and]
  funext j
  by_cases hj : j = i
  · subst hj
    simp only [update_self, after_append, (note_taken _ h).1]
    split <;> simp
  · simp [update_of_ne hj]

theorem tokenTill_advance {s : Purse} :
    tokenTill info tokenId (p.advance i o r s rest) = { tokenTill info tokenId p with
        balance := tokenBalance tokenId s
        drawn := update (tokenTill info tokenId p).drawn i
          ((tokenTill info tokenId p).drawn i -
            if (info i).tokenId = tokenId then amountOf (tokenChange o) else 0) } := by
  simp only [tokenTill, Pool.advance, Till.mk.injEq, true_and]
  funext j
  by_cases hj : j = i
  · subst hj
    simp only [update_self, after_append, (note_taken _ h).2]
    split <;> simp
  · simp [update_of_ne hj]

theorem walletTill_kept (hshare : shareOf (walletChange o) userId = 0)
    (hown : (info i).userId = userId → amountOf (walletChange o) = 0) :
    walletTill info userId (p.advance i o r { p.state with world := w } rest) =
      walletTill info userId p := by
  have hbalance : walletBalance userId { p.state with world := w } =
      walletBalance userId p.state := by
    simp [walletBalance, ledger_wallet_of_handle h, hshare]
  have hzero : (if (info i).userId = userId then amountOf (walletChange o) else 0) = 0 := by
    split
    next hid =>
      exact hown hid
    · rfl
  rw [walletTill_advance h rfl, hbalance, hzero, sub_zero, update_eq_self]
  rfl

theorem walletTill_drawn {delta : ℤ} (huser : (p.state.world.ledger.wallet userId).isSome)
    (hchange : walletChange o = some (userId, delta)) (hown : (info i).userId = userId) :
    walletTill info userId (p.advance i o r { p.state with world := w } rest) =
      { walletTill info userId p with
        balance := (walletTill info userId p).balance - -delta
        drawn := update (walletTill info userId p).drawn i
          ((walletTill info userId p).drawn i + -delta) } := by
  obtain ⟨q, hq⟩ := isSome_iff_exists.mp huser
  have hbalance : walletBalance userId { p.state with world := w } =
      walletBalance userId p.state - -delta := by
    simp [walletBalance, ledger_wallet_of_handle h, hq, hchange, shareOf]
  rw [walletTill_advance h rfl, hbalance, if_pos hown, hchange]
  rfl

end

theorem walletTill_credit {id amount : ℤ}
    (huser : (p.state.world.ledger.wallet userId).isSome) (hpos : 0 ≤ amount)
    (hw : w.ledger = p.state.world.ledger.addWallet id amount) :
    Till.Move walletLag (walletTill info userId p)
      (walletTill info userId { p with state := ⟨w, bump p.state.credited id amount⟩ }) := by
  obtain ⟨q, hq⟩ := isSome_iff_exists.mp huser
  have hbalance : (w.ledger.wallet userId).getD 0 =
      walletBalance userId p.state + shareOf (some (id, amount)) userId := by
    rw [hw, addWallet_wallet]
    simp [walletBalance, hq]
  have hcredited : bump p.state.credited id amount userId =
      p.state.credited userId + shareOf (some (id, amount)) userId := by
    by_cases h : userId = id
    · subst h
      simp [bump, shareOf]
    · have hne : ¬ id = userId := fun e => h e.symm
      simp [bump, shareOf, update_of_ne h, hne]
  have hshare : 0 ≤ shareOf (some (id, amount)) userId := by
    simp only [shareOf]
    split <;> omega
  have htill : walletTill info userId { p with state := ⟨w, bump p.state.credited id amount⟩ } =
      { walletTill info userId p with
        balance := (w.ledger.wallet userId).getD 0
        credited := (walletTill info userId p).credited + shareOf (some (id, amount)) userId } := by
    simp only [walletTill, hcredited]
    rfl
  rw [htill]
  exact Till.Move.others _ _ hshare (le_of_eq hbalance)

theorem bounded_of_step {initial slack : ℤ} {t t' : Till ι} (h : t.Bounded initial slack)
    (hm : t' = t ∨ Till.Move slack t t') : t'.Bounded initial slack := by
  rcases hm with rfl | hm
  · exact h
  · exact h.move hm

section

variable (st : Step handlePurse (fun _ => Lag userId tokenId walletLag tokenLag) Beside p q)
include st

theorem walletTill_step (hp : KeepsBooks info p)
    (huser : (p.state.world.ledger.wallet userId).isSome) :
    walletTill info userId q = walletTill info userId p ∨
      Till.Move walletLag (walletTill info userId p) (walletTill info userId q) := by
  cases st with
  | @thread i o k r s hk hok hr =>
    obtain ⟨⟨r', w⟩, hw, he⟩ := map_eq_some_iff.mp hr
    cases he
    have hallowed := hp.allows hk
    cases hchange : walletChange o with
    | none => exact .inl (walletTill_kept hw (by rw [hchange]; rfl) fun _ => by rw [hchange]; rfl)
    | some change =>
      obtain ⟨id, delta⟩ := change
      obtain ⟨hid, hneg, read, hread, hle⟩ := allows_wallet hallowed hchange
      by_cases hown : (info i).userId = userId
      · have hchange' : walletChange o = some (userId, delta) := by rw [hchange, hid, hown]
        have hlag := hok.wallet delta read hneg hchange' hread
        rw [walletTill_drawn hw huser hchange' hown]
        refine .inr (Till.Move.draw i (-delta) (by omega) ?_)
        exact hle.trans hlag
      · have hne : ¬ id = userId := fun e => hown (hid ▸ e)
        refine .inl (walletTill_kept hw ?_ fun e => absurd e hown)
        rw [hchange]
        exact if_neg hne
  | env he =>
    cases he with
    | background hb =>
      refine .inl ?_
      simp [walletTill, walletBalance, ledger_background hb]
    | credit id amount tasks hpos =>
      exact .inr (walletTill_credit huser hpos (ledger_addUserQuota id amount))
    | creditBatched id amount tasks hpos =>
      exact .inr (walletTill_credit huser hpos (ledger_batchUser id amount))

theorem tokenTill_step (hlimited : ∀ i, (info i).tokenId = tokenId → (info i).tokenUnlimited = false)
    (hp : KeepsBooks info p) (htoken : (p.state.world.ledger.token tokenId).isSome) :
    tokenTill info tokenId q = tokenTill info tokenId p ∨
      Till.Move tokenLag (tokenTill info tokenId p) (tokenTill info tokenId q) := by
  cases st with
  | @thread i o k r s hk hok hr =>
    obtain ⟨⟨r', w⟩, hw, he⟩ := map_eq_some_iff.mp hr
    cases he
    have hallowed := hp.allows hk
    have hbalance := tokenBalance_of_handle hw htoken
    rw [tokenTill_advance hw, hbalance]
    by_cases hown : (info i).tokenId = tokenId
    · cases hchange : tokenChange o with
      | none =>
        refine .inl ?_
        simp [hown, shareOf, amountOf, update_eq_self]
        rfl
      | some change =>
        obtain ⟨id, delta⟩ := change
        obtain ⟨hid, hmove⟩ := allows_token hallowed hchange
        have hchange' : tokenChange o = some (tokenId, delta) := by rw [hchange, hid, hown]
        have hshare : shareOf (some (id, delta)) tokenId = delta := by
          rw [hid, hown]
          exact if_pos rfl
        have hdrawn : (tokenTill info tokenId p).drawn i = (Books.after (p.past i)).tokenTaken :=
          if_pos hown
        rw [if_pos hown, hshare]
        rcases hmove with ⟨hneg, hcov⟩ | ⟨hpos, hle⟩
        · obtain ⟨-, read, hread, hle⟩ := hcov (hlimited i hown)
          have hlag := hok.token delta read hneg hchange' hread
          have hdraw := Till.Move.draw (t := tokenTill info tokenId p) i (-delta) (by omega)
            (hle.trans hlag)
          rw [sub_neg_eq_add, ← sub_eq_add_neg] at hdraw
          exact .inr hdraw
        · exact .inr (Till.Move.giveBack i delta hpos (hdrawn ▸ hle))
    · have hshare : shareOf (tokenChange o) tokenId = 0 := by
        cases hchange : tokenChange o with
        | none => rfl
        | some change =>
          obtain ⟨id, delta⟩ := change
          have hid := (allows_token hallowed hchange).1
          exact if_neg fun e => hown (hid.symm.trans e)
      refine .inl ?_
      simp [hown, hshare, update_eq_self]
      rfl
  | env he =>
    refine .inl ?_
    cases he with
    | background hb => simp [tokenTill, tokenBalance, ledger_background hb]
    | credit id amount tasks hpos =>
      simp only [tokenTill, tokenBalance, ledger_addUserQuota]
      rfl
    | creditBatched id amount tasks hpos => rfl

/-- The accounts of the user and of the token are there, and what the requests have drawn
stays within both. -/
structure Within (info : ι → RelayInfo) (userId tokenId quota remain walletLag tokenLag : ℤ)
    (p : BillPool ι) : Prop where
  books : KeepsBooks info p
  user : (p.state.world.ledger.wallet userId).isSome
  token : (p.state.world.ledger.token tokenId).isSome
  walletBounded : (walletTill info userId p).Bounded quota walletLag
  tokenBounded : (tokenTill info tokenId p).Bounded remain tokenLag

theorem wallet_isSome_step (h : (p.state.world.ledger.wallet userId).isSome) :
    (q.state.world.ledger.wallet userId).isSome := by
  cases st with
  | thread i hk hok hr =>
    obtain ⟨⟨r', w⟩, hw, he⟩ := map_eq_some_iff.mp hr
    cases he
    simpa [Pool.advance, ledger_wallet_of_handle hw] using h
  | env he =>
    cases he with
    | background hb => simpa [ledger_background hb] using h
    | credit id amount tasks hpos =>
      simp only [ledger_addUserQuota, addWallet_wallet, isSome_map]
      exact h
    | creditBatched id amount tasks hpos =>
      rw [show ∀ w : World, (w.ledger.wallet userId).isSome = (w.userQuota userId).isSome from
        fun w => isSome_map] at h ⊢
      exact h

theorem token_isSome_step (h : (p.state.world.ledger.token tokenId).isSome) :
    (q.state.world.ledger.token tokenId).isSome := by
  cases st with
  | thread i hk hok hr =>
    obtain ⟨⟨r', w⟩, hw, he⟩ := map_eq_some_iff.mp hr
    cases he
    simpa [Pool.advance, ledger_token_of_handle hw] using h
  | env he =>
    cases he with
    | background hb => simpa [ledger_background hb] using h
    | credit id amount tasks hpos =>
      simp only [ledger_addUserQuota]
      exact h
    | creditBatched id amount tasks hpos => exact h

theorem Within.step {quota remain : ℤ}
    (hlimited : ∀ i, (info i).tokenId = tokenId → (info i).tokenUnlimited = false)
    (hp : Within info userId tokenId quota remain walletLag tokenLag p) :
    Within info userId tokenId quota remain walletLag tokenLag q where
  books := Follows.step hp.books st
  user := wallet_isSome_step st hp.user
  token := token_isSome_step st hp.token
  walletBounded := bounded_of_step hp.walletBounded (walletTill_step st hp.books hp.user)
  tokenBounded := bounded_of_step hp.tokenBounded (tokenTill_step st hlimited hp.books hp.token)

end

variable (cfg : Config) (c : ι → Context) (quota : ι → ℤ) (w : World)

/-- Any number of requests, of any users and tokens, about to create their sessions. -/
def requests (info : ι → RelayInfo) : BillPool ι :=
  Pool.start ⟨w, fun _ => 0⟩ fun i => newBillingSession cfg (c i) (info i) (quota i)

omit [DecidableEq ι] in
theorem within_start (info : ι → RelayInfo) {userQuota : ℤ} {row : TokenQuota}
    (huser : w.ledger.wallet userId = some userQuota) (htoken : w.ledger.token tokenId = some row) :
    Within info userId tokenId userQuota row.remain walletLag tokenLag
      (requests cfg c quota w info) where
  books := follows_start fun i => holds_newBillingSession (quota i) ⟨le_rfl, le_rfl⟩
  user := by simp [requests, Pool.start, huser]
  token := by simp [requests, Pool.start, htoken]
  walletBounded := by
    have hstart : walletTill info userId (requests cfg c quota w info) =
        ⟨userQuota, 0, fun _ => 0⟩ := by
      simp [walletTill, requests, Pool.start, walletBalance, huser, Books.after, Books.empty]
    rw [hstart]
    exact Till.bounded_start userQuota walletLag
  tokenBounded := by
    have hstart : tokenTill info tokenId (requests cfg c quota w info) =
        ⟨row.remain, 0, fun _ => 0⟩ := by
      simp [tokenTill, requests, Pool.start, tokenBalance, htoken, Books.after, Books.empty]
    rw [hstart]
    exact Till.bounded_start row.remain tokenLag

/-- What a call that has succeeded with a wallet-funded session was charged in advance. -/
def preCharge : Option (RelayInfo × Except NewAPIError Session) → ℤ
  | some (_, .ok s) => if s.funding.source = .wallet then s.preConsumedQuota else 0
  | _ => 0

omit [DecidableEq ι] in
theorem preCharge_le_drawn {initial slack remain : ℤ} {i : ι}
    (hp : Within info userId tokenId initial remain walletLag slack p) :
    ((info i).userId = userId → preCharge (p.result? i) ≤ (walletTill info userId p).drawn i) ∧
      ((info i).tokenId = tokenId → (info i).isPlayground = false →
        preCharge (p.result? i) ≤ (tokenTill info tokenId p).drawn i) := by
  have hwallet := hp.walletBounded.nonneg i
  have htoken := hp.tokenBounded.nonneg i
  cases hres : p.result? i with
  | none => exact ⟨fun _ => hwallet, fun _ _ => htoken⟩
  | some res =>
    obtain ⟨info', e | s⟩ := res
    · exact ⟨fun _ => hwallet, fun _ _ => htoken⟩
    · obtain ⟨hfunded, hpaid⟩ := (hp.books.result hres).2 s rfl
      simp only [preCharge]
      split
      next hsource =>
        refine ⟨fun hid => ?_, fun hid hplay => ?_⟩
        · simp only [walletTill, if_pos hid]
          exact hfunded hsource
        · simp only [tokenTill, if_pos hid]
          exact hpaid hplay
      · exact ⟨fun _ => hwallet, fun _ _ => htoken⟩

end Pools

section Schedules

def lagCheck (userId tokenId walletLag tokenLag : ℤ) (past : BillHistory) (o : BillOp)
    (s : Purse) : Bool :=
  (match walletChange o, (Books.after past).userRead with
    | some (id, _), some read => id ≠ userId ∨ read ≤ walletBalance userId s + walletLag
    | _, _ => True) &&
  (match tokenChange o, (Books.after past).tokenRead with
    | some (id, _), some read => id ≠ tokenId ∨ read ≤ tokenBalance tokenId s + tokenLag
    | _, _ => True)

def smallWorld : World := plainWorld 100 100 ⟨[], List.nodup_nil⟩

def twoCalls : BillPool (Fin 2) :=
  requests plainConfig (fun _ => plainContext) (fun _ => 80) smallWorld
    fun _ => plainInfo "wallet_only"

def playCalls (moves : List (Fin 2)) : Option (BillPool (Fin 2)) :=
  twoCalls.play handlePurse (fun e _ => Empty.elim e) (moves.map Sum.inl)

theorem playCalls_run {moves : List (Fin 2)} {q : BillPool (Fin 2)} (h : playCalls moves = some q) :
    Run handlePurse (fun _ _ _ _ => True) Beside twoCalls q := by
  refine Relation.ReflTransGen.mono (fun p q st => ?_) _ _ (play_run_alone h)
  cases st with
  | thread i hk hok hr => exact .thread i hk hok hr
  | env he => exact he.elim

end Schedules

end BillingOvercommit
