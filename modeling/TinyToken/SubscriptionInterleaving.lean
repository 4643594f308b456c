import TinyToken.SubscriptionEffects

/-! Any number of `PreConsumeUserSubscription` and `PostConsumeUserSubscriptionDelta`
calls on one subscription, interleaved statement by statement. The rows are read without
a lock and written back whole, so the counter adds up exactly as long as no call commits
over a counter that has moved since it was read. The total is respected in every run. -/
namespace SubscriptionInterleaving

open ProgramSteps InterleavedPrograms ReadCommittedStore Db KeyedTable TransactionPools
  SubscriptionRows SubscriptionTransactions SubscriptionEffects List Option Table Finset

inductive SubCall where
  | preConsume (call : PreConsumeCall)
  | postConsume (userSubscriptionId delta : ℤ)

abbrev CallResult := Except String (Option SubscriptionPreConsumeResult)

namespace SubCall

def prog (c : Clock) (tx : TxId) : SubCall → SubProg CallResult
  | .preConsume call => do
    let r ← preConsumeUserSubscription c tx call
    pure (r.map some)
  | .postConsume userSubscriptionId delta => do
    let r ← postConsumeUserSubscriptionDelta tx userSubscriptionId delta
    pure (r.map fun _ => none)

def delta (id : ℤ) : SubCall → Option CallResult → ℤ
  | .preConsume call, some (.ok (some res)) =>
    if res.userSubscriptionId = id then call.amount else 0
  | .postConsume target delta, some (.ok _) => if target = id then delta else 0
  | _, _ => 0

def Clamps (id used : ℤ) : SubCall → Prop
  | .postConsume target delta => target = id ∧ used + delta < 0
  | .preConsume _ => False

end SubCall

def bare (sub : UserSubscription) : UserSubscription := { sub with amountUsed := 0 }

/-- What a call lets the others do: move the counter of the subscription, and leave the
rest of its row, the plans and the missing record of its own request alone. -/
def movesCounter (id : ℤ) (call : SubCall) : Interference Tables where
  allowed t t' := t'.plans = t.plans ∧ (t'.subs.find? id).map bare = (t.subs.find? id).map bare ∧
    ∀ pre, call = .preConsume pre → t.records.find? pre.requestId = none →
      t'.records.find? pre.requestId = none
  refl _ := ⟨rfl, rfl, fun _ _ h => h⟩
  trans _ _ _ hst htu := ⟨htu.1.trans hst.1, htu.2.1.trans hst.2.1,
    fun pre hp h => htu.2.2 pre hp (hst.2.2 pre hp h)⟩

def Effect (c : Clock) (tx : TxId) (id : ℤ)
    (ok : SubHistory → TxOp SubQuery SubWrite → SubStore → Prop) (first : Tables)
    (call : SubCall) (a : Option SubscriptionPreConsumeResult) (past : SubHistory)
    (db : SubDb) : Prop :=
  match call with
  | .preConsume pre => ∃ res, a = some res ∧
      PreEffect c tx pre (movesCounter id call) ok first res past db
  | .postConsume target delta => PostEffect tx target delta (movesCounter id call) first past db

theorem safe_call {c : Clock} {tx : TxId} {id : ℤ}
    {ok : SubHistory → TxOp SubQuery SubWrite → SubStore → Prop} {past : SubHistory}
    {s : SubStore} (call : SubCall) (hown : s.state.own tx = []) :
    Safe (faultyHandle engine) (txContract engine tx (movesCounter id call) ok
      (Effect c tx id ok s.state.committed call)) (fun _ _ _ => True)
      (call.prog c tx) past s := by
  cases call with
  | preConsume pre =>
    refine safe_map ?_ (safe_preConsumeUserSubscription (fun _ _ h => h.1) hown)
    exact fun res past db h => ⟨res, rfl, h⟩
  | postConsume target delta =>
    refine safe_map ?_ (safe_postConsumeUserSubscriptionDelta target delta hown)
    exact fun _ past db h => h

def readsSubs : SubQuery → Prop
  | .activeSubs _ _ => True
  | .subById _ => True
  | _ => False

/-- The first state: the counter lies between 0 and a positive total, no reset of the
subscription is due for any call, and the requests are new and distinct. -/
structure Initial {ι : Type} (c : Clock) (id : ℤ) (calls : ι → SubCall) (conn : ι → TxId)
    (t : Tables) (row : UserSubscription) : Prop where
  connections : Function.Injective conn
  found : t.subs.find? id = some row
  nonneg : 0 ≤ row.amountUsed
  bounded : 0 < row.amountTotal → row.amountUsed ≤ row.amountTotal
  noReset : ∀ i pre, calls i = .preConsume pre → ∀ plan, t.plans.find? row.planId = some plan →
    maybeReset c row plan pre.now = some .keep
  fresh : ∀ i pre, calls i = .preConsume pre → t.records.find? pre.requestId = none
  distinct : ∀ i j pre pre', i ≠ j → calls i = .preConsume pre → calls j = .preConsume pre' →
    pre.requestId ≠ pre'.requestId

inductive RowChange (id : ℤ) (tx : TxId) (row : UserSubscription) (call : SubCall)
    (a : Option SubscriptionPreConsumeResult) (past : SubHistory) (db : SubDb) : Prop
  | untouched : (db.view engine tx).subs.find? id = db.committed.subs.find? id →
      call.delta id (some (.ok a)) = 0 → RowChange id tx row call a past db
  | moved {q : SubQuery} {m : SubDb} {sub : UserSubscription} {used : ℤ} : readsSubs q →
      Met past (.query tx q) m → m.committed.subs.find? id = some sub → bare sub = bare row →
      (db.view engine tx).subs.find? id = some { sub with amountUsed := used } →
      (0 < row.amountTotal → used ≤ row.amountTotal) →
      (¬ call.Clamps id sub.amountUsed → used = sub.amountUsed + call.delta id (some (.ok a))) →
      RowChange id tx row call a past db

theorem eq_of_bare {a b : UserSubscription} (h : bare a = bare b) :
    a = { b with amountUsed := a.amountUsed } := by
  cases a
  cases b
  simp only [bare, UserSubscription.mk.injEq] at h ⊢
  tauto

theorem find_of_bare {t t' : Tables} {id : ℤ} {row : UserSubscription}
    (h : (t'.subs.find? id).map bare = (t.subs.find? id).map bare)
    (hrow : t.subs.find? id = some row) :
    ∃ sub, t'.subs.find? id = some sub ∧ bare sub = bare row := by
  rw [hrow] at h
  exact map_eq_some_iff.mp h

theorem view_charge {db : SubDb} {tx : TxId} {visits : List Visit} {pre : PreConsumeCall}
    {sub : UserSubscription} (hown : db.own tx = visitWrites visits ++ chargeWrites pre sub)
    (id : ℤ) (hleaves : ∀ w ∈ visitWrites visits, leavesSub id w) :
    (db.view engine tx).subs.find? id =
      if id = sub.id then some (charge sub pre.amount) else db.committed.subs.find? id := by
  simp only [view, hown, foldl_append, chargeWrites, foldl_cons, foldl_nil]
  change (save _ (charge sub pre.amount)).find? id = _
  rw [find?_save]
  change (if id = sub.id then _ else _) = _
  split
  · rfl
  · exact foldl_sub hleaves db.committed

section Commits

variable {ι : Type} {c : Clock} {id : ℤ} {calls : ι → SubCall} {conn : ι → TxId} {t : Tables}
  {row : UserSubscription} {ok : SubHistory → TxOp SubQuery SubWrite → SubStore → Prop}
  {past : SubHistory} {db : SubDb} {i : ι}

variable {pre : PreConsumeCall}

theorem Initial.charged (h : Initial c id calls conn t row)
    (hi : calls i = .preConsume pre) {res : SubscriptionPreConsumeResult}
    (he : PreEffect c (conn i) pre (movesCounter id (calls i)) ok t res past db) :
    ∃ (m : SubDb) (visits : List Visit) (sub : UserSubscription),
      Met past (.query (conn i) (.activeSubs pre.userId pre.now)) m ∧
      (movesCounter id (calls i)).allowed t m.committed ∧
      scan c m.committed.plans.find? pre (candidates pre m.committed) = some (visits, sub) ∧
      db.own (conn i) = visitWrites visits ++ chargeWrites pre sub ∧
      res = chargedResult pre sub := by
  have noRecord : ∀ m, (movesCounter id (calls i)).allowed t m →
      m.records.find? pre.requestId = none := fun m hm => hm.2.2 pre hi (h.fresh i pre hi)
  cases he with
  | existing hm hrec =>
    rw [noRecord _ hm] at hrec
    cases hrec
  | @loop m₀ m hm₀ _ hm₁ hmet hown hdb hdone =>
    have hm := (movesCounter id (calls i)).trans _ _ _ hm₀ hm₁
    obtain ⟨visits, sub, hscan, ⟨hcharge, hres⟩ | ⟨-, hrec⟩⟩ := hdone
    · exact ⟨m, visits, sub, hmet, hm, hscan, hcharge, hres⟩
    · obtain ⟨-, -, u, dup, -, -, hu, -, hownu, hdup, -⟩ := hrec
      have hview : (u.state.view engine (conn i)).records = u.state.committed.records := by
        simp only [view, hownu, nil_append]
        exact foldl_records_of_saveSub (fun w hw => visitWrites_isSaveSub hw) _
      rw [hview, noRecord _ ((movesCounter id (calls i)).trans _ _ _ hm hu)] at hdup
      cases hdup

theorem Initial.pre_rowChange (h : Initial c id calls conn t row)
    (hi : calls i = .preConsume pre) {res : SubscriptionPreConsumeResult}
    (he : PreEffect c (conn i) pre (movesCounter id (calls i)) ok t res past db) :
    RowChange id (conn i) row (calls i) (some res) past db := by
  obtain ⟨m, visits, sub, hmet, hm, hscan, hown, hres⟩ := h.charged hi he
  obtain ⟨seen, hseen, hbare⟩ := find_of_bare hm.2.1 h.found
  have hkeep : ∀ plan, m.committed.plans.find? seen.planId = some plan →
      maybeReset c seen plan pre.now = some .keep := by
    intro plan hplan
    have hid : seen.planId = row.planId := (congrArg UserSubscription.planId hbare :)
    rw [hm.1, hid] at hplan
    rw [eq_of_bare hbare]
    exact maybeReset_keep_of_used (h.noReset i pre hi plan hplan) _
  obtain ⟨hleaves, hsame⟩ := scan_keeps hseen hkeep hscan
  have hview := view_charge hown id hleaves
  have hdelta : (calls i).delta id (some (.ok (some res))) =
      if sub.id = id then pre.amount else 0 := by
    rw [hi, hres]
    rfl
  by_cases hsub : sub.id = id
  · rw [if_pos hsub.symm] at hview
    rw [if_pos hsub] at hdelta
    obtain rfl := hsame hsub
    have hfits := (scan_visits hscan).2.2
    have htotal : sub.amountTotal = row.amountTotal :=
      (congrArg UserSubscription.amountTotal hbare :)
    refine .moved (by trivial) hmet hseen hbare hview ?_ (fun _ => by rw [hdelta])
    intro hpos
    simp only [fits, htotal, not_and, not_lt] at hfits
    have := hfits hpos
    omega
  · rw [if_neg (fun e => hsub e.symm)] at hview
    rw [if_neg hsub] at hdelta
    exact .untouched hview hdelta

theorem Initial.post_rowChange (h : Initial c id calls conn t row) {target delta : ℤ}
    (hi : calls i = .postConsume target delta)
    (he : PostEffect (conn i) target delta (movesCounter id (calls i)) t past db)
    (a : Option SubscriptionPreConsumeResult) :
    RowChange id (conn i) row (calls i) a past db := by
  obtain ⟨m, sub, hmet, hm, -, -, hsub, hroom, hown⟩ := he
  have hkey : sub.id = target := find?_some_key hsub
  have hview : (db.view engine (conn i)).subs.find? id = if id = sub.id then
      some { sub with amountUsed := clampUsed sub.amountUsed delta }
      else db.committed.subs.find? id := by
    simp only [view, hown, foldl_cons, foldl_nil]
    exact find?_save _ _ _
  have hdelta : (calls i).delta id (some (.ok a)) = if target = id then delta else 0 := by
    rw [hi]
    rfl
  by_cases hid : target = id
  · obtain ⟨seen, hseen, hbare⟩ := find_of_bare hm.2.1 h.found
    rw [← hid, hsub] at hseen
    cases hseen
    have htotal : sub.amountTotal = row.amountTotal :=
      (congrArg UserSubscription.amountTotal hbare :)
    rw [if_pos (hkey.trans hid).symm] at hview
    rw [if_pos hid] at hdelta
    refine .moved (by trivial) hmet (hid ▸ hsub) hbare hview ?_ ?_
    · intro hpos
      rw [htotal] at hroom
      by_contra hlt
      exact hroom ⟨hpos, by omega⟩
    · intro hclamp
      rw [hi] at hclamp
      rw [hdelta]
      exact if_neg fun hlt => hclamp ⟨hid, hlt⟩
  · rw [if_neg (fun e => hid (hkey.symm.trans e.symm))] at hview
    rw [if_neg hid] at hdelta
    exact .untouched hview hdelta

variable {a : Option SubscriptionPreConsumeResult}

theorem Initial.rowChange (h : Initial c id calls conn t row)
    (he : Effect c (conn i) id ok t (calls i) a past db) :
    RowChange id (conn i) row (calls i) a past db := by
  unfold Effect at he
  split at he
  next pre hi =>
    obtain ⟨res, rfl, he⟩ := he
    exact h.pre_rowChange hi he
  next target delta hi =>
    exact h.post_rowChange hi he a

theorem Effect.allowed {call : SubCall} {tx : TxId} (he : Effect c tx id ok t call a past db) :
    (movesCounter id call).allowed t db.committed := by
  cases call with
  | preConsume pre =>
    obtain ⟨res, -, he⟩ := he
    exact he.allowed
  | postConsume target delta => exact PostEffect.allowed he

theorem Initial.leavesRecord (h : Initial c id calls conn t row) {j : ι} (hij : i ≠ j) (hi : calls i = .preConsume pre)
    (he : Effect c (conn j) id ok t (calls j) a past db) :
    ∀ w ∈ db.own (conn j), leavesRecord pre.requestId w := by
  unfold Effect at he
  split at he
  next pre' hj =>
    obtain ⟨res, -, he⟩ := he
    obtain ⟨-, visits, sub, -, -, -, hown, -⟩ := h.charged hj he
    intro w hw
    rw [hown, List.mem_append] at hw
    rcases hw with hw | hw
    · exact visitWrites_leavesRecord _ hw
    · simp only [chargeWrites, List.mem_cons, List.not_mem_nil, or_false] at hw
      rcases hw with rfl | rfl
      · exact (h.distinct i j pre pre' hij hi hj).symm
      · trivial
  · obtain ⟨-, sub, -, -, -, -, -, -, hown⟩ := he
    intro w hw
    rw [hown, List.mem_singleton] at hw
    subst hw
    trivial

theorem Initial.commit_allowed (h : Initial c id calls conn t row) {j : ι} (hij : i ≠ j)
    (he : Effect c (conn j) id ok t (calls j) a past db) :
    (movesCounter id (calls i)).allowed db.committed (db.view engine (conn j)) := by
  refine ⟨view_plans db _, ?_, ?_⟩
  · obtain ⟨sub, hsub, hbare⟩ := find_of_bare he.allowed.2.1 h.found
    cases h.rowChange he with
    | untouched hview _ => rw [hview]
    | moved _ _ _ hbare' hview _ _ =>
      rw [hview, hsub, map_some, map_some, hbare, ← hbare']
      rfl
  · intro pre hi hnone
    exact (foldl_record (h.leavesRecord hij hi he) db.committed).trans hnone

end Commits

section Runs

variable {ι : Type} [DecidableEq ι] {c : Clock} {id : ℤ} {calls : ι → SubCall}
  {conn : ι → TxId} {t : Tables} {row : UserSubscription}
  {ok : ι → SubHistory → TxOp SubQuery SubWrite → SubStore → Prop}

abbrev SubPool (ι : Type) := Pool (TxOp SubQuery SubWrite) (TxRes SubAnswer) CallResult SubStore ι

def begin (c : Clock) (calls : ι → SubCall) (conn : ι → TxId) (t : Tables)
    (faults : List (Option String)) : SubPool ι :=
  Pool.start ⟨idle t, faults⟩ fun i => (calls i).prog c (conn i)

/-- Every interleaving of the statements, with any statement failing; `ok` may restrict
the steps. -/
def Reaches (c : Clock) (calls : ι → SubCall) (conn : ι → TxId) (t : Tables)
    (ok : ι → SubHistory → TxOp SubQuery SubWrite → SubStore → Prop) (p : SubPool ι) : Prop :=
  ∃ faults, Run (faultyHandle engine) ok (fun _ _ => False) (begin c calls conn t faults) p

def callContract (c : Clock) (id : ℤ) (calls : ι → SubCall) (conn : ι → TxId) (t : Tables)
    (ok : ι → SubHistory → TxOp SubQuery SubWrite → SubStore → Prop) (i : ι) :
    Contract (TxOp SubQuery SubWrite) (TxRes SubAnswer) CallResult SubStore :=
  txContract engine (conn i) (movesCounter id (calls i)) (ok i)
    (Effect c (conn i) id (ok i) t (calls i))

theorem Initial.allSafe (h : Initial c id calls conn t row) {p : SubPool ι}
    (hr : Reaches c calls conn t ok p) :
    AllSafe (faultyHandle engine) (callContract c id calls conn t ok)
      (fun _ _ _ _ => True) p := by
  obtain ⟨faults, hr⟩ := hr
  refine Run.invariant (AllSafe _ (callContract c id calls conn t ok) _) ?_ ?_ hr
  · intro p q hp st
    refine AllSafe.step (fun _ => True) ?_ (fun _ _ _ hf => hf.elim) hp trivial st
    intro i j hij past e u q _ hg
    refine ⟨hg.1 _ (fun he => hij (h.connections he)), ?_⟩
    rcases hg.2 with ⟨hc, -⟩ | ⟨a, -, hP, -, -, hc⟩
    · rw [hc]
      exact (movesCounter id (calls i)).refl _
    · rw [hc]
      exact h.commit_allowed hij hP
  · exact fun i => safe_call (s := ⟨idle t, faults⟩) (calls i) rfl

theorem delta_of_not_ok {call : SubCall} {result : Option CallResult}
    (h : ∀ a, result ≠ some (.ok a)) : call.delta id result = 0 := by
  rcases result with _ | e | a
  · cases call <;> rfl
  · cases call <;> rfl
  · exact absurd rfl (h a)

/-- A step either leaves the committed tables and every delta alone, or is the commit that
ends one call with success. -/
theorem Initial.step_cases (h : Initial c id calls conn t row) {p q : SubPool ι}
    (hr : Reaches c calls conn t ok p) (st : Step (faultyHandle engine) ok (fun _ _ => False) p q) :
    (q.state.state.committed = p.state.state.committed ∧
      ∀ j, (calls j).delta id (q.result? j) = (calls j).delta id (p.result? j)) ∨
    ∃ i a, RowChange id (conn i) row (calls i) a (p.past i) p.state.state ∧
      ok i (p.past i) (.commit (conn i)) p.state ∧
      q.state.state.committed = p.state.state.view engine (conn i) ∧
      p.result? i = none ∧ q.result? i = some (.ok a) ∧
      ∀ j, j ≠ i → q.result? j = p.result? j := by
  have hsafe := h.allSafe hr
  cases st with
  | @thread i o k r s hk hok hstep =>
    have hnone := Pool.result?_of_op hk
    have hothers : ∀ j, j ≠ i → (p.advance i o r s (k r)).result? j = p.result? j :=
      fun j hj => p.result?_advance_of_ne hj o r s (k r)
    rcases (hsafe.guarantee hk hok hstep).2 with ⟨hc, hq⟩ | ⟨a, hq, hP, hokc, hop, hc⟩
    · refine .inl ⟨hc, ?_⟩
      intro j
      by_cases hj : j = i
      · subst hj
        rw [hnone, delta_of_not_ok (fun a ha => ?_), delta_of_not_ok (fun a ha => by cases ha)]
        rw [Pool.result?_eq_some, Pool.thread_advance_self] at ha
        exact hq a ha
      · rw [hothers j hj]
    · refine .inr ⟨i, a, h.rowChange hP, ?_, hc, hnone, ?_, hothers⟩
      · have hop' : o = .commit (conn i) := hop
        subst hop'
        exact hokc
      · rw [Pool.result?_eq_some, Pool.thread_advance_self]
        exact hq
  | env he => exact he.elim

theorem Initial.used_bounded (h : Initial c id calls conn t row) {p : SubPool ι}
    (hr : Reaches c calls conn t ok p) :
    ∃ used, usedOf p.state.state.committed id = some used ∧
      (0 < row.amountTotal → used ≤ row.amountTotal) := by
  obtain ⟨faults, hr⟩ := hr
  induction hr with
  | refl => exact ⟨row.amountUsed, by simp [usedOf, begin, Pool.start, h.found], h.bounded⟩
  | tail hreach st ih =>
    rcases h.step_cases ⟨faults, hreach⟩ st with ⟨hc, -⟩ | ⟨i, a, hchange, -, hc, -⟩
    · rw [hc]
      exact ih
    · rw [hc]
      cases hchange with
      | untouched hview _ =>
        simp only [usedOf, hview]
        exact ih
      | moved _ _ _ _ hview hbound _ => exact ⟨_, by simp only [usedOf, hview]; rfl, hbound⟩

/-- A call commits only while the counter still has the value of every row it has read,
and its delta does not run into the clamp at 0. -/
def CommitsCurrent (id : ℤ) (tx : TxId) (call : SubCall) (past : SubHistory)
    (o : TxOp SubQuery SubWrite) (s : SubStore) : Prop :=
  o = .commit tx → (∀ q m, readsSubs q → Met past (.query tx q) m →
      usedOf m.committed id = usedOf s.state.committed id) ∧
    ∀ used, usedOf s.state.committed id = some used → ¬ call.Clamps id used

omit [DecidableEq ι] in
theorem sum_delta_step [Fintype ι] {p q : SubPool ι} {i : ι} (hnone : p.result? i = none)
    (hothers : ∀ j, j ≠ i → q.result? j = p.result? j) :
    ∑ j, (calls j).delta id (q.result? j) =
      ∑ j, (calls j).delta id (p.result? j) + (calls i).delta id (q.result? i) := by
  have hzero : (calls i).delta id (p.result? i) = 0 := by
    rw [hnone]
    exact delta_of_not_ok nofun
  rw [← sub_eq_iff_eq_add', ← sum_sub_distrib, Fintype.sum_eq_single i]
  · rw [hzero, sub_zero]
  · intro j hj
    rw [hothers j hj, sub_self]

omit [DecidableEq ι] in
theorem begin_delta (faults : List (Option String)) (i : ι) :
    (calls i).delta id ((begin c calls conn t faults).result? i) = 0 := by
  have hthread : (begin c calls conn t faults).thread i = (calls i).prog c (conn i) := rfl
  cases hi : calls i with
  | preConsume pre =>
    refine delta_of_not_ok fun a ha => ?_
    rw [Pool.result?_eq_some, hthread, hi] at ha
    simp only [SubCall.prog, preConsumeUserSubscription] at ha
    split at ha
    · cases ha
    split at ha
    · cases ha
    split at ha <;> cases ha
  | postConsume target delta =>
    by_cases hdelta : delta = 0
    · rcases (begin c calls conn t faults).result? i with _ | _ | _
      · rfl
      · rfl
      · simp [SubCall.delta, hdelta]
    · refine delta_of_not_ok fun a ha => ?_
      rw [Pool.result?_eq_some, hthread, hi] at ha
      simp only [SubCall.prog, postConsumeUserSubscriptionDelta, if_neg hdelta] at ha
      split at ha <;> cases ha

theorem Initial.used_adds_up [Fintype ι] (h : Initial c id calls conn t row) {p : SubPool ι}
    (hr : Reaches c calls conn t (fun i => CommitsCurrent id (conn i) (calls i)) p) :
    usedOf p.state.state.committed id =
      some (row.amountUsed + ∑ i, (calls i).delta id (p.result? i)) := by
  obtain ⟨faults, hr⟩ := hr
  induction hr with
  | refl =>
    rw [sum_eq_zero fun i _ => begin_delta faults i]
    simp [usedOf, begin, Pool.start, h.found]
  | @tail p q hreach st ih =>
    rcases h.step_cases ⟨faults, hreach⟩ st with
      ⟨hc, hdelta⟩ | ⟨i, a, hchange, hok, hc, hnone, hdone, hothers⟩
    · rw [hc, ih, sum_congr rfl fun j _ => hdelta j]
    rw [sum_delta_step hnone hothers, hdone, hc]
    cases hchange with
    | untouched hview hzero => simpa [usedOf, hview, hzero] using ih
    | @moved query m sub used hreads hmet hfind _ hview _ hused =>
      obtain ⟨hcurrent, hclamp⟩ := hok rfl
      have hm := hcurrent query m hreads hmet
      rw [ih] at hm
      have hsub : sub.amountUsed = row.amountUsed + ∑ i, (calls i).delta id (p.result? i) := by
        simpa [usedOf, hfind] using hm
      have hvalue := hused (hclamp _ (by rw [ih, hsub]))
      simp only [usedOf, hview, map_some, hvalue, hsub]
      congr 1
      omega

end Runs

/-- In every interleaving, with any statement failing, the counter stays within a positive
total; and it is the initial value plus the deltas of exactly the calls that returned nil in
every run whose commits meet the counter their call has read. -/
theorem counter_adds_up_when_commits_are_current {ι : Type} [Fintype ι] [DecidableEq ι]
    {c : Clock} {id : ℤ} {calls : ι → SubCall} {conn : ι → TxId} {t : Tables}
    {row : UserSubscription} (h : Initial c id calls conn t row) :
    (∀ p, Reaches c calls conn t (fun _ _ _ _ => True) p →
      ∃ used, usedOf p.state.state.committed id = some used ∧
        (0 < row.amountTotal → used ≤ row.amountTotal)) ∧
    ∀ p, Reaches c calls conn t (fun i => CommitsCurrent id (conn i) (calls i)) p →
      usedOf p.state.state.committed id =
        some (row.amountUsed + ∑ i, (calls i).delta id (p.result? i)) :=
  ⟨fun _ hr => h.used_bounded hr, fun _ hr => h.used_adds_up hr⟩

def chargeAndSettle : Fin 2 → SubCall
  | 0 => .preConsume ⟨"req", 1, 30, 10⟩
  | 1 => .postConsume 7 10

def onlySub : Table UserSubscription ℤ UserSubscription.id := ⟨[plainSub 7 100 0], by decide⟩

theorem chargeAndSettle_initial : Initial ⟨0, 0⟩ 7 chargeAndSettle Fin.val (plainTables onlySub)
    (plainSub 7 100 0) where
  connections := Fin.val_injective
  found := by decide
  nonneg := by decide
  bounded := by decide
  noReset := by
    intro i pre hi plan hplan
    have hp : plan = plainPlan := by
      have hfind : (plainTables onlySub).plans.find? 3 = some plainPlan := by decide
      exact some.inj (hplan.symm.trans hfind)
    subst hp
    have hperiod : normalizeResetPeriod plainPlan.quotaResetPeriod = .never := by decide
    simp [maybeReset, hperiod]
  fresh := fun _ _ _ => rfl
  distinct := by
    intro i j pre pre' hij hi hj
    fin_cases i <;> fin_cases j <;> simp_all [chargeAndSettle]

theorem counter_adds_up_for_charge_and_settle :
    (∀ p, Reaches ⟨0, 0⟩ chargeAndSettle Fin.val (plainTables onlySub)
      (fun _ _ _ _ => True) p → ∃ used, usedOf p.state.state.committed 7 = some used ∧
        (0 < (100 : ℤ) → used ≤ 100)) ∧
    ∀ p, Reaches ⟨0, 0⟩ chargeAndSettle Fin.val (plainTables onlySub)
      (fun i => CommitsCurrent 7 i.val (chargeAndSettle i)) p →
      usedOf p.state.state.committed 7 =
        some (0 + ∑ i, (chargeAndSettle i).delta 7 (p.result? i)) :=
  counter_adds_up_when_commits_are_current chargeAndSettle_initial

def twoSettlements : Fin 2 → SubCall := fun _ => .postConsume 7 10

/-- Both calls return nil and the counter has moved by one delta only. -/
theorem overlapping_settlements_lose_one_delta :
    ∃ p, Reaches ⟨0, 0⟩ twoSettlements Fin.val (plainTables onlySub) (fun _ _ _ _ => True) p ∧
      p.result? 0 = some (.ok none) ∧ p.result? 1 = some (.ok none) ∧
      usedOf p.state.state.committed 7 = some 10 ∧
      (plainSub 7 100 0).amountUsed + ∑ i, (twoSettlements i).delta 7 (p.result? i) = 20 := by
  have hplay : ((begin ⟨0, 0⟩ twoSettlements Fin.val (plainTables onlySub) []).play
      (faultyHandle engine) (fun (x : Empty) _ => x.elim)
      [.inl 0, .inl 0, .inl 1, .inl 1, .inl 0, .inl 0, .inl 1, .inl 1]).map
        (fun p => (p.result? 0, p.result? 1, usedOf p.state.state.committed 7)) =
      some (some (.ok none), some (.ok none), some 10) := by decide
  obtain ⟨p, hp, hobs⟩ := map_eq_some_iff.mp hplay
  simp only [Prod.mk.injEq] at hobs
  obtain ⟨h0, h1, hused⟩ := hobs
  refine ⟨p, ⟨[], play_run_alone hp⟩, h0, h1, hused, ?_⟩
  rw [Fin.sum_univ_two, h0, h1]
  rfl

end SubscriptionInterleaving
