import TinyToken.BillingCharges

/-! Midjourney tasks: a submission is charged or not by its action and the upstream's answer
and leaves a row with the price; the poller later refunds the price of tasks that it finds
failed. `RelayMidjourneySubmit` from the resolved action on, and one round of
`UpdateMidjourneyTaskBulk`. -/
namespace MidjourneyTasks

open KeyedTable BillingStore BillingSession BillingEffects BillingCharges List Option Function Table

structure Midjourney where
  id : ℤ
  code : ℤ
  userId : ℤ
  action : String
  mjId : String
  promptEn : String
  state : String
  submitTime : ℤ
  startTime : ℤ
  finishTime : ℤ
  imageUrl : String
  videoUrl : String
  videoUrls : String
  status : String
  progress : String
  failReason : String
  channelId : ℤ
  quota : ℤ
  deriving DecidableEq

inductive Entry where
  | taken (task : Option ℤ) (userId amount : ℤ)
  | refunded (task userId amount : ℤ)

structure MjWorld where
  tasks : Table Midjourney ℤ Midjourney.id
  ledger : Ledger
  entries : List Entry

def MjWorld.start (ledger : Ledger) : MjWorld := ⟨.empty, ledger, []⟩

structure MidjourneyResponse where
  code : ℤ
  description : String
  result : String
  /-- `imageUrl` and `status` of the properties, when both are texts -/
  properties : Option (String × String)

/-- A submission whose request has been parsed, with what the upstream answers. -/
structure Submission where
  info : RelayInfo
  action : String
  /-- `priceData.Quota` -/
  price : ℤ
  userQuota : ℤ
  statusCode : ℕ
  response : MidjourneyResponse
  channelId : ℤ
  channelFound : Bool
  now : ℤ

namespace Submission

variable (s : Submission)

def consumesByAction : Bool := s.action ≠ "INPAINT" ∧ s.action ≠ "CUSTOM_ZOOM"

def accepted : Bool :=
  s.response.code = 1 ∨ s.response.code = 21 ∨ s.response.code = 22

/-- The condition of the deferred charge once the answer has been looked at. -/
def charges : Bool := s.consumesByAction && s.accepted && s.statusCode = 200

def baseTask (id : ℤ) : Midjourney where
  id := id
  code := s.response.code
  userId := s.info.userId
  action := s.action
  mjId := s.response.result
  promptEn := ""
  state := ""
  submitTime := s.now
  startTime := 0
  finishTime := 0
  imageUrl := ""
  videoUrl := ""
  videoUrls := ""
  status := ""
  progress := "0%"
  failReason := if s.accepted then "" else s.response.description
  channelId := s.channelId
  quota := s.price

def existing (task : Midjourney) : Midjourney :=
  match s.response.code, s.response.properties with
  | 21, some (imageUrl, status) =>
    if status = "SUCCESS" then
      { task with
        imageUrl := imageUrl
        status := status
        progress := "100%"
        startTime := s.now
        finishTime := s.now }
    else { task with imageUrl := imageUrl, status := status }
  | _, _ => task

/-- The answer's code after an existing task with a result has been taken as submitted. -/
def finalCode : ℤ :=
  match s.response.code, s.response.properties with
  | 21, some (_, status) => if status = "SUCCESS" then 1 else 21
  | code, _ => code

def task (id : ℤ) : Midjourney :=
  if s.finalCode = 1 ∧ s.action = "UPLOAD" then
    { s.existing (s.baseTask id) with progress := "100%", status := "SUCCESS" }
  else s.existing (s.baseTask id)

end Submission

inductive SubmitResult where
  | stored
  | refused (code : ℤ) (description : String)
  | crashed

variable (t : Table Midjourney ℤ Midjourney.id)

def nextId : ℤ := (t.rows.map Midjourney.id).foldr max 0 + 1

/-- `PostConsumeQuota` of the price, where no write fails. -/
def MjWorld.charge (w : MjWorld) (s : Submission) (task : Option ℤ) : MjWorld :=
  { w with
    ledger := charged s.info s.price w.ledger
    entries := w.entries ++ [.taken task s.info.userId s.price] }

def relayMidjourneySubmit (s : Submission) (w : MjWorld) : MjWorld × SubmitResult :=
  if s.consumesByAction ∧ s.userQuota - s.price < 0 then (w, .refused 4 "quota_not_enough")
  else if s.response.code = 3 ∧ s.channelFound = false then
    -- the missing channel is dereferenced, and the deferred charge runs all the same
    (if s.consumesByAction ∧ s.statusCode = 200 then w.charge s none else w, .crashed)
  else
    let id := nextId w.tasks
    let stored := { w with tasks := w.tasks.insert (s.task id) }
    (if s.charges then stored.charge s (some id) else stored, .stored)

structure MidjourneyDto where
  mjId : String
  promptEn : String
  state : String
  submitTime : ℤ
  startTime : ℤ
  finishTime : ℤ
  imageUrl : String
  videoUrl : String
  videoUrls : String
  status : String
  progress : String
  failReason : String

structure Answer where
  item : MidjourneyDto
  now : ℤ

inductive ChannelAnswer where
  /-- `CacheGetChannel` fails -/
  | missing
  | noBaseUrl
  | silent
  | items (answers : List Answer)

/-- The order in which the channels are visited and what each of them answers. -/
structure Round where
  order : List ℤ
  answer : ℤ → ChannelAnswer

def checkMjTaskNeedUpdate (oldTask : Midjourney) (newTask : MidjourneyDto) : Bool :=
  oldTask.code ≠ 1 ∨ oldTask.progress ≠ newTask.progress ∨ oldTask.promptEn ≠ newTask.promptEn ∨
    oldTask.state ≠ newTask.state ∨ oldTask.submitTime ≠ newTask.submitTime ∨
    oldTask.startTime ≠ newTask.startTime ∨ oldTask.finishTime ≠ newTask.finishTime ∨
    oldTask.imageUrl ≠ newTask.imageUrl ∨ oldTask.status ≠ newTask.status ∨
    oldTask.failReason ≠ newTask.failReason ∨
    (oldTask.progress ≠ "100%" ∧ newTask.failReason ≠ "") ∨
    oldTask.videoUrl ≠ newTask.videoUrl ∨ oldTask.videoUrls ≠ newTask.videoUrls

def timedOut (task : Midjourney) (a : Answer) : MidjourneyDto :=
  if a.now - task.submitTime > 3600000 ∧ task.progress ≠ "100%" then
    { a.item with failReason := "上游任务超时（超过1小时）", status := "FAILURE" }
  else a.item

def Midjourney.updated (task : Midjourney) (item : MidjourneyDto) : Midjourney :=
  { task with
    code := 1
    progress := item.progress
    promptEn := item.promptEn
    state := item.state
    submitTime := item.submitTime
    startTime := item.startTime
    finishTime := item.finishTime
    imageUrl := item.imageUrl
    status := item.status
    failReason := item.failReason
    videoUrl := item.videoUrl
    videoUrls := item.videoUrls }

def failed (item : MidjourneyDto) : Bool :=
  (item.progress ≠ "100%" ∧ item.failReason ≠ "") ∨
    (item.progress = "100%" ∧ item.status = "FAILURE")

def Midjourney.polled (task : Midjourney) (item : MidjourneyDto) : Midjourney :=
  if failed item then { task.updated item with progress := "100%" } else task.updated item

/-- `UpdateWithStatus`: writes the task if its row still has the status. -/
def updateWithStatus (task : Midjourney) (fromStatus : String) :
    Table Midjourney ℤ Midjourney.id × Bool :=
  match t.find? task.id with
  | some row => if row.status = fromStatus then (t.replace task, true) else (t, false)
  | none => (t, false)

/-- `IncreaseUserQuota` refuses a negative quota. -/
def MjWorld.refund (w : MjWorld) (task : Midjourney) : MjWorld :=
  if task.quota < 0 then w
  else { w with
    ledger := w.ledger.addWallet task.userId task.quota
    entries := w.entries ++ [.refunded task.id task.userId task.quota] }

structure Polling where
  world : MjWorld
  taskM : String → Option Midjourney

/-- `none` is a crash: the item's id is not in the map and the missing task is dereferenced. -/
def pollItem (p : Polling) (a : Answer) : Option Polling :=
  match p.taskM a.item.mjId with
  | none => none
  | some task =>
    let item := timedOut task a
    if checkMjTaskNeedUpdate task item = false then some p
    else
      let task' := task.polled item
      let (tasks, won) := updateWithStatus p.world.tasks task' task.status
      let written := { p.world with tasks := tasks }
      some {
        world := if won ∧ failed item ∧ task.quota ≠ 0 then written.refund task' else written
        taskM := update p.taskM a.item.mjId (some task') }

def pollItems : List Answer → Polling → Option Polling
  | [], p => some p
  | a :: answers, p => (pollItem p a).bind (pollItems answers)

def Midjourney.giveUp (task : Midjourney) : Midjourney :=
  { task with status := "FAILURE", progress := "100%" }

/-- `MjBulkUpdateByTaskIds` of tasks without an upstream id. -/
def failNullTasks (ids : List ℤ) :
    Table Midjourney ℤ Midjourney.id :=
  t.modify (fun row => if row.id ∈ ids then row.giveUp else row) fun row => by split <;> rfl

/-- `MjBulkUpdate` of the tasks of a missing channel, by upstream id. -/
def failChannelTasks (channelId : ℤ) (mjIds : List String) :
    Table Midjourney ℤ Midjourney.id :=
  t.modify
    (fun row => if row.mjId ∈ mjIds then
      { row.giveUp with failReason := s!"获取渠道信息失败，请联系管理员，渠道ID：{channelId}" } else row)
    fun row => by split <;> rfl

def unfinished (w : MjWorld) : List Midjourney := w.tasks.rows.filter fun row => row.progress ≠ "100%"

def live (w : MjWorld) : List Midjourney := (unfinished w).filter fun row => row.mjId ≠ ""

def idsOfChannel (w : MjWorld) (channelId : ℤ) : List String :=
  ((live w).filter fun row => row.channelId = channelId).map Midjourney.mjId

def pollChannel (r : Round) (channelId : ℤ) (mjIds : List String) (p : Polling) : Option Polling :=
  match r.answer channelId with
  | .missing =>
    some { p with world := { p.world with
      tasks := failChannelTasks p.world.tasks channelId mjIds } }
  | .noBaseUrl => none
  | .silent => some p
  | .items answers => pollItems answers p

def pollChannels (r : Round) (ids : ℤ → List String) : List ℤ → Polling → Option Polling
  | [], p => some p
  | channelId :: channels, p =>
    (pollChannel r channelId (ids channelId) p).bind (pollChannels r ids channels)

def visited (r : Round) (w : MjWorld) : List ℤ :=
  r.order.dedup.filter fun channelId => idsOfChannel w channelId ≠ []

def taskMap (w : MjWorld) (mjId : String) : Option Midjourney :=
  (live w).reverse.find? fun row => row.mjId = mjId

def nullTaskIds (w : MjWorld) : List ℤ :=
  ((unfinished w).filter fun row => row.mjId = "").map Midjourney.id

def beginRound (w : MjWorld) : Polling where
  world := { w with tasks := failNullTasks w.tasks (nullTaskIds w) }
  taskM := taskMap w

def updateMidjourneyTaskBulk (r : Round) (w : MjWorld) : Option MjWorld :=
  (pollChannels r (idsOfChannel w) (visited r w) (beginRound w)).map Polling.world

def Entry.takenFor (id : ℤ) : Entry → Option ℤ
  | .taken (some task) _ amount => if task = id then some amount else none
  | _ => none

def Entry.refundFor (id : ℤ) : Entry → Option ℤ
  | .refunded task _ amount => if task = id then some amount else none
  | _ => none

def takenOf (id : ℤ) (entries : List Entry) : ℤ := (entries.filterMap (Entry.takenFor id)).sum

def refundsOf (id : ℤ) (entries : List Entry) : List ℤ := entries.filterMap (Entry.refundFor id)

def Entry.share (userId : ℤ) : Entry → ℤ
  | .taken _ user amount => if user = userId then -amount else 0
  | .refunded _ user amount => if user = userId then amount else 0

def net (userId : ℤ) (entries : List Entry) : ℤ := (entries.map (Entry.share userId)).sum

section Entries

variable (id : ℤ) (entries : List Entry) (task userId amount : ℤ)

theorem takenOf_taken : takenOf id (entries ++ [.taken (some task) userId amount]) =
    takenOf id entries + if task = id then amount else 0 := by
  by_cases h : task = id <;> simp [takenOf, Entry.takenFor, h]

theorem takenOf_taken_none : takenOf id (entries ++ [.taken none userId amount]) =
    takenOf id entries := by
  rw [takenOf, filterMap_append, sum_append]
  exact add_zero _

@[simp] theorem takenOf_refunded : takenOf id (entries ++ [.refunded task userId amount]) =
    takenOf id entries := by
  rw [takenOf, filterMap_append, sum_append]
  exact add_zero _

@[simp] theorem refundsOf_taken (task : Option ℤ) :
    refundsOf id (entries ++ [.taken task userId amount]) = refundsOf id entries := by
  simp [refundsOf, Entry.refundFor]

theorem refundsOf_refunded : refundsOf id (entries ++ [.refunded task userId amount]) =
    refundsOf id entries ++ if task = id then [amount] else [] := by
  by_cases h : task = id <;> simp [refundsOf, Entry.refundFor, h]

end Entries

/-- The account of one task: it was charged its price, or owes nothing; it is refunded at
most once, and for certain when it has failed. -/
structure TaskOk (entries : List Entry) (row : Midjourney) : Prop where
  nonneg : 0 ≤ row.quota
  kind : (takenOf row.id entries = row.quota ∧ row.mjId ≠ "") ∨
    (takenOf row.id entries = 0 ∧ (row.quota = 0 ∨ row.mjId = ""))
  refunds : refundsOf row.id entries = [] ∨
    (refundsOf row.id entries = [takenOf row.id entries] ∧ row.progress = "100%")
  failure : row.status = "FAILURE" → row.progress = "100%" → takenOf row.id entries ≠ 0 →
    refundsOf row.id entries = [takenOf row.id entries]

structure Balanced (w : MjWorld) : Prop where
  tasks : ∀ id row, w.tasks.find? id = some row → TaskOk w.entries row
  others : ∀ id, w.tasks.find? id = none → takenOf id w.entries = 0 ∧ refundsOf id w.entries = []

variable {entries : List Entry} {row : Midjourney}

theorem TaskOk.taken_nonneg (h : TaskOk entries row) : 0 ≤ takenOf row.id entries := by
  rcases h.kind with ⟨htaken, -⟩ | ⟨htaken, -⟩
  · rw [htaken]
    exact h.nonneg
  · rw [htaken]

theorem TaskOk.refunds_le (h : TaskOk entries row) :
    (refundsOf row.id entries).sum ≤ takenOf row.id entries := by
  rcases h.refunds with hnone | ⟨hone, -⟩
  · rw [hnone]
    exact h.taken_nonneg
  · rw [hone]
    simp

theorem TaskOk.congr {entries entries' : List Entry} (h : TaskOk entries row)
    (htaken : takenOf row.id entries' = takenOf row.id entries)
    (hrefunds : refundsOf row.id entries' = refundsOf row.id entries) : TaskOk entries' row := by
  obtain ⟨hnonneg, hkind, hback, hfailure⟩ := h
  rw [← htaken] at hkind
  rw [← htaken, ← hrefunds] at hback
  rw [← htaken, ← hrefunds] at hfailure
  exact ⟨hnonneg, hkind, hback, hfailure⟩

section Polled

variable {entries : List Entry} {task : Midjourney} {item : MidjourneyDto}

@[simp] theorem polled_id : (task.polled item).id = task.id := by
  unfold Midjourney.polled
  split <;> rfl

@[simp] theorem polled_mjId : (task.polled item).mjId = task.mjId := by
  unfold Midjourney.polled
  split <;> rfl

@[simp] theorem polled_quota : (task.polled item).quota = task.quota := by
  unfold Midjourney.polled
  split <;> rfl

theorem polled_progress_of_failed (h : failed item = true) :
    (task.polled item).progress = "100%" := by
  unfold Midjourney.polled
  rw [if_pos h]

theorem failed_of_polled_failure (hstatus : (task.polled item).status = "FAILURE")
    (hprogress : (task.polled item).progress = "100%") : failed item = true := by
  by_contra hnot
  unfold Midjourney.polled at hstatus hprogress
  rw [if_neg hnot] at hstatus hprogress
  apply hnot
  have hs : item.status = "FAILURE" := hstatus
  have hp : item.progress = "100%" := hprogress
  simp [failed, hs, hp]

theorem taken_of_live (h : TaskOk entries task) (hid : task.mjId ≠ "") :
    takenOf task.id entries = task.quota := by
  rcases h.kind with ⟨htaken, -⟩ | ⟨htaken, hquota | hnull⟩
  · exact htaken
  · rw [htaken, hquota]
  · exact absurd hnull hid

theorem refunds_of_unfinished (h : TaskOk entries task) (hprogress : task.progress ≠ "100%") :
    refundsOf task.id entries = [] := by
  rcases h.refunds with hnone | ⟨-, hdone⟩
  · exact hnone
  · exact absurd hdone hprogress

theorem TaskOk.polled_refunded (h : TaskOk entries task) (hid : task.mjId ≠ "")
    (hprogress : task.progress ≠ "100%") (hfailed : failed item = true) :
    TaskOk (entries ++ [.refunded task.id (task.polled item).userId task.quota])
      (task.polled item) := by
  have htaken := taken_of_live h hid
  have hnone := refunds_of_unfinished h hprogress
  have hrefunds : refundsOf (task.polled item).id
      (entries ++ [.refunded task.id (task.polled item).userId task.quota]) = [task.quota] := by
    rw [refundsOf_refunded, polled_id, hnone, if_pos rfl]
    rfl
  have htaken' : takenOf (task.polled item).id
      (entries ++ [.refunded task.id (task.polled item).userId task.quota]) = task.quota := by
    rw [takenOf_refunded, polled_id, htaken]
  refine ⟨?_, ?_, ?_, ?_⟩
  · rw [polled_quota]
    exact h.nonneg
  · rw [htaken', polled_quota, polled_mjId]
    exact .inl ⟨rfl, hid⟩
  · rw [hrefunds, htaken']
    exact .inr ⟨rfl, polled_progress_of_failed hfailed⟩
  · rw [hrefunds, htaken']
    exact fun _ _ _ => rfl

theorem TaskOk.polled_kept (h : TaskOk entries task) (hid : task.mjId ≠ "")
    (hprogress : task.progress ≠ "100%") (hkept : ¬ (failed item = true ∧ task.quota ≠ 0)) :
    TaskOk entries (task.polled item) := by
  have htaken := taken_of_live h hid
  have hnone := refunds_of_unfinished h hprogress
  refine ⟨?_, ?_, ?_, ?_⟩
  · rw [polled_quota]
    exact h.nonneg
  · rw [polled_id, polled_quota, polled_mjId]
    exact .inl ⟨htaken, hid⟩
  · rw [polled_id]
    exact .inl hnone
  · intro hstatus hdone hpaid
    rw [polled_id, htaken] at hpaid
    exact absurd ⟨failed_of_polled_failure hstatus hdone, hpaid⟩ hkept

end Polled

def Ready (p : Polling) (pending : List String) : Prop :=
  ∀ m ∈ pending, ∃ task, p.taskM m = some task ∧ task.mjId = m ∧ m ≠ "" ∧
    task.progress ≠ "100%" ∧ p.world.tasks.find? task.id = some task

variable {task task' : Midjourney}

theorem updateWithStatus_won {t : Table Midjourney ℤ Midjourney.id}
    (h : t.find? task.id = some task) (hid : task'.id = task.id) :
    updateWithStatus t task' task.status = (t.replace task', true) := by
  unfold updateWithStatus
  rw [hid, h]
  exact if_pos rfl

variable {w : MjWorld}

variable {ledger : Ledger}

theorem Balanced.replace (h : Balanced w) (hrow : w.tasks.find? task.id = some task)
    (hid : task'.id = task.id) (hok : TaskOk entries task')
    (hsame : ∀ id, id ≠ task.id → takenOf id entries = takenOf id w.entries ∧
      refundsOf id entries = refundsOf id w.entries) :
    Balanced ⟨w.tasks.replace task', ledger, entries⟩ := by
  constructor
  · intro id row hfind
    rw [find?_replace, hid] at hfind
    by_cases he : id = task.id
    · rw [if_pos he, he, hrow] at hfind
      cases hfind
      exact hok
    · rw [if_neg he] at hfind
      have hkey : row.id = id := find?_some_key hfind
      obtain ⟨htaken, hrefunds⟩ := hsame row.id (hkey ▸ he)
      exact (h.tasks id row hfind).congr htaken hrefunds
  · intro id hfind
    rw [find?_replace, hid] at hfind
    by_cases he : id = task.id
    · rw [if_pos he, he, hrow] at hfind
      cases hfind
    · rw [if_neg he] at hfind
      obtain ⟨htaken, hrefunds⟩ := hsame id he
      rw [htaken, hrefunds]
      exact h.others id hfind

variable {pending : List String}

variable {r : Round} {p : Polling}

theorem Ready.replace {m : String} {world : MjWorld} (h : Ready p pending) (hm : m ∉ pending)
    (htask : task.mjId = m) (hrow : p.world.tasks.find? task.id = some task)
    (hid : task'.id = task.id) (htasks : world.tasks = p.world.tasks.replace task') :
    Ready ⟨world, update p.taskM m (some task')⟩ pending := by
  intro n hn
  obtain ⟨other, hother, hmj, hne, hprogress, hfind⟩ := h n hn
  have hnm : n ≠ m := fun e => hm (e ▸ hn)
  refine ⟨other, ?_, hmj, hne, hprogress, ?_⟩
  · exact (update_of_ne hnm _ _).trans hother
  · have hids : other.id ≠ task.id := by
      intro he
      rw [he, hrow] at hfind
      cases hfind
      exact hnm (hmj.symm.trans htask)
    rw [htasks, find?_replace, hid, if_neg hids]
    exact hfind

theorem pollItem_keeps {a : Answer} (hb : Balanced p.world)
    (hready : Ready p (a.item.mjId :: pending)) (hnew : a.item.mjId ∉ pending) :
    ∃ p', pollItem p a = some p' ∧ Balanced p'.world ∧ Ready p' pending := by
  obtain ⟨task, hmap, hmj, hne, hprogress, hrow⟩ := hready a.item.mjId mem_cons_self
  have hrest : Ready p pending := fun m hm => hready m (mem_cons_of_mem _ hm)
  have hok := hb.tasks task.id task hrow
  unfold pollItem
  rw [hmap]
  dsimp only
  split
  · exact ⟨p, rfl, hb, hrest⟩
  · rw [updateWithStatus_won hrow polled_id]
    refine ⟨_, rfl, ?_, ?_⟩
    · split
      next hback =>
        have hquota : 0 ≤ (task.polled (timedOut task a)).quota := by
          rw [polled_quota]
          exact hok.nonneg
        rw [MjWorld.refund, if_neg (not_lt.mpr hquota), polled_id, polled_quota]
        refine hb.replace hrow polled_id (hok.polled_refunded (hmj ▸ hne) hprogress hback.2.1) ?_
        intro id hid
        refine ⟨takenOf_refunded _ _ _ _ _, ?_⟩
        rw [refundsOf_refunded, if_neg fun e => hid e.symm, append_nil]
      next hkept =>
        refine hb.replace hrow polled_id (hok.polled_kept (hmj ▸ hne) hprogress ?_)
          fun id _ => ⟨rfl, rfl⟩
        exact fun h => hkept ⟨rfl, h⟩
    · apply hrest.replace hnew hmj hrow polled_id
      split
      · unfold MjWorld.refund
        split <;> rfl
      · rfl

theorem pollItems_keeps {answers : List Answer} (hb : Balanced p.world)
    (hready : Ready p (answers.map (fun a => a.item.mjId) ++ pending))
    (hnodup : (answers.map (fun a => a.item.mjId) ++ pending).Nodup) :
    ∃ p', pollItems answers p = some p' ∧ Balanced p'.world ∧ Ready p' pending := by
  induction answers generalizing p with
  | nil => exact ⟨p, rfl, hb, hready⟩
  | cons a answers ih =>
    rw [map_cons, cons_append] at hready hnodup
    obtain ⟨hnew, hnodup⟩ := nodup_cons.mp hnodup
    obtain ⟨q, hq, hqb, hqready⟩ := pollItem_keeps hb hready hnew
    obtain ⟨p', hp', hpb, hpready⟩ := ih hqb hqready hnodup
    refine ⟨p', ?_, hpb, hpready⟩
    rw [pollItems, hq]
    exact hp'

def answeredIds (r : Round) (channelId : ℤ) : List String :=
  match r.answer channelId with
  | .items answers => answers.map fun a => a.item.mjId
  | _ => []

def Reachable (r : Round) (channelId : ℤ) : Prop :=
  match r.answer channelId with
  | .missing => False
  | .noBaseUrl => False
  | _ => True

theorem pollChannels_keeps {ids : ℤ → List String} {channels : List ℤ}
    (hreach : ∀ channelId ∈ channels, Reachable r channelId) (hb : Balanced p.world)
    (hready : Ready p (channels.flatMap (answeredIds r)))
    (hnodup : (channels.flatMap (answeredIds r)).Nodup) :
    ∃ p', pollChannels r ids channels p = some p' ∧ Balanced p'.world := by
  induction channels generalizing p with
  | nil => exact ⟨p, rfl, hb⟩
  | cons channelId channels ih =>
    have hrest : ∀ c ∈ channels, Reachable r c := fun c hc => hreach c (mem_cons_of_mem _ hc)
    have hhere := hreach channelId mem_cons_self
    rw [flatMap_cons] at hready hnodup
    have hstep : ∃ q, pollChannel r channelId (ids channelId) p = some q ∧ Balanced q.world ∧
        Ready q (channels.flatMap (answeredIds r)) := by
      unfold Reachable at hhere
      unfold answeredIds at hready hnodup
      unfold pollChannel
      cases hanswer : r.answer channelId with
      | missing =>
        rw [hanswer] at hhere
        exact hhere.elim
      | noBaseUrl =>
        rw [hanswer] at hhere
        exact hhere.elim
      | silent =>
        rw [hanswer] at hready
        exact ⟨p, rfl, hb, hready⟩
      | items answers =>
        rw [hanswer] at hready hnodup
        exact pollItems_keeps hb hready hnodup
    obtain ⟨q, hq, hqb, hqready⟩ := hstep
    have hnodup' := (nodup_append.mp hnodup).2.1
    obtain ⟨p', hp', hpb⟩ := ih hrest hqb hqready hnodup'
    refine ⟨p', ?_, hpb⟩
    rw [pollChannels, hq]
    exact hp'

/-- What a round may meet: every channel of a task that is asked for is there, and the
answers name such tasks only, none of them twice. -/
structure OrderlyRound (r : Round) (w : MjWorld) : Prop where
  reachable : ∀ channelId ∈ visited r w, Reachable r channelId
  known : ∀ m ∈ (visited r w).flatMap (answeredIds r), ∃ row ∈ live w, row.mjId = m
  once : ((visited r w).flatMap (answeredIds r)).Nodup

theorem mem_live : row ∈ live w ↔ row ∈ w.tasks.rows ∧ row.progress ≠ "100%" ∧ row.mjId ≠ "" := by
  simp only [live, unfinished, mem_filter, decide_eq_true_eq]
  constructor
  · rintro ⟨⟨hrow, hprogress⟩, hid⟩
    exact ⟨hrow, hprogress, hid⟩
  · rintro ⟨hrow, hprogress, hid⟩
    exact ⟨⟨hrow, hprogress⟩, hid⟩

theorem taskMap_of_live {m : String} (h : ∃ row ∈ live w, row.mjId = m) :
    ∃ task, taskMap w m = some task ∧ task ∈ live w ∧ task.mjId = m := by
  obtain ⟨row, hrow, hm⟩ := h
  cases hfind : taskMap w m with
  | none =>
    have hnone := find?_eq_none.mp hfind row (mem_reverse.mpr hrow)
    exact absurd hm (by simpa using hnone)
  | some task =>
    refine ⟨task, rfl, mem_reverse.mp (mem_of_find?_eq_some hfind), ?_⟩
    simpa using find?_some hfind

theorem find?_failNullTasks (ids : List ℤ) (id : ℤ) :
    (failNullTasks t ids).find? id =
      (t.find? id).map fun row => if row.id ∈ ids then row.giveUp else row :=
  find?_modify t _ _ id

theorem Balanced.failNullTasks (h : Balanced w) {ids : List ℤ}
    (hnull : ∀ row ∈ w.tasks.rows, row.id ∈ ids → row.mjId = "") :
    Balanced { w with tasks := failNullTasks w.tasks ids } := by
  constructor
  · intro id row hfind
    rw [find?_failNullTasks] at hfind
    obtain ⟨old, hold, rfl⟩ := map_eq_some_iff.mp hfind
    have hok := h.tasks id old hold
    split
    next hmem =>
      have hmj := hnull old (find?_some_mem hold) hmem
      have htaken : takenOf old.id w.entries = 0 := by
        rcases hok.kind with ⟨-, hne⟩ | ⟨hzero, -⟩
        · exact absurd hmj hne
        · exact hzero
      refine ⟨hok.nonneg, .inr ⟨htaken, .inr hmj⟩, ?_, fun _ _ hne => absurd htaken hne⟩
      rcases hok.refunds with hnone | ⟨hone, -⟩
      · exact .inl hnone
      · exact .inr ⟨hone, rfl⟩
    · exact hok
  · intro id hfind
    apply h.others id
    rw [find?_failNullTasks] at hfind
    simpa using hfind

theorem nullTask_of_mem (hrow : row ∈ w.tasks.rows)
    (h : row.id ∈ nullTaskIds w) : row.mjId = "" := by
  obtain ⟨other, hother, hid⟩ := mem_map.mp h
  obtain ⟨hmem, hnull⟩ := mem_filter.mp hother
  have hin : other ∈ w.tasks.rows := (mem_filter.mp hmem).1
  have heq : other = row := eq_of_mem_key hin hrow hid
  rw [← heq]
  simpa using hnull

theorem ready_beginRound
    (h : ∀ m ∈ pending, ∃ row ∈ live w, row.mjId = m) : Ready (beginRound w) pending := by
  intro m hm
  obtain ⟨task, htask, hlive, hmj⟩ := taskMap_of_live (h m hm)
  obtain ⟨hrow, hprogress, hid⟩ := mem_live.mp hlive
  refine ⟨task, htask, hmj, hmj ▸ hid, hprogress, ?_⟩
  have hnot : task.id ∉ nullTaskIds w := fun hnull => hid (nullTask_of_mem hrow hnull)
  simp only [beginRound, find?_failNullTasks, find?_of_mem hrow, map_some, if_neg hnot]

theorem Balanced.round (h : Balanced w) (hr : OrderlyRound r w) :
    ∃ w', updateMidjourneyTaskBulk r w = some w' ∧ Balanced w' := by
  have hb : Balanced (beginRound w).world :=
    h.failNullTasks fun row hrow => nullTask_of_mem hrow
  obtain ⟨p', hp', hpb⟩ := pollChannels_keeps hr.reachable hb
    (ready_beginRound hr.known) hr.once
  refine ⟨p'.world, ?_, hpb⟩
  unfold updateMidjourneyTaskBulk
  rw [hp']
  rfl

/-- A charged task has an upstream id, and an uncharged one has none or costs nothing. -/
structure OrderlySubmission (s : Submission) : Prop where
  price : 0 ≤ s.price
  charged : s.charges = true → s.response.result ≠ ""
  free : s.charges = false → s.price = 0 ∨ s.response.result = ""

theorem lt_nextId {t : Table Midjourney ℤ Midjourney.id} (h : row ∈ t.rows) :
    row.id < nextId t := by
  have hle : ∀ l : List ℤ, ∀ x ∈ l, x ≤ l.foldr max 0 := by
    intro l
    induction l with
    | nil => exact nofun
    | cons y l ih =>
      intro x hx
      rcases mem_cons.mp hx with rfl | hx
      · exact le_max_left _ _
      · exact (ih x hx).trans (le_max_right _ _)
  have := hle (t.rows.map Midjourney.id) row.id (mem_map_of_mem h)
  unfold nextId
  omega

theorem nextId_free : t.find? (nextId t) = none := by
  apply find?_eq_none_iff.mpr
  intro row hrow
  exact ne_of_lt (lt_nextId hrow)

section Submitted

variable (s : Submission) (id : ℤ)

theorem existing_fields (row : Midjourney) :
    (s.existing row).id = row.id ∧ (s.existing row).mjId = row.mjId ∧
      (s.existing row).quota = row.quota := by
  unfold Submission.existing
  split
  · split <;> exact ⟨rfl, rfl, rfl⟩
  · exact ⟨rfl, rfl, rfl⟩

theorem task_fields : (s.task id).id = id ∧ (s.task id).mjId = s.response.result ∧
    (s.task id).quota = s.price := by
  have h := existing_fields s (s.baseTask id)
  unfold Submission.task
  split <;> exact h

theorem existing_success (h : (s.existing (s.baseTask id)).progress = "100%") :
    (s.existing (s.baseTask id)).status = "SUCCESS" := by
  have hbase : (s.baseTask id).progress ≠ "100%" := (by decide : ("0%" : String) ≠ "100%")
  unfold Submission.existing at h ⊢
  split
  · split
    · assumption
    next imageUrl status hcode hprops hnot =>
      simp only [hcode, hprops, if_neg hnot] at h
      exact absurd h hbase
  next hother =>
    split at h
    next imageUrl status hcode hprops =>
      exact (hother imageUrl status hcode hprops).elim
    · exact absurd h hbase

theorem task_not_failed (hstatus : (s.task id).status = "FAILURE") :
    (s.task id).progress ≠ "100%" := by
  intro hdone
  have hsuccess : (s.task id).status = "SUCCESS" := by
    unfold Submission.task at hdone ⊢
    split
    · rfl
    next hupload =>
      rw [if_neg hupload] at hdone
      exact existing_success s id hdone
  exact absurd (hsuccess.symm.trans hstatus) (by decide)

end Submitted

theorem Balanced.insert
    (h : Balanced w) (hfree : w.tasks.find? row.id = none) (hok : TaskOk entries row)
    (hsame : ∀ id, id ≠ row.id → takenOf id entries = takenOf id w.entries ∧
      refundsOf id entries = refundsOf id w.entries) :
    Balanced ⟨w.tasks.insert row, ledger, entries⟩ := by
  constructor
  · intro id other hfind
    by_cases hid : id = row.id
    · rw [hid, find?_insert_self hfree] at hfind
      cases hfind
      exact hok
    · rw [find?_insert_of_ne hid] at hfind
      have hkey : other.id = id := find?_some_key hfind
      obtain ⟨htaken, hrefunds⟩ := hsame other.id (hkey ▸ hid)
      exact (h.tasks id other hfind).congr htaken hrefunds
  · intro id hfind
    by_cases hid : id = row.id
    · rw [hid, find?_insert_self hfree] at hfind
      cases hfind
    · rw [find?_insert_of_ne hid] at hfind
      obtain ⟨htaken, hrefunds⟩ := hsame id hid
      rw [htaken, hrefunds]
      exact h.others id hfind

theorem Balanced.submit (h : Balanced w) {s : Submission} (hs : OrderlySubmission s) :
    Balanced (relayMidjourneySubmit s w).1 := by
  unfold relayMidjourneySubmit
  split
  · exact h
  split
  · split
    · -- a charge without a task is on no account
      constructor
      · intro id row hfind
        refine (h.tasks id row hfind).congr ?_ (refundsOf_taken _ _ _ _ _)
        exact takenOf_taken_none _ _ _ _
      · intro id hfind
        obtain ⟨htaken, hrefunds⟩ := h.others id hfind
        exact ⟨(takenOf_taken_none _ _ _ _).trans htaken, (refundsOf_taken _ _ _ _ _).trans hrefunds⟩
    · exact h
  · have hnew := nextId_free w.tasks
    obtain ⟨hid, hmj, hquota⟩ := task_fields s (nextId w.tasks)
    obtain ⟨htaken, hrefunds⟩ := h.others (nextId w.tasks) hnew
    have hfree : w.tasks.find? (s.task (nextId w.tasks)).id = none := by rw [hid]; exact hnew
    split
    next hcharges =>
      have htaken' : takenOf (nextId w.tasks) (w.entries ++
          [.taken (some (nextId w.tasks)) s.info.userId s.price]) = s.price := by
        rw [takenOf_taken, htaken, if_pos rfl, zero_add]
      refine h.insert hfree ⟨?_, ?_, ?_, ?_⟩ ?_
      · rw [hquota]
        exact hs.price
      · rw [hid, hmj, hquota]
        exact .inl ⟨htaken', hs.charged hcharges⟩
      · rw [hid, refundsOf_taken]
        exact .inl hrefunds
      · exact fun hstatus hdone => absurd hdone (task_not_failed s _ hstatus)
      · intro id hne
        rw [hid] at hne
        refine ⟨?_, refundsOf_taken _ _ _ _ _⟩
        rw [takenOf_taken, if_neg fun e => hne e.symm, add_zero]
    next hcharges =>
      refine h.insert hfree ⟨?_, ?_, ?_, ?_⟩ fun id _ => ⟨rfl, rfl⟩
      · rw [hquota]
        exact hs.price
      · rw [hid, hmj, hquota]
        exact .inr ⟨htaken, hs.free (by simpa using hcharges)⟩
      · rw [hid]
        exact .inl hrefunds
      · exact fun hstatus hdone => absurd hdone (task_not_failed s _ hstatus)

def Wallets (initial : Ledger) (w : MjWorld) : Prop :=
  ∀ userId, w.ledger.wallet userId = (initial.wallet userId).map (· + net userId w.entries)

theorem wallet_add {initial ledger : Ledger} (e : Entry) {user delta : ℤ}
    (h : ∀ userId, ledger.wallet userId = (initial.wallet userId).map (· + net userId entries))
    (he : ∀ userId, e.share userId = if user = userId then delta else 0) (userId : ℤ) :
    (ledger.addWallet user delta).wallet userId =
      (initial.wallet userId).map (· + net userId (entries ++ [e])) := by
  have hnet : net userId (entries ++ [e]) =
      net userId entries + if user = userId then delta else 0 := by
    simp [net, he]
  rw [hnet]
  by_cases hu : userId = user
  · subst hu
    simp only [Ledger.addWallet, Function.update_self, h userId, Option.map_map, if_true]
    congr 1
    funext q
    simp only [Function.comp_apply]
    omega
  · have hne : ¬ user = userId := fun e => hu e.symm
    simp [Ledger.addWallet, update_of_ne hu, h userId, hne]

variable {initial : Ledger}

theorem Wallets.charge (h : Wallets initial w) (s : Submission)
    (task : Option ℤ) : Wallets initial (w.charge s task) := by
  intro userId
  simp only [MjWorld.charge, charged, tokenCharged_wallet]
  exact wallet_add (.taken task s.info.userId s.price) h (fun _ => rfl) userId

theorem Wallets.refund (h : Wallets initial w)
    (task : Midjourney) : Wallets initial (w.refund task) := by
  unfold MjWorld.refund
  split
  · exact h
  · exact wallet_add (.refunded task.id task.userId task.quota) h fun _ => rfl

theorem Wallets.submit (h : Wallets initial w) (s : Submission) :
    Wallets initial (relayMidjourneySubmit s w).1 := by
  unfold relayMidjourneySubmit
  split
  · exact h
  split
  · split
    · exact h.charge s none
    · exact h
  · split
    · exact Wallets.charge h s _
    · exact h

section

variable {p p' : Polling} (h : Wallets initial p.world)
include h

theorem Wallets.item {a : Answer} (hp : pollItem p a = some p') : Wallets initial p'.world := by
  unfold pollItem at hp
  split at hp
  · cases hp
  · dsimp only at hp
    split at hp
    · cases hp
      exact h
    · cases hp
      split
      · apply Wallets.refund
        exact h
      · exact h

theorem Wallets.items {answers : List Answer} (hp : pollItems answers p = some p') :
    Wallets initial p'.world := by
  induction answers generalizing p with
  | nil =>
    cases hp
    exact h
  | cons a answers ih =>
    obtain ⟨q, hq, hp⟩ := bind_eq_some_iff.mp hp
    exact ih (h.item hq) hp

theorem Wallets.channels {ids : ℤ → List String} {channels : List ℤ}
    (hp : pollChannels r ids channels p = some p') :
    Wallets initial p'.world := by
  induction channels generalizing p with
  | nil =>
    cases hp
    exact h
  | cons channelId channels ih =>
    obtain ⟨q, hq, hp⟩ := bind_eq_some_iff.mp hp
    refine ih ?_ hp
    unfold pollChannel at hq
    split at hq
    · cases hq
      exact h
    · cases hq
    · cases hq
      exact h
    · exact h.items hq

end

theorem Wallets.round {w w' : MjWorld} (h : Wallets initial w)
    (hr : updateMidjourneyTaskBulk r w = some w') : Wallets initial w' := by
  obtain ⟨p, hp, rfl⟩ := map_eq_some_iff.mp hr
  exact Wallets.channels (p := beginRound w) h hp

inductive MjEvent where
  | submit (s : Submission)
  | poll (r : Round)

/-- `none` is a crash of the poller. -/
def MjEvent.apply : MjEvent → MjWorld → Option MjWorld
  | .submit s, w => some (relayMidjourneySubmit s w).1
  | .poll r, w => updateMidjourneyTaskBulk r w

def Orderly : MjEvent → MjWorld → Prop
  | .submit s, _ => OrderlySubmission s
  | .poll r, w => OrderlyRound r w

/-- Submissions and poll rounds in any order; `allowed` restricts them by the state they
meet. -/
inductive MjRun (allowed : MjEvent → MjWorld → Prop) (w₀ : MjWorld) : MjWorld → Prop
  | start : MjRun allowed w₀ w₀
  | step {w w' : MjWorld} (e : MjEvent) : MjRun allowed w₀ w → allowed e w →
      e.apply w = some w' → MjRun allowed w₀ w'

theorem Balanced.apply {e : MjEvent} (h : Balanced w) (he : Orderly e w) :
    ∃ w', e.apply w = some w' ∧ Balanced w' := by
  cases e with
  | submit s => exact ⟨_, rfl, h.submit he⟩
  | poll r => exact h.round he

theorem balanced_start (ledger : Ledger) : Balanced (MjWorld.start ledger) where
  tasks := by
    nofun
  others := fun id _ => ⟨rfl, rfl⟩

theorem wallets_start (ledger : Ledger) : Wallets ledger (MjWorld.start ledger) := by
  intro userId
  simp [MjWorld.start, net]

theorem MjRun.balanced (h : MjRun Orderly (.start ledger) w) : Balanced w := by
  induction h with
  | start => exact balanced_start ledger
  | step e _ hallowed happly ih =>
    obtain ⟨w', hw', hb⟩ := ih.apply hallowed
    rw [happly] at hw'
    cases hw'
    exact hb

theorem MjRun.wallets {allowed : MjEvent → MjWorld → Prop}
    (h : MjRun allowed (.start ledger) w) : Wallets ledger w := by
  induction h with
  | start => exact wallets_start ledger
  | step e _ _ happly ih =>
    cases e with
    | submit s =>
      cases happly
      exact ih.submit s
    | poll r => exact ih.round happly

/-- In orderly runs the poller does not crash, no task is refunded more than was taken for it,
a failed task is refunded what was taken, once, and the wallets show exactly these entries. -/
theorem refunds_match_charges {ledger : Ledger} {w : MjWorld}
    (hrun : MjRun Orderly (.start ledger) w) :
    (∀ r, OrderlyRound r w → (updateMidjourneyTaskBulk r w).isSome) ∧
    (∀ row ∈ w.tasks.rows, (refundsOf row.id w.entries).sum ≤ takenOf row.id w.entries ∧
      (row.status = "FAILURE" → row.progress = "100%" → takenOf row.id w.entries ≠ 0 →
        refundsOf row.id w.entries = [takenOf row.id w.entries])) ∧
    (∀ userId, w.ledger.wallet userId = (ledger.wallet userId).map (· + net userId w.entries)) := by
  have hb := hrun.balanced
  refine ⟨?_, ?_, hrun.wallets⟩
  · intro r hr
    obtain ⟨w', hw', -⟩ := hb.round hr
    rw [hw']
    rfl
  · intro row hrow
    have hok := hb.tasks row.id row (find?_of_mem hrow)
    exact ⟨hok.refunds_le, hok.failure⟩

section Samples

/-- An imagine task of price 50 on channel 3, answered with this code and upstream id. -/
def sampleSubmission (code : ℤ) (result : String) : Submission where
  info := plainInfo ""
  action := "IMAGINE"
  price := 50
  userQuota := 100
  statusCode := 200
  response := ⟨code, "", result, none⟩
  channelId := 3
  channelFound := true
  now := 0

def failureItem (mjId : String) : Answer where
  item := ⟨mjId, "", "", 0, 0, 0, "", "", "", "FAILURE", "100%", "no image"⟩
  now := 0

def sampleRound (answer : ChannelAnswer) : Round := ⟨[3], fun _ => answer⟩

def sampleStart : MjWorld := .start (plainWorld 100 100 .empty).ledger

def sampleRun (events : List MjEvent) : Option MjWorld :=
  events.foldlM (fun w e => e.apply w) sampleStart

theorem mjRun_of_foldlM {allowed : MjEvent → MjWorld → Prop} {events : List MjEvent}
    {w₀ w w' : MjWorld} (hall : ∀ e w, allowed e w) (hrun : MjRun allowed w₀ w)
    (h : events.foldlM (fun w e => e.apply w) w = some w') : MjRun allowed w₀ w' := by
  induction events generalizing w with
  | nil =>
    cases h
    exact hrun
  | cons e events ih =>
    obtain ⟨v, hv, h⟩ := bind_eq_some_iff.mp h
    exact ih (hrun.step e (hall e w) hv) h

def outcome (w : MjWorld) : ℤ × List ℤ × Option String × Option ℤ :=
  (takenOf 1 w.entries, refundsOf 1 w.entries, (w.tasks.find? 1).map Midjourney.status,
    w.ledger.wallet 1)

end Samples

/-- A charged task that fails gets its 50 back. -/
theorem failed_task_refunded_once : ∃ w, MjRun Orderly sampleStart w ∧
    refundsOf 1 w.entries = [50] ∧
    (∀ row ∈ w.tasks.rows, (refundsOf row.id w.entries).sum ≤ takenOf row.id w.entries) := by
  have hsub : OrderlySubmission (sampleSubmission 1 "a") :=
    ⟨by decide, fun _ => by decide, fun h => absurd h (by decide)⟩
  have hfirst : MjRun Orderly sampleStart (relayMidjourneySubmit (sampleSubmission 1 "a") sampleStart).1 :=
    MjRun.start.step (.submit (sampleSubmission 1 "a")) hsub rfl
  have hround : OrderlyRound (sampleRound (.items [failureItem "a"]))
      (relayMidjourneySubmit (sampleSubmission 1 "a") sampleStart).1 := by
    refine ⟨fun _ _ => trivial, ?_, by decide +kernel⟩
    have hids : (visited (sampleRound (.items [failureItem "a"]))
        (relayMidjourneySubmit (sampleSubmission 1 "a") sampleStart).1).flatMap
          (answeredIds (sampleRound (.items [failureItem "a"]))) = ["a"] := by decide +kernel
    rw [hids]
    intro m hm
    rw [mem_singleton.mp hm]
    exact ⟨(sampleSubmission 1 "a").task 1, by decide +kernel, rfl⟩
  have hobs : ((updateMidjourneyTaskBulk (sampleRound (.items [failureItem "a"]))
      (relayMidjourneySubmit (sampleSubmission 1 "a") sampleStart).1).map outcome) =
        some (50, [50], some "FAILURE", some 100) := by decide +kernel
  obtain ⟨w, hw, hout⟩ := map_eq_some_iff.mp hobs
  have hrun : MjRun Orderly sampleStart w := hfirst.step (.poll _) hround hw
  refine ⟨w, hrun, congrArg (fun o => o.2.1) hout, ?_⟩
  exact fun row hrow => ((refunds_match_charges hrun).2.1 row hrow).1

/-- A task that was not charged is refunded; a charged one on a deleted channel fails without
a refund; a task answered twice is refunded twice; and an unknown id in an answer crashes
the poller. -/
theorem disorderly_rounds_break_the_accounts :
    (∃ w, MjRun (fun _ _ => True) sampleStart w ∧ outcome w = (0, [50], some "FAILURE", some 150)) ∧
    (∃ w, MjRun (fun _ _ => True) sampleStart w ∧ outcome w = (50, [], some "FAILURE", some 50)) ∧
    (∃ w, MjRun (fun _ _ => True) sampleStart w ∧
      outcome w = (50, [50, 50], some "FAILURE", some 150)) ∧
    (∃ w r, MjRun (fun _ _ => True) sampleStart w ∧ updateMidjourneyTaskBulk r w = none) := by
  have runs : ∀ events o, (sampleRun events).map outcome = some o →
      ∃ w, MjRun (fun _ _ => True) sampleStart w ∧ outcome w = o := by
    intro events o h
    obtain ⟨w, hw, hout⟩ := map_eq_some_iff.mp h
    exact ⟨w, mjRun_of_foldlM (fun _ _ => trivial) .start hw, hout⟩
  refine ⟨?_, ?_, ?_, ?_⟩
  · apply runs [.submit (sampleSubmission 24 "a"), .poll (sampleRound (.items [failureItem "a"]))] _
    decide +kernel
  · apply runs [.submit (sampleSubmission 1 "a"), .poll (sampleRound .missing)] _
    decide +kernel
  · refine runs [.submit (sampleSubmission 1 "a"), .poll (sampleRound (.items [failureItem "a",
      { failureItem "a" with item := { (failureItem "a").item with failReason := "again" } }]))] _ ?_
    decide +kernel
  · refine ⟨_, sampleRound (.items [failureItem "b"]),
      MjRun.start.step (.submit (sampleSubmission 1 "a")) trivial rfl, ?_⟩
    have hnone : (updateMidjourneyTaskBulk (sampleRound (.items [failureItem "b"]))
        (relayMidjourneySubmit (sampleSubmission 1 "a") sampleStart).1).isNone := by decide +kernel
    exact isNone_iff_eq_none.mp hnone

end MidjourneyTasks
