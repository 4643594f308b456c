import TinyToken.RelyTriples
import TinyToken.KeyedTable

/-! Asynchronous tasks: the sweep of tasks that have timed out, the poll round over all
platforms, and the fetch by which a user refreshes one task. All of them move the status of
the same rows; a refund or a settlement goes with some of the moves. -/
namespace AsyncTasks

open ProgramSteps KeyedTable

inductive TaskStatus where
  | notStart | submitted | queued | inProgress | failure | success | unknown
  | other (text : String)
  deriving DecidableEq

def TaskStatus.empty : TaskStatus := .other ""

def TaskStatus.terminal : TaskStatus → Bool
  | .failure | .success => true
  | _ => false

inductive TaskPlatform where
  | suno | midjourney
  | other (text : String)
  deriving DecidableEq

structure Task where
  id : ℤ
  taskId : String
  platform : TaskPlatform
  userId : ℤ
  channelId : ℤ
  quota : ℤ
  status : TaskStatus
  failReason : String
  submitTime : ℤ
  startTime : ℤ
  finishTime : ℤ
  progress : String
  upstreamTaskId : String
  resultUrl : String
  perCallBilling : Bool
  data : String

variable (t : Table Task ℤ Task.id) (task : Task) (item : SunoDataResponse)

def Task.getUpstreamTaskId : String :=
  if task.upstreamTaskId ≠ "" then task.upstreamTaskId else task.taskId

/-- What `Snapshot` compares. -/
def Task.snapshot : TaskStatus × String × ℤ × ℤ × String × String × String :=
  (task.status, task.progress, task.startTime, task.finishTime, task.failReason, task.resultUrl,
    task.data)

/-- A refund returns the quota of the task; a settlement takes the difference to what the task
has cost. -/
inductive Entry where
  | refunded (task amount : ℤ)
  | settled (task delta : ℤ)
  deriving DecidableEq

/-- What a call still has to do for a task: bill a status it has written, or write the row it
has refunded. -/
inductive Due where
  | refund | settle | row
  deriving DecidableEq

/-- The tasks and the bills. `due` is a history variable: the call that has to go on with a
task. -/
structure TaskWorld where
  tasks : Table Task ℤ Task.id
  journal : List Entry
  due : ℤ → Option (ℕ × Due)

inductive TaskOp where
  | timedOut (cutoff : ℤ) (limit : ℕ)
  | unfinished (limit : ℕ)
  | byTaskId (userId : ℤ) (taskId : String)
  /-- `UPDATE … WHERE id = ? AND status = ?` of all columns, answering whether a row was hit -/
  | updateWithStatus (call : ℕ) (row : Task) (fromStatus : TaskStatus)
  | update (call : ℕ) (row : Task)
  | bulkUpdate (ids : List ℤ) (failReason : Option String)
  | refund (call : ℕ) (task : Task)
  | settle (call : ℕ) (task : Task) (actualQuota : ℤ)

def TaskRes : TaskOp → Type
  | .timedOut _ _ => List Task
  | .unfinished _ => List Task
  | .byTaskId _ _ => Option Task
  | .updateWithStatus _ _ _ => Bool
  | .update _ _ => Unit
  | .bulkUpdate _ _ => Unit
  | .refund _ _ => Unit
  | .settle _ _ _ => ℤ

def Task.open : Bool := task.progress ≠ "100%" && !task.status.terminal

def oldestFirst (a b : Task) : Prop := a.submitTime ≤ b.submitTime

instance : DecidableRel oldestFirst := fun a b => Int.decLe a.submitTime b.submitTime

def byId (a b : Task) : Prop := a.id ≤ b.id

instance : DecidableRel byId := fun a b => Int.decLe a.id b.id

def getTimedOutUnfinishedTasks (cutoff : ℤ) (limit : ℕ) : List Task :=
  ((t.rows.filter fun row => row.open && row.submitTime < cutoff).insertionSort oldestFirst).take
    limit

def getAllUnFinishSyncTasks (limit : ℕ) : List Task :=
  ((t.rows.filter Task.open).insertionSort byId).take limit

def getByTaskId (userId : ℤ) (taskId : String) : Option Task :=
  if taskId = "" then none
  else (t.rows.insertionSort byId).find? fun row => row.userId = userId ∧ row.taskId = taskId

def Task.bulkFailed (ids : List ℤ) (failReason : Option String) (task : Task) : Task :=
  if task.id ∈ ids then
    { task with
      status := .failure
      progress := "100%"
      failReason := failReason.getD task.failReason }
  else task

theorem id_bulkFailed (ids : List ℤ) (failReason : Option String) (task : Task) :
    (task.bulkFailed ids failReason).id = task.id := by
  unfold Task.bulkFailed
  split <;> rfl

/-- A status that is written for good has to be billed by the call that wrote it. -/
def dueAfterWrite (call : ℕ) (row : Task) (fromStatus : TaskStatus) (due : ℤ → Option (ℕ × Due)) :
    ℤ → Option (ℕ × Due) :=
  if fromStatus.terminal then due
  else
    match row.status with
    | .failure => Function.update due row.id (some (call, .refund))
    | .success => Function.update due row.id (some (call, .settle))
    | _ => due

def dueAfterRefund (call : ℕ) (id : ℤ) (due : ℤ → Option (ℕ × Due)) : ℤ → Option (ℕ × Due) :=
  Function.update due id (if due id = some (call, .refund) then none else some (call, .row))

def settledQuota (actualQuota : ℤ) : ℤ :=
  if task.perCallBilling ∨ actualQuota ≤ 0 then task.quota else actualQuota

def handleTasks : Handler TaskOp TaskRes TaskWorld
  | .timedOut cutoff limit, w => some (getTimedOutUnfinishedTasks w.tasks cutoff limit, w)
  | .unfinished limit, w => some (getAllUnFinishSyncTasks w.tasks limit, w)
  | .byTaskId userId taskId, w => some (getByTaskId w.tasks userId taskId, w)
  | .updateWithStatus call row fromStatus, w =>
    if (w.tasks.find? row.id).map Task.status = some fromStatus then
      some (true, { w with
        tasks := w.tasks.save row
        due := dueAfterWrite call row fromStatus w.due })
    else some (false, w)
  | .update call row, w =>
    some ((), { w with
      tasks := w.tasks.save row
      due := if w.due row.id = some (call, .row) then Function.update w.due row.id none else w.due })
  | .bulkUpdate ids failReason, w =>
    some ((), { w with
      tasks := w.tasks.modify (Task.bulkFailed ids failReason) (id_bulkFailed ids failReason) })
  | .refund call task, w =>
    if task.quota = 0 then some ((), w)
    else
      some ((), { w with
        journal := w.journal ++ [.refunded task.id task.quota]
        due := dueAfterRefund call task.id w.due })
  | .settle call task actualQuota, w =>
    some (settledQuota task actualQuota, { w with
      journal := w.journal ++ [.settled task.id (settledQuota task actualQuota - task.quota)]
      due := if w.due task.id = some (call, .settle) then Function.update w.due task.id none
        else w.due })

abbrev TaskProg := Prog TaskOp TaskRes

section Statements

variable (call : ℕ)

def updateWithStatus (row : Task) (fromStatus : TaskStatus) : TaskProg Bool :=
  Prog.perform (TaskOp.updateWithStatus call row fromStatus)

def updateTask (row : Task) : TaskProg Unit := Prog.perform (TaskOp.update call row)

def refundTaskQuota (task : Task) : TaskProg Unit := Prog.perform (TaskOp.refund call task)

/-- `settleTaskBillingOnComplete` leaves the new quota in the task object, not in the row. -/
def settleTaskBilling (task : Task) (actualQuota : ℤ) : TaskProg ℤ :=
  Prog.perform (TaskOp.settle call task actualQuota)

def bulkUpdate (ids : List ℤ) (failReason : Option String) : TaskProg Unit :=
  Prog.perform (TaskOp.bulkUpdate ids failReason)

def taskBulkUpdateById (ids : List ℤ) (failReason : Option String) : TaskProg Unit :=
  if ids = [] then pure () else bulkUpdate ids failReason

def timedOutTasks (cutoff : ℤ) (limit : ℕ) : TaskProg (List Task) :=
  Prog.perform (TaskOp.timedOut cutoff limit)

def unfinishedTasks (limit : ℕ) : TaskProg (List Task) := Prog.perform (TaskOp.unfinished limit)

def taskByTaskId (userId : ℤ) (taskId : String) : TaskProg (Option Task) :=
  Prog.perform (TaskOp.byTaskId userId taskId)

end Statements

structure Sweep where
  timeoutMinutes : ℤ
  sampledAt : ℤ
  now : ℤ

def legacyTaskCutoff : ℤ := 1740182400

def Task.legacy : Bool := 0 < task.submitTime && task.submitTime < legacyTaskCutoff

def Task.timedOut (c : Sweep) : Task :=
  { task with
    status := .failure
    progress := "100%"
    finishTime := c.now
    failReason :=
      if task.legacy then "任务超时（旧系统遗留任务，不进行退款，请联系管理员）"
      else "任务超时（" ++ toString c.timeoutMinutes ++ "分钟）" }

def refundTimedOut (call : ℕ) (row : Task) (won : Bool) : TaskProg Unit :=
  if won && !row.legacy && row.quota ≠ 0 then refundTaskQuota call row else pure ()

def sweepTasks (call : ℕ) (c : Sweep) : List Task → TaskProg Unit
  | [] => pure ()
  | task :: rest => do
    let won ← updateWithStatus call (task.timedOut c) task.status
    refundTimedOut call (task.timedOut c) won
    sweepTasks call c rest

def sweepTimedOutTasks (call : ℕ) (c : Sweep) : TaskProg Unit :=
  if c.timeoutMinutes ≤ 0 then pure ()
  else do
    let tasks ← timedOutTasks (c.sampledAt - c.timeoutMinutes * 60) 100
    sweepTasks call c tasks

structure TaskInfo where
  status : TaskStatus
  reason : String
  url : String
  progress : String

def failTaskInfo (reason : String) : TaskInfo := ⟨.failure, reason, "", ""⟩

inductive ErrorBody where
  | undecodable
  | unrecognized
  | openAI (code : String)

/-- `actualQuota` is what the adaptor or the token count makes of the finished task, zero for
neither. -/
structure VideoReply where
  info : TaskInfo
  errorBody : ErrorBody
  body : String
  now : ℤ
  actualQuota : ℤ

/-- An answer without a status fails the task, except where upstream asks to wait. -/
def VideoReply.effective (reply : VideoReply) : Option TaskInfo :=
  if reply.info.status ≠ .empty then some reply.info
  else
    match reply.errorBody with
    | .undecodable => some reply.info
    | .unrecognized => some (failTaskInfo "upstream returned unrecognized message")
    | .openAI code =>
      if code = "429" then none else some (failTaskInfo "upstream returned error")

def buildProxyUrl (server taskId : String) : String :=
  server ++ "/v1/videos/" ++ taskId ++ "/content"

def isDataUrl (url : String) : Bool := "data:".toList.isPrefixOf url.toList

def Task.started (now : ℤ) : ℤ := if task.startTime = 0 then now else task.startTime

def Task.finished (now : ℤ) : ℤ := if task.finishTime = 0 then now else task.finishTime

def Task.resultOf (server url : String) : String :=
  if isDataUrl url then buildProxyUrl server task.taskId
  else if url ≠ "" then url
  else buildProxyUrl server task.taskId

def progressOr (info : TaskInfo) (progress : String) : String :=
  if info.progress ≠ "" then info.progress else progress

/-- The task as the answer has it; nothing for a status that is not known here. -/
def Task.withResult (server : String) (now : ℤ) (info : TaskInfo) : Option Task :=
  match info.status with
  | .submitted => some { task with status := .submitted, progress := progressOr info "10%" }
  | .queued => some { task with status := .queued, progress := progressOr info "20%" }
  | .inProgress =>
    some { task with
      status := .inProgress
      progress := progressOr info "30%"
      startTime := task.started now }
  | .success =>
    some { task with
      status := .success
      progress := progressOr info "100%"
      finishTime := task.finished now
      resultUrl := task.resultOf server info.url }
  | .failure =>
    some { task with
      status := .failure
      progress := "100%"
      finishTime := task.finished now
      failReason := info.reason }
  | _ => none

abbrev TaskMap := String → Option Task

section Video

variable (call : ℕ)

def billResult (reply : VideoReply) (task : Task) : TaskProg Task :=
  if task.status = .success then do
    let quota ← settleTaskBilling call task reply.actualQuota
    pure { task with quota := quota }
  else if task.status = .failure ∧ task.quota ≠ 0 then do
    refundTaskQuota call task
    pure task
  else pure task

/-- A status that ends the task is billed by the call that has won the update. Where the task
in memory had the status already, it is billed all the same. -/
def writeResult (reply : VideoReply) (before task : Task) : TaskProg Task :=
  if task.status.terminal ∧ before.status ≠ task.status then do
    let won ← updateWithStatus call task before.status
    if won then billResult call reply task else pure task
  else if before.snapshot ≠ task.snapshot then do
    let _ ← updateWithStatus call task before.status
    billResult call reply task
  else billResult call reply task

def applyReply (server : String) (reply : VideoReply) (before : Task) : TaskProg Task :=
  match reply.effective with
  | none => pure { before with data := reply.body }
  | some info =>
    match ({ before with data := reply.body } : Task).withResult server reply.now info with
    | none => pure { before with data := reply.body, status := info.status }
    | some task => writeResult call reply before task

/-- `reply` is empty where the fetch fails or its body does not parse. -/
def updateVideoSingleTask (server : String) (reply : Option VideoReply) (upstreamId : String)
    (taskM : TaskMap) : TaskProg TaskMap :=
  match taskM upstreamId, reply with
  | some before, some reply => do
    let task ← applyReply call server reply before
    pure (Function.update taskM upstreamId (some task))
  | _, _ => pure taskM

def updateVideoTaskList (server : String) (reply : String → Option VideoReply) :
    List String → TaskMap → TaskProg TaskMap
  | [], taskM => pure taskM
  | upstreamId :: rest, taskM => do
    let taskM ← updateVideoSingleTask call server (reply upstreamId) upstreamId taskM
    updateVideoTaskList server reply rest taskM

end Video

structure SunoDataResponse where
  taskId : String
  status : TaskStatus
  failReason : String
  submitTime : ℤ
  startTime : ℤ
  finishTime : ℤ
  data : String

def taskNeedsUpdate (oldTask : Task) (newTask : SunoDataResponse) : Bool :=
  oldTask.submitTime ≠ newTask.submitTime || oldTask.startTime ≠ newTask.startTime ||
    oldTask.finishTime ≠ newTask.finishTime || oldTask.status ≠ newTask.status ||
    oldTask.failReason ≠ newTask.failReason ||
    (oldTask.status.terminal && oldTask.progress ≠ "100%") ||
    !oldTask.data.toList.isPerm newTask.data.toList

def Task.refreshedBy : Task :=
  { task with
    status := if item.status ≠ .empty then item.status else task.status
    failReason := if item.failReason ≠ "" then item.failReason else task.failReason
    submitTime := if item.submitTime ≠ 0 then item.submitTime else task.submitTime
    startTime := if item.startTime ≠ 0 then item.startTime else task.startTime
    finishTime := if item.finishTime ≠ 0 then item.finishTime else task.finishTime }

def sunoFailed : Bool :=
  item.failReason ≠ "" || (task.refreshedBy item).status = .failure

def Task.sunoRow : Task :=
  { task.refreshedBy item with
    progress :=
      if sunoFailed task item || item.status = .success then "100%" else task.progress
    data := item.data }

section Suno

variable (call : ℕ)

def refundFailed (task : Task) (item : SunoDataResponse) : TaskProg Unit :=
  if sunoFailed task item then refundTaskQuota call (task.sunoRow item) else pure ()

/-- The refund comes before the row, and the row is written whatever is stored by then. A task
that is not in the map is a nil pointer. -/
def updateSunoTask (item : SunoDataResponse) (taskM : TaskMap) : TaskProg TaskMap :=
  match taskM item.taskId with
  | none => .diverge
  | some task =>
    if taskNeedsUpdate task item = false then pure taskM
    else do
      refundFailed call task item
      updateTask call (task.sunoRow item)
      pure (Function.update taskM item.taskId (some (task.sunoRow item)))

def updateSunoTaskList : List SunoDataResponse → TaskMap → TaskProg TaskMap
  | [], taskM => pure taskM
  | item :: rest, taskM => do
    let taskM ← updateSunoTask call item taskM
    updateSunoTaskList rest taskM

end Suno

structure PollRound where
  limit : ℕ
  platforms : List TaskPlatform
  channels : List ℤ
  channelFound : ℤ → Bool
  adaptorFound : TaskPlatform → Bool
  video : ℤ → String → Option VideoReply
  suno : ℤ → Option (List SunoDataResponse)
  server : String

section Round

variable (call : ℕ) (r : PollRound)

def failedIds (upstreamIds : List String) (taskM : TaskMap) : List ℤ :=
  upstreamIds.filterMap fun upstreamId => (taskM upstreamId).map Task.id

def updateSunoTasks (channelId : ℤ) (upstreamIds : List String) (taskM : TaskMap) :
    TaskProg TaskMap :=
  if r.channelFound channelId = false then do
    taskBulkUpdateById (failedIds upstreamIds taskM)
      (some ("获取渠道信息失败，请联系管理员，渠道ID：" ++ toString channelId))
    pure taskM
  else if r.adaptorFound .suno = false then pure taskM
  else
    match r.suno channelId with
    | none => pure taskM
    | some items => updateSunoTaskList call items taskM

variable (platform : TaskPlatform) (tasks : List Task)

def updateVideoTasks (channelId : ℤ) (upstreamIds : List String) (taskM : TaskMap) :
    TaskProg TaskMap :=
  if r.channelFound channelId = false then do
    taskBulkUpdateById (failedIds upstreamIds taskM)
      (some ("Failed to get channel info, channel ID: " ++ toString channelId))
    pure taskM
  else if r.adaptorFound platform = false then pure taskM
  else updateVideoTaskList call r.server (r.video channelId) upstreamIds taskM

def updateChannel (channelId : ℤ) (upstreamIds : List String) (taskM : TaskMap) :
    TaskProg TaskMap :=
  match platform with
  | .midjourney => pure taskM
  | .suno => updateSunoTasks call r channelId upstreamIds taskM
  | .other _ => updateVideoTasks call r platform channelId upstreamIds taskM

def liveTasks : List Task :=
  tasks.filter fun task => task.platform = platform ∧ task.getUpstreamTaskId ≠ ""

def nullTaskIds : List ℤ :=
  (tasks.filter fun task => task.platform = platform ∧ task.getUpstreamTaskId = "").map Task.id

def taskMapOf : TaskMap :=
  fun upstreamId => tasks.reverse.find? fun task => task.getUpstreamTaskId = upstreamId

def channelIds (channelId : ℤ) : List String :=
  (tasks.filter fun task => task.channelId = channelId).map Task.getUpstreamTaskId

def updateChannels (platform : TaskPlatform) (tasks : List Task) : List ℤ → TaskMap → TaskProg Unit
  | [], _ => pure ()
  | channelId :: rest, taskM => do
    let taskM ← updateChannel call r platform channelId (channelIds tasks channelId) taskM
    updateChannels platform tasks rest taskM

def updatePlatform : TaskProg Unit := do
  taskBulkUpdateById (nullTaskIds platform tasks) none
  updateChannels call r platform (liveTasks platform tasks)
    (r.channels.dedup.filter fun channelId => channelIds (liveTasks platform tasks) channelId ≠ [])
    (taskMapOf (liveTasks platform tasks))

def updatePlatforms (tasks : List Task) : List TaskPlatform → TaskProg Unit
  | [] => pure ()
  | platform :: rest => do
    updatePlatform call r platform tasks
    updatePlatforms tasks rest

/-- One turn of `TaskPollingLoop` after its sweep. -/
def pollRound : TaskProg Unit := do
  let tasks ← unfinishedTasks r.limit
  updatePlatforms call r tasks r.platforms.dedup

end Round

/-- `realtime` says that the channel is found, of a kind that is asked at once, and has an
adaptor; `answer` is empty where the fetch fails or does not parse. -/
structure Fetch where
  userId : ℤ
  taskId : String
  realtime : Bool
  answer : Option TaskInfo
  server : String

def Task.refreshed (server : String) (info : TaskInfo) : Task :=
  let status := if info.status ≠ .empty then info.status else task.status
  { task with
    status := status
    progress := progressOr info task.progress
    resultUrl :=
      if isDataUrl info.url then task.resultUrl
      else if info.url ≠ "" then info.url
      else if status = .success then buildProxyUrl server task.taskId
      else task.resultUrl }

def tryRealtimeFetch (call : ℕ) (f : Fetch) (task : Task) : TaskProg Unit :=
  if f.realtime = false then pure ()
  else
    match f.answer with
    | none => pure ()
    | some info =>
      if task.snapshot ≠ (task.refreshed f.server info).snapshot then do
        let _ ← updateWithStatus call (task.refreshed f.server info) task.status
        pure ()
      else pure ()

def refreshFound (call : ℕ) (f : Fetch) : Option Task → TaskProg Unit
  | none => pure ()
  | some task => tryRealtimeFetch call f task

def videoFetchById (call : ℕ) (f : Fetch) : TaskProg Unit := do
  let found ← taskByTaskId f.userId f.taskId
  refreshFound call f found

inductive TaskCall where
  | sweep (c : Sweep)
  | poll (r : PollRound)
  | fetch (f : Fetch)

def TaskCall.program (call : ℕ) : TaskCall → TaskProg Unit
  | .sweep c => sweepTimedOutTasks call c
  | .poll r => pollRound call r
  | .fetch f => videoFetchById call f

end AsyncTasks
