import TinyToken.AsyncTaskBooks

/-! Any interleaving of sweeps, poll rounds and fetches over a set of tasks. Every call leaves
the books of the tasks in order, and has nothing to go on with when it returns. -/
namespace AsyncTaskRuns

open InterleavedPrograms RelyTriples KeyedTable AsyncTasks AsyncTaskBooks List Option Function

section Programs

variable {kind : TaskCall} {call : ℕ}

theorem triple_framed {α : Type} {P : TaskWorld → Prop} {Q : α → TaskWorld → Prop}
    {prog : TaskProg α} {F : TaskWorld → Prop} (hF : ∀ s t, Kept s t → F s → F t)
    (hp : TaskTriple kind call P prog Q) :
    TaskTriple kind call (fun w => P w ∧ F w) prog
      (fun a w => Q a w ∧ F w) :=
  triple_frame (fun s t h => hF s t h.kept) (fun s t h => hF s t h.kept) hp

variable {tasks : List Task}

theorem allKnown_kept (s t : TaskWorld) (h : Kept s t) (hs : AllKnown tasks s) : AllKnown tasks t :=
  fun task ht => (hs task ht).kept h

variable {task : Task}

theorem known_kept (s t : TaskWorld) (h : Kept s t) (hs : Known task s) : Known task t :=
  hs.kept h

theorem kin_timedOut (task : Task) (c : Sweep) : Kin task (task.timedOut c) := ⟨rfl, rfl, rfl, rfl⟩

theorem triple_refundTimedOut {row : Task} (won : Bool) (hrecent : row.legacy = false) :
    TaskTriple kind call
      (fun w => (if won then Owes call row.id .refund w else Idle call w) ∧ Known row w)
      (refundTimedOut call row won) (fun _ => Idle call) := by
  cases won with
  | false => exact triple_pure (stable_idle.and stable_known) fun _ h => h.1
  | true =>
    intro past w hw
    obtain ⟨old, -, hkin, hok⟩ := hw.2.found hw.1.1
    have hquota : row.quota ≠ 0 := quota_ne_zero hok hkin
    rw [refundTimedOut, hrecent, if_pos (by simpa using hquota)]
    exact triple_refund past w hw

theorem triple_sweepTasks {c : Sweep} (hfresh : ∀ task ∈ tasks, Fresh task) :
    TaskTriple kind call (fun w => Idle call w ∧ AllKnown tasks w)
      (sweepTasks call c tasks) (fun _ => Idle call) := by
  induction tasks with
  | nil => exact triple_pure (stable_idle.and stable_allKnown) fun _ h => h.1
  | cons task rest ih =>
    obtain ⟨htask, hrest⟩ := forall_mem_cons.mp hfresh
    have hrecent : (task.timedOut c).legacy = false := htask.recent
    refine triple_bind (triple_mono (triple_framed
      (F := fun w => Known (task.timedOut c) w ∧ AllKnown rest w)
      (fun s t h hs => ⟨hs.1.kept h, allKnown_kept s t h hs.2⟩)
      (triple_end (d := .refund) rfl htask.running hrecent)) ?_ fun _ _ h => h) fun won => ?_
    · rintro w ⟨hidle, hknown⟩
      have hrow := (hknown task (mem_cons_self ..)).of_kin (kin_timedOut task c)
      exact ⟨⟨hidle, hrow⟩, hrow, fun x hx => hknown x (mem_cons_of_mem _ hx)⟩
    refine triple_bind (triple_mono (triple_framed (F := AllKnown rest) allKnown_kept
      (triple_refundTimedOut won hrecent)) ?_ fun _ _ h => h) fun _ => ih hrest
    exact fun w h => ⟨⟨h.1, h.2.1⟩, h.2.2⟩

theorem triple_sweep {c : Sweep} :
    TaskTriple kind call (Idle call) (sweepTimedOutTasks call c)
      (fun _ => Idle call) := by
  unfold sweepTimedOutTasks
  split
  · exact triple_pure stable_idle fun _ h => h
  · exact triple_bind triple_timedOut fun tasks => triple_of_pure triple_sweepTasks

theorem triple_fetch {f : Fetch} :
    Triple handleTasks (taskRules (.fetch f) call) (Idle call) (videoFetchById call f)
      (fun _ => Idle call) := by
  refine triple_bind triple_byTaskId fun found => triple_of_pure fun hrecent => ?_
  have hnothing : Triple handleTasks (taskRules (.fetch f) call)
      (fun w => Idle call w ∧ AllKnown found.toList w) (pure () : TaskProg Unit)
      (fun _ => Idle call) := triple_pure (stable_idle.and stable_allKnown) fun _ h => h.1
  cases found with
  | none => exact hnothing
  | some task =>
    rw [refreshFound, tryRealtimeFetch]
    split
    · exact hnothing
    split
    · exact hnothing
    rename_i info _
    split
    · have hmove : Triple handleTasks (taskRules (.fetch f) call)
          (fun w => Idle call w ∧ Known (task.refreshed f.server info) w)
          (updateWithStatus call (task.refreshed f.server info) task.status)
          (fun _ => Idle call) := by
        refine triple_move (hrecent task rfl) fun w hallowed => ?_
        simp only [allowed, Bool.and_eq_true, Bool.not_eq_true'] at hallowed
        exact hallowed.1
      refine triple_bind (triple_mono hmove ?_ fun _ _ h => h) fun _ =>
        triple_pure stable_idle fun _ h => h
      rintro w ⟨hidle, hknown⟩
      have hkin : Kin task (task.refreshed f.server info) := ⟨rfl, rfl, rfl, rfl⟩
      exact ⟨hidle, (hknown task (mem_singleton_self task)).of_kin hkin⟩
    · exact hnothing

variable {server : String}

theorem kin_withResult {task task' : Task} {now : ℤ} {info : TaskInfo}
    (h : task.withResult server now info = some task') :
    Kin task task' ∧ task'.legacy = task.legacy := by
  unfold Task.withResult at h
  split at h <;> cases h <;> exact ⟨⟨rfl, rfl, rfl, rfl⟩, rfl⟩

variable {reply : VideoReply}

theorem triple_billResult {d : Due} (hbill : billOf task.status = some d) :
    TaskTriple kind call (fun w => Owes call task.id d w ∧ Known task w)
      (billResult call reply task) (fun _ => Idle call) := by
  cases hstatus : task.status <;> rw [hstatus] at hbill <;> cases hbill
  · intro past w hw
    obtain ⟨old, -, hkin, hok⟩ := hw.2.found hw.1.1
    rw [billResult, if_neg (by rw [hstatus]; decide), if_pos ⟨hstatus, quota_ne_zero hok hkin⟩]
    exact triple_bind triple_refund (fun _ => triple_pure stable_idle fun _ h => h) past w hw
  · rw [billResult, if_pos hstatus]
    exact triple_bind triple_settle fun _ => triple_pure stable_idle fun _ h => h

theorem billResult_open (h : task.status.terminal = false) :
    billResult call reply task = pure task := by
  have hsuccess : task.status ≠ .success := by
    intro hstatus
    rw [hstatus] at h
    cases h
  have hfailure : ¬ (task.status = .failure ∧ task.quota ≠ 0) := by
    rintro ⟨hstatus, -⟩
    rw [hstatus] at h
    cases h
  rw [billResult, if_neg hsuccess, if_neg hfailure]

theorem billOf_terminal {status : TaskStatus} (h : status.terminal = true) :
    ∃ d, billOf status = some d := by
  cases status <;> first | exact ⟨_, rfl⟩ | cases h

abbrev PollTriple (r : PollRound) (call : ℕ) {α : Type} (P : TaskWorld → Prop) (prog : TaskProg α)
    (Q : α → TaskWorld → Prop) : Prop := Triple handleTasks (taskRules (.poll r) call) P prog Q

/-- The handler owes nothing before. -/
abbrev IdleTriple (r : PollRound) (call : ℕ) {α : Type} (P : TaskWorld → Prop) (prog : TaskProg α)
    (Q : α → TaskWorld → Prop) : Prop := PollTriple r call (fun w => Idle call w ∧ P w) prog Q

variable {r : PollRound}

theorem triple_writeResult {before task : Task}
    (hfresh : Fresh before) (hrecent : task.legacy = false) :
    IdleTriple r call (Known task)
      (writeResult call reply before task) (fun _ => Idle call) := by
  cases hterminal : task.status.terminal with
  | true =>
    obtain ⟨d, hbill⟩ := billOf_terminal hterminal
    have hne : before.status ≠ task.status := by
      intro h
      have := hfresh.running
      rw [h, hterminal] at this
      cases this
    rw [writeResult, if_pos ⟨hterminal, hne⟩]
    refine triple_bind (triple_mono (triple_framed known_kept
      (triple_end hbill hfresh.running hrecent)) (fun w h => ⟨h, h.2⟩) fun _ _ h => h) fun won => ?_
    cases won with
    | false => exact triple_pure (stable_idle.and stable_known) fun _ h => h.1
    | true => exact triple_billResult hbill
  | false =>
    have hkeep : IdleTriple r call (Known task) (billResult call reply task)
        (fun _ => Idle call) := by
      rw [billResult_open hterminal]
      exact triple_pure (stable_idle.and stable_known) fun _ h => h.1
    rw [writeResult, if_neg (by rw [hterminal]; simp)]
    split
    · refine triple_bind (triple_mono (triple_framed known_kept
        (triple_move hrecent fun _ _ => ⟨hterminal, hfresh.running⟩)) (fun w h => ⟨h, h.2⟩)
        fun _ _ h => h) fun _ => hkeep
    · exact hkeep

theorem triple_applyReply {before : Task} (hfresh : Fresh before) :
    IdleTriple r call (Known before)
      (applyReply call server reply before) (fun _ => Idle call) := by
  have hkeep : ∀ task : Task, IdleTriple r call (Known before) (pure task : TaskProg Task)
      (fun _ => Idle call) :=
    fun task => triple_pure (stable_idle.and stable_known) fun _ h => h.1
  rw [applyReply]
  split
  · exact hkeep _
  split
  · exact hkeep _
  rename_i task hresult
  obtain ⟨hkin, hlegacy⟩ := kin_withResult hresult
  have hbefore : Kin before { before with data := reply.body } := ⟨rfl, rfl, rfl, rfl⟩
  refine triple_mono (triple_writeResult hfresh (hlegacy.trans hfresh.recent)) ?_ fun _ _ h => h
  exact fun w h => ⟨h.1, h.2.of_kin (hbefore.trans hkin)⟩

/-- What the round holds in memory under these upstream ids are versions of stored tasks. -/
def MapKnown (upstreamIds : List String) (taskM : TaskMap) (w : TaskWorld) : Prop :=
  ∀ u ∈ upstreamIds, ∀ task, taskM u = some task → Known task w

variable {taskM : TaskMap}

theorem mapKnown_kept {upstreamIds : List String} (s t : TaskWorld)
    (h : Kept s t) (hs : MapKnown upstreamIds taskM s) : MapKnown upstreamIds taskM t :=
  fun u hu task ht => (hs u hu task ht).kept h

theorem stable_mapKnown {upstreamIds : List String} :
    Stable (taskRules kind call) (MapKnown upstreamIds taskM) :=
  fun s t h hs => mapKnown_kept s t h.kept hs

theorem triple_videoSingle (reply : Option VideoReply)
    {u : String} (hfresh : ∀ task, taskM u = some task → Fresh task) :
    IdleTriple r call (MapKnown [u] taskM)
      (updateVideoSingleTask call server reply u taskM)
      (fun taskM' w => Idle call w ∧ ∀ x, x ≠ u → taskM' x = taskM x) := by
  have hkeep : IdleTriple r call (MapKnown [u] taskM) (pure taskM : TaskProg TaskMap)
      (fun taskM' w => Idle call w ∧ ∀ x, x ≠ u → taskM' x = taskM x) :=
    triple_pure (stable_idle.and stable_mapKnown) fun _ h => ⟨h.1, fun _ _ => rfl⟩
  unfold updateVideoSingleTask
  split
  next before reply hbefore =>
    refine triple_bind (triple_mono (triple_applyReply (hfresh before hbefore)) ?_ fun _ _ h => h)
      fun task => triple_pure stable_idle fun _ h => ⟨h, fun x hx => update_of_ne hx _ _⟩
    exact fun w h => ⟨h.1, h.2 u (mem_singleton_self u) before hbefore⟩
  · exact hkeep

theorem triple_videoList {reply : String → Option VideoReply} {us : List String} (hnodup : us.Nodup)
    (hfresh : ∀ u ∈ us, ∀ task, taskM u = some task → Fresh task) :
    IdleTriple r call (MapKnown us taskM)
      (updateVideoTaskList call server reply us taskM)
      (fun taskM' w => Idle call w ∧ ∀ x, x ∉ us → taskM' x = taskM x) := by
  induction us generalizing taskM with
  | nil =>
    exact triple_pure (stable_idle.and stable_mapKnown) fun _ h => ⟨h.1, fun _ _ => rfl⟩
  | cons u rest ih =>
    obtain ⟨hu, hrest⟩ := nodup_cons.mp hnodup
    refine triple_bind (triple_mono (triple_framed (F := MapKnown rest taskM) mapKnown_kept
      (triple_videoSingle (reply u) (hfresh u (mem_cons_self ..)))) ?_ fun _ _ h => h)
      fun taskM' => ?_
    · rintro w ⟨hidle, hknown⟩
      refine ⟨⟨hidle, fun x hx => hknown x ?_⟩, fun x hx => hknown x (mem_cons_of_mem _ hx)⟩
      rw [mem_singleton.mp hx]
      exact mem_cons_self ..
    intro past w hw
    obtain ⟨⟨hidle, hsame⟩, hknown⟩ := hw
    have hne : ∀ x ∈ rest, x ≠ u := fun x hx h => hu (h ▸ hx)
    have hlater : ∀ x ∈ rest, ∀ task, taskM' x = some task → Fresh task := by
      intro x hx task ht
      rw [hsame x (hne x hx)] at ht
      exact hfresh x (mem_cons_of_mem _ hx) task ht
    refine (ih hrest hlater past w ⟨hidle, fun x hx task ht => hknown x hx task ?_⟩).mono ?_
    · rw [← hsame x (hne x hx)]
      exact ht
    · rintro taskM'' - t ⟨ht, hafter⟩
      refine ⟨ht, fun x hx => ?_⟩
      rw [mem_cons, not_or] at hx
      rw [hafter x hx.2, hsame x hx.1]

theorem kin_sunoRow (task : Task) (item : SunoDataResponse) : Kin task (task.sunoRow item) :=
  ⟨rfl, rfl, rfl, rfl⟩

def AllSuno (taskM : TaskMap) : Prop := ∀ u task, taskM u = some task → task.platform = .suno

def MapAll (taskM : TaskMap) (w : TaskWorld) : Prop := ∀ u task, taskM u = some task → Known task w

theorem mapAll_kept (s t : TaskWorld) (h : Kept s t) (hs : MapAll taskM s) : MapAll taskM t :=
  fun u task ht => (hs u task ht).kept h

theorem stable_mapAll : Stable (taskRules kind call) (MapAll taskM) :=
  fun s t h hs => mapAll_kept s t h.kept hs

variable {item : SunoDataResponse}

theorem triple_refundFailed (hsuno : task.platform = .suno) : IdleTriple r call (Known (task.sunoRow item)) (refundFailed call task item)
      (fun _ w => if sunoFailed task item then Owes call task.id .row w else Idle call w) := by
  cases hfailed : sunoFailed task item with
  | true =>
    rw [refundFailed, if_pos hfailed]
    exact triple_prepay hsuno
  | false =>
    rw [refundFailed, hfailed]
    exact triple_pure (stable_idle.and stable_known) fun _ h => h.1

theorem status_of_not_sunoFailed
    (h : sunoFailed task item = false) : (task.sunoRow item).status ≠ .failure := by
  rw [sunoFailed, Bool.or_eq_false_iff, decide_eq_false_iff_not, decide_eq_false_iff_not] at h
  exact h.2

theorem triple_sunoTask (hsuno : AllSuno taskM) :
    IdleTriple r call (MapAll taskM)
      (updateSunoTask call item taskM)
      (fun taskM' w => (Idle call w ∧ MapAll taskM' w) ∧ AllSuno taskM') := by
  unfold updateSunoTask
  split
  · exact triple_diverge
  rename_i task htask
  split
  · exact triple_pure (stable_idle.and stable_mapAll) fun _ h => ⟨h, hsuno⟩
  have hkin := kin_sunoRow task item
  refine triple_bind (triple_mono (triple_framed
    (F := fun w => Known (task.sunoRow item) w ∧ MapAll taskM w)
    (fun s t h hs => ⟨hs.1.kept h, mapAll_kept s t h hs.2⟩)
    (triple_refundFailed (hsuno _ task htask))) ?_ fun _ _ h => h) fun _ => ?_
  · rintro w ⟨hidle, hknown⟩
    have hrow := (hknown _ task htask).of_kin hkin
    exact ⟨⟨hidle, hrow⟩, hrow, hknown⟩
  have hstable : Stable (taskRules (.poll r) call)
      (fun w => if sunoFailed task item then Owes call task.id .row w else Idle call w) := by
    cases sunoFailed task item
    · exact stable_idle
    · exact stable_owes
  have hcase : ∀ w, (if sunoFailed task item then Owes call task.id .row w else Idle call w) →
      ((task.sunoRow item).status ≠ .failure ∧ Idle call w) ∨
        Owes call (task.sunoRow item).id .row w := by
    intro w h
    cases hfailed : sunoFailed task item with
    | true =>
      rw [if_pos hfailed] at h
      exact .inr h
    | false =>
      rw [hfailed] at h
      exact .inl ⟨status_of_not_sunoFailed hfailed, h⟩
  refine triple_bind (triple_mono (triple_framed
    (F := fun w => Known (task.sunoRow item) w ∧ MapAll taskM w)
    (fun s t h hs => ⟨hs.1.kept h, mapAll_kept s t h hs.2⟩) (triple_update hstable hcase))
    (fun w h => ⟨⟨h.1, h.2.1⟩, h.2⟩) fun _ _ h => h) fun _ => ?_
  apply triple_pure (stable_idle.and (stable_known.and stable_mapAll))
  rintro w ⟨hidle, hrow, hknown⟩
  refine ⟨⟨hidle, fun u x hx => ?_⟩, fun u x hx => ?_⟩
  · by_cases hu : u = item.taskId
    · rw [hu, update_self] at hx
      cases hx
      exact hrow
    · rw [update_of_ne hu] at hx
      exact hknown u x hx
  · by_cases hu : u = item.taskId
    · rw [hu, update_self] at hx
      cases hx
      exact hsuno _ task htask
    · rw [update_of_ne hu] at hx
      exact hsuno u x hx

theorem triple_sunoList {items : List SunoDataResponse} (hsuno : AllSuno taskM) :
    IdleTriple r call (MapAll taskM)
      (updateSunoTaskList call items taskM)
      (fun taskM' w => (Idle call w ∧ MapAll taskM' w) ∧ AllSuno taskM') := by
  induction items generalizing taskM with
  | nil => exact triple_pure (stable_idle.and stable_mapAll) fun _ h => ⟨h, hsuno⟩
  | cons item rest ih => exact triple_bind (triple_sunoTask hsuno) fun taskM' => triple_of_pure ih

theorem triple_sunoChannel {channelId : ℤ} {us : List String} (hsuno : AllSuno taskM) :
    IdleTriple r call (MapAll taskM)
      (updateSunoTasks call r channelId us taskM)
      (fun taskM' w => (Idle call w ∧ MapAll taskM' w) ∧ AllSuno taskM') := by
  have hkeep : IdleTriple r call (MapAll taskM) (pure taskM : TaskProg TaskMap)
      (fun taskM' w => (Idle call w ∧ MapAll taskM' w) ∧ AllSuno taskM') :=
    triple_pure (stable_idle.and stable_mapAll) fun _ h => ⟨h, hsuno⟩
  unfold updateSunoTasks
  split
  · exact triple_bind (triple_framed mapAll_kept triple_bulk) fun _ => hkeep
  split
  · exact hkeep
  split
  · exact hkeep
  · exact triple_sunoList hsuno

theorem triple_sunoChannels {channels : List ℤ} (hsuno : AllSuno taskM) :
    IdleTriple r call (MapAll taskM)
      (updateChannels call r .suno tasks channels taskM) (fun _ => Idle call) := by
  induction channels generalizing taskM with
  | nil => exact triple_pure (stable_idle.and stable_mapAll) fun _ h => h.1
  | cons channelId rest ih =>
    exact triple_bind (triple_sunoChannel hsuno) fun taskM' => triple_of_pure ih

variable {platform : TaskPlatform}

theorem triple_videoChannel {channelId : ℤ} {us : List String} (hnodup : us.Nodup)
    (hfresh : ∀ u ∈ us, ∀ task, taskM u = some task → Fresh task) :
    IdleTriple r call (MapKnown us taskM)
      (updateVideoTasks call r platform channelId us taskM)
      (fun taskM' w => Idle call w ∧ ∀ x, x ∉ us → taskM' x = taskM x) := by
  have hkeep : IdleTriple r call (MapKnown us taskM) (pure taskM : TaskProg TaskMap)
      (fun taskM' w => Idle call w ∧ ∀ x, x ∉ us → taskM' x = taskM x) :=
    triple_pure (stable_idle.and stable_mapKnown) fun _ h => ⟨h.1, fun _ _ => rfl⟩
  unfold updateVideoTasks
  split
  · exact triple_bind (triple_framed mapKnown_kept triple_bulk) fun _ => hkeep
  split
  · exact hkeep
  · exact triple_videoList hnodup hfresh

def idsToCome (tasks : List Task) (channels : List ℤ) : List String :=
  channels.flatMap (channelIds tasks)

theorem mem_channelIds {channelId : ℤ} {u : String} : u ∈ channelIds tasks channelId ↔
      ∃ task ∈ tasks, task.channelId = channelId ∧ task.getUpstreamTaskId = u := by
  simp [channelIds, and_assoc]

theorem triple_videoChannels {text : String}
    (htasks : (tasks.map Task.getUpstreamTaskId).Nodup) {channels : List ℤ} (hnodup : channels.Nodup)
    (hfresh : ∀ u ∈ idsToCome tasks channels, ∀ task, taskM u = some task → Fresh task) :
    IdleTriple r call (MapKnown (idsToCome tasks channels) taskM)
      (updateChannels call r (.other text) tasks channels taskM) (fun _ => Idle call) := by
  induction channels generalizing taskM with
  | nil => exact triple_pure (stable_idle.and stable_mapKnown) fun _ h => h.1
  | cons channelId rest ih =>
    obtain ⟨hchannel, hrest⟩ := nodup_cons.mp hnodup
    have hids : (channelIds tasks channelId).Nodup :=
      htasks.sublist ((filter_sublist).map Task.getUpstreamTaskId)
    have hcome : ∀ u, u ∈ idsToCome tasks (channelId :: rest) ↔
        u ∈ channelIds tasks channelId ∨ u ∈ idsToCome tasks rest := by
      intro u
      rw [idsToCome, flatMap_cons, mem_append]
      rfl
    -- no upstream id belongs to two channels
    have hapart : ∀ u ∈ idsToCome tasks rest, u ∉ channelIds tasks channelId := by
      intro u hu hmem
      obtain ⟨c, hc, hu⟩ := mem_flatMap.mp hu
      obtain ⟨a, ha, hac, hau⟩ := mem_channelIds.mp hmem
      obtain ⟨b, hb, hbc, hbu⟩ := mem_channelIds.mp hu
      have hab : a = b := inj_on_of_nodup_map htasks ha hb (hau.trans hbu.symm)
      rw [← hab, hac] at hbc
      exact hchannel (hbc ▸ hc)
    refine triple_bind (triple_mono (triple_framed (F := MapKnown (idsToCome tasks rest) taskM)
      mapKnown_kept (triple_videoChannel hids fun u hu => hfresh u ((hcome u).mpr (.inl hu))))
      ?_ fun _ _ h => h) fun taskM' => ?_
    · exact fun w h => ⟨⟨h.1, fun u hu => h.2 u ((hcome u).mpr (.inl hu))⟩,
        fun u hu => h.2 u ((hcome u).mpr (.inr hu))⟩
    rintro past w ⟨⟨hidle, hsame⟩, hknown⟩
    have hlater : ∀ u ∈ idsToCome tasks rest, ∀ task, taskM' u = some task → Fresh task := by
      intro u hu task ht
      rw [hsame u (hapart u hu)] at ht
      exact hfresh u ((hcome u).mpr (.inr hu)) task ht
    refine ih hrest hlater past w ⟨hidle, fun u hu task ht => ?_⟩
    rw [hsame u (hapart u hu)] at ht
    exact hknown u hu task ht

theorem triple_midjourneyChannels {channels : List ℤ} :
    TaskTriple kind call (Idle call)
      (updateChannels call r .midjourney tasks channels taskM) (fun _ => Idle call) := by
  induction channels with
  | nil => exact triple_pure stable_idle fun _ h => h
  | cons channelId rest ih => exact ih

theorem taskMapOf_mem {u : String} (h : taskMapOf tasks u = some task) : task ∈ tasks :=
  mem_reverse.mp (mem_of_find?_eq_some h)

theorem mem_liveTasks
    (h : task ∈ liveTasks platform tasks) : task ∈ tasks ∧ task.platform = platform := by
  rw [liveTasks, mem_filter, decide_eq_true_eq] at h
  exact ⟨h.1, h.2.1⟩

theorem nodup_liveTasks (h : DistinctList tasks) :
    ((liveTasks platform tasks).map Task.getUpstreamTaskId).Nodup := by
  refine List.Nodup.map_on (fun a ha b hb hupstream => ?_) (h.1.filter _)
  obtain ⟨ha, hpa⟩ := mem_liveTasks ha
  obtain ⟨hb, hpb⟩ := mem_liveTasks hb
  exact h.2 a ha b hb (hpa.trans hpb.symm) hupstream

theorem triple_platform (hfresh : ∀ task ∈ tasks, Fresh task) (hdistinct : DistinctList tasks) :
    IdleTriple r call (AllKnown tasks)
      (updatePlatform call r platform tasks) (fun _ => Idle call) := by
  refine triple_bind (triple_framed allKnown_kept triple_bulk) fun _ => ?_
  have hmap : ∀ u task, taskMapOf (liveTasks platform tasks) u = some task →
      task ∈ tasks ∧ task.platform = platform := fun u task h => mem_liveTasks (taskMapOf_mem h)
  cases platform with
  | midjourney => exact triple_mono triple_midjourneyChannels (fun _ h => h.1) fun _ _ h => h
  | suno =>
    refine triple_mono (triple_sunoChannels fun u task h => (hmap u task h).2) ?_ fun _ _ h => h
    exact fun w h => ⟨h.1, fun u task ht => h.2 task (hmap u task ht).1⟩
  | other text =>
    refine triple_mono (triple_videoChannels (nodup_liveTasks hdistinct)
      ((nodup_dedup r.channels).filter _) fun u _ task ht => hfresh task (hmap u task ht).1)
      ?_ fun _ _ h => h
    exact fun w h => ⟨h.1, fun u _ task ht => h.2 task (hmap u task ht).1⟩

theorem triple_platforms {platforms : List TaskPlatform}
    (hfresh : ∀ task ∈ tasks, Fresh task) (hdistinct : DistinctList tasks) :
    IdleTriple r call (AllKnown tasks)
      (updatePlatforms call r tasks platforms) (fun _ => Idle call) := by
  induction platforms with
  | nil => exact triple_pure (stable_idle.and stable_allKnown) fun _ h => h.1
  | cons platform rest ih =>
    refine triple_bind (triple_mono (triple_framed allKnown_kept
      (triple_platform hfresh hdistinct)) (fun w h => ⟨h, h.2⟩) fun _ _ h => h) fun _ => ih

theorem triple_poll : PollTriple r call (Idle call) (pollRound call r) (fun _ => Idle call) :=
  triple_bind triple_unfinished fun _ => triple_of_pure fun h => triple_platforms h.1 h.2

theorem triple_program (kind : TaskCall) (call : ℕ) :
    TaskTriple kind call (Idle call) (kind.program call)
      (fun _ => Idle call) := by
  cases kind with
  | sweep c => exact triple_sweep
  | poll r => exact triple_poll
  | fetch f => exact triple_fetch

end Programs

section Runs

variable {ι : Type} [DecidableEq ι] {number : ι → ℕ} {calls : ι → TaskCall}
  {t₀ : Table Task ℤ Task.id}

abbrev TaskPool (ι : Type) := Pool TaskOp TaskRes Unit TaskWorld ι

def taskPool (number : ι → ℕ) (calls : ι → TaskCall) (t₀ : Table Task ℤ Task.id) : TaskPool ι :=
  Pool.start ⟨t₀, [], fun _ => none⟩ fun i => (calls i).program (number i)

def TaskRun (p q : TaskPool ι) : Prop :=
  Run handleTasks (fun _ _ _ _ => True) (fun _ _ => False) p q

def OrderlyRun (calls : ι → TaskCall) (p q : TaskPool ι) : Prop :=
  Run handleTasks (fun i _ o w => allowed (calls i) o w = true) (fun _ _ => False) p q

structure UnderWay (t : Table Task ℤ Task.id) : Prop where
  running : ∀ row ∈ t.rows, row.status.terminal = false
  positive : ∀ row ∈ t.rows, 0 < row.quota
  recent : ∀ row ∈ t.rows, row.legacy = false
  distinct : Distinct t

/-- The calls are as far as their triples say, and nobody else has to go on with a task. -/
structure Orderly (number : ι → ℕ) (calls : ι → TaskCall) (p : TaskPool ι) : Prop where
  kept : AllKept handleTasks (fun i => taskRules (calls i) (number i))
    (fun i _ w => Idle (number i) w) p
  sane : Sane p.state
  owners : ∀ id c d, p.state.due id = some (c, d) → ∃ i, number i = c

omit [DecidableEq ι] in
theorem orderly_start (h : UnderWay t₀) : Orderly number calls (taskPool number calls t₀) := by
  have hsane : Sane ⟨t₀, [], fun _ => none⟩ :=
    ⟨fun row hrow => ⟨h.positive row hrow, h.recent row hrow, .running (h.running row hrow)⟩,
      h.distinct⟩
  refine ⟨allKept_start (fun i => triple_program (calls i) (number i)) fun i => ⟨hsane, ?_⟩, hsane, ?_⟩
  · exact nofun
  · exact nofun

theorem Orderly.step (hnumber : Function.Injective number) {p q : TaskPool ι}
    (hp : Orderly number calls p)
    (hs : Step handleTasks (fun i _ o w => allowed (calls i) o w = true) (fun _ _ => False) p q) :
    Orderly number calls q ∧ Kept p.state q.state := by
  have hkept := hp.kept.step (fun i j hij s t h => Behaves.leaves h fun e => hij (hnumber e))
    (fun _ _ _ he => he.elim) hs
  rcases hp.kept.step_cases hs with ⟨i, hguar⟩ | he
  · refine ⟨⟨hkept, hguar.sane hp.sane, fun id c d hd => ?_⟩, hguar.kept⟩
    by_cases hc : c = number i
    · exact ⟨i, hc.symm⟩
    · exact hp.owners id c d ((hguar.others c hc id d).mp hd)
  · exact he.elim

theorem OrderlyRun.orderly (hnumber : Function.Injective number) {p q : TaskPool ι}
    (hp : Orderly number calls p) (hrun : OrderlyRun calls p q) :
    Orderly number calls q ∧ Kept p.state q.state := by
  induction hrun with
  | refl => exact ⟨hp, Kept.refl _⟩
  | tail _ hs ih =>
    obtain ⟨hnext, hkept⟩ := ih.1.step hnumber hs
    exact ⟨hnext, ih.2.trans hkept⟩

omit [DecidableEq ι] in
theorem Orderly.nothing_due {p : TaskPool ι} (hp : Orderly number calls p)
    (hdone : ∀ i, (p.result? i).isSome = true) (id : ℤ) : p.state.due id = none := by
  cases hd : p.state.due id with
  | none => rfl
  | some x =>
    obtain ⟨c, d⟩ := x
    obtain ⟨i, rfl⟩ := hp.owners id c d hd
    obtain ⟨a, ha⟩ := isSome_iff_exists.mp (hdone i)
    exact absurd hd ((hp.kept.result ha).2 id d)

/-- However sweeps, poll rounds and fetches interleave: a status that ends a task stays, and
once all calls have returned every task is billed as its status says, with the charge it
began with. -/
theorem tasks_billed_once_when_orderly (hnumber : Function.Injective number) (h : UnderWay t₀)
    {p q : TaskPool ι} (hrun : OrderlyRun calls (taskPool number calls t₀) p)
    (hlater : OrderlyRun calls p q) :
    (∀ id row, p.state.tasks.find? id = some row → row.status.terminal = true →
      ∃ row', q.state.tasks.find? id = some row' ∧ row'.status = row.status) ∧
    ((∀ i, (q.result? i).isSome = true) → ∀ row₀ ∈ t₀.rows,
      ∃ row, q.state.tasks.find? row₀.id = some row ∧ row.quota = row₀.quota ∧
        BilledOnce q.state row) := by
  obtain ⟨hp, hbegan⟩ := OrderlyRun.orderly hnumber (orderly_start h) hrun
  obtain ⟨hq, hkept⟩ := OrderlyRun.orderly hnumber hp hlater
  constructor
  · intro id row hrow hterminal
    obtain ⟨row', hrow', -, hstatus⟩ := hkept id row hrow
    exact ⟨row', hrow', hstatus hterminal⟩
  · intro hdone row₀ hrow₀
    obtain ⟨row, hrow, hkin, -⟩ := (hbegan.trans hkept) row₀.id row₀ (Table.find?_of_mem hrow₀)
    exact ⟨row, hrow, hkin.quota, (rowOk_of_find? hq.sane hrow).billedOnce (hq.nothing_due hdone _)⟩

def videoTask : Task where
  id := 1
  taskId := "task_a"
  platform := .other "50"
  userId := 7
  channelId := 3
  quota := 100
  status := .inProgress
  failReason := ""
  submitTime := 1750000000
  startTime := 1750000001
  finishTime := 0
  progress := "30%"
  upstreamTaskId := "up-a"
  resultUrl := ""
  perCallBilling := false
  data := ""

def sunoTask : Task :=
  { videoTask with id := 2, taskId := "task_b", upstreamTaskId := "up-b", platform := .suno, channelId := 4 }

def twoTasks : Table Task ℤ Task.id := ⟨[videoTask, sunoTask], by decide⟩

def videoReply (status : TaskStatus) : VideoReply :=
  ⟨⟨status, "", "", ""⟩, .undecodable, "body", 1750000100, 80⟩

def sunoFailure : SunoDataResponse :=
  ⟨"up-b", .failure, "rejected", 1750000000, 1750000001, 1750000090, ""⟩

/-- A round that meets both channels: the video is done, the song has failed. -/
def busyRound : PollRound where
  limit := 1000
  platforms := [.other "50", .suno]
  channels := [3, 4]
  channelFound := fun _ => true
  adaptorFound := fun _ => true
  video := fun _ _ => some (videoReply .success)
  suno := fun _ => some [sunoFailure]
  server := ""

def userFetch (status : TaskStatus) : Fetch :=
  ⟨7, "task_a", true, some ⟨status, "", "", "50%"⟩, ""⟩

def mixedCalls : Fin 3 → TaskCall
  | 0 => .poll busyRound
  | 1 => .sweep ⟨60, 1750003700, 1750003701⟩
  | 2 => .fetch (userFetch .inProgress)

/-- The sweep has read both tasks before the round ends them, and loses both updates. -/
theorem round_before_sweep_bills_once : ∃ p : TaskPool (Fin 3),
      OrderlyRun mixedCalls (taskPool Fin.val mixedCalls twoTasks) p ∧
      (∀ i, (p.result? i).isSome = true) ∧
      p.state.journal = [.settled 1 (-20), .refunded 2 100] ∧
      ∀ row₀ ∈ twoTasks.rows, ∃ row, p.state.tasks.find? row₀.id = some row ∧
        row.quota = row₀.quota ∧ BilledOnce p.state row := by
  have hobs : ((taskPool Fin.val mixedCalls twoTasks).playAlone handleTasks
      [2, 2, 1, 0, 0, 0, 0, 0, 1, 1]).map (fun p =>
        decide ((∀ i, (p.result? i).isSome = true) ∧
          p.state.journal = [.settled 1 (-20), .refunded 2 100] ∧
          ∀ i, permitted (fun _ => allowed (mixedCalls i)) [] (p.past i) = true)) = some true := by
    decide +kernel
  obtain ⟨p, hp, hobs⟩ := map_eq_some_iff.mp hobs
  obtain ⟨hdone, hjournal, hpermitted⟩ := of_decide_eq_true hobs
  have hrun : OrderlyRun mixedCalls (taskPool Fin.val mixedCalls twoTasks) p :=
    (play_run_alone hp).of_permitted hpermitted
  have hunder : UnderWay twoTasks := ⟨by decide, by decide, by decide, by decide⟩
  exact ⟨p, hrun, hdone, hjournal,
    (tasks_billed_once_when_orderly Fin.val_injective hunder hrun .refl).2 hdone⟩

def Misbilled (p : TaskPool ι) : Prop :=
  (∀ i, (p.result? i).isSome = true) ∧ ∃ row ∈ p.state.tasks.rows, ¬ BilledOnce p.state row

theorem misbilled_of_play {calls : Fin 2 → TaskCall} (moves : List (Fin 2))
    (hobs : ((taskPool Fin.val calls twoTasks).playAlone handleTasks
      moves).map (fun p => decide ((∀ i, (p.result? i).isSome = true) ∧
        ∃ row ∈ p.state.tasks.rows, ¬ BilledOnce p.state row)) = some true) :
    ∃ p : TaskPool (Fin 2), TaskRun (taskPool Fin.val calls twoTasks) p ∧ Misbilled p := by
  obtain ⟨p, hp, hobs⟩ := map_eq_some_iff.mp hobs
  have hmisbilled := of_decide_eq_true hobs
  exact ⟨p, play_run_alone hp, hmisbilled⟩

def lostChannel : Fin 2 → TaskCall
  | 0 => .poll { busyRound with channelFound := fun _ => false }
  | 1 => .sweep ⟨60, 1750003700, 1750003701⟩

def fetchedFailure : Fin 2 → TaskCall
  | 0 => .fetch (userFetch .failure)
  | 1 => .poll { busyRound with platforms := [.other "50"] }

def sunoTwice : Fin 2 → TaskCall := fun _ => .poll { busyRound with platforms := [.suno] }

def reopened : Fin 2 → TaskCall
  | 0 => .poll { busyRound with platforms := [.other "50"] }
  | 1 => .fetch (userFetch .inProgress)

/-- A bulk update fails tasks without a refund, and so does the fetch of a user. Two rounds that
overlap refund a Suno task twice. A fetch turns a finished task back into a running one. -/
theorem unguarded_writers_misbill :
    (∃ p : TaskPool (Fin 2), TaskRun (taskPool Fin.val lostChannel twoTasks) p ∧ Misbilled p) ∧
    (∃ p : TaskPool (Fin 2), TaskRun (taskPool Fin.val fetchedFailure twoTasks) p ∧ Misbilled p) ∧
    (∃ p : TaskPool (Fin 2), TaskRun (taskPool Fin.val sunoTwice twoTasks) p ∧ Misbilled p) ∧
    ∃ p q : TaskPool (Fin 2), TaskRun (taskPool Fin.val reopened twoTasks) p ∧
      Step handleTasks (fun _ _ _ _ => True) (fun _ _ => False) p q ∧
      (p.state.tasks.find? 1).map Task.status = some .success ∧
      (q.state.tasks.find? 1).map Task.status = some .inProgress := by
  refine ⟨?_, ?_, ?_, ?_⟩
  · exact misbilled_of_play [0, 0, 0, 1] (by decide +kernel)
  · exact misbilled_of_play [0, 0, 1] (by decide +kernel)
  · exact misbilled_of_play [0, 1, 0, 0, 1, 1] (by decide +kernel)
  · have hobs : ((taskPool Fin.val reopened twoTasks).playAlone handleTasks
        [0, 0, 0, 1]).bind (fun p => (p.step? handleTasks 1).map fun q =>
          decide ((p.state.tasks.find? 1).map Task.status = some .success ∧
            (q.state.tasks.find? 1).map Task.status = some .inProgress)) = some true := by
      decide +kernel
    obtain ⟨p, hp, hobs⟩ := bind_eq_some_iff.mp hobs
    obtain ⟨q, hq, hobs⟩ := map_eq_some_iff.mp hobs
    exact ⟨p, q, play_run_alone hp, Pool.step?_step hq, of_decide_eq_true hobs⟩

end Runs

end AsyncTaskRuns
