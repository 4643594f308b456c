import TinyToken.AsyncTasks

/-! The books of asynchronous tasks: which call still has to go on with a task, what has been
refunded and settled, and what every operation of a call does to them. A call that wins an
update of the status bills it; the refund of a Suno task precedes its row. -/
namespace AsyncTaskBooks

open ProgramSteps RelyTriples KeyedTable AsyncTasks List Option Function Table Bool

def Entry.refundOf (id : ℤ) : Entry → Option ℤ
  | .refunded task amount => if task = id then some amount else none
  | .settled _ _ => none

def Entry.settlementOf (id : ℤ) : Entry → Option ℤ
  | .settled task delta => if task = id then some delta else none
  | .refunded _ _ => none

def refundsOf (id : ℤ) (journal : List Entry) : List ℤ := journal.filterMap (Entry.refundOf id)

def settlementsOf (id : ℤ) (journal : List Entry) : List ℤ :=
  journal.filterMap (Entry.settlementOf id)

/-- The status of a task, the call that has to go on with it, its refunds and settlements. -/
inductive Books (quota : ℤ) : TaskStatus → Option (ℕ × Due) → List ℤ → List ℤ → Prop
  | running {status : TaskStatus} (hopen : status.terminal = false) : Books quota status none [] []
  | prepaid {status : TaskStatus} (call : ℕ) (hopen : status.terminal = false) :
      Books quota status (some (call, .row)) [quota] []
  | failing (call : ℕ) : Books quota .failure (some (call, .refund)) [] []
  | failed : Books quota .failure none [quota] []
  | succeeding (call : ℕ) : Books quota .success (some (call, .settle)) [] []
  | succeeded (delta : ℤ) : Books quota .success none [] [delta]

structure Kin (a b : Task) : Prop where
  id : b.id = a.id
  quota : b.quota = a.quota
  platform : b.platform = a.platform
  upstream : b.getUpstreamTaskId = a.getUpstreamTaskId

theorem Kin.refl (a : Task) : Kin a a := ⟨rfl, rfl, rfl, rfl⟩

theorem Kin.trans {a b c : Task} (h : Kin a b) (h' : Kin b c) : Kin a c :=
  ⟨h'.id.trans h.id, h'.quota.trans h.quota, h'.platform.trans h.platform,
    h'.upstream.trans h.upstream⟩

theorem Kin.symm {a b : Task} (h : Kin a b) : Kin b a :=
  ⟨h.id.symm, h.quota.symm, h.platform.symm, h.upstream.symm⟩

/-- A task that is charged, not from the old system, and whose books are in order. -/
structure RowOk (w : TaskWorld) (row : Task) : Prop where
  positive : 0 < row.quota
  recent : row.legacy = false
  books : Books row.quota row.status (w.due row.id) (refundsOf row.id w.journal)
    (settlementsOf row.id w.journal)

def Distinct (t : Table Task ℤ Task.id) : Prop :=
  ∀ a ∈ t.rows, ∀ b ∈ t.rows, a.platform = b.platform →
    a.getUpstreamTaskId = b.getUpstreamTaskId → a.id = b.id

instance (t : Table Task ℤ Task.id) : Decidable (Distinct t) :=
  inferInstanceAs (Decidable (∀ a ∈ t.rows, ∀ b ∈ t.rows, _ → _ → _))

structure Sane (w : TaskWorld) : Prop where
  rows : ∀ row ∈ w.tasks.rows, RowOk w row
  distinct : Distinct w.tasks

def Kept (s t : TaskWorld) : Prop :=
  ∀ id row, s.tasks.find? id = some row → ∃ row', t.tasks.find? id = some row' ∧ Kin row row' ∧
    (row.status.terminal = true → row'.status = row.status)

theorem Kept.refl (s : TaskWorld) : Kept s s := fun _ row h => ⟨row, h, Kin.refl row, fun _ => rfl⟩

theorem Kept.trans {s t u : TaskWorld} (h : Kept s t) (h' : Kept t u) : Kept s u := by
  intro id row hrow
  obtain ⟨row₁, hrow₁, hkin₁, hstatus₁⟩ := h id row hrow
  obtain ⟨row₂, hrow₂, hkin₂, hstatus₂⟩ := h' id row₁ hrow₁
  refine ⟨row₂, hrow₂, hkin₁.trans hkin₂, fun hterminal => ?_⟩
  have h₁ := hstatus₁ hterminal
  rw [← h₁] at hterminal ⊢
  exact hstatus₂ hterminal

def Known (task : Task) (w : TaskWorld) : Prop :=
  ∃ row, w.tasks.find? task.id = some row ∧ Kin row task

theorem Known.kept {task : Task} {s t : TaskWorld} (h : Known task s) (hst : Kept s t) :
    Known task t := by
  obtain ⟨row, hrow, hkin⟩ := h
  obtain ⟨row', hrow', hkin', -⟩ := hst _ row hrow
  exact ⟨row', hrow', hkin'.symm.trans hkin⟩

theorem Known.of_kin {a b : Task} {w : TaskWorld} (h : Known a w) (hkin : Kin a b) : Known b w := by
  obtain ⟨row, hrow, hrowa⟩ := h
  exact ⟨row, by rw [hkin.id]; exact hrow, hrowa.trans hkin⟩

section Steps

variable {call : ℕ} {w w' : TaskWorld} {old row : Task}

structure Touches (w w' : TaskWorld) (old row : Task) : Prop where
  stored : w.tasks.find? row.id = some old
  kin : Kin old row
  recent : row.legacy = false
  tasks : w'.tasks = w.tasks.save row
  due : ∀ id, id ≠ row.id → w'.due id = w.due id
  refunds : ∀ id, id ≠ row.id → refundsOf id w'.journal = refundsOf id w.journal
  settlements : ∀ id, id ≠ row.id → settlementsOf id w'.journal = settlementsOf id w.journal

theorem Touches.find? (h : Touches w w' old row) (id : ℤ) :
    w'.tasks.find? id = if id = row.id then some row else w.tasks.find? id := by
  rw [h.tasks, find?_save]

theorem Touches.kept (h : Touches w w' old row)
    (hstatus : old.status.terminal = true → row.status = old.status) : Kept w w' := by
  intro id x hx
  rw [h.find?]
  by_cases hid : id = row.id
  · rw [hid, h.stored] at hx
    cases hx
    exact ⟨row, if_pos hid, h.kin, hstatus⟩
  · exact ⟨x, by rw [if_neg hid]; exact hx, Kin.refl x, fun _ => rfl⟩

theorem Touches.mem (h : Touches w w' old row) {x : Task} (hx : x ∈ w'.tasks.rows) :
    x = row ∨ (x.id ≠ row.id ∧ x ∈ w.tasks.rows) := by
  have hfind := find?_of_mem hx
  rw [h.find?] at hfind
  by_cases hid : x.id = row.id
  · rw [if_pos hid] at hfind
    exact .inl (some.inj hfind).symm
  · rw [if_neg hid] at hfind
    exact .inr ⟨hid, find?_some_mem hfind⟩

theorem Touches.sane (h : Touches w w' old row) (hs : Sane w)
    (hbooks : Books row.quota row.status (w'.due row.id) (refundsOf row.id w'.journal)
      (settlementsOf row.id w'.journal)) : Sane w' := by
  have hold : old ∈ w.tasks.rows := find?_some_mem h.stored
  constructor
  · intro x hx
    rcases h.mem hx with rfl | ⟨hne, hx⟩
    · refine ⟨?_, h.recent, hbooks⟩
      rw [h.kin.quota]
      exact (hs.rows old hold).positive
    · have hok := hs.rows x hx
      refine ⟨hok.positive, hok.recent, ?_⟩
      rw [h.due _ hne, h.refunds _ hne, h.settlements _ hne]
      exact hok.books
  · -- a touched row has the platform and the upstream id of the row before it
    have hback : ∀ x ∈ w'.tasks.rows, ∃ y ∈ w.tasks.rows, Kin y x := by
      intro x hx
      rcases h.mem hx with rfl | ⟨-, hx⟩
      · exact ⟨old, hold, h.kin⟩
      · exact ⟨x, hx, Kin.refl x⟩
    intro a ha b hb hplatform hupstream
    obtain ⟨a', ha', hkina⟩ := hback a ha
    obtain ⟨b', hb', hkinb⟩ := hback b hb
    rw [hkina.id, hkinb.id]
    refine hs.distinct a' ha' b' hb' ?_ ?_
    · rw [← hkina.platform, ← hkinb.platform, hplatform]
    · rw [← hkina.upstream, ← hkinb.upstream, hupstream]

/-- What a call's step promises the others: it goes on with none of their tasks. -/
structure Behaves (call : ℕ) (s t : TaskWorld) : Prop where
  kept : Kept s t
  sane : Sane s → Sane t
  others : ∀ other, other ≠ call → ∀ id d, t.due id = some (other, d) ↔ s.due id = some (other, d)

structure Leaves (call : ℕ) (s t : TaskWorld) : Prop where
  kept : Kept s t
  sane : Sane s → Sane t
  mine : ∀ id d, t.due id = some (call, d) ↔ s.due id = some (call, d)

theorem Behaves.refl (call : ℕ) (s : TaskWorld) : Behaves call s s :=
  ⟨Kept.refl s, id, fun _ _ _ _ => Iff.rfl⟩

theorem Behaves.leaves {other : ℕ} {s t : TaskWorld} (h : Behaves call s t) (hne : other ≠ call) :
    Leaves other s t :=
  ⟨h.kept, h.sane, h.others other hne⟩

theorem Touches.behaves (h : Touches w w' old row)
    (hstatus : old.status.terminal = true → row.status = old.status)
    (hdue : ∀ other, other ≠ call → ∀ d,
      w'.due row.id = some (other, d) ↔ w.due row.id = some (other, d))
    (hsane : Sane w') : Behaves call w w' := by
  refine ⟨h.kept hstatus, fun _ => hsane, fun other hne id d => ?_⟩
  by_cases hid : id = row.id
  · rw [hid]
    exact hdue other hne d
  · rw [h.due id hid]

end Steps

def openTask (w : TaskWorld) (id : ℤ) : Bool :=
  match w.tasks.find? id with
  | some row => !row.status.terminal
  | none => false

def rowDue (w : TaskWorld) (id : ℤ) : Bool :=
  match w.due id with
  | some (_, .row) => true
  | _ => false

/-- No bulk update meets a task. A fetch neither ends a task nor moves one that has ended. A
Suno round finds the tasks it refunds or writes still open, and reports neither a success,
nor a time of the old system, nor a reason without a failure; while its row is due, no other
update of the task is tried. -/
def allowed : TaskCall → TaskOp → TaskWorld → Bool
  | _, .bulkUpdate ids _, w => ids.all fun id => (w.tasks.find? id).isNone
  | .fetch _, .updateWithStatus _ row fromStatus, w =>
    !row.status.terminal && !fromStatus.terminal && !rowDue w row.id
  | _, .updateWithStatus _ row _, w => !rowDue w row.id
  | _, .update _ row, w =>
    openTask w row.id && row.status ≠ .success && !row.legacy &&
      (row.status = .failure || w.due row.id = none)
  | .poll _, .refund _ task, w =>
    task.platform ≠ .suno || (openTask w task.id && w.due task.id = none)
  | _, _, _ => true

def taskRules (kind : TaskCall) (call : ℕ) : Rules TaskOp TaskWorld where
  ok := fun o w => allowed kind o w = true
  rely := Leaves call
  guar := Behaves call
  rely_refl := fun s => ⟨Kept.refl s, id, fun _ _ => Iff.rfl⟩
  rely_trans := fun _ _ _ h h' =>
    ⟨h.kept.trans h'.kept, fun hs => h'.sane (h.sane hs), fun id d => (h'.mine id d).trans (h.mine id d)⟩

def Idle (call : ℕ) (w : TaskWorld) : Prop := Sane w ∧ ∀ id d, w.due id ≠ some (call, d)

def Owes (call : ℕ) (id : ℤ) (d : Due) (w : TaskWorld) : Prop :=
  Sane w ∧ w.due id = some (call, d) ∧ ∀ id' d', w.due id' = some (call, d') → id' = id

section Assertions

variable {kind : TaskCall} {call : ℕ} {w : TaskWorld}

theorem stable_idle : Stable (taskRules kind call) (Idle call) :=
  fun _ _ h hs => ⟨h.sane hs.1, fun id d hd => hs.2 id d ((h.mine id d).mp hd)⟩

theorem stable_owes {id : ℤ} {d : Due} : Stable (taskRules kind call) (Owes call id d) :=
  fun _ _ h hs => ⟨h.sane hs.1, (h.mine id d).mpr hs.2.1,
    fun id' d' hd => hs.2.2 id' d' ((h.mine id' d').mp hd)⟩

theorem stable_known {task : Task} : Stable (taskRules kind call) (Known task) :=
  fun _ _ h hs => hs.kept h.kept

end Assertions

section Operations

variable {kind : TaskCall} {call : ℕ}

variable {row : Task} {w : TaskWorld}

theorem rowOk_of_find? (hs : Sane w) {id : ℤ} (h : w.tasks.find? id = some row) : RowOk w row :=
  hs.rows row (find?_some_mem h)

abbrev TaskTriple {α : Type} (kind : TaskCall) (call : ℕ) (P : TaskWorld → Prop) (prog : TaskProg α) :=
  Triple handleTasks (taskRules kind call) P prog

theorem triple_quiet {o : TaskOp} {P : TaskWorld → Prop} {Q : TaskRes o → TaskWorld → Prop}
    (hP : Stable (taskRules kind call) P) (hQ : ∀ r, Stable (taskRules kind call) (Q r))
    (hstep : ∀ w r u, P w → handleTasks o w = some (r, u) → u = w ∧ Q r w) :
    TaskTriple kind call P (Prog.perform o) Q := by
  refine triple_perform hP hQ fun w r u hw _ hu => ?_
  obtain ⟨rfl, hq⟩ := hstep w r u hw hu
  exact ⟨Behaves.refl call u, hq⟩

structure Fresh (task : Task) : Prop where
  running : task.status.terminal = false
  recent : task.legacy = false

def AllKnown (tasks : List Task) (w : TaskWorld) : Prop := ∀ task ∈ tasks, Known task w

theorem stable_allKnown {tasks : List Task} : Stable (taskRules kind call) (AllKnown tasks) :=
  fun _ _ h hs task ht => (hs task ht).kept h.kept

theorem known_of_mem {task : Task} (h : task ∈ w.tasks.rows) : Known task w :=
  ⟨task, find?_of_mem h, Kin.refl task⟩

theorem fresh_of_open (hs : Sane w) {task : Task} (h : task ∈ w.tasks.rows)
    (hopen : task.open = true) : Fresh task := by
  refine ⟨?_, (hs.rows task h).recent⟩
  rw [Task.open, and_eq_true, not_eq_true'] at hopen
  exact hopen.2

theorem triple_timedOut {cutoff : ℤ} {limit : ℕ} :
    TaskTriple kind call (Idle call)
      (timedOutTasks cutoff limit)
      (fun tasks w =>
        (Idle call w ∧ AllKnown tasks w) ∧ ∀ task ∈ tasks, Fresh task) := by
  refine triple_quiet stable_idle (fun tasks => (stable_idle.and stable_allKnown).and fun _ _ _ h => h) ?_
  intro w tasks u hw hu
  cases hu
  have hmem : ∀ task ∈ getTimedOutUnfinishedTasks w.tasks cutoff limit,
      task ∈ w.tasks.rows ∧ task.open = true := by
    intro task htask
    have hsorted := mem_of_mem_take htask
    rw [mem_insertionSort, mem_filter, and_eq_true] at hsorted
    exact ⟨hsorted.1, hsorted.2.1⟩
  exact ⟨rfl, ⟨hw, fun task htask => known_of_mem (hmem task htask).1⟩,
    fun task htask => fresh_of_open hw.1 (hmem task htask).1 (hmem task htask).2⟩

def DistinctList (tasks : List Task) : Prop :=
  tasks.Nodup ∧ ∀ a ∈ tasks, ∀ b ∈ tasks, a.platform = b.platform →
    a.getUpstreamTaskId = b.getUpstreamTaskId → a = b

theorem nodup_unfinished (t : Table Task ℤ Task.id) (limit : ℕ) :
    (getAllUnFinishSyncTasks t limit).Nodup := by
  have hrows : t.rows.Nodup := t.nodup.of_map
  exact ((perm_insertionSort _ _).nodup_iff.mpr (hrows.filter _)).sublist
    (take_sublist _ _)

theorem triple_unfinished {limit : ℕ} : TaskTriple kind call (Idle call)
      (unfinishedTasks limit)
      (fun tasks w => (Idle call w ∧ AllKnown tasks w) ∧
        (∀ task ∈ tasks, Fresh task) ∧ DistinctList tasks) := by
  refine triple_quiet stable_idle (fun tasks => (stable_idle.and stable_allKnown).and fun _ _ _ h => h) ?_
  intro w tasks u hw hu
  cases hu
  have hmem : ∀ task ∈ getAllUnFinishSyncTasks w.tasks limit,
      task ∈ w.tasks.rows ∧ task.open = true := by
    intro task htask
    have hsorted := mem_of_mem_take htask
    rw [mem_insertionSort, mem_filter] at hsorted
    exact hsorted
  refine ⟨rfl, ⟨hw, fun task htask => known_of_mem (hmem task htask).1⟩,
    fun task htask => fresh_of_open hw.1 (hmem task htask).1 (hmem task htask).2, nodup_unfinished _ _, ?_⟩
  intro a ha b hb hplatform hupstream
  exact eq_of_mem_key (hmem a ha).1 (hmem b hb).1
    (hw.1.distinct a (hmem a ha).1 b (hmem b hb).1 hplatform hupstream)

theorem triple_byTaskId {userId : ℤ} {taskId : String} :
    TaskTriple kind call (Idle call)
      (taskByTaskId userId taskId)
      (fun found w => (Idle call w ∧ AllKnown found.toList w) ∧
        ∀ task ∈ found, task.legacy = false) := by
  refine triple_quiet stable_idle (fun found => (stable_idle.and stable_allKnown).and fun _ _ _ h => h) ?_
  intro w found u hw hu
  cases hu
  have hmem : ∀ task ∈ getByTaskId w.tasks userId taskId, task ∈ w.tasks.rows := by
    intro task htask
    unfold getByTaskId at htask
    split at htask
    · cases htask
    · have hmem := mem_of_find?_eq_some htask
      rwa [mem_insertionSort] at hmem
  exact ⟨rfl, ⟨hw, fun task htask => known_of_mem (hmem task (mem_toList.mp htask))⟩,
    fun task htask => (hw.1.rows task (hmem task htask)).recent⟩

def billOf : TaskStatus → Option Due
  | .failure => some .refund
  | .success => some .settle
  | _ => none

theorem Books.of_open {quota : ℤ} {status : TaskStatus} {due : Option (ℕ × Due)}
    {refunds settlements : List ℤ} (h : Books quota status due refunds settlements)
    (hopen : status.terminal = false) (hrow : ∀ c, due ≠ some (c, .row)) :
    due = none ∧ refunds = [] ∧ settlements = [] := by
  cases h with
  | running _ => exact ⟨rfl, rfl, rfl⟩
  | prepaid c _ => exact absurd rfl (hrow c)
  | failing _ | failed | succeeding _ | succeeded _ => cases hopen

variable {old : Task} {id : ℤ} {d : Due} {e : Entry}

theorem not_rowDue (h : rowDue w id = false) (c : ℕ) : w.due id ≠ some (c, .row) := by
  intro hdue
  rw [rowDue, hdue] at h
  cases h

variable {fromStatus : TaskStatus}

theorem books_of_won {row old : Task} (hs : Sane w)
    (hallowed : allowed kind (.updateWithStatus call row fromStatus) w = true)
    (hopen : fromStatus.terminal = false) (hold : w.tasks.find? row.id = some old)
    (hstatus : old.status = fromStatus) :
    w.due row.id = none ∧ refundsOf row.id w.journal = [] ∧
      settlementsOf row.id w.journal = [] := by
  have hid : old.id = row.id := find?_some_key hold
  have hbooks := (rowOk_of_find? hs hold).books
  rw [hid] at hbooks
  apply hbooks.of_open (by rw [hstatus]; exact hopen)
  exact not_rowDue (by cases kind <;> simp_all [allowed])

theorem won_cases {w u : TaskWorld} {won : Bool}
    (h : handleTasks (.updateWithStatus call row fromStatus) w = some (won, u)) :
    (won = false ∧ u = w) ∨ (won = true ∧ ∃ old, w.tasks.find? row.id = some old ∧
      old.status = fromStatus ∧ u = { w with
        tasks := w.tasks.save row
        due := dueAfterWrite call row fromStatus w.due }) := by
  simp only [handleTasks] at h
  split at h
  next hstatus =>
    cases h
    obtain ⟨old, hold, hstatus⟩ := map_eq_some_iff.mp hstatus
    exact .inr ⟨rfl, old, hold, hstatus, rfl⟩
  · cases h
    exact .inl ⟨rfl, rfl⟩

theorem kin_of_known {row old : Task} (h : Known row w)
    (hold : w.tasks.find? row.id = some old) : Kin old row := by
  obtain ⟨x, hx, hkin⟩ := h
  rw [hold] at hx
  cases hx
  exact hkin

theorem triple_end (hbill : billOf row.status = some d) (hopen : fromStatus.terminal = false)
    (hrecent : row.legacy = false) :
    TaskTriple kind call (fun w => Idle call w ∧ Known row w)
      (updateWithStatus call row fromStatus)
      (fun won w => if won then Owes call row.id d w else Idle call w) := by
  refine triple_perform (stable_idle.and stable_known) ?_ ?_
  · intro won
    cases won
    · exact stable_idle
    · exact stable_owes
  rintro w won u ⟨hidle, hknown⟩ hallowed hu
  rcases won_cases hu with ⟨rfl, rfl⟩ | ⟨rfl, old, hold, hstatus, rfl⟩
  · exact ⟨Behaves.refl call _, hidle⟩
  obtain ⟨hdue, hrefunds, hsettlements⟩ := books_of_won hidle.1 hallowed hopen hold hstatus
  have hafter : dueAfterWrite call row fromStatus w.due =
      update w.due row.id (some (call, d)) := by
    unfold dueAfterWrite
    rw [if_neg (by rw [hopen]; decide)]
    cases hrow : row.status <;> simp_all [billOf]
  have htouch : Touches w { w with
      tasks := w.tasks.save row, due := dueAfterWrite call row fromStatus w.due } old row := by
    refine ⟨hold, kin_of_known hknown hold, hrecent, rfl, fun id hid => ?_, fun _ _ => rfl, fun _ _ => rfl⟩
    change dueAfterWrite call row fromStatus w.due id = _
    rw [hafter, update_of_ne hid]
  have hnow : dueAfterWrite call row fromStatus w.due row.id = some (call, d) := by
    rw [hafter, update_self]
  have hsane := htouch.sane hidle.1 (by
    cases hrow : row.status <;> simp_all only [billOf, reduceCtorEq, some.injEq] <;> subst hbill
    · exact .failing call
    · exact .succeeding call)
  refine ⟨htouch.behaves (fun hterminal => ?_) (fun other hne d' => ?_) hsane, hsane, hnow, ?_⟩
  · rw [hstatus, hopen] at hterminal
    cases hterminal
  · change dueAfterWrite call row fromStatus w.due row.id = _ ↔ _
    rw [hnow, hdue]
    constructor
    · intro h
      cases h
      exact absurd rfl hne
    · intro h
      cases h
  · intro id' d' h
    by_contra hid
    change dueAfterWrite call row fromStatus w.due id' = _ at h
    rw [hafter, update_of_ne hid] at h
    exact hidle.2 id' d' h

theorem triple_move (hrecent : row.legacy = false)
    (hopen : ∀ w, allowed kind (.updateWithStatus call row fromStatus) w = true →
      row.status.terminal = false ∧ fromStatus.terminal = false) :
    TaskTriple kind call (fun w => Idle call w ∧ Known row w)
      (updateWithStatus call row fromStatus) (fun _ w => Idle call w) := by
  refine triple_perform (stable_idle.and stable_known) (fun _ => stable_idle) ?_
  rintro w won u ⟨hidle, hknown⟩ hallowed hu
  rcases won_cases hu with ⟨-, rfl⟩ | ⟨-, old, hold, hstatus, rfl⟩
  · exact ⟨Behaves.refl call _, hidle⟩
  obtain ⟨hrow, hfrom⟩ := hopen w hallowed
  obtain ⟨hdue, hrefunds, hsettlements⟩ := books_of_won hidle.1 hallowed hfrom hold hstatus
  have hafter : dueAfterWrite call row fromStatus w.due = w.due := by
    unfold dueAfterWrite
    cases hs : row.status <;> simp_all [TaskStatus.terminal]
  rw [hafter]
  have htouch : Touches w { w with tasks := w.tasks.save row } old row :=
    ⟨hold, kin_of_known hknown hold, hrecent, rfl, fun _ _ => rfl, fun _ _ => rfl, fun _ _ => rfl⟩
  have hsane := htouch.sane hidle.1 (by
    rw [hdue, hrefunds, hsettlements]
    exact .running hrow)
  refine ⟨htouch.behaves (fun hterminal => ?_) (fun _ _ _ => Iff.rfl) hsane, hsane, hidle.2⟩
  rw [hstatus, hfrom] at hterminal
  cases hterminal

@[simp] theorem refundsOf_append (id : ℤ) (journal : List Entry) (e : Entry) :
    refundsOf id (journal ++ [e]) = refundsOf id journal ++ (Entry.refundOf id e).toList := by
  cases h : Entry.refundOf id e <;> simp [refundsOf, h]

@[simp] theorem settlementsOf_append (id : ℤ) (journal : List Entry) (e : Entry) :
    settlementsOf id (journal ++ [e]) =
      settlementsOf id journal ++ (Entry.settlementOf id e).toList := by
  rw [settlementsOf, filterMap_append]
  cases h : Entry.settlementOf id e <;> simp [settlementsOf, h]

def Entry.task : Entry → ℤ
  | .refunded task _ => task
  | .settled task _ => task

theorem touches_bill {due : ℤ → Option (ℕ × Due)} (hs : Sane w)
    (hold : w.tasks.find? old.id = some old) (he : Entry.task e = old.id)
    (hdue : ∀ id, id ≠ old.id → due id = w.due id) :
    Touches w { w with journal := w.journal ++ [e], due := due } old old := by
  have hother : ∀ id, id ≠ old.id → Entry.refundOf id e = none ∧ Entry.settlementOf id e = none := by
    intro id hid
    cases e with
    | refunded task amount =>
      have hne : ¬ task = id := fun h => hid (h.symm.trans he)
      exact ⟨if_neg hne, rfl⟩
    | settled task delta =>
      have hne : ¬ task = id := fun h => hid (h.symm.trans he)
      exact ⟨rfl, if_neg hne⟩
  refine ⟨hold, Kin.refl old, (rowOk_of_find? hs hold).recent, (save_of_mem hold).symm, hdue,
    fun id hid => ?_, fun id hid => ?_⟩
  · rw [refundsOf_append, (hother id hid).1]
    exact append_nil _
  · rw [settlementsOf_append, (hother id hid).2]
    exact append_nil _

theorem Known.found {task : Task} (hs : Sane w) (h : Known task w) :
    ∃ old, w.tasks.find? old.id = some old ∧ Kin old task ∧ RowOk w old := by
  obtain ⟨old, hold, hkin⟩ := h
  have hok := rowOk_of_find? hs hold
  rw [hkin.id] at hold
  exact ⟨old, hold, hkin, hok⟩

theorem quota_ne_zero {old task : Task} (hok : RowOk w old) (hkin : Kin old task) :
    task.quota ≠ 0 := by
  rw [hkin.quota]
  exact hok.positive.ne'

theorem Owes.idle {w u : TaskWorld} (h : Owes call id d w) (hsane : Sane u)
    (hnone : u.due id = none) (hother : ∀ id', id' ≠ id → u.due id' = w.due id') : Idle call u := by
  refine ⟨hsane, fun id' d' hd => ?_⟩
  by_cases hid : id' = id
  · rw [hid, hnone] at hd
    cases hd
  · rw [hother id' hid] at hd
    exact hid (h.2.2 id' d' hd)

theorem behaves_bill {due : ℤ → Option (ℕ × Due)} (hs : Sane w)
    (hold : w.tasks.find? old.id = some old) (he : Entry.task e = old.id)
    (hdue : ∀ id, id ≠ old.id → due id = w.due id) (hothers : ∀ other, other ≠ call → ∀ d,
      due old.id = some (other, d) ↔ w.due old.id = some (other, d))
    (hbooks : Books old.quota old.status (due old.id)
      (refundsOf old.id w.journal ++ (Entry.refundOf old.id e).toList)
      (settlementsOf old.id w.journal ++ (Entry.settlementOf old.id e).toList)) :
    Behaves call w { w with journal := w.journal ++ [e], due := due } ∧
      Sane { w with journal := w.journal ++ [e], due := due } := by
  have htouch := touches_bill hs hold he hdue
  have hsane := htouch.sane hs (by rw [refundsOf_append, settlementsOf_append]; exact hbooks)
  exact ⟨htouch.behaves (fun _ => rfl) hothers hsane, hsane⟩

theorem only_mine {x y : Option (ℕ × Due)} (hx : ∀ c d, x = some (c, d) → c = call)
    (hy : ∀ c d, y = some (c, d) → c = call) {other : ℕ} (hne : other ≠ call) (d : Due) :
    x = some (other, d) ↔ y = some (other, d) :=
  ⟨fun h => absurd (hx other d h) hne, fun h => absurd (hy other d h) hne⟩

theorem Owes.bill {task : Task} (howes : Owes call task.id d w) (hknown : Known task w)
    (he : Entry.task e = task.id) (hbooks : ∀ status refunds settlements,
      Books task.quota status (some (call, d)) refunds settlements →
      Books task.quota status none (refunds ++ (Entry.refundOf task.id e).toList)
        (settlements ++ (Entry.settlementOf task.id e).toList)) :
    Behaves call w { w with
      journal := w.journal ++ [e], due := update w.due task.id none } ∧
      Idle call { w with
        journal := w.journal ++ [e], due := update w.due task.id none } := by
  obtain ⟨old, hold, hkin, hok⟩ := hknown.found howes.1
  have hother : ∀ id, id ≠ task.id → update w.due task.id none id = w.due id :=
    fun id hid => update_of_ne hid _ _
  have hnow : update w.due task.id none task.id = none := update_self ..
  rw [hkin.id, hkin.quota] at hbooks
  rw [hkin.id] at howes hother hnow he ⊢
  have hothers : ∀ other, other ≠ call → ∀ d',
      update w.due old.id none old.id = some (other, d') ↔
        w.due old.id = some (other, d') := by
    intro other hne d'
    rw [hnow, howes.2.1]
    exact only_mine (fun c d h => by cases h) (fun c d h => by cases h; rfl) hne d'
  obtain ⟨hbehaves, hsane⟩ := behaves_bill howes.1 hold he hother hothers (by
      rw [hnow]
      apply hbooks _ _ _
      rw [← howes.2.1]
      exact hok.books)
  exact ⟨hbehaves, howes.idle hsane hnow hother⟩

theorem triple_refund :
    TaskTriple kind call (fun w => Owes call row.id .refund w ∧ Known row w)
      (refundTaskQuota call row) (fun _ w => Idle call w) := by
  refine triple_perform (stable_owes.and stable_known) (fun _ => stable_idle) ?_
  rintro w r u ⟨howes, hknown⟩ - hu
  obtain ⟨old, hold, hkin, hok⟩ := hknown.found howes.1
  simp only [handleTasks, if_neg (quota_ne_zero hok hkin), dueAfterRefund, if_pos howes.2.1] at hu
  cases hu
  refine howes.bill hknown rfl fun status refunds settlements hbooks => ?_
  cases hbooks
  simp only [Entry.refundOf, Entry.settlementOf, if_true, toList, nil_append]
  exact .failed

theorem triple_settle {actualQuota : ℤ} :
    TaskTriple kind call (fun w => Owes call row.id .settle w ∧ Known row w)
      (settleTaskBilling call row actualQuota) (fun _ w => Idle call w) := by
  refine triple_perform (stable_owes.and stable_known) (fun _ => stable_idle) ?_
  rintro w r u ⟨howes, hknown⟩ - hu
  simp only [handleTasks, if_pos howes.2.1] at hu
  cases hu
  refine howes.bill hknown rfl fun status refunds settlements hbooks => ?_
  cases hbooks
  simp only [Entry.refundOf, Entry.settlementOf, if_true, toList, nil_append]
  exact .succeeded _

theorem open_of_openTask (hold : w.tasks.find? old.id = some old)
    (hopen : openTask w old.id = true) :
    old.status.terminal = false := by
  rw [openTask, hold] at hopen
  simpa using hopen

theorem triple_prepay {r : PollRound} (hsuno : row.platform = .suno) :
    Triple handleTasks (taskRules (.poll r) call) (fun w => Idle call w ∧ Known row w)
      (refundTaskQuota call row) (fun _ w => Owes call row.id .row w) := by
  refine triple_perform (stable_idle.and stable_known) (fun _ => stable_owes) ?_
  rintro w x u ⟨hidle, hknown⟩ hallowed hu
  obtain ⟨old, hold, hkin, hok⟩ := hknown.found hidle.1
  have hmeets : openTask w row.id = true ∧ w.due row.id = none := by
    change allowed (.poll r) (.refund call row) w = true at hallowed
    simpa [allowed, hsuno] using hallowed
  have hne : ¬ w.due row.id = some (call, .refund) := by
    rw [hmeets.2]
    exact nofun
  simp only [handleTasks, if_neg (quota_ne_zero hok hkin), dueAfterRefund, if_neg hne] at hu
  cases hu
  have hother : ∀ id, id ≠ row.id →
      update w.due row.id (some (call, Due.row)) id = w.due id :=
    fun id hid => update_of_ne hid _ _
  have hnow : update w.due row.id (some (call, Due.row)) row.id = some (call, .row) :=
    update_self ..
  have hothers : ∀ other, other ≠ call → ∀ d,
      update w.due row.id (some (call, Due.row)) row.id = some (other, d) ↔
        w.due row.id = some (other, d) := by
    intro other hother d
    rw [hnow, hmeets.2]
    exact only_mine (fun c d h => by cases h; rfl) (fun c d h => by cases h) hother d
  have hopen := open_of_openTask hold (by rw [← hkin.id]; exact hmeets.1)
  have hbooks := hok.books.of_open hopen fun c => by
    rw [← hkin.id, hmeets.2]
    exact nofun
  have hid := hkin.id
  have hquota := hkin.quota
  rw [hid] at hother hnow hothers ⊢
  obtain ⟨hbehaves, hsane⟩ := behaves_bill (e := .refunded old.id row.quota)
    hidle.1 hold rfl hother hothers (by
      rw [hnow, hbooks.2.1, hbooks.2.2, hquota]
      simp only [Entry.refundOf, Entry.settlementOf, if_true, toList, nil_append]
      exact .prepaid call hopen)
  refine ⟨hbehaves, hsane, hnow, fun id' d' h => ?_⟩
  by_contra hne'
  change update w.due old.id (some (call, Due.row)) id' = _ at h
  rw [hother id' hne'] at h
  exact hidle.2 id' d' h

theorem triple_update {r : PollRound} {P : TaskWorld → Prop}
    (hP : Stable (taskRules (.poll r) call) P)
    (hcase : ∀ w, P w → (row.status ≠ .failure ∧ Idle call w) ∨ Owes call row.id .row w) :
    Triple handleTasks (taskRules (.poll r) call) (fun w => P w ∧ Known row w)
      (updateTask call row) (fun _ w => Idle call w) := by
  refine triple_perform (hP.and stable_known) (fun _ => stable_idle) ?_
  rintro w x u ⟨hp, hknown⟩ hallowed hu
  change allowed (.poll r) (.update call row) w = true at hallowed
  simp only [allowed, and_eq_true, or_eq_true, decide_eq_true_eq, not_eq_true'] at hallowed
  obtain ⟨⟨⟨hmeets, hsuccess⟩, hrecent⟩, hreason⟩ := hallowed
  have hs : Sane w := by
    rcases hcase w hp with ⟨-, hidle⟩ | howes
    · exact hidle.1
    · exact howes.1
  obtain ⟨old, hold, hkin, hok⟩ := hknown.found hs
  have hopen := open_of_openTask hold (by rw [← hkin.id]; exact hmeets)
  have hfind : w.tasks.find? row.id = some old := by
    rw [hkin.id]
    exact hold
  have hbooks := hok.books
  rw [← hkin.id] at hbooks
  cases hu
  rcases hcase w hp with ⟨hfailure, hidle⟩ | howes
  · -- nothing was refunded: the row stays open
    have hnone : w.due row.id = none := hreason.resolve_left hfailure
    have hrow : row.status.terminal = false := by
      cases hstatus : row.status <;> simp_all [TaskStatus.terminal]
    obtain ⟨-, hrefunds, hsettlements⟩ := hbooks.of_open hopen fun c h => by
      rw [hnone] at h
      cases h
    have hne : ¬ w.due row.id = some (call, .row) := fun h => by
      rw [hnone] at h
      cases h
    rw [if_neg hne]
    have htouch : Touches w { w with tasks := w.tasks.save row } old row :=
      ⟨hfind, hkin, hrecent, rfl, fun _ _ => rfl, fun _ _ => rfl, fun _ _ => rfl⟩
    have hsane := htouch.sane hs (by
      rw [hnone, hrefunds, hsettlements]
      exact .running hrow)
    refine ⟨htouch.behaves (fun hterminal => ?_) (fun _ _ _ => Iff.rfl) hsane, hsane, hidle.2⟩
    rw [hopen] at hterminal
    cases hterminal
  · -- the row that is due after the refund is that of a failure
    have hstatus : row.status = .failure := by
      refine hreason.resolve_right fun h => ?_
      rw [howes.2.1] at h
      cases h
    have hother : ∀ id, id ≠ row.id → update w.due row.id none id = w.due id :=
      fun id hid => update_of_ne hid _ _
    have hnow : update w.due row.id none row.id = none := update_self ..
    rw [if_pos howes.2.1]
    have htouch : Touches w { w with
        tasks := w.tasks.save row, due := update w.due row.id none } old row :=
      ⟨hfind, hkin, hrecent, rfl, hother, fun _ _ => rfl, fun _ _ => rfl⟩
    have hsane := htouch.sane hs (by
      change Books _ _ (update w.due row.id none row.id) (refundsOf row.id w.journal)
        (settlementsOf row.id w.journal)
      rw [howes.2.1] at hbooks
      rw [hnow, hkin.quota, hstatus]
      generalize refundsOf row.id w.journal = refunds at hbooks ⊢
      generalize settlementsOf row.id w.journal = settlements at hbooks ⊢
      generalize old.status = status at hbooks
      cases hbooks
      exact .failed)
    refine ⟨htouch.behaves (fun hterminal => ?_) (fun other hne d => ?_) hsane,
      howes.idle hsane hnow hother⟩
    · rw [hopen] at hterminal
      cases hterminal
    · change update w.due row.id none row.id = _ ↔ _
      rw [hnow, howes.2.1]
      exact only_mine (fun c d h => by cases h) (fun c d h => by cases h; rfl) hne d

theorem triple_bulk {ids : List ℤ} {failReason : Option String} :
    TaskTriple kind call (Idle call) (taskBulkUpdateById ids failReason)
      (fun _ w => Idle call w) := by
  by_cases hids : ids = []
  · rw [taskBulkUpdateById, if_pos hids]
    exact triple_pure stable_idle fun _ h => h
  rw [taskBulkUpdateById, if_neg hids]
  refine triple_perform stable_idle (fun _ => stable_idle) ?_
  intro w x u hidle hallowed hu
  have hnone : ∀ id ∈ ids, w.tasks.find? id = none := by
    change allowed kind (.bulkUpdate ids failReason) w = true at hallowed
    cases kind <;> simpa [allowed] using hallowed
  have hsame : w.tasks.modify (Task.bulkFailed ids failReason) (id_bulkFailed ids failReason) =
      w.tasks := by
    apply Table.ext
    refine (map_congr_left fun row hrow => ?_).trans (map_id _)
    refine if_neg fun hid => ?_
    have hfound := find?_of_mem hrow
    rw [hnone row.id hid] at hfound
    cases hfound
  cases hu
  rw [hsame]
  exact ⟨Behaves.refl call w, hidle⟩

end Operations

/-- A failed task has had its charge back once; a finished one was settled once and never
refunded. -/
def BilledOnce (w : TaskWorld) (row : Task) : Prop :=
  (row.status = .failure →
    refundsOf row.id w.journal = [row.quota] ∧ settlementsOf row.id w.journal = []) ∧
  (row.status = .success →
    refundsOf row.id w.journal = [] ∧ (settlementsOf row.id w.journal).length = 1)

instance (w : TaskWorld) (row : Task) : Decidable (BilledOnce w row) :=
  inferInstanceAs (Decidable (_ ∧ _))

theorem RowOk.billedOnce {w : TaskWorld} {row : Task} (h : RowOk w row) (hdue : w.due row.id = none) :
    BilledOnce w row := by
  have hbooks := h.books
  unfold BilledOnce
  rw [hdue] at hbooks
  generalize refundsOf row.id w.journal = refunds at hbooks ⊢
  generalize settlementsOf row.id w.journal = settlements at hbooks ⊢
  generalize row.status = status at hbooks ⊢
  cases hbooks with
  | running hopen =>
    constructor
    · rintro rfl
      cases hopen
    · rintro rfl
      cases hopen
  | failed => exact ⟨fun _ => ⟨rfl, rfl⟩, nofun⟩
  | succeeded delta => exact ⟨nofun, fun _ => ⟨rfl, rfl⟩⟩

end AsyncTaskBooks
