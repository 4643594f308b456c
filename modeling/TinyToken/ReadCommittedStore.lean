import TinyToken.ProgramSteps

/-! A transactional store under read committed isolation.
A plain query sees the committed tables and the writes of its own transaction and
takes no lock. A write waits while another open transaction holds a conflicting
write, is refused when a constraint fails, and becomes visible at commit. -/
namespace ReadCommittedStore

open ProgramSteps List Option

abbrev TxId := ℕ

/-- The table-specific part of a store: queries, writes and their constraints. -/
structure Engine (T Q W : Type) (A : Q → Type) where
  answer : (q : Q) → T → A q
  accepts : W → T → Bool
  refusal : String
  apply : W → T → T
  conflicts : W → W → Bool

structure Db (T W : Type) where
  committed : T
  pending : List (TxId × W)

inductive TxOp (Q W : Type) where
  | start (tx : TxId)
  | query (tx : TxId) (q : Q)
  | write (tx : TxId) (w : W)
  | commit (tx : TxId)
  | rollback (tx : TxId)

variable {T Q W : Type} {A : Q → Type} {α : Type}

def TxRes (A : Q → Type) : TxOp Q W → Type
  | .start _ => Except String Unit
  | .query _ q => Except String (A q)
  | .write _ _ => Except String Unit
  | .commit _ => Except String Unit
  | .rollback _ => Unit

abbrev TxProg (Q W : Type) (A : Q → Type) := Prog (TxOp Q W) (TxRes A)

def start (tx : TxId) : TxProg Q W A (Except String Unit) := .op (.start tx) .pure

def query (tx : TxId) (q : Q) : TxProg Q W A (Except String (A q)) := .op (.query tx q) .pure

def write (tx : TxId) (w : W) : TxProg Q W A (Except String Unit) := .op (.write tx w) .pure

def commit (tx : TxId) : TxProg Q W A (Except String Unit) := .op (.commit tx) .pure

def rollback (tx : TxId) : TxProg Q W A Unit := .op (.rollback tx) .pure

namespace Db

def own (db : Db T W) (tx : TxId) : List W :=
  (db.pending.filter fun p => p.1 = tx).map Prod.snd

def others (db : Db T W) (tx : TxId) : List (TxId × W) :=
  db.pending.filter fun p => p.1 ≠ tx

/-- What a transaction sees: the committed tables under its own pending writes. -/
def view (E : Engine T Q W A) (db : Db T W) (tx : TxId) : T :=
  (db.own tx).foldl (fun t w => E.apply w t) db.committed

def blocked (E : Engine T Q W A) (db : Db T W) (tx : TxId) (w : W) : Bool :=
  (db.others tx).any fun p => E.conflicts w p.2

def add (db : Db T W) (tx : TxId) (w : W) : Db T W :=
  { db with pending := db.pending ++ [(tx, w)] }

def discard (db : Db T W) (tx : TxId) : Db T W := { db with pending := db.others tx }

def publish (E : Engine T Q W A) (db : Db T W) (tx : TxId) : Db T W :=
  ⟨db.view E tx, db.others tx⟩

end Db

open Db

def handle (E : Engine T Q W A) : Handler (TxOp Q W) (TxRes A) (Db T W)
  | .start _, db => some (.ok (), db)
  | .query tx q, db => some (.ok (E.answer q (db.view E tx)), db)
  | .write tx w, db =>
    if db.blocked E tx w then none
    else if E.accepts w (db.view E tx) then some (.ok (), db.add tx w)
    else some (.error E.refusal, db)
  | .commit tx, db => some (.ok (), db.publish E tx)
  | .rollback tx, db => some ((), db.discard tx)

/-- Any statement except a rollback may fail; a failing commit discards the writes. -/
def onFault : (o : TxOp Q W) → Option (String → Db T W → TxRes A o × Db T W)
  | .start _ => some fun e db => (.error e, db)
  | .query _ _ => some fun e db => (.error e, db)
  | .write _ _ => some fun e db => (.error e, db)
  | .commit tx => some fun e db => (.error e, db.discard tx)
  | .rollback _ => none

def faultyHandle (E : Engine T Q W A) : Handler (TxOp Q W) (TxRes A) (Faulty (Db T W) String) :=
  withFaults (handle E) onFault

/-- The end of a transaction: commit on success, rollback on error. -/
def conclude (tx : TxId) : Except String α → TxProg Q W A (Except String α)
  | .error e => do
    let _ ← rollback tx
    pure (.error e)
  | .ok a => do
    match ← commit tx with
    | .error e => pure (.error e)
    | .ok _ => pure (.ok a)

def transaction (tx : TxId) (body : TxProg Q W A (Except String α)) :
    TxProg Q W A (Except String α) := do
  match ← start tx with
  | .error e => pure (.error e)
  | .ok _ => body >>= conclude tx

namespace Db

variable {E : Engine T Q W A} {db : Db T W} {tx t : TxId} {w : W}

@[simp] theorem add_committed : (db.add tx w).committed = db.committed := rfl

@[simp] theorem discard_committed : (db.discard tx).committed = db.committed := rfl

@[simp] theorem publish_committed : (db.publish E tx).committed = db.view E tx := rfl

@[simp] theorem own_add_self : (db.add tx w).own tx = db.own tx ++ [w] := by
  simp [own, add]

theorem own_add_of_ne (h : t ≠ tx) : (db.add tx w).own t = db.own t := by
  have h' : ¬ tx = t := fun e => h e.symm
  simp [own, add, h']

@[simp] theorem others_add_self : (db.add tx w).others tx = db.others tx := by
  simp [others, add]

theorem own_discard (t : TxId) : (db.discard tx).own t = if t = tx then [] else db.own t := by
  simp only [own, discard, others, List.filter_filter]
  split
  next h =>
    subst h
    simp
  next h =>
    congr 2
    funext p
    by_cases hp : p.1 = t
    · simp [hp, h]
    · simp [hp]

@[simp] theorem own_discard_self : (db.discard tx).own tx = [] := by
  simp [own_discard]

theorem own_discard_of_ne (h : t ≠ tx) : (db.discard tx).own t = db.own t := by
  simp [own_discard, h]

theorem own_publish (t : TxId) : (db.publish E tx).own t = (db.discard tx).own t := rfl

theorem view_of_own_nil (h : db.own tx = []) : db.view E tx = db.committed := by
  simp [view, h]

theorem view_add : (db.add tx w).view E tx = E.apply w (db.view E tx) := by
  simp [view]

/-- Discarding without writes of one's own changes nothing. -/
theorem discard_of_own_nil (h : db.own tx = []) : db.discard tx = db := by
  obtain ⟨committed, pending⟩ := db
  have hne : ∀ p ∈ pending, p.1 ≠ tx := by
    intro p hp hpt
    have hmem : p.2 ∈ Db.own ⟨committed, pending⟩ tx := by
      simp only [own, List.mem_map, mem_filter]
      exact ⟨p, ⟨hp, by simpa using hpt⟩, rfl⟩
    rw [h] at hmem
    cases hmem
  simp only [discard, others]
  congr 1
  rw [filter_eq_self]
  intro p hp
  simpa using hne p hp

/-- A store in which no transaction has written. -/
def idle (t : T) : Db T W := ⟨t, []⟩

@[simp] theorem idle_committed (t : T) : (idle t : Db T W).committed = t := rfl

@[simp] theorem own_idle (t : T) (tx : TxId) : (idle t : Db T W).own tx = [] := rfl

@[simp] theorem view_idle (t : T) (tx : TxId) : (idle t : Db T W).view E tx = t := rfl

@[simp] theorem blocked_idle (t : T) (tx : TxId) (w : W) :
    (idle t : Db T W).blocked E tx w = false := rfl

theorem discard_add_idle (t : T) (tx : TxId) (w : W) :
    ((idle t : Db T W).add tx w).discard tx = idle t := by
  simp [discard, others, add, idle]

theorem publish_add_idle (t : T) (tx : TxId) (w : W) :
    ((idle t : Db T W).add tx w).publish E tx = idle (E.apply w t) := by
  simp [publish, view, own, others, add, idle]

end Db

section Alone

variable {E : Engine T Q W A} {tx : TxId} {body : TxProg Q W A (Except String α)}

/-- What the end of a transaction makes of the store its body leaves. -/
def finish (E : Engine T Q W A) (tx : TxId) : Except String α → Db T W → Db T W
  | .error _, db => db.discard tx
  | .ok _, db => db.publish E tx

theorem run_transaction (db : Db T W) : run (handle E) (transaction tx body) db =
      (run (handle E) body db).map fun p => (p.1, finish E tx p.1 p.2) := by
  change run (handle E) (body >>= conclude tx) db = _
  rw [run_bind]
  cases run (handle E) body db with
  | none => rfl
  | some p =>
    obtain ⟨r, db'⟩ := p
    cases r <;> rfl

/-- What must hold where a body ends, for `P` to hold where its transaction ends. -/
def AtEnd (E : Engine T Q W A) (tx : TxId) (P : Except String α → Faulty (Db T W) String → Prop) :
    Except String α → Faulty (Db T W) String → Prop
  | .error e, u => P (.error e) ⟨u.state.discard tx, u.faults⟩
  | .ok a, u => (∀ e, u.next = some e → P (.error e) (u.after (u.state.discard tx))) ∧
      (u.next = none → P (.ok a) (u.after (u.state.publish E tx)))

/-- A transaction under faults: the begin may fail, the body may fail, the commit may
fail, and only a commit that passes publishes. -/
theorem wp_transaction {P : Except String α → Faulty (Db T W) String → Prop}
    {s : Faulty (Db T W) String} (hbegin : ∀ e, s.next = some e → P (.error e) (s.after s.state))
    (hbody : s.next = none → wp (faultyHandle E) body (AtEnd E tx P) (s.after s.state)) :
    wp (faultyHandle E) (transaction tx body) P s := by
  refine wp_fallible rfl ?_ ?_
  · intro e hn
    exact wp_pure.mpr (hbegin e hn)
  · intro hn r t hr
    cases hr
    change wp (faultyHandle E) (body >>= conclude tx) P _
    refine wp_bind.mpr (wp_mono (hbody hn) ?_)
    intro r u hu
    cases r with
    | error e =>
      refine wp_infallible rfl ?_
      intro r t hr
      cases hr
      exact wp_pure.mpr hu
    | ok a =>
      refine wp_fallible rfl ?_ ?_
      · intro e he
        exact wp_pure.mpr (hu.1 e he)
      · intro he r t hr
        cases hr
        exact wp_pure.mpr (hu.2 he)

end Alone

def Inside (tx : TxId) : TxOp Q W → Prop
  | .query t _ => t = tx
  | .write t _ => t = tx
  | _ => False

/-- The program only queries and writes, on the connection given. -/
def Within (tx : TxId) : TxProg Q W A α → Prop
  | .pure _ => True
  | .op o k => Inside tx o ∧ ∀ r, Within tx (k r)
  | .diverge => True

section Bodies

variable {β : Type} {E : Engine T Q W A} {tx : TxId}

@[simp] theorem within_query (q : Q) : Within tx (query tx q : TxProg Q W A _) :=
  ⟨rfl, fun _ => trivial⟩

@[simp] theorem within_write (w : W) : Within tx (write tx w : TxProg Q W A _) :=
  ⟨rfl, fun _ => trivial⟩

theorem Within.bind {p : TxProg Q W A α} {f : α → TxProg Q W A β} (hp : Within tx p)
    (hf : ∀ a, Within tx (f a)) : Within tx (p >>= f) := by
  induction p with
  | pure a => exact hf a
  | op o k ih => exact ⟨hp.1, fun r => ih r (hp.2 r)⟩
  | diverge => trivial

/-- A statement of a body touches neither the committed tables nor the writes of others. -/
theorem handle_inside {o : TxOp Q W} {db db' : Db T W} {r : TxRes A o} (ho : Inside tx o)
    (e : handle E o db = some (r, db')) : db' = db ∨ ∃ w, o = .write tx w ∧ db' = db.add tx w := by
  cases o with
  | query t q => cases e; exact .inl rfl
  | write t w =>
    cases ho
    simp only [handle] at e
    split at e
    · cases e
    · split at e
      · cases e; exact .inr ⟨w, rfl, rfl⟩
      · cases e; exact .inl rfl
  | start t | commit t | rollback t => exact absurd ho id

theorem faultyHandle_inside {o : TxOp Q W} {s u : Faulty (Db T W) String} {r : TxRes A o}
    (ho : Inside tx o) (e : faultyHandle E o s = some (r, u)) :
    u.state.committed = s.state.committed ∧ u.state.others tx = s.state.others tx := by
  rcases withFaults_cases e with ⟨fail, x, hf, hr⟩ | hr
  · have hu : u.state = (fail x s.state).2 := congrArg Prod.snd hr
    cases o with
    | query t q | write t w => cases hf; rw [hu]; exact ⟨rfl, rfl⟩
    | start t | commit t | rollback t => exact absurd ho id
  · rcases handle_inside ho hr with h | ⟨w, -, h⟩
    · rw [h]; exact ⟨rfl, rfl⟩
    · rw [h]; exact ⟨add_committed, others_add_self⟩

theorem Within.frame {p : TxProg Q W A α} (hp : Within tx p) (s : Faulty (Db T W) String) :
    wp (faultyHandle E) p (fun _ u => u.state.committed = s.state.committed ∧
      u.state.others tx = s.state.others tx) s := by
  induction p generalizing s with
  | pure a => exact wp_pure.mpr ⟨rfl, rfl⟩
  | op o k ih =>
    rw [wp_op]
    intro r u e
    obtain ⟨hc, ho⟩ := faultyHandle_inside hp.1 e
    refine wp_mono (ih r (hp.2 r) u) ?_
    intro _ v hv
    exact ⟨hv.1.trans hc, hv.2.trans ho⟩
  | diverge => exact wp_diverge

variable {body : TxProg Q W A (Except String α)}

/-- A transaction that returns an error has left the store as it was, whatever failed. -/
theorem transaction_error_unchanged
    (hb : Within tx body) {s : Faulty (Db T W) String} (hs : s.state.own tx = []) :
    wp (faultyHandle E) (transaction tx body)
      (fun r u => ∀ e, r = .error e → u.state = s.state) s := by
  -- dropping the writes of the body restores the store the transaction began in
  have undo : ∀ u : Faulty (Db T W) String, u.state.committed = s.state.committed ∧
      u.state.others tx = s.state.others tx → u.state.discard tx = s.state := by
    intro u hu
    rw [← discard_of_own_nil hs]
    simp only [Db.discard, hu.1, hu.2]
  refine wp_transaction (fun _ _ _ _ => rfl) ?_
  intro _
  refine wp_mono (hb.frame _) ?_
  intro r u hu
  cases r with
  | error e => exact fun _ _ => undo u hu
  | ok a => exact ⟨fun _ _ _ _ => undo u hu, nofun⟩

/-- A transaction that starts on an idle store leaves an idle store. -/
theorem transaction_idle (hb : Within tx body) {t : T}
    {s : Faulty (Db T W) String} (hs : s.state = idle t) :
    wp (faultyHandle E) (transaction tx body) (fun _ u => ∃ t', u.state = idle t') s := by
  have hothers : s.state.others tx = [] := by
    rw [hs]
    rfl
  refine wp_transaction (fun _ _ => ⟨t, hs⟩) ?_
  intro _
  refine wp_mono (hb.frame _) ?_
  intro r u hu
  have hpending : u.state.others tx = [] := hu.2.trans hothers
  cases r with
  | error e => exact ⟨u.state.committed, by simp [Db.discard, hpending, idle]⟩
  | ok a =>
    refine ⟨fun _ _ => ⟨u.state.committed, ?_⟩, fun _ => ⟨u.state.view E tx, ?_⟩⟩
    · simp [Db.discard, hpending, idle]
    · simp [Db.publish, hpending, idle]

/-- Queries and writes straight on the tables. -/
def direct (E : Engine T Q W A) : Handler (TxOp Q W) (TxRes A) T
  | .start _, t => some (.ok (), t)
  | .query _ q, t => some (.ok (E.answer q t), t)
  | .write _ w, t =>
    if E.accepts w t then some (.ok (), E.apply w t) else some (.error E.refusal, t)
  | .commit _, t => some (.ok (), t)
  | .rollback _, t => some ((), t)

/-- The tables a transaction leaves, from those its body leaves. -/
def settled (r : Except String α) (t t' : T) : T :=
  match r with
  | .error _ => t
  | .ok _ => t'

theorem run_within {p : TxProg Q W A α} (hp : Within tx p) {db : Db T W} (hdb : db.others tx = []) :
    (run (handle E) p db).map (fun q => (q.1, q.2.view E tx)) =
      run (direct E) p (db.view E tx) := by
  induction p generalizing db with
  | pure a | diverge => rfl
  | op o k ih =>
    cases o with
    | query t q =>
      cases hp.1
      exact ih _ (hp.2 _) hdb
    | write t w =>
      cases hp.1
      have hfree : db.blocked E tx w = false := by simp [blocked, hdb]
      simp only [run_op, handle, direct, hfree, Bool.false_eq_true, if_false]
      split
      · rw [bind_some, bind_some, ← view_add]
        exact ih _ (hp.2 _) (others_add_self.trans hdb)
      · rw [bind_some, bind_some]
        exact ih _ (hp.2 _) hdb
    | start t => exact hp.1.elim
    | commit t => exact hp.1.elim
    | rollback t => exact hp.1.elim

theorem run_transaction_idle (hb : Within tx body) (t : T) :
    run (handle E) (transaction tx body) (idle t) =
      (run (direct E) body t).map fun q => (q.1, idle (settled q.1 t q.2)) := by
  have hview := run_within (E := E) hb (show (idle t : Db T W).others tx = [] from rfl)
  have hframe := hb.frame (E := E) ⟨idle t, []⟩
  have hfaulty := run_withFaults_nil (handle E) onFault body (idle t)
  rw [run_transaction]
  rw [view_idle] at hview
  rw [← hview]
  cases hrun : run (handle E) body (idle t) with
  | none => rfl
  | some q =>
    obtain ⟨r, db⟩ := q
    rw [hrun] at hfaulty
    obtain ⟨hcommitted, hothers⟩ := hframe r ⟨db, []⟩ hfaulty
    have hcommitted : db.committed = t := hcommitted
    have hothers : db.others tx = [] := hothers
    simp only [map_some, some.injEq, Prod.mk.injEq, true_and]
    cases r with
    | error e => simp [finish, settled, Db.discard, idle, hcommitted, hothers]
    | ok a => simp [finish, settled, Db.publish, idle, hothers]

/-- A transaction alone either fails and leaves the tables, or does what its body does. -/
theorem transaction_alone (hb : Within tx body)
    {t : T} {P : α → T → Prop} (hw : wp (direct E) body (fun r t' => ∀ a, r = .ok a → P a t') t)
    {r : Except String α} {db : Db T W}
    (h : run (handle E) (transaction tx body) (idle t) = some (r, db)) :
    (∃ e, r = .error e ∧ db = idle t) ∨ ∃ a t', r = .ok a ∧ db = idle t' ∧ P a t' := by
  rw [run_transaction_idle hb] at h
  obtain ⟨⟨r', t'⟩, hrun, he⟩ := map_eq_some_iff.mp h
  cases he
  cases r' with
  | error e => exact .inl ⟨e, rfl, rfl⟩
  | ok a => exact .inr ⟨a, t', rfl, rfl, hw (.ok a) t' hrun a rfl⟩

theorem wp_direct_query {q : Q} {k : Except String (A q) → TxProg Q W A β} {P : β → T → Prop}
    {t : T} (h : wp (direct E) (k (.ok (E.answer q t))) P t) :
    wp (direct E) (query tx q >>= k) P t := by
  refine wp_op.mpr ?_
  intro r t' he
  cases he
  exact h

theorem wp_direct_write {w : W} {k : Except String Unit → TxProg Q W A β} {P : β → T → Prop}
    {t : T} (hok : E.accepts w t = true → wp (direct E) (k (.ok ())) P (E.apply w t))
    (hrefused : E.accepts w t = false → wp (direct E) (k (.error E.refusal)) P t) :
    wp (direct E) (write tx w >>= k) P t := by
  refine wp_op.mpr ?_
  intro r t' he
  simp only [direct] at he
  split at he
  · rename_i h
    cases he
    exact hok h
  · rename_i h
    cases he
    exact hrefused (by simpa using h)

end Bodies

end ReadCommittedStore
