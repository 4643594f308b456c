import TinyToken.ReadCommittedStore

/-! A transactional store whose statements answer and lock rows. A statement is evaluated on
what its transaction sees; it gives an answer and the writes it resolves to, among them
pure locks. It waits while another open transaction holds a conflicting write, and what it
has written or locked stays locked until its transaction ends. So an assertion about a row
stays true for as long as a transaction holds that row. -/
namespace LockingStore

open ProgramSteps List
open ReadCommittedStore (TxId Db)

/-- The table-specific part of a store: statements, the writes they resolve to, and which
writes wait for each other. -/
structure RowEngine (T S W : Type) (B : S → Type) where
  exec : (s : S) → T → Except String (B s × List W)
  apply : W → T → T
  conflicts : W → W → Bool
  symm : ∀ v w, conflicts v w = conflicts w v

inductive RowOp (S : Type) where
  | start (tx : TxId)
  | exec (tx : TxId) (s : S)
  | commit (tx : TxId)
  | rollback (tx : TxId)

variable {T S W : Type} {B : S → Type} {α β : Type}

def RowRes (B : S → Type) : RowOp S → Type
  | .start _ => Except String Unit
  | .exec _ s => Except String (B s)
  | .commit _ => Except String Unit
  | .rollback _ => Unit

abbrev RowProg (S : Type) (B : S → Type) := Prog (RowOp S) (RowRes B)

variable (E : RowEngine T S W B) (tx : TxId)

def start : RowProg S B (Except String Unit) := .op (.start tx) .pure

def exec (s : S) : RowProg S B (Except String (B s)) := .op (.exec tx s) .pure

def commit : RowProg S B (Except String Unit) := .op (.commit tx) .pure

def rollback : RowProg S B Unit := .op (.rollback tx) .pure

/-- The tables after a list of writes. -/
def applyAll (ws : List W) (t : T) : T :=
  ws.foldl (fun t w => E.apply w t) t

/-- What a transaction sees: the committed tables under its own pending writes. -/
def seen (db : Db T W) (tx : TxId) : T :=
  applyAll E (db.own tx) db.committed

def addAll (db : Db T W) (tx : TxId) (ws : List W) : Db T W :=
  { db with pending := db.pending ++ ws.map (tx, ·) }

def publish (db : Db T W) (tx : TxId) : Db T W :=
  ⟨seen E db tx, db.others tx⟩

def blocked (db : Db T W) (tx : TxId) (ws : List W) : Bool :=
  ws.any fun w => (db.others tx).any fun p => E.conflicts w p.2

def handle : Handler (RowOp S) (RowRes B) (Db T W)
  | .start _, db => some (.ok (), db)
  | .exec tx s, db =>
    match E.exec s (seen E db tx) with
    | .error e => some (.error e, db)
    | .ok (b, ws) => if blocked E db tx ws then none else some (.ok b, addAll db tx ws)
  | .commit tx, db => some (.ok (), publish E db tx)
  | .rollback tx, db => some ((), db.discard tx)

/-- Any statement except a rollback may fail; a failing commit discards the writes. -/
def onFault : (o : RowOp S) → Option (String → Db T W → RowRes B o × Db T W)
  | .start _ => some fun e db => (.error e, db)
  | .exec _ _ => some fun e db => (.error e, db)
  | .commit tx => some fun e db => (.error e, db.discard tx)
  | .rollback _ => none

def faultyHandle : Handler (RowOp S) (RowRes B) (Faulty (Db T W) String) :=
  withFaults (handle E) onFault

/-- The end of a transaction: commit on success, rollback on error. -/
def conclude : Except String α → RowProg S B (Except String α)
  | .error e => do
    let _ ← rollback tx
    pure (.error e)
  | .ok a => do
    match ← commit tx with
    | .error e => pure (.error e)
    | .ok _ => pure (.ok a)

def transaction (body : RowProg S B (Except String α)) : RowProg S B (Except String α) := do
  match ← start tx with
  | .error e => pure (.error e)
  | .ok _ => body >>= conclude tx

section Pending

variable {E : RowEngine T S W B} {db : Db T W} {tx t : TxId} {ws : List W}

@[simp] theorem addAll_committed : (addAll db tx ws).committed = db.committed := rfl

@[simp] theorem publish_committed : (publish E db tx).committed = seen E db tx := rfl

@[simp] theorem own_addAll_self : (addAll db tx ws).own tx = db.own tx ++ ws := by
  have hmap : ∀ ws : List W, ((ws.map (tx, ·)).filter fun p => p.1 = tx).map Prod.snd = ws := by
    intro ws
    induction ws with
    | nil => rfl
    | cons w ws ih => simpa using ih
  rw [Db.own, addAll, filter_append, map_append, hmap]
  rfl

theorem own_addAll_of_ne (h : t ≠ tx) : (addAll db tx ws).own t = db.own t := by
  have hmap : ∀ ws : List W, (ws.map (tx, ·)).filter (fun p => p.1 = t) = [] := by
    intro ws
    rw [filter_eq_nil_iff]
    intro p hp
    obtain ⟨w, -, rfl⟩ := mem_map.mp hp
    simpa using fun he : tx = t => h he.symm
  rw [Db.own, addAll, filter_append, hmap, append_nil]
  rfl

theorem own_publish (t : TxId) : (publish E db tx).own t = (db.discard tx).own t := rfl

theorem applyAll_append (v w : List W) (s : T) :
    applyAll E (v ++ w) s = applyAll E w (applyAll E v s) := foldl_append

@[simp] theorem applyAll_nil (s : T) : applyAll E [] s = s := rfl

@[simp] theorem applyAll_cons (w : W) (ws : List W) (s : T) :
    applyAll E (w :: ws) s = applyAll E ws (E.apply w s) := rfl

theorem seen_of_own (h : db.own tx = ws) : seen E db tx = applyAll E ws db.committed := by
  rw [seen, h]

theorem mem_own {w : W} : w ∈ db.own tx ↔ (tx, w) ∈ db.pending := by
  simp only [Db.own, mem_map, mem_filter]
  constructor
  · rintro ⟨p, ⟨hp, htx⟩, rfl⟩
    have htx : p.1 = tx := by simpa using htx
    rwa [← htx]
  · intro h
    exact ⟨(tx, w), ⟨h, by simp⟩, rfl⟩

end Pending

section Locks

variable {E : RowEngine T S W B} {db : Db T W} {tx t : TxId} {ws : List W} {p q : T → Prop}

/-- No two open transactions hold conflicting writes. -/
def Exclusive (E : RowEngine T S W B) (db : Db T W) : Prop :=
  ∀ x ∈ db.pending, ∀ y ∈ db.pending, x.1 ≠ y.1 → E.conflicts x.2 y.2 = false

/-- Writes that wait for none of `ws` keep the assertion. -/
def Guards (E : RowEngine T S W B) (ws : List W) (p : T → Prop) : Prop :=
  ∀ v s, (∀ w ∈ ws, E.conflicts v w = false) → p s → p (E.apply v s)

theorem exclusive_idle (s : T) : Exclusive E (Db.idle s : Db T W) := by
  nofun

theorem Exclusive.discard (h : Exclusive E db) : Exclusive E (db.discard tx) := by
  intro x hx y hy
  exact h x (mem_of_mem_filter hx) y (mem_of_mem_filter hy)

theorem Exclusive.publish (h : Exclusive E db) : Exclusive E (publish E db tx) := by
  intro x hx y hy
  exact h x (mem_of_mem_filter hx) y (mem_of_mem_filter hy)

theorem Exclusive.addAll (h : Exclusive E db) (hfree : blocked E db tx ws = false) :
    Exclusive E (addAll db tx ws) := by
  have hnew : ∀ w ∈ ws, ∀ y ∈ db.pending, y.1 ≠ tx → E.conflicts w y.2 = false := by
    intro w hw y hy hne
    simp only [blocked, any_eq_false] at hfree
    have hothers := hfree w hw
    simp only [any_eq_true, not_exists, not_and, Bool.not_eq_true] at hothers
    exact hothers y (mem_filter.mpr ⟨hy, by simpa using hne⟩)
  intro x hx y hy hne
  rcases mem_append.mp hx with hx | hx
  · rcases mem_append.mp hy with hy | hy
    · exact h x hx y hy hne
    · obtain ⟨w, hw, rfl⟩ := mem_map.mp hy
      rw [E.symm]
      exact hnew w hw x hx hne
  · obtain ⟨w, hw, rfl⟩ := mem_map.mp hx
    rcases mem_append.mp hy with hy | hy
    · exact hnew w hw y hy fun he => hne he.symm
    · obtain ⟨v, -, rfl⟩ := mem_map.mp hy
      exact absurd rfl hne

/-- The statements of one connection leave the writes of the others and, except for a
commit, the committed tables. -/
theorem handle_cases {o : RowOp S} {r : RowRes B o} {db' : Db T W}
    (e : handle E o db = some (r, db')) :
    db' = db ∨ (∃ tx s b ws, o = .exec tx s ∧ E.exec s (seen E db tx) = .ok (b, ws) ∧
        blocked E db tx ws = false ∧ db' = addAll db tx ws) ∨
      (∃ tx, o = .commit tx ∧ db' = publish E db tx) ∨
      (∃ tx, o = .rollback tx ∧ db' = db.discard tx) := by
  cases o with
  | start tx => cases e; exact .inl rfl
  | exec tx s =>
    simp only [handle] at e
    split at e
    · cases e; exact .inl rfl
    next b ws hexec =>
      split at e
      · cases e
      next hfree =>
        cases e
        exact .inr (.inl ⟨tx, s, b, ws, rfl, hexec, by simpa using hfree, rfl⟩)
  | commit tx => cases e; exact .inr (.inr (.inl ⟨tx, rfl, rfl⟩))
  | rollback tx => cases e; exact .inr (.inr (.inr ⟨tx, rfl, rfl⟩))

theorem Exclusive.faultyHandle {o : RowOp S} {r : RowRes B o} {s u : Faulty (Db T W) String}
    (h : Exclusive E s.state) (e : faultyHandle E o s = some (r, u)) : Exclusive E u.state := by
  rcases withFaults_cases e with ⟨fail, x, hf, hr⟩ | hr
  · have hu : u.state = (fail x s.state).2 := congrArg Prod.snd hr
    cases o with
    | start tx | exec tx q => cases hf; rw [hu]; exact h
    | commit tx => cases hf; rw [hu]; exact h.discard
    | rollback tx => cases hf
  · rcases handle_cases hr with hu | ⟨tx, q, b, ws, -, -, hfree, hu⟩ | ⟨tx, -, hu⟩ | ⟨tx, -, hu⟩
    · rw [hu]; exact h
    · rw [hu]; exact h.addAll hfree
    · rw [hu]; exact h.publish
    · rw [hu]; exact h.discard

theorem guards_true : Guards E ws fun _ => True := fun _ _ _ _ => trivial

/-- More locks guard more. -/
theorem Guards.mono (h : Guards E ws p) {vs : List W} (hsub : ws ⊆ vs) : Guards E vs p :=
  fun v s hfree => h v s fun w hw => hfree w (hsub hw)

theorem Guards.and (hp : Guards E ws p) (hq : Guards E ws q) : Guards E ws fun s => p s ∧ q s :=
  fun v s hfree h => ⟨hp v s hfree h.1, hq v s hfree h.2⟩

theorem Guards.applyAll (h : Guards E ws p) {vs : List W}
    (hfree : ∀ v ∈ vs, ∀ w ∈ ws, E.conflicts v w = false) {s : T} (hp : p s) :
    p (applyAll E vs s) := by
  induction vs generalizing s with
  | nil => exact hp
  | cons v vs ih =>
    exact ih (fun u hu => hfree u (mem_cons_of_mem v hu))
      (h v s (hfree v mem_cons_self) hp)

/-- What a transaction has locked survives the commit of any other one. -/
theorem Guards.commit (hg : Guards E (db.own tx) p) (hx : Exclusive E db) (hne : t ≠ tx)
    (hp : p db.committed) : p (seen E db t) := by
  refine hg.applyAll ?_ hp
  intro v hv w hw
  exact hx (t, v) (mem_own.mp hv) (tx, w) (mem_own.mp hw) hne

/-- What nobody can break survives every step. -/
theorem Guards.lasting (hg : Guards E [] p) {o : RowOp S} {r : RowRes B o}
    {s u : Faulty (Db T W) String} (e : faultyHandle E o s = some (r, u))
    (hp : p s.state.committed) : p u.state.committed := by
  rcases withFaults_cases e with ⟨fail, x, hf, hr⟩ | hr
  · have hu : u.state = (fail x s.state).2 := congrArg Prod.snd hr
    cases o with
    | start tx | exec tx q | commit tx => cases hf; rw [hu]; exact hp
    | rollback tx => cases hf
  · rcases handle_cases hr with hu | ⟨tx, q, b, ws, -, -, -, hu⟩ | ⟨tx, -, hu⟩ | ⟨tx, -, hu⟩
    · rw [hu]; exact hp
    · rw [hu]; exact hp
    · rw [hu]
      exact hg.applyAll (fun _ _ w hw => absurd hw (by simp)) hp
    · rw [hu]; exact hp

end Locks

end LockingStore
