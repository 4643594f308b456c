import TinyToken.SubscriptionGroups

/-! The group of one user over any history of purchases, expiries, invalidations and
deletions. The standing of the user says how the group follows from the rows; each kind of
event keeps it, provided that an upgrade is bought only while no other one is in force. -/
namespace SubscriptionGroupHistory

open GoText ProgramSteps ReadCommittedStore Db KeyedTable SubscriptionRows SubscriptionGroups
  List Option Table

def Upgrade (uid : ℤ) (s : UserSubscription) : Prop := s.userId = uid ∧ s.upgradeGroup ≠ ""

def InForce (uid : ℤ) (s : UserSubscription) : Prop := Upgrade uid s ∧ s.status = .active

instance (uid : ℤ) (s : UserSubscription) : Decidable (InForce uid s) :=
  inferInstanceAs (Decidable ((_ ∧ _) ∧ _))

/-- How the group of the user follows from the subscriptions; `g₀` is the original one. -/
structure Standing (uid : ℤ) (g₀ : String) (now : ℤ) (rows : List UserSubscription)
    (group : String) : Prop where
  snapshot : ∀ s ∈ rows, Upgrade uid s → trimSpace s.upgradeGroup = s.upgradeGroup ∧
    s.prevUserGroup = if s.upgradeGroup = g₀ then "" else g₀
  single : ∀ a ∈ rows, ∀ b ∈ rows, InForce uid a → InForce uid b → a.id = b.id
  free : (∀ s ∈ rows, ¬ InForce uid s) → group = g₀
  held : ∀ b ∈ rows, InForce uid b → 0 < b.endTime ∧
    (group = b.upgradeGroup ∨ b.endTime ≤ now ∧ group = g₀)
  past : ∀ s ∈ rows, Upgrade uid s → s.status = .expired → s.endTime ≤ now
  older : ∀ s ∈ rows, Upgrade uid s → s.status = .expired → ∀ b ∈ rows, InForce uid b →
    s.endTime < b.endTime

section Standing

variable {uid now now' : ℤ} {g₀ group group' : String} {rows rows' : List UserSubscription}

section

variable (h : Standing uid g₀ now rows group)
include h

theorem Standing.later (hle : now ≤ now') :
    Standing uid g₀ now' rows group where
  snapshot := h.snapshot
  single := h.single
  free := h.free
  held := by
    intro b hb hf
    obtain ⟨hpos, hgroup | ⟨hend, hgroup⟩⟩ := h.held b hb hf
    · exact ⟨hpos, .inl hgroup⟩
    · exact ⟨hpos, .inr ⟨by omega, hgroup⟩⟩
  past := by
    intro s hs hu he
    have := h.past s hs hu he
    omega
  older := h.older

theorem Standing.of_same_upgrades (hsame : ∀ s, Upgrade uid s → (s ∈ rows' ↔ s ∈ rows)) :
    Standing uid g₀ now rows' group where
  snapshot := fun s hs hu => h.snapshot s ((hsame s hu).mp hs) hu
  single := fun a ha b hb hfa hfb =>
    h.single a ((hsame a hfa.1).mp ha) b ((hsame b hfb.1).mp hb) hfa hfb
  free := fun hnone => h.free fun s hs hf => hnone s ((hsame s hf.1).mpr hs) hf
  held := fun b hb hf => h.held b ((hsame b hf.1).mp hb) hf
  past := fun s hs hu he => h.past s ((hsame s hu).mp hs) hu he
  older := fun s hs hu he b hb hf =>
    h.older s ((hsame s hu).mp hs) hu he b ((hsame b hf.1).mp hb) hf

theorem Standing.bought (hnow : 0 ≤ now) (hfree : ∀ s ∈ rows, ¬ InForce uid s)
    {b : UserSubscription} (hb : Upgrade uid b) (htrim : trimSpace b.upgradeGroup = b.upgradeGroup)
    (hprev : b.prevUserGroup = if b.upgradeGroup = g₀ then "" else g₀)
    (hstatus : b.status = .active) (hend : now < b.endTime) :
    Standing uid g₀ now (rows ++ [b]) b.upgradeGroup := by
  have inforce : ∀ s ∈ rows ++ [b], InForce uid s → s = b := by
    intro s hs hf
    rcases mem_append.mp hs with hs | hs
    · exact absurd hf (hfree s hs)
    · exact mem_singleton.mp hs
  have earlier : ∀ s ∈ rows ++ [b], s.status = .expired → s ∈ rows := by
    intro s hs he
    rcases mem_append.mp hs with hs | hs
    · exact hs
    · rw [mem_singleton.mp hs, hstatus] at he
      cases he
  refine ⟨?_, ?_, ?_, ?_, ?_, ?_⟩
  · intro s hs hu
    rcases mem_append.mp hs with hs | hs
    · exact h.snapshot s hs hu
    · rw [mem_singleton.mp hs]
      exact ⟨htrim, hprev⟩
  · intro a ha c hc hfa hfc
    rw [inforce a ha hfa, inforce c hc hfc]
  · intro hnone
    exact absurd ⟨hb, hstatus⟩ (hnone b (by simp))
  · intro s hs hf
    rw [inforce s hs hf]
    exact ⟨by omega, .inl rfl⟩
  · intro s hs hu he
    exact h.past s (earlier s hs he) hu he
  · intro s hs hu he c hc hf
    have := h.past s (earlier s hs he) hu he
    rw [inforce c hc hf]
    omega

/-- One subscription ends by an administrator: the group either stays, for one of three
reasons, or goes back to the original one. -/
theorem Standing.ended (hkey : ∀ a ∈ rows, ∀ b ∈ rows, a.id = b.id → a = b) {sub : UserSubscription}
    (hsub : sub ∈ rows) (hother : ∀ s, s.id ≠ sub.id → (s ∈ rows' ↔ s ∈ rows))
    (hself : ∀ s ∈ rows', s.id = sub.id → s.status = .cancelled ∧ s.userId = sub.userId ∧
      s.upgradeGroup = sub.upgradeGroup ∧ s.prevUserGroup = sub.prevUserGroup)
    (hgroup : (group' = group ∧ (¬ Upgrade uid sub ∨ group ≠ sub.upgradeGroup ∨
        ∃ b ∈ rows, b.id ≠ sub.id ∧ InForce uid b ∧ now < b.endTime)) ∨
      (group' = g₀ ∧ ∀ b ∈ rows, b.id ≠ sub.id → InForce uid b → b.endTime ≤ now)) :
    Standing uid g₀ now rows' group' := by
  have inforce : ∀ s ∈ rows', InForce uid s → s ∈ rows ∧ s.id ≠ sub.id := by
    intro s hs hf
    by_cases hid : s.id = sub.id
    · have := hf.2
      rw [(hself s hs hid).1] at this
      cases this
    · exact ⟨(hother s hid).mp hs, hid⟩
  have expired : ∀ s ∈ rows', s.status = .expired → s ∈ rows := by
    intro s hs he
    by_cases hid : s.id = sub.id
    · rw [(hself s hs hid).1] at he
      cases he
    · exact (hother s hid).mp hs
  refine ⟨?_, ?_, ?_, ?_, ?_, ?_⟩
  · intro s hs hu
    by_cases hid : s.id = sub.id
    · obtain ⟨-, huser, hup, hprev⟩ := hself s hs hid
      rw [hup, hprev]
      exact h.snapshot sub hsub ⟨huser ▸ hu.1, hup ▸ hu.2⟩
    · exact h.snapshot s ((hother s hid).mp hs) hu
  · intro a ha b hb hfa hfb
    exact h.single a (inforce a ha hfa).1 b (inforce b hb hfb).1 hfa hfb
  · intro hnone
    rcases hgroup with ⟨hg, hwhy⟩ | ⟨hg, -⟩
    · have only : ∀ s ∈ rows, InForce uid s → s = sub := by
        intro s hs hf
        apply hkey s hs sub hsub
        by_contra hid
        exact hnone s ((hother s hid).mpr hs) hf
      rw [hg]
      by_cases hf : InForce uid sub
      · rcases hwhy with hnot | hne | ⟨b, hb, hid, hfb, -⟩
        · exact absurd hf.1 hnot
        · exact ((h.held sub hsub hf).2.resolve_left hne).2
        · exact absurd (congrArg UserSubscription.id (only b hb hfb)) hid
      · apply h.free
        intro s hs hfs
        exact hf (only s hs hfs ▸ hfs)
    · exact hg
  · intro b hb hf
    obtain ⟨hrow, hid⟩ := inforce b hb hf
    obtain ⟨hpos, hold⟩ := h.held b hrow hf
    rcases hgroup with ⟨hg, -⟩ | ⟨hg, hdue⟩
    · rw [hg]
      exact ⟨hpos, hold⟩
    · exact ⟨hpos, .inr ⟨hdue b hrow hid hf, hg⟩⟩
  · intro s hs hu he
    exact h.past s (expired s hs he) hu he
  · intro s hs hu he b hb hf
    exact h.older s (expired s hs he) hu he b (inforce b hb hf).1 hf

end

/-! Marking the due rows -/

variable {s : UserSubscription}

theorem isDue_iff : isDue now s = true ↔ s.status = .active ∧ 0 < s.endTime ∧ s.endTime ≤ now := by
  simp [isDue, and_assoc]

theorem expireRow_fields (userId now : ℤ) (s : UserSubscription) :
    (expireRow userId now s).userId = s.userId ∧
    (expireRow userId now s).upgradeGroup = s.upgradeGroup ∧
    (expireRow userId now s).prevUserGroup = s.prevUserGroup ∧
    (expireRow userId now s).endTime = s.endTime := by
  unfold expireRow
  split <;> exact ⟨rfl, rfl, rfl, rfl⟩

theorem upgrade_expireRow {userId : ℤ} : Upgrade uid (expireRow userId now s) ↔ Upgrade uid s := by
  obtain ⟨huser, hup, -, -⟩ := expireRow_fields userId now s
  rw [Upgrade, Upgrade, huser, hup]

theorem inForce_expireRow (hpos : InForce uid s → 0 < s.endTime)
    (h : InForce uid (expireRow uid now s)) :
    expireRow uid now s = s ∧ InForce uid s ∧ now < s.endTime := by
  unfold expireRow at h ⊢
  split at h
  · cases h.2
  next hdue =>
    rw [if_neg hdue]
    refine ⟨rfl, h, ?_⟩
    by_contra hle
    exact hdue ⟨h.1.1, isDue_iff.mpr ⟨h.2, hpos h, by omega⟩⟩

theorem expired_expireRow (h : (expireRow uid now s).status = .expired) :
    s.status = .expired ∨ (s.status = .active ∧ s.endTime ≤ now) := by
  unfold expireRow at h
  split at h
  next hdue =>
    obtain ⟨hactive, -, hend⟩ := isDue_iff.mp hdue.2
    exact .inr ⟨hactive, hend⟩
  · exact .inl h

theorem Standing.lapsed (h : Standing uid g₀ now rows group)
    (hkey : ∀ a ∈ rows, ∀ b ∈ rows, a.id = b.id → a = b)
    (hgroup : (group' = group ∧ ∃ b ∈ rows, InForce uid b ∧ now < b.endTime) ∨
      (group' = g₀ ∧ ∀ b ∈ rows, InForce uid b → b.endTime ≤ now)) :
    Standing uid g₀ now (rows.map (expireRow uid now)) group' := by
  have inforce : ∀ s ∈ rows.map (expireRow uid now), InForce uid s →
      s ∈ rows ∧ now < s.endTime := by
    intro s hs hf
    obtain ⟨r, hr, rfl⟩ := mem_map.mp hs
    obtain ⟨hsame, -, hend⟩ := inForce_expireRow (fun hfr => (h.held r hr hfr).1) hf
    rw [hsame]
    exact ⟨hr, hend⟩
  refine ⟨?_, ?_, ?_, ?_, ?_, ?_⟩
  · intro s hs hu
    obtain ⟨r, hr, rfl⟩ := mem_map.mp hs
    obtain ⟨-, hup, hprev, -⟩ := expireRow_fields uid now r
    rw [hup, hprev]
    exact h.snapshot r hr (upgrade_expireRow.mp hu)
  · intro a ha b hb hfa hfb
    exact h.single a (inforce a ha hfa).1 b (inforce b hb hfb).1 hfa hfb
  · intro hnone
    rcases hgroup with ⟨-, b, hb, hf, hend⟩ | ⟨hg, -⟩
    · have hkept : expireRow uid now b = b := by
        unfold expireRow
        rw [if_neg]
        rintro ⟨-, hdue⟩
        have := (isDue_iff.mp hdue).2.2
        omega
      exact absurd hf (hnone b (mem_map.mpr ⟨b, hb, hkept⟩))
    · exact hg
  · intro b hb hf
    obtain ⟨hrow, hend⟩ := inforce b hb hf
    rcases hgroup with ⟨hg, -⟩ | ⟨-, hdue⟩
    · rw [hg]
      exact h.held b hrow hf
    · have := hdue b hrow hf
      omega
  · intro s hs hu he
    obtain ⟨r, hr, rfl⟩ := mem_map.mp hs
    rw [(expireRow_fields uid now r).2.2.2]
    rcases expired_expireRow he with hold | ⟨-, hend⟩
    · exact h.past r hr (upgrade_expireRow.mp hu) hold
    · exact hend
  · intro s hs hu he b hb hf
    obtain ⟨hrow, hend⟩ := inforce b hb hf
    obtain ⟨r, hr, rfl⟩ := mem_map.mp hs
    rw [(expireRow_fields uid now r).2.2.2]
    rcases expired_expireRow he with hold | ⟨hactive, hdue⟩
    · exact h.older r hr (upgrade_expireRow.mp hu) hold b hrow hf
    · -- two upgrades in force are one, and this one was due
      have hid := h.single r hr b hrow ⟨upgrade_expireRow.mp hu, hactive⟩ hf
      rw [hkey r hr b hrow hid] at hdue
      omega

end Standing

section Queries

variable {uid now : ℤ} {t : Tables}

variable {s : UserSubscription}

theorem isActiveUpgrade_iff {apart : Option ℤ} : isActiveUpgrade uid now apart s = true ↔
      InForce uid s ∧ now < s.endTime ∧ apart ≠ some s.id := by
  simp only [isActiveUpgrade, isActive, InForce, Upgrade, Bool.and_eq_true, decide_eq_true_eq]
  constructor
  · rintro ⟨⟨⟨⟨huser, hstatus⟩, hend⟩, hapart⟩, hup⟩
    exact ⟨⟨⟨huser, hup⟩, hstatus⟩, hend, hapart⟩
  · rintro ⟨⟨⟨huser, hup⟩, hstatus⟩, hend, hapart⟩
    exact ⟨⟨⟨⟨huser, hstatus⟩, hend⟩, hapart⟩, hup⟩

theorem activeUpgrade_some {apart : Option ℤ} {b : UserSubscription}
    (h : activeUpgrade t uid now apart = some b) :
    b ∈ t.subs.rows ∧ InForce uid b ∧ now < b.endTime ∧ apart ≠ some b.id := by
  have hmem := mem_of_head? h
  rw [mem_insertionSort, mem_filter] at hmem
  exact ⟨hmem.1, isActiveUpgrade_iff.mp hmem.2⟩

theorem activeUpgrade_none {apart : Option ℤ} (h : activeUpgrade t uid now apart = none)
    {b : UserSubscription} (hb : b ∈ t.subs.rows) (hf : InForce uid b)
    (hapart : apart ≠ some b.id) : b.endTime ≤ now := by
  have hnil := head?_eq_none_iff.mp h
  by_contra hend
  have hmem : b ∈ (t.subs.rows.filter (isActiveUpgrade uid now apart)).insertionSort dueLast := by
    rw [mem_insertionSort, mem_filter]
    exact ⟨hb, isActiveUpgrade_iff.mpr ⟨hf, by omega, hapart⟩⟩
  rw [hnil] at hmem
  cases hmem

theorem isExpiredUpgrade_iff :
    isExpiredUpgrade uid s = true ↔ Upgrade uid s ∧ s.status = .expired := by
  simp only [isExpiredUpgrade, Upgrade, Bool.and_eq_true, decide_eq_true_eq]
  constructor
  · rintro ⟨⟨huser, hstatus⟩, hup⟩
    exact ⟨⟨huser, hup⟩, hstatus⟩
  · rintro ⟨⟨huser, hup⟩, hstatus⟩
    exact ⟨⟨huser, hstatus⟩, hup⟩

instance : Std.Total dueLast where
  total a b := by
    unfold dueLast dueFirst
    omega

instance : IsTrans UserSubscription dueLast where
  trans a b c hab hbc := by
    unfold dueLast dueFirst at *
    omega

theorem lastExpired_some {x : UserSubscription} (h : lastExpired t uid = some x) :
    x ∈ t.subs.rows ∧ Upgrade uid x ∧ x.status = .expired ∧
      ∀ s ∈ t.subs.rows, Upgrade uid s → s.status = .expired → s.endTime ≤ x.endTime := by
  have hmem := mem_of_head? h
  rw [mem_insertionSort, mem_filter] at hmem
  obtain ⟨hx, hexpired⟩ := isExpiredUpgrade_iff.mp hmem.2
  refine ⟨hmem.1, hx, hexpired, ?_⟩
  intro s hs hu he
  have hsorted := pairwise_insertionSort dueLast
    (t.subs.rows.filter (isExpiredUpgrade uid))
  have hin : s ∈ (t.subs.rows.filter (isExpiredUpgrade uid)).insertionSort dueLast := by
    rw [mem_insertionSort, mem_filter]
    exact ⟨hs, isExpiredUpgrade_iff.mpr ⟨hu, he⟩⟩
  obtain ⟨rest, hlist⟩ := head?_eq_some_iff.mp h
  rw [hlist] at hsorted hin
  rcases mem_cons.mp hin with rfl | hin
  · exact le_rfl
  · have hrel := rel_of_pairwise_cons hsorted hin
    unfold dueLast dueFirst at hrel
    omega

theorem lastExpired_none (h : lastExpired t uid = none)
    (hs : s ∈ t.subs.rows) (hu : Upgrade uid s) : s.status ≠ .expired := by
  have hnil := head?_eq_none_iff.mp h
  intro he
  have hmem : s ∈ (t.subs.rows.filter (isExpiredUpgrade uid)).insertionSort dueLast := by
    rw [mem_insertionSort, mem_filter]
    exact ⟨hs, isExpiredUpgrade_iff.mpr ⟨hu, he⟩⟩
  rw [hnil] at hmem
  cases hmem

@[simp] theorem regrouped_subs (t : Tables) (userId : ℤ) (group : String) :
    (regrouped t userId group).subs = t.subs := by
  unfold regrouped
  split <;> rfl

theorem find?_regrouped (t : Tables) (userId uid : ℤ) (group : String) :
    (regrouped t userId group).users.find? uid =
      if group = "" then t.users.find? uid else (t.users.find? uid).map (regroup userId group) := by
  unfold regrouped
  split
  · rfl
  · exact find?_modify _ _ (regroup_id userId group) _

theorem groupOf_regrouped_self (hknown : (t.users.find? uid).isSome) (group : String) :
    groupOf (regrouped t uid group) uid = if group = "" then groupOf t uid else group := by
  obtain ⟨user, huser⟩ := isSome_iff_exists.mp hknown
  have hid : user.id = uid := find?_some_key huser
  simp only [groupOf, answer, find?_regrouped, huser]
  split
  · rfl
  · simp [regroup, hid]

theorem groupOf_regrouped_of_ne {userId : ℤ} (h : uid ≠ userId) (group : String) :
    groupOf (regrouped t userId group) uid = groupOf t uid := by
  simp only [groupOf, answer, find?_regrouped]
  split
  · rfl
  · cases huser : t.users.find? uid with
    | none => rfl
    | some user =>
      have hid : user.id = uid := find?_some_key huser
      have hne : ¬ user.id = userId := fun e => h (hid.symm.trans e)
      simp [regroup, hne]

theorem known_regrouped (userId : ℤ) (group : String) :
    ((regrouped t userId group).users.find? uid).isSome = (t.users.find? uid).isSome := by
  rw [find?_regrouped]
  split
  · rfl
  · exact isSome_map

end Queries

structure Invariant (uid : ℤ) (g₀ : String) (now : ℤ) (t : Tables) : Prop where
  known : (t.users.find? uid).isSome
  standing : Standing uid g₀ now t.subs.rows (groupOf t uid)

structure Restorable (g₀ : String) : Prop where
  filled : g₀ ≠ ""
  trimmed : trimSpace g₀ = g₀

section Moves

variable {uid now : ℤ} {g₀ : String} {t t₁ : Tables}

theorem unique_rows (t : Tables) : ∀ a ∈ t.subs.rows, ∀ b ∈ t.subs.rows, a.id = b.id → a = b :=
  fun _ ha _ hb h => eq_of_mem_key ha hb h

variable {sub : UserSubscription}

theorem fallback_cases (hg₀ : Restorable g₀) (hinv : Invariant uid g₀ now t) (hsub : sub ∈ t.subs.rows)
    (hknown : (t₁.users.find? uid).isSome) (hgroup : groupOf t₁ uid = groupOf t uid)
    (hother : ∀ s, s.id ≠ sub.id → (s ∈ t₁.subs.rows ↔ s ∈ t.subs.rows)) :
    (groupOf (regrouped t₁ sub.userId (fallback t₁ sub now)) uid = groupOf t uid ∧
      (¬ Upgrade uid sub ∨ groupOf t uid ≠ sub.upgradeGroup ∨
        ∃ b ∈ t.subs.rows, b.id ≠ sub.id ∧ InForce uid b ∧ now < b.endTime)) ∨
    (groupOf (regrouped t₁ sub.userId (fallback t₁ sub now)) uid = g₀ ∧
      ∀ b ∈ t.subs.rows, b.id ≠ sub.id → InForce uid b → b.endTime ≤ now) := by
  by_cases huser : sub.userId = uid
  · rw [huser, groupOf_regrouped_self hknown, hgroup]
    by_cases hu : Upgrade uid sub
    · obtain ⟨htrim, hprev⟩ := hinv.standing.snapshot sub hsub hu
      unfold fallback
      rw [htrim, if_neg hu.2, huser, hgroup]
      by_cases hsame : groupOf t uid = sub.upgradeGroup
      · rw [if_neg (not_not.mpr hsame)]
        cases hactive : activeUpgrade t₁ uid now (some sub.id) with
        | some b =>
          obtain ⟨hb, hf, hend, hid⟩ := activeUpgrade_some hactive
          have hne : b.id ≠ sub.id := fun e => hid (by rw [e])
          exact .inl ⟨rfl, .inr (.inr ⟨b, (hother b hne).mp hb, hne, hf, hend⟩)⟩
        | none =>
          refine .inr ⟨?_, ?_⟩
          · rw [isSome_none, if_neg Bool.false_ne_true, hprev]
            by_cases horig : sub.upgradeGroup = g₀
            · rw [if_pos horig, if_pos (Or.inl (by decide)), if_pos rfl, hsame, horig]
            · have hmove : ¬ (trimSpace g₀ = "" ∨ trimSpace g₀ = groupOf t uid) := by
                rw [hg₀.trimmed, hsame]
                exact fun h => h.elim hg₀.filled fun e => horig e.symm
              rw [if_neg horig, if_neg hmove, hg₀.trimmed, if_neg hg₀.filled]
          · intro b hb hid hf
            exact activeUpgrade_none hactive ((hother b hid).mpr hb) hf
              fun e => hid (some.inj e).symm
      · rw [if_pos hsame, if_pos rfl]
        exact .inl ⟨rfl, .inr (.inl hsame)⟩
    · have hempty : sub.upgradeGroup = "" := by
        by_contra hne
        exact hu ⟨huser, hne⟩
      have hstay : fallback t₁ sub now = "" := by
        unfold fallback
        rw [hempty, if_pos (by decide)]
      rw [hstay, if_pos rfl]
      exact .inl ⟨rfl, .inl hu⟩
  · rw [groupOf_regrouped_of_ne (fun e => huser e.symm), hgroup]
    exact .inl ⟨rfl, .inl fun hu => huser hu.1⟩

theorem ended_invariant (hg₀ : Restorable g₀) (hinv : Invariant uid g₀ now t) (hsub : sub ∈ t.subs.rows) (t₁ : Tables) {t' : Tables}
    (hknown : (t₁.users.find? uid).isSome) (hgroup : groupOf t₁ uid = groupOf t uid)
    (hother₁ : ∀ s, s.id ≠ sub.id → (s ∈ t₁.subs.rows ↔ s ∈ t.subs.rows))
    (husers : t'.users = (regrouped t₁ sub.userId (fallback t₁ sub now)).users)
    (hother : ∀ s, s.id ≠ sub.id → (s ∈ t'.subs.rows ↔ s ∈ t.subs.rows))
    (hself : ∀ s ∈ t'.subs.rows, s.id = sub.id → s.status = .cancelled ∧
      s.userId = sub.userId ∧ s.upgradeGroup = sub.upgradeGroup ∧
      s.prevUserGroup = sub.prevUserGroup) : Invariant uid g₀ now t' where
  known := by
    rw [husers, known_regrouped]
    exact hknown
  standing := by
    have hcases := fallback_cases hg₀ hinv hsub hknown hgroup hother₁
    have hg : groupOf t' uid = groupOf (regrouped t₁ sub.userId (fallback t₁ sub now)) uid := by
      simp only [groupOf, answer, husers]
    rw [← hg] at hcases
    exact hinv.standing.ended (unique_rows t) hsub hother hself hcases

variable {s : UserSubscription}

theorem mem_cancelled {id : ℤ} :
    s ∈ (cancelled t id now).subs.rows ↔ ∃ r ∈ t.subs.rows, cancelRow id now r = s :=
  mem_map

theorem mem_cancelled_of_ne {id : ℤ} (h : s.id ≠ id) :
    s ∈ (cancelled t id now).subs.rows ↔ s ∈ t.subs.rows := by
  rw [mem_cancelled]
  constructor
  · rintro ⟨r, hr, rfl⟩
    rw [cancelRow_id] at h
    rw [cancelRow, if_neg h]
    exact hr
  · intro hs
    exact ⟨s, hs, by rw [cancelRow, if_neg h]⟩

theorem mem_deleted {id : ℤ} :
    s ∈ (applyWrite (.deleteSub id) t).subs.rows ↔ s ∈ t.subs.rows ∧ s.id ≠ id := by
  simp [applyWrite, erase]

theorem deleted_users (t : Tables) (id : ℤ) : (applyWrite (.deleteSub id) t).users = t.users := rfl

section

variable {id : ℤ} (hg₀ : Restorable g₀) (hinv : Invariant uid g₀ now t)
  (hfind : t.subs.find? id = some sub)
include hg₀ hinv hfind

theorem invalidated_invariant :
    Invariant uid g₀ now (regrouped (cancelled t id now) sub.userId
      (fallback (cancelled t id now) sub now)) := by
  have hsub := find?_some_mem hfind
  have hid : sub.id = id := find?_some_key hfind
  have hother : ∀ s, s.id ≠ sub.id → (s ∈ (cancelled t id now).subs.rows ↔ s ∈ t.subs.rows) :=
    fun s hs => mem_cancelled_of_ne (hid ▸ hs)
  refine ended_invariant hg₀ hinv hsub (cancelled t id now) hinv.known rfl hother rfl ?_ ?_
  · rw [regrouped_subs]
    exact hother
  · rw [regrouped_subs]
    intro s hs hs'
    obtain ⟨r, hr, rfl⟩ := mem_cancelled.mp hs
    rw [cancelRow_id, hid] at hs'
    obtain rfl : r = sub := unique_rows t r hr sub hsub (hs'.trans hid.symm)
    rw [cancelRow, if_pos hs']
    exact ⟨rfl, rfl, rfl, rfl⟩

theorem deleted_invariant :
    Invariant uid g₀ now (applyWrite (.deleteSub id)
      (regrouped t sub.userId (fallback t sub now))) := by
  have hsub := find?_some_mem hfind
  have hid : sub.id = id := find?_some_key hfind
  refine ended_invariant hg₀ hinv hsub t hinv.known rfl (fun _ _ => Iff.rfl)
    (deleted_users _ id) ?_ ?_
  · intro s hs
    rw [mem_deleted, regrouped_subs]
    exact ⟨And.left, fun h => ⟨h, hid ▸ hs⟩⟩
  · intro s hs hs'
    exact absurd (hs'.trans hid) (mem_deleted.mp hs).2

end

theorem mem_expired {r : UserSubscription} (hr : r ∈ t.subs.rows) :
    expireRow uid now r ∈ (expired t uid now).subs.rows :=
  mem_map.mpr ⟨r, hr, rfl⟩

theorem marked_of_due (h : Standing uid g₀ now t.subs.rows (groupOf t uid)) {b : UserSubscription}
    (hb : b ∈ t.subs.rows) (hf : InForce uid b) (hend : b.endTime ≤ now) :
    Upgrade uid (expireRow uid now b) ∧ (expireRow uid now b).status = .expired := by
  refine ⟨upgrade_expireRow.mpr hf.1, ?_⟩
  rw [expireRow, if_pos ⟨hf.1.1, isDue_iff.mpr ⟨hf.2, (h.held b hb hf).1, hend⟩⟩]

theorem group_of_lastExpired (h : Standing uid g₀ now t.subs.rows (groupOf t uid))
    (hdue : ∀ b ∈ t.subs.rows, InForce uid b → b.endTime ≤ now) {x : UserSubscription}
    (hlast : lastExpired (expired t uid now) uid = some x) :
    ∃ r ∈ t.subs.rows, expireRow uid now r = x ∧ Upgrade uid r ∧
      (groupOf t uid = g₀ ∨ groupOf t uid = r.upgradeGroup) := by
  obtain ⟨hx, hux, hex, hmax⟩ := lastExpired_some hlast
  obtain ⟨r, hr, rfl⟩ := mem_map.mp hx
  have hur := upgrade_expireRow.mp hux
  refine ⟨r, hr, rfl, hur, ?_⟩
  by_cases hforce : ∃ b ∈ t.subs.rows, InForce uid b
  · obtain ⟨b, hb, hf⟩ := hforce
    obtain ⟨hu, he⟩ := marked_of_due h hb hf (hdue b hb hf)
    have hle := hmax _ (mem_expired hb) hu he
    rw [(expireRow_fields uid now b).2.2.2, (expireRow_fields uid now r).2.2.2] at hle
    have hbr : r = b := by
      rcases expired_expireRow hex with hold | ⟨hact, -⟩
      · have := h.older r hr hur hold b hb hf
        omega
      · exact unique_rows t r hr b hb (h.single r hr b hb ⟨hur, hact⟩ hf)
    rw [hbr]
    exact (h.held b hb hf).2.elim .inr fun hg => .inl hg.2
  · exact .inl (h.free fun b hb hf => hforce ⟨b, hb, hf⟩)

section

variable (hg₀ : Restorable g₀) (hinv : Invariant uid g₀ now t)
include hg₀ hinv

theorem expiryFallback_restores (hactive : activeUpgrade (expired t uid now) uid now none = none)
    (hdue : ∀ b ∈ t.subs.rows, InForce uid b → b.endTime ≤ now) {x : UserSubscription}
    (hlast : lastExpired (expired t uid now) uid = some x) :
    (if expiryFallback (expired t uid now) uid now = "" then groupOf t uid
      else expiryFallback (expired t uid now) uid now) = g₀ := by
  obtain ⟨r, hr, rfl, hur, hwhere⟩ := group_of_lastExpired hinv.standing hdue hlast
  obtain ⟨-, hup, hprev, -⟩ := expireRow_fields uid now r
  obtain ⟨htrim, hsnap⟩ := hinv.standing.snapshot r hr hur
  have hgroup : groupOf (expired t uid now) uid = groupOf t uid := rfl
  simp only [expiryFallback, hactive, hlast, hup, hprev, htrim, hsnap, hgroup]
  by_cases horig : r.upgradeGroup = g₀
  · have hempty : trimSpace "" = "" := by decide
    rw [if_pos horig, hempty, ite_self, if_pos rfl]
    exact hwhere.elim id fun hg => hg.trans horig
  · rw [if_neg horig, hg₀.trimmed]
    by_cases hg : groupOf t uid = g₀
    · rw [if_pos (Or.inr (Or.inr hg)), if_pos rfl, hg]
    · have hmove : ¬ (r.upgradeGroup = "" ∨ groupOf t uid ≠ r.upgradeGroup ∨
          groupOf t uid = g₀) := by
        rintro (he | he | he)
        · exact hur.2 he
        · exact he (hwhere.resolve_left hg)
        · exact hg he
      rw [if_neg hmove, if_neg hg₀.filled]

theorem expiryFallback_cases :
    (groupOf (regrouped (expired t uid now) uid (expiryFallback (expired t uid now) uid now)) uid =
        groupOf t uid ∧ ∃ b ∈ t.subs.rows, InForce uid b ∧ now < b.endTime) ∨
    (groupOf (regrouped (expired t uid now) uid (expiryFallback (expired t uid now) uid now)) uid =
        g₀ ∧ ∀ b ∈ t.subs.rows, InForce uid b → b.endTime ≤ now) := by
  have hstanding := hinv.standing
  have hknown : ((expired t uid now).users.find? uid).isSome := hinv.known
  have hgroup : groupOf (expired t uid now) uid = groupOf t uid := rfl
  rw [groupOf_regrouped_self hknown, hgroup]
  cases hactive : activeUpgrade (expired t uid now) uid now none with
  | some b =>
    obtain ⟨hb, hf, hend, -⟩ := activeUpgrade_some hactive
    obtain ⟨r, hr, rfl⟩ := mem_map.mp hb
    obtain ⟨hsame, hfr, -⟩ := inForce_expireRow (fun hfr => (hstanding.held r hr hfr).1) hf
    refine .inl ⟨?_, r, hr, hfr, ?_⟩
    · simp only [expiryFallback, hactive, if_true]
    · rw [← hsame]
      exact hend
  | none =>
    have hdue : ∀ b ∈ t.subs.rows, InForce uid b → b.endTime ≤ now := by
      intro b hb hf
      by_contra hend
      have hkept : expireRow uid now b = b := by
        rw [expireRow, if_neg]
        rintro ⟨-, hdue⟩
        exact hend (isDue_iff.mp hdue).2.2
      have hb' : expireRow uid now b ∈ (expired t uid now).subs.rows := mem_expired hb
      rw [hkept] at hb'
      exact hend (activeUpgrade_none hactive hb' hf (by simp))
    refine .inr ⟨?_, hdue⟩
    cases hlast : lastExpired (expired t uid now) uid with
    | none =>
      simp only [expiryFallback, hactive, hlast, if_true]
      apply hstanding.free
      intro b hb hf
      obtain ⟨hu, he⟩ := marked_of_due hstanding hb hf (hdue b hb hf)
      exact lastExpired_none hlast (mem_expired hb) hu he
    | some x => exact expiryFallback_restores hg₀ hinv hactive hdue hlast

theorem lapsed_invariant (userId : ℤ) :
    Invariant uid g₀ now (regrouped (expired t userId now) userId
      (expiryFallback (expired t userId now) userId now)) where
  known := by
    rw [known_regrouped]
    exact hinv.known
  standing := by
    rw [regrouped_subs]
    change Standing uid g₀ now (t.subs.rows.map (expireRow userId now)) _
    by_cases huser : userId = uid
    · subst huser
      exact hinv.standing.lapsed (unique_rows t) (expiryFallback_cases hg₀ hinv)
    · rw [groupOf_regrouped_of_ne (fun e => huser e.symm)]
      apply hinv.standing.of_same_upgrades
      have hkept : ∀ r : UserSubscription, r.userId = uid → expireRow userId now r = r := by
        intro r hr
        rw [expireRow, if_neg]
        exact fun h => huser (h.1.symm.trans hr)
      intro s hu
      rw [List.mem_map]
      constructor
      · rintro ⟨r, hr, rfl⟩
        rw [hkept r (upgrade_expireRow.mp hu).1]
        exact hr
      · intro hs
        exact ⟨s, hs, hkept s hu.1⟩

end

/-! Purchases -/

theorem upgraded_subs (t : Tables) (userId : ℤ) (upgradeGroup : String) :
    (upgraded t userId upgradeGroup).1.subs = t.subs := by
  unfold upgraded
  split
  · rfl
  · exact regrouped_subs t userId upgradeGroup

variable {zone id userId : ℤ} {plan : SubscriptionPlan} {sub : UserSubscription} {t' : Tables}

section

variable (h : Created zone now id userId plan t sub t')
include h

theorem created_rows :
    t'.subs.rows = t.subs.rows ++ [sub] := by
  obtain ⟨endUnix, -, hsub⟩ := h.row
  have hid : sub.id = id := by rw [hsub]; rfl
  rw [h.tables]
  change ((upgraded t userId (trimSpace plan.upgradeGroup)).1.subs.insert sub).rows = _
  rw [upgraded_subs]
  apply insert_rows
  rw [hid]
  exact h.unused

theorem created_same_upgrades (hsub : ¬ Upgrade uid sub) (s : UserSubscription)
    (hs : Upgrade uid s) :
    s ∈ t'.subs.rows ↔ s ∈ t.subs.rows := by
  rw [created_rows h, mem_append, mem_singleton]
  constructor
  · rintro (hmem | rfl)
    · exact hmem
    · exact absurd hs hsub
  · exact .inl

theorem created_users :
    t'.users = (upgraded t userId (trimSpace plan.upgradeGroup)).1.users := by
  rw [h.tables, applyWrite]

theorem created_group :
    groupOf t' uid = groupOf (upgraded t userId (trimSpace plan.upgradeGroup)).1 uid := by
  simp only [groupOf, answer, created_users h]

theorem created_known :
    (t'.users.find? uid).isSome = (t.users.find? uid).isSome := by
  rw [created_users h]
  unfold upgraded
  split
  · rfl
  · exact known_regrouped userId _

end

/-- No upgrade of the user is in force at the purchase, and it ends later than it starts. -/
def FirstUpgrade (zone uid now : ℤ) (t : Tables) (userId : ℤ) (plan : SubscriptionPlan) : Prop :=
  userId = uid → trimSpace plan.upgradeGroup ≠ "" → (∀ s ∈ t.subs.rows, ¬ InForce uid s) ∧
    ∀ endUnix, calcPlanEndTime zone now plan = .ok endUnix → now < endUnix

theorem created_invariant (hinv : Invariant uid g₀ now t) (hnow : 0 ≤ now)
    (hallowed : FirstUpgrade zone uid now t userId plan)
    (h : Created zone now id userId plan t sub t') : Invariant uid g₀ now t' where
  known := by
    rw [created_known h]
    exact hinv.known
  standing := by
    obtain ⟨endUnix, hend, hsub⟩ := h.row
    have hup : sub.upgradeGroup = trimSpace plan.upgradeGroup := by rw [hsub]; rfl
    have huser : sub.userId = userId := by rw [hsub]; rfl
    rw [created_group h]
    by_cases hu : Upgrade uid sub
    · have huid : userId = uid := huser.symm.trans hu.1
      have hfilled : trimSpace plan.upgradeGroup ≠ "" := hup ▸ hu.2
      obtain ⟨hfree, hlater⟩ := hallowed huid hfilled
      have hgroup := hinv.standing.free hfree
      subst huid
      have hmoved : groupOf (upgraded t userId (trimSpace plan.upgradeGroup)).1 userId =
          sub.upgradeGroup := by
        unfold upgraded
        split
        next hsame =>
          rw [hup]
          exact hsame.resolve_left hfilled
        · rw [groupOf_regrouped_self hinv.known, if_neg hfilled, hup]
      have hprev : sub.prevUserGroup = if sub.upgradeGroup = g₀ then "" else g₀ := by
        rw [hup, show sub.prevUserGroup =
          (upgraded t userId (trimSpace plan.upgradeGroup)).2 by rw [hsub]; rfl]
        unfold upgraded
        rw [hgroup]
        by_cases hsame : trimSpace plan.upgradeGroup = g₀
        · rw [if_pos (.inr hsame.symm), if_pos hsame]
        · rw [if_neg (fun he => he.elim hfilled fun he => hsame he.symm), if_neg hsame]
      rw [hmoved, created_rows h]
      refine hinv.standing.bought hnow hfree hu ?_ hprev (by rw [hsub]; rfl) ?_
      · rw [hup]
        exact trimSpace_idem _
      · rw [show sub.endTime = endUnix by rw [hsub]; rfl]
        exact hlater endUnix hend
    · have hstay : groupOf (upgraded t userId (trimSpace plan.upgradeGroup)).1 uid =
          groupOf t uid := by
        unfold upgraded
        split
        · rfl
        next hmove =>
          refine groupOf_regrouped_of_ne (fun e => hu ⟨huser.trans e.symm, ?_⟩) _
          rw [hup]
          exact fun he => hmove (.inl he)
      rw [hstay]
      exact hinv.standing.of_same_upgrades (created_same_upgrades h hu)

end Moves

inductive Event where
  | create (id userId : ℤ) (plan : SubscriptionPlan)
  | invalidate (userSubscriptionId : ℤ)
  | delete (userSubscriptionId : ℤ)
  | expire (order : List ℤ → List ℤ) (limit : ℤ)

def step (zone : ℤ) (tx : TxId) (now : ℤ) (t : Tables) : Event → Option Tables
  | .create id userId plan =>
    (run (handle engine) (transaction tx
      (createUserSubscriptionFromPlanTx zone tx id userId plan now)) (idle t)).map fun p =>
        p.2.committed
  | .invalidate id =>
    (run (handle engine) (adminInvalidateUserSubscription tx id now) (idle t)).map fun p =>
      p.2.committed
  | .delete id =>
    (run (handle engine) (adminDeleteUserSubscription tx id now) (idle t)).map fun p =>
      p.2.committed
  | .expire order limit =>
    (run (handle engine) (expireDueSubscriptions tx order limit now) (idle t)).map fun p =>
      p.2.committed

/-- What is asked of an event: an upgrade is the only one in force when it is bought. -/
def Allowed (zone uid now : ℤ) (t : Tables) : Event → Prop
  | .create _ userId plan => FirstUpgrade zone uid now t userId plan
  | _ => True

/-- The tables and the time after a history of allowed events at non-decreasing times. -/
inductive Reaches (zone : ℤ) (tx : TxId) (uid now₀ : ℤ) (t₀ : Tables) : ℤ → Tables → Prop
  | start : Reaches zone tx uid now₀ t₀ now₀ t₀
  | wait {now now' : ℤ} {t : Tables} : Reaches zone tx uid now₀ t₀ now t → now ≤ now' →
      Reaches zone tx uid now₀ t₀ now' t
  | event {now : ℤ} {t t' : Tables} (e : Event) : Reaches zone tx uid now₀ t₀ now t →
      Allowed zone uid now t e → step zone tx now t e = some t' →
      Reaches zone tx uid now₀ t₀ now t'

section Histories

variable {zone uid now : ℤ} {tx : TxId} {g₀ : String} {t t' : Tables}

theorem expireUsers_preserves_invariant (hg₀ : Restorable g₀) {userIds : List ℤ}
    {r : Except String Unit} {db : SubDb} (hinv : Invariant uid g₀ now t)
    (h : run (handle engine) (expireUsers tx now userIds) (idle t) = some (r, db)) :
    Invariant uid g₀ now db.committed := by
  induction userIds generalizing t with
  | nil =>
    cases h
    exact hinv
  | cons userId userIds ih =>
    rw [expireUsers, run_bind] at h
    obtain ⟨⟨r₁, db₁⟩, hone, hrest⟩ := bind_eq_some_iff.mp h
    have hw : wp (direct engine) (expireUser tx now userId) (fun r t' => ∀ a, r = .ok a →
        t' = regrouped (expired t userId now) userId
          (expiryFallback (expired t userId now) userId now)) t :=
      wp_mono (wp_expireUser tx now userId t) fun r t' hr a ha => hr ha
    rcases transaction_alone (within_expireUser tx now userId) hw hone with
      ⟨e, rfl, rfl⟩ | ⟨a, t₁, rfl, rfl, ht₁⟩
    · cases hrest
      exact hinv
    · refine ih ?_ hrest
      rw [ht₁]
      exact lapsed_invariant hg₀ hinv userId

theorem step_preserves_invariant (hg₀ : Restorable g₀) {e : Event} (hnow : 0 ≤ now)
    (hinv : Invariant uid g₀ now t) (hallowed : Allowed zone uid now t e)
    (hstep : step zone tx now t e = some t') : Invariant uid g₀ now t' := by
  cases e with
  | create id userId plan =>
    obtain ⟨⟨r, db⟩, hrun, rfl⟩ := map_eq_some_iff.mp hstep
    rcases transaction_alone (within_createUserSubscriptionFromPlanTx zone tx id userId plan now)
      (wp_createUserSubscriptionFromPlanTx zone tx id userId plan now t) hrun with
      ⟨e, -, rfl⟩ | ⟨sub, t₁, -, rfl, hcreated⟩
    · exact hinv
    · exact created_invariant hinv hnow hallowed hcreated
  | invalidate id =>
    obtain ⟨⟨r, db⟩, hrun, rfl⟩ := map_eq_some_iff.mp hstep
    unfold adminInvalidateUserSubscription at hrun
    split at hrun
    · cases hrun
      exact hinv
    rw [run_bind] at hrun
    obtain ⟨⟨r₁, db₁⟩, htx, hrest⟩ := bind_eq_some_iff.mp hrun
    rcases transaction_alone (within_invalidateBody tx id now) (wp_invalidateBody tx id now t) htx
      with ⟨e, rfl, rfl⟩ | ⟨g, t₁, rfl, rfl, sub, hfind, ht₁⟩
    · cases hrest
      exact hinv
    · cases hrest
      rw [idle_committed, ht₁]
      exact invalidated_invariant hg₀ hinv hfind
  | delete id =>
    obtain ⟨⟨r, db⟩, hrun, rfl⟩ := map_eq_some_iff.mp hstep
    unfold adminDeleteUserSubscription at hrun
    split at hrun
    · cases hrun
      exact hinv
    rw [run_bind] at hrun
    obtain ⟨⟨r₁, db₁⟩, htx, hrest⟩ := bind_eq_some_iff.mp hrun
    rcases transaction_alone (within_deleteBody tx id now) (wp_deleteBody tx id now t) htx
      with ⟨e, rfl, rfl⟩ | ⟨g, t₁, rfl, rfl, sub, hfind, ht₁⟩
    · cases hrest
      exact hinv
    · cases hrest
      rw [idle_committed, ht₁]
      exact deleted_invariant hg₀ hinv hfind
  | expire order limit =>
    obtain ⟨⟨r, db⟩, hrun, rfl⟩ := map_eq_some_iff.mp hstep
    exact expireUsers_preserves_invariant hg₀ hinv hrun

theorem reachable_invariant (hg₀ : Restorable g₀) {now₀ : ℤ} {t₀ : Tables} (hnow : 0 ≤ now₀)
    (h₀ : Invariant uid g₀ now₀ t₀) (hr : Reaches zone tx uid now₀ t₀ now t) :
    0 ≤ now ∧ Invariant uid g₀ now t := by
  induction hr with
  | start => exact ⟨hnow, h₀⟩
  | wait _ hle ih =>
    exact ⟨by omega, ih.2.known, ih.2.standing.later hle⟩
  | event e _ hallowed hstep ih =>
    exact ⟨ih.1, step_preserves_invariant hg₀ ih.1 ih.2 hallowed hstep⟩

/-- The user has bought nothing yet and is in the group `g₀`. -/
structure Newcomer (uid : ℤ) (g₀ : String) (t : Tables) : Prop where
  known : (t.users.find? uid).isSome
  group : groupOf t uid = g₀
  bought : ∀ s ∈ t.subs.rows, s.userId ≠ uid

theorem initial_invariant (h : Newcomer uid g₀ t) : Invariant uid g₀ now t where
  known := h.known
  standing :=
    { snapshot := fun s hs hu => absurd hu.1 (h.bought s hs)
      single := fun a ha _ _ hf => absurd hf.1.1 (h.bought a ha)
      free := fun _ => h.group
      held := fun b hb hf => absurd hf.1.1 (h.bought b hb)
      past := fun s hs hu => absurd hu.1 (h.bought s hs)
      older := fun s hs hu => absurd hu.1 (h.bought s hs) }

end Histories

/-- Whenever no upgrade that has run out waits for the expiry task: without an active
upgrade the user is in the original group, and otherwise in the group of an active one. -/
theorem group_follows_separate_upgrades {zone uid now₀ now : ℤ} {tx : TxId} {g₀ : String}
    {t₀ t : Tables} (hg₀ : Restorable g₀) (hnow : 0 ≤ now₀) (h₀ : Newcomer uid g₀ t₀)
    (hr : Reaches zone tx uid now₀ t₀ now t)
    (hdue : ∀ s ∈ t.subs.rows, InForce uid s → now < s.endTime) :
    ((∀ s ∈ t.subs.rows, isActiveUpgrade uid now none s = false) → groupOf t uid = g₀) ∧
    ((∃ s ∈ t.subs.rows, isActiveUpgrade uid now none s = true) →
      ∃ s ∈ t.subs.rows, isActiveUpgrade uid now none s = true ∧
        groupOf t uid = s.upgradeGroup) := by
  obtain ⟨-, -, hstanding⟩ := reachable_invariant hg₀ hnow (initial_invariant h₀) hr
  constructor
  · intro hnone
    apply hstanding.free
    intro s hs hf
    have hactive : isActiveUpgrade uid now none s = true :=
      isActiveUpgrade_iff.mpr ⟨hf, hdue s hs hf, by simp⟩
    rw [hnone s hs] at hactive
    cases hactive
  · rintro ⟨s, hs, hactive⟩
    refine ⟨s, hs, hactive, ?_⟩
    obtain ⟨hf, hend, -⟩ := isActiveUpgrade_iff.mp hactive
    rcases (hstanding.held s hs hf).2 with hg | ⟨hle, -⟩
    · exact hg
    · omega

/-- A plan of one hour that moves the user to the group `vip`. -/
def vipPlan : SubscriptionPlan := { plainPlan with upgradeGroup := "vip" }

def noSubs : Tables := plainTables .empty

theorem one_upgrade_is_restored : ∃ t, Reaches 0 0 1 0 noSubs 3600 t ∧
    t.subs.rows.map UserSubscription.status = [.expired] ∧ groupOf t 1 = "default" := by
  have hfirst : (step 0 0 0 noSubs (.create 1 1 vipPlan)).isSome = true := by decide
  obtain ⟨t₁, ht₁⟩ := isSome_iff_exists.mp hfirst
  have hlast : ((step 0 0 0 noSubs (.create 1 1 vipPlan)).bind fun t =>
      step 0 0 3600 t (.expire id 0)).map (fun t => t.subs.rows.map UserSubscription.status) =
      some [.expired] := by decide
  rw [ht₁, bind_some] at hlast
  obtain ⟨t, ht, hrows⟩ := map_eq_some_iff.mp hlast
  have hbought : Reaches 0 0 1 0 noSubs 0 t₁ := by
    refine .event _ .start ?_ ht₁
    intro _ _
    refine ⟨fun s hs => (by cases hs), ?_⟩
    intro endUnix hend
    cases hend
    decide
  have hr : Reaches 0 0 1 0 noSubs 3600 t :=
    .event (.expire id 0) (.wait hbought (by decide)) trivial ht
  have hnone : ∀ s ∈ t.subs.rows, s.status = .expired := by
    intro s hs
    have hmem := mem_map_of_mem (f := UserSubscription.status) hs
    rw [hrows] at hmem
    exact mem_singleton.mp hmem
  have hnew : Newcomer 1 "default" noSubs := ⟨by decide, rfl, fun s hs => by cases hs⟩
  have hgroup := group_follows_separate_upgrades ⟨by decide, by decide⟩ (le_refl 0) hnew hr
    fun s hs hf => by
      have := hf.2
      rw [hnone s hs] at this
      cases this
  refine ⟨t, hr, hrows, hgroup.1 fun s hs => ?_⟩
  simp [isActiveUpgrade, isActive, hnone s hs]

/-- A renewal during the first hour keeps no group to go back to: when both hours are over
the user stays in `vip`. -/
theorem renewed_upgrade_is_not_restored :
    ([(0, Event.create 1 1 vipPlan), (1000, .create 2 1 vipPlan), (10000, .expire id 0)].foldlM
      (fun t p => step 0 0 p.1 t p.2) noSubs).map (fun t =>
        (groupOf noSubs 1, t.subs.rows.map UserSubscription.status, groupOf t 1)) =
      some ("default", [.expired, .expired], "vip") := by
  decide

end SubscriptionGroupHistory
