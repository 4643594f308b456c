import TinyToken.ChannelKeys
import TinyToken.KeyedTable
import TinyToken.WeightedDraws

/-! Which channel serves a request: by the candidate lists of the memory cache, or by the
abilities table, and in both by a weighted draw among the candidates of one priority. -/
namespace ChannelSelection

open KeyedTable WeightedDraws List Table
open ChannelKeys (channelStatusEnabled)

/-- `groups` and `models` are the parts of the comma-separated columns, `priority` and `weight`
what `GetPriority` and `GetWeight` give. -/
structure Channel where
  id : ℤ
  status : ℤ
  groups : List String
  models : List String
  priority : ℤ
  weight : ℕ

structure Ability where
  group : String
  model : String
  channelId : ℤ
  enabled : Bool
  priority : ℤ
  weight : ℕ

variable (weights : List ℕ)

/-- Weight sum, factor and adjustment. -/
def smoothing : ℕ × ℕ × ℕ :=
  if weights.sum = 0 then (weights.length * 100, 1, 100)
  else if weights.sum / weights.length < 10 then (weights.sum, 100, 0)
  else (weights.sum, 1, 0)

def totalWeight : ℕ := (smoothing weights).1 * (smoothing weights).2.1

/-- The effective weights of the memory cache. -/
def smoothed : List ℕ :=
  weights.map fun w => w * (smoothing weights).2.1 + (smoothing weights).2.2

/-- The effective weights of the database query. -/
def raised : List ℕ := weights.map (· + 10)

section Draws

variable {weights : List ℕ}

theorem sum_smoothed (weights : List ℕ) : (smoothed weights).sum = totalWeight weights := by
  rw [smoothed, sum_map_add, sum_map_mul_right, totalWeight, smoothing]
  split_ifs with h <;> simp [*]

theorem raised_sum_pos (hne : weights ≠ []) : 0 < (raised weights).sum := by
  obtain ⟨w, ws, rfl⟩ := exists_cons_of_ne_nil hne
  simp [raised]

/-- Every draw comes out at a candidate, and each candidate has its share of the draws. -/
def Fair (stop : ℤ → Bool) (effective : List ℕ) (total : ℕ) : Prop :=
  (∀ draw < total, (pick stop effective draw).isSome) ∧ ∀ i < effective.length,
      (hits stop effective total i : ℚ) / total = (effective.getD i 0 : ℚ) / effective.sum

theorem fair_smoothed (hne : weights ≠ []) :
    Fair below (smoothed weights) (totalWeight weights) := by
  rw [← sum_smoothed]
  refine ⟨fun draw hdraw => isSome_pick_below ?_ (by exact_mod_cast hdraw), fun i _ => ?_⟩
  · simpa [smoothed] using hne
  · rw [hits_below]

/-- The draws of the database query miss the weights of two or more candidates by one draw. -/
theorem draws_follow_weights (weights : List ℕ) (hne : weights ≠ []) :
    Fair below (smoothed weights) (totalWeight weights) ∧
    (∀ draw < (raised weights).sum, (pick atMost (raised weights) draw).isSome) ∧
    (Fair atMost (raised weights) (raised weights).sum ↔ weights.length = 1) := by
  have hsome : ∀ draw < (raised weights).sum, (pick atMost (raised weights) draw).isSome :=
    fun draw hdraw => isSome_pick_atMost (by simpa [raised] using hne) (by exact_mod_cast hdraw)
  refine ⟨fair_smoothed hne, hsome, ?_⟩
  obtain ⟨w, ws, rfl⟩ := exists_cons_of_ne_nil hne
  constructor
  · rintro ⟨-, hshare⟩
    by_contra hlength
    have hws : ws ≠ [] := fun hnil => hlength (by simp [hnil])
    have hfirst := hshare 0 (by simp [raised])
    have hpos := raised_sum_pos hne
    have hcount : hits atMost (raised (w :: ws)) (raised (w :: ws)).sum 0 = w + 10 + 1 :=
      hits_atMost_head (w + 10) (raised_sum_pos hws)
    rw [hcount, div_left_inj' (by exact_mod_cast hpos.ne'), Nat.cast_inj] at hfirst
    simp [raised] at hfirst
  · intro hlength
    have hnil : ws = [] := length_eq_zero_iff.mp (by simpa using hlength)
    subst hnil
    refine ⟨hsome, fun i hi => ?_⟩
    have hzero : i = 0 := by
      simp only [raised, map_cons, map_nil, length_singleton] at hi
      omega
    have hall : hits atMost (raised [w]) (raised [w]).sum 0 = (raised [w]).sum := by
      rw [hits, countP_eq_length.mpr fun r hr => ?_, length_range]
      obtain ⟨j, hj⟩ := Option.isSome_iff_exists.mp (hsome r (mem_range.mp hr))
      simp only [raised, map_cons, map_nil, pick] at hj ⊢
      split_ifs at hj ⊢
      · simp
      · cases hj
    subst hzero
    rw [hall]
    simp [raised]

theorem single_candidate_fair : Fair atMost (raised [5]) (raised [5]).sum :=
  (draws_follow_weights [5] (by decide)).2.2.mpr rfl

/-- Of two candidates with the same weight the first gets eleven draws of twenty. -/
theorem first_candidate_preferred :
    hits atMost (raised [0, 0]) 20 0 = 11 ∧ hits atMost (raised [0, 0]) 20 1 = 9 ∧
      ¬ Fair atMost (raised [0, 0]) (raised [0, 0]).sum := by
  refine ⟨by decide, by decide, fun h => ?_⟩
  have hfirst := h.2 0 (by decide)
  have hcount : hits atMost (raised [0, 0]) (raised [0, 0]).sum 0 = 11 := by decide
  rw [hcount] at hfirst
  norm_num [raised] at hfirst

end Draws

structure Cache where
  group2model2channels : String → String → List ℤ
  channelsIDM : Table Channel ℤ Channel.id

def entriesOf (channel : Channel) : List (String × String × ℤ) :=
  channel.groups.flatMap fun group => channel.models.map fun model => (group, model, channel.id)

/-- Only the groups of the abilities have a map; writing to the nil map of another one panics. -/
def appendEntry (groups : List String) (entries : List (String × String × ℤ))
    (entry : String × String × ℤ) : Except String (List (String × String × ℤ)) :=
  if entry.1 ∈ groups then .ok (entries ++ [entry])
  else .error "assignment to entry in nil map"

def priorityOf (channels : Table Channel ℤ Channel.id) (id : ℤ) : ℤ :=
  ((channels.find? id).map Channel.priority).getD 0

def initChannelCache (channels : Table Channel ℤ Channel.id) (abilities : List Ability) :
    Except String Cache := do
  let enabled := channels.rows.filter fun channel => channel.status = channelStatusEnabled
  let entries ← (enabled.flatMap entriesOf).foldlM (appendEntry (abilities.map Ability.group)) []
  return {
    group2model2channels := fun group model =>
      ((entries.filter fun e => e.1 = group ∧ e.2.1 = model).map fun e => e.2.2).insertionSort
        fun i j => priorityOf channels j ≤ priorityOf channels i
    channelsIDM := channels }

/-- Only the first entry of a list is removed. -/
def cacheUpdateChannelStatus (id status : ℤ) (cache : Cache) : Cache where
  channelsIDM :=
    match cache.channelsIDM.find? id with
    | some channel => cache.channelsIDM.save { channel with status := status }
    | none => cache.channelsIDM
  group2model2channels := fun group model =>
    if status ≠ channelStatusEnabled then (cache.group2model2channels group model).erase id
    else cache.group2model2channels group model

def Serves (group model : String) (channel : Channel) : Prop :=
  channel.status = channelStatusEnabled ∧ group ∈ channel.groups ∧ model ∈ channel.models

section Cached

variable {channels : Table Channel ℤ Channel.id} {abilities : List Ability}

/-- What the loops of a run without panic append. -/
def entries (channels : Table Channel ℤ Channel.id) : List (String × String × ℤ) :=
  (channels.rows.filter fun channel => channel.status = channelStatusEnabled).flatMap entriesOf

def Covered (channels : Table Channel ℤ Channel.id) (abilities : List Ability) : Prop :=
  ∀ channel ∈ channels.rows, channel.status = channelStatusEnabled →
    ∀ group ∈ channel.groups, ∀ model ∈ channel.models, group ∈ abilities.map Ability.group

theorem mem_entries {group model : String} {id : ℤ} : (group, model, id) ∈ entries channels ↔
      ∃ channel, channels.find? id = some channel ∧ Serves group model channel := by
  simp only [entries, entriesOf, List.mem_flatMap, List.mem_filter, List.mem_map, Prod.mk.injEq,
    decide_eq_true_eq]
  constructor
  · rintro ⟨channel, ⟨hmem, hstatus⟩, _, hgroup, _, hmodel, rfl, rfl, rfl⟩
    exact ⟨channel, find?_of_mem hmem, hstatus, hgroup, hmodel⟩
  · rintro ⟨channel, hfind, hstatus, hgroup, hmodel⟩
    exact ⟨channel, ⟨Table.find?_some_mem hfind, hstatus⟩, group, hgroup, model, hmodel, rfl, rfl,
      Table.find?_some_key hfind⟩

theorem foldlM_appendEntry {groups : List String} (l before : List (String × String × ℤ))
    (h : ∀ e ∈ l, e.1 ∈ groups) : l.foldlM (appendEntry groups) before = .ok (before ++ l) := by
  induction l generalizing before with
  | nil => simp; rfl
  | cons e l ih =>
    rw [foldlM_cons, appendEntry, if_pos (h e mem_cons_self)]
    refine (ih _ fun e' he' => h e' (mem_cons_of_mem e he')).trans ?_
    simp

/-- A run without panic: each list holds the ids of its entries, in some order. -/
theorem initChannelCache_ok (hcovered : Covered channels abilities) :
    ∃ cache, initChannelCache channels abilities = .ok cache ∧ cache.channelsIDM = channels ∧
      ∀ group model, (cache.group2model2channels group model).Perm
        (((entries channels).filter fun e => e.1 = group ∧ e.2.1 = model).map fun e => e.2.2) := by
  have hgroups : ∀ e ∈ entries channels, e.1 ∈ abilities.map Ability.group := by
    rintro ⟨group, model, id⟩ he
    obtain ⟨channel, hfind, hstatus, hgroup, hmodel⟩ := mem_entries.mp he
    exact hcovered channel (find?_some_mem hfind) hstatus group hgroup model hmodel
  have hfold := foldlM_appendEntry _ [] hgroups
  rw [entries] at hfold
  refine ⟨_, by rw [initChannelCache, hfold]; rfl, rfl, fun group model => ?_⟩
  exact perm_insertionSort _ _

theorem mem_filtered {group model : String} {id : ℤ} :
    id ∈ ((entries channels).filter fun e => e.1 = group ∧ e.2.1 = model).map (fun e => e.2.2) ↔
      ∃ channel, channels.find? id = some channel ∧ Serves group model channel := by
  rw [← mem_entries]
  simp only [mem_map, mem_filter, decide_eq_true_eq]
  constructor
  · rintro ⟨⟨_, _, _⟩, ⟨hmem, rfl, rfl⟩, rfl⟩
    exact hmem
  · intro hmem
    exact ⟨_, ⟨hmem, rfl, rfl⟩, rfl⟩

def Distinct (channels : Table Channel ℤ Channel.id) : Prop :=
  ∀ channel ∈ channels.rows, channel.status = channelStatusEnabled →
    channel.groups.Nodup ∧ channel.models.Nodup

theorem nodup_entries (h : Distinct channels) : (entries channels).Nodup := by
  refine nodup_flatMap.mpr ⟨fun channel hmem => ?_, ?_⟩
  · obtain ⟨hgroups, hmodels⟩ := h channel (mem_filter.mp hmem).1
      (by simpa using (mem_filter.mp hmem).2)
    refine nodup_flatMap.mpr ⟨fun group _ => ?_, ?_⟩
    · exact hmodels.map fun model model' heq => by simpa using heq
    · refine hgroups.imp fun hne e he he' => ?_
      simp only [mem_map] at he he'
      obtain ⟨_, -, rfl⟩ := he
      obtain ⟨_, -, heq⟩ := he'
      exact hne (Prod.ext_iff.mp heq).1.symm
  · have hids : channels.rows.Pairwise fun a b => a.id ≠ b.id := pairwise_map.mp channels.nodup
    refine (hids.filter _).imp fun hne e he he' => ?_
    simp only [entriesOf, mem_flatMap, mem_map] at he he'
    obtain ⟨_, -, _, -, rfl⟩ := he
    obtain ⟨_, -, _, -, heq⟩ := he'
    exact hne (Prod.ext_iff.mp (Prod.ext_iff.mp heq).2).2.symm

variable (cache : Cache) (call : ℤ × ℤ)

/-- The candidate lists are an index of the cached channels, without duplicates. -/
def Indexed : Prop :=
  ∀ group model, (cache.group2model2channels group model).Nodup ∧
    ∀ id, id ∈ cache.group2model2channels group model ↔
      ∃ channel, cache.channelsIDM.find? id = some channel ∧ Serves group model channel

theorem indexed_init (hcovered : Covered channels abilities) (hdistinct : Distinct channels) :
    ∃ cache, initChannelCache channels abilities = .ok cache ∧ Indexed cache := by
  obtain ⟨cache, hinit, hchannels, hlists⟩ := initChannelCache_ok hcovered
  refine ⟨cache, hinit, fun group model => ⟨?_, fun id => ?_⟩⟩
  · refine (hlists group model).nodup_iff.mpr (List.Nodup.map_on ?_ ((nodup_entries hdistinct).filter _))
    rintro ⟨_, _, _⟩ he ⟨_, _, _⟩ he' heq
    simp only [mem_filter, decide_eq_true_eq] at he he' heq
    obtain ⟨-, rfl, rfl⟩ := he
    obtain ⟨-, rfl, rfl⟩ := he'
    rw [heq]
  · rw [(hlists group model).mem_iff, mem_filtered, hchannels]

def step : Unit × Cache :=
  ((), cacheUpdateChannelStatus call.1 call.2 cache)

/-- The call does not enable a cached channel that is not enabled. -/
def NotReenabled : Prop :=
  call.2 = channelStatusEnabled → ∀ channel, cache.channelsIDM.find? call.1 = some channel →
    channel.status = channelStatusEnabled

theorem indexed_step (h : Indexed cache) (hcall : NotReenabled cache call) :
    Indexed (step cache call).2 := by
  obtain ⟨id, status⟩ := call
  intro group model
  obtain ⟨hnodup, hmem⟩ := h group model
  by_cases hstatus : status = channelStatusEnabled
  · subst hstatus
    have hsame : cacheUpdateChannelStatus id channelStatusEnabled cache = cache := by
      rw [cacheUpdateChannelStatus]
      cases hfind : cache.channelsIDM.find? id with
      | none => simp
      | some channel =>
        have hid := find?_some_key hfind
        have hkept : { channel with status := channelStatusEnabled } = channel := by
          rw [← hcall rfl channel hfind]
        simp [hkept, save_of_mem (hid ▸ hfind)]
    rw [step, hsame]
    exact ⟨hnodup, hmem⟩
  · simp only [step, cacheUpdateChannelStatus, if_pos hstatus]
    refine ⟨hnodup.erase id, fun other => ?_⟩
    rw [hnodup.mem_erase_iff, hmem other]
    cases hfind : cache.channelsIDM.find? id with
    | none =>
      apply and_iff_right_of_imp
      rintro ⟨channel, hother, -⟩ rfl
      rw [hfind] at hother
      cases hother
    | some channel =>
      have hid : channel.id = id := find?_some_key hfind
      rw [find?_save, hid]
      by_cases hother : other = id
      · simp [hother, Serves, hstatus]
      · simp [hother]

/-- After a start without panic and any calls that re-enable nothing the lists are an index. -/
theorem cached_lists_indexed (channels : Table Channel ℤ Channel.id) (abilities : List Ability)
    (hcovered : Covered channels abilities) (hdistinct : Distinct channels) :
    ∃ cache, initChannelCache channels abilities = .ok cache ∧
      ∀ calls, StepMachines.Along step NotReenabled cache calls →
        Indexed (StepMachines.after step cache calls) := by
  obtain ⟨cache, hinit, hindexed⟩ := indexed_init hcovered hdistinct
  exact ⟨cache, hinit, fun calls => StepMachines.invariant_after indexed_step hindexed⟩

/-- A channel in one group with the given models, and its row. -/
def oneChannel (models : List String) : Table Channel ℤ Channel.id :=
  ⟨[⟨7, 1, ["default"], models, 0, 0⟩], by simp⟩

def oneAbility : List Ability := [⟨"default", "m", 7, true, 0, 0⟩]

theorem one_channel_indexed : ∃ cache, initChannelCache (oneChannel ["m"]) oneAbility = .ok cache ∧
      Indexed (StepMachines.after step cache [(7, 3)]) := by
  obtain ⟨cache, hinit, hcalls⟩ := cached_lists_indexed (oneChannel ["m"]) oneAbility
    (by simp [Covered, oneChannel, oneAbility]) (by simp [Distinct, oneChannel])
  exact ⟨cache, hinit, hcalls [(7, 3)] ⟨fun h => absurd h (by decide), trivial⟩⟩

/-- The candidates for a model after a start and some calls. -/
def candidatesAfter (channels : Table Channel ℤ Channel.id) (abilities : List Ability)
    (calls : List (ℤ × ℤ)) : Except String (List ℤ) := do
  let cache ← initChannelCache channels abilities
  return (StepMachines.after step cache calls).group2model2channels "default" "m"

/-- A missing ability makes the start panic, a model that is listed twice leaves the disabled
channel a candidate, and a channel that is enabled again does not come back. -/
theorem cache_start_and_index_fail :
    candidatesAfter (oneChannel ["m"]) [] [] = .error "assignment to entry in nil map" ∧
      candidatesAfter (oneChannel ["m", "m"]) oneAbility [(7, 3)] = .ok [7] ∧
      candidatesAfter (oneChannel ["m"]) oneAbility [(7, 3), (7, 1)] = .ok [] := by
  decide +kernel

end Cached

end ChannelSelection
