import TinyToken.ModelMapping
import TinyToken.TaskBilling
import TinyToken.TextBilling

/-! The ratios a request is priced with: the other ratios of a task, such as duration and size,
and the ratio of the group that serves a request. -/
namespace RequestPricing

open GoText TaskBilling BillingExpressions TieredBilling TextBilling List Option
open RealtimeBilling (intPart)

/-! ## Other ratios -/

/-- The quota times some of the ratios never has a fraction. -/
def Whole (quota : ℤ) (ratios : List ℚ) : Prop :=
  ∀ part : List ℚ, part.Subperm ratios → ∃ product : ℤ, quota * part.prod = product

theorem intPart_intCast (z : ℤ) : intPart z = z := by
  unfold intPart
  split <;> simp

section Whole

variable {quota product : ℤ} {ra : ℚ} {ratios order : List ℚ}

theorem Whole.perm (h : Whole quota ratios) (hperm : ratios.Perm order) : Whole quota order :=
  fun part hpart => h part (hpart.trans hperm.symm.subperm)

theorem Whole.rest (h : Whole quota (ra :: ratios)) : Whole quota ratios :=
  fun part hpart => h part (hpart.trans (sublist_cons_self ra ratios).subperm)

theorem Whole.times (h : Whole quota (ra :: ratios)) (hproduct : quota * ra = product) :
    Whole product ratios := by
  intro part hpart
  obtain ⟨z, hz⟩ := h (ra :: part) ((subperm_cons ra).mpr hpart)
  exact ⟨z, by rw [← hz, prod_cons, ← hproduct, mul_assoc]⟩

theorem applyRatios_whole (h : Whole quota ratios) :
    (applyRatios quota ratios : ℚ) = quota * ratios.prod := by
  induction ratios generalizing quota with
  | nil => simp [applyRatios]
  | cons ra ratios ih =>
    obtain ⟨product, hproduct⟩ := h [ra] (by simp)
    rw [prod_singleton] at hproduct
    have hstep : (if ra ≠ 1 then intPart (quota * ra) else quota) = product := by
      split
      · rw [hproduct, intPart_intCast]
      next hone =>
        rw [not_ne_iff.mp hone, mul_one] at hproduct
        exact_mod_cast hproduct
    have hrest := ih (h.times hproduct)
    rw [applyRatios, foldl_cons, hstep, ← applyRatios, hrest, ← hproduct, prod_cons,
      mul_assoc]

/-- Dividing the ratios out again goes back through the same whole products. -/
theorem divided_whole (h : Whole quota ratios) (hpos : ∀ ra ∈ ratios, 0 < ra)
    (hproduct : (product : ℚ) = quota * ratios.prod) :
    ratios.foldl (fun q ra => if ra ≠ 1 ∧ 0 < ra then intPart (q / ra) else q) product = quota := by
  induction ratios generalizing product with
  | nil => simpa using hproduct
  | cons ra ratios ih =>
    obtain ⟨rest, hrest⟩ := h.rest ratios (List.Subperm.refl _)
    have hra : 0 < ra := hpos ra mem_cons_self
    have hquotient : (product : ℚ) / ra = rest := by
      rw [hproduct, prod_cons, ← hrest]
      field_simp
    have hstep : (if ra ≠ 1 ∧ 0 < ra then intPart (product / ra) else product) = rest := by
      split
      · rw [hquotient, intPart_intCast]
      next hone =>
        rw [show ra = 1 by tauto, div_one] at hquotient
        exact_mod_cast hquotient
    rw [foldl_cons, hstep]
    exact ih h.rest (fun ra hmem => hpos ra (mem_cons_of_mem _ hmem)) hrest.symm

theorem multiplied_eq (x : ℚ) (ratios : List ℚ) :
    ratios.foldl (fun x ra => if ra ≠ 1 then x * ra else x) x = x * ratios.prod := by
  induction ratios generalizing x with
  | nil => simp
  | cons ra ratios ih =>
    rw [foldl_cons, ih, prod_cons]
    split
    · rw [mul_assoc]
    next hone =>
      rw [not_ne_iff.mp hone, one_mul]

end Whole

/-- The orders are those in which the map is read: when the task is priced, and when the ratios
are divided out and applied again. -/
theorem whole_ratios_commute (quota : ℤ) (ratios priced divided applied : List ℚ)
    (hpos : ∀ ra ∈ ratios, 0 < ra) (hwhole : Whole quota ratios) (hpriced : ratios.Perm priced)
    (hdivided : ratios.Perm divided) (happlied : ratios.Perm applied) :
    applyRatios quota priced = applyRatios quota ratios ∧
    recalcQuotaFromRatios (applyRatios quota priced) divided applied =
      applyRatios quota priced := by
  have hprice := applyRatios_whole (hwhole.perm hpriced)
  rw [← hpriced.prod_eq] at hprice
  constructor
  · exact_mod_cast hprice.trans (applyRatios_whole hwhole).symm
  have hback := divided_whole (hwhole.perm hdivided)
    (fun ra hmem => hpos ra (hdivided.mem_iff.mpr hmem)) (hprice.trans (by rw [hdivided.prod_eq]))
  rw [recalcQuotaFromRatios, hback, multiplied_eq, ← happlied.prod_eq, ← hprice, intPart_intCast]

/-- Four units at half the price for three seconds. -/
theorem half_price_commutes : applyRatios 4 [3, 1 / 2] = applyRatios 4 [1 / 2, 3] ∧
    recalcQuotaFromRatios (applyRatios 4 [3, 1 / 2]) [1 / 2, 3] [3, 1 / 2] =
      applyRatios 4 [3, 1 / 2] := by
  refine whole_ratios_commute 4 [1 / 2, 3] [3, 1 / 2] [1 / 2, 3] [3, 1 / 2]
    (by simp) ?_ (List.Perm.swap _ _ _) (List.Perm.refl _) (List.Perm.swap _ _ _)
  rintro part ⟨sub, hperm, hsub⟩
  rw [← hperm.prod_eq]
  have hcases : sub ∈ [1 / 2, 3].sublists := mem_sublists.mpr hsub
  rw [show ([1 / 2, 3] : List ℚ).sublists = [[], [1 / 2], [3], [1 / 2, 3]] by rfl] at hcases
  simp only [mem_cons, not_mem_nil, or_false] at hcases
  rcases hcases with rfl | rfl | rfl | rfl
  · exact ⟨4, by norm_num⟩
  · exact ⟨2, by norm_num⟩
  · exact ⟨12, by norm_num⟩
  · exact ⟨6, by norm_num⟩

/-- Half of three units is cut before or after it is doubled, and a unit and a half is cut to
one, which is not a unit and a half of anything. -/
theorem cut_ratios_differ : applyRatios 3 [1 / 2, 2] = 2 ∧ applyRatios 3 [2, 1 / 2] = 3 ∧
    applyRatios 1 [3 / 2] = 1 ∧ recalcQuotaFromRatios 1 [3 / 2] [3 / 2] = 0 := by
  decide +kernel

/-! ## The ratios of the original task -/

abbrev Ratios := List (String × ℚ)

/-- A task that is remixed. `seconds` is what `Atoi` makes of the text in its data. -/
structure OriginTask where
  channelId : ℤ
  originModelName : String
  upstreamModelName : String
  dataModel : String
  otherRatios : Option (Ratios)
  seconds : ℤ
  size : String

structure TaskInfo where
  action : String
  originTaskID : String
  originModelName : String
  channelId : ℤ
  otherRatios : Ratios

/-- What the database and the channels answer; a channel tells whether it is enabled. -/
structure Origins where
  getByTaskId : String → Except String (Option OriginTask)
  getChannelById : ℤ → Except String Bool
  getNextEnabledKey : ℤ → Except (String × ℕ) Unit

variable (info : TaskInfo) (ratios : Ratios) (e : Estimate) (origin : OriginTask)

def setRatio (key : String) (ratio : ℚ) : Ratios :=
  (key, ratio) :: ratios.filter fun r => r.1 ≠ key

def addOtherRatio (r : String × ℚ) : Ratios :=
  if r.2 ≤ 0 then ratios else setRatio ratios r.1 r.2

def taskActionRemix : String := "remixGenerate"

def originModel : String :=
  if info.originModelName ≠ "" then info.originModelName
  else if origin.originModelName ≠ "" then origin.originModelName
  else if origin.upstreamModelName ≠ "" then origin.upstreamModelName
  else origin.dataModel

def remixRatios : Ratios :=
  match origin.otherRatios with
  | some old => old.foldl addOtherRatio ratios
  | none =>
    let seconds := if origin.seconds ≤ 0 then 4 else origin.seconds
    let size :=
      if origin.size = "1792x1024" ∨ origin.size = "1024x1792" then 1666667 / 1000000 else 1
    setRatio (setRatio ratios "seconds" seconds) "size" size

def resolveOriginTask (w : Origins) (path videoID : String) (info : TaskInfo) :
    Except TaskError TaskInfo :=
  let action := if contains path "/v1/videos/" ∧ ModelMapping.hasSuffix path "/remix"
    then taskActionRemix else info.action
  if action = taskActionRemix ∧ trimSpace videoID = "" then
    .error ⟨"invalid_request", "video_id is required", 400, true⟩
  else
    let originTaskID := if action = taskActionRemix then videoID else info.originTaskID
    if originTaskID = "" then .ok { info with action, originTaskID }
    else
      match w.getByTaskId originTaskID with
      | .error e => .error ⟨"get_origin_task_failed", e, 500, false⟩
      | .ok none => .error ⟨"task_not_exist", "task_origin_not_exist", 400, true⟩
      | .ok (some origin) =>
        match w.getChannelById origin.channelId with
        | .error e => .error ⟨"channel_not_found", e, 400, true⟩
        | .ok false =>
          .error ⟨"task_channel_disable", "the channel of the origin task is disabled", 400, true⟩
        | .ok true =>
          match if origin.channelId = info.channelId then .ok ()
            else w.getNextEnabledKey origin.channelId with
          | .error (e, statusCode) => .error ⟨"channel_no_available_key", e, statusCode, false⟩
          | .ok () =>
            .ok ⟨action, originTaskID, originModel info origin, origin.channelId,
              if action = taskActionRemix then remixRatios info.otherRatios origin
              else info.otherRatios⟩

/-- The prices of one attempt: the base quota, and the ratios its adaptor reads off the request,
which are a map. -/
structure Estimate where
  modelName : String
  quota : ℤ
  ratios : Ratios
  distinct : (ratios.map Prod.fst).Nodup

/-- `RelayTaskSubmit` up to the charge: `ModelPriceHelperPerCall` makes a new price record, which
replaces the one `ResolveOriginTask` has put ratios on. -/
def priceAttempt : TaskInfo :=
  { info with originModelName := e.modelName, otherRatios := e.ratios.foldl addOtherRatio [] }

/-- The ratios that are multiplied into the quota. -/
def multipliedRatios (r : RelaySettings) (info : TaskInfo) : Ratios :=
  if info.originModelName ∈ r.taskPricePatches then [] else info.otherRatios

def Estimate.submission (info : TaskInfo) : Submission :=
  ⟨none, e.modelName, e.quota, false, false, (priceAttempt info e).otherRatios.map Prod.snd, none,
    []⟩

theorem submission_price (r : RelaySettings) (info : TaskInfo) (e : Estimate) :
    (e.submission info).price r =
      applyRatios e.quota ((multipliedRatios r (priceAttempt info e)).map Prod.snd) := by
  by_cases hpatched : e.modelName ∈ r.taskPricePatches <;>
    simp [Submission.price, multipliedRatios, Estimate.submission, priceAttempt, applyRatios,
      hpatched]

theorem mem_added {r : String × ℚ} (ratios acc : Ratios)
    (hdistinct : (ratios.map Prod.fst).Nodup)
    (hnew : ∀ old ∈ acc, old.1 ∉ ratios.map Prod.fst) :
    r ∈ ratios.foldl addOtherRatio acc ↔ r ∈ acc ∨ r ∈ ratios ∧ 0 < r.2 := by
  induction ratios generalizing acc with
  | nil => simp
  | cons head ratios ih =>
    rw [map_cons, nodup_cons] at hdistinct
    have hstep : r ∈ addOtherRatio acc head ↔ r ∈ acc ∨ r = head ∧ 0 < head.2 := by
      unfold addOtherRatio setRatio
      split
      · grind
      · have hkeep : (acc.filter fun old => old.1 ≠ head.1) = acc :=
          filter_eq_self.mpr fun old hold => by grind
        rw [hkeep, mem_cons]
        grind
    rw [foldl_cons, ih _ hdistinct.2 ?_, hstep]
    · grind
    · intro old hold
      unfold addOtherRatio setRatio at hold
      grind

theorem addOtherRatio_pos {ratios : Ratios} (h : ∀ r ∈ ratios, 0 < r.2)
    (r : String × ℚ) : ∀ r' ∈ addOtherRatio ratios r, 0 < r'.2 := by
  unfold addOtherRatio setRatio
  split
  · exact h
  · grind

theorem remixRatios_pos : ∀ r ∈ remixRatios [] origin, 0 < r.2 := by
  unfold remixRatios
  split
  next old _ =>
    exact foldlRecOn (motive := fun ratios => ∀ r ∈ ratios, 0 < r.2) old addOtherRatio
      (fun r h => absurd h not_mem_nil) fun ratios h r _ => addOtherRatio_pos h r
  · simp only [setRatio, filter_nil, mem_cons]
    rintro r (rfl | hr)
    · split <;> norm_num
    · rw [(mem_filter.mp hr).1 |> mem_singleton.mp]
      dsimp only
      split
      · norm_num
      · exact_mod_cast not_le.mp ‹_›

theorem resolveOriginTask_ratios {w : Origins} {path videoID : String} {info resolved : TaskInfo}
    (h : resolveOriginTask w path videoID info = .ok resolved) :
    resolved.otherRatios = info.otherRatios ∨
      ∃ origin, resolved.otherRatios = remixRatios info.otherRatios origin := by
  unfold resolveOriginTask at h
  dsimp only at h
  repeat' split at h
  all_goals cases h
  all_goals grind

/-- In every attempt, the ratios of the original task are charged exactly where the adaptor
gives them again and the price of the model is not patched. -/
theorem origin_ratios_charged_iff (w : Origins) (path videoID : String) (info resolved : TaskInfo)
    (r : RelaySettings) (attempts : List Estimate) (e : Estimate) (hnew : info.otherRatios = [])
    (hresolved : resolveOriginTask w path videoID info = .ok resolved) :
    let before := attempts.foldl priceAttempt resolved
    let charged := multipliedRatios r (priceAttempt before e)
    (e.submission before).price r = applyRatios e.quota (charged.map Prod.snd) ∧
    ((∀ ratio ∈ resolved.otherRatios, ratio ∈ charged) ↔ resolved.otherRatios = [] ∨
      e.modelName ∉ r.taskPricePatches ∧ ∀ ratio ∈ resolved.otherRatios, ratio ∈ e.ratios) := by
  have hpos : ∀ ratio ∈ resolved.otherRatios, 0 < ratio.2 := by
    rcases resolveOriginTask_ratios hresolved with hsame | ⟨origin, hremix⟩
    · simp [hsame, hnew]
    · rw [hremix, hnew]
      exact remixRatios_pos origin
  refine ⟨submission_price r _ e, ?_⟩
  unfold multipliedRatios priceAttempt
  split
  next hpatched =>
    simp [hpatched, eq_nil_iff_forall_not_mem]
  next hpatched =>
    simp only [mem_added e.ratios [] e.distinct (by simp), not_mem_nil, false_or]
    grind

/-- A video of eight seconds that is remixed. -/
def remixOrigins : Origins :=
  ⟨fun _ => .ok (some ⟨1, "sora-2", "sora-2", "", some [("seconds", 8)], 0, ""⟩), fun _ => .ok true,
    fun _ => .ok ()⟩

def remixInfo : TaskInfo := ⟨"", "", "sora-2", 1, []⟩

def remixed : TaskInfo := ⟨taskActionRemix, "7", "sora-2", 1, [("seconds", 8)]⟩

def secondsEstimate : Estimate := ⟨"sora-2", 100, [("seconds", 8)], by decide⟩

theorem estimated_seconds_charged : remixed.otherRatios ⊆
    multipliedRatios plainSettings (priceAttempt remixed secondsEstimate) := fun ratio =>
  (origin_ratios_charged_iff remixOrigins "/v1/videos/7/remix" "7" remixInfo remixed plainSettings
    [] secondsEstimate rfl rfl).2.mpr (.inr ⟨by decide, fun _ h => h⟩) ratio

/-- The adaptor leaves the ratios of a remix to `ResolveOriginTask`, and eight seconds are charged
as one. -/
theorem origin_seconds_not_charged :
    resolveOriginTask remixOrigins "/v1/videos/7/remix" "7" remixInfo = .ok remixed ∧
    Submission.price plainSettings (Estimate.submission ⟨"sora-2", 100, [], by decide⟩ remixed) =
      100 ∧
    applyRatios 100 (remixed.otherRatios.map Prod.snd) = 800 :=
  ⟨rfl, by decide +kernel, by decide +kernel⟩

/-! ## Group ratios -/

/-- Ratios of groups, and those of a user group that uses another group. -/
structure GroupSettings where
  groupRatio : String → Option ℚ
  groupGroupRatio : String → Option (String → Option ℚ)

def GroupSettings.getGroupRatio (s : GroupSettings) (name : String) : ℚ :=
  (s.groupRatio name).getD 1

def GroupSettings.getGroupGroupRatio (s : GroupSettings) (userGroup usingGroup : String) :
    Option ℚ :=
  (s.groupGroupRatio userGroup).bind fun ratios => ratios usingGroup

/-- The special ratio of a user group in a group, or else that of the group. -/
def GroupSettings.ratio (s : GroupSettings) (userGroup group : String) : ℚ :=
  (s.getGroupGroupRatio userGroup group).getD (s.getGroupRatio group)

structure GroupRatioInfo where
  groupRatio : ℚ
  groupSpecialRatio : ℚ
  hasSpecialRatio : Bool

variable (s : GroupSettings) (autoGroup : Option String) (userGroup usingGroup : String)

/-- The group the request uses afterwards, and its ratio. -/
def handleGroupRatio : String × GroupRatioInfo :=
  let group := autoGroup.getD usingGroup
  (group, match s.getGroupGroupRatio userGroup group with
    | some ratio => ⟨ratio, ratio, true⟩
    | none => ⟨s.getGroupRatio group, -1, false⟩)

theorem handleGroupRatio_ratio : (handleGroupRatio s autoGroup userGroup usingGroup).2.groupRatio =
      s.ratio userGroup (autoGroup.getD usingGroup) := by
  unfold handleGroupRatio GroupSettings.ratio
  dsimp only
  split <;> simp [*]

/-- The answer of a finished task, with the settings of its submission. -/
def GroupSettings.completion (totalTokens : ℤ) (modelRatio : String → Option ℚ) : Completion :=
  ⟨0, totalTokens, modelRatio, s.getGroupRatio, s.getGroupGroupRatio, some userGroup⟩

/-- The ratio of `RecalculateTaskQuotaByTokens`: its own group takes the place of the user's. -/
def rebilledRatio (k : Completion) (task : Task) : ℚ :=
  (k.groupGroupRatio (k.group task) (k.group task)).getD (k.groupRatio (k.group task))

theorem quotaByTokens_ratio {k : Completion} {task : Task} {quota : ℤ}
    (h : quotaByTokens k task = some quota) :
    ∃ ratio, k.modelRatio (taskModelName task) = some ratio ∧
      quota = intPart (k.totalTokens * ratio * rebilledRatio k task * otherMultiplier task) := by
  unfold quotaByTokens at h
  split at h
  · cases h
  split at h
  · cases h
  rename_i ratio hratio
  split at h
  · cases h
  · exact ⟨ratio, hratio, (some.inj h).symm⟩

/-- The entry for a user of another group and that of the group itself come to the same; a task
without a group is billed as one of the user's group. -/
def SameRatio (group : String) : Prop :=
  if group = "" then s.ratio userGroup "" = s.ratio userGroup userGroup
  else
    s.getGroupGroupRatio userGroup group = s.getGroupGroupRatio group group ∨
    s.getGroupGroupRatio userGroup group = none ∧
      s.getGroupGroupRatio group group = some (s.getGroupRatio group) ∨
    s.getGroupGroupRatio userGroup group = some (s.getGroupRatio group) ∧
      s.getGroupGroupRatio group group = none

/-- A task is billed again at the ratio of its submission exactly where the entries agree. -/
theorem rebilled_ratio_iff (totalTokens : ℤ) (modelRatio : String → Option ℚ) (task : Task)
    (hgroup : task.group = (handleGroupRatio s autoGroup userGroup usingGroup).1) :
    let k := s.completion userGroup totalTokens modelRatio
    (∀ quota, quotaByTokens k task = some quota →
      ∃ ratio, modelRatio (taskModelName task) = some ratio ∧
        quota = intPart (totalTokens * ratio * rebilledRatio k task * otherMultiplier task)) ∧
    (rebilledRatio k task = (handleGroupRatio s autoGroup userGroup usingGroup).2.groupRatio ↔
      SameRatio s userGroup task.group) := by
  refine ⟨fun quota h => quotaByTokens_ratio h, ?_⟩
  rw [handleGroupRatio_ratio, show autoGroup.getD usingGroup = task.group from hgroup.symm]
  unfold SameRatio rebilledRatio Completion.group GroupSettings.completion GroupSettings.ratio
  dsimp only
  split
  next hempty =>
    rw [hempty, getD_some]
    exact eq_comm
  · cases s.getGroupGroupRatio userGroup task.group <;>
      cases s.getGroupGroupRatio task.group task.group <;> simp [eq_comm]

/-- A member of `vip` uses `default`, where everybody pays the same. -/
def sharedGroups : GroupSettings :=
  ⟨fun group => if group = "default" then some 2 else none, fun _ => none⟩

/-- Members of `vip` pay a half in `default`. -/
def specialGroups : GroupSettings :=
  { sharedGroups with groupGroupRatio := fun userGroup =>
      if userGroup = "vip" then some fun group => if group = "default" then some (1 / 2) else none
      else none }

def groupTask : Task := ⟨1, "default", 5, "video", .wallet, 0, 0, none⟩

theorem shared_ratio_rebilled :
    rebilledRatio (sharedGroups.completion "vip" 10 fun _ => some 1) groupTask =
    (handleGroupRatio sharedGroups none "vip" "default").2.groupRatio :=
  (rebilled_ratio_iff sharedGroups none "vip" "default" 10 (fun _ => some 1) groupTask rfl).2.mpr
    (.inl rfl)

theorem special_ratio_not_rebilled :
    groupTask.group = (handleGroupRatio specialGroups none "vip" "default").1 ∧
    (handleGroupRatio specialGroups none "vip" "default").2.groupRatio = 1 / 2 ∧
    rebilledRatio (specialGroups.completion "vip" 10 fun _ => some 1) groupTask = 2 := by
  decide +kernel

/-- A request between its attempts. -/
structure Relayed where
  usingGroup : String
  req : TextRequest

def withRatio (price : PriceData) (groupRatio : ℚ) : PriceData := { price with groupRatio }

def tieredPriceData (groupRatio : ℚ) : PriceData := ⟨false, 0, 0, groupRatio, 0, 0, 0, 0, 0, 0, []⟩

/-- `ModelPriceHelper`: an expression is frozen in a snapshot, with the ratio of the group. -/
def modelPriceHelper (tiered : Bool) (settings : PriceSettings) (promptTokens maxTokens : ℕ)
    (req : TextRequest) : Except Fault Relayed :=
  let (group, info) := handleGroupRatio s autoGroup userGroup usingGroup
  if tiered then do
    let price ← modelPriceHelperTiered { settings with groupRatio := info.groupRatio } promptTokens
      maxTokens req.input req.clock req.sprint
    pure ⟨group, { req with
      price := tieredPriceData info.groupRatio, snapshot := some price.snapshot }⟩
  else pure ⟨group, { req with price := withRatio req.price info.groupRatio, snapshot := none }⟩

/-- `getChannel` before a retry: the selection may have moved on to another automatic group. -/
def getChannel (r : Relayed) (autoGroup : Option String) : Relayed :=
  let (group, info) := handleGroupRatio s autoGroup userGroup r.usingGroup
  ⟨group, { r.req with price := withRatio r.req.price info.groupRatio }⟩

/-- The request with one ratio in the place of every group ratio that the settlement reads. -/
def atRatio (groupRatio : ℚ) (req : TextRequest) : TextRequest :=
  { req with
    price := withRatio req.price groupRatio
    snapshot := req.snapshot.map fun snap => { snap with groupRatio } }

/-- The price record has the ratio of the group, and the snapshot is the one of the pricing. -/
def Carries (snapshot : Option BillingSnapshot) (r : Relayed) : Prop :=
  r.req.price.groupRatio = s.ratio userGroup r.usingGroup ∧
  r.req.snapshot = snapshot

variable {s autoGroup userGroup usingGroup}

/-- The first group is full and the request goes on to one at twice the price. -/
def autoGroups : GroupSettings :=
  ⟨fun group => if group = "a" then some 1 else if group = "b" then some 2 else none, fun _ => none⟩

def searching : TextRequest :=
  { plainText with tools := ⟨none, 1, none⟩, toolPrices := ⟨0, 10, 0, 0⟩ }

/-- `p * 2` -/
def promptExpr : Expr := .arith .mul (.var .p) (.int 2)

def playRetry (tiered : Bool) : Option (Relayed × Relayed) :=
  (modelPriceHelper autoGroups (some "a") "" "auto" tiered (plainPrices promptExpr) 1000 0
    searching).toOption.map fun priced =>
      (priced, [some "b"].foldl (getChannel autoGroups "") priced)

end RequestPricing
