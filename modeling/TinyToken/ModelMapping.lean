import TinyToken.GoText
import TinyToken.LinkChains
import TinyToken.StepMachines

/-! The model name that is sent upstream. A channel maps model names to others, links in a chain
are followed to its end, and the same `RelayInfo` goes through all attempts of a request. What
the handlers later make of the upstream name (suffixes that ask for thinking) is left out, except
where it changes the name the next attempt starts from. -/
namespace ModelMapping

open LinkChains StepMachines GoText List

def compactModelSuffix : String := "-openai-compact"

def hasSuffix (s tail : String) : Bool := tail.toList.isSuffixOf s.toList

def trimSuffix (s tail : String) : String :=
  if hasSuffix s tail then String.ofList (s.toList.take (s.toList.length - tail.toList.length))
  else s

def withCompactModelSuffix (modelName : String) : String :=
  if hasSuffix modelName compactModelSuffix then modelName else modelName ++ compactModelSuffix

theorem hasSuffix_append (s tail : String) : hasSuffix (s ++ tail) tail = true := by
  simp [hasSuffix, isSuffixOf_iff_suffix]

theorem trimSuffix_append (s tail : String) : trimSuffix (s ++ tail) tail = s := by
  rw [trimSuffix, if_pos (hasSuffix_append s tail)]
  simp

/-- The text of a channel's `model_mapping`. -/
inductive Mapping where
  /-- no text, or `{}` -/
  | unset
  | malformed
  | entries (modelMap : List (String × String))

def mappedModel (modelMap : List (String × String)) (currentModel : String) : Option String :=
  (modelMap.lookup currentModel).filter (· ≠ "")

def Mapping.next : Mapping → String → Option String
  | .entries modelMap => mappedModel modelMap
  | _ => fun _ => none

inductive LoopExit where
  | unchanged
  | finished (currentModel : String) (isModelMapped : Bool)
  | cycle (isModelMapped : Bool)

/-- The loop of `ModelMappedHelper`, for a number of rounds; none while it goes on. -/
def mappingLoop (modelMap : List (String × String)) (originModelName : String) :
    ℕ → String → List String → Bool → Option LoopExit
  | 0, _, _, _ => none
  | fuel + 1, currentModel, visitedModels, isModelMapped =>
    match mappedModel modelMap currentModel with
    | some mappedModel =>
      if mappedModel ∈ visitedModels then
        if mappedModel = currentModel then
          if currentModel = originModelName then some .unchanged
          else some (.finished currentModel true)
        else some (.cycle isModelMapped)
      else mappingLoop modelMap originModelName fuel mappedModel (mappedModel :: visitedModels) true
    | none => some (.finished currentModel isModelMapped)

inductive Kind where
  | plain
  /-- `/v1/responses/compact` -/
  | compact
  | gemini (noThinking : Bool)
  deriving DecidableEq

structure RelayInfo where
  originModelName : String
  upstreamModelName : String
  isModelMapped : Bool

structure Settings where
  thinkingAdapterEnabled : Bool
  hasModelBillingConfig : String → Bool

/-- The part of `InitChannelMeta` that concerns names: the context holds the original model. -/
def initChannelMeta (info : RelayInfo) : RelayInfo :=
  { info with upstreamModelName := info.originModelName, isModelMapped := false }

def mappingModelName (kind : Kind) (originModelName : String) : String :=
  if kind = .compact ∧ hasSuffix originModelName compactModelSuffix then
    trimSuffix originModelName compactModelSuffix
  else originModelName

/-- The end of `ModelMappedHelper`. -/
def setCompactNames (kind : Kind) (mappingModelName : String) (info : RelayInfo) : RelayInfo :=
  if kind = .compact then
    let finalUpstreamModelName :=
      if info.isModelMapped ∧ info.upstreamModelName ≠ "" then info.upstreamModelName
      else mappingModelName
    { info with
      upstreamModelName := finalUpstreamModelName
      originModelName := withCompactModelSuffix finalUpstreamModelName }
  else info

inductive Reply where
  | running
  | error (message : String)
  | ok

def modelMappedHelper (kind : Kind) (info : RelayInfo) : Mapping → Reply × RelayInfo
  | .unset => (.ok, setCompactNames kind (mappingModelName kind info.originModelName) info)
  | .malformed => (.error "unmarshal_model_mapping_failed", info)
  | .entries modelMap =>
    let start := mappingModelName kind info.originModelName
    match mappingLoop modelMap info.originModelName (modelMap.length + 2) start [start]
      info.isModelMapped with
    | none => (.running, info)
    | some .unchanged => (.ok, { info with isModelMapped := false })
    | some (.cycle isModelMapped) =>
      (.error "model_mapping_contains_cycle", { info with isModelMapped := isModelMapped })
    | some (.finished currentModel isModelMapped) =>
      (.ok, setCompactNames kind start
        ⟨info.originModelName, if isModelMapped then currentModel else info.upstreamModelName,
          isModelMapped⟩)

variable (cfg : Settings) {info : RelayInfo} {mapping : Mapping}

/-- `GeminiHelper` bills a request without thinking under its own name, if that has a price. -/
def renameNoThinking (kind : Kind) (info : RelayInfo) : RelayInfo :=
  if kind = .gemini true ∧ cfg.thinkingAdapterEnabled ∧
      contains info.originModelName "-nothinking" = false ∧
      cfg.hasModelBillingConfig (info.originModelName ++ "-nothinking") then
    { info with
      originModelName := info.originModelName ++ "-nothinking"
      upstreamModelName := info.originModelName ++ "-nothinking" }
  else info

inductive Attempted where
  | running
  | error (message : String)
  | upstream (modelName : String)
  deriving DecidableEq

/-- One attempt; the upstream name is the one `ModelMappedHelper` leaves. -/
def attempt (kind : Kind) (info : RelayInfo) (mapping : Mapping) : Attempted × RelayInfo :=
  match modelMappedHelper kind (initChannelMeta info) mapping with
  | (.running, info) => (.running, info)
  | (.error message, info) => (.error message, info)
  | (.ok, info) => (.upstream info.upstreamModelName, renameNoThinking cfg kind info)

def start (kind : Kind) (clientModel : String) : RelayInfo :=
  ⟨if kind = .compact ∧ clientModel ≠ "" then withCompactModelSuffix clientModel else clientModel,
    "", false⟩

inductive Agrees (originModelName first : String) (isModelMapped : Bool) :
    Option LoopExit → Option (Outcome String) → Prop where
  | running : Agrees originModelName first isModelMapped none none
  | unchanged : Agrees originModelName first isModelMapped (some .unchanged)
      (some (.settled originModelName))
  | settled (last : String) (h : last ≠ originModelName) :
      Agrees originModelName first isModelMapped (some (.finished last true)) (some (.settled last))
  | moved (last : String) :
      Agrees originModelName first isModelMapped (some (.finished last true)) (some (.ended last))
  | stayed : Agrees originModelName first isModelMapped (some (.finished first isModelMapped))
      (some (.ended first))
  | cycle (mapped : Bool) :
      Agrees originModelName first isModelMapped (some (.cycle mapped)) (some .cycle)

theorem Agrees.step {originModelName first y : String} {isModelMapped : Bool}
    {exit : Option LoopExit} {outcome : Option (Outcome String)}
    (h : Agrees originModelName y true exit outcome) :
    Agrees originModelName first isModelMapped exit outcome := by
  cases h with
  | running => exact .running
  | unchanged => exact .unchanged
  | settled last h => exact .settled last h
  | moved last => exact .moved last
  | stayed => exact .moved y
  | cycle mapped => exact .cycle mapped

theorem mappingLoop_agrees (modelMap : List (String × String)) (originModelName : String)
    (fuel : ℕ) (first : String) (visitedModels : List String) (isModelMapped : Bool) :
    Agrees originModelName first isModelMapped
      (mappingLoop modelMap originModelName fuel first visitedModels isModelMapped)
      (follow (mappedModel modelMap) fuel first visitedModels) := by
  induction fuel generalizing first visitedModels isModelMapped with
  | zero => exact .running
  | succ fuel ih =>
    unfold mappingLoop follow
    cases hnext : mappedModel modelMap first with
    | none => exact .stayed
    | some y =>
      dsimp only
      by_cases hmem : y ∈ visitedModels
      · rw [if_pos hmem, if_pos hmem]
        by_cases hself : y = first
        · rw [if_pos hself, if_pos hself]
          by_cases horigin : first = originModelName
          · rw [if_pos horigin, horigin]
            exact .unchanged
          · rw [if_neg horigin]
            exact .settled first horigin
        · rw [if_neg hself, if_neg hself]
          exact .cycle isModelMapped
      · rw [if_neg hmem, if_neg hmem]
        exact (ih y (y :: visitedModels) true).step

variable {modelMap : List (String × String)}

theorem mappedModel_ne_empty {x y : String} (h : mappedModel modelMap x = some y) : y ≠ "" := by
  simpa using (Option.filter_eq_some_iff.mp h).2

theorem reaches_ne_empty {x y : String}
    (h : Reaches (mappedModel modelMap) x y) : y = x ∨ y ≠ "" := by
  cases h with
  | refl => exact .inl rfl
  | tail _ hlink => exact .inr (mappedModel_ne_empty hlink)

theorem mem_keys {x : String} (h : mappedModel modelMap x ≠ none) : x ∈ modelMap.map Prod.fst := by
  by_contra hx
  apply h
  have hnone : modelMap.lookup x = none := by
    rw [lookup_eq_none_iff]
    intro p hp
    rw [bne_iff_ne]
    rintro rfl
    exact hx (mem_map.mpr ⟨p, hp, rfl⟩)
  rw [mappedModel, hnone]
  rfl

theorem walk_stops (modelMap : List (String × String)) (first : String) :
    follow (mappedModel modelMap) (modelMap.length + 2) first [first] ≠ none := by
  apply follow_stops (modelMap.map Prod.fst) fun _ => mem_keys
  have hle := length_filter_le (fun x => decide (x ∉ [first])) (modelMap.map Prod.fst)
  rw [length_map] at hle
  omega

inductive Finds (next : String → Option String) (first : String) (r : Reply × RelayInfo) : Prop where
  | cycle (h : RunsIntoCycle next first) (hr : r.1 = .error "model_mapping_contains_cycle")
  | last (h : EndsAt next first r.2.upstreamModelName) (hr : r.1 = .ok)

variable {kind : Kind}

theorem setCompactNames_upstream {first : String} :
    (setCompactNames kind first info).upstreamModelName =
      if kind = .compact ∧ ¬ (info.isModelMapped = true ∧ info.upstreamModelName ≠ "") then first
      else info.upstreamModelName := by
  unfold setCompactNames
  by_cases hk : kind = .compact
  · by_cases hm : info.isModelMapped = true ∧ info.upstreamModelName ≠ ""
    · simp [hk, hm]
    · simp [hk, hm]
  · simp [hk]

theorem setCompactNames_mapped {first last origin : String} (h : last = first ∨ last ≠ "") :
    (setCompactNames kind first ⟨origin, last, true⟩).upstreamModelName = last := by
  rw [setCompactNames_upstream]
  split
  next hc =>
    rcases h with rfl | h
    · rfl
    · exact absurd ⟨rfl, h⟩ hc.2
  · rfl

theorem setCompactNames_unmapped {origin : String} :
    (setCompactNames kind (mappingModelName kind origin) ⟨origin, origin, false⟩).upstreamModelName =
      mappingModelName kind origin := by
  rw [setCompactNames_upstream]
  by_cases hk : kind = .compact
  · simp [hk]
  · simp [hk, mappingModelName]

theorem modelMappedHelper_finds (kind : Kind) (info : RelayInfo) {mapping : Mapping}
    (hm : mapping ≠ .malformed) :
    Finds mapping.next (mappingModelName kind info.originModelName)
      (modelMappedHelper kind (initChannelMeta info) mapping) := by
  obtain ⟨origin, upstream, mapped⟩ := info
  cases mapping with
  | malformed => exact absurd rfl hm
  | unset =>
    refine .last ?_ rfl
    change EndsAt (fun _ => none) _ (setCompactNames _ _ _).upstreamModelName
    rw [initChannelMeta, setCompactNames_unmapped]
    exact ⟨.refl, .inl rfl⟩
  | entries modelMap =>
    unfold modelMappedHelper initChannelMeta
    dsimp only
    have hagrees := mappingLoop_agrees modelMap origin (modelMap.length + 2)
      (mappingModelName kind origin) [mappingModelName kind origin] false
    have hstops := walk_stops modelMap (mappingModelName kind origin)
    have hholds : ∀ outcome, follow (mappedModel modelMap) (modelMap.length + 2)
        (mappingModelName kind origin) [mappingModelName kind origin] = some outcome →
        outcome.Holds (mappedModel modelMap) (mappingModelName kind origin) := by
      intro outcome houtcome
      refine follow_holds .refl ?_ houtcome
      intro v hv
      rw [mem_singleton.mp hv]
      exact .refl
    revert hstops hholds
    generalize mappingLoop modelMap origin (modelMap.length + 2) (mappingModelName kind origin)
      [mappingModelName kind origin] false = exit at hagrees ⊢
    generalize follow (mappedModel modelMap) (modelMap.length + 2) (mappingModelName kind origin)
      [mappingModelName kind origin] = outcome at hagrees ⊢
    cases hagrees with
    | running =>
      intro hstops
      exact absurd rfl hstops
    | unchanged =>
      intro _ hholds
      obtain ⟨hreach, hself⟩ := hholds _ rfl
      exact .last ⟨hreach, .inr hself⟩ rfl
    | settled last hne =>
      intro _ hholds
      obtain ⟨hreach, hself⟩ := hholds _ rfl
      refine .last ?_ rfl
      dsimp only
      rw [if_pos rfl, setCompactNames_mapped (.inr (mappedModel_ne_empty hself))]
      exact ⟨hreach, .inr hself⟩
    | moved last =>
      intro _ hholds
      obtain ⟨hreach, hnone⟩ := hholds _ rfl
      refine .last ?_ rfl
      dsimp only
      rw [if_pos rfl, setCompactNames_mapped (reaches_ne_empty hreach)]
      exact ⟨hreach, .inl hnone⟩
    | stayed =>
      intro _ hholds
      obtain ⟨hreach, hnone⟩ := hholds _ rfl
      refine .last ?_ rfl
      dsimp only
      rw [if_neg Bool.false_ne_true, setCompactNames_unmapped]
      exact ⟨hreach, .inl hnone⟩
    | cycle mapped =>
      intro _ hholds
      exact .cycle (hholds _ rfl) rfl

/-- A channel after which the next attempt still starts from the name the client asked for: a
compact request is not mapped to another name, and a request without thinking is not billed
under a name of its own. -/
def KeepsName (kind : Kind) (clientModel : String) (mapping : Mapping) : Prop :=
  (kind = .compact →
    mapping.next clientModel = none ∨ mapping.next clientModel = some clientModel) ∧
  (kind = .gemini true → ¬ (cfg.thinkingAdapterEnabled = true ∧
    contains clientModel "-nothinking" = false ∧
    cfg.hasModelBillingConfig (clientModel ++ "-nothinking") = true))

instance (cfg : Settings) (kind : Kind) (clientModel : String) (mapping : Mapping) :
    Decidable (KeepsName cfg kind clientModel mapping) :=
  inferInstanceAs (Decidable ((_ → _ ∨ _) ∧ (_ → ¬ _)))

def StartsFrom (kind : Kind) (clientModel : String) (info : RelayInfo) : Prop :=
  mappingModelName kind info.originModelName = clientModel

theorem mappingModelName_of_ne (hk : kind ≠ .compact) (name : String) :
    mappingModelName kind name = name :=
  if_neg fun h => hk h.1

theorem mappingModelName_compact {name : String} (h : hasSuffix name compactModelSuffix = false) :
    mappingModelName .compact (withCompactModelSuffix name) = name := by
  rw [withCompactModelSuffix, h, if_neg Bool.false_ne_true, mappingModelName,
    if_pos ⟨rfl, hasSuffix_append name compactModelSuffix⟩, trimSuffix_append]

variable {clientModel : String}

theorem modelMappedHelper_origin (kind : Kind) (info : RelayInfo) (mapping : Mapping) :
    (modelMappedHelper kind info mapping).2.originModelName = info.originModelName ∨
      kind = .compact ∧ (modelMappedHelper kind info mapping).2.originModelName =
        withCompactModelSuffix (modelMappedHelper kind info mapping).2.upstreamModelName := by
  have hset : ∀ first info', (setCompactNames kind first info').originModelName = info'.originModelName ∨
      kind = .compact ∧ (setCompactNames kind first info').originModelName =
        withCompactModelSuffix (setCompactNames kind first info').upstreamModelName := by
    intro first info'
    unfold setCompactNames
    by_cases hk : kind = .compact
    · rw [if_pos hk]
      exact .inr ⟨hk, rfl⟩
    · rw [if_neg hk]
      exact .inl rfl
  cases mapping with
  | unset => exact hset _ _
  | malformed => exact .inl rfl
  | entries modelMap =>
    unfold modelMappedHelper
    dsimp only
    split
    · exact .inl rfl
    · exact .inl rfl
    · exact .inl rfl
    · exact hset _ _

theorem attempt_state (kind : Kind) (info : RelayInfo) (mapping : Mapping) :
    (attempt cfg kind info mapping).2 = (modelMappedHelper kind (initChannelMeta info) mapping).2 ∨
      (attempt cfg kind info mapping).2 =
        renameNoThinking cfg kind (modelMappedHelper kind (initChannelMeta info) mapping).2 := by
  unfold attempt
  split
  next h =>
    exact .inl (by rw [h])
  next h =>
    exact .inl (by rw [h])
  next h =>
    exact .inr (by rw [h])

section

variable (hs : kind = .compact → hasSuffix clientModel compactModelSuffix = false)
include hs

theorem start_startsFrom :
    StartsFrom kind clientModel (start kind clientModel) := by
  unfold StartsFrom start
  by_cases hk : kind = .compact
  · subst hk
    by_cases hempty : clientModel = ""
    · subst hempty
      decide
    · simp only [hempty, ne_eq, not_false_eq_true, and_self, if_true]
      exact mappingModelName_compact (hs rfl)
  · simp only [hk, false_and, if_false]
    exact mappingModelName_of_ne hk clientModel

theorem helper_startsFrom (h : StartsFrom kind clientModel info) (hend : kind = .compact →
      mapping.next clientModel = none ∨ mapping.next clientModel = some clientModel) :
    StartsFrom kind clientModel (modelMappedHelper kind (initChannelMeta info) mapping).2 := by
  rcases modelMappedHelper_origin kind (initChannelMeta info) mapping with horigin | ⟨hk, horigin⟩
  · rw [StartsFrom, horigin]
    exact h
  · subst hk
    by_cases hm : mapping = .malformed
    · subst hm
      exact h
    have hfinds := modelMappedHelper_finds .compact info hm
    rw [h] at hfinds
    have hclient : EndsAt mapping.next clientModel clientModel := ⟨.refl, hend rfl⟩
    cases hfinds with
    | cycle hcycle _ => exact absurd hcycle hclient.not_cycle
    | last hlast _ =>
      rw [StartsFrom, horigin, hlast.unique hclient]
      exact mappingModelName_compact (hs rfl)

theorem attempt_startsFrom {cfg : Settings} (h : StartsFrom kind clientModel info)
    (hkeeps : KeepsName cfg kind clientModel mapping) :
    StartsFrom kind clientModel (attempt cfg kind info mapping).2 := by
  have hhelper := helper_startsFrom hs h hkeeps.1
  rcases attempt_state cfg kind info mapping with hstate | hstate
  · rw [hstate]
    exact hhelper
  · rw [hstate, renameNoThinking, if_neg]
    · exact hhelper
    · rintro ⟨hk, hrename⟩
      have horigin : (modelMappedHelper kind (initChannelMeta info) mapping).2.originModelName =
          clientModel := by
        rw [← hhelper, mappingModelName_of_ne (by rw [hk]; exact nofun)]
      rw [horigin] at hrename
      exact hkeeps.2 hk hrename

end

def attemptAfter (kind : Kind) (clientModel : String) (earlier : List Mapping) (mapping : Mapping) :
    Attempted :=
  (attempt cfg kind (after (attempt cfg kind) (start kind clientModel) earlier) mapping).1

/-- In every attempt the upstream name is the end of the channel's chain from the name the client
asked for, and the attempt fails exactly if that chain runs into a cycle, if the channels tried
before keep that name. -/
theorem attempts_find_chain_end (cfg : Settings) (kind : Kind) (clientModel : String)
    (hsuffix : kind = .compact → hasSuffix clientModel compactModelSuffix = false)
    (earlier : List Mapping) (hearlier : ∀ m ∈ earlier, KeepsName cfg kind clientModel m)
    (mapping : Mapping) (hmapping : mapping ≠ .malformed) :
    attemptAfter cfg kind clientModel earlier mapping ≠ .running ∧
      ((∃ message, attemptAfter cfg kind clientModel earlier mapping = .error message) ↔
        RunsIntoCycle mapping.next clientModel) ∧
      (∀ name, attemptAfter cfg kind clientModel earlier mapping = .upstream name ↔
        EndsAt mapping.next clientModel name) := by
  have hstart : StartsFrom kind clientModel
      (after (attempt cfg kind) (start kind clientModel) earlier) := by
    refine invariant_after ?_ (start_startsFrom hsuffix) (along_of_forall hearlier _)
    intro info m h hm
    exact attempt_startsFrom hsuffix h hm
  unfold attemptAfter
  generalize after (attempt cfg kind) (start kind clientModel) earlier = info at hstart ⊢
  unfold attempt
  have hfinds := modelMappedHelper_finds kind info hmapping
  rw [hstart] at hfinds
  generalize modelMappedHelper kind (initChannelMeta info) mapping = r at hfinds ⊢
  obtain ⟨reply, info'⟩ := r
  cases hfinds with
  | cycle hcycle hr =>
    cases hr
    refine ⟨nofun, ⟨fun _ => hcycle, fun _ => ⟨_, rfl⟩⟩, ?_⟩
    intro name
    exact ⟨nofun, fun hend => absurd hcycle hend.not_cycle⟩
  | last hlast hr =>
    cases hr
    refine ⟨nofun, ⟨nofun, fun hcycle => absurd hcycle hlast.not_cycle⟩, ?_⟩
    intro name
    constructor
    · intro hname
      cases hname
      exact hlast
    · intro hend
      exact congrArg Attempted.upstream (hlast.unique hend)

def noSettings : Settings := ⟨false, fun _ => false⟩

/-- A chain of two links is followed in the second attempt of a plain request. -/
theorem second_attempt_follows_chain :
    attemptAfter noSettings .plain "a" [.entries [("a", "x")]] (.entries [("a", "b"), ("b", "c")]) =
      .upstream "c" :=
  ((attempts_find_chain_end noSettings .plain "a" nofun [.entries [("a", "x")]] (by decide)
    (.entries [("a", "b"), ("b", "c")]) nofun).2.2 "c").mpr
    ⟨.tail (.tail .refl (show mappedModel _ "a" = some "b" by decide))
      (show mappedModel _ "b" = some "c" by decide), .inl (by decide)⟩

/-- The second attempt of a compact request starts from what the first channel mapped to. -/
theorem compact_retry_starts_mapped :
    ∃ (cfg : Settings) (clientModel name : String) (earlier : List Mapping) (mapping : Mapping),
      attemptAfter cfg .compact clientModel earlier mapping = .upstream name ∧
        EndsAt mapping.next clientModel clientModel ∧ name ≠ clientModel :=
  ⟨noSettings, "gpt-5", "gpt-5-a", [.entries [("gpt-5", "gpt-5-a")]], .unset, by decide +kernel,
    ⟨.refl, .inl rfl⟩, by decide⟩

end ModelMapping
