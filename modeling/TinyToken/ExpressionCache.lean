import TinyToken.EnabledSteps
import TinyToken.TieredBilling

/-! The cache of compiled billing expressions (`pkg/billingexpr/compile.go`) under any number of
concurrent calls. The digest that keys it stands for the text. -/
namespace ExpressionCache

open GoText BillingExpressions TieredBilling

def maxCacheSize : ℕ := 256

def parseExprVersion (exprStr : String) : ℕ × String :=
  if hasLead exprStr "v1:" then (1, trimLead exprStr "v1:") else (1, exprStr)

/-- Where a call stands. `used` tells that `UsedVars` waits for the compilation. -/
inductive Stage where
  | usedVars
  | lookup (used : Bool)
  | store (used : Bool) (prog : Expr)
  | reread
  | compiled
  | returned (vars : Option (Var → Bool))

structure State (ι : Type) where
  cache : String → Option Expr
  size : ℕ
  stage : ι → Stage

inductive Action (ι : Type) where
  | call (i : ι)
  | invalidateCache

variable {ι : Type} (parse : String → Option Expr) (exprStr : ι → String)
  (s : State ι)

/-- An empty text does not compile. -/
def compile (text : String) : Option Expr :=
  if (parseExprVersion text).2 = "" then none
  else (parse (parseExprVersion text).2).filter Expr.compiles

def extractUsedVars (prog : Expr) (v : Var) : Bool := prog.uses v

def State.goesTo [DecidableEq ι] (i : ι) (stage : Stage) : State ι :=
  { s with stage := Function.update s.stage i stage }

def State.full : Bool := maxCacheSize ≤ s.size

def State.put (key : String) (prog : Expr) : State ι :=
  { s with
    cache := Function.update (if s.full then fun _ => none else s.cache) key (some prog)
    size := if s.full then 1 else if (s.cache key).isSome then s.size else s.size + 1 }

def afterCompile (used : Bool) : Stage := if used then .reread else .compiled

/-- One critical section, with what follows it up to the next. -/
def step [DecidableEq ι] : Action ι → State ι → Option (State ι)
  | .invalidateCache, s => some { s with cache := fun _ => none, size := 0 }
  | .call i, s =>
    match s.stage i with
    | .usedVars =>
      if exprStr i = "" then some (s.goesTo i (.returned none))
      else match s.cache (exprStr i) with
        | some prog => some (s.goesTo i (.returned (some (extractUsedVars prog))))
        | none => some (s.goesTo i (.lookup true))
    | .lookup used =>
      match s.cache (exprStr i), compile parse (exprStr i) with
      | some _, _ => some (s.goesTo i (afterCompile used))
      | none, some prog => some (s.goesTo i (.store used prog))
      | none, none => some (s.goesTo i (.returned none))
    | .store used prog => some ((s.put (exprStr i) prog).goesTo i (afterCompile used))
    | .reread => some (s.goesTo i (.returned ((s.cache (exprStr i)).map extractUsedVars)))
    | .compiled | .returned _ => none

def start (used : ι → Bool) : State ι :=
  ⟨fun _ => none, 0, fun i => if used i then .usedVars else .lookup false⟩

def Empties : Action ι → Prop
  | .invalidateCache => True
  | .call i => (∃ used prog, s.stage i = .store used prog) ∧ s.full

/-- The cache is not emptied while a call of `UsedVars` has compiled and not read again. -/
def QuietStep [DecidableEq ι] (s t : State ι) : Prop :=
  ∃ action, step parse exprStr action s = some t ∧ (Empties s action → ∀ i, s.stage i ≠ .reread)

def Stage.Sound (cache : String → Option Expr) (text : String) : Stage → Prop
  | .store _ prog => compile parse text = some prog
  | .reread => (cache text).isSome
  | .returned vars => vars = (compile parse text).map extractUsedVars
  | _ => True

structure Sound : Prop where
  cache : ∀ text prog, s.cache text = some prog → compile parse text = some prog
  stages : ∀ i, (s.stage i).Sound parse s.cache (exprStr i)

variable {parse exprStr s} {t : State ι} {i : ι} {stage : Stage} {cache : String → Option Expr}

theorem Stage.Sound.kept {text : String} {cache' : String → Option Expr}
    (h : stage.Sound parse cache text)
    (hkept : stage = .reread → (cache text).isSome → (cache' text).isSome) :
    stage.Sound parse cache' text := by
  cases stage with
  | reread => exact hkept rfl h
  | _ => exact h

theorem sound_afterCompile {text : String} (used : Bool) (h : (cache text).isSome) :
    (afterCompile used).Sound parse cache text := by
  cases used with
  | false => trivial
  | true => exact h

section

variable (h : Sound parse exprStr s)
include h

theorem Sound.goesTo [DecidableEq ι] (hstage : stage.Sound parse s.cache (exprStr i)) :
    Sound parse exprStr (s.goesTo i stage) := by
  refine ⟨h.cache, fun j => ?_⟩
  by_cases hj : j = i
  · subst hj
    simpa [State.goesTo] using hstage
  · simpa [State.goesTo, hj] using h.stages j

theorem Sound.put {prog : Expr} (hprog : compile parse (exprStr i) = some prog)
    (hquiet : s.full → ∀ j, s.stage j ≠ .reread) : Sound parse exprStr (s.put (exprStr i) prog) := by
  refine ⟨fun text found hfound => ?_, fun j => (h.stages j).kept fun hj hsome => ?_⟩
  · by_cases htext : text = exprStr i
    · simp_all [State.put]
    · cases hfull : s.full <;> simp_all [State.put, h.cache]
  · cases hfull : s.full
    · by_cases htext : exprStr j = exprStr i <;> simp_all [State.put]
    · exact absurd hj (hquiet hfull j)

theorem Sound.step [DecidableEq ι] (hstep : QuietStep parse exprStr s t) : Sound parse exprStr t := by
  obtain ⟨action, hstep, hquiet⟩ := hstep
  cases action with
  | invalidateCache =>
    cases hstep
    exact ⟨nofun, fun j =>
      (h.stages j).kept fun hj => absurd hj (hquiet trivial j)⟩
  | call i =>
    have hi := h.stages i
    simp only [ExpressionCache.step] at hstep
    split at hstep
    next =>
      split at hstep
      next htext =>
        cases hstep
        exact h.goesTo (by rw [htext]; rfl)
      next =>
        split at hstep <;> cases hstep
        next prog hprog => exact h.goesTo (by rw [Stage.Sound, h.cache _ _ hprog]; rfl)
        next => exact h.goesTo trivial
    next used hstage =>
      split at hstep <;> cases hstep
      next prog hprog => exact h.goesTo (sound_afterCompile used (by rw [hprog]; rfl))
      next prog _ hprog => exact h.goesTo hprog
      next _ hprog => exact h.goesTo (by rw [Stage.Sound, hprog]; rfl)
    next used prog hstage =>
      cases hstep
      rw [hstage] at hi
      exact (h.put hi fun hfull => hquiet ⟨⟨used, prog, hstage⟩, hfull⟩).goesTo
        (sound_afterCompile used (by simp [State.put]))
    next hstage =>
      cases hstep
      rw [hstage] at hi
      obtain ⟨prog, hprog⟩ := Option.isSome_iff_exists.mp hi
      exact h.goesTo (by rw [Stage.Sound, hprog, h.cache _ _ hprog])
    all_goals cases hstep

end

theorem sound_start (used : ι → Bool) : Sound parse exprStr (start used) := by
  refine ⟨nofun, fun i => ?_⟩
  cases hused : used i <;> simp [start, hused, Stage.Sound]

variable [DecidableEq ι]

/-- In a run of such steps `UsedVars` finds the variables of an expression that compiles, and what
it prices on its own is taken out. -/
theorem usedVars_of_quiet (parse : String → Option Expr) (exprStr : ι → String) (used : ι → Bool)
    (t : State ι) (hrun : Relation.ReflTransGen (QuietStep parse exprStr) (start used) t) :
    ∀ i prog vars, compile parse (exprStr i) = some prog → t.stage i = .returned vars →
      vars = some (extractUsedVars prog) ∧
      ∀ u claude, buildTieredTokenParams u claude (vars.getD fun _ => false) =
        buildTieredTokenParams u claude (extractUsedVars prog) := by
  have hsound : Sound parse exprStr t := by
    induction hrun with
    | refl => exact sound_start used
    | tail _ hstep ih => exact ih.step hstep
  intro i prog vars hprog hvars
  have hi := hsound.stages i
  rw [hvars, Stage.Sound, hprog] at hi
  subst hi
  exact ⟨rfl, fun _ _ => rfl⟩

def cachedPrice (_ : String) : Option Expr := some (.var .cr)

def cachedText (_ : Unit) : String := "cr"

theorem single_call_finds : ∃ t vars, EnabledSteps.run (step cachedPrice cachedText)
    [.call (), .call (), .call (), .call ()] (start fun _ => true) = some t ∧
    t.stage () = .returned vars ∧ vars = some (extractUsedVars (.var .cr)) := by
  have hcall : ∀ {s t}, step cachedPrice cachedText (.call ()) s = some t → s.full = false →
    QuietStep cachedPrice cachedText s t :=
    fun h hfull => ⟨_, h, fun hempties => by simp [Empties, hfull] at hempties⟩
  exact ⟨_, _, rfl, rfl, (usedVars_of_quiet cachedPrice cachedText (fun _ => true) _
    (.head (hcall rfl rfl) (.head (hcall rfl rfl) (.head (hcall rfl rfl) (.single (hcall rfl rfl)))))
    () _ _ rfl rfl).1⟩

theorem invalidated_vars_lost : ∃ t, EnabledSteps.run (step cachedPrice cachedText)
    [.call (), .call (), .call (), .invalidateCache, .call ()] (start fun _ => true) = some t ∧
    t.stage () = .returned none ∧ compile cachedPrice "cr" = some (.var .cr) ∧
    (buildTieredTokenParams { plainUsage 100 0 with cachedTokens := 30 } false
      fun _ => false).p = 100 ∧
    (buildTieredTokenParams { plainUsage 100 0 with cachedTokens := 30 } false
      (extractUsedVars (.var .cr))).p = 70 :=
  ⟨_, rfl, rfl, rfl, by decide +kernel, by decide +kernel⟩

end ExpressionCache
