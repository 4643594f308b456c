import Mathlib

/-! Steps that change a state and emit events, and monitors that read the events. A contract says
that from states and monitors in one relation the monitor accepts what the step emits and comes
with the state into another relation. -/
namespace EmittingMachines

variable {S E M C : Type*}

/-- A step that emits events. -/
abbrev Emit (S E : Type*) := S → List E × S

def emit (es : List E) : Emit S E := fun s => (es, s)

def andThen (f g : Emit S E) : Emit S E := fun s => ((f s).1 ++ (g (f s).2).1, (g (f s).2).2)

/-- One step for each element of a list. -/
def emitAll (step : C → Emit S E) : List C → Emit S E
  | [] => emit []
  | c :: cs => andThen (step c) (emitAll step cs)

/-- A monitor reads events as long as it accepts them. -/
def watch (accept : M → E → Option M) : M → List E → Option M
  | m, [] => some m
  | m, e :: es => (accept m e).bind fun m' => watch accept m' es

variable {accept : M → E → Option M}

theorem watch_append (m : M) (es fs : List E) :
    watch accept m (es ++ fs) = (watch accept m es).bind fun m' => watch accept m' fs := by
  induction es generalizing m with
  | nil => rfl
  | cons e es ih =>
    simp only [List.cons_append, watch]
    cases accept m e with
    | none => rfl
    | some m' => exact ih m'

variable (accept)

/-- From states and monitors related by `P`, the events of the step are accepted, and state and
monitor are then related by `Q`. -/
def Leads (P : S → M → Prop) (f : Emit S E) (Q : S → M → Prop) : Prop :=
  ∀ s m, P s m → ∃ m', watch accept m (f s).1 = some m' ∧ Q (f s).2 m'

variable {accept} {P Q R P' Q' : S → M → Prop} {f g : Emit S E}

theorem Leads.andThen (hf : Leads accept P f Q) (hg : Leads accept Q g R) :
    Leads accept P (andThen f g) R := by
  intro s m hP
  obtain ⟨m₁, hm₁, hQ⟩ := hf s m hP
  obtain ⟨m₂, hm₂, hR⟩ := hg (f s).2 m₁ hQ
  refine ⟨m₂, ?_, hR⟩
  rw [EmittingMachines.andThen, watch_append, hm₁]
  exact hm₂

theorem Leads.mono (hf : Leads accept P f Q) (hP : ∀ s m, P' s m → P s m)
    (hQ : ∀ s m, Q s m → Q' s m) : Leads accept P' f Q' := by
  intro s m h
  obtain ⟨m', hm', hQ'⟩ := hf s m (hP s m h)
  exact ⟨m', hm', hQ _ _ hQ'⟩

theorem leads_nothing (h : ∀ s m, P s m → Q s m) : Leads accept P (emit []) Q :=
  fun s m hP => ⟨m, rfl, h s m hP⟩

end EmittingMachines
