import TinyToken.GoText

/-! The expressions of tiered billing: arithmetic over token counts with conditions on the
request and on the time. Values are exact rationals; where a float would overflow or divide
by zero there is none. A sign is read off the text of an expression and holds for whatever
the client sends. -/
namespace BillingExpressions

open GoText

inductive Var where
  | p | c | len | cr | cc | cc1h | img | imgO | ai | ao
  deriving DecidableEq

inductive Arith where
  | add | sub | mul | div | mod

inductive Comparison where
  | eq | ne | lt | le | gt | ge

inductive ClockField where
  | hour | minute | weekday | month | day

inductive Expr where
  | int (n : ℤ)
  | float (x : ℚ)
  | str (s : String)
  | bool (b : Bool)
  | nil
  | var (v : Var)
  | neg (e : Expr)
  | not (e : Expr)
  | arith (op : Arith) (a b : Expr)
  | compare (op : Comparison) (a b : Expr)
  | and (a b : Expr)
  | or (a b : Expr)
  | cond (c a b : Expr)
  | tier (name value : Expr)
  | header (key : Expr)
  | param (path : Expr)
  | has (source substr : Expr)
  | clock (field : ClockField) (tz : Expr)
  | max (a b : Expr)
  | min (a b : Expr)
  | abs (a : Expr)
  | ceil (a : Expr)
  | floor (a : Expr)

/-- `UsedVars`, as far as the token counts ask for it. -/
def Expr.uses (v : Var) : Expr → Bool
  | .int _ | .float _ | .str _ | .bool _ | .nil => false
  | .var w => w = v
  | .neg e | .not e | .header e | .param e | .clock _ e | .abs e | .ceil e | .floor e => e.uses v
  | .arith _ a b | .compare _ a b | .and a b | .or a b | .tier a b | .has a b | .max a b | .min a b =>
    a.uses v || b.uses v
  | .cond c a b => c.uses v || a.uses v || b.uses v

inductive Ty where
  | int | float | str | bool | nil | any
  deriving DecidableEq

def Ty.numeric : Ty → Bool
  | .int | .float | .any => true
  | _ => false

def Ty.is (t : Ty) (s : Ty) : Bool := s = t || s = .any

def Ty.both (s t : Ty) : Ty := if s = .any ∨ t = .any then .any else if s = .int ∧ t = .int then .int else .float

def arithType (op : Arith) (s t : Ty) : Option Ty :=
  match op with
  | .add =>
    if s.numeric && t.numeric then some (s.both t)
    else if Ty.str.is s && Ty.str.is t then some (if s = .str ∧ t = .str then .str else .any)
    else none
  | .sub | .mul => if s.numeric && t.numeric then some (s.both t) else none
  | .div => if s.numeric && t.numeric then some .float else none
  | .mod => if Ty.int.is s && Ty.int.is t then some .int else none

def comparable (op : Comparison) (s t : Ty) : Bool :=
  match op with
  | .eq | .ne => s = t || s.numeric && t.numeric || s = .any || t = .any || s = .nil || t = .nil
  | _ => s.numeric && t.numeric || Ty.str.is s && Ty.str.is t

def Expr.type? : Expr → Option Ty
  | .int _ => some .int
  | .float _ => some .float
  | .str _ => some .str
  | .bool _ => some .bool
  | .nil => some .nil
  | .var _ => some .float
  | .neg e => e.type?.bind fun t => if t.numeric then some t else none
  | .not e => e.type?.bind fun t => if Ty.bool.is t then some .bool else none
  | .arith op a b => a.type?.bind fun s => b.type?.bind fun t => arithType op s t
  | .compare op a b =>
    a.type?.bind fun s => b.type?.bind fun t => if comparable op s t then some .bool else none
  | .and a b | .or a b =>
    a.type?.bind fun s => b.type?.bind fun t =>
      if Ty.bool.is s && Ty.bool.is t then some .bool else none
  | .cond c a b =>
    c.type?.bind fun r => a.type?.bind fun s => b.type?.bind fun t =>
      if Ty.bool.is r then
        some (if s = t then s else if s = .nil then t else if t = .nil then s else .any)
      else none
  | .tier name value =>
    name.type?.bind fun s => value.type?.bind fun t =>
      if Ty.str.is s && t.numeric then some .float else none
  | .header key => key.type?.bind fun t => if Ty.str.is t then some .str else none
  | .param path => path.type?.bind fun t => if Ty.str.is t then some .any else none
  | .has source substr =>
    source.type?.bind fun _ => substr.type?.bind fun t => if Ty.str.is t then some .bool else none
  | .clock _ tz => tz.type?.bind fun t => if Ty.str.is t then some .int else none
  | .max a b | .min a b =>
    a.type?.bind fun s => b.type?.bind fun t => if s.numeric && t.numeric then some .float else none
  | .abs a | .ceil a | .floor a => a.type?.bind fun t => if t.numeric then some .float else none

def Expr.compiles (e : Expr) : Bool :=
  match e.type? with
  | some t => t.numeric
  | none => false

/-- What an expression can come to; an object or array of the request body stands for its text. -/
inductive Value where
  | int (n : ℤ)
  | float (x : ℚ)
  | str (s : String)
  | bool (b : Bool)
  | nil
  | object (text : String)
  deriving DecidableEq

inductive Fault where
  | runtime (message : String)
  | notRational

structure TokenParams where
  p : ℚ
  c : ℚ
  len : ℚ
  cr : ℚ
  cc : ℚ
  cc1h : ℚ
  img : ℚ
  imgO : ℚ
  ai : ℚ
  ao : ℚ

def TokenParams.get (params : TokenParams) : Var → ℚ
  | .p => params.p
  | .c => params.c
  | .len => params.len
  | .cr => params.cr
  | .cc => params.cc
  | .cc1h => params.cc1h
  | .img => params.img
  | .imgO => params.imgO
  | .ai => params.ai
  | .ao => params.ao

structure RequestInput where
  headers : List (String × String)
  body : String → Value

def RequestInput.empty : RequestInput := ⟨[], fun _ => .nil⟩

/-- Parts of the present time in a zone, which is UTC where the zone is not known. -/
structure ZoneClock where
  read : String → ClockField → ℕ

structure TraceResult where
  matchedTier : String
  cost : ℚ

structure Env where
  params : TokenParams
  request : RequestInput
  clock : ZoneClock
  /-- `fmt.Sprint` of a number -/
  sprint : ℚ → String

def normalizeHeaders (headers : List (String × String)) (key : String) : String :=
  headers.foldl (fun found h =>
    if toLower (trimSpace h.1) = key ∧ key ≠ "" ∧ trimSpace h.2 ≠ "" then trimSpace h.2 else found) ""

def Value.toNum : Value → Option ℚ
  | .int n => some n
  | .float x => some x
  | _ => none

def invalid {α : Type} : Except Fault α := .error (.runtime "invalid operation")

def Value.float! (v : Value) : Except Fault ℚ :=
  match v.toNum with
  | some x => .ok x
  | none => invalid

def Value.str! : Value → Except Fault String
  | .str s => .ok s
  | _ => invalid

def Value.bool! : Value → Except Fault Bool
  | .bool b => .ok b
  | _ => invalid

def Value.text (sprint : ℚ → String) : Value → String
  | .int n => toString n
  | .float x => sprint x
  | .str s => s
  | .bool b => toString b
  | .nil => "<nil>"
  | .object text => text

def numeric (onInt : ℤ → ℤ → ℤ) (onFloat : ℚ → ℚ → ℚ) : Value → Value → Except Fault Value
  | .int m, .int n => .ok (.int (onInt m n))
  | a, b => do
    let x ← a.float!
    let y ← b.float!
    pure (.float (onFloat x y))

def divide (a b : Value) : Except Fault Value := do
  let x ← a.float!
  let y ← b.float!
  if y = 0 then .error .notRational else pure (.float (x / y))

def modulo : Value → Value → Except Fault Value
  | .int m, .int n =>
    if n = 0 then .error (.runtime "integer divide by zero") else .ok (.int (m.tmod n))
  | _, _ => invalid

def Arith.apply : Arith → Value → Value → Except Fault Value
  | .add, .str s, .str t => .ok (.str (s ++ t))
  | .add, a, b => numeric (· + ·) (· + ·) a b
  | .sub, a, b => numeric (· - ·) (· - ·) a b
  | .mul, a, b => numeric (· * ·) (· * ·) a b
  | .div, a, b => divide a b
  | .mod, a, b => modulo a b

def Value.equal (a b : Value) : Bool :=
  match a.toNum, b.toNum with
  | some x, some y => x = y
  | _, _ => a = b

def ordered (onNum : ℚ → ℚ → Bool) (onStr : String → String → Bool) : Value → Value → Except Fault Bool
  | .str s, .str t => .ok (onStr s t)
  | a, b => do
    let x ← a.float!
    let y ← b.float!
    pure (onNum x y)

def Comparison.apply : Comparison → Value → Value → Except Fault Bool
  | .eq, a, b => .ok (a.equal b)
  | .ne, a, b => .ok (!a.equal b)
  | .lt, a, b => ordered (fun x y => x < y) (fun s t => s < t) a b
  | .le, a, b => ordered (fun x y => x ≤ y) (fun s t => s ≤ t) a b
  | .gt, a, b => ordered (fun x y => y < x) (fun s t => t < s) a b
  | .ge, a, b => ordered (fun x y => y ≤ x) (fun s t => t ≤ s) a b

def negate : Value → Except Fault Value
  | .int n => .ok (.int (-n))
  | .float x => .ok (.float (-x))
  | _ => invalid

def eval (env : Env) : Expr → TraceResult → Except Fault (Value × TraceResult)
  | .int n, t => .ok (.int n, t)
  | .float x, t => .ok (.float x, t)
  | .str s, t => .ok (.str s, t)
  | .bool b, t => .ok (.bool b, t)
  | .nil, t => .ok (.nil, t)
  | .var v, t => .ok (.float (env.params.get v), t)
  | .neg e, t => do
    let (v, t) ← eval env e t
    pure (← negate v, t)
  | .not e, t => do
    let (v, t) ← eval env e t
    pure (.bool (!(← v.bool!)), t)
  | .arith op a b, t => do
    let (v, t) ← eval env a t
    let (w, t) ← eval env b t
    pure (← op.apply v w, t)
  | .compare op a b, t => do
    let (v, t) ← eval env a t
    let (w, t) ← eval env b t
    pure (.bool (← op.apply v w), t)
  | .and a b, t => do
    let (v, t) ← eval env a t
    if ← v.bool! then
      let (w, t) ← eval env b t
      pure (.bool (← w.bool!), t)
    else pure (.bool false, t)
  | .or a b, t => do
    let (v, t) ← eval env a t
    if ← v.bool! then pure (.bool true, t)
    else
      let (w, t) ← eval env b t
      pure (.bool (← w.bool!), t)
  | .cond c a b, t => do
    let (v, t) ← eval env c t
    if ← v.bool! then eval env a t else eval env b t
  | .tier name value, t => do
    let (n, t) ← eval env name t
    let (v, _) ← eval env value t
    let x ← v.float!
    pure (.float x, ⟨← n.str!, x⟩)
  | .header key, t => do
    let (v, t) ← eval env key t
    pure (.str (normalizeHeaders env.request.headers (toLower (trimSpace (← v.str!)))), t)
  | .param path, t => do
    let (v, t) ← eval env path t
    let path := trimSpace (← v.str!)
    pure (if path = "" then .nil else env.request.body path, t)
  | .has source substr, t => do
    let (v, t) ← eval env source t
    let (w, t) ← eval env substr t
    let s ← w.str!
    pure (.bool (v ≠ .nil && s ≠ "" && contains (v.text env.sprint) s), t)
  | .clock field tz, t => do
    let (v, t) ← eval env tz t
    pure (.int (env.clock.read (trimSpace (← v.str!)) field), t)
  | .max a b, t => do
    let (v, t) ← eval env a t
    let (w, t) ← eval env b t
    pure (.float (Max.max (← v.float!) (← w.float!)), t)
  | .min a b, t => do
    let (v, t) ← eval env a t
    let (w, t) ← eval env b t
    pure (.float (Min.min (← v.float!) (← w.float!)), t)
  | .abs a, t => do
    let (v, t) ← eval env a t
    pure (.float |← v.float!|, t)
  | .ceil a, t => do
    let (v, t) ← eval env a t
    pure (.float ⌈← v.float!⌉, t)
  | .floor a, t => do
    let (v, t) ← eval env a t
    pure (.float ⌊← v.float!⌋, t)

inductive Sign where
  | nonneg | nonpos | unknown
  deriving DecidableEq

namespace Sign

def holds : Sign → ℚ → Prop
  | nonneg, x => 0 ≤ x
  | nonpos, x => x ≤ 0
  | unknown, _ => True

def ofRat (x : ℚ) : Sign := if 0 ≤ x then nonneg else nonpos

def neg : Sign → Sign
  | nonneg => nonpos
  | nonpos => nonneg
  | unknown => unknown

def add : Sign → Sign → Sign
  | nonneg, nonneg => nonneg
  | nonpos, nonpos => nonpos
  | _, _ => unknown

def mul : Sign → Sign → Sign
  | nonneg, nonneg | nonpos, nonpos => nonneg
  | nonneg, nonpos | nonpos, nonneg => nonpos
  | _, _ => unknown

def join (s t : Sign) : Sign := if s = t then s else unknown

def max : Sign → Sign → Sign
  | nonneg, _ | _, nonneg => nonneg
  | nonpos, nonpos => nonpos
  | _, _ => unknown

def min : Sign → Sign → Sign
  | nonpos, _ | _, nonpos => nonpos
  | nonneg, nonneg => nonneg
  | _, _ => unknown

def ofArith : Arith → Sign → Sign → Sign
  | .add, s, t => s.add t
  | .sub, s, t => s.add t.neg
  | .mul, s, t | .div, s, t => s.mul t
  | .mod, s, _ => s

section Soundness

variable {s t : Sign} {x y : ℚ}

section

variable (hs : s.holds x)
include hs

end

end Soundness

end Sign

def Expr.sign : Expr → Sign
  | .int n => .ofRat n
  | .float x => .ofRat x
  | .var _ => .nonneg
  | .neg e => e.sign.neg
  | .arith op a b => .ofArith op a.sign b.sign
  | .cond _ a b => a.sign.join b.sign
  | .tier _ value => value.sign
  | .clock _ _ => .nonneg
  | .max a b => a.sign.max b.sign
  | .min a b => a.sign.min b.sign
  | .abs _ => .nonneg
  | .ceil a => a.sign
  | .floor a => a.sign
  | _ => .unknown

def Sign.Describes (s : Sign) (v : Value) : Prop := ∀ x, v.toNum = some x → s.holds x

section Evaluation

variable {α β : Type} {env : Env}

section

variable {onInt : ℤ → ℤ → ℤ} {onFloat : ℚ → ℚ → ℚ}
  (hcast : ∀ m n : ℤ, (onInt m n : ℚ) = onFloat m n)
include hcast

end

end Evaluation

end BillingExpressions
