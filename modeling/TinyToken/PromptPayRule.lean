import TinyToken.PaymentStore

/-! The rule of the automatic PromptPay approval: when it allows an order, and the calls that
read it, change it and shut it off. -/
namespace PromptPayRule

open LockingStore PaymentStore
open ReadCommittedStore (TxId Db)
open GoText (isDigit isAlnum digitValue)

/-- `^[A-Za-z0-9_-]{8,128}$`. -/
def matchesBankReference (text : String) : Bool :=
  8 ≤ text.toList.length && text.toList.length ≤ 128 &&
    text.toList.all fun ch => isAlnum ch || ch = '_' || ch = '-'

/-- `^wl_[a-f0-9]{64}$`. -/
def matchesWhitelistReference (text : String) : Bool :=
  text.toList.take 3 = ['w', 'l', '_'] && text.toList.length = 67 &&
    (text.toList.drop 3).all fun ch => isDigit ch || ('a' ≤ ch && ch ≤ 'f')

/-- `^THA[1-9][0-9]*NO[A-Za-z0-9]{6}[0-9]{10,}$`. -/
def matchesTradeNo (text : String) : Bool :=
  match text.toList with
  | 'T' :: 'H' :: 'A' :: first :: rest =>
    isDigit first && first ≠ '0' &&
      match rest.dropWhile isDigit with
      | 'N' :: 'O' :: tail =>
        16 ≤ tail.length && (tail.take 6).all isAlnum && (tail.drop 6).all isDigit
      | _ => false
  | _ => false

/-- The minute of the day of a text that `15:04` both parses and prints. -/
def parseClock (text : String) : Option ℕ :=
  match text.toList with
  | [a, b, ':', c, d] =>
    if [a, b, c, d].all isDigit then
      let hour := digitValue a * 10 + digitValue b
      let minute := digitValue c * 10 + digitValue d
      if hour < 24 ∧ minute < 60 then some (hour * 60 + minute) else none
    else none
  | _ => none

/-- The settings that payments read: the quota of one unit, the offset of a time zone by its
name, and the zone of the server. -/
structure PayConfig where
  quotaPerUnit : ℚ
  zoneOf : String → Option (ℤ → ℤ)
  zone : ℤ

def PromptPayAutoConfig.zero : PromptPayAutoConfig := ⟨false, "", "", "", "", [], 0⟩

def modeVerified : String := "verified"

def modeWhitelist : String := "whitelist"

def effectiveMode (cfg : PromptPayAutoConfig) : String :=
  if cfg.mode = "" then modeVerified else cfg.mode

def validateReady (c : PayConfig) (cfg : PromptPayAutoConfig) : Except String ((ℤ → ℤ) × ℕ × ℕ) :=
  if effectiveMode cfg ≠ modeVerified ∧ effectiveMode cfg ≠ modeWhitelist then
    .error "invalid auto approval mode"
  else if cfg.maxAmountTHB ≤ 0 ∨ cfg.allowedUserIds = [] then
    .error "set a positive maximum and at least one user"
  else match parseClock cfg.start with
    | none => .error "invalid start time"
    | some start =>
      match (parseClock cfg.stop).filter fun _ => cfg.start ≠ cfg.stop with
      | none => .error "invalid end time"
      | some stop =>
        match (c.zoneOf cfg.timezone).filter fun _ => cfg.timezone ≠ "" with
        | none => .error "invalid timezone"
        | some zone =>
          if cfg.allowedUserIds.any fun id => id ≤ 0 then .error "invalid user ID"
          else .ok (zone, start, stop)

def minuteOfDay (zone : ℤ → ℤ) (now : ℤ) : ℕ := (((now + zone now) % 86400) / 60).toNat

def inWindow (start stop minute : ℕ) : Bool :=
  if start < stop then start ≤ minute && minute < stop else start ≤ minute || minute < stop

def orderFits (cfg : PromptPayAutoConfig) (topUp : TopUp) : Bool :=
  topUp.paymentProvider = .promptPay && topUp.status = .pending && topUp.userId > 0 &&
    topUp.money > 0 && topUp.money.den = 1 && topUp.money ≤ cfg.maxAmountTHB &&
    matchesTradeNo topUp.tradeNo

def allows (c : PayConfig) (cfg : PromptPayAutoConfig) (topUp : TopUp) (now : ℤ) : Bool :=
  cfg.enabled && orderFits cfg topUp &&
    match validateReady c cfg with
    | .error _ => false
    | .ok (zone, start, stop) =>
      topUp.userId ∈ cfg.allowedUserIds && inWindow start stop (minuteOfDay zone now)

def decodeRule : Option SavedRule → Except String PromptPayAutoConfig
  | none => .ok PromptPayAutoConfig.zero
  | some (.config cfg) => .ok cfg
  | some (.malformed _) => .error "invalid character in JSON"

variable (tx : TxId)

/-- `readPromptPayAutoConfig(tx, true)`. -/
def readLockedRule : PayProg (Except String PromptPayAutoConfig) := do
  match ← lockRule tx with
  | .error e => pure (.error e)
  | .ok value => pure (decodeRule value)

/-- `readPromptPayAutoConfig(DB, false)`. -/
def getPromptPayAutoConfig : PayProg (Except String PromptPayAutoConfig) := do
  match ← selectRule tx with
  | .error e => pure (.error e)
  | .ok value => pure (decodeRule value)

variable (change : PromptPayAutoConfig → Except String PromptPayAutoConfig)

def applyChange :
    Except String PromptPayAutoConfig → PayProg (Except String PromptPayAutoConfig)
  | .error e => pure (.error e)
  | .ok cfg =>
    match change cfg with
    | .error e => pure (.error e)
    | .ok changed => do
      let sorted := { changed with allowedUserIds := changed.allowedUserIds.insertionSort (· ≤ ·) }
      match ← saveRule tx (.config sorted) with
      | .error e => pure (.error e)
      | .ok _ => pure (.ok sorted)

def updateBody :
    PayProg (Except String PromptPayAutoConfig) :=
  readLockedRule tx >>= applyChange tx change

def updatePromptPayAutoConfig :
    PayProg (Except String PromptPayAutoConfig) :=
  transaction tx (updateBody tx change)

/-- The rule the text `{"enabled":false}` decodes to. -/
def shutOff : SavedRule := .config PromptPayAutoConfig.zero

def overwriteBody : PayProg (Except String Unit) := do
  match ← overwriteRule tx shutOff with
  | .error e => pure (.error e)
  | .ok _ => pure (.ok ())

def disable (cfg : PromptPayAutoConfig) : Except String PromptPayAutoConfig :=
  .ok { cfg with enabled := false }

def afterDisable : Except String PromptPayAutoConfig → PayProg (Except String Unit)
  | .ok _ => pure (.ok ())
  | .error _ => transaction tx (overwriteBody tx)

def disablePromptPayAutoConfig : PayProg (Except String Unit) :=
  updatePromptPayAutoConfig tx disable >>= afterDisable tx

end PromptPayRule
