import TinyToken.ManualTopUps

/-! The automatic approval of a PromptPay order with its slip: the order is checked against
the rule as it happens to be saved, the slip is verified, and only then the order is
approved, under the rule as it stands at that time. -/
namespace PromptPayAutoVerify

open ProgramSteps LockingStore LockingPools PaymentStore PromptPayRule ManualTopUps GoText
open ReadCommittedStore (TxId Db)

structure SlipEndpoint where
  scheme : String
  host : String
  hasUser : Bool
  rawQuery : String
  fragment : String
  path : String

/-- An address that does not parse is `none`. -/
structure PaymentSetting where
  promptPayEnabled : Bool
  promptPayTelegramEnabled : Bool
  promptPayTelegramBotSecret : String
  promptPayTelegramChatId : String
  promptPaySlipProvider : String
  promptPaySlipApiKey : String
  promptPaySlipApiURL : Option SlipEndpoint

/-- `^/api/line/apikey/[A-Za-z0-9_-]+/?$`. -/
def matchesBranchPath (path : String) : Bool :=
  match after "/api/line/apikey/" path with
  | none => false
  | some rest =>
    let key := rest.toList.takeWhile fun ch => isAlnum ch || ch = '_' || ch = '-'
    key ≠ [] && (rest.toList = key || rest.toList = key ++ ['/'])

def promptPayWhitelistConfigured (setting : PaymentSetting) : Bool :=
  setting.promptPayEnabled && setting.promptPayTelegramEnabled &&
    trimSpace setting.promptPayTelegramBotSecret ≠ "" &&
    match parseInt (trimSpace setting.promptPayTelegramChatId) with
    | none => false
    | some chatId => chatId < 0

def slipOKConfigured (setting : PaymentSetting) : Bool :=
  promptPayWhitelistConfigured setting && equalFold setting.promptPaySlipProvider "slipok" &&
    trimSpace setting.promptPaySlipApiKey ≠ "" &&
    match setting.promptPaySlipApiURL with
    | none => false
    | some endpoint =>
      endpoint.scheme = "https" && endpoint.host = "api.slipok.com" && !endpoint.hasUser &&
        endpoint.rawQuery = "" && endpoint.fragment = "" && matchesBranchPath endpoint.path

/-- The answer of the slip service; an amount or a payment time that does not parse is
`none`. -/
structure SlipOKCheckResponse where
  success : Bool
  dataSuccess : Bool
  transRef : String
  receivingBank : String
  countryCode : String
  paidLocalCurrency : String
  amount : Option ℚ
  paidAt : Option ℚ
  receiverAccount : String
  receiverProxy : String

def validatedSlipOKReference (data : SlipOKCheckResponse) (topUp : TopUp) (now : ℚ) :
    Except String String :=
  if data.success = false ∨ data.dataSuccess = false ∨
      matchesBankReference data.transRef = false ∨ data.countryCode ≠ "TH" ∨
      data.receivingBank = "" ∨ (data.receiverAccount = "" ∧ data.receiverProxy = "") ∨
      (data.paidLocalCurrency ≠ "" ∧ data.paidLocalCurrency ≠ "764") then
    .error "slip verification is incomplete"
  else if data.amount ≠ some topUp.money then .error "slip amount differs from top-up"
  else match data.paidAt with
    | none => .error "slip payment time is outside the safe order window"
    | some paidAt =>
      if paidAt < topUp.createTime - 3600 ∨ now + 300 < paidAt then
        .error "slip payment time is outside the safe order window"
      else .ok data.transRef

/-- An order with the slip it was submitted with, and the times the attempt samples: for the
first check, for the slip, for the rule and for the record. -/
structure Submission where
  topUp : TopUp
  filename : String
  slip : List UInt8
  checkedAt : ℤ
  verifiedAt : ℚ
  sampledAt : ℤ
  completedAt : ℤ

/-- What an attempt meets outside the database: the settings, the hexadecimal digest of an
image, and the slip service. -/
structure SlipWorld where
  setting : PaymentSetting
  digest : List UInt8 → String
  ask : Submission → Except String SlipOKCheckResponse

variable (c : PayConfig) (w : SlipWorld) (tx : TxId)

def verifySlipOK (s : Submission) : Except String String :=
  if s.slip = [] ∨ 5 * 1024 * 1024 < s.slip.length then .error "invalid slip"
  else if toLower (extension s.filename) ∉ [".jpg", ".jpeg", ".png", ".webp", ".jfif"] then
    .error "unsupported slip format"
  else match w.ask s with
    | .error e => .error e
    | .ok data => validatedSlipOKReference data s.topUp s.verifiedAt

/-- `AutoCompletePromptPayTopUp`. -/
def verifiedApproval (s : Submission) (reference : String) : Approval :=
  ⟨s.topUp.tradeNo, 0, reference, modeVerified, s.sampledAt, s.completedAt⟩

/-- `AutoCompletePromptPayWhitelistTopUp`. -/
def whitelistApproval (s : Submission) (digest : String) : Approval :=
  ⟨s.topUp.tradeNo, 0, "wl_" ++ digest, modeWhitelist, s.sampledAt, s.completedAt⟩

def silently : String := ""

def chooseApproval (s : Submission) : Except String PromptPayAutoConfig → Except String Approval
  | .error _ => .error silently
  | .ok cfg =>
    if allows c cfg s.topUp s.checkedAt = false then .error silently
    else if effectiveMode cfg = modeWhitelist then
      if promptPayWhitelistConfigured w.setting = false ∨ s.slip = [] then .error silently
      else .ok (whitelistApproval s (w.digest s.slip))
    else if slipOKConfigured w.setting = false then .error silently
    else (verifySlipOK w s).map (verifiedApproval s)

def approveChosen : Except String Approval → PayProg (Except String Bool)
  | .error e => pure (.error e)
  | .ok call => completeManualTopUp c tx call

def tryAutoApprovePromptPay (s : Submission) : PayProg (Except String Bool) := do
  let cfg ← getPromptPayAutoConfig tx
  approveChosen c tx (chooseApproval c w s cfg)

inductive Attempts (w : SlipWorld) (s : Submission) : Approval → Prop where
  | verified (reference : String) (h : verifySlipOK w s = .ok reference) :
      Attempts w s (verifiedApproval s reference)
  | whitelist (h : s.slip ≠ []) : Attempts w s (whitelistApproval s (w.digest s.slip))

theorem attempts_of_choose {c : PayConfig} {w : SlipWorld} {s : Submission}
    {rule : Except String PromptPayAutoConfig} {call : Approval}
    (h : chooseApproval c w s rule = .ok call) : Attempts w s call := by
  cases rule with
  | error e => cases h
  | ok cfg =>
    simp only [chooseApproval] at h
    split at h
    · cases h
    split at h
    · split at h
      · cases h
      next hready =>
        cases h
        exact .whitelist (not_or.mp hready).2
    · split at h
      · cases h
      · cases hverify : verifySlipOK w s with
        | error e => rw [hverify] at h; cases h
        | ok reference =>
          rw [hverify] at h
          cases h
          exact .verified reference hverify

theorem Attempts.automatic {w : SlipWorld} {s : Submission} {call : Approval}
    (h : Attempts w s call) : call.autoMode ≠ "" := by
  cases h with
  | verified reference _ => exact (by decide : modeVerified ≠ "")
  | whitelist _ => exact (by decide : modeWhitelist ≠ "")

def AttemptPost (s : Submission) (approved : Bool)
    (past : PayHistory) (db : Db PayTables PayWrite) : Prop :=
  ∃ call, Attempts w s call ∧ CompletePost c tx call approved past db

section Calls

variable {c : PayConfig} {w : SlipWorld} {tx : TxId}
  {ok : PayGuard}

theorem approveChosen_ne (r : Except String Approval) (approved : Bool) :
    approveChosen c tx r ≠ .pure (.ok approved) := by
  cases r with
  | error e => intro h; cases h
  | ok call => exact completeManualTopUp_ne c tx call approved

theorem callSafe_attempt (s : Submission) :
    CallSafe payEngine tx ok (fun _ => True) (fun _ => True) (AttemptPost c w tx s)
      (tryAutoApprovePromptPay c w tx s) := by
  let k : Except String (Option SavedRule) → PayProg (Except String Bool) := fun r =>
    approveChosen c tx (chooseApproval c w s (r.bind decodeRule))
  have hprog : tryAutoApprovePromptPay c w tx s = exec tx PayStmt.rule >>= k := by
    change Prog.op _ _ = Prog.op _ _
    congr 1
    funext r
    cases r with
    | error e | ok value => rfl
  rw [hprog]
  refine callSafe_read guards_true ?_ (fun r => approveChosen_ne _) ?_
  · rintro t b vs h
    cases h
    rfl
  intro r
  change CallSafe _ _ _ _ _ _ (approveChosen c tx (chooseApproval c w s (r.bind decodeRule)))
  generalize hchoice : chooseApproval c w s (r.bind decodeRule) = choice
  cases choice with
  | error e => exact callSafe_fail
  | ok call =>
    refine callSafe_mono ?_ callSafe_complete
    exact fun approved past db h => ⟨call, attempts_of_choose hchoice, h⟩

end Calls

end PromptPayAutoVerify
