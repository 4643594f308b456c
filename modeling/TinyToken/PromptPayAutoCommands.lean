import TinyToken.PromptPaySwitch

/-! The chat commands that set the rule of the automatic approval. Whatever a command says, it
touches nothing but the saved rule. -/
namespace PromptPayAutoCommands

open LockingStore LockingPools PaymentStore PromptPayRule PromptPayAutoVerify PromptPaySwitch GoText
open ReadCommittedStore (TxId Db)

/-- The name in lower case and without the bot's name, and the words after it. -/
def parseAutoCommand (text : String) : Option (String × List String) :=
  match fields (trimSpace text) with
  | [] => none
  | first :: args =>
    let name := toLower (before '@' first)
    if name ∈ ["/auto", "/auto_mode", "/auto_time", "/auto_user", "/auto_max", "/auto_status",
        "/auto_timezone", "/auto_id"] then some (name, args)
    else none

variable (c : PayConfig) (setting : PaymentSetting) (tx : TxId)

def requirePromptPayAutoReady (cfg : PromptPayAutoConfig) : Except String Unit :=
  match validateReady c cfg with
  | .error e => .error ("auto approval is not ready: " ++ e)
  | .ok _ => .ok ()

def orNotSet (text : String) : String := if text = "" then "not set" else text

def statusText : Except String PromptPayAutoConfig → String
  | .error _ => "Auto Approve: OFF (configuration unavailable)"
  | .ok cfg =>
    let mode := effectiveMode cfg
    let providerReady :=
      if mode = modeWhitelist then promptPayWhitelistConfigured setting
      else slipOKConfigured setting
    let ready := (requirePromptPayAutoReady c cfg).isOk && providerReady
    let state :=
      if cfg.enabled = false then "OFF"
      else if ready then "ON"
      else "ON (paused: rule or verification unavailable)"
    let users :=
      if cfg.allowedUserIds = [] then "none"
      else ", ".intercalate ((cfg.allowedUserIds.insertionSort (· ≤ ·)).map toString)
    let provider :=
      if mode = modeWhitelist then "NOT USED - uploaded slips are not verified"
      else if providerReady then "SlipOK configured"
      else "not configured"
    "Auto Approve: " ++ state ++ "\nMode: " ++ mode ++ "\nTime: " ++ orNotSet cfg.start ++ " - " ++
      orNotSet cfg.stop ++ "\nTimezone: " ++ orNotSet cfg.timezone ++ "\nAllowed Users: " ++ users ++
      "\nMaximum Amount: " ++ toString cfg.maxAmountTHB ++ " THB\nPayment verification: " ++ provider

def promptPayAutoStatus : PayProg String := do
  let cfg ← getPromptPayAutoConfig tx
  pure (statusText c setting cfg)

def enable (cfg : PromptPayAutoConfig) : Except String PromptPayAutoConfig :=
  if effectiveMode cfg = modeVerified ∧ slipOKConfigured setting = false then
    .error "SlipOK is not configured"
  else if effectiveMode cfg = modeWhitelist ∧ promptPayWhitelistConfigured setting = false then
    .error "Telegram admin group is not configured"
  else match requirePromptPayAutoReady c cfg with
    | .error e => .error e
    | .ok _ => .ok { cfg with enabled := true }

def addUser (id : ℤ) (cfg : PromptPayAutoConfig) : Except String PromptPayAutoConfig :=
  if id ∈ cfg.allowedUserIds then .ok cfg
  else if 1000 ≤ cfg.allowedUserIds.length then .error "user allowlist is full"
  else .ok { cfg with allowedUserIds := cfg.allowedUserIds ++ [id] }

def removeUser (id : ℤ) (cfg : PromptPayAutoConfig) : Except String PromptPayAutoConfig :=
  let left := cfg.allowedUserIds.erase id
  .ok { cfg with allowedUserIds := left, enabled := cfg.enabled && left ≠ [] }

def setMode (mode : String) (cfg : PromptPayAutoConfig) : Except String PromptPayAutoConfig :=
  .ok { cfg with mode := mode, enabled := false }

/-- The change a command asks for, or the answer to a command that is not understood. -/
def autoChange (name : String) (args : List String) :
    Except String (PromptPayAutoConfig → Except String PromptPayAutoConfig) :=
  if name = "/auto_mode" then
    match args with
    | [mode] =>
      if mode = modeVerified ∨ mode = modeWhitelist then .ok (setMode mode)
      else .error "ใช้ /auto_mode verified หรือ /auto_mode whitelist"
    | _ => .error "ใช้ /auto_mode verified หรือ /auto_mode whitelist"
  else if name = "/auto_time" then
    match args with
    | [start, stop] =>
      if parseClock start = none ∨ parseClock stop = none ∨ start = stop then
        .error "เวลาไม่ถูกต้องหรือช่วงเวลาเป็นศูนย์"
      else .ok fun cfg => .ok { cfg with start := start, stop := stop }
    | _ => .error "ใช้ /auto_time HH:MM HH:MM"
  else if name = "/auto_timezone" then
    match args with
    | [zone] =>
      if (c.zoneOf zone).isNone ∨ zone = "Local" then
        .error "Timezone ไม่ถูกต้อง กรุณาใช้ชื่อ IANA เช่น Asia/Bangkok"
      else .ok fun cfg => .ok { cfg with timezone := zone }
    | _ => .error "ใช้ /auto_timezone Asia/Bangkok"
  else if name = "/auto_max" then
    match args with
    | [text] =>
      match (parseInt text).filter fun amount => 0 < amount && amount ≤ 1000000 with
      | none => .error "ยอดสูงสุดต้องเป็นจำนวนเต็ม 1 ถึง 1,000,000 บาท"
      | some amount => .ok fun cfg => .ok { cfg with maxAmountTHB := amount }
    | _ => .error "ใช้ /auto_max จำนวนเงินบาท"
  else if name = "/auto_user" then
    match args with
    | [verb, text] =>
      match (parseInt text).filter fun id => 0 < id with
      | none => .error "User ID ไม่ถูกต้อง"
      | some id =>
        if toLower verb = "add" then .ok (addUser id)
        else if toLower verb = "remove" then .ok (removeUser id)
        else .error "ใช้ /auto_user add USER_ID หรือ /auto_user remove USER_ID"
    | _ => .error "ใช้ /auto_user add USER_ID หรือ /auto_user remove USER_ID"
  else
    .error "คำสั่งไม่ถูกต้อง: /auto on|off, /auto_mode, /auto_time, /auto_timezone, /auto_user, /auto_max, /auto_status"

def changeRule (failed : String)
    (change : PromptPayAutoConfig → Except String PromptPayAutoConfig) : PayProg String := do
  match ← updatePromptPayAutoConfig tx change with
  | .error e => pure (failed ++ e)
  | .ok _ => promptPayAutoStatus c setting tx

def switchOff : PayProg String := do
  match ← disablePromptPayAutoConfig tx with
  | .error _ =>
    pure "ปิด Auto Approve ไม่สำเร็จ: ฐานข้อมูลไม่พร้อม กรุณาหยุดบริการจนกว่าจะตรวจสอบได้"
  | .ok _ => pure "Auto Approve: OFF"

def switchOn : PayProg String := do
  match ← getPromptPayAutoConfig tx with
  | .error _ => pure "เปิด Auto Approve ไม่สำเร็จ: อ่านการตั้งค่าไม่ได้"
  | .ok cfg =>
    if effectiveMode cfg = modeVerified ∧ slipOKConfigured setting = false then
      pure "ยังเปิด Auto Approve ไม่ได้: ต้องตั้งค่า SlipOK API พร้อมผูกบัญชีผู้รับเพื่อตรวจสลิปจริงก่อน"
    else if effectiveMode cfg = modeWhitelist ∧ promptPayWhitelistConfigured setting = false then
      pure "ยังเปิด Auto Approve ไม่ได้: ต้องเปิด PromptPay และตั้งค่าบอต Telegram กับกลุ่มแอดมินก่อน"
    else changeRule c setting tx "เปิด Auto Approve ไม่สำเร็จ: " (enable c setting)

def identityText (args : List String) (telegramId : ℤ) : String :=
  if args ≠ [] ∨ telegramId ≤ 0 then "ใช้ /auto_id จากบัญชี Telegram ของคุณ"
  else "Telegram ID ของคุณ: " ++ toString telegramId

def runAutoCommand (name : String) (args : List String) : PayProg String :=
  if name = "/auto_status" then
    if args ≠ [] then pure "ใช้ /auto_status" else promptPayAutoStatus c setting tx
  else if name = "/auto" ∧ args.length = 1 ∧ args.all (equalFold · "off") then switchOff tx
  else if name = "/auto_user" ∧ args.length = 1 ∧ args.all (equalFold · "list") then
    promptPayAutoStatus c setting tx
  else if name = "/auto" ∧ args.length = 1 ∧ args.all (equalFold · "on") then
    switchOn c setting tx
  else match autoChange c name args with
    | .error answer => pure answer
    | .ok change => changeRule c setting tx "บันทึกการตั้งค่าไม่สำเร็จ: " change

def processAutoCommand (text : String) (telegramId : ℤ) (isAdmin : Bool) :
    PayProg (String × Bool) :=
  match parseAutoCommand text with
  | none => pure ("", false)
  | some (name, args) =>
    if name = "/auto_id" then pure (identityText args telegramId, true)
    else if isAdmin = false then
      pure ("ไม่อนุญาต: เฉพาะแอดมินของกลุ่ม PromptPay เท่านั้นที่ตั้งค่า Auto Approve ได้", true)
    else do
      let answer ← runAutoCommand c setting tx name args
      pure (answer, true)

def OnlyRule {α : Type} (t : PayTables) (_ : α) (u : PayTables) : Prop :=
  ∃ rule, u = { t with rule := rule }

theorem onlyRule_refl {α : Type} (t : PayTables) (a : α) : OnlyRule t a t := ⟨t.rule, rfl⟩

theorem onlyRule_trans {α β : Type} {t u v : PayTables} {a : α} {b : β} (h : OnlyRule t a u)
    (h' : OnlyRule u b v) : OnlyRule t b v := by
  obtain ⟨r, rfl⟩ := h
  obtain ⟨r', rfl⟩ := h'
  exact ⟨r', rfl⟩

section Commands

variable {c : PayConfig} {setting : PaymentSetting} {tx : TxId}

theorem alone_answer {α : Type} (a : α) : Alone payEngine tx OnlyRule (pure a : PayProg α) :=
  alone_pure fun t => onlyRule_refl t a

theorem alone_then {α β : Type} {prog : PayProg α} {k : α → PayProg β}
    (h : Alone payEngine tx OnlyRule prog) (hk : ∀ a, Alone payEngine tx OnlyRule (k a)) :
    Alone payEngine tx OnlyRule (prog >>= k) :=
  alone_bind h hk fun _ _ _ _ _ => onlyRule_trans

theorem alone_getRule : Alone payEngine tx OnlyRule (getPromptPayAutoConfig tx) := by
  have hread : Alone payEngine tx OnlyRule (selectRule tx) := by
    refine alone_mono (alone_read (q := PayStmt.rule) ?_) ?_
    · rintro t b vs h
      cases h
      rfl
    · rintro t r u rfl
      exact onlyRule_refl _ r
  refine alone_then hread fun r => ?_
  cases r with
  | error e | ok value => exact alone_answer _

theorem alone_status : Alone payEngine tx OnlyRule (promptPayAutoStatus c setting tx) :=
  alone_then alone_getRule fun _ => alone_answer _

theorem alone_ruleCall {α : Type} {prog : PayProg (Except String α)} {P : PayPost α}
    (hprog : ∀ a, prog ≠ .pure (.ok a))
    (hsafe : CallSafe payEngine tx (fun _ _ _ => True) (fun _ => True) (fun _ => True) P prog)
    (hP : ∀ a past db, P a past db → OnlyRule db.committed a (seen payEngine db tx)) :
    Alone payEngine tx OnlyRule prog := by
  apply alone_mono (alone_call hprog hsafe)
  rintro t r u ⟨herror, hok⟩
  cases r with
  | error e =>
    rw [herror e rfl]
    exact onlyRule_refl t _
  | ok a =>
    obtain ⟨past, db, rfl, hp, rfl⟩ := hok a rfl
    exact hP a past db hp

theorem alone_update (change : PromptPayAutoConfig → Except String PromptPayAutoConfig) :
    Alone payEngine tx OnlyRule (updatePromptPayAutoConfig tx change) :=
  alone_ruleCall (nofun) callSafe_update fun _ _ _ h => ⟨_, h.2⟩

theorem alone_overwrite : Alone payEngine tx OnlyRule (transaction tx (overwriteBody tx)) := by
  have hbody : Body payEngine tx (fun _ _ _ => True) (fun _ => True)
      (fun (a : Unit) _ db => OnlyRule db.committed a (seen payEngine db tx)) [] (fun _ => True) []
      (overwriteBody tx) := by
    refine body_total atFault_true guards_true (execute_ne_error rfl) (fun _ => body_fail) ?_
    intro affected vs t _ hexec
    have hwrites : vs = [.putRule shutOff] ∨ vs = [] := by
      simp only [payEngine, execute] at hexec
      split at hexec <;> cases hexec
      · exact .inl rfl
      · exact .inr rfl
    refine body_forget (body_mono (fun _ _ => trivial) (body_ok guards_true ?_))
    rintro past db ⟨hown, -, -⟩
    rw [seen_of_own hown]
    rcases hwrites with rfl | rfl
    · exact ⟨some shutOff, rfl⟩
    · exact onlyRule_refl _ _
  exact alone_ruleCall (fun _ h => by cases h)
    (callSafe_transaction atFault_true guards_true hbody) fun _ _ _ h => h

theorem alone_disable : Alone payEngine tx OnlyRule (disablePromptPayAutoConfig tx) := by
  refine alone_then (alone_update disable) fun r => ?_
  cases r with
  | ok cfg => exact alone_answer _
  | error e => exact alone_overwrite

theorem alone_changeRule (failed : String)
    (change : PromptPayAutoConfig → Except String PromptPayAutoConfig) :
    Alone payEngine tx OnlyRule (changeRule c setting tx failed change) := by
  refine alone_then (alone_update change) fun r => ?_
  cases r with
  | error e => exact alone_answer _
  | ok cfg => exact alone_status

theorem alone_switchOff : Alone payEngine tx OnlyRule (switchOff tx) := by
  refine alone_then alone_disable fun r => ?_
  cases r with
  | error e | ok _ => exact alone_answer _

theorem alone_switchOn : Alone payEngine tx OnlyRule (switchOn c setting tx) := by
  refine alone_then alone_getRule fun r => ?_
  cases r with
  | error e => exact alone_answer _
  | ok cfg =>
    dsimp only
    split
    · exact alone_answer _
    split
    · exact alone_answer _
    · exact alone_changeRule _ _

theorem alone_runAutoCommand (name : String) (args : List String) :
    Alone payEngine tx OnlyRule (runAutoCommand c setting tx name args) := by
  unfold runAutoCommand
  split
  · split
    · exact alone_answer _
    · exact alone_status
  split
  · exact alone_switchOff
  split
  · exact alone_status
  split
  · exact alone_switchOn
  split
  · exact alone_answer _
  · exact alone_changeRule _ _

theorem alone_processAutoCommand (text : String) (telegramId : ℤ) (isAdmin : Bool) :
    Alone payEngine tx OnlyRule (processAutoCommand c setting tx text telegramId isAdmin) := by
  unfold processAutoCommand
  split
  · exact alone_answer _
  split
  · exact alone_answer _
  split
  · exact alone_answer _
  · exact alone_then (alone_runAutoCommand _ _) fun _ => alone_answer _

end Commands

end PromptPayAutoCommands
