import TinyToken.PromptPayAutoCommands

/-! The webhooks of the two chats, through which admins approve and reject manual orders. The
trade number comes from the text, from the message replied to, or from its caption. Rejection
looks at the provider of the order; approval does not. -/
namespace ChatWebhooks

open ProgramSteps LockingStore LockingPools KeyedTable PaymentStore PromptPayRule ManualTopUps
  PromptPayAutoVerify PromptPayAutoCommands GoText List Option
open ReadCommittedStore (TxId Db)

structure OtherPaymentMethod where
  telegramEnabled : Bool
  telegramBotToken : String
  telegramChatId : String
  confirmSecret : String

structure ChatSetting extends PaymentSetting where
  otherPaymentTelegramEnabled : Bool
  otherPaymentTelegramBotSecret : String
  otherPaymentTelegramChatId : String
  otherPaymentConfirmSecret : String
  otherPaymentMethods : List OtherPaymentMethod

/-- The settings, and the digest that stands in for a secret nobody has configured. -/
structure ChatWorld where
  setting : ChatSetting
  digest : String → String

structure TelegramTopupBotConfig where
  enabled : Bool
  token : String
  chatId : String
  secret : String

variable (c : PayConfig) (setting : ChatSetting) (w : ChatWorld) (tx : TxId)

def botConfigs : List TelegramTopupBotConfig :=
  [⟨setting.promptPayTelegramEnabled, setting.promptPayTelegramBotSecret,
      setting.promptPayTelegramChatId, ""⟩,
    ⟨setting.otherPaymentTelegramEnabled, setting.otherPaymentTelegramBotSecret,
      setting.otherPaymentTelegramChatId, setting.otherPaymentConfirmSecret⟩] ++
  setting.otherPaymentMethods.map fun m =>
    ⟨m.telegramEnabled, m.telegramBotToken, m.telegramChatId, m.confirmSecret⟩

def telegramApprovalBot (chatId : ℤ) : Option (String × String) :=
  ((botConfigs setting).find? fun config =>
    parseInt (trimSpace config.chatId) = some chatId && config.enabled && config.token ≠ "").map
      fun config => (config.token, config.secret)

def telegramTopupWebhookSecret (botToken configuredSecret : String) : String :=
  let configured :=
    if trimSpace configuredSecret = "" then trimSpace w.setting.otherPaymentConfirmSecret
    else trimSpace configuredSecret
  if configured ≠ "" then configured else w.digest ("tinyapi-topup:" ++ botToken)

def isOtherPaymentConfirmSecretValid (provided : String) : Bool :=
  trimSpace provided ≠ "" &&
    (trimSpace setting.otherPaymentConfirmSecret = trimSpace provided ||
      setting.otherPaymentMethods.any fun m => trimSpace m.confirmSecret = trimSpace provided)

def isPromptPayAutoBot (chatId : ℤ) (token : String) : Bool :=
  parseInt (trimSpace setting.promptPayTelegramChatId) = some chatId &&
    setting.promptPayTelegramEnabled && trimSpace setting.promptPayTelegramBotSecret = token

inductive TelegramTopupAction where
  | approve
  | reject

def parseTelegramTopupCommand (text : String) : Option (TelegramTopupAction × String) :=
  match fields (trimSpace text) with
  | [] => none
  | first :: args =>
    let command := toLower (before '@' first)
    if command ∈ ["1", "approve", "confirm", "/approve", "/confirm"] then
      some (.approve, args.headD "")
    else if command ∈ ["2", "reject", "deny", "/reject", "/deny"] then
      some (.reject, args.headD "")
    else none

def parseOtherPaymentConfirmText (text : String) : String :=
  match parseTelegramTopupCommand text with
  | some (.approve, tradeNo) => tradeNo
  | _ => ""

/-- What follows the label of a line, in the two languages of the notifications. -/
def labelled (line : String) : Option String :=
  ((after "เลขที่รายการ:" (trimSpace line)).or (after "Trade:" (trimSpace line))).map trimSpace

def tradeNoFromTelegramCaption (caption : String) : String :=
  ((lines caption).findSome? labelled).getD ""

def telegramTopupActionLabel : TelegramTopupAction → String
  | .reject => "ปฏิเสธ"
  | .approve => "อนุมัติ"

variable (d : TelegramDelivery) (named : List String) (messages : ApprovalMessages)
  (m : TelegramMessage) (action : TelegramTopupAction) (tradeNo : String)

def telegramTopupErrorMessage (tradeNo err : String) : String :=
  if err = "topup not found" then "ไม่พบรายการ " ++ tradeNo
  else if err = "topup is not a manual payment" then
    "รายการ " ++ tradeNo ++ " ไม่ใช่รายการโอนเงินแบบตรวจสอบโดยแอดมิน"
  else if err = "topup status invalid" then
    "รายการ " ++ tradeNo ++ " ถูกดำเนินการไปแล้ว ไม่สามารถ" ++ telegramTopupActionLabel action ++
      "ซ้ำได้"
  else
    "ไม่สามารถ" ++ telegramTopupActionLabel action ++ "รายการ " ++ tradeNo ++ " ได้: " ++ err

structure Reply where
  messageId : ℤ
  caption : String

structure TelegramMessage where
  messageId : ℤ
  text : String
  fromId : ℤ
  chatId : ℤ
  replyTo : Option Reply

/-- An update without a message, or one that does not decode, has none. `isAdmin` is what
Telegram says of the sender, and the times are those an approval or rejection samples. -/
structure TelegramDelivery where
  message : Option TelegramMessage
  secret : String
  isAdmin : Except String Bool
  sampledAt : ℤ
  completedAt : ℤ

structure LineEvent where
  type : String
  text : String

structure LineDelivery where
  secret : String
  events : Option (List LineEvent)
  sampledAt : ℤ
  completedAt : ℤ

inductive Delivery where
  | telegram (d : TelegramDelivery)
  | line (d : LineDelivery)

abbrev ApprovalMessages := ℤ × ℤ → Option String

inductive HttpReply where
  | success
  | unauthorized
  | error (text : String)

structure ChatReply where
  http : HttpReply
  sent : Option String

/-- The trade number of a command: its own, or that of the message it replies to. -/
def commandTrade : String :=
  match m.replyTo with
  | none => tradeNo
  | some reply =>
    if tradeNo ≠ "" then tradeNo
    else
      let known := (messages (m.chatId, reply.messageId)).getD ""
      if known ≠ "" then known else tradeNoFromTelegramCaption reply.caption

/-- `confirmOtherPaymentTrade`, without the lock of the process. -/
def confirmOtherPaymentTrade (telegramId : ℤ) (sampledAt completedAt : ℤ) :
    PayProg (Except String Bool) :=
  completeManualTopUp c tx ⟨tradeNo, telegramId, "", "", sampledAt, completedAt⟩

def approvedText (approved : Bool) : String :=
  if approved then "อนุมัติรายการ " ++ tradeNo ++ " สำเร็จ และเติมเครดิตให้ผู้ใช้แล้ว"
  else "รายการ " ++ tradeNo ++ " ได้รับการอนุมัติไปแล้ว ไม่มีการเติมเครดิตซ้ำ"

def rejectedText : String :=
  "ปฏิเสธรายการ " ++ tradeNo ++ " แล้ว ไม่มีการเติมเครดิต"

def settleTrade : PayProg (Except String String) :=
  match action with
  | .approve => do
    let r ← confirmOtherPaymentTrade c tx tradeNo m.fromId d.sampledAt d.completedAt
    pure (r.map (approvedText tradeNo))
  | .reject => do
    let r ← rejectManualTopUp tx tradeNo d.completedAt
    pure (r.map fun _ => rejectedText tradeNo)

def forget : ApprovalMessages :=
  match m.replyTo with
  | none => messages
  | some reply => Function.update messages (m.chatId, reply.messageId) none

def answer (text : String) : ChatReply := ⟨.success, some text⟩

def settledReply :
    Except String String → ChatReply × ApprovalMessages
  | .error e => (answer (telegramTopupErrorMessage action tradeNo e), messages)
  | .ok text => (answer text, forget messages m)

def autoAnswer (token name : String) :
    PayProg String :=
  let process (isAdmin : Bool) : PayProg String :=
    Prod.fst <$> processAutoCommand c w.setting.toPaymentSetting tx m.text m.fromId isAdmin
  if isPromptPayAutoBot w.setting m.chatId token = false then
    pure "คำสั่ง Auto Approve ใช้ได้เฉพาะกลุ่ม PromptPay ที่ตั้งค่าไว้"
  else if name = "/auto_id" then process false
  else match d.isAdmin with
    | .error _ => pure "ตรวจสอบสิทธิ์แอดมินไม่สำเร็จ กรุณาลองอีกครั้ง"
    | .ok false => pure "คำสั่ง Auto Approve ใช้ได้เฉพาะแอดมินของกลุ่ม"
    | .ok true => process true

def topupCommand (messages : ApprovalMessages) (action : TelegramTopupAction) (tradeNo : String) :
    PayProg (ChatReply × ApprovalMessages) :=
  match d.isAdmin with
  | .error _ => pure (answer "ตรวจสอบสิทธิ์แอดมินไม่สำเร็จ กรุณาลองอีกครั้ง", messages)
  | .ok false => pure (answer "คำสั่งอนุมัติหรือปฏิเสธใช้ได้เฉพาะแอดมินของกลุ่ม", messages)
  | .ok true =>
    if commandTrade messages m tradeNo = "" then
      pure (answer "ไม่พบเลขที่รายการ กรุณา reply ที่รูปสลิปด้วย 1 เพื่ออนุมัติ หรือ 2 เพื่อปฏิเสธ\nหรือส่ง 1 เลขที่รายการ / 2 เลขที่รายการ",
        messages)
    else do
      let r ← settleTrade c tx d m action (commandTrade messages m tradeNo)
      pure (settledReply messages m action (commandTrade messages m tradeNo) r)

def otherPaymentTelegramWebhook :
    PayProg (ChatReply × ApprovalMessages) :=
  match d.message with
  | none => pure (⟨.success, none⟩, messages)
  | some m =>
    match telegramApprovalBot w.setting m.chatId with
    | none => pure (⟨.unauthorized, none⟩, messages)
    | some (token, secret) =>
      if d.secret ≠ telegramTopupWebhookSecret w token secret then
        pure (⟨.unauthorized, none⟩, messages)
      else match parseAutoCommand m.text with
        | some (name, _) => do
          let text ← autoAnswer c w tx d m token name
          pure (answer text, messages)
        | none =>
          match parseTelegramTopupCommand m.text with
          | none => pure (⟨.success, none⟩, messages)
          | some (action, tradeNo) => topupCommand c tx d m messages action tradeNo

def eventTrade (e : LineEvent) : String :=
  if e.type = "text" then parseOtherPaymentConfirmText e.text else ""

def confirmEvents (c : PayConfig) (tx : TxId) (d : LineDelivery) :
    List LineEvent → PayProg ChatReply
  | [] => pure ⟨.success, none⟩
  | e :: es =>
    if eventTrade e = "" then confirmEvents c tx d es
    else do
      match ← confirmOtherPaymentTrade c tx (eventTrade e) 0 d.sampledAt d.completedAt with
      | .error err => pure ⟨.error err, none⟩
      | .ok _ => confirmEvents c tx d es

def otherPaymentLineWebhook (d : LineDelivery) : PayProg ChatReply :=
  if isOtherPaymentConfirmSecretValid w.setting d.secret = false then
    pure ⟨.unauthorized, none⟩
  else match d.events with
    | none => pure ⟨.success, none⟩
    | some events => confirmEvents c tx d events

def Delivery.program :
    Delivery → PayProg (ChatReply × ApprovalMessages)
  | .telegram d => otherPaymentTelegramWebhook c w tx d messages
  | .line d => do
    let reply ← otherPaymentLineWebhook c w tx d
    pure (reply, messages)

def Delivery.approves : Delivery → List String
  | .telegram d =>
    match d.message with
    | none => []
    | some m =>
      match parseTelegramTopupCommand m.text with
      | some (.approve, tradeNo) => [commandTrade messages m tradeNo]
      | _ => []
  | .line d => (d.events.getD []).map eventTrade

/-- The changes a chat makes: to the rule, by an approval by hand of an order that is named,
and by a rejection. -/
inductive ChatStep (c : PayConfig) (named : List String) (t u : PayTables) : Prop where
  | rule (r : Option SavedRule) (h : u = { t with rule := r })
  | approve (call : Approval) (approved : Bool) (hnamed : call.tradeNo ∈ named)
      (h : CompleteEffect c call t approved u)
  | reject (tradeNo : String) (now : ℤ) (h : RejectEffect tradeNo now t u)

abbrev ChatSteps : PayTables → PayTables → Prop :=
  Relation.ReflTransGen (ChatStep c named)

abbrev ChatAlone (tx : TxId) {α : Type} : PayProg α → Prop :=
  Alone payEngine tx fun t _ u => ChatSteps c named t u

section Deliveries

variable {c : PayConfig} {w : ChatWorld} {tx : TxId} {named : List String} {α β : Type}

theorem steps_pure (a : α) : ChatAlone c named tx (pure a : PayProg α) :=
  alone_pure fun _ => .refl

theorem steps_bind {prog : PayProg α} {k : α → PayProg β}
    (h : ChatAlone c named tx prog) (hk : ∀ a, ChatAlone c named tx (k a)) :
    ChatAlone c named tx (prog >>= k) :=
  alone_bind h hk fun _ _ _ _ _ hu hv => hu.trans hv

theorem steps_confirm {tradeNo : String} {telegramId sampledAt completedAt : ℤ}
    (hnamed : tradeNo ∈ named) :
    ChatAlone c named tx (confirmOtherPaymentTrade c tx tradeNo telegramId sampledAt completedAt) := by
  apply alone_mono (alone_call (completeManualTopUp_ne c tx _) callSafe_complete)
  rintro t r u ⟨herror, hok⟩
  cases r with
  | error e => rw [herror e rfl]
  | ok approved =>
    obtain ⟨past, db, rfl, hP, rfl⟩ := hok approved rfl
    exact .single (.approve _ approved hnamed hP)

theorem steps_reject {tradeNo : String} {now : ℤ} :
    ChatAlone c named tx (rejectManualTopUp tx tradeNo now) := by
  apply alone_mono (alone_call (rejectManualTopUp_ne tx tradeNo now) callSafe_reject)
  rintro t r u ⟨herror, hok⟩
  cases r with
  | error e => rw [herror e rfl]
  | ok a =>
    obtain ⟨past, db, rfl, hP, rfl⟩ := hok a rfl
    exact .single (.reject tradeNo now hP)

theorem steps_auto {prog : PayProg α} (h : Alone payEngine tx OnlyRule prog) : ChatAlone c named tx prog :=
  alone_mono h fun _ _ _ hrule => .single (.rule _ hrule.choose_spec)

theorem steps_autoAnswer {d : TelegramDelivery} {m : TelegramMessage} {token name : String} :
    ChatAlone c named tx (autoAnswer c w tx d m token name) := by
  have hprocess : ∀ isAdmin, ChatAlone c named tx
      (Prod.fst <$> processAutoCommand c w.setting.toPaymentSetting tx m.text m.fromId isAdmin) := by
    intro isAdmin
    exact steps_bind (steps_auto (alone_processAutoCommand _ _ _)) fun _ => steps_pure _
  unfold autoAnswer
  split
  · exact steps_pure _
  split
  · exact hprocess false
  split
  · exact steps_pure _
  · exact steps_pure _
  · exact hprocess true

theorem steps_topupCommand {d : TelegramDelivery} {m : TelegramMessage}
    {messages : ApprovalMessages} {action : TelegramTopupAction} {tradeNo : String}
    (hnamed : action = .approve → commandTrade messages m tradeNo ∈ named) :
    ChatAlone c named tx (topupCommand c tx d m messages action tradeNo) := by
  unfold topupCommand
  split
  · exact steps_pure _
  · exact steps_pure _
  split
  · exact steps_pure _
  refine steps_bind ?_ fun _ => steps_pure _
  cases action with
  | approve => exact steps_bind (steps_confirm (hnamed rfl)) fun _ => steps_pure _
  | reject => exact steps_bind steps_reject fun _ => steps_pure _

theorem steps_telegram (d : TelegramDelivery) (messages : ApprovalMessages) :
    ChatAlone c ((Delivery.telegram d).approves messages) tx (otherPaymentTelegramWebhook c w tx d messages) := by
  unfold otherPaymentTelegramWebhook
  split
  · exact steps_pure _
  rename_i m hm
  split
  · exact steps_pure _
  split
  · exact steps_pure _
  split
  · exact steps_bind steps_autoAnswer fun _ => steps_pure _
  split
  · exact steps_pure _
  rename_i action tradeNo hcommand
  apply steps_topupCommand
  rintro rfl
  simp [Delivery.approves, hm, hcommand]

theorem steps_confirmEvents {d : LineDelivery} {events : List LineEvent}
    (hnamed : ∀ e ∈ events, eventTrade e ∈ named) :
    ChatAlone c named tx (confirmEvents c tx d events) := by
  induction events with
  | nil => exact steps_pure _
  | cons e es ih =>
    have hes := ih fun e' he' => hnamed e' (mem_cons_of_mem e he')
    unfold confirmEvents
    split
    · exact hes
    refine steps_bind (steps_confirm (hnamed e mem_cons_self)) fun r => ?_
    cases r with
    | error err => exact steps_pure _
    | ok _ => exact hes

theorem steps_line (d : LineDelivery) (messages : ApprovalMessages) :
    ChatAlone c ((Delivery.line d).approves messages) tx (otherPaymentLineWebhook c w tx d) := by
  unfold otherPaymentLineWebhook
  split
  · exact steps_pure _
  split
  · exact steps_pure _
  rename_i events hevents
  refine steps_confirmEvents fun e he => ?_
  simp only [Delivery.approves, hevents, getD_some]
  exact mem_map_of_mem he

theorem steps_delivery (d : Delivery) (messages : ApprovalMessages) :
    ChatAlone c (d.approves messages) tx (d.program c w tx messages) := by
  cases d with
  | telegram d =>
    exact steps_telegram d messages
  | line d => exact steps_bind (steps_line d messages) fun _ => steps_pure _

end Deliveries

/-- From `t₀` to `t` no order but a manual one has changed, and whoever has another quota has
had a manual order approved. -/
structure ManualOnly (t₀ t : PayTables) : Prop where
  orders : ∀ id row₀, t₀.topUps.find? id = some row₀ → ∃ row, t.topUps.find? id = some row ∧
    SameOrder row₀ row ∧
    (row = row₀ ∨ (isManual row₀.paymentProvider = true ∧ row₀.status = .pending))
  known : ∀ id, t₀.topUps.find? id = none → t.topUps.find? id = none
  credited : ∀ userId, t.quota userId ≠ t₀.quota userId → ∃ id row₀,
    t₀.topUps.find? id = some row₀ ∧ row₀.userId = userId ∧
    isManual row₀.paymentProvider = true ∧ row₀.status = .pending ∧ statusOf t id = some .success

def NamesManual (t : PayTables) : Prop :=
  ∀ id row, t.topUps.find? id = some row → row.tradeNo ∈ named → row.status = .pending →
    isManual row.paymentProvider = true

section Invariant

variable {c : PayConfig} {t₀ t u : PayTables} {named : List String}

theorem manualOnly_refl (t : PayTables) : ManualOnly t t where
  orders := fun _ row₀ h => ⟨row₀, h, rfl, .inl rfl⟩
  known := fun _ h => h
  credited := fun _ h => absurd rfl h

variable {topUp : TopUp}

theorem ManualOnly.origin (h : ManualOnly t₀ t)
    (hstored : t.topUps.find? topUp.id = some topUp) (hpending : topUp.status = .pending) :
    ∃ row₀, t₀.topUps.find? topUp.id = some row₀ ∧ SameOrder row₀ topUp ∧
      row₀.status = .pending := by
  cases hrow₀ : t₀.topUps.find? topUp.id with
  | none =>
    rw [h.known _ hrow₀] at hstored
    cases hstored
  | some row₀ =>
    obtain ⟨row, hrow, hsame, hcases⟩ := h.orders _ row₀ hrow₀
    rw [hstored] at hrow
    cases hrow
    refine ⟨row₀, rfl, hsame, ?_⟩
    rcases hcases with heq | ⟨-, hfirst⟩
    · rwa [← heq]
    · exact hfirst

variable {status : OrderStatus}

theorem quota_of_ne {userId delta : ℤ} {other : ℤ} (hne : other ≠ userId)
    (htable : u.wallets = creditWallets t.wallets userId delta .none) :
    u.quota other = t.quota other := by
  rw [PayTables.quota, PayTables.quota, htable, find?_creditWallets]
  cases hw : t.wallets.find? other with
  | none => rfl
  | some wallet =>
    have hid : wallet.id ≠ userId := by
      rw [Table.find?_some_key hw]
      exact hne
    simp [creditWallet, hid]

section

variable (h : ManualOnly t₀ t)
include h

section

variable (hstored : t.topUps.find? topUp.id = some topUp) (hpending : topUp.status = .pending)
include hstored hpending

theorem orders_save {now : ℤ} (hmanual : isManual topUp.paymentProvider = true)
    (htable : u.topUps = t.topUps.save (finished topUp status now)) :
    (∀ id row₀, t₀.topUps.find? id = some row₀ → ∃ row, u.topUps.find? id = some row ∧
      SameOrder row₀ row ∧
      (row = row₀ ∨ (isManual row₀.paymentProvider = true ∧ row₀.status = .pending))) ∧
    ∀ id, t₀.topUps.find? id = none → u.topUps.find? id = none := by
  obtain ⟨first, hfirst, hsame, hwas⟩ := h.origin hstored hpending
  constructor
  · intro id row₀ hrow₀
    rw [htable, find?_save_finished]
    by_cases hid : id = topUp.id
    · rw [hid, hfirst] at hrow₀
      cases hrow₀
      have hprovider : topUp.paymentProvider = first.paymentProvider := by rw [hsame]
      refine ⟨_, if_pos hid, sameOrder_finished hsame, .inr ⟨?_, hwas⟩⟩
      rw [← hprovider]
      exact hmanual
    · rw [if_neg hid]
      exact h.orders id row₀ hrow₀
  · intro id hnone
    rw [htable, find?_save_finished, if_neg, h.known id hnone]
    rintro rfl
    rw [hfirst] at hnone
    cases hnone

theorem credited_save {now : ℤ} (htable : u.topUps = t.topUps.save (finished topUp status now))
    {userId : ℤ} (hquota : t.quota userId ≠ t₀.quota userId) : ∃ id row₀,
    t₀.topUps.find? id = some row₀ ∧ row₀.userId = userId ∧
    isManual row₀.paymentProvider = true ∧ row₀.status = .pending ∧ statusOf u id = some .success := by
  obtain ⟨id, row₀, hrow₀, huser, hmanual, hwas, hstatus⟩ := h.credited userId hquota
  refine ⟨id, row₀, hrow₀, huser, hmanual, hwas, ?_⟩
  -- an order that is approved is not the one that was pending
  have hne : id ≠ topUp.id := by
    rintro rfl
    rw [statusOf, hstored, map_some, hpending] at hstatus
    cases hstatus
  rw [statusOf_save htable, if_neg hne]
  exact hstatus

theorem ManualOnly.fail {now : ℤ} (hmanual : isManual topUp.paymentProvider = true) :
    ManualOnly t₀ (failOrder topUp now t) where
  orders := (orders_save h hstored hpending hmanual rfl).1
  known := (orders_save h hstored hpending hmanual rfl).2
  credited := fun _ hquota => credited_save h hstored hpending rfl hquota

end

theorem ManualOnly.credit {call : Approval} (ha : Approvable c call topUp t)
    (hmanual : isManual topUp.paymentProvider = true) :
    ManualOnly t₀ (creditOrder c call topUp t) where
  orders := (orders_save h ha.stored ha.pending hmanual rfl).1
  known := (orders_save h ha.stored ha.pending hmanual rfl).2
  credited := by
    intro userId hquota
    by_cases huser : userId = topUp.userId
    · obtain ⟨row₀, hrow₀, hsame, hwas⟩ := h.origin ha.stored ha.pending
      refine ⟨topUp.id, row₀, hrow₀, ?_, ?_, hwas, ?_⟩
      · rw [huser, hsame]
      · have hprovider : topUp.paymentProvider = row₀.paymentProvider := by rw [hsame]
        rw [← hprovider]
        exact hmanual
      · rw [statusOf_save (t := t) rfl, if_pos rfl]
    · rw [quota_of_ne (t := t) huser rfl] at hquota
      exact credited_save h ha.stored ha.pending rfl hquota

theorem ManualOnly.rule (r : Option SavedRule) :
    ManualOnly t₀ { t with rule := r } := ⟨h.orders, h.known, h.credited⟩

end

theorem namesManual_save (h : NamesManual named t) {now : ℤ} (hstatus : status ≠ .pending)
    (htable : u.topUps = t.topUps.save (finished topUp status now)) : NamesManual named u := by
  intro id row hrow htrade hpending
  rw [htable, find?_save_finished] at hrow
  split at hrow
  · cases hrow
    exact absurd hpending hstatus
  · exact h id row hrow htrade hpending

theorem chatStep_manualOnly (hs : ChatStep c named t u) (h : ManualOnly t₀ t)
    (hnames : NamesManual named t) : ManualOnly t₀ u ∧ NamesManual named u := by
  cases hs with
  | rule r he =>
    rw [he]
    exact ⟨h.rule r, hnames⟩
  | approve call approved hnamed he =>
    cases he with
    | already _ => exact ⟨h, hnames⟩
    | approved topUp ha =>
      have hmanual : isManual topUp.paymentProvider = true :=
        hnames topUp.id topUp ha.stored (by rw [ha.tradeNo]; exact hnamed) ha.pending
      exact ⟨h.credit ha hmanual, namesManual_save hnames (by decide) rfl⟩
  | reject tradeNo now he =>
    cases he with
    | already => exact ⟨h, hnames⟩
    | rejected topUp hr =>
      exact ⟨h.fail hr.stored hr.pending hr.manual, namesManual_save hnames (by decide) rfl⟩

theorem chatSteps_manualOnly (hs : ChatSteps c named t u) (h : ManualOnly t₀ t)
    (hnames : NamesManual named t) : ManualOnly t₀ u ∧ NamesManual named u := by
  induction hs with
  | refl => exact ⟨h, hnames⟩
  | tail _ hstep ih => exact chatStep_manualOnly hstep ih.1 ih.2

end Invariant

structure ChatState where
  store : TransactionPools.Store PayTables PayWrite
  messages : ApprovalMessages

def ChatState.tables (s : ChatState) : PayTables := s.store.state.committed

def deliver (d : Delivery) (s : ChatState) : Option (ChatReply × ChatState) :=
  (run (faultyHandle payEngine) (d.program c w tx s.messages) s.store).map fun p =>
    (p.1.1, ⟨p.2, p.1.2⟩)

/-- A delivery whose approvals name manual orders, as the orders stand when it arrives. -/
def Delivers (s s' : ChatState) : Prop :=
  ∃ d reply, NamesManual (d.approves s.messages) s.tables ∧ deliver c w tx d s = some (reply, s')

section Runs

variable {c : PayConfig} {w : ChatWorld} {tx : TxId} {s s' : ChatState}

theorem deliver_steps {d : Delivery} {reply : ChatReply} (hidle : s.store.state.own tx = [])
    (h : deliver c w tx d s = some (reply, s')) :
    s'.store.state.own tx = [] ∧ ChatSteps c (d.approves s.messages) s.tables s'.tables := by
  obtain ⟨⟨a, store⟩, hrun, heq⟩ := map_eq_some_iff.mp h
  cases heq
  exact steps_delivery d s.messages s.store hidle a store hrun

/-- In every sequence of deliveries whose approvals name manual orders, only manual orders are
changed or credited. -/
theorem deliveries_touch_manual_orders (hidle : s.store.state.own tx = [])
    (hrun : Relation.ReflTransGen (Delivers c w tx) s s') : ManualOnly s.tables s'.tables := by
  have hinv : s'.store.state.own tx = [] ∧ ManualOnly s.tables s'.tables := by
    induction hrun with
    | refl => exact ⟨hidle, manualOnly_refl _⟩
    | tail _ hstep ih =>
      obtain ⟨d, reply, hnames, hdeliver⟩ := hstep
      obtain ⟨hnext, hsteps⟩ := deliver_steps ih.1 hdeliver
      exact ⟨hnext, (chatSteps_manualOnly hsteps ih.2 hnames).1⟩
  exact hinv.2

def groupWorld : ChatWorld where
  setting :=
    { promptPayEnabled := true
      promptPayTelegramEnabled := true
      promptPayTelegramBotSecret := "token"
      promptPayTelegramChatId := "-1001"
      promptPaySlipProvider := ""
      promptPaySlipApiKey := ""
      promptPaySlipApiURL := none
      otherPaymentTelegramEnabled := false
      otherPaymentTelegramBotSecret := ""
      otherPaymentTelegramChatId := ""
      otherPaymentConfirmSecret := "secret"
      otherPaymentMethods := [] }
  digest := fun text => text

def quietState (topUps : Table TopUp ℤ TopUp.id) : ChatState :=
  ⟨⟨Db.idle (waitingTables topUps none), []⟩, fun _ => none⟩

def replyDelivery : Delivery :=
  .telegram ⟨some ⟨51, "1", 5, -1001, some ⟨50, "เลขที่รายการ: THA7NOabcdef1700000000"⟩⟩, "secret",
    .ok true, 1700000100, 1700000101⟩

def manualState : ChatState := quietState ⟨[waitingOrder], by decide⟩

theorem reply_credits_manual_order :
    ∃ s', Relation.ReflTransGen (Delivers unitConfig groupWorld 1) manualState s' ∧
      s'.tables.quota 7 = 5000000 ∧ ManualOnly manualState.tables s'.tables := by
  have hobs : (deliver unitConfig groupWorld 1 replyDelivery manualState).map
      (fun p => p.2.tables.quota 7) = some 5000000 := by
    decide +kernel
  obtain ⟨⟨reply, s'⟩, hdeliver, hquota⟩ := map_eq_some_iff.mp hobs
  have hnames : NamesManual (replyDelivery.approves manualState.messages) manualState.tables := by
    intro id row hrow _ _
    cases mem_singleton.mp (Table.find?_some_mem hrow)
    rfl
  have hrun := Relation.ReflTransGen.single
    (show Delivers unitConfig groupWorld 1 manualState s' from ⟨_, reply, hnames, hdeliver⟩)
  exact ⟨s', hrun, hquota, deliveries_touch_manual_orders rfl hrun⟩

def onlineOrder : TopUp :=
  { waitingOrder with
    tradeNo := "ref_4f1c"
    paymentMethod := "stripe"
    paymentProvider := .stripe }

def lineDelivery : Delivery :=
  .line ⟨"secret", some [⟨"text", "1 ref_4f1c"⟩], 1700000100, 1700000101⟩

def onlineState : ChatState := quietState ⟨[onlineOrder], by decide⟩

/-- A chat message completes the order of an online provider. -/
theorem chat_completes_online_order :
    ∃ reply s', deliver unitConfig groupWorld 1 lineDelivery onlineState = some (reply, s') ∧
      statusOf s'.tables 1 = some .success ∧ s'.tables.quota 7 = 5000000 ∧
      ¬ ManualOnly onlineState.tables s'.tables := by
  have hobs : (deliver unitConfig groupWorld 1 lineDelivery onlineState).map
        (fun p => decide (statusOf p.2.tables 1 = some .success ∧ p.2.tables.quota 7 = 5000000)) =
      some true := by
    decide +kernel
  obtain ⟨⟨reply, s'⟩, hdeliver, hobs⟩ := map_eq_some_iff.mp hobs
  obtain ⟨hstatus, hquota⟩ := of_decide_eq_true hobs
  refine ⟨reply, s', hdeliver, hstatus, hquota, fun honly => ?_⟩
  obtain ⟨row, hrow, -, hcases⟩ := honly.orders 1 onlineOrder rfl
  rcases hcases with rfl | ⟨hmanual, -⟩
  · rw [statusOf, hrow] at hstatus
    cases hstatus
  · cases hmanual

end Runs

end ChatWebhooks
