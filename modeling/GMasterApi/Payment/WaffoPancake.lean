import GMasterApi.Lib.GoValue
import GMasterApi.Lib.JsonFields
import GMasterApi.Payment.SubscriptionOrder

/-!
# Waffo Pancake webhooks

A webhook reads the mode out of its payload first, which selects the key that the
signature is checked with; the event is decoded after that, and its trade number names a
top-up or a subscription order, by its prefix.

`attested_of_completes` says what an order that is completed has been attested by: the
key of the environment that the payload names, whatever the configuration selects.
-/

namespace WaffoPancake

open GoString GoValue JsonValue Sql
open TopUps (TopUp)
open SubscriptionOrders (SubscriptionOrder)

def waffoPancakeDefaultTolerance : ℤ := 300000
def paymentProviderWaffoPancake : String := "waffo_pancake"
def paymentMethodWaffoPancake : String := "waffo_pancake"

structure WebhookData where
  id : String
  orderID : String
  orderMerchantExternalID : String
  buyerEmail : String
  currency : String
  amount : String
  taxAmount : String
  productName : String
  deriving DecidableEq

structure WebhookEvent where
  id : String
  timestamp : String
  eventType : String
  eventID : String
  storeID : String
  mode : String
  data : WebhookData
  deriving DecidableEq

inductive Environment
  | test
  | prod
  deriving DecidableEq

/-- The settings of the gateway. -/
structure Config where
  complianceConfirmed : Bool
  enabled : Bool
  sandbox : Bool
  merchantID : String
  privateKey : String
  webhookPublicKey : String
  webhookTestKey : String
  storeID : String
  currency : String

abbrev Bytes := List UInt8

structure PemBlock where
  kind : String
  bytes : Bytes

/-- The packages that the webhook rests on, with keys of the type `κ`: `verifyPKCS1v15` holds
of a key, a text and a signature of it by that key.  A PKIX key may be of another kind than
RSA; `literal` is the text that a number was written with. -/
structure Packages (κ : Type) where
  parse : String → Option Json
  literal : ℚ → String
  getJsonString : WebhookEvent → String
  letters : Lower
  pemDecode : String → Option PemBlock
  base64Decode : String → Option Bytes
  parsePKIXPublicKey : Bytes → Option (Option κ)
  parsePKCS1PublicKey : Bytes → Option κ
  verifyPKCS1v15 : κ → String → Bytes → Bool

/-- The clock of the server, in milliseconds since 1970; 64 bits hold it by far. -/
structure Clock where
  ms : ℤ
  nonneg : 0 ≤ ms
  small : ms < 2 ^ 62

variable {κ : Type} (pkg : Packages κ) (cfg : Config) (clock : Clock)

/-! ## Decoding -/

/-- `dto.StringValue`: a text, or the text of a number; `null` empties it. -/
def decodeStringValue (field value : String) : Members → Option String
  | [] => some value
  | (key, member) :: rest =>
    if isKey field key then
      match member with
      | .string s => decodeStringValue field s rest
      | .number q => decodeStringValue field (pkg.literal q) rest
      | .null => decodeStringValue field "" rest
      | _ => none
    else decodeStringValue field value rest

def decodeData (members : Members) : Option WebhookData := do
  let id ← decodeText "id" "" members
  let orderID ← decodeText "orderId" "" members
  let orderMerchantExternalID ← decodeText "orderMerchantExternalId" "" members
  let buyerEmail ← decodeText "buyerEmail" "" members
  let currency ← decodeText "currency" "" members
  let amount ← decodeStringValue pkg "amount" "" members
  let taxAmount ← decodeStringValue pkg "taxAmount" "" members
  let productName ← decodeText "productName" "" members
  return ⟨id, orderID, orderMerchantExternalID, buyerEmail, currency, amount, taxAmount,
    productName⟩

def decodeEvent (members : Members) : Option WebhookEvent := do
  let id ← decodeText "id" "" members
  let timestamp ← decodeText "timestamp" "" members
  let eventType ← decodeText "eventType" "" members
  let eventID ← decodeText "eventId" "" members
  let storeID ← decodeText "storeId" "" members
  let mode ← decodeText "mode" "" members
  let data ← (decodeMembers "data" members).bind (decodeData pkg)
  return ⟨id, timestamp, eventType, eventID, storeID, mode, data⟩

/-- `common.Unmarshal` into a struct that `decode` fills; `null` leaves it empty. -/
def unmarshal {β : Type} (decode : Members → Option β) (payload : String) : Option β :=
  match pkg.parse payload with
  | some (.object members) => decode members
  | some .null => decode []
  | _ => none

/-! ## The key -/

def Config.environment : Environment := if cfg.sandbox then .test else .prod

/-- The environment that a mode names, else the one that is configured. -/
def environmentOf (mode : String) : Environment :=
  let mode := pkg.letters.toLower (trimSpace mode)
  if mode = "test" then .test else if mode = "prod" then .prod else cfg.environment

def resolveWaffoPancakeWebhookEnvironment (payload : String) : Environment :=
  match unmarshal pkg (decodeText "mode" "") payload with
  | none => cfg.environment
  | some mode => environmentOf pkg cfg mode

def resolveWaffoPancakeWebhookPublicKey : Environment → String
  | .prod => trimSpace cfg.webhookPublicKey
  | .test => trimSpace cfg.webhookTestKey

/-- The block that `normalizePEMKey` writes, as `pem.Decode` reads it again. -/
def normalizeRSAPublicKey (raw : String) : Option PemBlock :=
  if trimSpace raw = "" then none
  else
    let normalized := trimSpace (replaceAll raw "\\n" "\n")
    if contains normalized "BEGIN " then pkg.pemDecode normalized
    else
      (pkg.base64Decode (removeAll normalized "\n")).bind fun der =>
        if (pkg.parsePKIXPublicKey der).isSome then some ⟨"PUBLIC KEY", der⟩
        else if (pkg.parsePKCS1PublicKey der).isSome then some ⟨"RSA PUBLIC KEY", der⟩
        else none

def publicKey (raw : String) : Option κ :=
  (normalizeRSAPublicKey pkg raw).bind fun block =>
    if block.kind = "PUBLIC KEY" then (pkg.parsePKIXPublicKey block.bytes).join
    else if block.kind = "RSA PUBLIC KEY" then pkg.parsePKCS1PublicKey block.bytes
    else none

def verifyWaffoPancakeWebhookWithKey (signatureInput signaturePart rawPublicKey : String) : Bool :=
  match publicKey pkg rawPublicKey, pkg.base64Decode signaturePart with
  | some key, some signature => pkg.verifyPKCS1v15 key signatureInput signature
  | _, _ => false

/-! ## The signature -/

/-- The parts `t` and `v1`, the last of each. -/
def parseWaffoPancakeSignatureHeader (header : String) : String × String :=
  (split header ',').foldl (fun parts pair =>
    match cut (trimSpace pair) '=' with
    | none => parts
    | some (key, value) =>
      if key = "t" then (value, parts.2) else if key = "v1" then (parts.1, value) else parts)
    ("", "")

/-- The difference is one of 64 bits, and a `float64` holds what it is compared with. -/
def outsideTolerance (timestampMs : ℤ) : Bool :=
  waffoPancakeDefaultTolerance < ((clock.ms - timestampMs).bmod (2 ^ 64)).natAbs

def verifyWaffoPancakeWebhook (payload signatureHeader : String) (environment : Environment) :
    Except String WebhookEvent :=
  if signatureHeader = "" then .error "missing X-Waffo-Signature header"
  else
    let (timestampPart, signaturePart) := parseWaffoPancakeSignatureHeader signatureHeader
    if timestampPart = "" ∨ signaturePart = "" then .error "malformed X-Waffo-Signature header"
    else
      match atoi timestampPart with
      | none => .error "invalid timestamp in X-Waffo-Signature header"
      | some timestampMs =>
        if outsideTolerance clock timestampMs then
          .error "webhook timestamp outside tolerance window"
        else if !verifyWaffoPancakeWebhookWithKey pkg (timestampPart ++ "." ++ payload)
            signaturePart (resolveWaffoPancakeWebhookPublicKey cfg environment) then
          .error "invalid webhook signature"
        else
          match unmarshal pkg (decodeEvent pkg) payload with
          | none => .error "parse Waffo Pancake webhook payload"
          | some event => .ok event

def verifyConfiguredWaffoPancakeWebhook (payload signatureHeader : String) :
    Except String WebhookEvent :=
  verifyWaffoPancakeWebhook pkg cfg clock payload signatureHeader
    (resolveWaffoPancakeWebhookEnvironment pkg cfg payload)

/-! ## The order -/

/-- The tables that a trade number is looked up in. -/
structure Db where
  topUps : Table TopUp TopUp.tradeNo
  orders : Table SubscriptionOrder SubscriptionOrder.tradeNo

def resolveWaffoPancakeWebhookTradeNo (event : WebhookEvent) : String :=
  let tradeNo := trimSpace event.data.orderMerchantExternalID
  if tradeNo ≠ "" then tradeNo else trimSpace event.data.orderID

/-- The trade number of an event, of whose order the provider has been looked up. -/
def resolveTradeNo (provider : String → Option String) (event : WebhookEvent) : Option String :=
  let tradeNo := resolveWaffoPancakeWebhookTradeNo event
  if tradeNo ≠ "" ∧ provider tradeNo = some paymentProviderWaffoPancake then some tradeNo else none

def resolveWaffoPancakeTradeNo (db : Db) : WebhookEvent → Option String :=
  resolveTradeNo fun tradeNo => (db.topUps.find tradeNo).map TopUp.paymentProvider

def resolveWaffoPancakeSubscriptionTradeNo (db : Db) : WebhookEvent → Option String :=
  resolveTradeNo fun tradeNo => (db.orders.find tradeNo).map SubscriptionOrder.paymentProvider

/-- The transaction that a webhook asks for. -/
inductive Completion
  | rechargeWaffoPancake (tradeNo : String)
  | completeSubscriptionOrder (tradeNo providerPayload : String)
  deriving DecidableEq

def isWaffoPancakeWebhookEnabled : Bool :=
  let currentWebhookKey := if cfg.sandbox then cfg.webhookTestKey else cfg.webhookPublicKey
  cfg.complianceConfirmed && cfg.enabled && trimSpace currentWebhookKey != "" &&
    trimSpace cfg.merchantID != "" && trimSpace cfg.privateKey != "" && trimSpace cfg.storeID != ""

def subscriptionPrefix : String := "WAFFO_PANCAKE_SUB-"

/-- The answer that ends the request, or the transaction that it goes on with. -/
def waffoPancakeWebhook (db : Db) (payload signature : String) : Except (ℕ × String) Completion :=
  if !isWaffoPancakeWebhookEnabled cfg then .error (403, "webhook disabled")
  else
    match verifyConfiguredWaffoPancakeWebhook pkg cfg clock payload signature with
    | .error _ => .error (401, "invalid signature")
    | .ok event =>
      if event.eventType ≠ "order.completed" then .error (200, "OK")
      else if hasPrefix (resolveWaffoPancakeWebhookTradeNo event) subscriptionPrefix then
        match resolveWaffoPancakeSubscriptionTradeNo db event with
        | none => .error (200, "OK")
        | some tradeNo => .ok (.completeSubscriptionOrder tradeNo (pkg.getJsonString event))
      else
        match resolveWaffoPancakeTradeNo db event with
        | none => .error (200, "OK")
        | some tradeNo => .ok (.rechargeWaffoPancake tradeNo)

inductive Order
  | topUp (row : TopUp)
  | subscription (row : SubscriptionOrder)

def Order.tradeNo : Order → String
  | .topUp row => row.tradeNo
  | .subscription row => row.tradeNo

def Order.paymentProvider : Order → String
  | .topUp row => row.paymentProvider
  | .subscription row => row.paymentProvider

def Order.status : Order → TopUps.TopUpStatus
  | .topUp row => row.status
  | .subscription row => row.status

def Order.isSubscription : Order → Bool
  | .topUp _ => false
  | .subscription _ => true

/-- The transaction finds the order, and its writes leave it paid. -/
inductive Completes (topUps : TopUps.Config) (zone : GoTime.Zone) : Completion → Order → Prop
  | topUp {tradeNo : String} {now : ℤ} {lock : Option ℕ} {seen : TopUps.Store}
    {ws : List TopUps.Write} :
    (TopUps.protocol topUps).Outcome
      ⟨.completeTopUpByTradeNo tradeNo [paymentProviderWaffoPancake] now, lock⟩ seen ws →
    TopUps.leavesPending ws = true →
    Completes topUps zone (.rechargeWaffoPancake tradeNo) (.topUp seen.order)
  | subscription {call : SubscriptionOrders.Complete} {seen : SubscriptionOrders.Store}
    {ws : List SubscriptionOrders.Write} :
    call.expectedPaymentProvider = paymentProviderWaffoPancake →
    call.actualPaymentMethod = paymentMethodWaffoPancake →
    (SubscriptionOrders.protocol zone).Outcome (.complete call) seen ws →
    .success ∈ SubscriptionOrders.savedBy ws →
    Completes topUps zone (.completeSubscriptionOrder call.tradeNo call.providerPayload)
      (.subscription seen.order)

def Completion.tradeNo : Completion → String
  | .rechargeWaffoPancake tradeNo => tradeNo
  | .completeSubscriptionOrder tradeNo _ => tradeNo

def Completion.isSubscription : Completion → Bool
  | .rechargeWaffoPancake _ => false
  | .completeSubscriptionOrder _ _ => true

/-! ## What is promised -/

/-- The payload was signed, at a time that is near enough, by the key of the environment. -/
def Signed (environment : Environment) (payload : String) : Prop :=
  ∃ timestamp timestampMs key signature, atoi timestamp = some timestampMs ∧
    |clock.ms - timestampMs| ≤ waffoPancakeDefaultTolerance ∧
    publicKey pkg (resolveWaffoPancakeWebhookPublicKey cfg environment) = some key ∧
    pkg.verifyPKCS1v15 key (timestamp ++ "." ++ payload) signature = true

/-- **What an event attests**: a completed payment of the order, signed by the key of the
environment that the event names, or the configured one where it names none. -/
structure Attests (event : WebhookEvent) (payload : String) (order : Order) : Prop where
  decoded : unmarshal pkg (decodeEvent pkg) payload = some event
  completed : event.eventType = "order.completed"
  tradeNo : resolveWaffoPancakeWebhookTradeNo event = order.tradeNo
  table : order.isSubscription = hasPrefix order.tradeNo subscriptionPrefix
  provider : order.paymentProvider = paymentProviderWaffoPancake
  pending : order.status = .pending
  signed : Signed pkg cfg clock (environmentOf pkg cfg event.mode) payload
  production : trimSpace cfg.webhookTestKey = "" → environmentOf pkg cfg event.mode = .prod

/-! ## Verification -/

variable {pkg cfg clock} {db : Db} {payload signature : String} {event : WebhookEvent}
  {environment : Environment} {completion : Completion} {order : Order} {topUps : TopUps.Config}
  {zone : GoTime.Zone}

/-- The mode of the first decoding is that of the second. -/
theorem mode_of_event (h : unmarshal pkg (decodeEvent pkg) payload = some event) :
    unmarshal pkg (decodeText "mode" "") payload = some event.mode := by
  have hmode : ∀ members, decodeEvent pkg members = some event →
      decodeText "mode" "" members = some event.mode := by
    intro members hevent
    unfold decodeEvent at hevent
    simp only [Option.bind_eq_bind, Option.bind_eq_some_iff, Option.pure_def] at hevent
    obtain ⟨_, -, _, -, _, -, _, -, _, -, mode, hmode, _, -, heq⟩ := hevent
    cases heq
    exact hmode
  unfold unmarshal at h ⊢
  split at h
  · exact hmode _ h
  · exact hmode _ h
  · cases h

theorem abs_le_of_tolerance {timestamp : String} {timestampMs : ℤ}
    (htime : atoi timestamp = some timestampMs) (h : outsideTolerance clock timestampMs = false) :
    |clock.ms - timestampMs| ≤ waffoPancakeDefaultTolerance := by
  have hrange := of_decide_eq_true (Option.filter_eq_some_iff.mp htime).2
  have hnonneg := clock.nonneg
  have hsmall := clock.small
  unfold outsideTolerance waffoPancakeDefaultTolerance at h
  rw [decide_eq_false_iff_not, Int.not_lt] at h
  unfold waffoPancakeDefaultTolerance
  rw [abs_le]
  rw [Int.bmod_def] at h
  omega

theorem publicKey_empty : publicKey pkg "" = none := by
  unfold publicKey normalizeRSAPublicKey
  rw [if_pos (by decide)]
  rfl

/-- An event that is verified was signed. -/
theorem verify_ok
    (h : verifyWaffoPancakeWebhook pkg cfg clock payload signature environment = .ok event) :
    unmarshal pkg (decodeEvent pkg) payload = some event ∧
      Signed pkg cfg clock environment payload := by
  unfold verifyWaffoPancakeWebhook at h
  dsimp only at h
  split at h
  · cases h
  split at h
  · cases h
  split at h
  · cases h
  rename_i timestampMs htime
  split at h
  · cases h
  rename_i htolerance
  split at h
  · cases h
  rename_i hsignature
  split at h
  · cases h
  rename_i decoded hdecoded
  cases h
  refine ⟨hdecoded, ?_⟩
  rw [Bool.not_eq_true] at htolerance
  rw [Bool.not_eq_true, Bool.not_eq_false'] at hsignature
  unfold verifyWaffoPancakeWebhookWithKey at hsignature
  split at hsignature
  · rename_i key bytes hkey _
    exact ⟨_, timestampMs, key, bytes, htime, abs_le_of_tolerance htime htolerance, hkey,
      hsignature⟩
  · cases hsignature

theorem resolveTradeNo_some {provider : String → Option String} {tradeNo : String}
    (h : resolveTradeNo provider event = some tradeNo) :
    resolveWaffoPancakeWebhookTradeNo event = tradeNo := by
  unfold resolveTradeNo at h
  dsimp only at h
  split at h
  · exact Option.some.inj h
  · cases h

/-- A webhook that goes on has verified a completed payment with the trade number. -/
theorem waffoPancakeWebhook_ok
    (h : waffoPancakeWebhook pkg cfg clock db payload signature = .ok completion) :
    ∃ event, verifyConfiguredWaffoPancakeWebhook pkg cfg clock payload signature = .ok event ∧
      event.eventType = "order.completed" ∧
      resolveWaffoPancakeWebhookTradeNo event = completion.tradeNo ∧
      completion.isSubscription = hasPrefix completion.tradeNo subscriptionPrefix := by
  unfold waffoPancakeWebhook at h
  split at h
  · cases h
  split at h
  · cases h
  rename_i event hverified
  split at h
  · cases h
  rename_i hcompleted
  refine ⟨event, hverified, not_not.mp hcompleted, ?_⟩
  split at h
  · rename_i hprefix
    split at h
    · cases h
    · rename_i tradeNo hresolved
      cases h
      have htradeNo := resolveTradeNo_some hresolved
      rw [htradeNo] at hprefix
      exact ⟨htradeNo, hprefix.symm⟩
  · rename_i hprefix
    split at h
    · cases h
    · rename_i tradeNo hresolved
      cases h
      have htradeNo := resolveTradeNo_some hresolved
      rw [htradeNo, Bool.not_eq_true] at hprefix
      exact ⟨htradeNo, hprefix.symm⟩

/-! ## Completion -/

/-- The provider that both transactions ask for. -/
theorem provider_found {held : String}
    (h : ¬ (paymentProviderWaffoPancake ≠ "" ∧ held ≠ paymentProviderWaffoPancake)) :
    held = paymentProviderWaffoPancake :=
  (TopUps.provider_of_check h (if_pos (by decide))).symm

theorem recharge_found {tradeNo : String} {now : ℤ} {lock : Option ℕ} {seen : TopUps.Store}
    {ws : List TopUps.Write}
    (h : (TopUps.protocol topUps).Outcome
      ⟨.completeTopUpByTradeNo tradeNo [paymentProviderWaffoPancake] now, lock⟩ seen ws)
    (hleaves : TopUps.leavesPending ws = true) :
    seen.order.tradeNo = tradeNo ∧ seen.order.paymentProvider = paymentProviderWaffoPancake ∧
      seen.order.status = .pending := by
  obtain ⟨script, hbody, hanswers⟩ := h
  simp only [TopUps.protocol, TopUps.body] at hbody
  unfold TopUps.completeTopUpByTradeNo at hbody
  dsimp only at hbody
  split at hbody
  · cases hbody
  split at hbody
  · cases hbody
  rename_i row hfound
  split at hbody
  · cases hbody
  rename_i hprovider
  split at hbody
  · -- an order that is paid already is left alone
    cases hbody
    rw [hanswers.of_done] at hleaves
    cases hleaves
  split at hbody
  · cases hbody
  rename_i hstatus
  obtain ⟨htradeNo, hrow⟩ := Option.ite_none_right_eq_some.mp hfound
  cases hrow
  rw [show trimSpace ([paymentProviderWaffoPancake].getD 0 "") = paymentProviderWaffoPancake from
    by decide] at hprovider
  exact ⟨htradeNo, provider_found hprovider, not_not.mp hstatus⟩

theorem complete_found {call : SubscriptionOrders.Complete} {seen : SubscriptionOrders.Store}
    {ws : List SubscriptionOrders.Write}
    (hexpected : call.expectedPaymentProvider = paymentProviderWaffoPancake)
    (h : (SubscriptionOrders.protocol zone).Outcome (.complete call) seen ws)
    (hsaved : .success ∈ SubscriptionOrders.savedBy ws) :
    seen.order.tradeNo = call.tradeNo ∧
      seen.order.paymentProvider = paymentProviderWaffoPancake ∧ seen.order.status = .pending := by
  rcases SubscriptionOrders.complete_outcome h with ⟨-, rfl⟩ | ⟨hpending, -⟩
  · cases hsaved
  obtain ⟨script, hbody, -⟩ := h
  simp only [SubscriptionOrders.protocol] at hbody
  unfold SubscriptionOrders.completeSubscriptionOrder at hbody
  split at hbody
  · cases hbody
  split at hbody
  · cases hbody
  rename_i row hfound
  split at hbody
  · cases hbody
  rename_i hprovider
  obtain ⟨htradeNo, hrow⟩ := Option.ite_none_right_eq_some.mp hfound
  cases hrow
  rw [hexpected] at hprovider
  exact ⟨htradeNo, provider_found hprovider, hpending⟩

/-- A transaction completes a pending order of the provider with the trade number. -/
theorem Completes.found (h : Completes topUps zone completion order) :
    order.tradeNo = completion.tradeNo ∧ order.isSubscription = completion.isSubscription ∧
      order.paymentProvider = paymentProviderWaffoPancake ∧ order.status = .pending := by
  cases h with
  | topUp houtcome hleaves =>
    obtain ⟨htradeNo, hprovider, hpending⟩ := recharge_found houtcome hleaves
    exact ⟨htradeNo, rfl, hprovider, hpending⟩
  | subscription hexpected _ houtcome hsaved =>
    obtain ⟨htradeNo, hprovider, hpending⟩ := complete_found hexpected houtcome hsaved
    exact ⟨htradeNo, rfl, hprovider, hpending⟩

/-- **Webhooks complete what they attest**: whatever the payload, the header, the clock and
the settings, an order that a webhook completes has been attested. -/
theorem attested_of_completes
    (h : waffoPancakeWebhook pkg cfg clock db payload signature = .ok completion)
    (hcompletes : Completes topUps zone completion order) :
    ∃ event, Attests pkg cfg clock event payload order := by
  obtain ⟨event, hverified, hcompleted, htradeNo, htable⟩ := waffoPancakeWebhook_ok h
  obtain ⟨hfound, hkind, hprovider, hpending⟩ := hcompletes.found
  obtain ⟨hdecoded, hsigned⟩ := verify_ok hverified
  have henvironment : resolveWaffoPancakeWebhookEnvironment pkg cfg payload =
      environmentOf pkg cfg event.mode := by
    unfold resolveWaffoPancakeWebhookEnvironment
    rw [mode_of_event hdecoded]
  rw [henvironment] at hsigned
  refine ⟨event, hdecoded, hcompleted, htradeNo.trans hfound.symm, ?_, hprovider, hpending,
    hsigned, fun hnoKey => ?_⟩
  · rw [hkind, hfound]
    exact htable
  · cases hmode : environmentOf pkg cfg event.mode with
    | prod => rfl
    | test =>
      obtain ⟨_, _, key, _, -, -, hkey, -⟩ := hsigned
      rw [hmode, show resolveWaffoPancakeWebhookPublicKey cfg .test = "" from hnoKey,
        publicKey_empty] at hkey
      cases hkey

/-! ## What is not attested -/

/-- What a checkout asks the buyer for. -/
structure Price where
  amount : String
  currency : String
  deriving DecidableEq

/-- `StringFixed(2)` of an amount that is not negative. -/
def formatWaffoPancakeAmount (payMoney : ℚ) : String :=
  let cents := (payMoney * 100 + 1 / 2).floor.toNat
  (cents / 100).repr ++ "." ++ (cents / 10 % 10).repr ++ (cents % 10).repr

/-- The price that `RequestWaffoPancakePay` creates a checkout of the order with. -/
def checkoutPrice (cfg : Config) (row : TopUp) : Price :=
  ⟨formatWaffoPancakeAmount row.money,
    String.ofList ((trimSpace cfg.currency).toList.map Char.toUpper)⟩

/-- An event that was signed with a key. -/
structure Sample where
  key : String
  mode : String
  storeID : String
  amount : String
  currency : String

def sampleOrder : TopUp where
  id := 1
  userId := 7
  amount := 29
  money := 29
  tradeNo := "WAFFO_PANCAKE-7-1-a"
  paymentMethod := paymentMethodWaffoPancake
  paymentProvider := paymentProviderWaffoPancake
  createTime := 1
  completeTime := 0
  status := .pending

def Sample.value (x : Sample) : Json :=
  .object [("eventType", .string "order.completed"), ("storeId", .string x.storeID),
    ("mode", .string x.mode), ("data", .object
      [("orderMerchantExternalId", .string sampleOrder.tradeNo), ("amount", .string x.amount),
        ("currency", .string x.currency)])]

def Sample.text (x : Sample) : String :=
  "\x7b\"eventType\":\"order.completed\",\"storeId\":\"" ++ x.storeID ++ "\",\"mode\":\"" ++
    x.mode ++ "\",\"data\":\x7b\"orderMerchantExternalId\":\"" ++ sampleOrder.tradeNo ++
    "\",\"amount\":\"" ++ x.amount ++ "\",\"currency\":\"" ++ x.currency ++ "\"\x7d\x7d"

/-- The packages on a signed event; a key stands for itself. -/
def Sample.packages (x : Sample) : Packages Bytes where
  parse payload := if payload = x.text then some x.value else none
  literal _ := "0"
  getJsonString _ := x.text
  letters := .same
  pemDecode _ := none
  base64Decode text := some (text.toList.map fun c => UInt8.ofNat c.toNat)
  parsePKIXPublicKey bytes := some (some bytes)
  parsePKCS1PublicKey _ := none
  verifyPKCS1v15 key signed _ :=
    decide (key = x.key.toList.map (fun c => UInt8.ofNat c.toNat) ∧
      signed = "1700000000000." ++ x.text)

/-- The sandbox is off, and a test key is configured. -/
def sampleConfig : Config where
  complianceConfirmed := true
  enabled := true
  sandbox := false
  merchantID := "MER"
  privateKey := "private"
  webhookPublicKey := "prodkey"
  webhookTestKey := "testkey"
  storeID := "STO"
  currency := "USD"

def sampleClock : Clock := ⟨1700000000000, by decide, by decide⟩

def sampleDb : Db := ⟨⟨[sampleOrder], by decide⟩, ⟨[], List.nodup_nil⟩⟩

def sampleTopUps : TopUps.Config := ⟨500000, "", fun q => q.floor⟩

/-- The order and its user when the transaction looks. -/
def sampleSeen : TopUps.Store := ⟨sampleOrder, ⟨0, "default", "", ""⟩⟩

theorem sample_completes :
    Completes sampleTopUps GoTime.utc (.rechargeWaffoPancake sampleOrder.tradeNo)
      (.topUp sampleOrder) := by
  have hanswers : Answers (.exec [.saveOrder (sampleOrder.completed 5)]
      (.exec [.addQuota (TopUps.quotaToAdd sampleTopUps sampleOrder)] .done) : TopUps.Tx)
      ([.saveOrder (sampleOrder.completed 5)] ++
        ([.addQuota (TopUps.quotaToAdd sampleTopUps sampleOrder)] ++ [])) :=
    .query (v := sampleSeen) rfl (.query (v := sampleSeen) rfl .done)
  have hbody : TopUps.completeTopUpByTradeNo sampleTopUps sampleOrder.tradeNo
      [paymentProviderWaffoPancake] 5 sampleSeen = .ok (.exec [.saveOrder (sampleOrder.completed 5)]
        (.exec [.addQuota (TopUps.quotaToAdd sampleTopUps sampleOrder)] .done)) := by
    unfold TopUps.completeTopUpByTradeNo
    rw [if_neg (by decide)]
    show (if TopUps.quotaToAdd sampleTopUps sampleOrder ≤ 0 then _ else _) = _
    rw [if_neg (by decide +kernel)]
    rfl
  have houtcome : (TopUps.protocol sampleTopUps).Outcome
      ⟨.completeTopUpByTradeNo sampleOrder.tradeNo [paymentProviderWaffoPancake] 5, none⟩ sampleSeen
      ([.saveOrder (sampleOrder.completed 5)] ++
        ([.addQuota (TopUps.quotaToAdd sampleTopUps sampleOrder)] ++ [])) :=
    ⟨_, hbody, hanswers⟩
  exact .topUp houtcome (by decide)

def sampleHeader : String := "t=1700000000000,v1=c2ln"

/-- The webhook completes the order on the event. -/
def Sample.Credits (x : Sample) : Prop :=
  ∃ completion, waffoPancakeWebhook x.packages sampleConfig sampleClock sampleDb x.text
      sampleHeader = .ok completion ∧
    Completes sampleTopUps GoTime.utc completion (.topUp sampleOrder)

def Sample.read (x : Sample) : WebhookEvent :=
  ⟨"", "", "order.completed", "", x.storeID, x.mode,
    ⟨"", "", sampleOrder.tradeNo, "", x.currency, x.amount, "", ""⟩⟩

theorem Sample.decoded (x : Sample) :
    unmarshal x.packages (decodeEvent x.packages) x.text = some x.read := by
  have hparse : x.packages.parse x.text = some x.value := by
    unfold Sample.packages
    dsimp only
    rw [if_pos (Eq.refl x.text)]
  unfold unmarshal
  rw [hparse]
  rfl

/-- The key that a webhook takes for an event. -/
def Sample.selectedKey (x : Sample) : Option Bytes :=
  publicKey x.packages (resolveWaffoPancakeWebhookPublicKey sampleConfig
    (environmentOf x.packages sampleConfig x.mode))

theorem Sample.verified (x : Sample)
    (hkey : x.selectedKey = some (x.key.toList.map fun c => UInt8.ofNat c.toNat)) :
    verifyConfiguredWaffoPancakeWebhook x.packages sampleConfig sampleClock x.text sampleHeader =
      .ok x.read := by
  have hsignature : verifyWaffoPancakeWebhookWithKey x.packages ("1700000000000" ++ "." ++ x.text)
      "c2ln" (resolveWaffoPancakeWebhookPublicKey sampleConfig
        (environmentOf x.packages sampleConfig x.mode)) = true := by
    unfold Sample.selectedKey at hkey
    unfold verifyWaffoPancakeWebhookWithKey
    rw [hkey, show "1700000000000" ++ "." = "1700000000000." from by decide]
    show decide _ = true
    rw [decide_eq_true_eq]
    constructor
    · rfl
    · rfl
  unfold verifyConfiguredWaffoPancakeWebhook resolveWaffoPancakeWebhookEnvironment
  rw [mode_of_event x.decoded]
  show verifyWaffoPancakeWebhook x.packages sampleConfig sampleClock x.text sampleHeader
    (environmentOf x.packages sampleConfig x.mode) = _
  unfold verifyWaffoPancakeWebhook
  rw [if_neg (by decide), show parseWaffoPancakeSignatureHeader sampleHeader =
    ("1700000000000", "c2ln") from by decide]
  dsimp only
  rw [if_neg (by decide), show atoi "1700000000000" = some 1700000000000 from by decide]
  dsimp only
  rw [if_neg (by decide), hsignature, if_neg (by decide), x.decoded]

theorem Sample.key_of_verify {x : Sample} {key bytes : Bytes} {signed : String}
    (h : x.packages.verifyPKCS1v15 key signed bytes = true) :
    key = x.key.toList.map fun c => UInt8.ofNat c.toNat := by
  unfold Sample.packages at h
  exact (of_decide_eq_true h).1

/-- An event is taken whatever its store, its amount and its currency. -/
theorem Sample.credits (x : Sample)
    (hkey : x.selectedKey = some (x.key.toList.map fun c => UInt8.ofNat c.toNat)) : x.Credits := by
  have htradeNo : resolveWaffoPancakeWebhookTradeNo x.read = sampleOrder.tradeNo := by
    show (if trimSpace sampleOrder.tradeNo ≠ "" then trimSpace sampleOrder.tradeNo
      else trimSpace "") = _
    rw [if_pos (by decide)]
    decide
  have hresolved : resolveWaffoPancakeTradeNo sampleDb x.read = some sampleOrder.tradeNo := by
    unfold resolveWaffoPancakeTradeNo resolveTradeNo
    rw [htradeNo]
    exact if_pos (by decide)
  have hwebhook : waffoPancakeWebhook x.packages sampleConfig sampleClock sampleDb x.text
      sampleHeader = .ok (.rechargeWaffoPancake sampleOrder.tradeNo) := by
    unfold waffoPancakeWebhook
    rw [if_neg (by decide), x.verified hkey]
    show (if "order.completed" ≠ "order.completed" then _ else _) = _
    rw [if_neg (by decide), htradeNo, if_neg (by decide), hresolved]
  exact ⟨_, hwebhook, sample_completes⟩

/-- The payment that the settings expect for the order. -/
def paidSample : Sample := ⟨"prodkey", "prod", "STO", "29.00", "USD"⟩

theorem paidSample_attests :
    ∃ event, Attests paidSample.packages sampleConfig sampleClock event paidSample.text
      (.topUp sampleOrder) := by
  obtain ⟨completion, hwebhook, hcompletes⟩ := paidSample.credits (by decide)
  exact attested_of_completes hwebhook hcompletes

def testSample : Sample := { paidSample with key := "testkey", mode := "test" }

def otherStore : Sample := { paidSample with storeID := "OTHER" }

def otherAmount : Sample := { paidSample with amount := "0.01" }

def otherCurrency : Sample := { paidSample with currency := "JPY" }

/-- The order is completed by the test key while the sandbox is off, by a payment to another
store, by one of another amount, and by one in another currency. -/
theorem credits_unattested :
    (testSample.Credits ∧ ¬ Signed testSample.packages sampleConfig sampleClock
      sampleConfig.environment testSample.text) ∧
    (otherStore.Credits ∧ otherStore.read.storeID ≠ sampleConfig.storeID) ∧
    (otherAmount.Credits ∧
      otherAmount.read.data.amount ≠ (checkoutPrice sampleConfig sampleOrder).amount) ∧
    otherCurrency.Credits ∧
      otherCurrency.read.data.currency ≠ (checkoutPrice sampleConfig sampleOrder).currency := by
  refine ⟨⟨testSample.credits (by decide), ?_⟩, ⟨otherStore.credits (by decide), by decide⟩,
    ⟨otherAmount.credits (by decide), by decide +kernel⟩, otherCurrency.credits (by decide),
    by decide⟩
  rintro ⟨timestamp, timestampMs, key, signature, -, -, hkey, hsigned⟩
  have hprod : publicKey testSample.packages (resolveWaffoPancakeWebhookPublicKey sampleConfig
      sampleConfig.environment) = some ("prodkey".toList.map fun c => UInt8.ofNat c.toNat) := by
    decide
  rw [hprod] at hkey
  cases hkey
  exact absurd (Sample.key_of_verify hsigned) (by decide)

end WaffoPancake
