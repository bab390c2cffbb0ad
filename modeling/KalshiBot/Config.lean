import KalshiBot.Execution.OrderDispatcher
import KalshiBot.Library.TextValues
import KalshiBot.Risk.Gate

/-! # The configuration

What the bot reads from its environment, and the two guards on the environment it selects. The
float type comes with its `float(text)`, `none` for the `ValueError`.
-/

namespace KalshiBot

open PythonText Execution

set_option autoImplicit false

/-- The variables that are set. -/
abbrev Env := String → Option String

def Env.get (env : Env) (name default : String) : String := (env name).getD default

inductive Environment where
  | demo | prod
  deriving DecidableEq

def Environment.text : Environment → String
  | demo => "demo"
  | prod => "prod"

structure KalshiBotConfig (F : Type) where
  apiKeyId : String
  privateKeyPath : PosixPath
  demoApiKeyId : String
  demoPrivateKeyPath : PosixPath
  prodApiKeyId : String
  prodPrivateKeyPath : PosixPath
  demoBaseUrl : String
  prodBaseUrl : String
  demoWsUrl : String
  prodWsUrl : String
  environment : Environment
  allowProductionOrders : Bool
  telemetryDbPath : PosixPath
  ipcSocketPath : PosixPath
  fixedOrderContractCount : ℤ
  orderTimeInForce : TimeInForce
  orderSelfTradePreventionType : SelfTradePreventionType
  allowedExchangeIndexes : Finset ℤ
  killswitchPath : PosixPath
  logDir : PosixPath
  riskGateEnabled : Bool
  riskMaxAttemptsPerHour : ℤ
  riskMaxAttemptsPerDay : ℤ
  riskMaxAttemptsPerTickerPerDay : ℤ
  riskMaxNotionalPerDayDollars : F
  riskMaxConcurrentDispatches : ℤ
  riskMaxPositionContractsPerTicker : F
  riskMaxAttemptsPerCorrelationGroupPerDay : ℤ
  riskMaxPositionContractsPerCorrelationGroup : F
  riskMaxAttemptsPerEventPerDay : ℤ
  riskMaxPositionContractsPerEvent : F
  riskRefireCooldownSeconds : F
  positionSizingKellyFraction : F
  positionSizingMaxPctOfBalance : F

namespace KalshiBotConfig

variable {F : Type}

def baseUrl (config : KalshiBotConfig F) : String :=
  if config.environment = .prod then config.prodBaseUrl else config.demoBaseUrl

def wsUrl (config : KalshiBotConfig F) : String :=
  if config.environment = .prod then config.prodWsUrl else config.demoWsUrl

def resolvedApiKeyId (config : KalshiBotConfig F) : String :=
  let specific := if config.environment = .prod then config.prodApiKeyId else config.demoApiKeyId
  if specific = "" then config.apiKeyId else specific

def resolvedPrivateKeyPath (config : KalshiBotConfig F) : PosixPath :=
  let specific :=
    if config.environment = .prod then config.prodPrivateKeyPath else config.demoPrivateKeyPath
  if specific.text ∈ ["", "."] then config.privateKeyPath else specific

/-- The text of the `RuntimeError`, if it is raised. -/
def assertOrdersPermitted (config : KalshiBotConfig F) : Except String Unit :=
  if config.environment = .prod ∧ ¬config.allowProductionOrders then
    .error ("Refusing to place orders against PRODUCTION: KALSHI_ENVIRONMENT=prod but " ++
      "KALSHI_ALLOW_PRODUCTION_ORDERS is not true. Reading production data needs no flag; " ++
      "trading real money needs this one set deliberately.")
  else .ok ()

def assertDemoTradingProcess (config : KalshiBotConfig F) : Except String Unit :=
  if config.environment ≠ .demo then
    .error ("Refusing to start: this process is demo-only, but KALSHI_ENVIRONMENT=" ++
      pyRepr config.environment.text ++ ". The poller and executor run the falsified strategy " ++
      "(docs/GUIDE.md §4.1) and must never be pointed at production. " ++
      "KALSHI_ALLOW_PRODUCTION_ORDERS does not lift this. A production order path " ++
      "will be a separate entry point, not this one.")
  else .ok ()

end KalshiBotConfig

/-- A variable that has to be one of a few words. -/
def oneOf {α : Type} (name : String) (values : List α) (text : α → String) (raw : String) :
    Except String α :=
  match values.find? fun value => text value = raw with
  | some value => .ok value
  | none =>
    .error (name ++ " must be one of " ++ reprWords (values.map text) ++ ", got " ++ pyRepr raw)

def readEnvironment (env : Env) : Except String Environment :=
  oneOf "KALSHI_ENVIRONMENT" [.demo, .prod] Environment.text (env.get "KALSHI_ENVIRONMENT" "demo")

def readTimeInForce (env : Env) : Except String TimeInForce :=
  oneOf "KALSHI_ORDER_TIME_IN_FORCE" [.fillOrKill, .goodTillCanceled, .immediateOrCancel]
    TimeInForce.text (env.get "KALSHI_ORDER_TIME_IN_FORCE" "fill_or_kill")

def readSelfTradePreventionType (env : Env) : Except String SelfTradePreventionType :=
  oneOf "KALSHI_ORDER_SELF_TRADE_PREVENTION_TYPE" [.takerAtCross, .maker]
    SelfTradePreventionType.text
    (env.get "KALSHI_ORDER_SELF_TRADE_PREVENTION_TYPE" "taker_at_cross")

def allowedIndexes (raw : String) : Except String (Finset ℤ) :=
  let parts := (raw.toList.splitOn ',').map strip |>.filter (· ≠ [])
  match parts.mapM fun part => parseInt (String.ofList part) with
  | some indexes => .ok indexes.toFinset
  | none => .error ("KALSHI_ALLOWED_EXCHANGE_INDEXES must be a comma-separated list of integers " ++
      "(e.g. '2' or '0,2'), got " ++ pyRepr raw)

def readAllowedIndexes (env : Env) : Except String (Finset ℤ) :=
  allowedIndexes (env.get "KALSHI_ALLOWED_EXCHANGE_INDEXES" "")

/-- No letter outside ASCII is lowered to one in these words. -/
def isTruthy (raw : String) : Bool :=
  String.ofList ((strip raw.toList).map Char.toLower) ∈ ["1", "true", "yes"]

def readPath (env : Env) (name default : String) : PosixPath := .of (env.get name default)

def toInt (raw : String) : Except String ℤ :=
  match parseInt raw with
  | some i => .ok i
  | none => .error (intError raw)

def readInt (env : Env) (name default : String) : Except String ℤ := toInt (env.get name default)

section Load

variable {F : Type} (toFloat : String → Option F)

def readFloat (env : Env) (name default : String) : Except String F :=
  match toFloat (env.get name default) with
  | some q => .ok q
  | none => .error (floatError (env.get name default))

def loadConfig (env : Env) : Except String (KalshiBotConfig F) := do
  let environment ← readEnvironment env
  let orderTimeInForce ← readTimeInForce env
  let orderSelfTradePreventionType ← readSelfTradePreventionType env
  let allowedExchangeIndexes ← readAllowedIndexes env
  let fixedOrderContractCount ← readInt env "KALSHI_FIXED_ORDER_CONTRACT_COUNT" "1"
  let riskMaxAttemptsPerHour ← readInt env "KALSHI_RISK_MAX_ATTEMPTS_PER_HOUR" "10"
  let riskMaxAttemptsPerDay ← readInt env "KALSHI_RISK_MAX_ATTEMPTS_PER_DAY" "50"
  let riskMaxAttemptsPerTickerPerDay ←
    readInt env "KALSHI_RISK_MAX_ATTEMPTS_PER_TICKER_PER_DAY" "5"
  let riskMaxNotionalPerDayDollars ←
    readFloat toFloat env "KALSHI_RISK_MAX_NOTIONAL_PER_DAY_DOLLARS" "50.0"
  let riskMaxConcurrentDispatches ← readInt env "KALSHI_RISK_MAX_CONCURRENT_DISPATCHES" "2"
  let riskMaxPositionContractsPerTicker ←
    readFloat toFloat env "KALSHI_RISK_MAX_POSITION_CONTRACTS_PER_TICKER" "5.0"
  let riskMaxAttemptsPerCorrelationGroupPerDay ←
    readInt env "KALSHI_RISK_MAX_ATTEMPTS_PER_CORRELATION_GROUP_PER_DAY" "10"
  let riskMaxAttemptsPerEventPerDay ← readInt env "KALSHI_RISK_MAX_ATTEMPTS_PER_EVENT_PER_DAY" "6"
  let riskMaxPositionContractsPerEvent ←
    readFloat toFloat env "KALSHI_RISK_MAX_POSITION_CONTRACTS_PER_EVENT" "6.0"
  let riskMaxPositionContractsPerCorrelationGroup ←
    readFloat toFloat env "KALSHI_RISK_MAX_POSITION_CONTRACTS_PER_CORRELATION_GROUP" "10.0"
  let riskRefireCooldownSeconds ← readFloat toFloat env "KALSHI_RISK_REFIRE_COOLDOWN_SECONDS" "60.0"
  let positionSizingKellyFraction ← readFloat toFloat env "KALSHI_KELLY_FRACTION" "0.15"
  let positionSizingMaxPctOfBalance ←
    readFloat toFloat env "KALSHI_MAX_POSITION_PCT_OF_BALANCE" "0.02"
  return {
    apiKeyId := env.get "KALSHI_API_KEY_ID" ""
    privateKeyPath := readPath env "KALSHI_PRIVATE_KEY_PATH" ""
    demoApiKeyId := env.get "KALSHI_DEMO_API_KEY_ID" ""
    demoPrivateKeyPath := readPath env "KALSHI_DEMO_PRIVATE_KEY_PATH" ""
    prodApiKeyId := env.get "KALSHI_PROD_API_KEY_ID" ""
    prodPrivateKeyPath := readPath env "KALSHI_PROD_PRIVATE_KEY_PATH" ""
    demoBaseUrl := env.get "KALSHI_DEMO_BASE_URL" ""
    prodBaseUrl := env.get "KALSHI_PROD_BASE_URL" ""
    demoWsUrl := env.get "KALSHI_DEMO_WS_URL" ""
    prodWsUrl := env.get "KALSHI_PROD_WS_URL" ""
    environment
    allowProductionOrders := isTruthy (env.get "KALSHI_ALLOW_PRODUCTION_ORDERS" "")
    telemetryDbPath := readPath env "KALSHI_TELEMETRY_DB_PATH" ""
    ipcSocketPath := readPath env "KALSHI_IPC_SOCKET_PATH" "./data/executor.sock"
    fixedOrderContractCount
    orderTimeInForce
    orderSelfTradePreventionType
    allowedExchangeIndexes
    killswitchPath := readPath env "KALSHI_KILLSWITCH_PATH" "./data/killswitch"
    logDir := readPath env "KALSHI_LOG_DIR" "./data/logs"
    riskGateEnabled := isTruthy (env.get "KALSHI_RISK_GATE_ENABLED" "true")
    riskMaxAttemptsPerHour
    riskMaxAttemptsPerDay
    riskMaxAttemptsPerTickerPerDay
    riskMaxNotionalPerDayDollars
    riskMaxConcurrentDispatches
    riskMaxPositionContractsPerTicker
    riskMaxAttemptsPerCorrelationGroupPerDay
    riskMaxPositionContractsPerCorrelationGroup
    riskMaxAttemptsPerEventPerDay
    riskMaxPositionContractsPerEvent
    riskRefireCooldownSeconds
    positionSizingKellyFraction
    positionSizingMaxPctOfBalance }

end Load

theorem bind_eq_ok {α β ε : Type} {first : Except ε α} {next : α → Except ε β} {b : β} :
    first >>= next = .ok b ↔ ∃ a, first = .ok a ∧ next a = .ok b := by
  cases first with
  | error e => exact iff_of_false nofun (by rintro ⟨a, ⟨⟩, -⟩)
  | ok a => exact ⟨fun h => ⟨a, rfl, h⟩, by rintro ⟨_, ⟨⟩, h⟩; exact h⟩

/-- `RiskLimits.from_config`. -/
def Risk.RiskLimits.fromConfig (config : KalshiBotConfig ℚ) (allowed : Finset ℤ) :
    Risk.RiskLimits where
  allowedExchangeIndexes := allowed
  maxAttemptsPerHour := config.riskMaxAttemptsPerHour
  maxAttemptsPerDay := config.riskMaxAttemptsPerDay
  maxAttemptsPerTickerPerDay := config.riskMaxAttemptsPerTickerPerDay
  maxNotionalPerDayDollars := config.riskMaxNotionalPerDayDollars
  maxConcurrentDispatches := config.riskMaxConcurrentDispatches
  maxPositionContractsPerTicker := config.riskMaxPositionContractsPerTicker
  maxAttemptsPerCorrelationGroupPerDay := config.riskMaxAttemptsPerCorrelationGroupPerDay
  maxPositionContractsPerCorrelationGroup := config.riskMaxPositionContractsPerCorrelationGroup
  maxAttemptsPerEventPerDay := config.riskMaxAttemptsPerEventPerDay
  maxPositionContractsPerEvent := config.riskMaxPositionContractsPerEvent
  refireCooldownSeconds := config.riskRefireCooldownSeconds

/-- What the gate of the executor is built from. -/
def riskVariables : List String :=
  ["KALSHI_RISK_GATE_ENABLED", "KALSHI_RISK_MAX_ATTEMPTS_PER_HOUR",
    "KALSHI_RISK_MAX_ATTEMPTS_PER_DAY", "KALSHI_RISK_MAX_ATTEMPTS_PER_TICKER_PER_DAY",
    "KALSHI_RISK_MAX_NOTIONAL_PER_DAY_DOLLARS", "KALSHI_RISK_MAX_CONCURRENT_DISPATCHES",
    "KALSHI_RISK_MAX_POSITION_CONTRACTS_PER_TICKER",
    "KALSHI_RISK_MAX_ATTEMPTS_PER_CORRELATION_GROUP_PER_DAY",
    "KALSHI_RISK_MAX_POSITION_CONTRACTS_PER_CORRELATION_GROUP",
    "KALSHI_RISK_MAX_ATTEMPTS_PER_EVENT_PER_DAY", "KALSHI_RISK_MAX_POSITION_CONTRACTS_PER_EVENT",
    "KALSHI_RISK_REFIRE_COOLDOWN_SECONDS"]

section Unset

variable {env : Env} {name default : String} (hUnset : env name = none)

include hUnset

theorem get_unset : env.get name default = default := by
  rw [Env.get, hUnset, Option.getD_none]

theorem readInt_unset {i value : ℤ} (h : readInt env name default = .ok i)
    (hDefault : parseInt default = some value) : i = value := by
  rw [readInt, get_unset hUnset, toInt, hDefault] at h
  exact (Except.ok.inj h).symm

theorem readFloat_unset {q value : ℚ} (h : readFloat parseFloat env name default = .ok q)
    (hDefault : parseFloat default = some value) : q = value := by
  rw [readFloat, get_unset hUnset, hDefault] at h
  exact (Except.ok.inj h).symm

end Unset

/-- With none of the gate's variables set, the gate is on and has the defaults of its limits. -/
theorem limits_of_unset {env : Env} {config : KalshiBotConfig ℚ}
    (hUnset : ∀ name ∈ riskVariables, env name = none)
    (hLoad : loadConfig parseFloat env = .ok config) (allowed : Finset ℤ) :
    config.riskGateEnabled = true ∧
      Risk.RiskLimits.fromConfig config allowed = { allowedExchangeIndexes := allowed } := by
  obtain ⟨_, -, h⟩ := bind_eq_ok.mp hLoad
  iterate 4 obtain ⟨_, -, h⟩ := bind_eq_ok.mp h
  obtain ⟨perHour, hPerHour, h⟩ := bind_eq_ok.mp h
  obtain ⟨perDay, hPerDay, h⟩ := bind_eq_ok.mp h
  obtain ⟨perTicker, hPerTicker, h⟩ := bind_eq_ok.mp h
  obtain ⟨notional, hNotional, h⟩ := bind_eq_ok.mp h
  obtain ⟨concurrent, hConcurrent, h⟩ := bind_eq_ok.mp h
  obtain ⟨tickerPosition, hTickerPosition, h⟩ := bind_eq_ok.mp h
  obtain ⟨perGroup, hPerGroup, h⟩ := bind_eq_ok.mp h
  obtain ⟨perEvent, hPerEvent, h⟩ := bind_eq_ok.mp h
  obtain ⟨eventPosition, hEventPosition, h⟩ := bind_eq_ok.mp h
  obtain ⟨groupPosition, hGroupPosition, h⟩ := bind_eq_ok.mp h
  obtain ⟨cooldown, hCooldown, h⟩ := bind_eq_ok.mp h
  iterate 2 obtain ⟨_, -, h⟩ := bind_eq_ok.mp h
  obtain rfl := Except.ok.inj h
  have hTwo : parseInt "2" = some 2 := by decide +kernel
  have hFive : parseInt "5" = some 5 := by decide +kernel
  have hSix : parseInt "6" = some 6 := by decide +kernel
  have hTen : parseInt "10" = some 10 := by decide +kernel
  have hFifty : parseInt "50" = some 50 := by decide +kernel
  obtain rfl := readInt_unset (hUnset _ (by decide)) hPerHour hTen
  obtain rfl := readInt_unset (hUnset _ (by decide)) hPerDay hFifty
  obtain rfl := readInt_unset (hUnset _ (by decide)) hPerTicker hFive
  obtain rfl := readInt_unset (hUnset _ (by decide)) hConcurrent hTwo
  obtain rfl := readInt_unset (hUnset _ (by decide)) hPerGroup hTen
  obtain rfl := readInt_unset (hUnset _ (by decide)) hPerEvent hSix
  obtain rfl := readFloat_unset (hUnset _ (by decide)) hNotional
    (show parseFloat "50.0" = some 50 by decide +kernel)
  obtain rfl := readFloat_unset (hUnset _ (by decide)) hTickerPosition
    (show parseFloat "5.0" = some 5 by decide +kernel)
  obtain rfl := readFloat_unset (hUnset _ (by decide)) hEventPosition
    (show parseFloat "6.0" = some 6 by decide +kernel)
  obtain rfl := readFloat_unset (hUnset _ (by decide)) hGroupPosition
    (show parseFloat "10.0" = some 10 by decide +kernel)
  obtain rfl := readFloat_unset (hUnset _ (by decide)) hCooldown
    (show parseFloat "60.0" = some 60 by decide +kernel)
  refine ⟨?_, rfl⟩
  dsimp only
  rw [get_unset (hUnset _ (by decide))]
  decide

end KalshiBot
