import KalshiBot.Library.ByteStream
import KalshiBot.Library.PythonText

/-! # The wake stream

Frames in, acks out: the executor's loop over one connection, down to the creation of the fire
tasks. A decoded wake holds JSON values of any type, since no field is checked. The peer keeps
reading, so writes go through.
-/

namespace KalshiBot.Ipc

open PythonText ByteStream

set_option autoImplicit false

abbrev JsonObject := List (String × PyValue)

/-- `orjson`, and what Python says of arguments that do not fit the dataclass. -/
structure Codec where
  loads : Bytes → Except String PyValue
  dumps : PyValue → Bytes
  typeError : PyValue → String

def schemaVersionV4 : ℤ := 4
def maxFrameBytes : ℕ := 64 * 1024

structure RawWake where
  schemaVersion : PyValue
  correlationId : PyValue
  marketTicker : PyValue
  asset : PyValue
  direction : PyValue
  kalshiPrice : PyValue
  modelProbability : PyValue
  fee : PyValue
  edge : PyValue
  decisionTsMs : PyValue
  sentAtMs : PyValue
  sentAtNs : PyValue
  recvNs : PyValue := .int 0
  clockDomain : PyValue := .str ""
  dryRun : PyValue := .bool false
  wirePriceYesDollars : PyValue := .float 0
  exchangeIndex : PyValue := .int (-1)
  availableSizeContracts : PyValue := .float 0
  priceRanges : PyValue := .list [.list [.float 0, .float 1, .float (1 / 100)]]
  correlationGroup : PyValue := .str ""

def requiredFields : List String :=
  ["schema_version", "correlation_id", "market_ticker", "asset", "direction", "kalshi_price",
    "model_probability", "fee", "edge", "decision_ts_ms", "sent_at_ms", "sent_at_ns"]

def optionalFields : List String :=
  ["recv_ns", "clock_domain", "dry_run", "wire_price_yes_dollars", "exchange_index",
    "available_size_contracts", "price_ranges", "correlation_group"]

/-- What `orjson` writes for a wake. -/
def RawWake.fields (m : RawWake) : JsonObject :=
  [("schema_version", m.schemaVersion), ("correlation_id", m.correlationId),
    ("market_ticker", m.marketTicker), ("asset", m.asset), ("direction", m.direction),
    ("kalshi_price", m.kalshiPrice), ("model_probability", m.modelProbability), ("fee", m.fee),
    ("edge", m.edge), ("decision_ts_ms", m.decisionTsMs), ("sent_at_ms", m.sentAtMs),
    ("sent_at_ns", m.sentAtNs), ("recv_ns", m.recvNs), ("clock_domain", m.clockDomain),
    ("dry_run", m.dryRun), ("wire_price_yes_dollars", m.wirePriceYesDollars),
    ("exchange_index", m.exchangeIndex), ("available_size_contracts", m.availableSizeContracts),
    ("price_ranges", m.priceRanges), ("correlation_group", m.correlationGroup)]

/-- All required fields are there, and no unknown one. -/
def FitsWake (data : JsonObject) : Prop :=
  (∀ name ∈ requiredFields, name ∈ data.map Prod.fst) ∧
    ∀ name ∈ data.map Prod.fst, name ∈ requiredFields ++ optionalFields

instance (data : JsonObject) : Decidable (FitsWake data) := inferInstanceAs (Decidable (_ ∧ _))

/-- `cls(**data)`: absent fields take their defaults. -/
def wakeOf (data : JsonObject) : RawWake :=
  let required := fun name => (data.lookup name).getD .null
  let optional := fun name default => (data.lookup name).getD default
  { schemaVersion := required "schema_version"
    correlationId := required "correlation_id"
    marketTicker := required "market_ticker"
    asset := required "asset"
    direction := required "direction"
    kalshiPrice := required "kalshi_price"
    modelProbability := required "model_probability"
    fee := required "fee"
    edge := required "edge"
    decisionTsMs := required "decision_ts_ms"
    sentAtMs := required "sent_at_ms"
    sentAtNs := required "sent_at_ns"
    recvNs := optional "recv_ns" (.int 0)
    clockDomain := optional "clock_domain" (.str "")
    dryRun := optional "dry_run" (.bool false)
    wirePriceYesDollars := optional "wire_price_yes_dollars" (.float 0)
    exchangeIndex := optional "exchange_index" (.int (-1))
    availableSizeContracts := optional "available_size_contracts" (.float 0)
    priceRanges := optional "price_ranges" (.list [.list [.float 0, .float 1, .float (1 / 100)]])
    correlationGroup := optional "correlation_group" (.str "") }

theorem fitsWake_fields (m : RawWake) : FitsWake m.fields := by
  constructor
  all_goals
    simp only [RawWake.fields, List.map_cons, List.map_nil]
    decide

theorem wakeOf_fields (m : RawWake) : wakeOf m.fields = m := rfl

inductive WakeAckStatus where
  | accepted
  | rejected
deriving DecidableEq

structure WakeAck where
  schemaVersion : ℤ := schemaVersionV4
  correlationId : PyValue
  receivedAtMs : ℤ
  status : WakeAckStatus
  reason : Option String := none

def WakeAck.fields (ack : WakeAck) : JsonObject :=
  [("schema_version", .int ack.schemaVersion), ("correlation_id", ack.correlationId),
    ("received_at_ms", .int ack.receivedAtMs),
    ("status", .str (match ack.status with | .accepted => "accepted" | .rejected => "rejected")),
    ("reason", (ack.reason.map PyValue.str).getD .null)]

def frameOf (body : Bytes) : Bytes := pack body.length ++ body

variable (c : Codec)

def encodeFrame (fields : JsonObject) : Bytes := frameOf (c.dumps (.dict fields))

def decodeWakeMessage (data : Bytes) : Except String RawWake :=
  match c.loads data with
  | .error reason => .error reason
  | .ok (.dict fields) =>
    if FitsWake fields then .ok (wakeOf fields) else .error (c.typeError (.dict fields))
  | .ok value => .error (c.typeError value)

theorem decodeWakeMessage_dumps {m : RawWake}
    (h : c.loads (c.dumps (.dict m.fields)) = .ok (.dict m.fields)) :
    decodeWakeMessage c (c.dumps (.dict m.fields)) = .ok m := by
  rw [decodeWakeMessage, h]
  exact (if_pos (fitsWake_fields m)).trans (congrArg _ (wakeOf_fields m))

inductive FrameRead where
  | body (body : Bytes) (reader : StreamReader)
  | incomplete
  | oversized

def readFrameBody (reader : StreamReader) : FrameRead :=
  match reader.readexactly 4 with
  | none => .incomplete
  | some (lengthPrefix, reader) =>
    if maxFrameBytes < unpack lengthPrefix then .oversized
    else match reader.readexactly (unpack lengthPrefix) with
      | none => .incomplete
      | some (body, reader) => .body body reader

/-- `_DRY_RUN_METADATA[value]`, for which `true` is `1`; `none` is the `KeyError`, or the
`TypeError` of a value that has no hash. -/
def dryRunMetadata (value : PyValue) : Option String :=
  let shadow := fun text => "\x7b\"dry_run\": " ++ text ++ "\x7d"
  match value with
  | .bool b => some (shadow (if b then "true" else "false"))
  | .int i => if i = 0 then some (shadow "false") else if i = 1 then some (shadow "true") else none
  | .float q => if q = 0 then some (shadow "false") else if q = 1 then some (shadow "true") else none
  | _ => none

structure LatencyEvent where
  correlationId : PyValue
  stage : String := "wake_recv"
  startedAtMs : ℤ
  endedAtMs : ℤ
  durationMs : ℚ
  metadataJson : String

structure FrameReadings where
  startedAtMs : ℤ
  startedAtNs : ℤ
  endedAtNs : ℤ
  endedAtMs : ℤ

inductive Effect where
  | ack (ack : WakeAck)
  | latency (event : LatencyEvent)
  | fire (m : RawWake)

def ackOf (startedAtMs : ℤ) : Except String RawWake → WakeAck
  | .ok m => { correlationId := m.correlationId, receivedAtMs := startedAtMs, status := .accepted }
  | .error reason =>
    { correlationId := .str "", receivedAtMs := startedAtMs, status := .rejected,
      reason := some reason }

/-- One turn of the loop after a frame was read; `false` for an exception that ends the loop. -/
def handleFrame (r : FrameReadings) (body : Bytes) : List Effect × Bool :=
  let decoded := decodeWakeMessage c body
  let ack := Effect.ack (ackOf r.startedAtMs decoded)
  match decoded with
  | .error _ => ([ack], true)
  | .ok m =>
    match dryRunMetadata m.dryRun with
    | none => ([ack], false)
    | some metadata =>
      ([ack, .latency
        { correlationId := m.correlationId
          startedAtMs := r.startedAtMs
          endedAtMs := r.endedAtMs
          durationMs := (r.endedAtNs - r.startedAtNs) / 1000000
          metadataJson := metadata }, .fire m], true)

inductive ConnectionEnd where
  | disconnected
  | oversized
  | raised
deriving DecidableEq

theorem rest_eq_of_readFrameBody {reader reader' : StreamReader} {body : Bytes}
    (h : readFrameBody reader = .body body reader') :
    ∃ lengthPrefix, lengthPrefix.length = 4 ∧ unpack lengthPrefix = body.length ∧
      reader.rest = lengthPrefix ++ (body ++ reader'.rest) := by
  rw [readFrameBody] at h
  split at h
  · cases h
  next lengthPrefix middle hPrefix =>
    split at h
    · cases h
    · split at h
      · cases h
      next hBody =>
        cases h
        obtain ⟨hFour, hRest⟩ := StreamReader.readExactly_eq_some hPrefix
        obtain ⟨hLength, hRest'⟩ := StreamReader.readExactly_eq_some hBody
        exact ⟨lengthPrefix, hFour, hLength.symm, hRest.symm.trans (congrArg _ hRest'.symm)⟩

theorem rest_of_readFrameBody {reader reader' : StreamReader} {body : Bytes}
    (h : readFrameBody reader = .body body reader') :
    reader.rest.length = 4 + body.length + reader'.rest.length := by
  obtain ⟨lengthPrefix, hFour, -, hRest⟩ := rest_eq_of_readFrameBody h
  rw [hRest, List.length_append, List.length_append, hFour, Nat.add_assoc]

/-- The loop over one connection; `frame` counts the frames read so far. -/
def handleConnection (readings : ℕ → FrameReadings) (frame : ℕ) (reader : StreamReader) :
    List Effect × ConnectionEnd :=
  match h : readFrameBody reader with
  | .incomplete => ([], .disconnected)
  | .oversized => ([], .oversized)
  | .body body reader' =>
    have : reader'.rest.length < reader.rest.length := by
      rw [rest_of_readFrameBody h]
      omega
    match handleFrame c (readings frame) body with
    | (effects, false) => (effects, .raised)
    | (effects, true) =>
      let (later, outcome) := handleConnection readings (frame + 1) reader'
      (effects ++ later, outcome)
termination_by reader.rest.length

end KalshiBot.Ipc
