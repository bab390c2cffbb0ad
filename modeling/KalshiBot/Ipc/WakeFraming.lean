import KalshiBot.Ipc.WakeStream

/-! # Framing survives every cut of the stream

Each complete frame is acked, each that decodes is fired, and only a broken tail ends the
connection, as long as the `dry_run` of every decoded wake is a truth value. Any other ends it
between the ack and the fire.
-/

namespace KalshiBot.Ipc

open PythonText ByteStream

set_option autoImplicit false

/-- The stream ends inside a frame, or before one. -/
def Truncated (tail : Bytes) : Prop :=
  tail.length < 4 ∨
    unpack (tail.take 4) ≤ maxFrameBytes ∧ tail.length < 4 + unpack (tail.take 4)

/-- The stream goes on with a length that is refused. -/
def Oversized (tail : Bytes) : Prop := 4 ≤ tail.length ∧ maxFrameBytes < unpack (tail.take 4)

instance (tail : Bytes) : Decidable (Oversized tail) := inferInstanceAs (Decidable (_ ∧ _))

def tailEnd (tail : Bytes) : ConnectionEnd :=
  if Oversized tail then .oversized else .disconnected

theorem readFrameBody_frame {reader : StreamReader} {body tail : Bytes}
    (hBody : body.length ≤ maxFrameBytes) (h : reader.rest = frameOf body ++ tail) :
    ∃ reader', readFrameBody reader = .body body reader' ∧ reader'.rest = tail := by
  rw [frameOf, List.append_assoc] at h
  obtain ⟨middle, hPrefix, hMiddle⟩ := StreamReader.readexactly_append h
  obtain ⟨reader', hRead, hRest⟩ := StreamReader.readexactly_append hMiddle
  have hLength : unpack (pack body.length) = body.length :=
    unpack_pack (hBody.trans_lt (by decide))
  refine ⟨reader', ?_, hRest⟩
  rw [readFrameBody, show (4 : ℕ) = (pack body.length).length from rfl, hPrefix]
  simp only [hLength, hRead]
  rw [if_neg (not_lt.mpr hBody)]

theorem exists_readexactly_four {reader : StreamReader} (h : 4 ≤ reader.rest.length) :
    ∃ middle, reader.readexactly 4 = some (reader.rest.take 4, middle) ∧
      middle.rest = reader.rest.drop 4 := by
  have hSplit : reader.rest = reader.rest.take 4 ++ reader.rest.drop 4 :=
    (List.take_append_drop 4 reader.rest).symm
  obtain ⟨middle, hRead, hMiddle⟩ := StreamReader.readexactly_append hSplit
  rw [List.length_take_of_le h] at hRead
  exact ⟨middle, hRead, hMiddle⟩

theorem readFrameBody_oversized {reader : StreamReader} (h : Oversized reader.rest) :
    readFrameBody reader = .oversized := by
  obtain ⟨middle, hRead, -⟩ := exists_readexactly_four h.1
  rw [readFrameBody, hRead]
  exact if_pos h.2

theorem readFrameBody_truncated {reader : StreamReader} (h : Truncated reader.rest) :
    readFrameBody reader = .incomplete := by
  obtain hShort | ⟨hLength, hShort⟩ := h
  · rw [readFrameBody, StreamReader.readexactly_eq_none_iff.mpr hShort]
  · obtain hFew | hFour := Nat.lt_or_ge reader.rest.length 4
    · rw [readFrameBody, StreamReader.readexactly_eq_none_iff.mpr hFew]
    · obtain ⟨middle, hRead, hMiddle⟩ := exists_readexactly_four hFour
      have hNone : middle.readexactly (unpack (reader.rest.take 4)) = none := by
        rw [StreamReader.readexactly_eq_none_iff, hMiddle, List.length_drop]
        omega
      rw [readFrameBody, hRead]
      simp only [hNone]
      exact if_neg (not_lt.mpr hLength)

variable (c : Codec) (readings : ℕ → FrameReadings)

theorem handleConnection_incomplete {frame : ℕ} {reader : StreamReader}
    (h : readFrameBody reader = .incomplete) :
    handleConnection c readings frame reader = ([], .disconnected) := by
  rw [handleConnection]
  split
  · rfl
  next hRead => cases h.symm.trans hRead
  next hRead => cases h.symm.trans hRead

theorem handleConnection_oversized {frame : ℕ} {reader : StreamReader}
    (h : readFrameBody reader = .oversized) :
    handleConnection c readings frame reader = ([], .oversized) := by
  rw [handleConnection]
  split
  next hRead => cases h.symm.trans hRead
  · rfl
  next hRead => cases h.symm.trans hRead

theorem handleConnection_body {frame : ℕ} {reader reader' : StreamReader} {body : Bytes}
    (h : readFrameBody reader = .body body reader') :
    handleConnection c readings frame reader =
      if (handleFrame c (readings frame) body).2 then
        ((handleFrame c (readings frame) body).1 ++
            (handleConnection c readings (frame + 1) reader').1,
          (handleConnection c readings (frame + 1) reader').2)
      else ((handleFrame c (readings frame) body).1, .raised) := by
  rw [handleConnection]
  split
  next hRead => cases h.symm.trans hRead
  next hRead => cases h.symm.trans hRead
  next hRead =>
    cases h.symm.trans hRead
    split
    next hHandle => rw [hHandle]; rfl
    next hHandle => rw [hHandle]; rfl

def serveFrames : ℕ → List Bytes → List Effect × Bool
  | _, [] => ([], true)
  | frame, body :: bodies =>
    if (handleFrame c (readings frame) body).2 then
      ((handleFrame c (readings frame) body).1 ++ (serveFrames (frame + 1) bodies).1,
        (serveFrames (frame + 1) bodies).2)
    else ((handleFrame c (readings frame) body).1, false)

theorem handleConnection_frames (frame : ℕ) (reader : StreamReader) {bodies : List Bytes}
    {tail : Bytes} (hBodies : ∀ body ∈ bodies, body.length ≤ maxFrameBytes)
    (hTail : Truncated tail ∨ Oversized tail)
    (h : reader.rest = bodies.flatMap frameOf ++ tail) :
    handleConnection c readings frame reader =
      ((serveFrames c readings frame bodies).1,
        if (serveFrames c readings frame bodies).2 then tailEnd tail else .raised) := by
  induction bodies generalizing frame reader with
  | nil =>
    rw [List.flatMap_nil, List.nil_append] at h
    obtain hTruncated | hOversized := hTail
    · have hNot : ¬Oversized tail := fun hOver => by
        obtain hShort | ⟨hLength, -⟩ := hTruncated
        · exact absurd hOver.1 (by omega)
        · exact absurd hOver.2 (by omega)
      rw [handleConnection_incomplete c readings (readFrameBody_truncated (h ▸ hTruncated)),
        tailEnd, if_neg hNot]
      rfl
    · rw [handleConnection_oversized c readings (readFrameBody_oversized (h ▸ hOversized)),
        tailEnd, if_pos hOversized]
      rfl
  | cons body bodies ih =>
    rw [List.flatMap_cons, List.append_assoc] at h
    obtain ⟨reader', hRead, hRest⟩ :=
      readFrameBody_frame (hBodies body List.mem_cons_self) h
    have hLater := ih (frame + 1) reader'
      (fun other hMem => hBodies other (List.mem_cons_of_mem _ hMem)) hRest
    rw [handleConnection_body c readings hRead, serveFrames, hLater]
    by_cases hContinues : (handleFrame c (readings frame) body).2
    · rw [if_pos hContinues, if_pos hContinues]
    · rw [if_neg hContinues, if_neg hContinues]
      rfl

/-- The keys of `_DRY_RUN_METADATA`, as `==` tells them. -/
def IsTruthValue : PyValue → Prop
  | .bool _ => True
  | .int i => i = 0 ∨ i = 1
  | .float q => q = 0 ∨ q = 1
  | _ => False

theorem dryRunMetadata_isSome_iff {value : PyValue} :
    (dryRunMetadata value).isSome ↔ IsTruthValue value := by
  cases value with
  | bool b => simp [dryRunMetadata, IsTruthValue]
  | int i =>
    rw [dryRunMetadata, IsTruthValue]
    by_cases hZero : i = 0
    · simp [hZero]
    · by_cases hOne : i = 1
      · simp [hOne]
      · simp [hZero, hOne]
  | float q =>
    rw [dryRunMetadata, IsTruthValue]
    by_cases hZero : q = 0
    · simp [hZero]
    · by_cases hOne : q = 1
      · simp [hOne]
      · simp [hZero, hOne]
  | _ => simp [dryRunMetadata, IsTruthValue]

/-- If the body decodes, its `dry_run` is a truth value. -/
def Serveable (body : Bytes) : Prop :=
  ∀ m, decodeWakeMessage c body = .ok m → IsTruthValue m.dryRun

variable {c readings}

theorem handleFrame_continues_iff {r : FrameReadings} {body : Bytes} :
    (handleFrame c r body).2 = true ↔ Serveable c body := by
  rw [handleFrame, Serveable]
  cases decodeWakeMessage c body with
  | error reason => simp
  | ok m =>
    simp only [Except.ok.injEq, forall_eq']
    rw [← dryRunMetadata_isSome_iff]
    cases dryRunMetadata m.dryRun with
    | none => simp
    | some metadata => simp

def acksOf (effects : List Effect) : List WakeAck :=
  effects.filterMap fun
    | .ack ack => some ack
    | _ => none

def firesOf (effects : List Effect) : List RawWake :=
  effects.filterMap fun
    | .fire m => some m
    | _ => none

theorem acksOf_handleFrame {r : FrameReadings} {body : Bytes} :
    acksOf (handleFrame c r body).1 = [ackOf r.startedAtMs (decodeWakeMessage c body)] := by
  rw [handleFrame]
  cases decodeWakeMessage c body with
  | error reason => rfl
  | ok m =>
    simp only
    cases dryRunMetadata m.dryRun <;> rfl

theorem firesOf_handleFrame {r : FrameReadings} {body : Bytes}
    (h : (handleFrame c r body).2 = true) :
    firesOf (handleFrame c r body).1 = (decodeWakeMessage c body).toOption.toList := by
  rw [handleFrame] at h ⊢
  cases hDecoded : decodeWakeMessage c body with
  | error reason => rfl
  | ok m =>
    rw [hDecoded] at h
    simp only at h ⊢
    cases hMetadata : dryRunMetadata m.dryRun with
    | none => simp [hMetadata] at h
    | some metadata => rfl

theorem firesOf_handleFrame_sublist (c : Codec) (r : FrameReadings) (body : Bytes) :
    (firesOf (handleFrame c r body).1).Sublist (decodeWakeMessage c body).toOption.toList := by
  rw [handleFrame]
  cases decodeWakeMessage c body with
  | error reason => exact List.nil_sublist _
  | ok m =>
    simp only
    cases dryRunMetadata m.dryRun with
    | none => exact List.nil_sublist _
    | some metadata => exact List.Sublist.refl _

theorem serveFrames_continues_iff (readings : ℕ → FrameReadings) (frame : ℕ)
    {bodies : List Bytes} :
    (serveFrames c readings frame bodies).2 = true ↔ ∀ body ∈ bodies, Serveable c body := by
  induction bodies generalizing frame with
  | nil => simp [serveFrames]
  | cons body bodies ih =>
    rw [serveFrames, List.forall_mem_cons, ← ih (frame + 1),
      ← handleFrame_continues_iff (r := readings frame)]
    by_cases hContinues : (handleFrame c (readings frame) body).2
    · simp [hContinues]
    · simp [hContinues]

theorem acksOf_serveFrames (frame : ℕ) {bodies : List Bytes}
    (h : ∀ body ∈ bodies, Serveable c body) :
    acksOf (serveFrames c readings frame bodies).1 =
      bodies.mapIdx fun i body =>
        ackOf (readings (frame + i)).startedAtMs (decodeWakeMessage c body) := by
  induction bodies generalizing frame with
  | nil => rfl
  | cons body bodies ih =>
    rw [List.forall_mem_cons] at h
    have hTail := ih (frame + 1) h.2
    rw [serveFrames, if_pos (handleFrame_continues_iff.mpr h.1), acksOf, List.filterMap_append,
      ← acksOf, ← acksOf, acksOf_handleFrame, hTail, List.mapIdx_cons, List.singleton_append]
    simp only [Nat.add_assoc, Nat.add_comm 1, Nat.add_zero]

theorem firesOf_serveFrames (frame : ℕ) {bodies : List Bytes}
    (h : ∀ body ∈ bodies, Serveable c body) :
    firesOf (serveFrames c readings frame bodies).1 =
      bodies.filterMap fun body => (decodeWakeMessage c body).toOption := by
  induction bodies generalizing frame with
  | nil => rfl
  | cons body bodies ih =>
    rw [List.forall_mem_cons] at h
    have hContinues := handleFrame_continues_iff (r := readings frame).mpr h.1
    have hTail := ih (frame + 1) h.2
    rw [serveFrames, if_pos hContinues, firesOf, List.filterMap_append, ← firesOf, ← firesOf,
      firesOf_handleFrame hContinues, hTail]
    cases hDecoded : (decodeWakeMessage c body).toOption with
    | none => rw [List.filterMap_cons, hDecoded, Option.toList_none, List.nil_append]
    | some m => rw [List.filterMap_cons, hDecoded, Option.toList_some, List.singleton_append]

/-- What a connection owes to the frames sent on it. -/
structure Framed (c : Codec) (readings : ℕ → FrameReadings) (bodies : List Bytes) (tail : Bytes)
    (trace : List Effect × ConnectionEnd) : Prop where
  acks : acksOf trace.1 = bodies.mapIdx fun frame body =>
    ackOf (readings frame).startedAtMs (decodeWakeMessage c body)
  fires : firesOf trace.1 = bodies.filterMap fun body => (decodeWakeMessage c body).toOption
  ended : trace.2 = tailEnd tail

theorem handleConnection_framed_iff (c : Codec) (readings : ℕ → FrameReadings)
    (bodies : List Bytes) (tail : Bytes) (chunks : List Bytes)
    (hBodies : ∀ body ∈ bodies, body.length ≤ maxFrameBytes)
    (hTail : Truncated tail ∨ Oversized tail)
    (hStream : chunks.flatten = bodies.flatMap frameOf ++ tail) :
    Framed c readings bodies tail (handleConnection c readings 0 ⟨[], chunks⟩) ↔
      ∀ body ∈ bodies, Serveable c body := by
  rw [handleConnection_frames c readings 0 ⟨[], chunks⟩ hBodies hTail hStream]
  constructor
  · rintro ⟨-, -, hEnd⟩
    refine serveFrames_continues_iff readings 0 |>.mp ?_
    by_contra hRaised
    rw [if_neg hRaised, tailEnd] at hEnd
    split at hEnd <;> cases hEnd
  · intro hServeable
    refine ⟨?_, firesOf_serveFrames 0 hServeable, ?_⟩
    · rw [acksOf_serveFrames 0 hServeable]
      simp only [Nat.zero_add]
    · rw [if_pos ((serveFrames_continues_iff readings 0).mpr hServeable)]

def asciiBytes (texts : List String) : Bytes :=
  texts.flatMap fun text => text.toList.map fun ch => UInt8.ofNat ch.toNat

def sampleFields : JsonObject :=
  [("schema_version", .int 4), ("correlation_id", .str "c1"), ("market_ticker", .str "KXBTC15M-1"),
    ("asset", .str "BTC"), ("direction", .str "yes"), ("kalshi_price", .float (1 / 2)),
    ("model_probability", .float (3 / 4)), ("fee", .float 0), ("edge", .float (1 / 4)),
    ("decision_ts_ms", .int 1), ("sent_at_ms", .int 1), ("sent_at_ns", .int 1)]

def sampleText : List String :=
  ["\x7b", "\"schema_version\":4,", "\"correlation_id\":\"c1\",",
    "\"market_ticker\":\"KXBTC15M-1\",", "\"asset\":\"BTC\",", "\"direction\":\"yes\",",
    "\"kalshi_price\":0.5,", "\"model_probability\":0.75,", "\"fee\":0.0,", "\"edge\":0.25,",
    "\"decision_ts_ms\":1,", "\"sent_at_ms\":1,", "\"sent_at_ns\":1"]

def sampleBody : Bytes := asciiBytes (sampleText ++ ["\x7d"])

/-- The same wake with a text where the truth value goes. -/
def textDryRunBody : Bytes := asciiBytes (sampleText ++ [",\"dry_run\":\"yes\"", "\x7d"])

def sampleLoads (data : Bytes) : Except String PyValue :=
  if data = sampleBody then .ok (.dict sampleFields)
  else if data = textDryRunBody then .ok (.dict (sampleFields ++ [("dry_run", .str "yes")]))
  else .error "unexpected character: line 1 column 1 (char 0)"

/-- `orjson` on these two bodies and on bytes that are no JSON. -/
def sampleCodec : Codec where
  loads := sampleLoads
  dumps
    | .dict fields => if (fields.lookup "dry_run").isSome then textDryRunBody else sampleBody
    | _ => []
  typeError _ := "argument after ** must be a mapping"

def sampleReadings (frame : ℕ) : FrameReadings := ⟨frame, frame, frame, frame⟩

theorem textDryRunBody_ne : textDryRunBody ≠ sampleBody := by decide +kernel

theorem sampleCodec_loads : sampleCodec.loads = sampleLoads := rfl

theorem decode_sampleBody :
    decodeWakeMessage sampleCodec sampleBody = .ok (wakeOf sampleFields) := by
  rw [decodeWakeMessage, sampleCodec_loads, sampleLoads, if_pos rfl]
  exact if_pos (by decide)

theorem decode_textDryRunBody :
    decodeWakeMessage sampleCodec textDryRunBody =
      .ok (wakeOf (sampleFields ++ [("dry_run", .str "yes")])) := by
  rw [decodeWakeMessage, sampleCodec_loads, sampleLoads, if_neg textDryRunBody_ne, if_pos rfl]
  exact if_pos (by decide)

theorem sampleBody_serveable : Serveable sampleCodec sampleBody := by
  intro m hDecoded
  cases decode_sampleBody.symm.trans hDecoded
  trivial

theorem junkBody_serveable : Serveable sampleCodec [0x78] := by
  intro m hDecoded
  rw [decodeWakeMessage, sampleCodec_loads, sampleLoads, if_neg (by decide +kernel),
    if_neg (by decide +kernel)] at hDecoded
  cases hDecoded

theorem sampleBody_framed :
    Framed sampleCodec sampleReadings [sampleBody, [0x78], sampleBody] [0, 0]
      (handleConnection sampleCodec sampleReadings 0
        ⟨[], [frameOf sampleBody, frameOf [0x78] ++ frameOf sampleBody ++ [0], [0]]⟩) := by
  refine (handleConnection_framed_iff _ _ _ _ _ (by decide +kernel) (.inl (.inl (by decide)))
    (by decide +kernel)).mpr ?_
  rw [List.forall_mem_cons, List.forall_mem_cons, List.forall_mem_singleton]
  exact ⟨sampleBody_serveable, junkBody_serveable, sampleBody_serveable⟩

/-- Neither fired nor rejected, and the frame behind it is lost. -/
theorem textDryRun_not_framed :
    (∀ body ∈ [textDryRunBody, sampleBody], body.length ≤ maxFrameBytes) ∧ Truncated [] ∧
      ¬Framed sampleCodec sampleReadings [textDryRunBody, sampleBody] []
        (handleConnection sampleCodec sampleReadings 0
          ⟨[], [frameOf textDryRunBody ++ frameOf sampleBody]⟩) := by
  have hBodies : ∀ body ∈ [textDryRunBody, sampleBody], body.length ≤ maxFrameBytes := by
    decide +kernel
  have hRaised : ¬(handleFrame sampleCodec (sampleReadings 0) textDryRunBody).2 = true := by
    rw [handleFrame_continues_iff]
    exact fun hServeable => hServeable _ decode_textDryRunBody
  have hTail : Truncated [] := .inl (by decide)
  refine ⟨hBodies, hTail, ?_⟩
  rintro ⟨-, -, hEnd⟩
  rw [handleConnection_frames sampleCodec sampleReadings 0 _ hBodies (.inl hTail)
    (by decide +kernel), serveFrames, if_neg hRaised] at hEnd
  cases hEnd

end KalshiBot.Ipc
