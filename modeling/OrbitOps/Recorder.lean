import OrbitOps.Validation

/-!
# Telemetry recordings

A recording has one line for each received datagram, rejected ones included. The strict loader gives
every record its position as index; `iterRecords` reads the same lines one by one, sleeps between
them and hands each packet to the body of a loop.
-/

namespace OrbitOps
open Py

def RECORD_VERSION : Nat := 1

/-- A finite non-negative time. -/
abbrev Timestamp := { x : Float64 // x.isFinite = true ∧ x.lt .zero = false }

def zeroTimestamp : Timestamp := ⟨.zero, by decide⟩

def oneSecond : Timestamp := ⟨⟨0x3FF0000000000000#64⟩, by decide⟩

def requireTimestamp (field : String) (x : Float64) : Result Timestamp :=
  if hf : x.isFinite = true then
    if hn : x.lt .zero = false then .ok ⟨x, hf, hn⟩ else .error (valueError (field ++ " must be non-negative"))
  else .error (valueError (field ++ " must be finite"))

def validateTimestamp (field : String) : Json → Result Timestamp
  | .float x => requireTimestamp field x
  | .int n =>
    match Float64.ofInt? n with
    | none => .error (valueError (field ++ " must be finite"))
    | some x => requireTimestamp field x
  | _ => .error (typeError (field ++ " must be a real number"))

@[simp] theorem validateTimestamp_float (field : String) (t : Timestamp) : validateTimestamp field (.float t.1) = .ok t := by
  rw [validateTimestamp, requireTimestamp, dif_pos t.2.1, dif_pos t.2.2]

def recordKeys : List String := ["packet_hex", "received_at", "record_version"]

/-- The prefix of the errors of a line. -/
def invalidRecord (lineNumber : Nat) (what : String) : PyError :=
  valueError (s!"invalid record at line {lineNumber}: " ++ what)

def decodeRecord (lineNumber : Nat) : Json → Result (Timestamp × Bytes)
  | .obj record =>
    if hasKeys recordKeys record then
      match getKey record "record_version" with
      | .int version =>
        if version ≠ RECORD_VERSION then
          .error (valueError s!"unsupported record version {version} at line {lineNumber}")
        else do
          let timestamp ← reraise (fun exc => invalidRecord lineNumber exc.message)
            (validateTimestamp "received_at" (getKey record "received_at"))
          match getKey record "packet_hex" with
          | .str packetHex =>
            match bytesOfHex packetHex with
            | some packet => .ok (timestamp, packet)
            | none => .error (invalidRecord lineNumber "packet_hex is invalid")
          | _ => .error (invalidRecord lineNumber "packet_hex must be a string")
      | _ => .error (invalidRecord lineNumber "record_version must be an integer")
    else .error (invalidRecord lineNumber ("invalid keys: missing=" ++ reprTexts (missingKeys recordKeys record) ++
      ", extra=" ++ reprTexts (extraKeys recordKeys record)))
  | _ => .error (invalidRecord lineNumber "record must be a JSON object")

/-- A decoded line of a recording. -/
structure TelemetryRow where
  lineNumber : Nat
  receivedAt : Timestamp
  packet : Bytes
  line_pos : 0 < lineNumber

/-- One validated row of a recording. -/
structure RecordedTelemetryRecord extends TelemetryRow where
  recordIndex : Nat

/-- The row on a line. -/
def decodeRow (loads : String → Option Json) (lineNumber : Nat) (line : String) : Result TelemetryRow :=
  match loads line with
  | none => .error (valueError s!"invalid record at line {lineNumber}")
  | some payload => do
    let (timestamp, packet) ← decodeRecord lineNumber payload
    if h : 0 < lineNumber then .ok ⟨lineNumber, timestamp, packet, h⟩
    else .error (valueError "line_number must be positive")

/-- One more line of `_iter_decoded_records`. -/
def recordStep (loads : String → Option Json) (lineNumber : Nat) (line : String)
    (records : List RecordedTelemetryRecord) : Result (List RecordedTelemetryRecord) := do
  let row ← decodeRow loads lineNumber line
  return records ++ [⟨row, records.length⟩]

def loadTelemetryRecords (loads : String → Option Json) (file : TextFile) : Result (List RecordedTelemetryRecord) :=
  file.fold valueError (recordStep loads) []

/-- Rows with their positions. -/
def indexRows (rows : List TelemetryRow) : List RecordedTelemetryRecord := rows.mapIdx fun i row => ⟨row, i⟩

@[simp] theorem length_indexRows (rows : List TelemetryRow) : (indexRows rows).length = rows.length := by
  rw [indexRows, List.length_mapIdx]

/-- What is read from rows does not depend on their positions. -/
theorem map_indexRows {β : Type} (f : TelemetryRow → β) (rows : List TelemetryRow) :
    (indexRows rows).map (fun record => f record.toTelemetryRow) = rows.map f :=
  List.ext_getElem (by simp) fun i _ _ => by simp [indexRows]

/-- The recordings that the loader accepts, and what it returns. -/
theorem loadTelemetryRecords_eq_ok {loads : String → Option Json} {file : TextFile}
    {records : List RecordedTelemetryRecord} : loadTelemetryRecords loads file = .ok records ↔
      file.undecodable = none ∧ ∃ rows, Decodes (decodeRow loads) 1 file.lines rows ∧ records = indexRows rows := by
  have hstep : ∀ n line rows st, isBlank line = false → (recordStep loads n line (indexRows rows) = .ok st ↔
      ∃ row, decodeRow loads n line = .ok row ∧ True ∧ st = indexRows (rows ++ [row])) := by
    intro n line rows st _
    simp only [recordStep, except_bind_eq_ok, true_and]
    refine exists_congr fun row => and_congr_right fun _ => ?_
    rw [indexRows, indexRows, List.mapIdx_concat, List.length_mapIdx]
    constructor
    · intro h; cases h; rfl
    · rintro rfl; rfl
  have hgrows (rows acc : List TelemetryRow) : Grows (fun _ _ => True) acc rows := by
    induction rows generalizing acc with
    | nil => trivial
    | cons row rows ih => exact ⟨trivial, ih _⟩
  have hfold : file.fold valueError (recordStep loads) (indexRows []) = .ok records ↔ _ := TextFile.fold_eq_ok hstep
  refine hfold.trans (and_congr_right fun _ => exists_congr fun rows => ?_)
  rw [and_iff_right (hgrows rows [])]

theorem catchable_loadTelemetryRecords (loads : String → Option Json) (file : TextFile) :
    Catchable (loadTelemetryRecords loads file) := by
  have htimestamp (field : String) (j : Json) : Catchable (validateTimestamp field j) := by
    have hrequire (x : Float64) : Catchable (requireTimestamp field x) := by
      unfold requireTimestamp
      split_ifs <;> simp
    cases j <;> simp only [validateTimestamp, catchable_typeError]
    · split
      · simp
      · exact hrequire _
    · exact hrequire _
  have hrecord (n : Nat) (j : Json) : Catchable (decodeRecord n j) := by
    unfold decodeRecord invalidRecord
    split
    · split_ifs
      · split
        · split_ifs
          · simp
          · refine (Catchable.reraise (htimestamp _ _) fun _ => rfl).bind fun t => ?_
            split
            · split <;> simp
            · simp
        · simp
      · simp
    · simp
  refine catchable_fold (fun n line st => Catchable.bind ?_ fun row => catchable_ok _) _ _
  unfold decodeRow
  split
  · simp
  · refine (hrecord _ _).bind fun r => ?_
    obtain ⟨timestamp, packet⟩ := r
    dsimp only
    split_ifs <;> simp

/-! ### Writing -/

/-- The JSON object of a received datagram. -/
def recordJson (timestamp : Timestamp) (rawPacket : Bytes) : Json :=
  .obj [("record_version", .int RECORD_VERSION), ("received_at", .float timestamp.1),
    ("packet_hex", .str (hexOfBytes rawPacket))]

structure SessionRecorder where
  lines : List String

namespace SessionRecorder

def new : SessionRecorder := ⟨[]⟩

def write (rawPacket : Bytes) (receivedAt : Json) : Method PyError SessionRecorder Unit := do
  let timestamp ← Method.lift (validateTimestamp "received_at" receivedAt)
  Method.modify fun r => { r with lines := r.lines ++ [(recordJson timestamp rawPacket).line] }

theorem write_ok (rawPacket : Bytes) (t : Timestamp) (r : SessionRecorder) :
    write rawPacket (.float t.1) r = (.ok (), { r with lines := r.lines ++ [(recordJson t rawPacket).line] }) := by
  rw [write, Method.bind_ok (Method.lift_eq (validateTimestamp_float "received_at" t) r)]
  rfl

end SessionRecorder

theorem sortKeys_recordJson (t : Timestamp) (rawPacket : Bytes) : (recordJson t rawPacket).sortKeys =
    .obj [("packet_hex", .str (hexOfBytes rawPacket)), ("received_at", .float t.1),
      ("record_version", .int RECORD_VERSION)] := by
  simp [recordJson, Json.sortKeys, Json.sortKeysItems, sortItems, List.insertionSort, List.orderedInsert]

theorem readable_recordJson (t : Timestamp) (rawPacket : Bytes) : (recordJson t rawPacket).Readable :=
  Json.readable_record ["record_version", "received_at", "packet_hex"] rfl (by decide)
    ⟨Json.readable_int _, Json.readable_finite (v := .float t.1) t.2.1, Json.readable_str _⟩

/-- The only integer of a record is its version. -/
theorem readsBack_recordJson (t : Timestamp) (rawPacket : Bytes) : ReadsBack Json.loads (recordJson t rawPacket) :=
  (readable_recordJson t rawPacket).readsBack fun n hn => by
    rw [List.mem_singleton.mp (show n ∈ [(RECORD_VERSION : Int)] from hn)]
    exact lt_strLimit (by decide)

theorem decodeRow_line {loads : String → Option Json} {t : Timestamp} {rawPacket : Bytes}
    (h : ReadsBack loads (recordJson t rawPacket)) {n : Nat} (hn : 0 < n) :
    decodeRow loads n (recordJson t rawPacket).line = .ok ⟨n, t, rawPacket, hn⟩ := by
  have hkeys : hasKeys recordKeys [("packet_hex", Json.str (hexOfBytes rawPacket)), ("received_at", .float t.1),
      ("record_version", .int RECORD_VERSION)] = true := rfl
  have hversion : getKey [("packet_hex", Json.str (hexOfBytes rawPacket)), ("received_at", .float t.1),
      ("record_version", .int RECORD_VERSION)] "record_version" = .int RECORD_VERSION := rfl
  have htime : getKey [("packet_hex", Json.str (hexOfBytes rawPacket)), ("received_at", .float t.1),
      ("record_version", .int RECORD_VERSION)] "received_at" = .float t.1 := rfl
  have hhex : getKey [("packet_hex", Json.str (hexOfBytes rawPacket)), ("received_at", .float t.1),
      ("record_version", .int RECORD_VERSION)] "packet_hex" = .str (hexOfBytes rawPacket) := rfl
  have hrecord : decodeRecord n (recordJson t rawPacket).sortKeys = .ok (t, rawPacket) := by
    rw [sortKeys_recordJson, decodeRecord, if_pos hkeys, hversion]
    simp only [ne_eq, not_true_eq_false, ↓reduceIte, htime, validateTimestamp_float, reraise_ok, hhex,
      bytesOfHex_hexOfBytes, bind, Except.bind]
  rw [decodeRow, h]
  simp only [hrecord, bind, Except.bind]
  rw [dif_pos hn]

/-- The rows of written records, after `n` lines. -/
def writtenRows : Nat → List (Timestamp × Bytes) → List TelemetryRow
  | _, [] => []
  | n, d :: ds => ⟨n + 1, d.1, d.2, Nat.succ_pos n⟩ :: writtenRows (n + 1) ds

theorem packet_writtenRows (n : Nat) (ds : List (Timestamp × Bytes)) :
    (writtenRows n ds).map TelemetryRow.packet = ds.map Prod.snd := by
  induction ds generalizing n with
  | nil => rfl
  | cons d ds ih => rw [writtenRows, List.map_cons, ih]; rfl

theorem decodes_written {loads : String → Option Json} {ds : List (Timestamp × Bytes)}
    (hloads : ∀ d ∈ ds, ReadsBack loads (recordJson d.1 d.2)) (n : Nat) :
    Decodes (decodeRow loads) (n + 1) (ds.map fun d => (recordJson d.1 d.2).line) (writtenRows n ds) := by
  induction ds generalizing n with
  | nil => rfl
  | cons d ds ih =>
    have hblank : isBlank (recordJson d.1 d.2).line = false := isBlank_line_obj _
    simp only [List.map_cons, Decodes, hblank, Bool.false_eq_true, ↓reduceIte]
    exact ⟨_, _, rfl, decodeRow_line (hloads d (List.mem_cons_self ..)) (Nat.succ_pos n),
      ih (fun d' hd' => hloads d' (List.mem_cons_of_mem _ hd')) (n + 1)⟩

theorem loadTelemetryRecords_written {loads : String → Option Json} {ds : List (Timestamp × Bytes)}
    (hloads : ∀ d ∈ ds, ReadsBack loads (recordJson d.1 d.2)) :
    loadTelemetryRecords loads ⟨ds.map fun d => (recordJson d.1 d.2).line, none⟩ = .ok (indexRows (writtenRows 0 ds)) :=
  loadTelemetryRecords_eq_ok.mpr ⟨rfl, _, decodes_written hloads 0, rfl⟩

/-! ### Replaying -/

/-- The double `2 ^ 63`. -/
def sleepLimit : Float64 := ⟨0x43E0000000000000#64⟩

/-- `time.sleep`: the delay in nanoseconds has to stay below `2 ^ 63`. -/
def sleep (delay : Float64) : Result Unit :=
  if delay.isNan then .error (valueError "Invalid value NaN (not a number)")
  else if delay.isInf then .error (overflowError "timestamp too large to convert to C PyTime_t")
  else if delay.lt .zero then .error (valueError "sleep length must be non-negative")
  else if (Float64.ofFraction false (delay.units * 10 ^ 9) (2 ^ 1074)).lt sleepLimit then .ok ()
  else .error (overflowError "timestamp too large to convert to C PyTime_t")

/-- The delays that `time.sleep` takes. -/
structure Sleepable (delay : Float64) : Prop where
  number : delay.isNan = false
  finite : delay.isInf = false
  nonneg : delay.lt .zero = false
  fits : (Float64.ofFraction false (delay.units * 10 ^ 9) (2 ^ 1074)).lt sleepLimit = true

theorem sleep_eq_ok {delay : Float64} : sleep delay = .ok () ↔ Sleepable delay := by
  rw [sleep]
  constructor
  · intro h
    split_ifs at h with h1 h2 h3 h4
    exact ⟨by simpa using h1, by simpa using h2, by simpa using h3, h4⟩
  · rintro ⟨h1, h2, h3, h4⟩
    rw [h1, h2, h3, if_neg Bool.false_ne_true, if_neg Bool.false_ne_true, if_neg Bool.false_ne_true, if_pos h4]

/-- A positive finite speed. -/
abbrev Speed := { x : Float64 // x.isFinite = true ∧ x.le .zero = false }

def requireSpeed : Json → Result Speed
  | .float x =>
    if h : x.isFinite = true ∧ x.le .zero = false then .ok ⟨x, h⟩
    else .error (valueError "speed must be positive and finite")
  | .int n =>
    match Float64.ofInt? n with
    | none => .error (valueError "speed must be positive and finite")
    | some x =>
      if h : x.isFinite = true ∧ x.le .zero = false then .ok ⟨x, h⟩
      else .error (valueError "speed must be positive and finite")
  | _ => .error (typeError "speed must be a real number")

/-- The time to sleep between two records; the division is Python's. -/
def recordDelay (speed : Speed) (previous receivedAt : Timestamp) : Option Float64 :=
  (Float64.pyMax .zero (receivedAt.1.sub previous.1)).div? speed.1

/-- `time.sleep` of a quotient. -/
def sleepQuotient : Option Float64 → Result Unit
  | none => .error (zeroDivisionError "float division by zero")
  | some delay => sleep delay

/-- The sleep before a record, none before the first. -/
def pause (speed : Speed) : Option Timestamp → Timestamp → Result Unit
  | none, _ => .ok ()
  | some previousTime, receivedAt => sleepQuotient (recordDelay speed previousTime receivedAt)

theorem pause_some_eq_ok {speed : Speed} {previous t : Timestamp} : pause speed (some previous) t = .ok () ↔
    ∃ delay, recordDelay speed previous t = some delay ∧ Sleepable delay := by
  rw [pause]
  generalize recordDelay speed previous t = quotient
  cases quotient with
  | none => simp [sleepQuotient]
  | some delay => simp [sleepQuotient, sleep_eq_ok]

section
variable {σ : Type}

/-- The lines of `iter_records`, with the body of the loop that consumes the packets. -/
def iterLines (loads : String → Option Json) (speed : Speed) (body : Bytes → Method PyError σ Unit) :
    Nat → Option Timestamp → List String → Method PyError σ Unit
  | _, _, [] => pure ()
  | n, previousTime, line :: rest =>
    if isBlank line then iterLines loads speed body (n + 1) previousTime rest
    else do
      let row ← Method.lift (decodeRow loads n line)
      Method.lift (pause speed previousTime row.receivedAt)
      body row.packet
      iterLines loads speed body (n + 1) (some row.receivedAt) rest

/-- `for raw in iter_records(path, speed): body(raw)`. -/
def iterRecords (loads : String → Option Json) (file : TextFile) (speed : Json) (body : Bytes → Method PyError σ Unit) :
    Method PyError σ Unit := do
  let speed ← Method.lift (requireSpeed speed)
  iterLines loads speed body 1 none file.lines
  match file.undecodable with
  | none => pure ()
  | some message => Method.raise (valueError message)

end

/-- A replayed record: the sleep before it, then its packet. -/
def replayEach {σ : Type} (speed : Speed) (body : Bytes → Method PyError σ Unit) :
    Option Timestamp → List (Timestamp × Bytes) → Method PyError σ Unit
  | _, [] => pure ()
  | previousTime, d :: ds => do
    Method.lift (pause speed previousTime d.1)
    body d.2
    replayEach speed body (some d.1) ds

/-- Replaying a written recording goes through its records. -/
theorem iterRecords_written {σ : Type} {loads : String → Option Json} {ds : List (Timestamp × Bytes)}
    (hloads : ∀ d ∈ ds, ReadsBack loads (recordJson d.1 d.2)) (speed : Speed) (body : Bytes → Method PyError σ Unit) :
    iterRecords loads ⟨ds.map fun d => (recordJson d.1 d.2).line, none⟩ (.float speed.1) body =
      replayEach speed body none ds := by
  have hlines (n : Nat) (previous : Option Timestamp) : iterLines loads speed body (n + 1) previous
      (ds.map fun d => (recordJson d.1 d.2).line) = replayEach speed body previous ds := by
    induction ds generalizing n previous with
    | nil => rfl
    | cons d ds ih =>
      have hblank : isBlank (recordJson d.1 d.2).line = false := isBlank_line_obj _
      rw [List.map_cons, iterLines, hblank, if_neg Bool.false_ne_true,
        decodeRow_line (hloads d (List.mem_cons_self ..)) (Nat.succ_pos n), replayEach,
        ← ih (fun d' hd' => hloads d' (List.mem_cons_of_mem _ hd')) (n + 1) (some d.1)]
      rfl
  have hspeed : requireSpeed (.float speed.1) = .ok speed := by
    rw [requireSpeed, dif_pos speed.2]
  rw [iterRecords, hspeed]
  funext s
  rw [Method.bind_ok (Method.lift_apply _ s), hlines 0 none]
  exact congrFun (bind_pure _) s

end OrbitOps
