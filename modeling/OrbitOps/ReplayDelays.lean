import OrbitOps.Py.Adjacent
import OrbitOps.Py.FloatOrder
import OrbitOps.Recorder

/-!
# The delays of a replay

`iterRecords` validates its operands one by one, but what it passes to `time.sleep` is a quotient of a
difference. Here that arithmetic is exact, up to quotients above the largest double, which are infinite.
A recording that the loader accepts is replayed whole when all its consecutive times are less than
`2 ^ 63` nanoseconds apart at the speed of the replay; otherwise `time.sleep` raises in the middle.
-/

namespace OrbitOps
open Py

namespace ReplayDelays

/-! ### The loop -/

section
variable {σ : Type} (loads : String → Option Json) (sleepBefore : Option Timestamp → Timestamp → Method PyError σ Unit)
  (body : Bytes → Method PyError σ Unit)

/-- The lines of `iter_records`, with what is slept before a record left open. -/
def iterLinesWith : Nat → Option Timestamp → List String → Method PyError σ Unit
  | _, _, [] => pure ()
  | n, previousTime, line :: rest =>
    if isBlank line then iterLinesWith (n + 1) previousTime rest
    else do
      let row ← Method.lift (decodeRow loads n line)
      sleepBefore previousTime row.receivedAt
      body row.packet
      iterLinesWith (n + 1) (some row.receivedAt) rest

/-- The same over decoded rows. -/
def iterRowsWith : Option Timestamp → List TelemetryRow → Method PyError σ Unit
  | _, [] => pure ()
  | previousTime, row :: rows => do
    sleepBefore previousTime row.receivedAt
    body row.packet
    iterRowsWith (some row.receivedAt) rows

/-- `for raw in iter_records(path, speed): body(raw)`, with what is slept left open. -/
def iterRecordsWith (file : TextFile) (speed : Json) (sleepBefore : Speed → Option Timestamp → Timestamp → Method PyError σ Unit) :
    Method PyError σ Unit := do
  let speed ← Method.lift (requireSpeed speed)
  iterLinesWith loads (sleepBefore speed) body 1 none file.lines
  match file.undecodable with
  | none => pure ()
  | some message => Method.raise (valueError message)

variable {loads sleepBefore body}

theorem iterLines_eq_with (speed : Speed) (n : Nat) (previousTime : Option Timestamp) (lines : List String) :
    iterLines loads speed body n previousTime lines =
      iterLinesWith loads (fun previous t => Method.lift (pause speed previous t)) body n previousTime lines := by
  induction lines generalizing n previousTime with
  | nil => rfl
  | cons line lines ih =>
    rw [iterLines, iterLinesWith]
    simp only [ih]

theorem iterRecords_eq_with (file : TextFile) (speed : Json) : iterRecords loads file speed body =
    iterRecordsWith loads body file speed fun speed previous t => Method.lift (pause speed previous t) := by
  refine bind_congr fun speed => ?_
  exact congrArg (fun lines : Method PyError σ Unit => lines >>= fun _ => _) (iterLines_eq_with speed 1 none file.lines)

/-- Once every line decodes, only the rows matter. -/
theorem iterLinesWith_rows {n : Nat} {lines : List String} {rows : List TelemetryRow}
    (h : Decodes (decodeRow loads) n lines rows) (previousTime : Option Timestamp) :
    iterLinesWith loads sleepBefore body n previousTime lines = iterRowsWith sleepBefore body previousTime rows := by
  induction lines generalizing n rows previousTime with
  | nil =>
    obtain rfl : rows = [] := h
    rfl
  | cons line lines ih =>
    rw [Decodes] at h
    rw [iterLinesWith]
    by_cases hblank : isBlank line = true
    · rw [if_pos hblank] at h ⊢
      exact ih h previousTime
    · rw [if_neg hblank] at h ⊢
      obtain ⟨row, rows', rfl, hrow, hrest⟩ := h
      rw [hrow, iterRowsWith]
      funext s
      rw [Method.bind_ok (Method.lift_apply _ s), ih hrest]

end

/-! ### Exact arithmetic -/

/-- The largest finite double. -/
def largestDouble : Float64 := ⟨0x7FEFFFFFFFFFFFFF#64⟩

/-- A quotient: infinite above the largest double. -/
inductive ExactDelay where
  | finite (seconds : ℚ)
  | infinite

/-- `max(0.0, record.received_at - previous_time) / normalized_speed` -/
def exactDelay (speed : Speed) (previousTime receivedAt : Timestamp) : ExactDelay :=
  let quotient := max 0 (receivedAt.1.toRat - previousTime.1.toRat) / speed.1.toRat
  if quotient ≤ largestDouble.toRat then .finite quotient else .infinite

/-- Non-negative, finite and below `2 ^ 63` nanoseconds. -/
def ExactDelay.Representable : ExactDelay → Prop
  | .finite seconds => 0 ≤ seconds ∧ seconds * 10 ^ 9 < 2 ^ 63
  | .infinite => False

/-- `time.sleep` of an exact delay. -/
def exactSleep : ExactDelay → Result Unit
  | .infinite => .error (overflowError "timestamp too large to convert to C PyTime_t")
  | .finite seconds =>
    if seconds < 0 then .error (valueError "sleep length must be non-negative")
    else if seconds * 10 ^ 9 < 2 ^ 63 then .ok ()
    else .error (overflowError "timestamp too large to convert to C PyTime_t")

theorem exactSleep_eq_ok {delay : ExactDelay} : exactSleep delay = .ok () ↔ delay.Representable := by
  rcases delay with seconds | _
  · rw [exactSleep, ExactDelay.Representable]
    constructor
    · intro h
      split_ifs at h with hneg hfits
      exact ⟨not_lt.mp hneg, hfits⟩
    · rintro ⟨hneg, hfits⟩
      rw [if_neg (not_lt.mpr hneg), if_pos hfits]
  · exact ⟨fun h => (nomatch h), fun h => h.elim⟩

theorem toRat_speed_pos (speed : Speed) : 0 < speed.1.toRat := by
  rw [← Float64.toRat_zero, ← not_le, ← Float64.le_iff_toRat speed.2.1 Float64.isFinite_zero, speed.2.2]
  exact Bool.false_ne_true

/-- A delay is representable when the two times are less than `2 ^ 63` nanoseconds apart at that speed. -/
theorem representable_exactDelay {speed : Speed} {previousTime receivedAt : Timestamp} :
    (exactDelay speed previousTime receivedAt).Representable ↔
      (receivedAt.1.toRat - previousTime.1.toRat) * 10 ^ 9 < 2 ^ 63 * speed.1.toRat := by
  have hspeed := toRat_speed_pos speed
  have hlimit : (2 : ℚ) ^ 63 ≤ largestDouble.toRat * 10 ^ 9 := by decide +kernel
  rw [exactDelay]
  generalize receivedAt.1.toRat - previousTime.1.toRat = elapsed
  have hquotient : max 0 elapsed / speed.1.toRat * 10 ^ 9 < 2 ^ 63 ↔ elapsed * 10 ^ 9 < 2 ^ 63 * speed.1.toRat := by
    rw [div_mul_eq_mul_div, div_lt_iff₀ hspeed, max_mul_of_nonneg _ _ (by norm_num), max_lt_iff, zero_mul]
    exact and_iff_right (by positivity)
  have hnonneg : 0 ≤ max 0 elapsed / speed.1.toRat := div_nonneg (le_max_left _ _) hspeed.le
  by_cases hle : max 0 elapsed / speed.1.toRat ≤ largestDouble.toRat
  · rw [if_pos hle, ExactDelay.Representable, hquotient]
    exact and_iff_right hnonneg
  · rw [if_neg hle, ← hquotient]
    refine ⟨fun h => h.elim, fun h => absurd h ?_⟩
    -- an infinite quotient is far above the limit
    have habove := mul_le_mul_of_nonneg_right (not_le.mp hle).le (by norm_num : (0 : ℚ) ≤ 10 ^ 9)
    exact not_lt.mpr (hlimit.trans habove)

/-! ### The replay -/

/-- What a replay has passed to `time.sleep` and what it has yielded. -/
structure Replayed where
  slept : List ExactDelay
  packets : List Bytes

/-- The call of `time.sleep` before a record. -/
def sleepExactly (speed : Speed) : Option Timestamp → Timestamp → Method PyError Replayed Unit
  | none, _ => pure ()
  | some previousTime, receivedAt => do
    let delay := exactDelay speed previousTime receivedAt
    Method.modify fun r => { r with slept := r.slept ++ [delay] }
    Method.lift (exactSleep delay)

theorem sleepExactly_some (speed : Speed) (previousTime receivedAt : Timestamp) (r : Replayed) :
    sleepExactly speed (some previousTime) receivedAt r = (exactSleep (exactDelay speed previousTime receivedAt),
      { r with slept := r.slept ++ [exactDelay speed previousTime receivedAt] }) := rfl

/-- `yield record.packet` -/
def yieldPacket (raw : Bytes) : Method PyError Replayed Unit :=
  Method.modify fun r => { r with packets := r.packets ++ [raw] }

/-- `iter_records(path, speed)` in exact arithmetic, run to its end. -/
def replayExactly (loads : String → Option Json) (file : TextFile) (speed : Json) : Method PyError Replayed Unit :=
  iterRecordsWith loads yieldPacket file speed sleepExactly

/-- The delays between consecutive times. -/
def exactDelays (speed : Speed) (times : List Timestamp) : List ExactDelay :=
  (adjacent times).map fun pair => exactDelay speed pair.1 pair.2

/-- After a sleep that did not raise, the packet is yielded and the replay goes on. -/
theorem iterRowsWith_cons_ok {speed : Speed} {previousTime : Option Timestamp} {row : TelemetryRow} {rows : List TelemetryRow}
    {r r₁ : Replayed} (h : sleepExactly speed previousTime row.receivedAt r = (.ok (), r₁)) :
    iterRowsWith (sleepExactly speed) yieldPacket previousTime (row :: rows) r =
      iterRowsWith (sleepExactly speed) yieldPacket (some row.receivedAt) rows
        { r₁ with packets := r₁.packets ++ [row.packet] } := by
  rw [iterRowsWith, Method.bind_ok h]
  rfl

/-- A replay of rows ends without an exception when all its delays are representable, and then has slept
all of them and yielded all packets. -/
theorem iterRowsWith_eq_ok {speed : Speed} {previousTime : Option Timestamp} {rows : List TelemetryRow} {r r' : Replayed} :
    iterRowsWith (sleepExactly speed) yieldPacket previousTime rows r = (.ok (), r') ↔
      (∀ delay ∈ exactDelays speed (previousTime.toList ++ rows.map fun row => row.receivedAt), delay.Representable) ∧
        r' = ⟨r.slept ++ exactDelays speed (previousTime.toList ++ rows.map fun row => row.receivedAt),
          r.packets ++ rows.map fun row => row.packet⟩ := by
  induction rows generalizing previousTime r with
  | nil =>
    have hnone : exactDelays speed (previousTime.toList ++ []) = [] := by rcases previousTime with _ | t <;> rfl
    rw [List.map_nil, hnone, iterRowsWith, List.map_nil, List.append_nil, List.append_nil]
    simp [Prod.ext_iff, eq_comm]
  | cons row rows ih =>
    rcases previousTime with _ | previousTime
    · have hslept : sleepExactly speed none row.receivedAt r = (.ok (), r) := rfl
      rw [iterRowsWith_cons_ok hslept, ih, List.map_cons, List.map_cons, List.append_assoc]
      rfl
    · have hdelays : exactDelays speed ((some previousTime).toList ++ (row :: rows).map fun row => row.receivedAt) =
          exactDelay speed previousTime row.receivedAt ::
            exactDelays speed ((some row.receivedAt).toList ++ rows.map fun row => row.receivedAt) := rfl
      rw [hdelays, List.forall_mem_cons, ← exactSleep_eq_ok, List.map_cons]
      rcases hsleep : exactSleep (exactDelay speed previousTime row.receivedAt) with exc | _
      · have hrun : iterRowsWith (sleepExactly speed) yieldPacket (some previousTime) (row :: rows) r =
            (.error exc, { r with slept := r.slept ++ [exactDelay speed previousTime row.receivedAt] }) := by
          rw [iterRowsWith]
          exact Method.bind_error (by rw [sleepExactly_some, hsleep])
        rw [hrun]
        simp
      · have hslept : sleepExactly speed (some previousTime) row.receivedAt r =
            (.ok (), { r with slept := r.slept ++ [exactDelay speed previousTime row.receivedAt] }) := by
          rw [sleepExactly_some, hsleep]
        rw [iterRowsWith_cons_ok hslept, ih, List.append_assoc, List.append_assoc]
        exact (and_congr_left' (and_iff_right rfl)).symm

/-- The replay of a recording whose lines all decode goes through its rows. -/
theorem replayExactly_rows {loads : String → Option Json} {file : TextFile} {speed : Json} {normalizedSpeed : Speed}
    {rows : List TelemetryRow} (hread : file.undecodable = none) (hrows : Decodes (decodeRow loads) 1 file.lines rows)
    (hspeed : requireSpeed speed = .ok normalizedSpeed) (r : Replayed) :
    replayExactly loads file speed r = iterRowsWith (sleepExactly normalizedSpeed) yieldPacket none rows r := by
  rw [replayExactly, iterRecordsWith, hspeed, Method.bind_ok (Method.lift_apply _ _), iterLinesWith_rows hrows, hread]
  exact congrFun (bind_pure _) _

/-- The replay of an accepted recording at an accepted speed yields all its packets after representable delays
exactly when its consecutive times are less than `2 ^ 63` nanoseconds apart at that speed. -/
theorem replayExactly_completes_iff {loads : String → Option Json} {file : TextFile} {speed : Json} {normalizedSpeed : Speed}
    {records : List RecordedTelemetryRecord} (hload : loadTelemetryRecords loads file = .ok records)
    (hspeed : requireSpeed speed = .ok normalizedSpeed) :
    (∃ r, replayExactly loads file speed ⟨[], []⟩ = (.ok (), r) ∧
        r.packets = records.map (fun record => record.packet) ∧ ∀ delay ∈ r.slept, delay.Representable) ↔
      ∀ pair ∈ adjacent (records.map fun record => record.receivedAt),
        (pair.2.1.toRat - pair.1.1.toRat) * 10 ^ 9 < 2 ^ 63 * normalizedSpeed.1.toRat := by
  obtain ⟨hread, rows, hrows, rfl⟩ := loadTelemetryRecords_eq_ok.mp hload
  have hpairs : (∀ pair ∈ adjacent (rows.map fun row => row.receivedAt),
      (pair.2.1.toRat - pair.1.1.toRat) * 10 ^ 9 < 2 ^ 63 * normalizedSpeed.1.toRat) ↔
        ∀ delay ∈ exactDelays normalizedSpeed (rows.map fun row => row.receivedAt), delay.Representable := by
    rw [exactDelays, List.forall_mem_map]
    exact forall₂_congr fun pair _ => representable_exactDelay.symm
  rw [replayExactly_rows hread hrows hspeed, map_indexRows fun row => row.receivedAt, map_indexRows fun row => row.packet, hpairs]
  constructor
  · rintro ⟨r, hr, -, -⟩
    exact (iterRowsWith_eq_ok.mp hr).1
  · intro h
    exact ⟨_, iterRowsWith_eq_ok.mpr ⟨h, rfl⟩, rfl, h⟩

/-- A recording of empty datagrams received at these times. -/
def datagramsAt (times : List Timestamp) : List (Timestamp × Bytes) := times.map fun t => (t, [])

def recordedAt (times : List Timestamp) : TextFile := ⟨(datagramsAt times).map fun d => (recordJson d.1 d.2).line, none⟩

theorem readsBack_datagramsAt (times : List Timestamp) :
    ∀ d ∈ datagramsAt times, ReadsBack Json.loads (recordJson d.1 d.2) :=
  fun _ _ => readsBack_recordJson _ _

/-- The double nearest to `1e300`. -/
def hugeTime : Timestamp := ⟨⟨0x7E37E43C8800759C#64⟩, by decide⟩

theorem one_isSpeed : (⟨0x3FF0000000000000#64⟩ : Float64).isFinite = true ∧
    (⟨0x3FF0000000000000#64⟩ : Float64).le .zero = false := by decide

/-- The speed `1`. -/
def normalSpeed : Speed := ⟨⟨0x3FF0000000000000#64⟩, one_isSpeed⟩

theorem requireSpeed_one : requireSpeed (.int 1) = .ok normalSpeed := by
  have hfloat : Float64.ofInt? 1 = some normalSpeed.1 := by decide +kernel
  rw [requireSpeed, hfloat]
  exact dif_pos normalSpeed.2

theorem pause_none (speed : Speed) (t : Timestamp) : pause speed none t = .ok () := rfl

theorem exactDelays_pair (speed : Speed) (t u : Timestamp) : exactDelays speed [t, u] = [exactDelay speed t u] := rfl

/-- With doubles, too, a sleep that raises ends the replay. -/
theorem replayEach_pair {speed : Speed} {t u : Timestamp} {raw raw' : Bytes} {exc : PyError}
    (h : pause speed (some t) u = .error exc) :
    replayEach speed (fun raw => Method.modify fun packets => packets ++ [raw]) none [(t, raw), (u, raw')] [] =
      (.error exc, [raw]) := by
  refine (Method.bind_ok (Method.lift_eq (pause_none speed t) _)).trans ?_
  refine (Method.bind_ok (Method.modify_apply _ _)).trans ?_
  exact Method.bind_error (Method.lift_eq h _)

theorem replayExactly_completes_iff_one_second : ∃ r,
    replayExactly Json.loads (recordedAt [zeroTimestamp, oneSecond]) (.int 1) ⟨[], []⟩ = (.ok (), r) ∧
      r.packets = [[], []] ∧ ∀ delay ∈ r.slept, delay.Representable := by
  have hload := loadTelemetryRecords_written (readsBack_datagramsAt [zeroTimestamp, oneSecond])
  refine (replayExactly_completes_iff hload requireSpeed_one).mpr ?_
  rw [map_indexRows fun row => row.receivedAt]
  decide +kernel

/-- Two records that are `1e300` seconds apart are accepted, and the replay raises after the first one,
in exact arithmetic and with doubles. -/
theorem replayExactly_hugeGap :
    loadTelemetryRecords Json.loads (recordedAt [zeroTimestamp, hugeTime]) =
      .ok (indexRows (writtenRows 0 (datagramsAt [zeroTimestamp, hugeTime]))) ∧
    requireSpeed (.int 1) = .ok normalSpeed ∧
    (¬ ∃ r, replayExactly Json.loads (recordedAt [zeroTimestamp, hugeTime]) (.int 1) ⟨[], []⟩ =
      (.ok (), r)) ∧
    iterRecords Json.loads (recordedAt [zeroTimestamp, hugeTime]) (.float normalSpeed.1)
        (fun raw => Method.modify fun packets => packets ++ [raw]) [] =
      (.error (overflowError "timestamp too large to convert to C PyTime_t"), [[]]) := by
  have hreads := readsBack_datagramsAt [zeroTimestamp, hugeTime]
  have hload := loadTelemetryRecords_written hreads
  refine ⟨hload, requireSpeed_one, ?_, ?_⟩
  · rintro ⟨r, hr⟩
    rw [replayExactly_rows rfl (decodes_written hreads 0) requireSpeed_one] at hr
    have htimes : (none : Option Timestamp).toList ++ (writtenRows 0 (datagramsAt [zeroTimestamp, hugeTime])).map
        (fun row => row.receivedAt) = [zeroTimestamp, hugeTime] := rfl
    have hdelays := (iterRowsWith_eq_ok.mp hr).1
    rw [htimes, exactDelays_pair, List.forall_mem_singleton, representable_exactDelay] at hdelays
    have hfar : ¬(hugeTime.1.toRat - zeroTimestamp.1.toRat) * 10 ^ 9 < 2 ^ 63 * normalSpeed.1.toRat := by decide +kernel
    exact hfar hdelays
  · have hpause : pause normalSpeed (some zeroTimestamp) hugeTime =
        .error (overflowError "timestamp too large to convert to C PyTime_t") := by decide +kernel
    rw [recordedAt, iterRecords_written hreads, datagramsAt]
    exact replayEach_pair hpause

end ReplayDelays

end OrbitOps
