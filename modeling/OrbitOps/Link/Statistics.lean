import OrbitOps.Link.Events

/-!
# Run statistics and the event stream

`LinkEventStream` gives emitted events their index and relative time and counts them. Nothing of
its state changes before its sink has taken the event, so after any calls, successful or not, the
stream's index, time, counters and closed flag are those of the events that the sink recorded
(`Records`), and those events form a readable stream.
-/

namespace OrbitOps.Link
open Py

/-- Counters derived from emitted packet and delivery events. -/
structure LinkStatistics where
  packetsReceived : Nat := 0
  packetsDropped : Nat := 0
  packetsDelayed : Nat := 0
  packetsDuplicated : Nat := 0
  packetsCorrupted : Nat := 0
  packetsReordered : Nat := 0
  deliveriesScheduled : Nat := 0
  deliveriesForwarded : Nat := 0
deriving DecidableEq, Repr

namespace LinkStatistics

def counterNames : List String :=
  ["packets_received", "packets_dropped", "packets_delayed", "packets_duplicated", "packets_corrupted",
    "packets_reordered", "deliveries_scheduled", "deliveries_forwarded"]

/-- The items of `to_dict` in key order. -/
def toItems (s : LinkStatistics) : List (String × Scalar) :=
  [("deliveries_forwarded", .int s.deliveriesForwarded), ("deliveries_scheduled", .int s.deliveriesScheduled),
    ("packets_corrupted", .int s.packetsCorrupted), ("packets_delayed", .int s.packetsDelayed),
    ("packets_dropped", .int s.packetsDropped), ("packets_duplicated", .int s.packetsDuplicated),
    ("packets_received", .int s.packetsReceived), ("packets_reordered", .int s.packetsReordered)]

def toDict (s : LinkStatistics) : Json := scalarObj s.toItems

theorem valid_toItems (s : LinkStatistics) : ∀ kv ∈ s.toItems, ValidItem kv := by
  simp [toItems, ValidItem]

def toAttributes (s : LinkStatistics) : Attributes := .ofItems s.toItems s.valid_toItems

theorem items_toAttributes (s : LinkStatistics) : s.toAttributes.dict.items = s.toItems :=
  Attributes.items_ofItems_of_keys
    ["deliveries_forwarded", "deliveries_scheduled", "packets_corrupted", "packets_delayed", "packets_dropped",
      "packets_duplicated", "packets_received", "packets_reordered"] rfl (by decide)

def requireCounter (values : Attributes) (name : String) : Result Nat :=
  match values.get name with
  | .int n =>
    if n < 0 then .error (valueError ("summary counter " ++ reprText name ++ " must be a non-negative integer"))
    else .ok n.toNat
  | _ => .error (valueError ("summary counter " ++ reprText name ++ " must be a non-negative integer"))

def fromMapping (values : Attributes) : Result LinkStatistics :=
  if hasKeys counterNames values.dict.items then do
    let packetsReceived ← requireCounter values "packets_received"
    let packetsDropped ← requireCounter values "packets_dropped"
    let packetsDelayed ← requireCounter values "packets_delayed"
    let packetsDuplicated ← requireCounter values "packets_duplicated"
    let packetsCorrupted ← requireCounter values "packets_corrupted"
    let packetsReordered ← requireCounter values "packets_reordered"
    let deliveriesScheduled ← requireCounter values "deliveries_scheduled"
    let deliveriesForwarded ← requireCounter values "deliveries_forwarded"
    return { packetsReceived, packetsDropped, packetsDelayed, packetsDuplicated, packetsCorrupted, packetsReordered,
             deliveriesScheduled, deliveriesForwarded }
  else .error (valueError "run_summary statistics have invalid keys")

/-- The counters after one more event of a type; metadata and summary are not counted. -/
def count (s : LinkStatistics) : LinkEventType → LinkStatistics
  | .PACKET_RECEIVED => { s with packetsReceived := s.packetsReceived + 1 }
  | .PACKET_DROPPED => { s with packetsDropped := s.packetsDropped + 1 }
  | .PACKET_DELAYED => { s with packetsDelayed := s.packetsDelayed + 1 }
  | .PACKET_DUPLICATED => { s with packetsDuplicated := s.packetsDuplicated + 1 }
  | .PACKET_CORRUPTED => { s with packetsCorrupted := s.packetsCorrupted + 1 }
  | .PACKET_REORDERED => { s with packetsReordered := s.packetsReordered + 1 }
  | .DELIVERY_SCHEDULED => { s with deliveriesScheduled := s.deliveriesScheduled + 1 }
  | .PACKET_FORWARDED => { s with deliveriesForwarded := s.deliveriesForwarded + 1 }
  | .RUN_METADATA | .RUN_SUMMARY => s

theorem requireCounter_of_get {values : Attributes} {name : String} {n : Nat} (h : values.get name = .int n) :
    requireCounter values name = .ok n := by
  simp [requireCounter, h]

@[simp] theorem fromMapping_toAttributes (s : LinkStatistics) : fromMapping s.toAttributes = .ok s := by
  have hkeys : hasKeys counterNames s.toItems = true := rfl
  have hget (name : String) (n : Nat) (h : (lookupKey s.toItems name).getD .none = .int n) :
      requireCounter s.toAttributes name = .ok n :=
    requireCounter_of_get (by rw [Attributes.get, Dict.get?, items_toAttributes, h])
  rw [fromMapping, items_toAttributes, if_pos hkeys, hget "packets_received" s.packetsReceived rfl,
    hget "packets_dropped" s.packetsDropped rfl, hget "packets_delayed" s.packetsDelayed rfl,
    hget "packets_duplicated" s.packetsDuplicated rfl, hget "packets_corrupted" s.packetsCorrupted rfl,
    hget "packets_reordered" s.packetsReordered rfl, hget "deliveries_scheduled" s.deliveriesScheduled rfl,
    hget "deliveries_forwarded" s.deliveriesForwarded rfl]
  rfl

end LinkStatistics

def statisticsFromEvents (events : List LinkEvent) : LinkStatistics :=
  events.foldl (fun s e => s.count e.eventType) {}

theorem statisticsFromEvents_snoc (events : List LinkEvent) (e : LinkEvent) :
    statisticsFromEvents (events ++ [e]) = (statisticsFromEvents events).count e.eventType := by
  simp [statisticsFromEvents]

/-- How many events have a type. -/
def typeCount (t : LinkEventType) (events : List LinkEvent) : Nat := events.countP fun e => e.eventType = t

/-- The counters are the numbers of events of each counted type. -/
theorem statisticsFromEvents_eq (events : List LinkEvent) : statisticsFromEvents events = {
    packetsReceived := typeCount .PACKET_RECEIVED events
    packetsDropped := typeCount .PACKET_DROPPED events
    packetsDelayed := typeCount .PACKET_DELAYED events
    packetsDuplicated := typeCount .PACKET_DUPLICATED events
    packetsCorrupted := typeCount .PACKET_CORRUPTED events
    packetsReordered := typeCount .PACKET_REORDERED events
    deliveriesScheduled := typeCount .DELIVERY_SCHEDULED events
    deliveriesForwarded := typeCount .PACKET_FORWARDED events } := by
  induction events using List.reverseRecOn with
  | nil => rfl
  | append_singleton events e ih =>
    rw [statisticsFromEvents_snoc, ih]
    simp only [typeCount, List.countP_append, List.countP_singleton]
    cases e.eventType <;> rfl

/-- `_stream_metadata`: the leading metadata of a version 2 stream. -/
def streamMetadata : List LinkEvent → Result (Option LinkRunMetadata)
  | [] => .error (valueError "event stream is empty")
  | first :: rest =>
    let metadataEvents := (first :: rest).filter fun e => e.eventType = .RUN_METADATA
    if rest.any fun e => e.schemaVersion ≠ first.schemaVersion then
      .error (valueError "event stream changed schema_version")
    else if first.schemaVersion = 1 then
      if metadataEvents ≠ [] then
        .error (valueError "schema version 1 streams may not contain run_metadata")
      else .ok none
    -- the only metadata event is the first event
    else if metadataEvents.length ≠ 1 ∨ first.eventType ≠ .RUN_METADATA then
      .error (valueError "schema version 2 streams require one leading run_metadata event")
    else (LinkRunMetadata.fromAttributes first.attributes.toJson).map some

def runMetadataFromEvents (events : List LinkEvent) : Result (Option LinkRunMetadata) := streamMetadata events

def validateRunSummary (events : List LinkEvent) : Result LinkStatistics :=
  match events.getLast? with
  | none => .error (valueError "complete event stream must end with run_summary")
  | some last =>
    if last.eventType ≠ .RUN_SUMMARY then
      .error (valueError "complete event stream must end with run_summary")
    else if events.dropLast.any fun e => e.eventType = .RUN_SUMMARY then
      .error (valueError "run_summary may appear only once")
    else do
      let _ ← streamMetadata events
      let calculated := statisticsFromEvents events.dropLast
      let recorded ← LinkStatistics.fromMapping last.attributes
      if calculated ≠ recorded then
        .error (valueError "run_summary counters do not match emitted events")
      else return calculated

theorem catchable_validateRunSummary (events : List LinkEvent) : Catchable (validateRunSummary events) := by
  have hmetadata (events : List LinkEvent) : Catchable (streamMetadata events) := by
    cases events with
    | nil => simp [streamMetadata]
    | cons first rest =>
      unfold streamMetadata
      dsimp only
      split_ifs
      · simp
      · simp
      · simp
      · simp
      · exact (LinkRunMetadata.catchable_fromAttributes _).map _
  have hcounter (a : Attributes) (name : String) : Catchable (LinkStatistics.requireCounter a name) := by
    unfold LinkStatistics.requireCounter
    split
    · split_ifs <;> simp
    · simp
  have hmapping (a : Attributes) : Catchable (LinkStatistics.fromMapping a) := by
    unfold LinkStatistics.fromMapping
    split_ifs
    · exact (hcounter _ _).bind fun _ => (hcounter _ _).bind fun _ => (hcounter _ _).bind fun _ =>
        (hcounter _ _).bind fun _ => (hcounter _ _).bind fun _ => (hcounter _ _).bind fun _ =>
          (hcounter _ _).bind fun _ => (hcounter _ _).bind fun _ => catchable_ok _
    · simp
  unfold validateRunSummary
  split
  · simp
  · split_ifs
    · simp
    · simp
    · refine (hmetadata _).bind fun _ => (hmapping _).bind fun _ => ?_
      split_ifs <;> simp

theorem LinkStatistics.get_of_requireCounter {values : Attributes} {name : String} {n : Nat}
    (h : requireCounter values name = .ok n) : values.get name = .int n := by
  unfold requireCounter at h
  split at h
  · rename_i k hk
    split_ifs at h with hneg
    cases h
    rw [hk, Int.toNat_of_nonneg (not_lt.mp hneg)]
  · cases h

theorem LinkStatistics.get_of_fromMapping {values : Attributes} {s : LinkStatistics} (h : fromMapping values = .ok s) :
    ∀ kv ∈ s.toItems, values.get kv.1 = kv.2 := by
  unfold fromMapping at h
  split_ifs at h
  obtain ⟨_, h1, h⟩ := except_bind_eq_ok.mp h
  obtain ⟨_, h2, h⟩ := except_bind_eq_ok.mp h
  obtain ⟨_, h3, h⟩ := except_bind_eq_ok.mp h
  obtain ⟨_, h4, h⟩ := except_bind_eq_ok.mp h
  obtain ⟨_, h5, h⟩ := except_bind_eq_ok.mp h
  obtain ⟨_, h6, h⟩ := except_bind_eq_ok.mp h
  obtain ⟨_, h7, h⟩ := except_bind_eq_ok.mp h
  obtain ⟨_, h8, h⟩ := except_bind_eq_ok.mp h
  cases h
  simp only [toItems, List.forall_mem_cons, List.not_mem_nil, false_imp_iff, implies_true, and_true]
  exact ⟨get_of_requireCounter h8, get_of_requireCounter h7, get_of_requireCounter h5, get_of_requireCounter h3,
    get_of_requireCounter h2, get_of_requireCounter h4, get_of_requireCounter h1, get_of_requireCounter h6⟩

/-- An accepted summary ends the events and records their counters. -/
theorem validateRunSummary_eq_ok_imp {events : List LinkEvent} {s : LinkStatistics} (h : validateRunSummary events = .ok s) :
    ∃ init last, events = init ++ [last] ∧ last.eventType = .RUN_SUMMARY ∧ s = statisticsFromEvents events ∧
      ∀ kv ∈ s.toItems, last.attributes.get kv.1 = kv.2 := by
  rcases List.eq_nil_or_concat events with rfl | ⟨init, last, rfl⟩
  · cases h
  · rw [List.concat_eq_append] at h ⊢
    rw [validateRunSummary, List.getLast?_concat, List.dropLast_concat] at h
    dsimp only at h
    split_ifs at h with ht hother
    obtain ⟨-, -, h⟩ := except_bind_eq_ok.mp h
    obtain ⟨recorded, hrecorded, h⟩ := except_bind_eq_ok.mp h
    split_ifs at h with hne
    cases h
    refine ⟨init, last, rfl, not_not.mp ht, ?_, ?_⟩
    · rw [statisticsFromEvents_snoc, not_not.mp ht]
      rfl
    · rw [not_not.mp hne]
      exact LinkStatistics.get_of_fromMapping hrecorded

/-- The metadata of a stream that the loader accepts is readable. -/
theorem streamMetadata_of_grows {first : LinkEvent} {rest : List LinkEvent}
    (h : Grows LinkEvent.Next [] (first :: rest)) : ∃ m, streamMetadata (first :: rest) = .ok m := by
  have hnext {pre suf : List LinkEvent} {e : LinkEvent} (hes : first :: rest = pre ++ e :: suf) :
      LinkEvent.Next pre e := by
    have := h.next_of_eq_append hes
    rwa [List.nil_append] at this
  have hfirst : LinkEvent.Next [] first := hnext (show first :: rest = [] ++ first :: rest from rfl)
  -- every later event has the first one's version and is no metadata
  have hrest : ∀ e ∈ rest, e.schemaVersion = first.schemaVersion ∧ e.eventType ≠ .RUN_METADATA := by
    intro e he
    obtain ⟨pre, suf, rfl⟩ := List.append_of_mem he
    have hn : LinkEvent.Next (first :: pre) e := hnext (show first :: (pre ++ e :: suf) = (first :: pre) ++ e :: suf from rfl)
    refine ⟨(hn.schema first rfl).symm, fun ht => ?_⟩
    have hv : e.schemaVersion = 2 := (e.metadata_shape ht).1
    exact absurd ((hn.header hv).mpr ht) (by simp)
  have hversions : ¬(rest.any fun e => e.schemaVersion ≠ first.schemaVersion) = true := by
    simp only [List.any_eq_true, decide_eq_true_eq, not_exists, not_and]
    exact fun e he hne => hne (hrest e he).1
  have hfilter : rest.filter (fun e => e.eventType = .RUN_METADATA) = [] := by
    simp only [List.filter_eq_nil_iff, decide_eq_true_eq]
    exact fun e he => (hrest e he).2
  rw [streamMetadata, if_neg hversions]
  by_cases hv : first.schemaVersion = 1
  · have hne : first.eventType ≠ .RUN_METADATA := fun ht => by
      have := (first.metadata_shape ht).1
      omega
    rw [if_pos hv, if_neg (by simp [hne, hfilter])]
    exact ⟨none, rfl⟩
  · have hv2 : first.schemaVersion = 2 := first.schema_supported.resolve_left hv
    have ht : first.eventType = .RUN_METADATA := (hfirst.header hv2).mp rfl
    obtain ⟨-, -, m, hm⟩ := first.metadata_shape ht
    rw [if_neg hv, if_neg (by simp [ht, hfilter]), hm, LinkRunMetadata.fromAttributes_toAttributes]
    exact ⟨some m, rfl⟩

/-! ### The event stream -/

/-- An event sink with state `σ`: each call either records the event or raises without recording it. -/
structure EventSink (σ : Type) where
  call : LinkEvent → Method PyError σ Unit
  recorded : σ → List LinkEvent
  accepts : ∀ e s s', call e s = (.ok (), s') → recorded s' = recorded s ++ [e]
  rejects : ∀ e s err s', call e s = (.error err, s') → recorded s' = recorded s

/-- The events that a sink recorded after its first `k`. -/
def EventSink.since {σ : Type} (S : EventSink σ) (k : Nat) (s : σ) : List LinkEvent := (S.recorded s).drop k

/-- Stable indices, relative times and statistics of one run's events. -/
structure LinkEventStream (σ : Type) where
  sessionId : String
  startNs : Int
  eventIndex : Nat
  lastElapsedNs : Int
  statistics : LinkStatistics
  closed : Bool
  sink : σ

namespace LinkEventStream
variable {σ : Type}

/-- `LinkEventStream(session_id, start_ns, sink)`. -/
def new (sessionId : String) (startNs : Json) (sink : σ) : Result (LinkEventStream σ) :=
  if isBlank sessionId then .error (valueError "session_id must be a non-empty string")
  else
    match startNs with
    | .int start =>
      if start < 0 then .error (valueError "start_ns must be non-negative")
      else .ok ⟨sessionId, start, 0, 0, {}, false, sink⟩
    | _ => .error (typeError "start_ns must be an integer")

/-- `{} if attributes is None else attributes`. -/
def orEmpty (attributes : Json) : Json := if attributes.isNull then .obj [] else attributes

variable (S : EventSink σ)

/-- `_emit` once the clock argument is an integer. -/
def emitAt (eventType : LinkEventType) (now : Int) (packetIndex attributes : Json) :
    Method PyError (LinkEventStream σ) LinkEvent := do
  let self ← Method.get
  let elapsedNs := now - self.startNs
  if elapsedNs < self.lastElapsedNs then Method.raise (valueError "event clock moved backwards")
  else do
    let event ← Method.lift (LinkEvent.new self.sessionId (.int self.eventIndex) (.int elapsedNs) eventType packetIndex
      (orEmpty attributes) (.int LINK_EVENT_SCHEMA_VERSION))
    Method.zoom LinkEventStream.sink (fun t s => { s with sink := t }) (S.call event)
    Method.modify fun s => { s with statistics := s.statistics.count eventType }
    Method.modify fun s => { s with eventIndex := s.eventIndex + 1 }
    Method.modify fun s => { s with lastElapsedNs := elapsedNs }
    return event

def emitEvent (eventType : LinkEventType) (nowNs packetIndex attributes : Json) :
    Method PyError (LinkEventStream σ) LinkEvent :=
  match nowNs with
  | .int now => emitAt S eventType now packetIndex attributes
  | _ => Method.raise (typeError "now_ns must be an integer")

def emitRunMetadata (metadata : LinkRunMetadata) (nowNs : Json) : Method PyError (LinkEventStream σ) LinkEvent := do
  let self ← Method.get
  if self.closed then Method.raise (runtimeError "event stream is closed")
  else if self.eventIndex ≠ 0 then Method.raise (runtimeError "run_metadata must be the first event")
  else emitEvent S .RUN_METADATA nowNs .null metadata.toAttributes.toJson

def emit (eventType : LinkEventType) (nowNs packetIndex attributes : Json) :
    Method PyError (LinkEventStream σ) LinkEvent := do
  let self ← Method.get
  if self.closed then Method.raise (runtimeError "event stream is closed")
  else if self.eventIndex = 0 then
    Method.raise (runtimeError "emit_run_metadata must be called before packet events")
  else if eventType = .RUN_METADATA then
    Method.raise (valueError "use emit_run_metadata for the first event")
  else if eventType = .RUN_SUMMARY then
    Method.raise (valueError "use emit_summary to close an event stream")
  else emitEvent S eventType nowNs packetIndex attributes

def emitSummary (nowNs : Json) : Method PyError (LinkEventStream σ) LinkEvent := do
  let self ← Method.get
  if self.closed then Method.raise (runtimeError "event stream is closed")
  else if self.eventIndex = 0 then
    Method.raise (runtimeError "emit_run_metadata must be called before run_summary")
  else do
    let event ← emitEvent S .RUN_SUMMARY nowNs .null self.statistics.toDict
    Method.modify fun s => { s with closed := true }
    return event

/-! ### One call -/

variable {S} {k : Nat}

/-- The fields that a raising call leaves as they were. -/
structure Unchanged (s s' : LinkEventStream σ) : Prop where
  sessionId : s'.sessionId = s.sessionId
  startNs : s'.startNs = s.startNs
  eventIndex : s'.eventIndex = s.eventIndex
  lastElapsedNs : s'.lastElapsedNs = s.lastElapsedNs
  statistics : s'.statistics = s.statistics
  closed : s'.closed = s.closed

theorem Unchanged.refl (s : LinkEventStream σ) : Unchanged s s := ⟨rfl, rfl, rfl, rfl, rfl, rfl⟩

/-- What a successful `_emit` does: the sink has the event, and the stream has moved past it. -/
structure Emitted (S : EventSink σ) (eventType : LinkEventType) (packetIndex attributes : Json)
    (s s' : LinkEventStream σ) (e : LinkEvent) (now : Int) : Prop where
  elapsed_ge : s.lastElapsedNs ≤ now - s.startNs
  built : LinkEvent.new s.sessionId (.int s.eventIndex) (.int (now - s.startNs)) eventType packetIndex
    (orEmpty attributes) (.int LINK_EVENT_SCHEMA_VERSION) = .ok e
  taken : S.call e s.sink = (.ok (), s'.sink)
  state : s' = { s with
    statistics := s.statistics.count eventType
    eventIndex := s.eventIndex + 1
    lastElapsedNs := now - s.startNs
    sink := s'.sink }

theorem emitAt_cases (eventType : LinkEventType) (now : Int) (packetIndex attributes : Json)
    (s : LinkEventStream σ) :
    (∃ err s', emitAt S eventType now packetIndex attributes s = (.error err, s') ∧ Unchanged s s' ∧
      S.recorded s'.sink = S.recorded s.sink) ∨
    ∃ e s', emitAt S eventType now packetIndex attributes s = (.ok e, s') ∧
      Emitted S eventType packetIndex attributes s s' e now := by
  rw [emitAt, Method.bind_ok (Method.get_apply s)]
  split_ifs with hback
  · exact .inl ⟨_, s, rfl, .refl s, rfl⟩
  · cases hnew : LinkEvent.new s.sessionId (.int s.eventIndex) (.int (now - s.startNs)) eventType packetIndex
        (orEmpty attributes) (.int LINK_EVENT_SCHEMA_VERSION) with
    | error err =>
      rw [Method.bind_error (Method.lift_apply _ s)]
      exact .inl ⟨err, s, rfl, .refl s, rfl⟩
    | ok e =>
      rw [Method.bind_ok (Method.lift_apply _ s)]
      rcases hcall : S.call e s.sink with ⟨err | ⟨⟩, t⟩
      · rw [Method.bind_error (Method.zoom_eq hcall)]
        exact .inl ⟨err, _, rfl, ⟨rfl, rfl, rfl, rfl, rfl, rfl⟩, S.rejects e s.sink err t hcall⟩
      · rw [Method.bind_ok (Method.zoom_eq hcall)]
        exact .inr ⟨e, _, rfl, not_lt.mp hback, hnew, hcall, rfl⟩

theorem emitEvent_cases (eventType : LinkEventType) (nowNs packetIndex attributes : Json) (s : LinkEventStream σ) :
    (∃ err s', emitEvent S eventType nowNs packetIndex attributes s = (.error err, s') ∧ Unchanged s s' ∧
      S.recorded s'.sink = S.recorded s.sink) ∨
    ∃ e s' now, nowNs = .int now ∧ emitEvent S eventType nowNs packetIndex attributes s = (.ok e, s') ∧
      Emitted S eventType packetIndex attributes s s' e now := by
  cases nowNs with
  | int now =>
    rcases emitAt_cases (S := S) eventType now packetIndex attributes s with h | ⟨e, s', he, hem⟩
    · exact .inl h
    · exact .inr ⟨e, s', now, rfl, he, hem⟩
  | _ => exact .inl ⟨_, s, rfl, .refl s, rfl⟩

theorem emitRunMetadata_cases (m : LinkRunMetadata) (nowNs : Json) (s : LinkEventStream σ) :
    (∃ err s', emitRunMetadata S m nowNs s = (.error err, s') ∧ Unchanged s s' ∧
      S.recorded s'.sink = S.recorded s.sink) ∨
    ∃ e s' now, nowNs = .int now ∧ emitRunMetadata S m nowNs s = (.ok e, s') ∧ s.closed = false ∧ s.eventIndex = 0 ∧
      Emitted S .RUN_METADATA .null m.toAttributes.toJson s s' e now := by
  rw [emitRunMetadata, Method.bind_ok (Method.get_apply s)]
  split_ifs with hclosed hidx
  · exact .inl ⟨_, s, rfl, .refl s, rfl⟩
  · exact .inl ⟨_, s, rfl, .refl s, rfl⟩
  · rcases emitEvent_cases (S := S) .RUN_METADATA nowNs .null m.toAttributes.toJson s with h | ⟨e, s', now, hnow, he, hem⟩
    · exact .inl h
    · exact .inr ⟨e, s', now, hnow, he, by simpa using hclosed, not_not.mp hidx, hem⟩

theorem emit_cases (eventType : LinkEventType) (nowNs packetIndex attributes : Json) (s : LinkEventStream σ) :
    (∃ err s', emit S eventType nowNs packetIndex attributes s = (.error err, s') ∧ Unchanged s s' ∧
      S.recorded s'.sink = S.recorded s.sink) ∨
    ∃ e s' now, nowNs = .int now ∧ emit S eventType nowNs packetIndex attributes s = (.ok e, s') ∧
      s.closed = false ∧ s.eventIndex ≠ 0 ∧ eventType ≠ .RUN_METADATA ∧ eventType ≠ .RUN_SUMMARY ∧
      Emitted S eventType packetIndex attributes s s' e now := by
  rw [emit, Method.bind_ok (Method.get_apply s)]
  split_ifs with hclosed hidx hmeta hsum
  · exact .inl ⟨_, s, rfl, .refl s, rfl⟩
  · exact .inl ⟨_, s, rfl, .refl s, rfl⟩
  · exact .inl ⟨_, s, rfl, .refl s, rfl⟩
  · exact .inl ⟨_, s, rfl, .refl s, rfl⟩
  · rcases emitEvent_cases (S := S) eventType nowNs packetIndex attributes s with h | ⟨e, s', now, hnow, he, hem⟩
    · exact .inl h
    · exact .inr ⟨e, s', now, hnow, he, by simpa using hclosed, hidx, hmeta, hsum, hem⟩

/-- On an open stream a packet event at a later time is built, and then only the sink can raise. -/
theorem emit_built {eventType : LinkEventType} {s : LinkEventStream σ} {now packetIndex : Int}
    {attributes : List (String × Scalar)} (hvisible : isBlank s.sessionId = false) (hopen : s.closed = false)
    (hidx : s.eventIndex ≠ 0) (hmeta : eventType ≠ .RUN_METADATA) (hsum : eventType ≠ .RUN_SUMMARY)
    (hlast : 0 ≤ s.lastElapsedNs) (hnow : s.lastElapsedNs ≤ now - s.startNs) (hp : 0 ≤ packetIndex)
    (ha : ∀ kv ∈ attributes, ValidItem kv) :
    ∃ e, LinkEvent.new s.sessionId (.int s.eventIndex) (.int (now - s.startNs)) eventType (.int packetIndex)
        (orEmpty (scalarObj attributes)) (.int LINK_EVENT_SCHEMA_VERSION) = .ok e ∧
      ∀ err s', emit S eventType (.int now) (.int packetIndex) (scalarObj attributes) s = (.error err, s') →
        S.call e s.sink = (.error err, s'.sink) := by
  obtain ⟨elapsed, helapsed⟩ := Int.eq_ofNat_of_zero_le (hlast.trans hnow)
  obtain ⟨index, rfl⟩ := Int.eq_ofNat_of_zero_le hp
  have hattr : ∃ h, LinkEvent.eventAttributes eventType LINK_EVENT_SCHEMA_VERSION (some index) (scalarObj attributes) =
      .ok ⟨.ofItems attributes ha, h⟩ := by
    rw [LinkEvent.eventAttributes, dif_neg hmeta, validateAttributes_scalarObj ha]
    exact ⟨_, rfl⟩
  obtain ⟨e, hnew, -⟩ := LinkEvent.new_eq_ok s.eventIndex elapsed hvisible (.inr rfl) hattr (fun h => absurd h hsum)
  have he : LinkEvent.new s.sessionId (.int s.eventIndex) (.int elapsed) eventType (.int index)
      (orEmpty (scalarObj attributes)) (.int LINK_EVENT_SCHEMA_VERSION) = .ok e := hnew
  refine ⟨e, by rw [helapsed]; exact he, fun err s' herr => ?_⟩
  rw [emit, Method.bind_ok (Method.get_apply s), if_neg (by simp [hopen]), if_neg hidx, if_neg hmeta, if_neg hsum,
    emitEvent, emitAt, Method.bind_ok (Method.get_apply s), if_neg (not_lt.mpr hnow), helapsed,
    Method.bind_ok (Method.lift_eq he s)] at herr
  rcases hcall : S.call e s.sink with ⟨err' | ⟨⟩, t⟩
  · rw [Method.bind_error (Method.zoom_eq hcall)] at herr
    cases herr
    rfl
  · rw [Method.bind_ok (Method.zoom_eq hcall)] at herr
    cases herr

theorem emitSummary_cases (nowNs : Json) (s : LinkEventStream σ) :
    (∃ err s', emitSummary S nowNs s = (.error err, s') ∧ Unchanged s s' ∧
      S.recorded s'.sink = S.recorded s.sink) ∨
    ∃ e s1 s' now, emitSummary S nowNs s = (.ok e, s') ∧ s.closed = false ∧ s.eventIndex ≠ 0 ∧
      Emitted S .RUN_SUMMARY .null s.statistics.toDict s s1 e now ∧ s' = { s1 with closed := true } := by
  rw [emitSummary, Method.bind_ok (Method.get_apply s)]
  split_ifs with hclosed hidx
  · exact .inl ⟨_, s, rfl, .refl s, rfl⟩
  · exact .inl ⟨_, s, rfl, .refl s, rfl⟩
  · rcases emitEvent_cases (S := S) .RUN_SUMMARY nowNs .null s.statistics.toDict s with
      ⟨err, s', he, hu, hr⟩ | ⟨e, s', now, -, he, hem⟩
    · rw [Method.bind_error he]
      exact .inl ⟨err, s', rfl, hu, hr⟩
    · rw [Method.bind_ok he]
      exact .inr ⟨e, s', _, now, rfl, by simpa using hclosed, hidx, hem, rfl⟩

/-! ### Runs -/

/-- The stream's fields are those of the events that its sink recorded after the first `k`. -/
structure Records (S : EventSink σ) (k : Nat) (s : LinkEventStream σ) : Prop where
  visible : isBlank s.sessionId = false
  before : k ≤ (S.recorded s.sink).length
  index : s.eventIndex = (S.since k s.sink).length
  statistics : s.statistics = statisticsFromEvents (S.since k s.sink)
  elapsed : ∀ e ∈ (S.since k s.sink).getLast?, (e.elapsedNs : Int) = s.lastElapsedNs
  elapsed_nonneg : 0 ≤ s.lastElapsedNs
  header : ∀ e ∈ S.since k s.sink, e.sessionId = s.sessionId ∧ e.schemaVersion = LINK_EVENT_SCHEMA_VERSION
  grows : Grows LinkEvent.Next [] (S.since k s.sink)
  opened : s.closed = false → ∀ e ∈ S.since k s.sink, e.eventType ≠ .RUN_SUMMARY
  closed : s.closed = true → validateRunSummary (S.since k s.sink) = .ok s.statistics

theorem records_new {sessionId : String} {startNs : Json} {sink : σ} {s : LinkEventStream σ}
    (h : new sessionId startNs sink = .ok s) : Records S (S.recorded sink).length s := by
  have h0 : S.since (S.recorded sink).length sink = [] := List.drop_length
  unfold new at h
  split_ifs at h with hs
  cases startNs with
  | int start =>
    simp only at h
    split_ifs at h
    cases h
    exact ⟨by simpa using hs, le_refl _, by simp [h0], by simp [h0, statisticsFromEvents], by simp [h0], le_refl 0,
      by simp [h0], by rw [h0]; trivial, by simp [h0], by simp⟩
  | _ => simp at h

theorem Records.of_unchanged {s s' : LinkEventStream σ} (h : Records S k s) (hu : Unchanged s s')
    (hrec : S.recorded s'.sink = S.recorded s.sink) : Records S k s' := by
  have hr : S.since k s'.sink = S.since k s.sink := by rw [EventSink.since, hrec, EventSink.since]
  refine ⟨?_, ?_, ?_, ?_, ?_, ?_, ?_, ?_, ?_, ?_⟩
  · rw [hu.sessionId]; exact h.visible
  · rw [hrec]; exact h.before
  · rw [hu.eventIndex, hr]; exact h.index
  · rw [hu.statistics, hr]; exact h.statistics
  · rw [hu.lastElapsedNs, hr]; exact h.elapsed
  · rw [hu.lastElapsedNs]; exact h.elapsed_nonneg
  · rw [hu.sessionId, hr]; exact h.header
  · rw [hr]; exact h.grows
  · rw [hu.closed, hr]; exact h.opened
  · rw [hu.closed, hu.statistics, hr]; exact h.closed

/-- The event of a successful `_emit` may follow the recorded ones. -/
theorem Records.next {s s' : LinkEventStream σ} {eventType : LinkEventType} {packetIndex attributes : Json}
    {e : LinkEvent} {now : Int} (h : Records S k s) (hopen : s.closed = false)
    (hem : Emitted S eventType packetIndex attributes s s' e now)
    (htype : s.eventIndex = 0 ↔ eventType = .RUN_METADATA) : LinkEvent.Next (S.since k s.sink) e := by
  obtain ⟨hsid, hidx, hns, ht, -, hver, -⟩ := LinkEvent.fields_of_new hem.built
  have hidx' : e.eventIndex = s.eventIndex := by
    have := Json.int.inj hidx; omega
  have hns' : (e.elapsedNs : Int) = now - s.startNs := (Json.int.inj hns).symm
  have hver' : e.schemaVersion = LINK_EVENT_SCHEMA_VERSION := by
    have := Json.int.inj hver; omega
  refine ⟨by rw [hidx', h.index], ?_, ?_, ?_, h.opened hopen, fun _ => ?_⟩
  · intro f hf
    rw [(h.header f (List.mem_of_mem_head? hf)).1, hsid]
  · intro f hf
    rw [(h.header f (List.mem_of_mem_head? hf)).2, hver']
  · intro f hf
    have := h.elapsed f hf
    have := hem.elapsed_ge
    omega
  · rw [ht, ← htype, h.index, List.length_eq_zero_iff]

theorem Emitted.recorded {s s' : LinkEventStream σ} {eventType : LinkEventType} {packetIndex attributes : Json}
    {e : LinkEvent} {now : Int} (hem : Emitted S eventType packetIndex attributes s s' e now) :
    S.recorded s'.sink = S.recorded s.sink ++ [e] := S.accepts e s.sink s'.sink hem.taken

theorem Emitted.since {s s' : LinkEventStream σ} {eventType : LinkEventType} {packetIndex attributes : Json}
    {e : LinkEvent} {now : Int} (hem : Emitted S eventType packetIndex attributes s s' e now)
    (hk : k ≤ (S.recorded s.sink).length) : S.since k s'.sink = S.since k s.sink ++ [e] := by
  rw [EventSink.since, hem.recorded, List.drop_append_of_le_length hk, EventSink.since]

/-- A successful `_emit` keeps the record, whatever becomes of the closed flag. -/
theorem Records.emitted {s s' : LinkEventStream σ} {eventType : LinkEventType} {packetIndex attributes : Json}
    {e : LinkEvent} {now : Int} (h : Records S k s) (hopen : s.closed = false)
    (hem : Emitted S eventType packetIndex attributes s s' e now)
    (htype : s.eventIndex = 0 ↔ eventType = .RUN_METADATA) (c : Bool)
    (ho : c = false → ∀ f ∈ S.since k s'.sink, f.eventType ≠ .RUN_SUMMARY)
    (hc : c = true → validateRunSummary (S.since k s'.sink) = .ok s'.statistics) :
    Records S k { s' with closed := c } := by
  have hrec := hem.since h.before
  have hnext := h.next hopen hem htype
  obtain ⟨hsid, -, hns, ht, -, hver, -⟩ := LinkEvent.fields_of_new hem.built
  have hsession : s'.sessionId = s.sessionId := by rw [hem.state]
  have hlast : s'.lastElapsedNs = now - s.startNs := by rw [hem.state]
  refine ⟨?_, ?_, ?_, ?_, ?_, ?_, ?_, ?_, ho, hc⟩
  · show isBlank s'.sessionId = false
    rw [hsession]; exact h.visible
  · show k ≤ (S.recorded s'.sink).length
    rw [hem.recorded, List.length_append]
    exact h.before.trans (Nat.le_add_right _ _)
  · show s'.eventIndex = (S.since k s'.sink).length
    rw [hrec, List.length_append, hem.state, h.index]; rfl
  · show s'.statistics = statisticsFromEvents (S.since k s'.sink)
    rw [hrec, statisticsFromEvents_snoc, hem.state, ht, ← h.statistics]
  · show ∀ f ∈ (S.since k s'.sink).getLast?, (f.elapsedNs : Int) = s'.lastElapsedNs
    rw [hrec, List.getLast?_concat, hlast]
    rintro f ⟨⟩
    exact (Json.int.inj hns).symm
  · show 0 ≤ s'.lastElapsedNs
    rw [hlast]
    exact h.elapsed_nonneg.trans hem.elapsed_ge
  · show ∀ f ∈ S.since k s'.sink, f.sessionId = s'.sessionId ∧ f.schemaVersion = LINK_EVENT_SCHEMA_VERSION
    rw [hrec, hsession]
    intro f hf
    rcases List.mem_append.mp hf with hf | hf
    · exact h.header f hf
    · rw [List.mem_singleton.mp hf]
      refine ⟨hsid, ?_⟩
      have := Json.int.inj hver; omega
  · show Grows LinkEvent.Next [] (S.since k s'.sink)
    rw [hrec]; exact h.grows.snoc hnext

/-- An event other than a summary keeps the record. -/
theorem Records.emitted_open {s s' : LinkEventStream σ} {eventType : LinkEventType} {packetIndex attributes : Json}
    {e : LinkEvent} {now : Int} (h : Records S k s) (hopen : s.closed = false)
    (hem : Emitted S eventType packetIndex attributes s s' e now)
    (htype : s.eventIndex = 0 ↔ eventType = .RUN_METADATA) (hsum : eventType ≠ .RUN_SUMMARY) : Records S k s' := by
  have hclosed : s'.closed = false := by rw [hem.state]; exact hopen
  have hr := h.emitted hopen hem htype false (fun _ f hf => ?_) (by simp)
  · rwa [← hclosed] at hr
  · rw [hem.since h.before] at hf
    rcases List.mem_append.mp hf with hf | hf
    · exact h.opened hopen f hf
    · rw [List.mem_singleton.mp hf, (LinkEvent.fields_of_new hem.built).2.2.2.1]
      exact hsum

/-- The summary event carries the counters of the events before it. -/
theorem Records.validateRunSummary_emitted {s s' : LinkEventStream σ} {e : LinkEvent} {now : Int} (h : Records S k s)
    (hopen : s.closed = false) (hidx : s.eventIndex ≠ 0)
    (hem : Emitted S .RUN_SUMMARY .null s.statistics.toDict s s' e now) :
    validateRunSummary (S.since k s'.sink) = .ok s'.statistics := by
  obtain ⟨-, -, -, ht, -, -, hattr⟩ := LinkEvent.fields_of_new hem.built
  have hattrs : e.attributes = s.statistics.toAttributes := by
    have hval : validateAttributes (scalarObj s.statistics.toItems) = .ok e.attributes :=
      LinkEvent.validateAttributes_of_eventAttributes (by decide) hattr
    rw [validateAttributes_scalarObj s.statistics.valid_toItems] at hval
    exact (Except.ok.inj hval).symm
  obtain ⟨m, hm⟩ : ∃ m, streamMetadata (S.since k s.sink ++ [e]) = .ok m := by
    have hg := h.grows.snoc (h.next hopen hem (by simp [hidx]))
    cases hrec : S.since k s.sink with
    | nil => exact absurd (by rw [h.index, hrec]; rfl) hidx
    | cons first rest => rw [hrec] at hg; exact streamMetadata_of_grows hg
  have hnone : ¬((S.since k s.sink).any fun f => f.eventType = .RUN_SUMMARY) = true := by
    simp only [List.any_eq_true, decide_eq_true_eq, not_exists, not_and]
    exact h.opened hopen
  rw [hem.since h.before, validateRunSummary, List.getLast?_concat, List.dropLast_concat]
  simp only [ht, ne_eq, not_true_eq_false, ↓reduceIte, hnone, hm, hattrs, LinkStatistics.fromMapping_toAttributes,
    ← h.statistics, bind, Except.bind]
  rw [hem.state]
  rfl

inductive Call where
  | emitRunMetadata (metadata : LinkRunMetadata) (nowNs : Json)
  | emit (eventType : LinkEventType) (nowNs packetIndex attributes : Json)
  | emitSummary (nowNs : Json)

def Call.apply (S : EventSink σ) : Call → Method PyError (LinkEventStream σ) LinkEvent
  | .emitRunMetadata metadata nowNs => LinkEventStream.emitRunMetadata S metadata nowNs
  | .emit eventType nowNs packetIndex attributes => LinkEventStream.emit S eventType nowNs packetIndex attributes
  | .emitSummary nowNs => LinkEventStream.emitSummary S nowNs

/-- The stream after calls, whether they succeeded or not. -/
def run (S : EventSink σ) (calls : List Call) (s : LinkEventStream σ) : LinkEventStream σ :=
  calls.foldl (fun s c => (c.apply S s).2) s

/-- A call that raises changes none of the stream's own fields and records nothing. -/
theorem Call.apply_error {c : Call} {s s' : LinkEventStream σ} {err : PyError} (h : c.apply S s = (.error err, s')) :
    Unchanged s s' ∧ S.recorded s'.sink = S.recorded s.sink := by
  cases c with
  | emitRunMetadata m now =>
    rcases emitRunMetadata_cases (S := S) m now s with ⟨err', s1, he, hu, hr⟩ | ⟨_, _, _, _, hok, _⟩
    · rw [Call.apply, he] at h; cases h; exact ⟨hu, hr⟩
    · rw [Call.apply, hok] at h; cases h
  | emit t now p a =>
    rcases emit_cases (S := S) t now p a s with ⟨err', s1, he, hu, hr⟩ | ⟨_, _, _, _, hok, _⟩
    · rw [Call.apply, he] at h; cases h; exact ⟨hu, hr⟩
    · rw [Call.apply, hok] at h; cases h
  | emitSummary now =>
    rcases emitSummary_cases (S := S) now s with ⟨err', s1, he, hu, hr⟩ | ⟨_, _, _, _, hok, _⟩
    · rw [Call.apply, he] at h; cases h; exact ⟨hu, hr⟩
    · rw [Call.apply, hok] at h; cases h

theorem Records.apply {s : LinkEventStream σ} (h : Records S k s) (c : Call) : Records S k (c.apply S s).2 := by
  cases c with
  | emitRunMetadata m now =>
    rcases emitRunMetadata_cases (S := S) m now s with ⟨_, s1, he, hu, hr⟩ | ⟨_, s1, _, _, hok, hopen, hidx, hem⟩
    · rw [Call.apply, he]; exact h.of_unchanged hu hr
    · rw [Call.apply, hok]; exact h.emitted_open hopen hem (by simp [hidx]) (by decide)
  | emit t now p a =>
    rcases emit_cases (S := S) t now p a s with ⟨_, s1, he, hu, hr⟩ | ⟨_, s1, _, _, hok, hopen, hidx, hmeta, hsum, hem⟩
    · rw [Call.apply, he]; exact h.of_unchanged hu hr
    · rw [Call.apply, hok]; exact h.emitted_open hopen hem (by simp [hidx, hmeta]) hsum
  | emitSummary now =>
    rcases emitSummary_cases (S := S) now s with ⟨_, s1, he, hu, hr⟩ | ⟨_, s1, _, _, hok, hopen, hidx, hem, rfl⟩
    · rw [Call.apply, he]; exact h.of_unchanged hu hr
    · rw [Call.apply, hok]
      exact h.emitted hopen hem (by simp [hidx]) true (by simp) fun _ => h.validateRunSummary_emitted hopen hidx hem

theorem Records.run {s : LinkEventStream σ} (h : Records S k s) (calls : List Call) : Records S k (run S calls s) := by
  induction calls generalizing s with
  | nil => exact h
  | cons c calls ih => exact ih (h.apply c)

theorem Call.apply_ok {c : Call} {s s' : LinkEventStream σ} {e : LinkEvent} (h : c.apply S s = (.ok e, s')) :
    s.closed = false := by
  cases c with
  | emitRunMetadata m now =>
    rcases emitRunMetadata_cases (S := S) m now s with ⟨_, _, he, _⟩ | ⟨_, _, _, _, _, hopen, _⟩
    · rw [Call.apply, he] at h; cases h
    · exact hopen
  | emit t now p a =>
    rcases emit_cases (S := S) t now p a s with ⟨_, _, he, _⟩ | ⟨_, _, _, _, _, hopen, _⟩
    · rw [Call.apply, he] at h; cases h
    · exact hopen
  | emitSummary now =>
    rcases emitSummary_cases (S := S) now s with ⟨_, _, he, _⟩ | ⟨_, _, _, _, _, hopen, _⟩
    · rw [Call.apply, he] at h; cases h
    · exact hopen

theorem run_closed {s : LinkEventStream σ} (calls : List Call) (h : s.closed = true) : (run S calls s).closed = true := by
  induction calls generalizing s with
  | nil => exact h
  | cons c calls ih =>
    refine ih ?_
    show (c.apply S s).2.closed = true
    rcases hc : c.apply S s with ⟨err | e, s'⟩
    · exact (Call.apply_error hc).1.closed.trans h
    · have := Call.apply_ok hc
      rw [h] at this; cases this

theorem emitSummary_ok_closed {s s' : LinkEventStream σ} {now : Json} {e : LinkEvent}
    (h : emitSummary S now s = (.ok e, s')) : s'.closed = true := by
  rcases emitSummary_cases (S := S) now s with ⟨_, _, he, _⟩ | ⟨_, s1, _, _, hok, _, _, _, rfl⟩
  · rw [he] at h; cases h
  · rw [hok] at h; cases h; rfl

/-- After any calls on a stream: a call that raises changes nothing, the recorded events are written
and read back, and once a summary was emitted they validate to the stream's statistics. -/
theorem run_agrees_with_reader (S : EventSink σ) (sessionId : String) (startNs : Json) (sink : σ)
    (start : LinkEventStream σ) (hstart : new sessionId startNs sink = .ok start) (h0 : S.recorded sink = [])
    (calls : List Call) :
    (∀ c err s', Call.apply S c (run S calls start) = (.error err, s') →
      s'.eventIndex = (run S calls start).eventIndex ∧ s'.lastElapsedNs = (run S calls start).lastElapsedNs ∧
      s'.statistics = (run S calls start).statistics ∧ s'.closed = (run S calls start).closed) ∧
    (∀ loads, (∀ e ∈ S.recorded (run S calls start).sink, ReadsBack loads e.toDict) → ∃ file,
      Method.forEach JsonlEventRecorder.write (S.recorded (run S calls start).sink) .new = (.ok (), file) ∧
      loadLinkEvents loads ⟨file.lines, none⟩ = .ok (S.recorded (run S calls start).sink)) ∧
    (∀ before now after, calls = before ++ Call.emitSummary now :: after →
      (∃ e s', LinkEventStream.emitSummary S now (run S before start) = (.ok e, s')) →
      validateRunSummary (S.recorded (run S calls start).sink) = .ok (run S calls start).statistics) := by
  have hrec := (records_new (S := S) hstart).run calls
  rw [h0] at hrec
  refine ⟨fun c err s' hc => ?_, fun loads hloads => ?_, ?_⟩
  · have hu := (Call.apply_error hc).1
    exact ⟨hu.eventIndex, hu.lastElapsedNs, hu.statistics, hu.closed⟩
  · exact ⟨_, JsonlEventRecorder.forEach_write _ rfl, loadLinkEvents_written hloads hrec.grows⟩
  · rintro before now after rfl ⟨e, s', he⟩
    have hsplit : run S (before ++ Call.emitSummary now :: after) start = run S after s' := by
      rw [run, List.foldl_append, List.foldl_cons]
      show run S after (LinkEventStream.emitSummary S now (run S before start)).2 = _
      rw [he]
    exact hrec.closed (by rw [hsplit]; exact run_closed after (emitSummary_ok_closed he))

def listSink : EventSink (List LinkEvent) where
  call e := Method.modify fun events => events ++ [e]
  recorded events := events
  accepts e s s' h := by cases h; rfl
  rejects e s err s' h := by cases h

/-- Metadata of a run without a profile. -/
def plainMetadata : LinkRunMetadata where
  configurationFingerprint := "sha256:0123456789abcdef0123456789abcdef0123456789abcdef0123456789abcdef"
  profileName := none
  profileReference := none
  profileSchemaVersion := none
  fingerprint_ok := by decide
  together := ⟨rfl, rfl⟩
  version_pos := by simp

def onePacketStream : LinkEventStream (List LinkEvent) := ⟨"run", 5, 0, 0, {}, false, []⟩

/-- The third call goes back in time. -/
def onePacketCalls : List Call :=
  [.emitRunMetadata plainMetadata (.int 5),
    .emit .PACKET_RECEIVED (.int 9) (.int 0) (.obj [("payload_bytes", .int 35)]),
    .emit .PACKET_DROPPED (.int 8) (.int 0) (.obj [("payload_bytes", .int 35)]),
    .emit .PACKET_DROPPED (.int 9) (.int 0) (.obj [("payload_bytes", .int 35)]), .emitSummary (.int 12)]

/-- The four events of the calls, of which one raises, are written, read back and validated. -/
theorem run_agrees_with_reader_one_packet :
    (∃ file, Method.forEach JsonlEventRecorder.write (run listSink onePacketCalls onePacketStream).sink .new =
        (.ok (), file) ∧
      loadLinkEvents Json.loads ⟨file.lines, none⟩ = .ok (run listSink onePacketCalls onePacketStream).sink) ∧
    validateRunSummary (run listSink onePacketCalls onePacketStream).sink =
      .ok (run listSink onePacketCalls onePacketStream).statistics ∧
    (run listSink onePacketCalls onePacketStream).statistics = { packetsReceived := 1, packetsDropped := 1 } ∧
    (run listSink onePacketCalls onePacketStream).eventIndex = 4 := by
  obtain ⟨-, hloads, hsummary⟩ := run_agrees_with_reader listSink "run" (.int 5) [] onePacketStream rfl rfl onePacketCalls
  refine ⟨hloads Json.loads (Json.readsBack_of_lines LinkEvent.readable rfl (by decide +kernel)), ?_, by decide +kernel,
    by decide +kernel⟩
  exact hsummary (onePacketCalls.take 4) (.int 12) [] rfl (Method.exists_of_toBool (by decide +kernel))

end LinkEventStream

end OrbitOps.Link
