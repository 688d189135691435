import Mathlib
import OrbitOps.AlarmEvents

/-!
# Alarm logs

The loader of alarm logs and the recorder that writes them. What the engine emits can be recorded,
and after any calls of a recorder its file holds exactly the events written (`Wrote`), in an order
that the loader accepts; closing adds the summary that the loader checks.
-/

namespace OrbitOps
open Py

/-! ### Loading -/

/-- The variables of the loading loop. -/
structure AlarmLoadState where
  events : List AlarmEvent
  sessionId : Option VisibleText
  previousElapsedNs : Int
  summarySeen : Bool

/-- The event on a line. -/
def decodeAlarmLine (loads : String → Option Json) (lineNumber : Nat) (line : String) : Result AlarmEvent :=
  match loads line with
  | none => .error (valueError s!"invalid alarm event at line {lineNumber}")
  | some payload =>
    reraise (fun _ => valueError s!"invalid alarm event at line {lineNumber}") (AlarmEvent.fromDict payload)

/-- The checks of an event against the events before it. -/
def appendAlarmEvent (lineNumber : Nat) (st : AlarmLoadState) (event : AlarmEvent) : Result AlarmLoadState :=
  if event.eventIndex ≠ st.events.length then
    .error (valueError s!"non-contiguous event_index at line {lineNumber}")
  else if st.sessionId ≠ none ∧ st.sessionId ≠ some event.sessionId then
    .error (valueError s!"session_id changed at line {lineNumber}")
  else if (event.elapsedNs : Int) < st.previousElapsedNs then
    .error (valueError s!"elapsed_ns moved backwards at line {lineNumber}")
  else if st.summarySeen then .error (valueError "run_summary must be the final event")
  else if st.events = [] ∧ event.eventType ≠ .RUN_METADATA then
    .error (valueError "alarm event streams must begin with run_metadata")
  else if st.events ≠ [] ∧ event.eventType = .RUN_METADATA then
    .error (valueError "run_metadata may appear only once as the first event")
  else .ok {
    events := st.events ++ [event]
    sessionId := st.sessionId.or (some event.sessionId)
    previousElapsedNs := event.elapsedNs
    summarySeen := event.eventType = .RUN_SUMMARY || st.summarySeen }

def alarmLoadStep (loads : String → Option Json) (lineNumber : Nat) (line : String) (st : AlarmLoadState) :
    Result AlarmLoadState := do
  let event ← decodeAlarmLine loads lineNumber line
  appendAlarmEvent lineNumber st event

def AlarmLoadState.start : AlarmLoadState := ⟨[], none, -1, false⟩

/-- The check of a final summary. -/
def requireSummary (events : List AlarmEvent) : Result Unit :=
  if events.getLast?.any fun e => e.eventType = .RUN_SUMMARY then (validateRunSummary events).map fun _ => ()
  else .ok ()

def loadAlarmEvents (loads : String → Option Json) (file : TextFile) : Result (List AlarmEvent) := do
  let st ← file.fold valueError (alarmLoadStep loads) .start
  requireSummary st.events
  return st.events

/-- The event `e` may follow the events `es` in a file. -/
structure AlarmEvent.Next (es : List AlarmEvent) (e : AlarmEvent) : Prop where
  index : e.eventIndex = es.length
  session : ∀ f ∈ es.head?, f.sessionId = e.sessionId
  elapsed : ∀ f ∈ es.getLast?, f.elapsedNs ≤ e.elapsedNs
  summary : ∀ f ∈ es, f.eventType ≠ .RUN_SUMMARY
  header : es = [] ↔ e.eventType = .RUN_METADATA

/-- The loop variables after reading events. -/
def AlarmLoadState.of (es : List AlarmEvent) : AlarmLoadState where
  events := es
  sessionId := es.head?.map AlarmEvent.sessionId
  previousElapsedNs := (es.getLast?.map fun e => (e.elapsedNs : Int)).getD (-1)
  summarySeen := es.any fun e => e.eventType = .RUN_SUMMARY

theorem AlarmLoadState.of_snoc (es : List AlarmEvent) (e : AlarmEvent) : AlarmLoadState.of (es ++ [e]) = {
    events := es ++ [e]
    sessionId := (AlarmLoadState.of es).sessionId.or (some e.sessionId)
    previousElapsedNs := e.elapsedNs
    summarySeen := e.eventType = .RUN_SUMMARY || (AlarmLoadState.of es).summarySeen } := by
  simp only [AlarmLoadState.of, map_head?_concat, any_concat, List.getLast?_concat, Option.map_some, Option.getD_some]

theorem appendAlarmEvent_eq_ok {n : Nat} {es : List AlarmEvent} {e : AlarmEvent} {st : AlarmLoadState} :
    appendAlarmEvent n (.of es) e = .ok st ↔ AlarmEvent.Next es e ∧ st = .of (es ++ [e]) := by
  rw [AlarmLoadState.of_snoc]
  constructor
  · intro h
    unfold appendAlarmEvent at h
    split_ifs at h with hidx hsid hel hsum hhead hmeta
    cases h
    refine ⟨⟨not_not.mp hidx, not_changed_iff.mp hsid, not_backwards_iff.mp hel, not_seen_iff.mp hsum, ?_⟩, rfl⟩
    constructor
    · intro hes
      by_contra hne
      exact hhead ⟨hes, hne⟩
    · intro ht
      by_contra hes
      exact hmeta ⟨hes, ht⟩
  · rintro ⟨h, rfl⟩
    have hidx : ¬e.eventIndex ≠ (AlarmLoadState.of es).events.length := not_not.mpr h.index
    have hsid : ¬((AlarmLoadState.of es).sessionId ≠ none ∧ (AlarmLoadState.of es).sessionId ≠ some e.sessionId) :=
      not_changed_iff.mpr h.session
    have hel : ¬((e.elapsedNs : Int) < (AlarmLoadState.of es).previousElapsedNs) := not_backwards_iff.mpr h.elapsed
    have hsum : ¬(AlarmLoadState.of es).summarySeen = true := not_seen_iff.mpr h.summary
    rw [appendAlarmEvent, if_neg hidx, if_neg hsid, if_neg hel, if_neg hsum, if_neg, if_neg]
    · rfl
    · rintro ⟨hne, ht⟩
      exact hne (h.header.mpr ht)
    · rintro ⟨hes, hne⟩
      exact hne (h.header.mp hes)

theorem requireSummary_eq_ok {es : List AlarmEvent} : requireSummary es = .ok () ↔
    ∀ init last, es = init ++ [last] → last.eventType = .RUN_SUMMARY →
      last.attributes = (statisticsFromEvents init).toAttributes := by
  unfold requireSummary
  rcases List.eq_nil_or_concat es with rfl | ⟨init, last, rfl⟩
  · simp
  · rw [List.concat_eq_append, List.getLast?_concat]
    have hinj : (∀ init' last', init ++ [last] = init' ++ [last'] → last'.eventType = .RUN_SUMMARY →
        last'.attributes = (statisticsFromEvents init').toAttributes) ↔
        (last.eventType = .RUN_SUMMARY → last.attributes = (statisticsFromEvents init).toAttributes) := by
      refine ⟨fun h => h init last rfl, fun h init' last' heq => ?_⟩
      obtain ⟨rfl, hlast⟩ := List.append_inj' heq rfl
      cases hlast
      exact h
    rw [hinj]
    simp only [Option.any_some, decide_eq_true_eq]
    split_ifs with ht
    · constructor
      · intro h _
        cases hv : validateRunSummary (init ++ [last]) with
        | error e => rw [hv] at h; cases h
        | ok s =>
          obtain ⟨init', last', heq, -, hattr, rfl⟩ := validateRunSummary_eq_ok.mp hv
          obtain ⟨rfl, hlast⟩ := List.append_inj' heq rfl
          cases hlast
          exact hattr
      · intro h
        rw [validateRunSummary_eq_ok.mpr ⟨init, last, rfl, ht, h ht, rfl⟩]
        rfl
    · exact ⟨fun _ h => absurd h ht, fun _ => rfl⟩

/-- The files that the loader accepts, and what it returns. -/
theorem loadAlarmEvents_eq_ok {loads : String → Option Json} {file : TextFile} {es : List AlarmEvent} :
    loadAlarmEvents loads file = .ok es ↔ file.undecodable = none ∧
      Decodes (decodeAlarmLine loads) 1 file.lines es ∧ Grows AlarmEvent.Next [] es ∧ requireSummary es = .ok () := by
  have hstep : ∀ n line acc st, isBlank line = false → (alarmLoadStep loads n line (.of acc) = .ok st ↔
      ∃ e, decodeAlarmLine loads n line = .ok e ∧ AlarmEvent.Next acc e ∧ st = .of (acc ++ [e])) := by
    intro n line acc st _
    simp only [alarmLoadStep, except_bind_eq_ok, appendAlarmEvent_eq_ok]
  have hfold (st : AlarmLoadState) : file.fold valueError (alarmLoadStep loads) .start = .ok st ↔ _ :=
    TextFile.fold_eq_ok hstep
  rw [loadAlarmEvents]
  constructor
  · intro h
    obtain ⟨st, hf, h⟩ := except_bind_eq_ok.mp h
    obtain ⟨⟨⟩, hs, h⟩ := except_bind_eq_ok.mp h
    cases h
    obtain ⟨hu, es, hd, hg, rfl⟩ := (hfold st).mp hf
    exact ⟨hu, hd, hg, hs⟩
  · rintro ⟨hu, hd, hg, hs⟩
    exact except_bind_eq_ok.mpr ⟨.of es, (hfold _).mpr ⟨hu, es, hd, hg, rfl⟩,
      except_bind_eq_ok.mpr ⟨(), hs, rfl⟩⟩

/-- The lines of events decode to them. -/
theorem decodes_alarmLines {loads : String → Option Json} {es : List AlarmEvent}
    (hloads : ∀ e ∈ es, ReadsBack loads e.toDict) :
    Decodes (decodeAlarmLine loads) 1 (es.map fun e => e.toDict.line) es := by
  refine decodes_map 1 fun e he => ⟨isBlank_line_obj _, fun n => ?_⟩
  rw [decodeAlarmLine, hloads e he, e.sortKeys_toDict]
  simp only [AlarmEvent.fromDict_toDict, reraise_ok]

/-- Events that may follow one another are loaded from the file that holds their lines. -/
theorem loadAlarmEvents_written {loads : String → Option Json} {es : List AlarmEvent}
    (hloads : ∀ e ∈ es, ReadsBack loads e.toDict) (h : Grows AlarmEvent.Next [] es)
    (hs : requireSummary es = .ok ()) :
    loadAlarmEvents loads ⟨es.map fun e => e.toDict.line, none⟩ = .ok es :=
  loadAlarmEvents_eq_ok.mpr ⟨rfl, decodes_alarmLines hloads, h, hs⟩

theorem catchable_loadAlarmEvents (loads : String → Option Json) (file : TextFile) :
    Catchable (loadAlarmEvents loads file) := by
  have hdecode (n : Nat) (line : String) : Catchable (decodeAlarmLine loads n line) := by
    unfold decodeAlarmLine
    split
    · simp
    · exact Catchable.reraise (AlarmEvent.catchable_fromDict _) fun _ => rfl
  have happend (n : Nat) (st : AlarmLoadState) (e : AlarmEvent) : Catchable (appendAlarmEvent n st e) := by
    unfold appendAlarmEvent
    split_ifs <;> simp
  have hsummary (es : List AlarmEvent) : Catchable (requireSummary es) := by
    unfold requireSummary
    split_ifs
    · refine Catchable.map ?_ _
      unfold validateRunSummary
      split
      · simp
      · split_ifs
        · simp
        · refine (AlarmRunStatistics.catchable_fromAttributes _).bind fun s => ?_
          dsimp only
          split_ifs <;> simp
    · simp
  exact (catchable_fold (fun n line _ => (hdecode n line).bind fun e => happend n _ e) _ _).bind fun st =>
    (hsummary _).bind fun _ => catchable_ok _

/-! ### What the engine emits can be recorded -/

namespace AlarmTransition

theorem recordable_temperature {transition : AlarmTransitionType} {severity : AlarmSeverity} {observed threshold : Float64}
    (hobserved : observed.isFinite = true) (hthreshold : threshold.isFinite = true) :
    (AlarmEngine.temperatureTransition transition severity observed threshold).Recordable := by
  have hcode : IsVisible (AlarmEngine.temperatureCode severity) := by cases severity <;> decide
  have hfixed := (Float64.printable_fixed 2 observed).hasNul
  have hstate : IsVisible (if transition = .CLEARED then "temperature recovered to " else "temperature is ") := by
    split_ifs <;> decide
  exact ⟨hcode, (hstate.append hfixed).append (by decide), hobserved, hthreshold, rfl⟩

theorem recordable_gap {p : DecodedPacket} {e : AlarmEngine Float64} {t : AlarmTransition Float64}
    (ht : t ∈ (e.evaluateSequence p).1) : t.Recordable := by
  unfold AlarmEngine.evaluateSequence at ht
  cases hlast : e.lastSequence with
  | none => simp [hlast] at ht
  | some last =>
    rw [hlast] at ht
    dsimp only [Option.map_some] at ht
    split_ifs at ht
    · cases ht
    · cases ht
      have hexpected := (printable_toString_int ((last + 1) % 2 ^ 32)).hasNul
      have hreceived := (printable_toString_int p.sequence).hasNul
      have hgap : IsVisible "expected sequence " := by decide
      exact ⟨(by decide : IsVisible "SEQUENCE_GAP"),
        ((hgap.append hexpected).append (by decide : hasNul ", received " = false)).append hreceived, rfl, rfl, rfl⟩

theorem recordable_battery {p : DecodedPacket} (hp : p.numbered.InRange) {e : AlarmEngine Float64}
    {t : AlarmTransition Float64} (ht : t ∈ (e.evaluateBattery p).1) : t.Recordable := by
  have hobserved : (p.batteryV : Float64).isFinite = true := Float64.isFinite_scaled_1000 (by
    have := hp.batteryMv
    simp only [TelemetryPacket.numbered] at this
    omega)
  have hfixed := (Float64.printable_fixed 3 (p.batteryV : Float64)).hasNul
  have hcritical := e.policy.battery.finite.1
  have hclear := e.policy.battery.clear_finite
  have hcode : IsVisible "LOW_BATTERY" := by decide
  have hlow : IsVisible "battery voltage is " := by decide
  have hrecovered : IsVisible "battery voltage recovered to " := by decide
  have hunit : hasNul " V" = false := by decide
  unfold AlarmEngine.evaluateBattery at ht
  dsimp only at ht
  split_ifs at ht
  · cases ht
  · cases ht
    exact ⟨hcode, (hlow.append hfixed).append hunit, hobserved, hcritical, rfl⟩
  · cases ht
    exact ⟨hcode, (hrecovered.append hfixed).append hunit, hobserved, hclear, rfl⟩

theorem recordable_mode {p : DecodedPacket} {e : AlarmEngine Float64} {t : AlarmTransition Float64}
    (ht : t ∈ (e.evaluateMode p).1) : t.Recordable := by
  unfold AlarmEngine.evaluateMode at ht
  dsimp only at ht
  split_ifs at ht
  · cases ht
  · cases ht
    exact ⟨(by decide : IsVisible "SAFE_MODE"), (by decide : IsVisible "spacecraft reports SAFE mode"), rfl, rfl, rfl⟩
  · cases ht
    exact ⟨(by decide : IsVisible "SAFE_MODE"), (by decide : IsVisible "spacecraft exited SAFE mode"), rfl, rfl, rfl⟩

theorem recordable_severity {p : DecodedPacket} (hp : p.numbered.InRange) {e : AlarmEngine Float64}
    {t : AlarmTransition Float64} (ht : t ∈ (e.evaluateTemperature p).1) : t.Recordable := by
  have hobserved : (p.temperatureC : Float64).isFinite = true := Float64.isFinite_scaled_100 (by
    have := hp.temperatureCentiC
    simp only [TelemetryPacket.numbered] at this
    omega)
  obtain ⟨hwarning, hcritical, -⟩ := e.policy.temperature.finite
  obtain ⟨hwarningClear, hcriticalClear⟩ := e.policy.temperature.clear_finite
  unfold AlarmEngine.evaluateTemperature at ht
  dsimp only at ht
  split_ifs at ht
  · cases ht
  · split at ht
    · rename_i severity _ _
      cases ht
      refine recordable_temperature hobserved ?_
      cases severity
      · exact hwarning
      · exact hcritical
    · cases ht
      exact recordable_temperature hobserved hwarningClear
    · rename_i severity _ _
      cases ht
      refine recordable_temperature hobserved ?_
      cases severity
      · exact hcriticalClear
      · exact hcritical
    · cases ht

end AlarmTransition

/-- Whatever the engine emits for a packet in range can be recorded. -/
theorem AlarmEngine.recordable_of_mem_evaluate {e : AlarmEngine Float64} {p : DecodedPacket} (hp : p.numbered.InRange)
    {t : AlarmTransition Float64} (ht : t ∈ (e.evaluate p).1) : t.Recordable := by
  rw [evaluate_fst] at ht
  simp only [List.mem_append, Option.mem_toList] at ht
  rcases ht with ((ht | ht) | ht) | ht
  · exact AlarmTransition.recordable_gap ht
  · exact AlarmTransition.recordable_severity hp ht
  · exact AlarmTransition.recordable_battery hp ht
  · exact AlarmTransition.recordable_mode ht

/-! ### Recording -/

/-- A clock, as the value of each of its readings. -/
abbrev ClockNs := Nat → Int

/-- An alarm-event recorder, with its file and the number of clock readings it has made. -/
structure AlarmEventRecorder where
  sessionId : VisibleText
  startNs : Nat
  eventIndex : Nat
  statistics : AlarmRunStatistics
  closed : Bool
  ticks : Nat
  lines : List String

namespace AlarmEventRecorder

def elapsedNs (clock : ClockNs) : Method PyError AlarmEventRecorder Nat := do
  let self ← Method.get
  Method.modify fun r => { r with ticks := r.ticks + 1 }
  let nowNs ← Method.lift (validateNonNegativeInt "clock_ns" (.int (clock self.ticks)))
  -- both are natural, so the difference is never below zero
  return nowNs - self.startNs

def writeEvent (event : AlarmEvent) : Method PyError AlarmEventRecorder Unit := do
  let self ← Method.get
  if self.closed then Method.raise (runtimeError "alarm event recorder is closed")
  else do
    Method.modify fun r => { r with lines := r.lines ++ [event.toDict.line] }
    Method.modify fun r => { r with eventIndex := r.eventIndex + 1 }

/-- `AlarmEventRecorder(...)`; the identifier of a run without one is made from a UUID. -/
def new (clock : ClockNs) (metadata : AlarmRunMetadata) (uuid : Bytes) (sessionId : Option String) :
    Result AlarmEventRecorder := do
  let sessionId ← validateNonEmptyString "session_id" (.str (sessionId.getD ("alarm-" ++ hexOfBytes uuid)))
  let startNs ← validateNonNegativeInt "clock_ns" (.int (clock 0))
  let event ← AlarmEvent.new sessionId.text (.int 0) (.int 0) .RUN_METADATA .null metadata.toAttributes.toJson
    (.int ALARM_EVENT_SCHEMA_VERSION)
  let (result, self) := writeEvent event ⟨sessionId, startNs, 0, {}, false, 1, []⟩
  result.map fun _ => self

/-- The loop body of `write_transitions`. -/
def writeTransition (clock : ClockNs) (packetSequence : Int) (transition : AlarmTransition Float64) :
    Method PyError AlarmEventRecorder Unit := do
  let self ← Method.get
  let elapsed ← elapsedNs clock
  let event ← Method.lift
    (AlarmEvent.fromTransition self.sessionId.text self.eventIndex elapsed packetSequence transition)
  writeEvent event
  Method.modify fun r => { r with statistics := r.statistics.withTransition transition.transition }

def writeTransitions (clock : ClockNs) (packetSequence : Int) (transitions : List (AlarmTransition Float64)) :
    Method PyError AlarmEventRecorder Unit :=
  Method.forEach (writeTransition clock packetSequence) transitions

def close (clock : ClockNs) : Method PyError AlarmEventRecorder Unit := do
  let self ← Method.get
  if self.closed then return ()
  else do
    let elapsed ← elapsedNs clock
    let event ← Method.lift (AlarmEvent.new self.sessionId.text (.int self.eventIndex) (.int elapsed) .RUN_SUMMARY .null
      self.statistics.toAttributes.toJson (.int ALARM_EVENT_SCHEMA_VERSION))
    writeEvent event
    Method.modify fun r => { r with closed := true }

/-- The recorder is open and its file holds exactly these events, none of them a summary. -/
structure Wrote (clock : ClockNs) (r : AlarmEventRecorder) (es : List AlarmEvent) : Prop where
  lines : r.lines = es.map fun e => e.toDict.line
  grows : Grows AlarmEvent.Next [] es
  index : r.eventIndex = es.length
  begun : es ≠ []
  session : ∀ e ∈ es, e.sessionId = r.sessionId
  started : clock 0 = r.startNs
  elapsed : ∀ f ∈ es.getLast?, ∀ n, r.ticks ≤ n → (f.elapsedNs : Int) ≤ clock n - r.startNs
  statistics : r.statistics = statisticsFromEvents es
  noSummary : ∀ e ∈ es, e.eventType ≠ .RUN_SUMMARY
  isOpen : r.closed = false

variable {clock : ClockNs} {r r' : AlarmEventRecorder} {es : List AlarmEvent}

theorem writeEvent_ok (e : AlarmEvent) (h : r.closed = false) : writeEvent e r =
    (.ok (), { r with lines := r.lines ++ [e.toDict.line], eventIndex := r.eventIndex + 1 }) := by
  rw [writeEvent, Method.bind_ok (Method.get_apply r), if_neg (by rw [h]; decide)]
  rfl

/-- The clock of a recorder that has started is never negative. -/
theorem elapsedNs_ok (hstart : clock 0 = r.startNs) (hclock : Monotone clock) :
    elapsedNs clock r = (.ok (clock r.ticks - r.startNs).toNat, { r with ticks := r.ticks + 1 }) := by
  have hmono := hclock (Nat.zero_le r.ticks)
  obtain ⟨now, hnow⟩ := Int.eq_ofNat_of_zero_le (show 0 ≤ clock r.ticks by omega)
  rw [elapsedNs, Method.bind_ok (Method.get_apply r), Method.bind_ok (Method.modify_apply _ r),
    Method.bind_ok (Method.lift_eq (by rw [hnow, validateNonNegativeInt_nat]) _), Method.pure_apply, hnow]
  congr 2
  omega

/-- The summary that a recorder would write. -/
def summaryEvent (clock : ClockNs) (r : AlarmEventRecorder) : AlarmEvent where
  sessionId := r.sessionId
  eventIndex := r.eventIndex
  elapsedNs := (clock r.ticks - r.startNs).toNat
  eventType := .RUN_SUMMARY
  packetSequence := none
  attributes := r.statistics.toAttributes
  shape := ⟨rfl, r.statistics, rfl⟩

/-- Closing an open recorder writes its summary, whatever its counters say. -/
theorem close_eq (hopen : r.closed = false) (hstart : clock 0 = r.startNs) (hclock : Monotone clock) :
    close clock r = (.ok (), { r with
      lines := r.lines ++ [(summaryEvent clock r).toDict.line]
      eventIndex := r.eventIndex + 1
      ticks := r.ticks + 1
      closed := true }) := by
  have he : AlarmEvent.new r.sessionId.text (.int r.eventIndex) (.int ((clock r.ticks - r.startNs).toNat : Nat))
      .RUN_SUMMARY .null r.statistics.toAttributes.toJson (.int ALARM_EVENT_SCHEMA_VERSION) =
      .ok (summaryEvent clock r) := (summaryEvent clock r).new_self
  have hwrite := writeEvent_ok (r := { r with ticks := r.ticks + 1 }) (summaryEvent clock r) hopen
  rw [close, Method.bind_ok (Method.get_apply r), if_neg (by rw [hopen]; decide),
    Method.bind_ok (elapsedNs_ok hstart hclock), Method.bind_ok (Method.lift_eq he _), Method.bind_ok hwrite]
  rfl

/-- An event built from the recorder's own counters may follow the events of its file. -/
theorem Wrote.next (h : Wrote clock r es) {e : AlarmEvent} (hsession : e.sessionId = r.sessionId)
    (hindex : e.eventIndex = r.eventIndex) (helapsed : e.elapsedNs = (clock r.ticks - r.startNs).toNat)
    (htype : e.eventType ≠ .RUN_METADATA) : AlarmEvent.Next es e where
  index := hindex.trans h.index
  session f hf := (h.session f (List.mem_of_mem_head? hf)).trans hsession.symm
  elapsed f hf := by
    have := h.elapsed f hf r.ticks le_rfl
    omega
  summary := h.noSummary
  header := ⟨fun hes => absurd hes h.begun, fun ht => absurd ht htype⟩

/-- An event that a transition of a packet became. -/
def Carries (sequence : Nat) (t : AlarmTransition Float64) (e : AlarmEvent) : Prop :=
  e.eventType = .ofTransition t.transition ∧ e.packetSequence = some sequence ∧
    ∃ h, e.attributes = (t.recorded h).toAttributes

/-- A transition of a packet becomes the next event of the file. -/
theorem Wrote.writeTransition_ok (h : Wrote clock r es) (hclock : Monotone clock) {sequence : Nat}
    (hsequence : sequence ≤ MAX_PACKET_SEQUENCE) {t : AlarmTransition Float64} (ht : t.Recordable) :
    ∃ e r', writeTransition clock sequence t r = (.ok (), r') ∧ Wrote clock r' (es ++ [e]) ∧ Carries sequence t e := by
  obtain ⟨e, he, hsession, hindex, helapsed, htype, hseq, hattr⟩ := AlarmEvent.fromTransition_ok r.sessionId
    r.eventIndex (clock r.ticks - r.startNs).toNat hsequence t ht
  have hmeta : e.eventType ≠ .RUN_METADATA := by rw [htype]; cases t.transition <;> decide
  have hsummary : e.eventType ≠ .RUN_SUMMARY := by rw [htype]; cases t.transition <;> decide
  let r' : AlarmEventRecorder := { r with
    lines := r.lines ++ [e.toDict.line]
    eventIndex := r.eventIndex + 1
    ticks := r.ticks + 1
    statistics := r.statistics.withTransition t.transition }
  refine ⟨e, r', ?_, ?_, htype, hseq, ht, hattr⟩
  · have hwrite := writeEvent_ok (r := { r with ticks := r.ticks + 1 }) e h.isOpen
    rw [writeTransition, Method.bind_ok (Method.get_apply r), Method.bind_ok (elapsedNs_ok h.started hclock),
      Method.bind_ok (Method.lift_eq he _), Method.bind_ok hwrite]
    rfl
  · exact {
      lines := by simp only [r', h.lines, List.map_append, List.map_singleton]
      grows := h.grows.snoc (h.next hsession hindex helapsed hmeta)
      index := by simp only [r', h.index, List.length_append, List.length_singleton]
      begun := by simp
      session := fun f hf => (List.mem_append.mp hf).elim (h.session f) fun hf => by
        rw [List.mem_singleton.mp hf]; exact hsession
      started := h.started
      elapsed := fun f hf n hn => by
        rw [List.getLast?_concat] at hf
        cases hf
        have hfrom := hclock (Nat.zero_le r.ticks)
        have hto := hclock (show r.ticks ≤ n from Nat.le_of_succ_le hn)
        have hstart := h.started
        simp only [r']
        omega
      statistics := by
        simp only [r']
        rw [statisticsFromEvents_snoc, ← h.statistics, AlarmEvent.count, htype]
        cases t.transition <;> rfl
      noSummary := fun f hf => (List.mem_append.mp hf).elim (h.noSummary f) fun hf => by
        rw [List.mem_singleton.mp hf]; exact hsummary
      isOpen := h.isOpen }

/-- The transitions of a packet become the next events of the file, in order. -/
theorem Wrote.writeTransitions_ok (h : Wrote clock r es) (hclock : Monotone clock) {sequence : Nat}
    (hsequence : sequence ≤ MAX_PACKET_SEQUENCE) {ts : List (AlarmTransition Float64)} (hts : ∀ t ∈ ts, t.Recordable) :
    ∃ es' r', writeTransitions clock sequence ts r = (.ok (), r') ∧ Wrote clock r' (es ++ es') ∧
      List.Forall₂ (Carries sequence) ts es' := by
  induction ts generalizing r es with
  | nil => exact ⟨[], r, rfl, by rwa [List.append_nil], .nil⟩
  | cons t ts ih =>
    obtain ⟨e, r₁, hwrite, hwrote, hcarries⟩ := h.writeTransition_ok hclock hsequence (hts t (List.mem_cons_self ..))
    obtain ⟨es', r₂, hrest, hwrote', hall⟩ := ih hwrote fun u hu => hts u (List.mem_cons_of_mem _ hu)
    refine ⟨e :: es', r₂, ?_, ?_, .cons hcarries hall⟩
    · rw [writeTransitions, Method.forEach_cons, Method.bind_ok hwrite]
      exact hrest
    · rwa [List.append_assoc] at hwrote'

/-- A recorder that was built has written the metadata of its run. -/
theorem wrote_of_new (hmono : Monotone clock) {metadata : AlarmRunMetadata} {uuid : Bytes} {sessionId : Option String}
    (h : new clock metadata uuid sessionId = .ok r) : ∃ e, Wrote clock r [e] ∧ e.eventType = .RUN_METADATA ∧
      e.attributes = metadata.toAttributes := by
  obtain ⟨session, hsession, h⟩ := except_bind_eq_ok.mp h
  obtain ⟨start, hstart, h⟩ := except_bind_eq_ok.mp h
  obtain ⟨e, he, h⟩ := except_bind_eq_ok.mp h
  let e' : AlarmEvent := ⟨session, 0, 0, .RUN_METADATA, none, metadata.toAttributes, rfl, metadata, rfl⟩
  have he' : AlarmEvent.new session.text (.int 0) (.int 0) .RUN_METADATA .null metadata.toAttributes.toJson
      (.int ALARM_EVENT_SCHEMA_VERSION) = .ok e' := e'.new_self
  obtain rfl : e' = e := Except.ok.inj (he'.symm.trans he)
  rw [writeEvent_ok e' rfl] at h
  cases h
  have hstart' : clock 0 = start := Json.int.inj (validateNonNegativeInt_eq_ok.mp hstart)
  refine ⟨e', ?_, rfl, rfl⟩
  exact {
    lines := rfl
    grows := ⟨⟨rfl, by simp, by simp, by simp, by simp [e']⟩, trivial⟩
    index := rfl
    begun := by simp
    session := fun f hf => by rw [List.mem_singleton.mp hf]
    started := hstart'
    elapsed := fun f hf n hn => by
      cases hf
      have hfrom := hmono (Nat.zero_le n)
      show (0 : Int) ≤ clock n - start
      omega
    statistics := rfl
    noSummary := fun f hf => by
      rw [List.mem_singleton.mp hf]
      exact (by decide : AlarmEventType.RUN_METADATA ≠ .RUN_SUMMARY)
    isOpen := rfl }

/-- A recorder can be built for any visible session identity, and for a generated one. -/
theorem exists_new (hclock : 0 ≤ clock 0) (metadata : AlarmRunMetadata) (uuid : Bytes) {sessionId : Option String}
    (hsession : ∀ s ∈ sessionId, IsVisible s) : ∃ r, new clock metadata uuid sessionId = .ok r := by
  have hhex : hasNul (hexOfBytes uuid) = false := by
    refine Printable.hasNul (printable_ofList.mpr fun c hc => ?_)
    obtain ⟨b, -, hc⟩ := List.mem_flatMap.mp hc
    have hb : b.toNat < 256 := b.toNat_lt
    rcases List.mem_cons.mp hc with rfl | hc
    · exact isPrintable_hexDigit _ (by omega)
    · rw [List.mem_singleton.mp hc]
      exact isPrintable_hexDigit _ (by omega)
  have hvisible : IsVisible (sessionId.getD ("alarm-" ++ hexOfBytes uuid)) := by
    cases sessionId with
    | none => exact (by decide : IsVisible "alarm-").append hhex
    | some s => exact hsession s rfl
  obtain ⟨start, hstart⟩ := Int.eq_ofNat_of_zero_le hclock
  let session : VisibleText := ⟨sessionId.getD ("alarm-" ++ hexOfBytes uuid), hvisible.1, hvisible.2⟩
  let e : AlarmEvent := ⟨session, 0, 0, .RUN_METADATA, none, metadata.toAttributes, rfl, metadata, rfl⟩
  have he : AlarmEvent.new session.text (.int 0) (.int 0) .RUN_METADATA .null metadata.toAttributes.toJson
      (.int ALARM_EVENT_SCHEMA_VERSION) = .ok e := e.new_self
  refine ⟨⟨session, start, 1, {}, false, 1, [e.toDict.line]⟩, ?_⟩
  refine except_bind_eq_ok.mpr ⟨session, validateNonEmptyString_text _ session, ?_⟩
  refine except_bind_eq_ok.mpr ⟨start, by rw [hstart, validateNonNegativeInt_nat], ?_⟩
  refine except_bind_eq_ok.mpr ⟨e, he, ?_⟩
  rw [writeEvent_ok e rfl]
  rfl

/-- Closing adds the summary, and the file is what the loader accepts. -/
theorem Wrote.close_ok (h : Wrote clock r es) (hclock : Monotone clock) : ∃ e r', close clock r = (.ok (), r') ∧
    r'.lines = (es ++ [e]).map (fun e => e.toDict.line) ∧ Grows AlarmEvent.Next [] (es ++ [e]) ∧
      requireSummary (es ++ [e]) = .ok () ∧ e.eventType = .RUN_SUMMARY := by
  have hnext : AlarmEvent.Next es (summaryEvent clock r) :=
    h.next rfl rfl rfl (by exact (by decide : AlarmEventType.RUN_SUMMARY ≠ .RUN_METADATA))
  refine ⟨summaryEvent clock r, _, close_eq h.isOpen h.started hclock, ?_, h.grows.snoc hnext, ?_, rfl⟩
  · rw [List.map_append, ← h.lines]
    rfl
  · refine requireSummary_eq_ok.mpr fun init last heq _ => ?_
    obtain ⟨rfl, hlast⟩ := List.append_inj' heq rfl
    cases hlast
    show r.statistics.toAttributes = _
    rw [h.statistics]

end AlarmEventRecorder

end OrbitOps
