import OrbitOps.Receiver

/-!
# What is left of an alarm log

The recorder writes and flushes one line per event, so a run that ends between two events leaves a
prefix of the lines, and the loader accepts every prefix. A `KeyboardInterrupt` can also end a run
inside `write_transitions`, where one event takes four steps: it is built, its line is written, the
index advances, the counters are updated. The listener then closes the recorder, which writes a
summary from the index and the counters of that moment. The summary is wrong exactly when the line
was written and the counters were not updated.
-/

namespace OrbitOps
open Py

theorem requireSummary_of_noSummary {es : List AlarmEvent} (h : ∀ e ∈ es, e.eventType ≠ .RUN_SUMMARY) :
    requireSummary es = .ok () :=
  requireSummary_eq_ok.mpr fun init last heq htype => absurd htype (h last (by rw [heq]; simp))

namespace AlarmEventRecorder

variable {clock : ClockNs} {r r' : AlarmEventRecorder} {es : List AlarmEvent} {loads : String → Option Json}

/-! ### Crash points -/

/-- Every prefix of the file is loaded as the events written so far. -/
theorem Wrote.loads_take (h : Wrote clock r es) (hloads : ∀ e ∈ es, ReadsBack loads e.toDict) (k : Nat) :
    loadAlarmEvents loads ⟨r.lines.take k, none⟩ = .ok (es.take k) := by
  rw [h.lines, ← List.map_take]
  exact loadAlarmEvents_written (fun e he => hloads e (List.mem_of_mem_take he)) (h.grows.take k)
    (requireSummary_of_noSummary fun e he => h.noSummary e (List.mem_of_mem_take he))

structure WriteCall where
  packetSequence : Int
  transitions : List (AlarmTransition Float64)

/-- The call carries transitions that an engine emits for a decoded packet. -/
def WriteCall.Emitted (c : WriteCall) : Prop := ∃ data p, decodePacket data = .ok p ∧ c.packetSequence = p.sequence ∧
  ∀ t ∈ c.transitions, ∃ engine : AlarmEngine Float64, t ∈ (engine.evaluate p).1

/-- What an engine emits for a packet, as the listener hands it over. -/
theorem WriteCall.emitted_evaluate {data : Bytes} {p : DecodedPacket} (h : decodePacket data = .ok p)
    (engine : AlarmEngine Float64) : WriteCall.Emitted ⟨p.sequence, (engine.evaluate p).1⟩ :=
  ⟨data, p, h, rfl, fun _ ht => ⟨engine, ht⟩⟩

/-- Calls of `write_transitions`, one after the other. -/
def writeCalls (clock : ClockNs) (calls : List WriteCall) : Method PyError AlarmEventRecorder Unit :=
  Method.forEach (fun c => writeTransitions clock c.packetSequence c.transitions) calls

/-- How many transitions were raised, updated and cleared. -/
def transitionCounts (ts : List (AlarmTransition Float64)) : AlarmRunStatistics where
  transitionsRaised := ts.countP fun t => t.transition = .RAISED
  transitionsUpdated := ts.countP fun t => t.transition = .UPDATED
  transitionsCleared := ts.countP fun t => t.transition = .CLEARED

def Records (t : AlarmTransition Float64) (e : AlarmEvent) : Prop := e.eventType = .ofTransition t.transition

theorem Wrote.writeCalls_ok (h : Wrote clock r es) (hclock : Monotone clock) {calls : List WriteCall}
    (hcalls : ∀ c ∈ calls, c.Emitted) : ∃ es' r', writeCalls clock calls r = (.ok (), r') ∧
      Wrote clock r' (es ++ es') ∧ List.Forall₂ Records (calls.flatMap WriteCall.transitions) es' := by
  induction calls generalizing r es with
  | nil => exact ⟨[], r, rfl, by rwa [List.append_nil], .nil⟩
  | cons c calls ih =>
    obtain ⟨data, p, hp, hsequence, hemitted⟩ := hcalls c (List.mem_cons_self ..)
    have hrange := decodePacket_inRange hp
    obtain ⟨hlo, hhi⟩ : 0 ≤ p.sequence ∧ p.sequence ≤ 0xFFFFFFFF := hrange.sequence
    obtain ⟨n, hn⟩ := Int.eq_ofNat_of_zero_le hlo
    obtain ⟨es₁, r₁, hwrite, hwrote, hall⟩ := h.writeTransitions_ok hclock
      (show n ≤ MAX_PACKET_SEQUENCE by rw [MAX_PACKET_SEQUENCE]; omega) fun t ht =>
        (hemitted t ht).elim fun _ ht => AlarmEngine.recordable_of_mem_evaluate hrange ht
    obtain ⟨es₂, r₂, hrest, hwrote', hall'⟩ := ih hwrote fun c hc => hcalls c (List.mem_cons_of_mem _ hc)
    refine ⟨es₁ ++ es₂, r₂, ?_, by rwa [List.append_assoc] at hwrote', ?_⟩
    · rw [writeCalls, Method.forEach_cons, hsequence, hn, Method.bind_ok hwrite]
      exact hrest
    · exact List.rel_append (hall.imp fun t e he => he.1) hall'

theorem alarmTypeCount_of_records {k : AlarmTransitionType} {ts : List (AlarmTransition Float64)} {es : List AlarmEvent}
    (h : List.Forall₂ Records ts es) : alarmTypeCount (.ofTransition k) es = ts.countP fun t => t.transition = k := by
  have hinj {a : AlarmTransitionType} : AlarmEventType.ofTransition a = .ofTransition k ↔ a = k := by
    constructor
    · intro heq
      cases a <;> cases k <;> first | rfl | cases heq
    · rintro rfl; rfl
  rw [alarmTypeCount]
  induction h with
  | nil => rfl
  | cons he hall ih =>
    rw [Records] at he
    simp only [List.countP_cons, ih, he, hinj]

/-- The counters of a recorder are those of the transitions that its events record. -/
theorem statisticsFromEvents_of_records {header : AlarmEvent} (hheader : header.eventType = .RUN_METADATA)
    {ts : List (AlarmTransition Float64)} (h : List.Forall₂ Records ts es) :
    statisticsFromEvents (header :: es) = transitionCounts ts := by
  have hcount (k : AlarmTransitionType) :
      alarmTypeCount (.ofTransition k) (header :: es) = ts.countP fun t => t.transition = k := by
    rw [← alarmTypeCount_of_records h, alarmTypeCount, List.countP_cons_of_neg]
    · rfl
    · rw [hheader]
      cases k <;> decide
  exact congr (congrArg₂ AlarmRunStatistics.mk (hcount .RAISED) (hcount .UPDATED)) (hcount .CLEARED)

theorem writeTransitions_closed (hclosed : r.closed = true) (sequence : Int) {ts : List (AlarmTransition Float64)}
    (hts : ts ≠ []) : ∃ e r', writeTransitions clock sequence ts r = (.error e, r') ∧ r'.lines = r.lines := by
  obtain ⟨t, ts, rfl⟩ := List.exists_cons_of_ne_nil hts
  have hstep : ∃ e r', writeTransition clock sequence t r = (.error e, r') ∧ r'.lines = r.lines := by
    let r₁ : AlarmEventRecorder := { r with ticks := r.ticks + 1 }
    rw [writeTransition, Method.bind_ok (Method.get_apply r)]
    cases hnow : validateNonNegativeInt "clock_ns" (.int (clock r.ticks)) with
    | error e =>
      have helapsed : elapsedNs clock r = (.error e, r₁) := by
        rw [elapsedNs, Method.bind_ok (Method.get_apply r), Method.bind_ok (Method.modify_apply _ r),
          Method.bind_error (Method.lift_eq hnow _)]
      exact ⟨e, r₁, Method.bind_error helapsed, rfl⟩
    | ok now =>
      have helapsed : elapsedNs clock r = (.ok (now - r.startNs), r₁) := by
        rw [elapsedNs, Method.bind_ok (Method.get_apply r), Method.bind_ok (Method.modify_apply _ r),
          Method.bind_ok (Method.lift_eq hnow _)]
        rfl
      rw [Method.bind_ok helapsed]
      cases hevent : AlarmEvent.fromTransition r.sessionId.text r.eventIndex (now - r.startNs) sequence t with
      | error e => exact ⟨e, r₁, Method.bind_error (Method.lift_apply _ r₁), rfl⟩
      | ok event =>
        have hwrite : writeEvent event r₁ = (.error (runtimeError "alarm event recorder is closed"), r₁) := by
          rw [writeEvent, Method.bind_ok (Method.get_apply r₁), if_pos hclosed]
          rfl
        refine ⟨runtimeError "alarm event recorder is closed", r₁, ?_, rfl⟩
        rw [Method.bind_ok (Method.lift_apply _ r₁), Method.bind_error hwrite]
  obtain ⟨e, r', hstep, hlines⟩ := hstep
  exact ⟨e, r', by rw [writeTransitions, Method.forEach_cons, Method.bind_error hstep], hlines⟩

/-- Writer and loader agree on every prefix of the file, and on the closed file, which nothing changes any more. -/
theorem recorder_agrees_with_loader (hclock : Monotone clock) (hstart : 0 ≤ clock 0) (metadata : AlarmRunMetadata)
    (uuid : Bytes) {sessionId : Option String} (hsession : ∀ s ∈ sessionId, IsVisible s) {calls : List WriteCall}
    (hcalls : ∀ c ∈ calls, c.Emitted) : ∃ r₀ r r' events, ∃ summary : AlarmEvent,
      new clock metadata uuid sessionId = .ok r₀ ∧ writeCalls clock calls r₀ = (.ok (), r) ∧
      r.lines = events.map (fun e => e.toDict.line) ∧
      (∀ loads, (∀ e ∈ events, ReadsBack loads e.toDict) →
        ∀ k, loadAlarmEvents loads ⟨r.lines.take k, none⟩ = .ok (events.take k)) ∧
      close clock r = (.ok (), r') ∧ r'.lines = r.lines ++ [summary.toDict.line] ∧ summary.eventType = .RUN_SUMMARY ∧
      (∀ loads, (∀ e ∈ events ++ [summary], ReadsBack loads e.toDict) →
        loadAlarmEvents loads ⟨r'.lines, none⟩ = .ok (events ++ [summary])) ∧
      validateRunSummary (events ++ [summary]) = .ok r'.statistics ∧
      r'.statistics = transitionCounts (calls.flatMap WriteCall.transitions) ∧
      close clock r' = (.ok (), r') ∧
      ∀ sequence ts, ts ≠ [] → ∃ e r'', writeTransitions clock sequence ts r' = (.error e, r'') ∧ r''.lines = r'.lines := by
  obtain ⟨r₀, hnew⟩ := exists_new hstart metadata uuid hsession
  obtain ⟨header, hwrote₀, hheader, -⟩ := wrote_of_new hclock hnew
  obtain ⟨es, r, hrun, hwrote, hall⟩ := hwrote₀.writeCalls_ok hclock hcalls
  obtain ⟨summary, r', hclose, hlines, hgrows, hrequire, htype⟩ := hwrote.close_ok hclock
  have heq := close_eq hwrote.isOpen hwrote.started hclock
  rw [hclose, Prod.mk.injEq] at heq
  have hclosed : r'.closed = true := by rw [heq.2]
  have hstatistics : r'.statistics = statisticsFromEvents ([header] ++ es) := by rw [heq.2]; exact hwrote.statistics
  refine ⟨r₀, r, r', [header] ++ es, summary, hnew, hrun, hwrote.lines, fun _ h k => hwrote.loads_take h k, hclose, ?_,
    htype, fun _ h => ?_, ?_, ?_, ?_, fun sequence _ hts => writeTransitions_closed hclosed sequence hts⟩
  · rw [hlines, List.map_append, hwrote.lines]
    rfl
  · rw [hlines]
    exact loadAlarmEvents_written h hgrows hrequire
  · refine validateRunSummary_eq_ok.mpr ⟨_, _, rfl, htype, ?_, hstatistics⟩
    rw [hstatistics]
    exact requireSummary_eq_ok.mp hrequire _ _ rfl htype
  · rw [hstatistics]
    exact statisticsFromEvents_of_records hheader hall
  · rw [close, Method.bind_ok (Method.get_apply r'), if_pos hclosed]
    rfl

/-- A packet in safe mode, for tests. -/
def safePacket : DecodedPacket := { nominalPacket with mode := .SAFE }

def zeroMetadata : AlarmRunMetadata where
  policyName := ⟨"standard", by decide, by decide⟩
  policyReference := ⟨"builtin:standard", by decide, by decide⟩
  policySchemaVersion := 1
  policyFingerprint := "sha256:" ++ String.ofList (List.replicate 64 '0')
  version_pos := by decide
  fingerprint_ok := by decide +kernel

/-- The call that the packet leads to. -/
def safeCall : WriteCall := ⟨safePacket.sequence, ((AlarmEngine.new DEFAULT_ALARM_POLICY).evaluate safePacket).1⟩

/-- The packet raises an alarm, which is recorded before the recorder is closed. -/
theorem recorder_agrees_with_loader_safe_mode : ∃ r₀ r r' events, ∃ summary : AlarmEvent,
    new (fun _ => 0) zeroMetadata [] (some "s") = .ok r₀ ∧ writeCalls (fun _ => 0) [safeCall] r₀ = (.ok (), r) ∧
    close (fun _ => 0) r = (.ok (), r') ∧
    (∀ k, loadAlarmEvents Json.loads ⟨r.lines.take k, none⟩ = .ok (events.take k)) ∧
    loadAlarmEvents Json.loads ⟨r'.lines, none⟩ = .ok (events ++ [summary]) ∧ r'.statistics = ⟨1, 0, 0⟩ := by
  have hcounts : transitionCounts ([safeCall].flatMap WriteCall.transitions) = ⟨1, 0, 0⟩ := by decide +kernel
  have hdecode : decodePacket (encoding safePacket.numbered) = .ok safePacket := by decide +kernel
  have hemitted : ∀ c ∈ [safeCall], c.Emitted := by
    intro c hc
    rw [List.mem_singleton.mp hc]
    exact WriteCall.emitted_evaluate hdecode _
  have hstill : Monotone (fun _ => 0 : ClockNs) := fun _ _ _ => le_rfl
  obtain ⟨r₀, r, r', events, summary, hnew, hrun, hlines, hload, hclose, hclosed, -, hloadClosed, -, hstatistics, -⟩ :=
    recorder_agrees_with_loader hstill le_rfl zeroMetadata []
      (show ∀ s ∈ some "s", IsVisible s from fun s hs => by cases hs; decide) hemitted
  have hshort : ((new (fun _ => 0) zeroMetadata [] (some "s")).toOption.map fun r₀ =>
      (close (fun _ => 0) (writeCalls (fun _ => 0) [safeCall] r₀).2).2.lines.all fun line =>
        decide (line.utf8ByteSize ≤ maxStrDigits)) = some true := by decide +kernel
  rw [hnew, Except.toOption, Option.map_some, hrun, hclose, Option.some.injEq, List.all_eq_true] at hshort
  have hlog : r'.lines = (events ++ [summary]).map fun e => e.toDict.line := by
    rw [hclosed, hlines, List.map_append]
    rfl
  have hreads := Json.readsBack_of_lines AlarmEvent.readable hlog fun line hline => of_decide_eq_true (hshort line hline)
  exact ⟨r₀, r, r', events, summary, hnew, hrun, hclose,
    hload Json.loads fun e he => hreads e (List.mem_append_left _ he), hloadClosed Json.loads hreads,
    hstatistics.trans hcounts⟩

/-! ### Interrupted calls -/

/-- The steps in which `write_transitions` records one transition. -/
inductive ElementaryStep where
  | build
  | write
  | advance
  | count

/-- A recorder inside of `write_transitions`, with the local variable `event`. -/
structure Pass where
  recorder : AlarmEventRecorder
  event : Option AlarmEvent

def ElementaryStep.run (clock : ClockNs) (packetSequence : Int) (transition : AlarmTransition Float64) :
    ElementaryStep → Method PyError Pass Unit
  | .build => do
    let self ← Method.get
    let elapsed ← Method.zoom Pass.recorder (fun r s => { s with recorder := r }) (elapsedNs clock)
    let event ← Method.lift (AlarmEvent.fromTransition self.recorder.sessionId.text self.recorder.eventIndex elapsed
      packetSequence transition)
    Method.modify fun s => { s with event := some event }
  | .write => do
    let self ← Method.get
    if self.recorder.closed then Method.raise (runtimeError "alarm event recorder is closed")
    else Method.modify fun s =>
      { s with recorder := { s.recorder with lines := s.recorder.lines ++ s.event.toList.map fun e => e.toDict.line } }
  | .advance => Method.modify fun s => { s with recorder := { s.recorder with eventIndex := s.recorder.eventIndex + 1 } }
  | .count => Method.modify fun s =>
    { s with recorder := { s.recorder with statistics := s.recorder.statistics.withTransition transition.transition } }

/-- The steps of a call of `write_transitions`. -/
def stepsOf (ts : List (AlarmTransition Float64)) : List (AlarmTransition Float64 × ElementaryStep) :=
  ts.flatMap fun t => [(t, .build), (t, .write), (t, .advance), (t, .count)]

def runSteps (clock : ClockNs) (packetSequence : Int) (steps : List (AlarmTransition Float64 × ElementaryStep)) :
    Method PyError Pass Unit :=
  Method.forEach (fun x => x.2.run clock packetSequence x.1) steps

/-- `write_transitions`, interrupted after `k` steps. -/
def interruptedTransitions (clock : ClockNs) (packetSequence : Int) (transitions : List (AlarmTransition Float64))
    (k : Nat) : Method PyError AlarmEventRecorder Unit := fun r =>
  let (result, s) := runSteps clock packetSequence ((stepsOf transitions).take k) ⟨r, none⟩
  (result, s.recorder)

/-- The four steps of a transition do what the loop body does. -/
theorem runSteps_transition (clock : ClockNs) (sequence : Int) (t : AlarmTransition Float64) (s : Pass) : ∃ event,
    runSteps clock sequence [(t, .build), (t, .write), (t, .advance), (t, .count)] s =
      ((writeTransition clock sequence t s.recorder).1, ⟨(writeTransition clock sequence t s.recorder).2, event⟩) := by
  simp only [runSteps, Method.forEach_cons, Method.forEach_nil, ElementaryStep.run, writeTransition, writeEvent, elapsedNs,
    Method.zoom, Method.bind_apply, Method.get_apply, Method.modify_apply, Method.lift_apply]
  cases validateNonNegativeInt "clock_ns" (.int (clock s.recorder.ticks)) with
  | error e => exact ⟨_, rfl⟩
  | ok now =>
    simp only [Method.pure_apply]
    cases AlarmEvent.fromTransition s.recorder.sessionId.text s.recorder.eventIndex (now - s.recorder.startNs) sequence t with
    | error e => exact ⟨_, rfl⟩
    | ok event =>
      by_cases hclosed : s.recorder.closed = true
      · exact ⟨some event, by simp [hclosed]⟩
      · exact ⟨some event, by simp [hclosed, Method.bind_apply]⟩

theorem stepsOf_cons (t : AlarmTransition Float64) (ts : List (AlarmTransition Float64)) :
    stepsOf (t :: ts) = [(t, .build), (t, .write), (t, .advance), (t, .count)] ++ stepsOf ts := List.flatMap_cons ..

theorem runSteps_append (sequence : Int) (xs ys : List (AlarmTransition Float64 × ElementaryStep)) :
    runSteps clock sequence (xs ++ ys) = runSteps clock sequence xs >>= fun _ => runSteps clock sequence ys :=
  Method.forEach_append ..

/-- Run to its end, the sequence of steps is the call. -/
theorem runSteps_stepsOf (clock : ClockNs) (sequence : Int) (ts : List (AlarmTransition Float64)) (s : Pass) : ∃ event,
    runSteps clock sequence (stepsOf ts) s =
      ((writeTransitions clock sequence ts s.recorder).1, ⟨(writeTransitions clock sequence ts s.recorder).2, event⟩) := by
  induction ts generalizing s with
  | nil => exact ⟨s.event, rfl⟩
  | cons t ts ih =>
    obtain ⟨event, hstep⟩ := runSteps_transition clock sequence t s
    rw [stepsOf_cons, runSteps_append, writeTransitions, Method.forEach_cons]
    rcases hwrite : writeTransition clock sequence t s.recorder with ⟨e | u, r⟩
    · rw [hwrite] at hstep
      exact ⟨event, by rw [Method.bind_error hstep, Method.bind_error hwrite]⟩
    · rw [hwrite] at hstep
      obtain ⟨event', hrest⟩ := ih ⟨r, event⟩
      exact ⟨event', by rw [Method.bind_ok hstep, Method.bind_ok hwrite]; exact hrest⟩

theorem length_stepsOf (ts : List (AlarmTransition Float64)) : (stepsOf ts).length = 4 * ts.length := by
  induction ts with
  | nil => rfl
  | cons t ts ih => simp only [stepsOf_cons, List.length_append, ih, List.length_cons, List.length_nil]; omega

theorem interruptedTransitions_length (sequence : Int) (ts : List (AlarmTransition Float64)) :
    interruptedTransitions clock sequence ts (4 * ts.length) = writeTransitions clock sequence ts := by
  funext r
  obtain ⟨event, hrun⟩ := runSteps_stepsOf clock sequence ts ⟨r, none⟩
  rw [interruptedTransitions, ← length_stepsOf, List.take_length, hrun]

/-- The line of `e` is written after the events `es`, the counters do not know of it. -/
structure Behind (clock : ClockNs) (r : AlarmEventRecorder) (es : List AlarmEvent) (e : AlarmEvent) : Prop where
  lines : r.lines = (es ++ [e]).map fun e => e.toDict.line
  started : clock 0 = r.startNs
  index : r.eventIndex ≤ es.length + 1
  statistics : r.statistics = statisticsFromEvents es
  transition : e.eventType.isTransition = true
  isOpen : r.closed = false

theorem Behind.close_rejected {e : AlarmEvent} (h : Behind clock r es e) (hclock : Monotone clock) : ∃ r',
    ∃ events : List AlarmEvent, close clock r = (.ok (), r') ∧ r'.lines = events.map (fun e => e.toDict.line) ∧
      ∀ loads, (∀ e ∈ events, ReadsBack loads e.toDict) → ∀ loaded, loadAlarmEvents loads ⟨r'.lines, none⟩ ≠ .ok loaded := by
  have hlines : r.lines ++ [(summaryEvent clock r).toDict.line] =
      (es ++ [e] ++ [summaryEvent clock r]).map fun e => e.toDict.line := by
    rw [List.map_append, ← h.lines]
    rfl
  refine ⟨_, es ++ [e] ++ [summaryEvent clock r], close_eq h.isOpen h.started hclock, hlines, ?_⟩
  · intro loads hloads loaded hload
    obtain ⟨-, hdecodes, -, hrequire⟩ := loadAlarmEvents_eq_ok.mp hload
    dsimp only at hdecodes
    rw [hlines] at hdecodes
    obtain rfl := hdecodes.unique (decodes_alarmLines hloads)
    -- the loader compares the counters with one transition more
    have hcounters := requireSummary_eq_ok.mp hrequire _ _ rfl rfl
    have hstatistics : r.statistics = statisticsFromEvents (es ++ [e]) := by
      have := congrArg (fun a : Attributes => AlarmRunStatistics.fromAttributes a.toJson) hcounters
      simpa [summaryEvent] using this
    rw [h.statistics, statisticsFromEvents_snoc] at hstatistics
    have htotal := congrArg AlarmRunStatistics.transitionsTotal hstatistics
    have htransition := h.transition
    revert htotal htransition
    rw [AlarmEvent.count]
    cases e.eventType <;> simp [AlarmEventType.isTransition, AlarmRunStatistics.transitionsTotal,
      AlarmRunStatistics.withTransition]

theorem Wrote.tick (h : Wrote clock r es) : Wrote clock { r with ticks := r.ticks + 1 } es :=
  { h with elapsed := fun f hf n hn => h.elapsed f hf n (Nat.le_of_succ_le hn) }

/-- Where an interrupt finds a recorder: in step with its file, or behind it between the second and the last step. -/
theorem Wrote.runSteps_take (h : Wrote clock r es) (hclock : Monotone clock) {sequence : Nat}
    (hsequence : sequence ≤ MAX_PACKET_SEQUENCE) {ts : List (AlarmTransition Float64)} (hts : ∀ t ∈ ts, t.Recordable)
    {k : Nat} (hk : k ≤ 4 * ts.length) (event : Option AlarmEvent) : ∃ s,
      runSteps clock sequence ((stepsOf ts).take k) ⟨r, event⟩ = (.ok (), s) ∧
        (k % 4 ≤ 1 ∧ (∃ es', Wrote clock s.recorder es') ∨ 1 < k % 4 ∧ ∃ es' e, Behind clock s.recorder es' e) := by
  induction ts generalizing r es k event with
  | nil =>
    obtain rfl := Nat.le_zero.mp hk
    exact ⟨_, rfl, .inl ⟨Nat.zero_le 1, es, h⟩⟩
  | cons t ts ih =>
    obtain ⟨e, he, -, -, -, htype, -⟩ := AlarmEvent.fromTransition_ok r.sessionId r.eventIndex
      (clock r.ticks - r.startNs).toNat hsequence t (hts t (List.mem_cons_self ..))
    have hbuild : ElementaryStep.build.run clock sequence t ⟨r, event⟩ =
        (.ok (), ⟨{ r with ticks := r.ticks + 1 }, some e⟩) := by
      rw [ElementaryStep.run, Method.bind_ok (Method.get_apply _), Method.bind_ok (Method.zoom_eq (elapsedNs_ok h.started hclock)),
        Method.bind_ok (Method.lift_eq he _)]
      rfl
    have hwrite : ElementaryStep.write.run clock sequence t ⟨{ r with ticks := r.ticks + 1 }, some e⟩ =
        (.ok (), ⟨{ r with ticks := r.ticks + 1, lines := r.lines ++ [e.toDict.line] }, some e⟩) := by
      rw [ElementaryStep.run, Method.bind_ok (Method.get_apply _), if_neg (by rw [h.isOpen]; decide)]
      rfl
    have hbehind (index : Nat) (hindex : index ≤ es.length + 1) : Behind clock
        { r with ticks := r.ticks + 1, lines := r.lines ++ [e.toDict.line], eventIndex := index } es e := {
      lines := by rw [List.map_append, ← h.lines]; rfl
      started := h.started
      index := hindex
      statistics := h.statistics
      transition := by rw [htype]; exact AlarmEventType.isTransition_ofTransition _
      isOpen := h.isOpen }
    match k with
    | 0 => exact ⟨_, rfl, .inl ⟨Nat.zero_le 1, es, h⟩⟩
    | 1 => exact ⟨_, Method.bind_ok hbuild, .inl ⟨le_rfl, es, h.tick⟩⟩
    | 2 =>
      refine ⟨_, (Method.bind_ok hbuild).trans (Method.bind_ok hwrite), .inr ⟨by decide, es, e, ?_⟩⟩
      exact hbehind r.eventIndex (h.index ▸ Nat.le_succ _)
    | 3 =>
      refine ⟨_, (Method.bind_ok hbuild).trans (Method.bind_ok hwrite), .inr ⟨by decide, es, e, ?_⟩⟩
      exact hbehind (r.eventIndex + 1) (by rw [h.index])
    | k + 4 =>
      obtain ⟨e, r₁, htransition, hwrote, -⟩ := h.writeTransition_ok hclock hsequence (hts t (List.mem_cons_self ..))
      obtain ⟨event', hfour⟩ := runSteps_transition clock sequence t ⟨r, event⟩
      rw [htransition] at hfour
      obtain ⟨s, hrest, hcases⟩ := ih hwrote (fun u hu => hts u (List.mem_cons_of_mem _ hu))
        (show k ≤ 4 * ts.length by rw [List.length_cons] at hk; omega) event'
      have htake : (stepsOf (t :: ts)).take (k + 4) =
          [(t, .build), (t, .write), (t, .advance), (t, .count)] ++ (stepsOf ts).take k := rfl
      refine ⟨s, ?_, by rwa [Nat.add_mod_right]⟩
      rw [htake, runSteps_append, Method.bind_ok hfour, hrest]

/-- Closed after an interrupt, the file is a valid log unless a line was written and not counted. -/
theorem Wrote.interrupted_valid_iff (h : Wrote clock r es) (hclock : Monotone clock) {sequence : Nat}
    (hsequence : sequence ≤ MAX_PACKET_SEQUENCE) {ts : List (AlarmTransition Float64)} (hts : ∀ t ∈ ts, t.Recordable)
    {k : Nat} (hk : k ≤ 4 * ts.length) : ∃ r₁ r', ∃ events : List AlarmEvent,
      interruptedTransitions clock sequence ts k r = (.ok (), r₁) ∧ close clock r₁ = (.ok (), r') ∧
      r'.lines = events.map (fun e => e.toDict.line) ∧ ∀ loads, (∀ e ∈ events, ReadsBack loads e.toDict) →
        ((∃ loaded statistics, loadAlarmEvents loads ⟨r'.lines, none⟩ = .ok loaded ∧
          validateRunSummary loaded = .ok statistics) ↔ k % 4 ≤ 1) := by
  obtain ⟨s, hrun, hcases⟩ := h.runSteps_take hclock hsequence hts hk none
  have hinterrupted : interruptedTransitions clock sequence ts k r = (.ok (), s.recorder) := by
    rw [interruptedTransitions, hrun]
  rcases hcases with ⟨hlt, es', hwrote⟩ | ⟨hlt, es', e, hbehind⟩
  · obtain ⟨summary, r', hclose, hlines, hgrows, hrequire, htype⟩ := hwrote.close_ok hclock
    refine ⟨_, r', es' ++ [summary], hinterrupted, hclose, hlines, fun loads hloads => ⟨fun _ => hlt, fun _ => ?_⟩⟩
    refine ⟨es' ++ [summary], statisticsFromEvents es', ?_, ?_⟩
    · rw [hlines]
      exact loadAlarmEvents_written hloads hgrows hrequire
    · exact validateRunSummary_eq_ok.mpr
        ⟨es', summary, rfl, htype, requireSummary_eq_ok.mp hrequire _ _ rfl htype, rfl⟩
  · obtain ⟨r', events, hclose, hlines, hrejected⟩ := hbehind.close_rejected hclock
    refine ⟨_, r', events, hinterrupted, hclose, hlines, fun loads hloads => ⟨?_, fun hle => absurd hlt (not_lt.mpr hle)⟩⟩
    rintro ⟨loaded, statistics, hload, -⟩
    exact absurd hload (hrejected loads hloads loaded)

end AlarmEventRecorder

namespace GroundStation

/-- `process_packet`, interrupted after `k` steps of `write_transitions`. -/
def interruptedPacket (clock : ClockNs) (raw : Bytes) (k : Nat) : Method PyError GroundStation Unit := do
  let packet ← Method.lift (decodePacket raw)
  print (.packet packet)
  let transitions ← evaluate packet
  onAlarmRecorder (AlarmEventRecorder.interruptedTransitions clock packet.sequence transitions k)

/-- The listen loop, interrupted while it handles the datagram after `ds`; unwinding closes the alarm log. -/
def interruptedListen (clock : ClockNs) (ds : List Received) (d : Received) (k : Nat) : Method PyError GroundStation Unit :=
  Method.tryFinally (do
      Method.forEach (receive clock) ds
      onRecorder (SessionRecorder.write d.raw (.float d.receivedAt.1))
      interruptedPacket clock d.raw k)
    (onAlarmRecorder (AlarmEventRecorder.close clock))

/-- What the listener hands to `write_transitions` for the packet that follows the datagrams `ds`. -/
def pendingTransitions (policy : AlarmPolicy Float64) (ds : List Received) (p : DecodedPacket) :
    List (AlarmTransition Float64) :=
  (((decodedPackets (ds.map Received.raw)).foldl AlarmEngine.advance (.new policy)).evaluate p).1

/-- Up to the interrupt the log is in step with its recorder, and what the interrupt leaves is closed. -/
theorem interruptedListen_eq {clock : ClockNs} (hclock : Monotone clock) {policy : AlarmPolicy Float64}
    {reference : String} {uuid : Bytes} {record : Bool} {s : GroundStation}
    (hopen : opened clock policy reference uuid record true = .ok s) (ds : List Received) {d : Received}
    {p : DecodedPacket} (hp : decodePacket d.raw = .ok p) (k : Nat) : ∃ r es, r.Wrote clock es ∧ ∀ r₁ r',
      AlarmEventRecorder.interruptedTransitions clock p.sequence (pendingTransitions policy ds p) k r = (.ok (), r₁) →
      AlarmEventRecorder.close clock r₁ = (.ok (), r') →
      ∃ s', interruptedListen clock ds d k s = (.ok (), s') ∧ s'.alarmRecorder = some r' := by
  obtain ⟨metadata, -, hopen⟩ := except_bind_eq_ok.mp hopen
  obtain ⟨r₀, hnew, hopen⟩ := except_bind_eq_ok.mp hopen
  obtain ⟨e, hwrote₀, -, -⟩ := AlarmEventRecorder.wrote_of_new hclock hnew
  cases hopen
  have hlogs : Logs clock [e] [] (some r₀) := fun r hr => by
    cases hr
    exact ⟨[], hwrote₀, .nil⟩
  obtain ⟨s₁, hrun, hheard⟩ := forEach_receive
    (s := ⟨.new policy, if record then some .new else none, some r₀, []⟩) hclock hlogs 0 ds
  obtain ⟨r, hr⟩ := Option.isSome_iff_exists.mp hheard.logging
  obtain ⟨es, hwrote, -⟩ := hheard.logs r hr
  refine ⟨r, [e] ++ es, hwrote, fun r₁ r' hinterrupted hclose => ?_⟩
  let s₂ : GroundStation := { s₁ with
    recorder := s₁.recorder.map fun r => ⟨r.lines ++ [(recordJson d.receivedAt d.raw).line]⟩
    terminal := s₁.terminal ++ [.packet p]
    engine := s₁.engine.advance p }
  have htransitions : (s₁.engine.evaluate p).1 = pendingTransitions policy ds p := by
    rw [hheard.engine]
    rfl
  have hpacket (s₀ : GroundStation) : interruptedPacket clock d.raw k s₀ =
      onAlarmRecorder (AlarmEventRecorder.interruptedTransitions clock p.sequence (s₀.engine.evaluate p).1 k)
        { s₀ with terminal := s₀.terminal ++ [.packet p], engine := s₀.engine.advance p } := by
    rw [interruptedPacket, Method.bind_ok (Method.lift_eq hp s₀), Method.bind_ok (print_apply _ s₀)]
    rfl
  have hrecorder (m : Method PyError AlarmEventRecorder Unit) {s : GroundStation} {r r' : AlarmEventRecorder}
      (hr : s.alarmRecorder = some r) (hm : m r = (.ok (), r')) :
      onAlarmRecorder m s = (.ok (), { s with alarmRecorder := some r' }) := by
    rw [onAlarmRecorder, onOptional, hr]
    dsimp only
    rw [hm]
  have hloop := Method.bind_ok (f := fun _ => onRecorder (SessionRecorder.write d.raw (.float d.receivedAt.1)) >>= fun _ =>
    interruptedPacket clock d.raw k) hrun
  rw [Method.bind_ok (onRecorder_write d.raw d.receivedAt s₁), hpacket, htransitions] at hloop
  have hcall := hrecorder _ (show s₂.alarmRecorder = some r from hr) hinterrupted
  refine ⟨{ s₂ with alarmRecorder := some r' }, ?_, rfl⟩
  rw [interruptedListen, Method.tryFinally_ok (hloop.trans hcall), Method.bind_ok (hrecorder _ rfl hclose)]
  rfl

theorem pendingTransitions_recordable {data : Bytes} {p : DecodedPacket} (hp : decodePacket data = .ok p)
    (policy : AlarmPolicy Float64) (ds : List Received) : ∃ n : Nat, p.sequence = n ∧ n ≤ MAX_PACKET_SEQUENCE ∧
      ∀ t ∈ pendingTransitions policy ds p, t.Recordable := by
  have hrange := decodePacket_inRange hp
  obtain ⟨hlo, hhi⟩ : 0 ≤ p.sequence ∧ p.sequence ≤ 0xFFFFFFFF := hrange.sequence
  obtain ⟨n, hn⟩ := Int.eq_ofNat_of_zero_le hlo
  exact ⟨n, hn, by rw [MAX_PACKET_SEQUENCE]; omega, fun t ht => AlarmEngine.recordable_of_mem_evaluate hrange ht⟩

/-- An interrupted listener leaves a valid alarm log exactly when the interrupt does not fall between the writing of a
line and the update of the counters. -/
theorem interruptedListen_valid_iff {clock : ClockNs} (hclock : Monotone clock) {policy : AlarmPolicy Float64}
    {reference : String} {uuid : Bytes} {record : Bool} {s : GroundStation}
    (hopen : opened clock policy reference uuid record true = .ok s) (ds : List Received) {d : Received}
    {p : DecodedPacket} (hp : decodePacket d.raw = .ok p) {k : Nat} (hk : k ≤ 4 * (pendingTransitions policy ds p).length) :
    ∃ s' log, ∃ events : List AlarmEvent, interruptedListen clock ds d k s = (.ok (), s') ∧ s'.alarmRecorder = some log ∧
      log.lines = events.map (fun e => e.toDict.line) ∧ ∀ loads, (∀ e ∈ events, ReadsBack loads e.toDict) →
        ((∃ loaded statistics, loadAlarmEvents loads ⟨log.lines, none⟩ = .ok loaded ∧
          validateRunSummary loaded = .ok statistics) ↔ k % 4 ≤ 1) := by
  obtain ⟨r, es, hwrote, hunwind⟩ := interruptedListen_eq hclock hopen ds hp k
  obtain ⟨n, hn, hsequence, hts⟩ := pendingTransitions_recordable hp policy ds
  obtain ⟨r₁, r', events, hinterrupted, hclose, hlines, hvalid⟩ := hwrote.interrupted_valid_iff hclock hsequence hts hk
  rw [← hn] at hinterrupted
  obtain ⟨s', hlisten, hlog⟩ := hunwind r₁ r' hinterrupted hclose
  exact ⟨s', r', events, hlisten, hlog, hlines, hvalid⟩

/-- The datagram of the packet in safe mode, for tests. -/
def safeDatagram : Received := ⟨encoding AlarmEventRecorder.safePacket.numbered, "127.0.0.1", 40000, zeroTimestamp⟩

theorem decodePacket_safeDatagram : decodePacket safeDatagram.raw = .ok AlarmEventRecorder.safePacket := by decide +kernel

theorem exists_opened : ∃ s, opened (fun _ => 0) DEFAULT_ALARM_POLICY "builtin:standard" [] false true = .ok s := by
  have hstill : Monotone (fun _ => 0 : ClockNs) := fun _ _ _ => le_rfl
  obtain ⟨s, -, hopen, -⟩ := opened_ok hstill le_rfl DEFAULT_ALARM_POLICY (by decide : IsVisible "builtin:standard") []
    false true
  exact ⟨s, hopen⟩

theorem length_pendingTransitions : (pendingTransitions DEFAULT_ALARM_POLICY [] AlarmEventRecorder.safePacket).length = 1 := by
  decide +kernel

/-- The interrupted log of the packet has short lines only. -/
theorem short_interruptedListen {k : Nat} (hk : k = 1 ∨ k = 2) {s s' : GroundStation} {log : AlarmEventRecorder}
    (hopen : opened (fun _ => 0) DEFAULT_ALARM_POLICY "builtin:standard" [] false true = .ok s)
    (hlisten : interruptedListen (fun _ => 0) [] safeDatagram k s = (.ok (), s')) (hlog : s'.alarmRecorder = some log) :
    ∀ line ∈ log.lines, line.utf8ByteSize ≤ maxStrDigits := by
  refine short_of_run ?_ hopen hlisten hlog
  clear hopen hlisten
  rw [opened, AlarmRunMetadata.fromPolicy, alarmPolicyFingerprint_default]
  rcases hk with rfl | rfl <;> decide +kernel

/-- Interrupted before the line of its first alarm is written, the log is valid. -/
theorem interruptedListen_valid_iff_built : ∃ s s' log,
    opened (fun _ => 0) DEFAULT_ALARM_POLICY "builtin:standard" [] false true = .ok s ∧
    interruptedListen (fun _ => 0) [] safeDatagram 1 s = (.ok (), s') ∧ s'.alarmRecorder = some log ∧
    ∃ loaded statistics, loadAlarmEvents Json.loads ⟨log.lines, none⟩ = .ok loaded ∧
      validateRunSummary loaded = .ok statistics := by
  have hstill : Monotone (fun _ => 0 : ClockNs) := fun _ _ _ => le_rfl
  obtain ⟨s, hopen⟩ := exists_opened
  obtain ⟨s', log, events, hlisten, hlog, hlines, hvalid⟩ := interruptedListen_valid_iff hstill hopen []
    decodePacket_safeDatagram (show 1 ≤ _ by rw [length_pendingTransitions]; decide)
  have hreads := Json.readsBack_of_lines AlarmEvent.readable hlines (short_interruptedListen (.inl rfl) hopen hlisten hlog)
  exact ⟨s, s', log, hopen, hlisten, hlog, (hvalid Json.loads hreads).mpr le_rfl⟩

/-- Interrupted after the line of its first alarm is written, the log is rejected although every line reads back. -/
theorem interruptedListen_written : ∃ s s' log, ∃ events : List AlarmEvent,
    opened (fun _ => 0) DEFAULT_ALARM_POLICY "builtin:standard" [] false true = .ok s ∧
    interruptedListen (fun _ => 0) [] safeDatagram 2 s = (.ok (), s') ∧ s'.alarmRecorder = some log ∧
    log.lines = events.map (fun e => e.toDict.line) ∧ (∀ e ∈ events, ReadsBack Json.loads e.toDict) ∧
    ¬∃ loaded statistics, loadAlarmEvents Json.loads ⟨log.lines, none⟩ = .ok loaded ∧
      validateRunSummary loaded = .ok statistics := by
  have hstill : Monotone (fun _ => 0 : ClockNs) := fun _ _ _ => le_rfl
  obtain ⟨s, hopen⟩ := exists_opened
  obtain ⟨r, es, hwrote, hunwind⟩ := interruptedListen_eq hstill hopen [] decodePacket_safeDatagram 2
  obtain ⟨n, hn, hsequence, hts⟩ := pendingTransitions_recordable decodePacket_safeDatagram DEFAULT_ALARM_POLICY []
  obtain ⟨r₁, log, events, hinterrupted, hclose, hlines, hvalid⟩ := hwrote.interrupted_valid_iff hstill hsequence hts
    (show 2 ≤ _ by rw [length_pendingTransitions]; decide)
  rw [← hn] at hinterrupted
  obtain ⟨s', hlisten, hlog⟩ := hunwind r₁ log hinterrupted hclose
  have hreads := Json.readsBack_of_lines AlarmEvent.readable hlines (short_interruptedListen (.inr rfl) hopen hlisten hlog)
  exact ⟨s, s', log, events, hopen, hlisten, hlog, hlines, hreads, fun h => absurd ((hvalid _ hreads).mp h) (by decide)⟩

end GroundStation

end OrbitOps
