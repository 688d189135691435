import OrbitOps.Receiver
import OrbitOps.Session.Outcome

/-!
# Inspecting what a listener recorded

The recording and the alarm log of one run of the listener are inspected together: every datagram is
counted as decoded or rejected, and every transition of the engine is an entry of the alarm lane
that is correlated to the record that triggered it.
-/

namespace OrbitOps.Session
open Py GroundStation

/-! ### Records of datagrams -/

/-- The record index and the sequence of each datagram that decodes, the first datagram being record `i`. -/
def decodedFrom : Nat → List Bytes → List (Nat × Int)
  | _, [] => []
  | i, raw :: raws =>
    match decodePacket raw with
    | .error _ => decodedFrom (i + 1) raws
    | .ok p => (i, p.sequence) :: decodedFrom (i + 1) raws

def decodedCount (raws : List Bytes) : Nat := raws.countP fun raw => (decodePacket raw).isOk

def rejectedCount (raws : List Bytes) : Nat := raws.countP fun raw => !(decodePacket raw).isOk

/-- The decoded records of a recording are the datagrams that decode, under their positions. -/
theorem decodedPairs_indexRows (rows : List TelemetryRow) :
    decodedPairs (indexRows rows) = decodedFrom 0 (rows.map TelemetryRow.packet) := by
  have hfrom (i : Nat) : decodedPairs (rows.mapIdx fun j row => ⟨row, i + j⟩) =
      decodedFrom i (rows.map TelemetryRow.packet) := by
    induction rows generalizing i with
    | nil => rfl
    | cons row rows ih =>
      have hrest := ih (i + 1)
      simp only [Nat.add_right_comm i 1] at hrest
      rw [List.mapIdx_cons, List.map_cons, decodedFrom, decodedPairs]
      cases h : decodePacket row.packet with
      | error e =>
        rw [List.filterMap_cons_none (by simp [h, Except.toOption])]
        exact hrest
      | ok p =>
        rw [List.filterMap_cons_some (b := (i, p.sequence)) (by simp [h, Except.toOption])]
        exact congrArg ((i, p.sequence) :: ·) hrest
  have h := hfrom 0
  simp only [Nat.zero_add] at h
  exact h

theorem length_decodedFrom (i : Nat) (raws : List Bytes) : (decodedFrom i raws).length = decodedCount raws := by
  induction raws generalizing i with
  | nil => rfl
  | cons raw raws ih =>
    rw [decodedFrom, decodedCount]
    cases h : decodePacket raw with
    | error e =>
      rw [List.countP_cons_of_neg (by simp [h, Except.isOk, Except.toBool])]
      exact ih (i + 1)
    | ok p =>
      rw [List.countP_cons_of_pos (by simp [h, Except.isOk, Except.toBool]), List.length_cons, ih]
      rfl

theorem length_rejections (records : List RecordedTelemetryRecord) :
    (rejections records).length = rejectedCount (records.map fun r => r.packet) := by
  induction records with
  | nil => rfl
  | cons record records ih =>
    rw [List.map_cons, rejections, rejectedCount]
    cases h : decodePacket record.packet with
    | ok p =>
      rw [List.filterMap_cons_none (by rw [h]), List.countP_cons_of_neg (by simp [h, Except.isOk, Except.toBool])]
      exact ih
    | error e =>
      rw [List.filterMap_cons_some (by rw [h]), List.countP_cons_of_pos (by simp [h, Except.isOk, Except.toBool]),
        List.length_cons]
      exact congrArg (· + 1) ih

/-- The record that triggered a transition is a decoded one with the sequence of its packet. -/
theorem mem_decodedFrom_of_mem_triggered {e : AlarmEngine Float64} {i : Nat} {raws : List Bytes} {x : Triggered}
    (h : x ∈ triggered e i raws) : (x.recordIndex, x.packet.sequence) ∈ decodedFrom i raws := by
  induction raws generalizing e i with
  | nil => cases h
  | cons raw raws ih =>
    rw [triggered] at h
    rw [decodedFrom]
    cases hp : decodePacket raw with
    | error exc =>
      rw [hp] at h
      exact ih h
    | ok p =>
      rw [hp] at h
      rcases List.mem_append.mp h with h | h
      · obtain ⟨t, -, rfl⟩ := List.mem_map.mp h
        exact List.mem_cons_self ..
      · exact List.mem_cons_of_mem _ (ih h)

/-- The packet of a triggered transition has a sequence of 32 bits. -/
theorem sequence_nonneg_of_mem_triggered {e : AlarmEngine Float64} {i : Nat} {raws : List Bytes} {x : Triggered}
    (h : x ∈ triggered e i raws) : 0 ≤ x.packet.sequence := by
  induction raws generalizing e i with
  | nil => cases h
  | cons raw raws ih =>
    rw [triggered] at h
    cases hp : decodePacket raw with
    | error exc =>
      rw [hp] at h
      exact ih h
    | ok p =>
      rw [hp] at h
      rcases List.mem_append.mp h with h | h
      · obtain ⟨t, -, rfl⟩ := List.mem_map.mp h
        exact (decodePacket_inRange hp).sequence.1
      · exact ih h

/-! ### The inspected run -/

/-- The entry of a logged transition: correlated, with the record that triggered it among the candidates. -/
structure Shows (x : Triggered) (entry : TimelineEntry) : Prop where
  kind : entry.kind = .ALARM_TRANSITION
  eventType : entry.eventType = (AlarmEventType.ofTransition x.transition.transition).value
  packetSequence : entry.packetSequence = some x.packet.sequence
  attributes : ∃ h, entry.attributes = (x.transition.recorded h).toAttributes
  correlation : ∃ d, entry.correlation = some d ∧ (d.kind = .EXACT ∨ d.kind = .AMBIGUOUS) ∧
    x.recordIndex ∈ d.candidateRecordIndices

/-- The session of a run: datagrams counted, alarm lane complete, every transition shown in order. -/
structure ShowsRun (policy : AlarmPolicy Float64) (raws : List Bytes) (session : NormalizedSession) : Prop where
  telemetry : ∃ summary ∈ session.sources, summary.source.lane = .TELEMETRY ∧
    summary.counters.dict.get? "packets_decoded" = some (decodedCount raws) ∧
    summary.counters.dict.get? "packets_rejected" = some (rejectedCount raws)
  alarm : ∃ summary ∈ session.sources, summary.source.lane = .ALARM ∧ summary.source.completeness = .COMPLETE
  emitted : (triggered (.new policy) 0 raws).map Triggered.transition =
    (AlarmEngine.new policy).transitions (decodedPackets raws)
  transitions : List.Forall₂ Shows (triggered (.new policy) 0 raws)
    (session.timeline.filter fun entry => entry.lane = .ALARM)

theorem kindOf_of_mem {candidates : List Nat} {i : Nat} (h : i ∈ candidates) :
    kindOf candidates = .EXACT ∨ kindOf candidates = .AMBIGUOUS := by
  have hpos := List.length_pos_of_mem h
  unfold kindOf
  split_ifs <;> simp_all
  omega

/-- The entry of the event that a triggered transition became. -/
theorem shows_of_ofAlarm {raws : List Bytes} {policy : AlarmPolicy Float64} {x : Triggered} {event : AlarmEvent}
    {entry : TimelineEntry} (hx : x ∈ triggered (.new policy) 0 raws) (hlogged : x.LoggedAs event)
    (h : OfAlarm (decodedFrom 0 raws) event entry) : Shows x entry := by
  obtain ⟨htype, hsequence, hrecorded⟩ := hlogged
  obtain ⟨n, d, hn, hdata, hkind, -, hcandidates⟩ := h.data
  obtain rfl := Option.some.inj (hsequence.symm.trans hn)
  have hnat : ((x.packet.sequence.toNat : Nat) : Int) = x.packet.sequence :=
    Int.toNat_of_nonneg (sequence_nonneg_of_mem_triggered hx)
  have hmem : x.recordIndex ∈ indicesOf (decodedFrom 0 raws) (x.packet.sequence.toNat : Nat) := by
    rw [hnat]
    exact List.mem_map.mpr ⟨_, List.mem_filter.mpr ⟨mem_decodedFrom_of_mem_triggered hx, by simp⟩, rfl⟩
  constructor
  · rw [hdata]
    rfl
  · rw [hdata, ← htype]
    rfl
  · rw [hdata, ← hnat]
    rfl
  · rw [h.attributes]
    exact hrecorded
  · refine ⟨d, by rw [hdata]; rfl, ?_, by rw [hcandidates]; exact hmem⟩
    rw [hkind]
    exact kindOf_of_mem hmem

theorem forall₂_comp_of_mem {α β γ : Type} {R : α → β → Prop} {S : β → γ → Prop} {T : α → γ → Prop} {as : List α}
    {bs : List β} {cs : List γ} (h : ∀ a ∈ as, ∀ b c, R a b → S b c → T a c) (hab : List.Forall₂ R as bs)
    (hbc : List.Forall₂ S bs cs) : List.Forall₂ T as cs := by
  induction hab generalizing cs with
  | nil =>
    cases hbc
    exact .nil
  | cons hR _ ih =>
    cases hbc with
    | cons hS hrest =>
      exact .cons (h _ (List.mem_cons_self ..) _ _ hR hS) (ih (fun a ha => h a (List.mem_cons_of_mem _ ha)) hrest)

theorem transitionsOf_logged {header summary : AlarmEvent} {es : List AlarmEvent} {xs : List Triggered}
    (hheader : header.eventType = .RUN_METADATA) (hsummary : summary.eventType = .RUN_SUMMARY)
    (h : List.Forall₂ Triggered.LoggedAs xs es) : transitionsOf (header :: es ++ [summary]) = es := by
  have hes : ∀ e ∈ es, e.eventType.isTransition = true := by
    intro e he
    obtain ⟨x, -, htype, -⟩ := forall_mem_right_of_forall₂ h e he
    rw [htype]
    cases x.transition.transition <;> rfl
  rw [transitionsOf, List.cons_append, List.filter_cons_of_neg (by rw [hheader]; decide), List.filter_append,
    List.filter_eq_self.mpr hes, List.filter_cons_of_neg (by rw [hsummary]; decide), List.filter_nil, List.append_nil]

theorem SessionOutcome.filter_alarm {evidence : LoadedSessionEvidence} {s : NormalizedSession}
    {telemetry : NormalizedLane} {decoded : List (Nat × Int)} {alarm link : NormalizedLane}
    (h : SessionOutcome evidence s telemetry decoded alarm link) :
    (s.timeline.filter fun entry => entry.lane = .ALARM) = alarm.timeline := by
  rw [h.timeline, List.filter_append, List.filter_append, h.alarmLane.wellFormed.filter_eq_self,
    h.telemetryLane.wellFormed.filter_eq_nil (by decide), h.linkLane.wellFormed.filter_eq_nil (by decide),
    List.nil_append, List.append_nil]

theorem get?_of_freezeCounters {counters : List (String × Nat)} {c : Counters} (h : freezeCounters counters = .ok c)
    (hnodup : (counters.map Prod.fst).Nodup) {name : String} {n : Nat} (hn : (name, n) ∈ counters) :
    c.dict.get? name = some n := by
  unfold freezeCounters at h
  split_ifs at h
  cases h
  exact Dict.get?_ofItems hnodup hn

/-- The session of a recording and of the log of the transitions that its datagrams triggered. -/
theorem SessionOutcome.showsRun {policy : AlarmPolicy Float64} {telemetryPath alarmPath : EvidencePath}
    {rows : List TelemetryRow} {header summary : AlarmEvent} {es : List AlarmEvent} {s : NormalizedSession}
    {telemetry : NormalizedLane} {decoded : List (Nat × Int)} {alarm link : NormalizedLane}
    (ho : SessionOutcome ⟨some ⟨telemetryPath, indexRows rows⟩, some ⟨alarmPath, header :: es ++ [summary]⟩, none⟩ s
      telemetry decoded alarm link)
    (hheader : header.eventType = .RUN_METADATA) (hsummary : summary.eventType = .RUN_SUMMARY)
    (hall : List.Forall₂ Triggered.LoggedAs (triggered (.new policy) 0 (rows.map TelemetryRow.packet)) es) :
    ShowsRun policy (rows.map TelemetryRow.packet) s := by
  have hdecoded : decoded = decodedFrom 0 (rows.map TelemetryRow.packet) :=
    ho.telemetryLane.decoded.trans (decodedPairs_indexRows rows)
  have hpackets : (indexRows rows).map (fun r => r.packet) = rows.map TelemetryRow.packet :=
    map_indexRows TelemetryRow.packet rows
  have hcounters := ho.telemetryLane.counters
  have hcomplete := ho.alarmLane.completeness
  have htransitions := ho.alarmLane.timeline
  simp only [recordsOf, Option.map_some, Option.getD_some] at hcounters hcomplete htransitions
  rw [transitionsOf_logged hheader hsummary hall, hdecoded] at htransitions
  have hsummaryPresent : alarmSummaryPresent (header :: es ++ [summary]) = true := by
    rw [alarmSummaryPresent, List.getLast?_concat]
    simp [hsummary]
  rw [hsummaryPresent] at hcomplete
  refine ⟨⟨telemetry.summary, by simp [ho.sources], ho.telemetryLane.wellFormed.source, ?_, ?_⟩,
    ⟨alarm.summary, by simp [ho.sources], ho.alarmLane.wellFormed.source, hcomplete⟩, transition_triggered _ _ _, ?_⟩
  · rw [← length_decodedFrom 0, ← decodedPairs_indexRows]
    exact get?_of_freezeCounters hcounters (nodup_telemetryCounters ..) (by simp [telemetryCounters])
  · rw [← hpackets, ← length_rejections]
    exact get?_of_freezeCounters hcounters (nodup_telemetryCounters ..) (by simp [telemetryCounters])
  · rw [ho.filter_alarm]
    have hshows : ∀ x ∈ triggered (.new policy) 0 (rows.map TelemetryRow.packet), ∀ event entry, x.LoggedAs event →
        OfAlarm (decodedFrom 0 (rows.map TelemetryRow.packet)) event entry → Shows x entry :=
      fun x hx event entry hlogged h => shows_of_ofAlarm hx hlogged h
    exact forall₂_comp_of_mem hshows hall htransitions

/-- The files of a run of the listener are inspected as what happened, whatever was received. -/
theorem inspectSession_of_listen {clock : ClockNs} (hclock : Monotone clock) (hstart : 0 ≤ clock 0)
    (policy : AlarmPolicy Float64) {reference : String} (href : IsVisible reference) (uuid : Bytes) (ds : List Received)
    {telemetryPath alarmPath : EvidencePath} (htelemetry : telemetryPath.Named) (halarm : alarmPath.Named) :
    ∃ s s' alarmLog, ∃ events : List AlarmEvent,
      opened clock policy reference uuid true true = .ok s ∧ listen clock ds s = (.ok (), s') ∧
      s'.recorder = some ⟨recordLines ds⟩ ∧ s'.alarmRecorder = some alarmLog ∧
      alarmLog.lines = events.map (fun e => e.toDict.line) ∧
      ∀ loads : String → Option Json, (∀ d ∈ ds, ReadsBack loads (recordJson d.receivedAt d.raw)) →
        (∀ e ∈ events, ReadsBack loads e.toDict) → ∃ session,
          inspectSession loads ⟨some ⟨telemetryPath, ⟨recordLines ds, none⟩⟩, none,
            some ⟨alarmPath, ⟨alarmLog.lines, none⟩⟩⟩ = .ok session ∧
          ShowsRun policy (ds.map Received.raw) session := by
  obtain ⟨s, s', hopen, hlisten, h⟩ := listen_ok hclock hstart policy href uuid true true ds
  obtain ⟨alarmLog, hlog⟩ := Option.isSome_iff_exists.mp h.logging
  obtain ⟨header, es, summary, hlines, hgrows, hrequire, hsummary, hheader, hall⟩ := h.logged alarmLog hlog
  refine ⟨s, s', alarmLog, header :: es ++ [summary], hopen, hlisten, h.recording, hlog, hlines, ?_⟩
  intro loads hrecords hevents
  let written := ds.map fun d => (d.receivedAt, d.raw)
  have hrecordLines : recordLines ds = written.map fun d => (recordJson d.1 d.2).line := by
    rw [List.map_map]
    rfl
  have hpackets : (writtenRows 0 written).map TelemetryRow.packet = ds.map Received.raw := by
    rw [packet_writtenRows, List.map_map]
    rfl
  have hloadTelemetry : loadTelemetryRecords loads ⟨recordLines ds, none⟩ = .ok (indexRows (writtenRows 0 written)) := by
    rw [hrecordLines]
    exact loadTelemetryRecords_written (List.forall_mem_map.mpr hrecords)
  have hloadAlarms := loadAlarmEvents_written hevents hgrows hrequire
  rw [← hlines] at hloadAlarms
  have hevidence : loadSessionEvidence loads ⟨some ⟨telemetryPath, ⟨recordLines ds, none⟩⟩, none,
      some ⟨alarmPath, ⟨alarmLog.lines, none⟩⟩⟩ = .ok ⟨some ⟨telemetryPath, indexRows (writtenRows 0 written)⟩,
        some ⟨alarmPath, header :: es ++ [summary]⟩, none⟩ :=
    loadSessionEvidence_eq_ok.mpr ⟨(fun h => by cases h.1), loadSelected_eq_ok.mpr (.inr ⟨_, _, rfl, hloadTelemetry, rfl⟩),
      loadSelected_eq_ok.mpr (.inr ⟨_, _, rfl, hloadAlarms, rfl⟩), rfl, rfl⟩
  obtain ⟨hok, houtcome⟩ := normalizeLoadedSession_ok (strict_of_loadSessionEvidence hevidence)
  obtain ⟨session, hsession⟩ := hok.mpr ⟨(fun _ h => by cases h; exact htelemetry.isVisible_sourceName),
    (fun _ h => by cases h; exact halarm.isVisible_sourceName), (fun _ h => by cases h)⟩
  obtain ⟨telemetry, decoded, alarm, link, ho⟩ := houtcome session hsession
  refine ⟨session, except_bind_eq_ok.mpr ⟨_, hevidence, hsession⟩, ?_⟩
  rw [← hpackets] at hall ⊢
  exact ho.showsRun hheader hsummary hall

theorem inspectSession_of_listen_two_datagrams : ∃ s s' alarmLog session,
    opened (fun _ => 0) DEFAULT_ALARM_POLICY "builtin:standard" [] true true = .ok s ∧
      listen (fun _ => 0) (arriving [[], encoding nominalPacket]) s = (.ok (), s') ∧ s'.alarmRecorder = some alarmLog ∧
      inspectSession Json.loads ⟨some ⟨⟨"", "t.jsonl"⟩, ⟨recordLines (arriving [[], encoding nominalPacket]), none⟩⟩, none,
        some ⟨⟨"", "a.jsonl"⟩, ⟨alarmLog.lines, none⟩⟩⟩ = .ok session ∧
      ShowsRun DEFAULT_ALARM_POLICY [[], encoding nominalPacket] session := by
  have hstill : Monotone (fun _ => 0 : ClockNs) := fun _ _ _ => le_rfl
  obtain ⟨s, s', alarmLog, events, hopen, hlisten, -, hlog, hlines, h⟩ :=
    inspectSession_of_listen hstill le_rfl DEFAULT_ALARM_POLICY
      (by decide : IsVisible "builtin:standard") [] (arriving [[], encoding nominalPacket])
      (⟨by decide, by decide⟩ : EvidencePath.Named ⟨"", "t.jsonl"⟩) (⟨by decide, by decide⟩ : EvidencePath.Named ⟨"", "a.jsonl"⟩)
  have hshort : ∀ line ∈ alarmLog.lines, line.utf8ByteSize ≤ maxStrDigits := by
    refine short_of_run ?_ hopen hlisten hlog
    rw [opened, AlarmRunMetadata.fromPolicy, alarmPolicyFingerprint_default]
    decide +kernel
  obtain ⟨session, hsession, hshows⟩ := h Json.loads (fun d _ => readsBack_recordJson _ _)
    (Json.readsBack_of_lines AlarmEvent.readable hlines hshort)
  exact ⟨s, s', alarmLog, session, hopen, hlisten, hlog, hsession, hshows⟩

end OrbitOps.Session
