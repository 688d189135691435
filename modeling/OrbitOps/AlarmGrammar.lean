import OrbitOps.AlarmLog
import OrbitOps.Py.Growing

/-!
# The grammar of alarm logs

The loader checks each event against a few variables. What it accepts is stated here of the list of
events as a whole (`AlarmStream`): numbered events of one session with a clock, a header, transitions
and at most one summary, whose counters are those of the transitions.
-/

namespace OrbitOps
open Py

/-- The line is the record of an event. -/
def IsAlarmLine (loads : String → Option Json) (line : String) (e : AlarmEvent) : Prop :=
  ∃ payload, loads line = some payload ∧ AlarmEvent.fromDict payload = .ok e

theorem decodeAlarmLine_eq_ok {loads : String → Option Json} {n : Nat} {line : String} {e : AlarmEvent} :
    decodeAlarmLine loads n line = .ok e ↔ IsAlarmLine loads line e := by
  unfold decodeAlarmLine IsAlarmLine
  cases loads line with
  | none => simp
  | some payload => simp [reraise_eq_ok]

/-- A header, transitions, and at most one summary. -/
structure AlarmSections (events transitions summary : List AlarmEvent) (header : AlarmEvent) : Prop where
  events : events = header :: (transitions ++ summary)
  header : header.eventType = .RUN_METADATA
  transitions : ∀ e ∈ transitions, e.eventType.isTransition = true
  summary : summary.length ≤ 1 ∧ ∀ e ∈ summary, e.eventType = .RUN_SUMMARY

/-- An alarm-event stream, complete or interrupted; its summary counts the transitions of each type. -/
structure AlarmStream (events : List AlarmEvent) : Prop where
  indices : events.map AlarmEvent.eventIndex = List.range events.length
  session : ∀ a ∈ events, ∀ b ∈ events, a.sessionId = b.sessionId
  elapsed : events.Pairwise fun a b => a.elapsedNs ≤ b.elapsedNs
  sections : events = [] ∨ ∃ header transitions summary, AlarmSections events transitions summary header
  counters : ∀ init last, events = init ++ [last] → last.eventType = .RUN_SUMMARY → last.attributes.dict.items = [
    ("transitions_cleared", .int (alarmTypeCount .ALARM_CLEARED init)),
    ("transitions_raised", .int (alarmTypeCount .ALARM_RAISED init)),
    ("transitions_total", .int (init.countP fun e => e.eventType.isTransition)),
    ("transitions_updated", .int (alarmTypeCount .ALARM_UPDATED init))]

/-- The total counts every transition once. -/
theorem transitionsTotal_statisticsFromEvents (events : List AlarmEvent) :
    (statisticsFromEvents events).transitionsTotal = events.countP fun e => e.eventType.isTransition := by
  induction events with
  | nil => rfl
  | cons e events ih =>
    simp only [statisticsFromEvents, AlarmRunStatistics.transitionsTotal, alarmTypeCount, List.countP_cons] at ih ⊢
    rw [← ih]
    cases e.eventType <;> simp [AlarmEventType.isTransition] <;> omega

theorem attributes_eq_counters_iff {a : Attributes} {events : List AlarmEvent} :
    a = (statisticsFromEvents events).toAttributes ↔ a.dict.items = [
      ("transitions_cleared", .int (alarmTypeCount .ALARM_CLEARED events)),
      ("transitions_raised", .int (alarmTypeCount .ALARM_RAISED events)),
      ("transitions_total", .int (events.countP fun e => e.eventType.isTransition)),
      ("transitions_updated", .int (alarmTypeCount .ALARM_UPDATED events))] := by
  rw [Attributes.eq_iff_items, AlarmRunStatistics.items_toAttributes, AlarmRunStatistics.toItems,
    transitionsTotal_statisticsFromEvents, statisticsFromEvents]

theorem AlarmEventType.isTransition_iff {t : AlarmEventType} :
    t.isTransition = true ↔ t ≠ .RUN_METADATA ∧ t ≠ .RUN_SUMMARY := by
  cases t <;> simp [isTransition]

/-- The sections of a stream are what its first and its last event may be. -/
theorem alarmSections_iff {events : List AlarmEvent} :
    (events = [] ∨ ∃ header transitions summary, AlarmSections events transitions summary header) ↔
      (∀ e ∈ events.dropLast, e.eventType ≠ .RUN_SUMMARY) ∧ (∀ e ∈ events.head?, e.eventType = .RUN_METADATA) ∧
        ∀ e ∈ events.tail, e.eventType ≠ .RUN_METADATA := by
  constructor
  · rintro (rfl | ⟨header, transitions, summary, rfl, hheader, htransitions, hone, hsummary⟩)
    · simp
    refine ⟨fun e he => ?_, fun e he => ?_, fun e he => ?_⟩
    · rw [← List.cons_append, List.dropLast_append] at he
      have hfront : e ∈ header :: transitions := by
        split_ifs at he with hnil
        · exact List.mem_of_mem_dropLast he
        · have hempty : summary.dropLast = [] :=
            List.eq_nil_of_length_eq_zero (by rw [List.length_dropLast]; omega)
          rw [hempty, List.append_nil] at he
          exact he
      rcases List.mem_cons.mp hfront with rfl | he
      · rw [hheader]
        decide
      · exact (AlarmEventType.isTransition_iff.mp (htransitions e he)).2
    · cases he
      exact hheader
    · rcases List.mem_append.mp he with he | he
      · exact (AlarmEventType.isTransition_iff.mp (htransitions e he)).1
      · rw [hsummary e he]
        decide
  · rintro ⟨hfinal, hheader, htail⟩
    rcases events with - | ⟨header, rest⟩
    · exact .inl rfl
    refine .inr ?_
    have htype := hheader header rfl
    rcases List.eq_nil_or_concat rest with rfl | ⟨init, last, rfl⟩
    · exact ⟨header, [], [], rfl, htype, by simp, by simp⟩
    rw [List.concat_eq_append] at hfinal htail ⊢
    rw [← List.cons_append, List.dropLast_concat] at hfinal
    have hinit : ∀ e ∈ init, e.eventType.isTransition = true := fun e he =>
      AlarmEventType.isTransition_iff.mpr ⟨htail e (List.mem_append_left _ he), hfinal e (List.mem_cons_of_mem _ he)⟩
    by_cases hlast : last.eventType = .RUN_SUMMARY
    · exact ⟨header, init, [last], rfl, htype, hinit, by simp, by simpa using hlast⟩
    · refine ⟨header, init ++ [last], [], by rw [List.append_nil], htype, fun e he => ?_, by simp⟩
      rcases List.mem_append.mp he with he | he
      · exact hinit e he
      · rw [List.mem_singleton.mp he]
        exact AlarmEventType.isTransition_iff.mpr ⟨htail last (by simp), hlast⟩

/-- The checks of the loader and of the summary are those of a stream. -/
theorem alarmStream_iff {events : List AlarmEvent} :
    AlarmStream events ↔ Grows AlarmEvent.Next [] events ∧ requireSummary events = .ok () := by
  have hnext : ∀ acc e, AlarmEvent.Next acc e ↔ e.eventIndex = acc.length ∧ (∀ f ∈ acc.head?, f.sessionId = e.sessionId) ∧
      (∀ f ∈ acc.getLast?, f.elapsedNs ≤ e.elapsedNs) ∧ (∀ f ∈ acc, ¬f.eventType = .RUN_SUMMARY) ∧
      (acc = [] ↔ e.eventType = .RUN_METADATA) :=
    fun acc e => ⟨fun ⟨h1, h2, h3, h4, h5⟩ => ⟨h1, h2, h3, h4, h5⟩, fun ⟨h1, h2, h3, h4, h5⟩ => ⟨h1, h2, h3, h4, h5⟩⟩
  rw [grows_congr hnext, grows_and, grows_and, grows_and, grows_and, grows_index_iff, grows_constant_iff, grows_clock_iff,
    grows_final_iff, grows_header_iff, ← alarmSections_iff, requireSummary_eq_ok]
  simp only [attributes_eq_counters_iff]
  exact ⟨fun ⟨h1, h2, h3, h4, h5⟩ => ⟨⟨h1, h2, h3, h4⟩, h5⟩, fun ⟨⟨h1, h2, h3, h4⟩, h5⟩ => ⟨h1, h2, h3, h4, h5⟩⟩

/-- A stream that is cut is a stream: a summary that is left ended the whole. -/
theorem AlarmStream.take {events : List AlarmEvent} (h : AlarmStream events) (k : Nat) : AlarmStream (events.take k) := by
  obtain ⟨hgrows, hsummary⟩ := alarmStream_iff.mp h
  refine alarmStream_iff.mpr ⟨hgrows.take k, requireSummary_eq_ok.mpr fun init last heq htype => ?_⟩
  obtain ⟨suf, hsuf⟩ := List.take_prefix k events
  rw [heq] at hsuf
  have hfinal := (alarmSections_iff.mp h.sections).1
  rcases List.eq_nil_or_concat suf with rfl | ⟨suf', e, rfl⟩
  · rw [List.append_nil] at hsuf
    exact attributes_eq_counters_iff.mpr (h.counters init last hsuf.symm htype)
  · rw [← hsuf, List.concat_eq_append, ← List.append_assoc, List.dropLast_concat] at hfinal
    exact absurd htype (hfinal last (by simp))

/-- The loader accepts the lines of streams, returns their events, and accepts their prefixes. -/
theorem loadAlarmEvents_grammar (loads : String → Option Json) (lines : List String) :
    (∀ events, loadAlarmEvents loads ⟨lines, none⟩ = .ok events ↔
      List.Forall₂ (IsAlarmLine loads) (contentLines lines) events ∧ AlarmStream events) ∧
    ∀ events, loadAlarmEvents loads ⟨lines, none⟩ = .ok events →
      ∀ k, ∃ j, loadAlarmEvents loads ⟨lines.take k, none⟩ = .ok (events.take j) := by
  have haccepts (lines : List String) (events : List AlarmEvent) : loadAlarmEvents loads ⟨lines, none⟩ = .ok events ↔
      List.Forall₂ (IsAlarmLine loads) (contentLines lines) events ∧ AlarmStream events := by
    have hdecode : ∀ n line e, decodeAlarmLine loads n line = .ok e ↔ IsAlarmLine loads line e :=
      fun _ _ _ => decodeAlarmLine_eq_ok
    rw [loadAlarmEvents_eq_ok, decodes_iff_forall₂ hdecode, alarmStream_iff, and_iff_right rfl]
  refine ⟨haccepts lines, fun events h k => ?_⟩
  obtain ⟨hlines, hstream⟩ := (haccepts lines events).mp h
  obtain ⟨j, hj⟩ := forall₂_contentLines_take hlines k
  exact ⟨j, (haccepts _ _).mpr ⟨hj, hstream.take j⟩⟩

end OrbitOps
