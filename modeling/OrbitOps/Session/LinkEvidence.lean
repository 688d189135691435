import OrbitOps.EventRecords
import OrbitOps.Py.Growing
import OrbitOps.Session.Outcome

/-!
# Link evidence

The rules for link evidence are spread over the event, the loader, the summary validator and the metadata
of a stream, for two schema versions. Together they accept the streams that are stated here of the list of
events as a whole (`LinkStream`), and the metadata is that of a version 2 stream.
-/

namespace OrbitOps.Link
open Py

/-- The line is the record of an event. -/
def IsLinkLine (loads : String → Option Json) (line : String) (e : LinkEvent) : Prop :=
  ∃ payload, loads line = some payload ∧ LinkEvent.fromDict payload = .ok e

theorem decodeLine_eq_ok {loads : String → Option Json} {n : Nat} {line : String} {e : LinkEvent} :
    decodeLine loads n line = .ok e ↔ IsLinkLine loads line e := by
  unfold decodeLine IsLinkLine
  cases loads line with
  | none => simp
  | some payload => simp [reraise_eq_ok]

/-- A link-event stream, complete or interrupted, of one schema version; its summary counts the events of each type
before it. -/
structure LinkStream (events : List LinkEvent) : Prop where
  indices : events.map LinkEvent.eventIndex = List.range events.length
  session : ∀ a ∈ events, ∀ b ∈ events, a.sessionId = b.sessionId
  schema : ∀ a ∈ events, ∀ b ∈ events, a.schemaVersion = b.schemaVersion
  elapsed : events.Pairwise fun a b => a.elapsedNs ≤ b.elapsedNs
  final : ∀ e ∈ events.dropLast, e.eventType ≠ .RUN_SUMMARY
  metadata : ∀ first rest, events = first :: rest → first.schemaVersion = 2 →
    first.eventType = .RUN_METADATA ∧ ∀ e ∈ rest, e.eventType ≠ .RUN_METADATA
  counters : ∀ init last, events = init ++ [last] → last.eventType = .RUN_SUMMARY → last.attributes.dict.items = [
    ("deliveries_forwarded", .int (typeCount .PACKET_FORWARDED init)),
    ("deliveries_scheduled", .int (typeCount .DELIVERY_SCHEDULED init)),
    ("packets_corrupted", .int (typeCount .PACKET_CORRUPTED init)),
    ("packets_delayed", .int (typeCount .PACKET_DELAYED init)),
    ("packets_dropped", .int (typeCount .PACKET_DROPPED init)),
    ("packets_duplicated", .int (typeCount .PACKET_DUPLICATED init)),
    ("packets_received", .int (typeCount .PACKET_RECEIVED init)),
    ("packets_reordered", .int (typeCount .PACKET_REORDERED init))]

theorem attributes_eq_counters_iff {a : Attributes} {events : List LinkEvent} :
    a = (statisticsFromEvents events).toAttributes ↔ a.dict.items = [
      ("deliveries_forwarded", .int (typeCount .PACKET_FORWARDED events)),
      ("deliveries_scheduled", .int (typeCount .DELIVERY_SCHEDULED events)),
      ("packets_corrupted", .int (typeCount .PACKET_CORRUPTED events)),
      ("packets_delayed", .int (typeCount .PACKET_DELAYED events)),
      ("packets_dropped", .int (typeCount .PACKET_DROPPED events)),
      ("packets_duplicated", .int (typeCount .PACKET_DUPLICATED events)),
      ("packets_received", .int (typeCount .PACKET_RECEIVED events)),
      ("packets_reordered", .int (typeCount .PACKET_REORDERED events))] := by
  rw [Attributes.eq_iff_items, LinkStatistics.items_toAttributes, statisticsFromEvents_eq, LinkStatistics.toItems]

/-- Counters are read from exactly the attributes that they are written to. -/
theorem LinkStatistics.fromMapping_eq_ok {a : Attributes} {s : LinkStatistics} :
    fromMapping a = .ok s ↔ a = s.toAttributes := by
  constructor
  · intro h
    have hkeys : hasKeys counterNames a.dict.items = true := by
      by_contra hne
      rw [fromMapping, if_neg hne] at h
      cases h
    have hperm : counterNames.Perm (s.toItems.map Prod.fst) := by
      simp only [counterNames, toItems, List.map_cons, List.map_nil]
      decide
    have hown : hasKeys (s.toItems.map Prod.fst) s.toAttributes.dict.items = true := by
      rw [items_toAttributes]
      rfl
    refine Attributes.eq_of_get (hasKeys_of_perm hperm ▸ hkeys) hown (by simp only [toItems, List.map_cons, List.map_nil]; decide)
      fun k hk => ?_
    obtain ⟨kv, hkv, rfl⟩ := List.mem_map.mp hk
    rw [get_of_fromMapping h kv hkv, get_of_fromMapping (fromMapping_toAttributes s) kv hkv]
  · rintro rfl
    exact fromMapping_toAttributes s

/-- The header of a stream is its only metadata, in version 2. -/
theorem grows_metadata_iff {events : List LinkEvent} (h : ∀ a ∈ events, ∀ b ∈ events, a.schemaVersion = b.schemaVersion) :
    Grows (fun acc e => e.schemaVersion = 2 → (acc = [] ↔ e.eventType = .RUN_METADATA)) [] events ↔
      ∀ first rest, events = first :: rest → first.schemaVersion = 2 →
        first.eventType = .RUN_METADATA ∧ ∀ e ∈ rest, e.eventType ≠ .RUN_METADATA := by
  rcases events with - | ⟨first, rest⟩
  · simp [Grows]
  have hversion : ∀ e ∈ first :: rest, e.schemaVersion = 2 ↔ first.schemaVersion = 2 := fun e he => by
    rw [h e he first (List.mem_cons_self ..)]
  rw [grows_imp_iff hversion, grows_header_iff]
  simp only [List.head?_cons, Option.mem_some_iff, forall_eq', List.tail_cons, List.cons.injEq]
  constructor
  · rintro h _ _ ⟨rfl, rfl⟩ hv
    exact h hv
  · exact fun h => h first rest ⟨rfl, rfl⟩

/-- The checks of the loader and of the summary are those of a stream. -/
theorem linkStream_iff {events : List LinkEvent} : LinkStream events ↔ Grows LinkEvent.Next [] events ∧
    ∀ init last, events = init ++ [last] → last.eventType = .RUN_SUMMARY →
      last.attributes = (statisticsFromEvents init).toAttributes := by
  have hnext : ∀ acc e, LinkEvent.Next acc e ↔ e.eventIndex = acc.length ∧ (∀ f ∈ acc.head?, f.sessionId = e.sessionId) ∧
      (∀ f ∈ acc.head?, f.schemaVersion = e.schemaVersion) ∧ (∀ f ∈ acc.getLast?, f.elapsedNs ≤ e.elapsedNs) ∧
      (∀ f ∈ acc, ¬f.eventType = .RUN_SUMMARY) ∧ (e.schemaVersion = 2 → (acc = [] ↔ e.eventType = .RUN_METADATA)) :=
    fun acc e => ⟨fun ⟨h1, h2, h3, h4, h5, h6⟩ => ⟨h1, h2, h3, h4, h5, h6⟩,
      fun ⟨h1, h2, h3, h4, h5, h6⟩ => ⟨h1, h2, h3, h4, h5, h6⟩⟩
  rw [grows_congr hnext, grows_and, grows_and, grows_and, grows_and, grows_and, grows_index_iff, grows_constant_iff,
    grows_constant_iff, grows_clock_iff, grows_final_iff]
  simp only [attributes_eq_counters_iff]
  constructor
  · exact fun h => ⟨⟨h.indices, h.session, h.schema, h.elapsed, h.final, (grows_metadata_iff h.schema).mpr h.metadata⟩,
      h.counters⟩
  · rintro ⟨⟨hindices, hsession, hschema, helapsed, hfinal, hmetadata⟩, hcounters⟩
    exact ⟨hindices, hsession, hschema, helapsed, hfinal, (grows_metadata_iff hschema).mp hmetadata, hcounters⟩

/-- The metadata of a stream is that of its header, in version 2. -/
theorem runMetadataFromEvents_of_grows {first : LinkEvent} {rest : List LinkEvent}
    (h : Grows LinkEvent.Next [] (first :: rest)) :
    (first.schemaVersion = 1 ∧ runMetadataFromEvents (first :: rest) = .ok none) ∨
      first.schemaVersion = 2 ∧ ∃ m, runMetadataFromEvents (first :: rest) = .ok (some m) ∧
        first.attributes = m.toAttributes := by
  obtain ⟨m, hm⟩ := streamMetadata_of_grows h
  rw [runMetadataFromEvents, hm]
  unfold streamMetadata at hm
  dsimp only at hm
  split_ifs at hm with hversions hone hnone htwo
  · cases hm
    exact .inl ⟨hone, rfl⟩
  · have htype : first.eventType = .RUN_METADATA := not_not.mp fun hne => htwo (.inr hne)
    obtain ⟨hversion, -, m', hattributes⟩ := first.metadata_shape htype
    refine .inr ⟨hversion, m', ?_, hattributes⟩
    rw [hattributes, LinkRunMetadata.fromAttributes_toAttributes] at hm
    cases hm
    rfl

/-- In a stream the summary is refused for its counters only. -/
theorem exists_validateRunSummary_iff {init : List LinkEvent} {last : LinkEvent}
    (h : Grows LinkEvent.Next [] (init ++ [last])) (ht : last.eventType = .RUN_SUMMARY) :
    (∃ s, validateRunSummary (init ++ [last]) = .ok s) ↔ last.attributes = (statisticsFromEvents init).toAttributes := by
  have hother : ¬(init.any fun e => e.eventType = .RUN_SUMMARY) = true := by
    have hlast : LinkEvent.Next init last := (grows_concat.mp h).2
    simp only [List.any_eq_true, decide_eq_true_eq, not_exists, not_and]
    exact hlast.summary
  obtain ⟨m, hm⟩ : ∃ m, streamMetadata (init ++ [last]) = .ok m := by
    rcases hevents : init ++ [last] with - | ⟨first, rest⟩
    · simp at hevents
    · rw [hevents] at h
      exact streamMetadata_of_grows h
  rw [validateRunSummary, List.getLast?_concat, List.dropLast_concat]
  dsimp only
  rw [if_neg (not_not.mpr ht), if_neg hother, hm]
  constructor
  · rintro ⟨s, hs⟩
    obtain ⟨-, -, hs⟩ := except_bind_eq_ok.mp hs
    obtain ⟨recorded, hrecorded, hs⟩ := except_bind_eq_ok.mp hs
    split_ifs at hs with hne
    rw [not_not.mp hne]
    exact LinkStatistics.fromMapping_eq_ok.mp hrecorded
  · intro hattributes
    refine ⟨statisticsFromEvents init, ?_⟩
    simp only [bind, Except.bind, hattributes, LinkStatistics.fromMapping_toAttributes]
    rw [if_neg (not_not.mpr rfl)]
    rfl

end OrbitOps.Link

namespace OrbitOps.Session
open Py

theorem requireLinkSummary_eq_ok {path : EvidencePath} {events : List Link.LinkEvent}
    (h : Grows Link.LinkEvent.Next [] events) : requireLinkSummary (some ⟨path, events⟩) = .ok () ↔
      ∀ init last, events = init ++ [last] → last.eventType = .RUN_SUMMARY →
        last.attributes = (Link.statisticsFromEvents init).toAttributes := by
  rw [requireLinkSummary]
  dsimp only
  rcases List.eq_nil_or_concat events with rfl | ⟨init, last, rfl⟩
  · simp [linkSummaryPresent]
  rw [List.concat_eq_append] at h ⊢
  have hpresent : linkSummaryPresent (init ++ [last]) = true ↔ last.eventType = .RUN_SUMMARY := by
    simp [linkSummaryPresent]
  have hsplit : (∀ init' last', init ++ [last] = init' ++ [last'] → last'.eventType = .RUN_SUMMARY →
      last'.attributes = (Link.statisticsFromEvents init').toAttributes) ↔
      (last.eventType = .RUN_SUMMARY → last.attributes = (Link.statisticsFromEvents init).toAttributes) := by
    refine ⟨fun h => h init last rfl, fun h init' last' heq => ?_⟩
    obtain ⟨rfl, hlast⟩ := List.append_inj' heq rfl
    cases hlast
    exact h
  rw [hsplit]
  by_cases ht : last.eventType = .RUN_SUMMARY
  · rw [if_pos (hpresent.mpr ht), ← Link.exists_validateRunSummary_iff h ht, except_map_eq_ok]
    simp [ht, reraise_eq_ok]
  · rw [if_neg fun hp => ht (hpresent.mp hp)]
    simp [ht]

/-- The metadata of a lane, where it is available: in a version 2 stream that is not empty. -/
theorem linkMetadata_of_linkStream {events : List Link.LinkEvent} (h : Link.LinkStream events) :
    ((∃ m, Link.runMetadataFromEvents events = .ok (some m) ∧ linkMetadata events = .ok m.toAttributes.toJson) ↔
      events ≠ [] ∧ ∀ e ∈ events, e.schemaVersion = 2) ∧
    (¬(events ≠ [] ∧ ∀ e ∈ events, e.schemaVersion = 2) → linkMetadata events = .ok (.obj [])) := by
  rcases events with - | ⟨first, rest⟩
  · exact ⟨iff_of_false (by rintro ⟨m, hm, -⟩; cases hm) (by simp), fun _ => rfl⟩
  have hall : (∀ e ∈ first :: rest, e.schemaVersion = 2) ↔ first.schemaVersion = 2 :=
    ⟨fun hall => hall first (List.mem_cons_self ..), fun hv e he => (h.schema e he first (List.mem_cons_self ..)).trans hv⟩
  simp only [hall, ne_eq, List.cons_ne_nil, not_false_eq_true, true_and, linkMetadata, if_false]
  rcases Link.runMetadataFromEvents_of_grows (Link.linkStream_iff.mp h).1 with ⟨hone, hm⟩ | ⟨htwo, m, hm, -⟩
  · rw [hm]
    refine ⟨iff_of_false ?_ (by omega), fun _ => rfl⟩
    rintro ⟨m, hm, -⟩
    cases hm
  · rw [hm]
    exact ⟨iff_of_true ⟨m, rfl, rfl⟩ htwo, fun hne => absurd htwo hne⟩

/-- Link evidence is accepted exactly when its lines are those of a stream, beside what the other lanes load. -/
theorem loadSessionEvidence_link (loads : String → Option Json) (telemetry alarm : Option EvidenceSource)
    (path : EvidencePath) (lines : List String) :
    (∀ evidence, loadSessionEvidence loads ⟨telemetry, some ⟨path, lines, none⟩, alarm⟩ = .ok evidence ↔
      loadSelected .TELEMETRY telemetry (loadTelemetryRecords loads) = .ok evidence.telemetry ∧
      loadSelected .ALARM alarm (loadAlarmEvents loads) = .ok evidence.alarmEvents ∧
      ∃ events, evidence.linkEvents = some ⟨path, events⟩ ∧
        List.Forall₂ (Link.IsLinkLine loads) (contentLines lines) events ∧ Link.LinkStream events) ∧
    ∀ events, Link.LinkStream events →
      ((∃ m, Link.runMetadataFromEvents events = .ok (some m) ∧ linkMetadata events = .ok m.toAttributes.toJson) ↔
        events ≠ [] ∧ ∀ e ∈ events, e.schemaVersion = 2) ∧
      (¬(events ≠ [] ∧ ∀ e ∈ events, e.schemaVersion = 2) → linkMetadata events = .ok (.obj [])) := by
  refine ⟨fun evidence => ?_, fun events => linkMetadata_of_linkStream⟩
  have hdecode : ∀ n line e, Link.decodeLine loads n line = .ok e ↔ Link.IsLinkLine loads line e :=
    fun _ _ _ => Link.decodeLine_eq_ok
  rw [loadSessionEvidence_eq_ok, and_iff_right (by simp)]
  refine and_congr_right fun _ => and_congr_right fun _ => ?_
  constructor
  · rintro ⟨hload, hsummary⟩
    obtain ⟨hnone, -⟩ | ⟨source, events, hsource, hevents, hloaded⟩ := loadSelected_eq_ok.mp hload
    · cases hnone
    cases hsource
    obtain ⟨-, hlines, hgrows⟩ := Link.loadLinkEvents_eq_ok.mp hevents
    rw [hloaded, requireLinkSummary_eq_ok hgrows] at hsummary
    exact ⟨events, hloaded, (decodes_iff_forall₂ hdecode).mp hlines, Link.linkStream_iff.mpr ⟨hgrows, hsummary⟩⟩
  · rintro ⟨events, hloaded, hlines, hstream⟩
    obtain ⟨hgrows, hcounters⟩ := Link.linkStream_iff.mp hstream
    rw [hloaded, requireLinkSummary_eq_ok hgrows]
    refine ⟨loadSelected_eq_ok.mpr (.inr ⟨_, events, rfl, ?_, rfl⟩), hcounters⟩
    exact Link.loadLinkEvents_eq_ok.mpr ⟨rfl, (decodes_iff_forall₂ hdecode).mpr hlines, hgrows⟩

end OrbitOps.Session
