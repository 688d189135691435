import OrbitOps.ReadBack
import OrbitOps.Session.Document

/-!
# The text of the JSON report

The text of a report that `json.dumps` can write is read back by `json.loads` as its document with
sorted keys, and it determines the document: reports with the same text show the same sources, entries,
diagnostics and counts.
-/

namespace OrbitOps.Session
open Py

/-! ### Reading the report back -/

theorem readable_optionalJson {α : Type} {toJson : α → Json} {a : Option α} (h : ∀ x ∈ a, (toJson x).Readable) :
    (optionalJson toJson a).Readable := by
  cases a with
  | none => exact Json.readable_null
  | some x => exact h x rfl

theorem readable_natsJson (ns : List Nat) : (natsJson ns).Readable := by
  refine .arr fun v hv => ?_
  obtain ⟨n, -, rfl⟩ := List.mem_map.mp hv
  exact Json.readable_int n

/-- An object of counts with distinct names. -/
theorem readable_counts {l : List (String × Nat)} (h : (l.map Prod.fst).Nodup) :
    (Json.obj (l.map fun kv => (kv.1, .int kv.2))).Readable := by
  refine .obj (by rwa [List.map_map]) fun kv hkv => ?_
  obtain ⟨item, -, rfl⟩ := List.mem_map.mp hkv
  exact Json.readable_int item.2

theorem readable_sourceDocument (summary : LaneSummary) : (sourceDocument summary).toJson.Readable :=
  Json.readable_record ["completeness", "counters", "lane", "metadata", "record_count", "schema_version", "session_id",
    "source_name", "summary_present"] rfl (by decide)
    ⟨Json.readable_str _, readable_counts summary.counters.dict.nodup_keys, Json.readable_str _, summary.metadata.readable,
      Json.readable_int _, readable_optionalJson fun _ _ => Json.readable_int _, readable_optionalJson fun _ _ => Json.readable_str _,
      Json.readable_str _, Json.readable_bool _⟩

theorem readable_diagnosticDocument (diagnostic : Diagnostic) : (diagnosticDocument diagnostic).toJson.Readable :=
  Json.readable_record ["code", "lane", "message", "related_lane", "related_source_indices", "severity", "source_index"] rfl
    (by decide)
    ⟨Json.readable_str _, readable_optionalJson fun _ _ => Json.readable_str _, Json.readable_str _,
      readable_optionalJson fun _ _ => Json.readable_str _, readable_natsJson _, Json.readable_str _,
      readable_optionalJson fun _ _ => Json.readable_int _⟩

theorem readable_correlationDocument (d : ReportCorrelationDocument) : d.toJson.Readable :=
  Json.readable_record ["basis", "candidate_record_indices", "kind"] rfl (by decide)
    ⟨Json.readable_str _, readable_natsJson _, Json.readable_str _⟩

theorem readable_timelineDocument (entry : TimelineEntry) : (timelineDocument entry).toJson.Readable :=
  Json.readable_record ["attributes", "correlation", "elapsed_ns", "event_type", "kind", "lane", "packet_index",
    "packet_sequence", "received_at", "source_index", "telemetry_timestamp_ms"] rfl (by decide)
    ⟨entry.attributes.readable, readable_optionalJson fun d _ => readable_correlationDocument d,
      readable_optionalJson fun _ _ => Json.readable_int _, Json.readable_str _, Json.readable_str _, Json.readable_str _,
      readable_optionalJson fun _ _ => Json.readable_int _, readable_optionalJson fun _ _ => Json.readable_int _,
      readable_optionalJson fun x hx => Json.readable_finite (v := .float x) (entry.valid.receivedAt x hx).1,
      Json.readable_int _, readable_optionalJson fun _ _ => Json.readable_int _⟩

theorem readable_arr {α : Type} {toJson : α → Json} (h : ∀ a, (toJson a).Readable) (as : List α) :
    (Json.arr (as.map toJson)).Readable := by
  refine .arr fun v hv => ?_
  obtain ⟨a, -, rfl⟩ := List.mem_map.mp hv
  exact h a

theorem nodup_diagnosticCounts (diagnostics : List Diagnostic) : ((diagnosticCounts diagnostics).map Prod.fst).Nodup := by
  rw [diagnosticCounts, List.map_map]
  exact (by decide : (["info", "warning", "error"] : List String).Nodup)

theorem readable_sessionReportDocument (r : SessionReport) : (sessionReportDocument r).toJson.Readable := by
  have hmetadata : (sessionReportDocument r).metadata.toJson.Readable :=
    Json.readable_record ["cross_stream_provenance_verified", "evidence_bundle", "report_format", "report_format_version"] rfl
      (by decide) ⟨Json.readable_bool _, Json.readable_str _, Json.readable_str _, Json.readable_int _⟩
  have hselection : (sessionReportDocument r).selection.toJson.Readable :=
    Json.readable_record ["filters", "timeline_entries_matched", "timeline_entries_rendered", "timeline_entries_total",
      "timeline_truncated"] rfl (by decide)
      ⟨readable_scalarObj r.filters.dict.nodup_keys fun kv hkv => (r.filters.valid kv hkv).finite, Json.readable_int _,
        Json.readable_int _, Json.readable_int _, Json.readable_bool _⟩
  have hsummary : (sessionReportDocument r).summary.toJson.Readable :=
    Json.readable_record ["complete", "compatible", "diagnostic_counts", "diagnostics_total", "incomplete_sources",
      "source_count", "timeline_entries_rendered", "timeline_entries_total"] rfl (by decide)
      ⟨Json.readable_bool _, Json.readable_bool _, readable_counts (nodup_diagnosticCounts r.diagnostics), Json.readable_int _,
        Json.readable_int _, Json.readable_int _, Json.readable_int _, Json.readable_int _⟩
  refine Json.readable_record ["diagnostics", "metadata", "selection", "sources", "summary", "timeline"] rfl (by decide)
    ⟨?_, hmetadata, hselection, ?_, hsummary, ?_⟩
  · simp only [sessionReportDocument, List.map_map]
    exact readable_arr readable_diagnosticDocument r.diagnostics
  · simp only [sessionReportDocument, List.map_map]
    exact readable_arr readable_sourceDocument r.session.sources
  · simp only [sessionReportDocument, List.map_map]
    exact readable_arr readable_timelineDocument r.timeline

/-! ### The text determines the document -/

/-- Encodings whose values are told apart when their keys are sorted. -/
def Distinguishes {α : Type} (toJson : α → Json) : Prop := ∀ a b, (toJson a).sortKeys = (toJson b).sortKeys → a = b

theorem Distinguishes.optionalJson {α : Type} {toJson : α → Json} (h : Distinguishes toJson)
    (hnull : ∀ a, (toJson a).sortKeys ≠ .null) : Distinguishes (optionalJson toJson) := by
  intro a b hab
  cases a with
  | none =>
    cases b with
    | none => rfl
    | some b => exact absurd hab.symm (hnull b)
  | some a =>
    cases b with
    | none => exact absurd hab (hnull a)
    | some b => exact congrArg some (h a b hab)

theorem Distinguishes.list {α : Type} {toJson : α → Json} (h : Distinguishes toJson) :
    Distinguishes fun as : List α => .arr (as.map toJson) := by
  intro as bs hab
  rw [Json.sortKeys, Json.sortKeys, Json.arr.injEq, Json.sortKeysList_eq_map, Json.sortKeysList_eq_map, List.map_map,
    List.map_map] at hab
  exact List.map_injective_iff.mpr (fun a b heq => h a b heq) hab

theorem distinguishes_str : Distinguishes Json.str := fun _ _ h => Json.str.inj h

theorem distinguishes_int : Distinguishes Json.int := fun _ _ h => Json.int.inj h

theorem distinguishes_float : Distinguishes Json.float := fun _ _ h => Json.float.inj h

theorem distinguishes_nat : Distinguishes fun n : Nat => .int n := fun _ _ h => Int.natCast_inj.mp (Json.int.inj h)

theorem distinguishes_text : Distinguishes (optionalJson Json.str) := distinguishes_str.optionalJson fun _ => nofun

theorem distinguishes_number : Distinguishes (optionalJson Json.int) := distinguishes_int.optionalJson fun _ => nofun

theorem distinguishes_count : Distinguishes (optionalJson fun n : Nat => .int n) :=
  distinguishes_nat.optionalJson fun _ => nofun

theorem natsJson_eq (ns : List Nat) : natsJson ns = .arr (ns.map fun n : Nat => .int n) := by
  have hcast : (do let n ← ns; pure (n : Int)) = ns.map fun n : Nat => (n : Int) := List.map_eq_flatMap.symm
  rw [natsJson, hcast, List.map_map]
  rfl

theorem distinguishes_natsJson : Distinguishes natsJson := by
  intro ns ms h
  rw [natsJson_eq, natsJson_eq] at h
  exact distinguishes_nat.list ns ms h

/-- The items of dictionaries. -/
theorem items_eq_of_sortKeys {α : Type} {d d' : Dict α} {toJson : α → Json} (hvalue : Distinguishes toJson)
    (h : (Json.obj (d.items.map fun kv => (kv.1, toJson kv.2))).sortKeys =
      (Json.obj (d'.items.map fun kv => (kv.1, toJson kv.2))).sortKeys) : d.items = d'.items := by
  have hsort (d : Dict α) : sortItems d.items = d.items :=
    List.Pairwise.insertionSort_eq (d.sorted.imp fun h => h.le)
  rw [Json.sortKeys_obj_eq, Json.sortKeys_obj_eq, Json.sortItems_map, Json.sortItems_map, hsort, hsort, Json.obj.injEq,
    List.map_map, List.map_map] at h
  refine List.map_injective_iff.mpr (fun a b heq => ?_) h
  obtain ⟨hkey, hval⟩ := Prod.mk.inj heq
  exact Prod.ext hkey (hvalue _ _ hval)

theorem distinguishes_scalar : Distinguishes Scalar.toJson := by
  intro a b h
  rw [Json.sortKeys_toJson, Json.sortKeys_toJson] at h
  exact toJson_injective h

theorem sourceDocument_eq_of_sortKeys {s s' : LaneSummary}
    (h : (sourceDocument s).toJson.sortKeys = (sourceDocument s').toJson.sortKeys) : sourceDocument s = sourceDocument s' := by
  have hvalues := Json.values_eq_of_sortKeys ["completeness", "counters", "lane", "metadata", "record_count",
    "schema_version", "session_id", "source_name", "summary_present"] rfl rfl (by decide) h
  simp only [List.map_cons, List.map_nil, List.cons.injEq, and_true] at hvalues
  obtain ⟨hcompleteness, hcounters, hlane, hmetadata, hrecords, hversion, hsession, hname, hsummary⟩ := hvalues
  rw [ReportSourceDocument.mk.injEq]
  exact ⟨distinguishes_str _ _ hcompleteness, items_eq_of_sortKeys distinguishes_nat hcounters,
    distinguishes_str _ _ hlane, items_eq_of_sortKeys distinguishes_scalar hmetadata, distinguishes_nat _ _ hrecords,
    distinguishes_count _ _ hversion, distinguishes_text _ _ hsession, distinguishes_str _ _ hname, Json.bool.inj hsummary⟩

theorem distinguishes_diagnostic : Distinguishes ReportDiagnosticDocument.toJson := by
  intro d d' h
  have hvalues := Json.values_eq_of_sortKeys ["code", "lane", "message", "related_lane", "related_source_indices",
    "severity", "source_index"] rfl rfl (by decide) h
  simp only [List.map_cons, List.map_nil, List.cons.injEq, and_true] at hvalues
  obtain ⟨hcode, hlane, hmessage, hrelated, hindices, hseverity, hindex⟩ := hvalues
  rw [ReportDiagnosticDocument.mk.injEq]
  exact ⟨distinguishes_str _ _ hcode, distinguishes_text _ _ hlane, distinguishes_str _ _ hmessage,
    distinguishes_text _ _ hrelated, distinguishes_natsJson _ _ hindices, distinguishes_str _ _ hseverity,
    distinguishes_count _ _ hindex⟩

theorem distinguishes_correlation : Distinguishes ReportCorrelationDocument.toJson := by
  intro d d' h
  have hvalues := Json.values_eq_of_sortKeys ["basis", "candidate_record_indices", "kind"] rfl rfl (by decide) h
  simp only [List.map_cons, List.map_nil, List.cons.injEq, and_true] at hvalues
  obtain ⟨hbasis, hindices, hkind⟩ := hvalues
  rw [ReportCorrelationDocument.mk.injEq]
  exact ⟨distinguishes_str _ _ hbasis, distinguishes_natsJson _ _ hindices, distinguishes_str _ _ hkind⟩

theorem timelineDocument_eq_of_sortKeys {e e' : TimelineEntry}
    (h : (timelineDocument e).toJson.sortKeys = (timelineDocument e').toJson.sortKeys) :
    timelineDocument e = timelineDocument e' := by
  have hvalues := Json.values_eq_of_sortKeys ["attributes", "correlation", "elapsed_ns", "event_type", "kind", "lane",
    "packet_index", "packet_sequence", "received_at", "source_index", "telemetry_timestamp_ms"] rfl rfl (by decide) h
  simp only [List.map_cons, List.map_nil, List.cons.injEq, and_true] at hvalues
  obtain ⟨hattributes, hcorrelation, helapsed, htype, hkind, hlane, hpacket, hsequence, hreceived, hindex, htime⟩ := hvalues
  rw [ReportTimelineDocument.mk.injEq]
  exact ⟨items_eq_of_sortKeys distinguishes_scalar hattributes,
    distinguishes_correlation.optionalJson (fun _ => nofun) _ _ hcorrelation, distinguishes_number _ _ helapsed,
    distinguishes_str _ _ htype, distinguishes_str _ _ hkind, distinguishes_str _ _ hlane, distinguishes_number _ _ hpacket,
    distinguishes_number _ _ hsequence, distinguishes_float.optionalJson (fun _ => nofun) _ _ hreceived,
    distinguishes_nat _ _ hindex, distinguishes_number _ _ htime⟩

/-- Documents of lists of things of which each is determined by its JSON value. -/
theorem map_document_eq {α β : Type} {document : α → β} {toJson : β → Json}
    (h : ∀ a b, (toJson (document a)).sortKeys = (toJson (document b)).sortKeys → document a = document b)
    {as bs : List α} (hab : (Json.arr ((as.map document).map toJson)).sortKeys =
      (Json.arr ((bs.map document).map toJson)).sortKeys) : as.map document = bs.map document := by
  rw [Json.sortKeys, Json.sortKeys, Json.arr.injEq, Json.sortKeysList_eq_map, Json.sortKeysList_eq_map] at hab
  induction as generalizing bs with
  | nil =>
    cases bs with
    | nil => rfl
    | cons b bs => cases hab
  | cons a as ih =>
    cases bs with
    | nil => cases hab
    | cons b bs =>
      simp only [List.map_cons, List.cons.injEq] at hab ⊢
      exact ⟨h a b hab.1, ih hab.2⟩

theorem selection_eq_of_sortKeys {r r' : SessionReport} (h : (sessionReportDocument r).selection.toJson.sortKeys =
    (sessionReportDocument r').selection.toJson.sortKeys) :
    (sessionReportDocument r).selection = (sessionReportDocument r').selection := by
  have hvalues := Json.values_eq_of_sortKeys ["filters", "timeline_entries_matched", "timeline_entries_rendered",
    "timeline_entries_total", "timeline_truncated"] rfl rfl (by decide) h
  simp only [List.map_cons, List.map_nil, List.cons.injEq, and_true] at hvalues
  obtain ⟨hfilters, hmatched, hrendered, htotal, htruncated⟩ := hvalues
  rw [ReportSelectionDocument.mk.injEq]
  exact ⟨items_eq_of_sortKeys distinguishes_scalar hfilters, distinguishes_nat _ _ hmatched,
    distinguishes_nat _ _ hrendered, distinguishes_nat _ _ htotal, Json.bool.inj htruncated⟩

theorem diagnosticCounts_eq_of_sortKeys {ds ds' : List Diagnostic}
    (h : (Json.obj ((diagnosticCounts ds).map fun kv => (kv.1, .int kv.2))).sortKeys =
      (Json.obj ((diagnosticCounts ds').map fun kv => (kv.1, .int kv.2))).sortKeys) :
    diagnosticCounts ds = diagnosticCounts ds' := by
  have hvalues := Json.values_eq_of_sortKeys ["info", "warning", "error"] rfl rfl (by decide) h
  simp only [diagnosticCounts, List.map_cons, List.map_nil, List.cons.injEq, and_true] at hvalues ⊢
  obtain ⟨hinfo, hwarning, herror⟩ := hvalues
  rw [distinguishes_nat _ _ hinfo, distinguishes_nat _ _ hwarning, distinguishes_nat _ _ herror]
  exact ⟨rfl, rfl, rfl⟩

theorem summary_eq_of_sortKeys {r r' : SessionReport} (h : (sessionReportDocument r).summary.toJson.sortKeys =
    (sessionReportDocument r').summary.toJson.sortKeys) :
    (sessionReportDocument r).summary = (sessionReportDocument r').summary := by
  have hvalues := Json.values_eq_of_sortKeys ["complete", "compatible", "diagnostic_counts", "diagnostics_total",
    "incomplete_sources", "source_count", "timeline_entries_rendered", "timeline_entries_total"] rfl rfl (by decide) h
  simp only [List.map_cons, List.map_nil, List.cons.injEq, and_true] at hvalues
  obtain ⟨hcomplete, hcompatible, hcounts, hdiagnostics, hincomplete, hsources, hrendered, htotal⟩ := hvalues
  rw [ReportSummaryDocument.mk.injEq]
  exact ⟨Json.bool.inj hcomplete, Json.bool.inj hcompatible, diagnosticCounts_eq_of_sortKeys hcounts,
    distinguishes_nat _ _ hdiagnostics, distinguishes_nat _ _ hincomplete, distinguishes_nat _ _ hsources,
    distinguishes_nat _ _ hrendered, distinguishes_nat _ _ htotal⟩

theorem sessionReportDocument_eq_of_sortKeys {r r' : SessionReport}
    (h : (sessionReportDocument r).toJson.sortKeys = (sessionReportDocument r').toJson.sortKeys) :
    sessionReportDocument r = sessionReportDocument r' := by
  have hvalues := Json.values_eq_of_sortKeys ["diagnostics", "metadata", "selection", "sources", "summary", "timeline"] rfl
    rfl (by decide) h
  simp only [List.map_cons, List.map_nil, List.cons.injEq, and_true] at hvalues
  obtain ⟨hdiagnostics, -, hselection, hsources, hsummary, htimeline⟩ := hvalues
  rw [SessionReportDocument.mk.injEq]
  exact ⟨map_document_eq (fun _ _ => distinguishes_diagnostic _ _) hdiagnostics, rfl, selection_eq_of_sortKeys hselection,
    map_document_eq (fun _ _ => sourceDocument_eq_of_sortKeys) hsources, summary_eq_of_sortKeys hsummary,
    map_document_eq (fun _ _ => timelineDocument_eq_of_sortKeys) htimeline⟩

/-- The JSON report is read back as its document, and it is the text of one document only. -/
theorem renderSessionReportJson_faithful {r : SessionReport} (hr : (sessionReportDocument r).toJson.Writable) :
    Json.loads (renderSessionReportJson r) = some (sessionReportDocument r).toJson.sortKeys ∧
      ∀ r', (sessionReportDocument r').toJson.Writable →
        (renderSessionReportJson r' = renderSessionReportJson r ↔ sessionReportDocument r' = sessionReportDocument r) := by
  have hread {r : SessionReport} (hr : (sessionReportDocument r).toJson.Writable) :
      Json.loads (renderSessionReportJson r) = some (sessionReportDocument r).toJson.sortKeys :=
    (readable_sessionReportDocument r).loads_pretty hr
  refine ⟨hread hr, fun r' hr' => ⟨fun h => ?_, fun h => ?_⟩⟩
  · refine sessionReportDocument_eq_of_sortKeys (Option.some.inj ?_)
    rw [← hread hr, ← hread hr', h]
  · rw [renderSessionReportJson, renderSessionReportJson, h]

theorem renderSessionReportJson_faithful_skipping : ∃ session report,
    inspectSession Json.loads skippingSelected = .ok session ∧
      projectSessionReport session .null .null .null .null .null = .ok report ∧
      report.timeline.length = 5 ∧
      Json.loads (renderSessionReportJson report) = some (sessionReportDocument report).toJson.sortKeys := by
  have hok : (normalizeLoadedSession skippingEvidence >>= fun session =>
      projectSessionReport session .null .null .null .null .null >>= fun report =>
        if ¬(report.timeline.length = 5 ∧ (sessionReportDocument report).toJson.Writable)
        then .error (valueError "") else .ok report).isOk = true := by decide +kernel
  obtain ⟨r, h⟩ := exists_of_isOk hok
  obtain ⟨session, hsession, h⟩ := except_bind_eq_ok.mp h
  obtain ⟨report, hreport, h⟩ := except_bind_eq_ok.mp h
  obtain ⟨hnot, -⟩ := except_guard_eq_ok.mp h
  obtain ⟨hlength, hwritable⟩ := not_not.mp hnot
  have hinspect : inspectSession Json.loads skippingSelected = .ok session :=
    except_bind_eq_ok.mpr ⟨_, loadSessionEvidence_skipping, hsession⟩
  exact ⟨session, report, hinspect, hreport, hlength, (renderSessionReportJson_faithful hwritable).1⟩

end OrbitOps.Session
