import OrbitOps.Session.Projection

/-!
# One presentation

The sort key of a diagnostic tells any two apart: lanes, positions and related lanes are folded into
ranks that no present value shares with an absent one. Entries are told apart by their lane and position.
So the sorted copies that a session and a report hold do not depend on the order in which they were
collected, and their order checks pass one arrangement only.
-/

namespace OrbitOps.Session
open Py

/-! ### Sort keys -/

theorem EvidenceLane.rank_injective : Function.Injective EvidenceLane.rank := fun a _ h =>
  (List.idxOf_inj (NormalizedSession.mem_lanePrecedence a)).mp h

theorem DiagnosticSeverity.rank_injective : Function.Injective DiagnosticSeverity.rank := by
  intro a b h
  cases a <;> cases b <;> first | rfl | cases h

theorem DiagnosticCode.value_injective : Function.Injective DiagnosticCode.value := by
  intro a b h
  have hmem : ∀ c : DiagnosticCode, c ∈ [SOURCE_EMPTY, SOURCE_NOT_PROVIDED, SOURCE_INCOMPLETE, SOURCE_SUMMARY_MISSING,
      TELEMETRY_PACKET_REJECTED, TELEMETRY_SEQUENCE_GAP, TELEMETRY_SEQUENCE_DUPLICATE, ALARM_CORRELATION_AMBIGUOUS,
      ALARM_CORRELATION_IMPOSSIBLE, LINK_CORRUPTION_OBSERVED, METADATA_MISMATCH, TIMELINE_TRUNCATED] := by
    intro c
    cases c <;> simp
  exact List.inj_on_of_nodup_map (f := DiagnosticCode.value) (by decide) (hmem a) (hmem b) h

/-- No lane has the rank of its absence. -/
theorem Diagnostic.laneRank_injective : Function.Injective Diagnostic.laneRank := by
  have hlt (lane : EvidenceLane) : lane.rank < LANE_PRECEDENCE.length :=
    List.idxOf_lt_length_iff.mpr (NormalizedSession.mem_lanePrecedence lane)
  rintro (- | a) (- | b) h
  · rfl
  · exact absurd h (hlt b).ne'
  · exact absurd h (hlt a).ne
  · exact congrArg some (EvidenceLane.rank_injective h)

/-- No position has the rank of its absence. -/
theorem Diagnostic.sourceRank_injective : Function.Injective fun i : Option Nat => match i with
    | none => (-1 : Int)
    | some i => i := by
  rintro (- | a) (- | b) h
  · rfl
  · dsimp only at h
    omega
  · dsimp only at h
    omega
  · exact congrArg some (Int.ofNat_inj.mp h)

/-- The sort key of a diagnostic tells any two apart. -/
theorem Diagnostic.sortKey_injective : Function.Injective Diagnostic.sortKey := by
  intro d d' h
  simp only [sortKey, EmbeddingLike.apply_eq_iff_eq, Prod.mk.injEq] at h
  obtain ⟨hlane, hindex, hseverity, hcode, hrelated, hindices, hmessage⟩ := h
  replace hlane := laneRank_injective hlane
  replace hindex : d.sourceIndex = d'.sourceIndex := sourceRank_injective hindex
  replace hseverity := DiagnosticSeverity.rank_injective hseverity
  replace hcode := DiagnosticCode.value_injective hcode
  replace hrelated := laneRank_injective hrelated
  rcases d with ⟨⟨code, severity, message, lane, index, related, indices⟩, hvalid⟩
  rcases d' with ⟨⟨code', severity', message', lane', index', related', indices'⟩, hvalid'⟩
  dsimp only at hlane hindex hseverity hcode hrelated hindices hmessage
  subst hlane hindex hseverity hcode hrelated hindices hmessage
  rfl

theorem TimelineEntry.sortKey_eq_iff {e e' : TimelineEntry} : e.sortKey = e'.sortKey ↔ e.key = e'.key := by
  simp only [sortKey, presentationKey, key, EmbeddingLike.apply_eq_iff_eq, Prod.mk.injEq, EvidenceLane.rank_injective.eq_iff]

/-- Entries of different keys are told apart by their sort keys. -/
theorem TimelineEntry.eq_of_sortKey {es : List TimelineEntry} (h : (es.map TimelineEntry.key).Nodup) :
    ∀ a ∈ es, ∀ b ∈ es, a.sortKey = b.sortKey → a = b :=
  fun _ ha _ hb hkey => List.inj_on_of_nodup_map h ha hb (sortKey_eq_iff.mp hkey)

theorem sortedBy_diagnostics_of_perm {ds ds' : List Diagnostic} (h : ds.Perm ds') :
    sortedBy Diagnostic.sortKey ds = sortedBy Diagnostic.sortKey ds' :=
  sortedBy_eq_of_perm (fun _ _ _ _ hkey => Diagnostic.sortKey_injective hkey) h

theorem sortedBy_timeline_of_perm {es es' : List TimelineEntry} (hkeys : (es.map TimelineEntry.key).Nodup)
    (h : es.Perm es') : sortedBy TimelineEntry.sortKey es = sortedBy TimelineEntry.sortKey es' :=
  sortedBy_eq_of_perm (TimelineEntry.eq_of_sortKey hkeys) h

/-! ### Sessions and reports -/

/-- An arrangement of entries and one of diagnostics. -/
abbrev Arrangement := List TimelineEntry × List Diagnostic

/-- The same entries and diagnostics. -/
def Arrangement.Of (p : Arrangement) (es : List TimelineEntry) (ds : List Diagnostic) : Prop :=
  p.1.Perm es ∧ p.2.Perm ds

theorem NormalizedSession.new_eq_ok {sources : List LaneSummary} {timeline : List TimelineEntry}
    {diagnostics : List Diagnostic} (hlanes : sources.map (fun summary => summary.source.lane) = LANE_PRECEDENCE) :
    (∃ s, new sources timeline diagnostics = .ok s) ↔
      InOrder TimelineEntry.sortKey timeline ∧ InOrder Diagnostic.sortKey diagnostics := by
  constructor
  · rintro ⟨s, h⟩
    unfold new at h
    dsimp only at h
    split_ifs at h with ht hd
    exact ⟨sortedBy_eq_self.mp ht, sortedBy_eq_self.mp hd⟩
  · rintro ⟨ht, hd⟩
    exact ⟨_, new_ok hlanes ht hd⟩

/-- Of the arrangements of entries and diagnostics a session accepts one. -/
theorem existsUnique_session {sources : List LaneSummary}
    (hlanes : sources.map (fun summary => summary.source.lane) = LANE_PRECEDENCE) {es : List TimelineEntry}
    (hkeys : (es.map TimelineEntry.key).Nodup) (ds : List Diagnostic) :
    ∃! p : Arrangement, p.Of es ds ∧ ∃ s, NormalizedSession.new sources p.1 p.2 = .ok s := by
  refine ⟨(sortedBy TimelineEntry.sortKey es, sortedBy Diagnostic.sortKey ds), ⟨⟨sortedBy_perm .., sortedBy_perm ..⟩, ?_⟩, ?_⟩
  · exact (NormalizedSession.new_eq_ok hlanes).mpr ⟨inOrder_sortedBy .., inOrder_sortedBy ..⟩
  · rintro ⟨es', ds'⟩ ⟨⟨hes, hds⟩, haccepts⟩
    obtain ⟨ht, hd⟩ := (NormalizedSession.new_eq_ok hlanes).mp haccepts
    refine Prod.ext ?_ ?_
    · exact ht.sortedBy_eq.symm.trans (sortedBy_timeline_of_perm hkeys hes.symm).symm
    · exact hd.sortedBy_eq.symm.trans (sortedBy_diagnostics_of_perm hds.symm).symm

/-- Of the arrangements of what a report shows its checks pass one. -/
theorem existsUnique_report (r : SessionReport) : ∃! p : Arrangement, p.Of r.timeline r.diagnostics ∧
    { r.toReportData with timeline := p.1, diagnostics := p.2 }.check = .ok () := by
  refine ⟨(r.timeline, r.diagnostics), ⟨⟨.refl _, .refl _⟩, ReportData.check_eq_ok.mpr r.valid⟩, ?_⟩
  rintro ⟨es, ds⟩ ⟨⟨hes, hds⟩, hcheck⟩
  have hvalid := ReportData.check_eq_ok.mp hcheck
  refine Prod.ext ?_ ?_
  · exact (InOrder.eq_of_perm (TimelineEntry.eq_of_sortKey r.valid.keys) r.valid.timeline_ordered
      hvalid.timeline_ordered hes.symm).symm
  · exact (InOrder.eq_of_perm (fun _ _ _ _ hkey => Diagnostic.sortKey_injective hkey) r.valid.diagnostics_ordered
      hvalid.diagnostics_ordered hds.symm).symm

/-- A session does not depend on the order in which the parts of its lanes are put together. -/
theorem normalizeLoadedSession_arranged {evidence : LoadedSessionEvidence} {telemetry alarm link : NormalizedLane}
    {decoded : List (Nat × Int)} (ht : telemetryLane evidence.telemetry = .ok (telemetry, decoded))
    (ha : alarmLane decoded evidence.alarmEvents = .ok alarm) (hl : linkLane evidence.linkEvents = .ok link)
    {p : Arrangement} (hp : p.Of (telemetry.timeline ++ alarm.timeline ++ link.timeline)
      (telemetry.diagnostics ++ alarm.diagnostics ++ link.diagnostics)) (hkeys : (p.1.map TimelineEntry.key).Nodup) :
    NormalizedSession.new [telemetry.summary, alarm.summary, link.summary] (sortedBy TimelineEntry.sortKey p.1)
      (sortedBy Diagnostic.sortKey p.2) = normalizeLoadedSession evidence := by
  rw [sortedBy_timeline_of_perm hkeys hp.1, sortedBy_diagnostics_of_perm hp.2, normalizeLoadedSession, ht]
  simp only [bind, Except.bind, ha, hl]

/-- The entries of an inspected session have keys of their own. -/
theorem nodup_keys_of_inspectSession {loads : String → Option Json} {selected : SelectedEvidence} {s : NormalizedSession}
    (h : inspectSession loads selected = .ok s) : (s.timeline.map TimelineEntry.key).Nodup := by
  obtain ⟨evidence, hload, hnormal⟩ := except_bind_eq_ok.mp h
  obtain ⟨telemetry, decoded, alarm, link, ho⟩ := (normalizeLoadedSession_ok (strict_of_loadSessionEvidence hload)).2 s hnormal
  exact ho.nodup_keys

/-- What a session and a report show is determined by the set of entries and diagnostics that were collected. -/
theorem presentation_unique :
    (∀ d d' : Diagnostic, d.sortKey = d'.sortKey → d = d') ∧
    (∀ ds ds' : List Diagnostic, ds.Perm ds' → sortedBy Diagnostic.sortKey ds = sortedBy Diagnostic.sortKey ds') ∧
    (∀ es es' : List TimelineEntry, (es.map TimelineEntry.key).Nodup → es.Perm es' →
      sortedBy TimelineEntry.sortKey es = sortedBy TimelineEntry.sortKey es') ∧
    -- the session, however the lanes and their diagnostics are put together
    (∀ evidence telemetry decoded alarm link, telemetryLane evidence.telemetry = .ok (telemetry, decoded) →
      alarmLane decoded evidence.alarmEvents = .ok alarm → linkLane evidence.linkEvents = .ok link →
      ∀ p : Arrangement, p.Of (telemetry.timeline ++ alarm.timeline ++ link.timeline)
        (telemetry.diagnostics ++ alarm.diagnostics ++ link.diagnostics) → (p.1.map TimelineEntry.key).Nodup →
        NormalizedSession.new [telemetry.summary, alarm.summary, link.summary] (sortedBy TimelineEntry.sortKey p.1)
          (sortedBy Diagnostic.sortKey p.2) = normalizeLoadedSession evidence) ∧
    (∀ loads selected s, inspectSession loads selected = .ok s → (s.timeline.map TimelineEntry.key).Nodup) ∧
    -- the report, wherever the notice of a truncation is appended
    (∀ session f limit report, projectTimeline session f limit = .ok report →
      ∃ notices : List Diagnostic, (∀ d ∈ notices, IsNotice d) ∧
        ∀ ds : List Diagnostic, ds.Perm (session.diagnostics ++ notices) →
          sortedBy Diagnostic.sortKey ds = report.diagnostics) ∧
    -- the order checks
    (∀ sources : List LaneSummary, sources.map (fun summary => summary.source.lane) = LANE_PRECEDENCE →
      ∀ (es : List TimelineEntry) (ds : List Diagnostic), (es.map TimelineEntry.key).Nodup →
        ∃! p : Arrangement, p.Of es ds ∧ ∃ s, NormalizedSession.new sources p.1 p.2 = .ok s) ∧
    (∀ r : SessionReport, ∃! p : Arrangement, p.Of r.timeline r.diagnostics ∧
      { r.toReportData with timeline := p.1, diagnostics := p.2 }.check = .ok ()) := by
  refine ⟨fun d d' h => Diagnostic.sortKey_injective h, fun _ _ => sortedBy_diagnostics_of_perm,
    fun _ _ => sortedBy_timeline_of_perm, fun _ _ _ _ _ ht ha hl _ => normalizeLoadedSession_arranged ht ha hl,
    fun _ _ _ => nodup_keys_of_inspectSession, ?_, fun _ hlanes _ ds hkeys => existsUnique_session hlanes hkeys ds,
    existsUnique_report⟩
  intro session f limit report h
  obtain ⟨notices, hperm, hnotices, -⟩ := report.valid.notices
  rw [(projects_of_projectTimeline h).ofSession] at hperm
  refine ⟨notices, hnotices, fun ds hds => ?_⟩
  rw [sortedBy_diagnostics_of_perm (hds.trans hperm.symm), report.valid.diagnostics_ordered.sortedBy_eq]

end OrbitOps.Session
