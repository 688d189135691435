import OrbitOps.AlarmGrammar
import OrbitOps.Py.TextLines
import OrbitOps.Session.Evidence
import OrbitOps.Session.LinkEvidence

/-!
# Evidence files are read back

With the concrete `json.loads` nothing is assumed of the files any more. What a recorder or an event
writer has written is read back, and a file that a loader accepts, from whatever source, can be written
anew from what was loaded: the new file loads to the same records, and each of its lines is the value of
the old one with sorted keys.
-/

namespace OrbitOps
open Py

/-! ### Files -/

/-- The file that holds the lines of records. -/
def writtenFile {E : Type} (toDict : E → Json) (es : List E) : TextFile := .ofText (fileText (es.map fun e => (toDict e).line))

/-- The texts of one value, the second with sorted keys. -/
def Rewrites (line line' : String) : Prop :=
  ∃ payload, Json.loads line = some payload ∧ Json.loads line' = some payload.sortKeys

/-- What was decoded from lines is read back, and written as these lines up to the order of their keys. -/
theorem forall₂_rewrites {E : Type} {toDict : E → Json} {fromDict : Json → Result E}
    (hencode : ∀ d e, d.DistinctKeys → fromDict d = .ok e → toDict e = d.sortKeys)
    (hsorted : ∀ e, (toDict e).sortKeys = toDict e) (hreadable : ∀ e, (toDict e).Readable)
    {lines : List String} {es : List E}
    (h : List.Forall₂ (fun line e => ∃ payload, Json.loads line = some payload ∧ fromDict payload = .ok e) lines es) :
    List.Forall₂ Rewrites lines (es.map fun e => (toDict e).line) ∧ ∀ e ∈ es, ReadsBack Json.loads (toDict e) := by
  have hone {line : String} {e : E} (hline : ∃ payload, Json.loads line = some payload ∧ fromDict payload = .ok e) :
      Rewrites line (toDict e).line ∧ ReadsBack Json.loads (toDict e) := by
    obtain ⟨payload, hloads, hdecode⟩ := hline
    have hsame : toDict e = payload.sortKeys := hencode payload e (Json.distinctKeys_loads hloads) hdecode
    have hwritable : (toDict e).Writable := by
      rw [hsame]
      exact (Json.writable_loads hloads).sortKeys
    have hread : Json.loads (toDict e).line = some (toDict e).sortKeys := (hreadable e).readsBack hwritable
    refine ⟨⟨payload, hloads, ?_⟩, hread⟩
    rw [hread, hsorted, hsame]
  refine ⟨List.forall₂_map_right_iff.mpr (h.imp fun line e hline => (hone hline).1), ?_⟩
  induction h with
  | nil => exact List.forall_mem_nil _
  | cons hline _ ih => exact List.forall_mem_cons.mpr ⟨(hone hline).2, ih⟩

theorem Link.loadLinkEvents_rewritten {file : TextFile} {es : List LinkEvent}
    (h : loadLinkEvents Json.loads file = .ok es) :
    loadLinkEvents Json.loads (writtenFile LinkEvent.toDict es) = .ok es ∧
      List.Forall₂ Rewrites (contentLines file.lines) (es.map fun e => e.toDict.line) := by
  obtain ⟨-, hdecodes, hgrows⟩ := loadLinkEvents_eq_ok.mp h
  have hdecode : ∀ n line e, decodeLine Json.loads n line = .ok e ↔ IsLinkLine Json.loads line e :=
    fun _ _ _ => decodeLine_eq_ok
  obtain ⟨hrewrites, hreads⟩ := forall₂_rewrites (fun _ _ => LinkEvent.toDict_of_fromDict) LinkEvent.sortKeys_toDict
    LinkEvent.readable ((decodes_iff_forall₂ hdecode).mp hdecodes)
  refine ⟨?_, hrewrites⟩
  rw [writtenFile, lines_written]
  exact loadLinkEvents_written hreads hgrows

theorem loadAlarmEvents_rewritten {file : TextFile} {es : List AlarmEvent}
    (h : loadAlarmEvents Json.loads file = .ok es) :
    loadAlarmEvents Json.loads (writtenFile AlarmEvent.toDict es) = .ok es ∧
      List.Forall₂ Rewrites (contentLines file.lines) (es.map fun e => e.toDict.line) := by
  obtain ⟨-, hdecodes, hgrows, hsummary⟩ := loadAlarmEvents_eq_ok.mp h
  have hdecode : ∀ n line e, decodeAlarmLine Json.loads n line = .ok e ↔ IsAlarmLine Json.loads line e :=
    fun _ _ _ => decodeAlarmLine_eq_ok
  obtain ⟨hrewrites, hreads⟩ := forall₂_rewrites (fun _ _ => AlarmEvent.toDict_of_fromDict) AlarmEvent.sortKeys_toDict
    AlarmEvent.readable ((decodes_iff_forall₂ hdecode).mp hdecodes)
  refine ⟨?_, hrewrites⟩
  rw [writtenFile, lines_written]
  exact loadAlarmEvents_written hreads hgrows hsummary

/-- The times and packets of a recording. -/
def datagrams (records : List RecordedTelemetryRecord) : List (Timestamp × Bytes) :=
  records.map fun r => (r.receivedAt, r.packet)

/-- The records of datagrams that are recorded one after another, from the first line on. -/
def recordedAs (ds : List (Timestamp × Bytes)) : List RecordedTelemetryRecord := indexRows (writtenRows 0 ds)

theorem getElem?_writtenRows (n : Nat) (ds : List (Timestamp × Bytes)) (i : Nat) :
    (writtenRows n ds)[i]? = ds[i]?.map fun d => ⟨n + i + 1, d.1, d.2, Nat.succ_pos _⟩ := by
  induction ds generalizing n i with
  | nil => simp [writtenRows]
  | cons d ds ih =>
    cases i with
    | zero => simp [writtenRows]
    | succ i =>
      rw [writtenRows, List.getElem?_cons_succ, List.getElem?_cons_succ, ih]
      exact congrArg (Option.map · ds[i]?) (funext fun d => by simp only [Nat.add_right_comm n 1 i]; rfl)

/-- The records are those of the datagrams, with the positions as indices and the lines counted from one. -/
theorem getElem?_recordedAs (ds : List (Timestamp × Bytes)) (i : Nat) :
    (recordedAs ds)[i]? = ds[i]?.map fun d => ⟨⟨i + 1, d.1, d.2, Nat.succ_pos _⟩, i⟩ := by
  rw [recordedAs, indexRows, List.getElem?_mapIdx, getElem?_writtenRows, Option.map_map]
  exact congrArg (Option.map · ds[i]?) (funext fun d => by simp only [Nat.zero_add]; rfl)

theorem datagrams_recordedAs (ds : List (Timestamp × Bytes)) : datagrams (recordedAs ds) = ds := by
  refine List.ext_getElem? fun i => ?_
  rw [datagrams, List.getElem?_map, getElem?_recordedAs, Option.map_map]
  cases ds[i]? <;> rfl

/-- What has been recorded is loaded. -/
theorem loadTelemetryRecords_recorded (ds : List (Timestamp × Bytes)) :
    loadTelemetryRecords Json.loads (writtenFile (fun d => recordJson d.1 d.2) ds) = .ok (recordedAs ds) := by
  rw [writtenFile, lines_written]
  exact loadTelemetryRecords_written fun d _ => readsBack_recordJson d.1 d.2

theorem SessionRecorder.forEach_write (ds : List (Timestamp × Bytes)) (r : SessionRecorder) :
    Method.forEach (fun d => write d.2 (.float d.1.1)) ds r =
      (.ok (), ⟨r.lines ++ ds.map fun d => (recordJson d.1 d.2).line⟩) := by
  induction ds generalizing r with
  | nil => simp
  | cons d ds ih =>
    rw [Method.forEach_cons, Method.bind_ok (write_ok d.2 d.1 r), ih]
    simp

/-- Evidence of every kind is read back by its loader. An event log that is accepted can be written anew, which
changes nothing but the order of the keys, and a recorder's file is loaded as the datagrams that it was given. -/
theorem evidence_rewritten :
    (∀ file es, Link.loadLinkEvents Json.loads file = .ok es →
      Link.loadLinkEvents Json.loads (writtenFile Link.LinkEvent.toDict es) = .ok es ∧
        List.Forall₂ Rewrites (contentLines file.lines) (es.map fun e => e.toDict.line)) ∧
    (∀ file es, loadAlarmEvents Json.loads file = .ok es →
      loadAlarmEvents Json.loads (writtenFile AlarmEvent.toDict es) = .ok es ∧
        List.Forall₂ Rewrites (contentLines file.lines) (es.map fun e => e.toDict.line)) ∧
    ∀ ds : List (Timestamp × Bytes),
      ∃ r, Method.forEach (fun d => SessionRecorder.write d.2 (.float d.1.1)) ds .new = (.ok (), r) ∧
        loadTelemetryRecords Json.loads (.ofText (fileText r.lines)) = .ok (recordedAs ds) ∧
        datagrams (recordedAs ds) = ds := by
  refine ⟨fun _ _ => Link.loadLinkEvents_rewritten, fun _ _ => loadAlarmEvents_rewritten, fun ds => ?_⟩
  exact ⟨_, SessionRecorder.forEach_write ds .new, loadTelemetryRecords_recorded ds, datagrams_recordedAs ds⟩

/-- A log with an empty line, in another order of the keys and with spaces. -/
def shuffledLog : TextFile := .ofText ("\r\n\x7b\"session_id\": \"s\", \"event_type\": \"packet_received\", " ++
  "\"event_index\": 0, \"elapsed_ns\": 7, \"attributes\": \x7b\"b\": null, \"a\": \"\\u00e9\"\x7d, \"packet_index\": 0, " ++
  "\"schema_version\": 1\x7d\r\n")

theorem evidence_rewritten_shuffled :
    (∃ e, Link.loadLinkEvents Json.loads shuffledLog = .ok [e] ∧
      Link.loadLinkEvents Json.loads (writtenFile Link.LinkEvent.toDict [e]) = .ok [e] ∧
      e.toDict.line = "\x7b\"attributes\":\x7b\"a\":\"\\u00e9\",\"b\":null\x7d,\"elapsed_ns\":7,\"event_index\":0," ++
        "\"event_type\":\"packet_received\",\"packet_index\":0,\"schema_version\":1,\"session_id\":\"s\"\x7d\n") ∧
    loadAlarmEvents Json.loads (writtenFile AlarmEvent.toDict [Session.headerEvent]) = .ok [Session.headerEvent] := by
  have hlines : (Link.loadLinkEvents Json.loads shuffledLog).toOption.map (List.map fun e => e.toDict.line) =
      some ["\x7b\"attributes\":\x7b\"a\":\"\\u00e9\",\"b\":null\x7d,\"elapsed_ns\":7,\"event_index\":0," ++
        "\"event_type\":\"packet_received\",\"packet_index\":0,\"schema_version\":1,\"session_id\":\"s\"\x7d\n"] := by
    decide +kernel
  constructor
  · rcases h : Link.loadLinkEvents Json.loads shuffledLog with err | es
    · rw [h] at hlines
      cases hlines
    · rw [h] at hlines
      obtain ⟨e, rfl, hline⟩ := List.map_eq_singleton_iff.mp (Option.some.inj hlines)
      exact ⟨e, rfl, (evidence_rewritten.1 shuffledLog [e] h).1, hline⟩
  · have hgrows : Grows AlarmEvent.Next [] [Session.headerEvent] :=
      ⟨⟨rfl, (fun _ h => by cases h), (fun _ h => by cases h), (fun _ h => by cases h), by decide⟩, trivial⟩
    have hsummary : requireSummary [Session.headerEvent] = .ok () := by decide
    exact (evidence_rewritten.2.1 _ _
      (loadAlarmEvents_written (Json.readsBack_of_lines AlarmEvent.readable rfl (by decide +kernel)) hgrows hsummary)).1

end OrbitOps
