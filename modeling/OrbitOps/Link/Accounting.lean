import Mathlib
import OrbitOps.Link.Log
import OrbitOps.Link.Polling
import OrbitOps.Link.Runtime

/-!
# Accounting of a run

At every loop head the event log accounts for the scheduler: the copies scheduled and not yet
forwarded are the pending datagrams (`Accounts`). Each iteration keeps this. A run that has received
its packets leaves its loop drained exactly when, in every draining iteration, the wait for the next
datagram fits a float (`WaitFits`) and the sink takes the events of the due ones (`TakesDue`).
-/

namespace OrbitOps.Link
open Py

/-- The copy that a pending datagram is. -/
def ScheduledDatagram.tag (d : ScheduledDatagram) : Tag where
  packetIndex := .int d.packetIndex
  copyIndex := .int d.copyIndex
  corruptedBit := RunState.optionalBit d.corruptedBit
  payloadBytes := .int d.payload.length

namespace RunState
variable {σ : Type} {S : EventSink σ} {env : Environment}

/-- The events that the sink of a run has recorded. -/
def events (S : EventSink σ) (s : RunState σ) : List LinkEvent := S.recorded s.eventStream.sink

/-- The run's surroundings behave: time does not go back, and datagrams are sent whole. -/
structure Steady (env : Environment) : Prop where
  clock : Monotone env.clock
  sends : ∀ k payload, env.sendto k payload = .ok payload.length

/-- A stream between its metadata and its summary; in a steady run its last event is not after `now`. -/
structure Writes (S : EventSink σ) (env : Environment) (now : Int) (s : LinkEventStream σ) : Prop where
  records : LinkEventStream.Records S 0 s
  opened : s.closed = false
  begun : s.eventIndex ≠ 0
  start_nonneg : 0 ≤ s.startNs
  timely : Steady env → s.startNs + s.lastElapsedNs ≤ now

theorem Writes.mono {now now' : Int} {s : LinkEventStream σ} (h : Writes S env now s)
    (hle : Steady env → now ≤ now') : Writes S env now' s :=
  ⟨h.records, h.opened, h.begun, h.start_nonneg, fun hs => (h.timely hs).trans (hle hs)⟩

theorem Writes.statistics {now : Int} {s : LinkEventStream σ} (h : Writes S env now s) :
    s.statistics = statisticsFromEvents (S.recorded s.sink) := h.records.statistics

theorem Writes.now_nonneg {now : Int} {s : LinkEventStream σ} (h : Writes S env now s) (hs : Steady env) : 0 ≤ now := by
  have := h.start_nonneg
  have := h.records.elapsed_nonneg
  have := h.timely hs
  omega

/-- What emitting and sending leave alone. -/
structure Frame (s s' : RunState σ) : Prop where
  engine : s'.engine = s.engine
  scheduler : s'.scheduler = s.scheduler
  receivedPackets : s'.receivedPackets = s.receivedPackets
  draining : s'.draining = s.draining
  clockCalls : s'.clockCalls = s.clockCalls

theorem Frame.refl (s : RunState σ) : Frame s s := ⟨rfl, rfl, rfl, rfl, rfl⟩

theorem Frame.trans {s s' s'' : RunState σ} (h : Frame s s') (h' : Frame s' s'') : Frame s s'' :=
  ⟨h'.engine.trans h.engine, h'.scheduler.trans h.scheduler, h'.receivedPackets.trans h.receivedPackets,
    h'.draining.trans h.draining, h'.clockCalls.trans h.clockCalls⟩

/-- More events are recorded and nothing else that matters has changed. -/
structure Adds (S : EventSink σ) (s s' : RunState σ) (es : List LinkEvent) : Prop where
  frame : Frame s s'
  events : s'.events S = s.events S ++ es

theorem Adds.refl (s : RunState σ) : Adds S s s [] := ⟨.refl s, (List.append_nil _).symm⟩

theorem Adds.trans {s s' s'' : RunState σ} {es es' : List LinkEvent} (h : Adds S s s' es) (h' : Adds S s' s'' es') :
    Adds S s s'' (es ++ es') :=
  ⟨h.frame.trans h'.frame, by rw [h'.events, h.events, List.append_assoc]⟩

/-! ### Emitting -/

/-- An event to be emitted: its type and its attributes. -/
abbrev Emission := LinkEventType × List (String × Scalar)

/-- The copy that an emission is about. -/
def Emission.tag (packetIndex : Int) (x : Emission) : Tag :=
  let get (key : String) : Scalar := ((Dict.ofItems x.2).get? key).getD .none
  ⟨.int packetIndex, get "copy_index", get "corrupted_bit", get "payload_bytes"⟩

/-- An emission that a stream takes between its metadata and its summary. -/
structure Emission.Valid (x : Emission) : Prop where
  not_metadata : x.1 ≠ .RUN_METADATA
  not_summary : x.1 ≠ .RUN_SUMMARY
  attributes : ∀ kv ∈ x.2, ValidItem kv

/-- The events are those of the emissions. -/
def Says (packetIndex : Int) (es : List LinkEvent) (l : List Emission) : Prop :=
  es.map (fun e => (e.eventType, e.tag)) = l.map fun x => (x.1, x.tag packetIndex)

theorem Says.append {packetIndex : Int} {es es' : List LinkEvent} {l l' : List Emission} (h : Says packetIndex es l)
    (h' : Says packetIndex es' l') : Says packetIndex (es ++ es') (l ++ l') := by
  rw [Says, List.map_append, List.map_append, h, h']

theorem Says.tagsOf {packetIndex : Int} {es : List LinkEvent} {l : List Emission} (h : Says packetIndex es l)
    (t : LinkEventType) : tagsOf t es = (l.filter fun x => x.1 = t).map (Emission.tag packetIndex) := by
  have hpairs : Link.tagsOf t es = ((es.map fun e => (e.eventType, e.tag)).filter fun p => p.1 = t).map Prod.snd := by
    rw [List.filter_map, List.map_map]
    rfl
  rw [hpairs, h, List.filter_map, List.map_map]
  rfl

theorem Says.typeCount {packetIndex : Int} {es : List LinkEvent} {l : List Emission} (h : Says packetIndex es l)
    (t : LinkEventType) : typeCount t es = l.countP fun x => x.1 = t := by
  rw [← length_tagsOf, h.tagsOf, List.length_map, List.countP_eq_length_filter]

theorem Says.mem {packetIndex : Int} {es : List LinkEvent} {l : List Emission} (h : Says packetIndex es l)
    {e : LinkEvent} (he : e ∈ es) : ∃ x ∈ l, x.1 = e.eventType := by
  have hm : (e.eventType, e.tag) ∈ es.map fun e => (e.eventType, e.tag) := List.mem_map_of_mem he
  rw [h, List.mem_map] at hm
  obtain ⟨x, hx, heq⟩ := hm
  exact ⟨x, hx, congrArg Prod.fst heq⟩

/-- The sink takes the events of emissions at one time, numbered from `index`, each in turn. -/
def TakesFrom (S : EventSink σ) (sessionId : String) (elapsedNs : Int) : Nat → List (Int × Emission) → σ → Prop
  | _, [], _ => True
  | index, (packetIndex, x) :: rest, sink => ∃ e sink',
      LinkEvent.new sessionId (.int index) (.int elapsedNs) x.1 (.int packetIndex)
        (LinkEventStream.orEmpty (scalarObj x.2)) (.int LINK_EVENT_SCHEMA_VERSION) = .ok e ∧
      S.call e sink = (.ok (), sink') ∧ TakesFrom S sessionId elapsedNs (index + 1) rest sink'

/-- The sink of a run takes the emissions, as the next ones. -/
def Takes (S : EventSink σ) (now : Int) (s : RunState σ) (emissions : List (Int × Emission)) : Prop :=
  TakesFrom S s.eventStream.sessionId (now - s.eventStream.startNs) s.eventStream.eventIndex emissions s.eventStream.sink

/-- What the sink has taken leaves the rest to be taken. -/
theorem takes_cons {now packetIndex : Int} {x : Emission} {s : RunState σ} {t : LinkEventStream σ} {e : LinkEvent}
    (hem : LinkEventStream.Emitted S x.1 (.int packetIndex) (scalarObj x.2) s.eventStream t e now)
    (rest : List (Int × Emission)) :
    Takes S now s ((packetIndex, x) :: rest) ↔ Takes S now { s with eventStream := t } rest := by
  rw [Takes, TakesFrom, Takes, hem.state]
  constructor
  · rintro ⟨e', sink', he', hcall, hrest⟩
    rw [hem.built] at he'
    cases he'
    rw [hem.taken] at hcall
    cases hcall
    exact hrest
  · intro hrest
    exact ⟨e, t.sink, hem.built, hem.taken, hrest⟩

/-- An emission is recorded, or an exception leaves the log as it was: in a steady run, one of the sink. -/
theorem wp_emit {now packetIndex : Int} {x : Emission} {s : RunState σ} (hw : Writes S env now s.eventStream)
    (hx : x.Valid) (hp : 0 ≤ packetIndex) : Method.wp (emit S x.1 now packetIndex x.2)
      (fun _ s' => ∃ e, Says packetIndex [e] [x] ∧ Adds S s s' [e] ∧ Writes S env now s'.eventStream ∧
        s' = { s with eventStream := s'.eventStream } ∧
        ∀ rest, Takes S now s ((packetIndex, x) :: rest) ↔ Takes S now s' rest)
      (fun _ s' => Adds S s s' [] ∧ s'.eventStream.statistics = s.eventStream.statistics ∧
        (Steady env → ∀ rest, ¬Takes S now s ((packetIndex, x) :: rest))) s := by
  have hcases := LinkEventStream.emit_cases (S := S) x.1 (.int now) (.int packetIndex) (scalarObj x.2) s.eventStream
  rcases hcases with ⟨err, t, he, hun, hr⟩ | ⟨e, t, now', hnow, he, hopen, hidx, hmeta, hsum, hem⟩
  · refine Method.wp_of_error (Method.bind_error (Method.zoom_eq he))
      ⟨⟨⟨rfl, rfl, rfl, rfl, rfl⟩, ?_⟩, hun.statistics, fun hs rest htakes => ?_⟩
    · exact hr.trans (List.append_nil _).symm
    · have htime := hw.timely hs
      obtain ⟨e, hbuilt, hrefused⟩ := LinkEventStream.emit_built (S := S) hw.records.visible hw.opened hw.begun
        hx.not_metadata hx.not_summary hw.records.elapsed_nonneg (by omega : _ ≤ now - s.eventStream.startNs) hp
        hx.attributes
      obtain ⟨e', sink', he', hcall, -⟩ := htakes
      rw [hbuilt] at he'
      cases he'
      rw [hrefused err t he] at hcall
      cases hcall
  · obtain rfl : now = now' := Json.int.inj hnow
    obtain ⟨-, -, -, ht, hpi, -, hattr⟩ := LinkEvent.fields_of_new hem.built
    have hattrs : e.attributes = .ofItems x.2 hx.attributes := by
      have hval : validateAttributes (scalarObj x.2) = .ok e.attributes :=
        LinkEvent.validateAttributes_of_eventAttributes hmeta hattr
      rw [validateAttributes_scalarObj hx.attributes] at hval
      exact (Except.ok.inj hval).symm
    have htag : e.tag = x.tag packetIndex := by
      have hindex : optionalInt e.packetIndex = .int packetIndex := by
        cases hi : e.packetIndex with
        | none => rw [hi] at hpi; cases hpi
        | some n => rw [hi] at hpi; exact congrArg Scalar.int (Json.int.inj hpi).symm
      rw [LinkEvent.tag, hattrs, hindex]
      rfl
    refine Method.wp_of_ok (Method.bind_ok (Method.zoom_eq he))
      ⟨e, ?_, ⟨⟨rfl, rfl, rfl, rfl, rfl⟩, hem.recorded⟩, ?_, rfl, takes_cons hem⟩
    · rw [Says, List.map_singleton, List.map_singleton, ht, htag]
    · have hstart : t.startNs = s.eventStream.startNs := by rw [hem.state]
      have hlast : t.lastElapsedNs = now - s.eventStream.startNs := by rw [hem.state]
      refine ⟨hw.records.emitted_open hopen hem (by simp [hidx, hmeta]) hsum, ?_, ?_, ?_, fun _ => ?_⟩
      · show t.closed = false
        rw [hem.state]; exact hopen
      · show t.eventIndex ≠ 0
        rw [hem.state]; exact Nat.succ_ne_zero _
      · show 0 ≤ t.startNs
        rw [hstart]; exact hw.start_nonneg
      · show t.startNs + t.lastElapsedNs ≤ now
        rw [hstart, hlast]; omega

/-- Emissions are recorded in order, up to the first one that is refused. -/
theorem wp_emits {now packetIndex : Int} {l : List Emission} {s : RunState σ} (hw : Writes S env now s.eventStream)
    (hl : ∀ x ∈ l, x.Valid) (hp : 0 ≤ packetIndex) :
    Method.wp (Method.forEach (fun x => emit S x.1 now packetIndex x.2) l)
      (fun _ s' => ∃ es, Says packetIndex es l ∧ Adds S s s' es ∧ Writes S env now s'.eventStream)
      (fun _ s' => ∃ es done, done <+: l ∧ Says packetIndex es done ∧ Adds S s s' es) s := by
  have hloop := Method.wp_forEach (E := fun _ s' => ∃ es done, done <+: l ∧ Says packetIndex es done ∧ Adds S s s' es)
    (I := fun rest s' => ∃ es done, done ++ rest = l ∧ Says packetIndex es done ∧ Adds S s s' es ∧
      Writes S env now s'.eventStream)
    (f := fun x => emit S x.1 now packetIndex x.2) (s := s) ?_ ⟨[], [], rfl, rfl, .refl s, hw⟩
  · refine Method.wp_mono hloop ?_ fun _ _ h => h
    rintro _ s' ⟨es, done, hdone, hemits, hadds, hw'⟩
    rw [List.append_nil] at hdone
    exact ⟨es, hdone ▸ hemits, hadds, hw'⟩
  · rintro x rest s1 ⟨es, done, hdone, hemits, hadds, hw1⟩
    have hx : x ∈ l := hdone ▸ List.mem_append_right _ (List.mem_cons_self ..)
    refine Method.wp_mono (wp_emit hw1 (hl x hx) hp) ?_ ?_
    · rintro _ s2 ⟨e, he, hadds', hw2, -, -⟩
      exact ⟨es ++ [e], done ++ [x], by rw [List.append_assoc]; exact hdone, hemits.append he, hadds.trans hadds', hw2⟩
    · rintro _ s2 ⟨hadds', -, -⟩
      exact ⟨es ++ [], done, ⟨_, hdone⟩, by rw [List.append_nil]; exact hemits, hadds.trans hadds'⟩

/-! ### The events of one outcome -/

def outcomeEmissions (raw : Bytes) (o : PacketOutcome) : List Emission :=
  (.PACKET_RECEIVED, [("payload_bytes", .int raw.length)]) ::
    if o.dropped then [(.PACKET_DROPPED, [("payload_bytes", .int raw.length)])]
    else
      ((if o.duplicated then [o.deliveries.length] else []).map fun n => (.PACKET_DUPLICATED, [("copies", .int n)])) ++
      ((o.deliveries.head?.bind Delivery.corruptedBit).toList.map fun bit =>
        (.PACKET_CORRUPTED, [("corrupted_bit", .int bit)])) ++
      ((o.deliveries.head?.filter fun d => 0 < d.delayMs).toList.map fun d =>
        (.PACKET_DELAYED, [("delay_ms", .int d.delayMs)])) ++
      o.deliveries.map fun d => (.DELIVERY_SCHEDULED, deliveryAttributes d)

theorem emitOutcome_eq {raw : Bytes} {o : PacketOutcome} {now : Int} (h : o.dropped = false → o.deliveries ≠ []) :
    emitOutcome S raw o now =
      Method.forEach (fun x => emit S x.1 now o.packetIndex x.2) (outcomeEmissions raw o) := by
  obtain ⟨index, dropped, deliveries⟩ := o
  cases dropped with
  | true => simp [emitOutcome, outcomeEmissions, Method.forEach_cons, Method.forEach_empty]
  | false =>
    cases deliveries with
    | nil => exact absurd rfl (h rfl)
    | cons first rest =>
      by_cases hdup : rest.length = 1 <;> by_cases hdelay : 0 < first.delayMs <;>
        cases hbit : first.corruptedBit <;>
        simp [emitOutcome, outcomeEmissions, PacketOutcome.duplicated, Method.forEach_cons, Method.forEach_map,
          hdelay, hdup, hbit, Option.filter]

theorem isFinite_optionalBit (n : Option Int) : (optionalBit n).isFinite = true := by
  cases n <;> rfl

/-- What is emitted for an outcome can be emitted, and none of it forwards a copy. -/
theorem valid_outcomeEmissions (raw : Bytes) (o : PacketOutcome) :
    ∀ x ∈ outcomeEmissions raw o, x.Valid ∧ x.1 ≠ .PACKET_FORWARDED := by
  have hone {t : LinkEventType} {name : String} {n : Int} (ht : t ≠ .RUN_METADATA ∧ t ≠ .RUN_SUMMARY ∧
      t ≠ .PACKET_FORWARDED) (hname : name ≠ "") :
      Emission.Valid (t, [(name, .int n)]) ∧ t ≠ .PACKET_FORWARDED :=
    ⟨⟨ht.1, ht.2.1, by simp [ValidItem, hname]⟩, ht.2.2⟩
  intro x hx
  rw [outcomeEmissions] at hx
  rcases List.mem_cons.mp hx with rfl | hx
  · exact hone (by decide) (by decide)
  · by_cases hdrop : o.dropped = true
    · rw [if_pos hdrop] at hx
      rw [List.mem_singleton.mp hx]
      exact hone (by decide) (by decide)
    · rw [if_neg hdrop] at hx
      simp only [List.mem_append, List.mem_map] at hx
      rcases hx with ((⟨n, -, rfl⟩ | ⟨bit, -, rfl⟩) | ⟨d, -, rfl⟩) | ⟨d, -, rfl⟩
      · exact hone (by decide) (by decide)
      · exact hone (by decide) (by decide)
      · exact hone (by decide) (by decide)
      · have ht : LinkEventType.DELIVERY_SCHEDULED ≠ .RUN_METADATA ∧ LinkEventType.DELIVERY_SCHEDULED ≠ .RUN_SUMMARY ∧
            LinkEventType.DELIVERY_SCHEDULED ≠ .PACKET_FORWARDED := by decide
        exact ⟨⟨ht.1, ht.2.1, by simp [deliveryAttributes, ValidItem, isFinite_optionalBit]⟩, ht.2.2⟩

/-- The tag of a scheduled copy is that of its pending datagram. -/
theorem tag_deliveryAttributes (o : PacketOutcome) (t : Int) :
    (o.deliveries.map fun d => Emission.tag o.packetIndex (.DELIVERY_SCHEDULED, deliveryAttributes d)) =
      (DatagramScheduler.scheduled o t).map ScheduledDatagram.tag := by
  rw [DatagramScheduler.scheduled, List.map_map]
  refine List.map_congr_left fun d _ => ?_
  have hitems : (Dict.ofItems (deliveryAttributes d)).items = deliveryAttributes d :=
    Dict.items_ofItems_of_keys ["copy_index", "corrupted_bit", "delay_ms", "hold_packets", "payload_bytes"] rfl
      (by decide)
  simp only [Emission.tag, Dict.get?, hitems]
  rfl

theorem filter_outcomeEmissions {raw : Bytes} {o : PacketOutcome} (h : o.dropped = true → o.deliveries = []) :
    (outcomeEmissions raw o).filter (fun x => x.1 = .DELIVERY_SCHEDULED) =
      o.deliveries.map fun d => (.DELIVERY_SCHEDULED, deliveryAttributes d) := by
  have hnone {α : Type} (t : LinkEventType) (f : α → List (String × Scalar)) (l : List α)
      (ht : t ≠ .DELIVERY_SCHEDULED) : (l.map fun a => (t, f a)).filter (fun x => x.1 = .DELIVERY_SCHEDULED) = [] := by
    simp [List.filter_eq_nil_iff, ht]
  have hall : (o.deliveries.map fun d => (LinkEventType.DELIVERY_SCHEDULED, deliveryAttributes d)).filter
      (fun x => x.1 = .DELIVERY_SCHEDULED) =
        o.deliveries.map fun d => (LinkEventType.DELIVERY_SCHEDULED, deliveryAttributes d) := by
    simp [List.filter_eq_self]
  rw [outcomeEmissions, List.filter_cons_of_neg (by simp)]
  by_cases hdrop : o.dropped = true
  · rw [if_pos hdrop, h hdrop]; rfl
  · rw [if_neg hdrop, List.filter_append, List.filter_append, List.filter_append, hnone _ _ _ (by decide),
      hnone _ _ _ (by decide), hnone _ _ _ (by decide), hall]
    rfl

/-- Received and duplicated packets against dropped ones and scheduled copies. -/
def Balanced (es : List LinkEvent) : Prop :=
  typeCount .DELIVERY_SCHEDULED es + typeCount .PACKET_DROPPED es =
    typeCount .PACKET_RECEIVED es + typeCount .PACKET_DUPLICATED es

theorem Balanced.append {es es' : List LinkEvent} (h : Balanced es) (h' : Balanced es') : Balanced (es ++ es') := by
  unfold Balanced typeCount at *
  simp only [List.countP_append]
  omega

theorem countP_outcomeEmissions {config : LinkConfig} {raw : Bytes} {index : Int} {o : PacketOutcome}
    (h : ImpairmentEngine.Impairs config raw index o) :
    (outcomeEmissions raw o).countP (fun x => x.1 = .DELIVERY_SCHEDULED) +
        (outcomeEmissions raw o).countP (fun x => x.1 = .PACKET_DROPPED) =
      (outcomeEmissions raw o).countP (fun x => x.1 = .PACKET_RECEIVED) +
        (outcomeEmissions raw o).countP fun x => x.1 = .PACKET_DUPLICATED := by
  have hnone {α : Type} (t t' : LinkEventType) (f : α → List (String × Scalar)) (l : List α) (ht : t ≠ t') :
      (l.map fun a => (t, f a)).countP (fun x => x.1 = t') = 0 := by
    simp [List.countP_eq_zero, ht]
  rcases h.deliveries with ⟨hdrop, hnil⟩ | ⟨hdrop, d, copies, -, hcopies, hds⟩
  · rw [outcomeEmissions, if_pos hdrop]
    rfl
  · rw [outcomeEmissions, if_neg (by simp [hdrop])]
    rcases hcopies with rfl | rfl <;>
      simp [PacketOutcome.duplicated, hds, hnone]

/-! ### Forwarding -/

def Forwards (es : List LinkEvent) : Prop :=
  ∀ e ∈ es, e.eventType = .PACKET_REORDERED ∨ e.eventType = .PACKET_FORWARDED

theorem Forwards.append {es es' : List LinkEvent} (h : Forwards es) (h' : Forwards es') : Forwards (es ++ es') := by
  intro e he
  rcases List.mem_append.mp he with he | he
  · exact h e he
  · exact h' e he

theorem Forwards.typeCount {es : List LinkEvent} (h : Forwards es) {t : LinkEventType} (hr : t ≠ .PACKET_REORDERED)
    (hf : t ≠ .PACKET_FORWARDED) : typeCount t es = 0 := by
  rw [Link.typeCount, List.countP_eq_zero]
  intro e he
  rcases h e he with ht | ht <;> simp [ht, hr.symm, hf.symm]

theorem Forwards.balanced {es : List LinkEvent} (h : Forwards es) : Balanced es := by
  unfold Balanced
  rw [h.typeCount (by decide) (by decide), h.typeCount (by decide) (by decide), h.typeCount (by decide) (by decide),
    h.typeCount (by decide) (by decide)]

theorem Forwards.tagsOf {es : List LinkEvent} (h : Forwards es) : tagsOf .DELIVERY_SCHEDULED es = [] :=
  tagsOf_eq_nil fun e he => by rcases h e he with ht | ht <;> simp [ht]

/-- Some scheduled copy was not forwarded. -/
def Short (s : RunState σ) : Prop :=
  s.eventStream.statistics.deliveriesForwarded < s.eventStream.statistics.deliveriesScheduled

theorem short_of_log {s : RunState σ} {t : Tag} {waiting : List Tag} (hlog : Log (s.events S) (t :: waiting))
    (hcounted : s.eventStream.statistics = statisticsFromEvents (s.events S)) : Short s := by
  have hsched := hlog.scheduled_eq
  rw [List.length_cons] at hsched
  rw [Short, hcounted, statisticsFromEvents_eq]
  show typeCount .PACKET_FORWARDED (s.events S) < typeCount .DELIVERY_SCHEDULED (s.events S)
  omega

/-- The log has more events about forwarding, and `waiting` still waits; the sink has taken the emissions. -/
structure Reported (S : EventSink σ) (env : Environment) (now : Int) (s s' : RunState σ)
    (emissions : List (Int × Emission)) (waiting : List Tag) : Prop where
  adds : ∃ es, Adds S s s' es ∧ Forwards es
  writes : Writes S env now s'.eventStream
  log : Log (s'.events S) waiting
  takes : ∀ rest, Takes S now s (emissions ++ rest) ↔ Takes S now s' rest

theorem Reported.refl {now : Int} {s : RunState σ} {waiting : List Tag} (hw : Writes S env now s.eventStream)
    (hlog : Log (s.events S) waiting) : Reported S env now s s [] waiting :=
  ⟨⟨[], .refl s, by simp [Forwards]⟩, hw, hlog, fun _ => Iff.rfl⟩

theorem Reported.trans {now : Int} {s s₁ s' : RunState σ} {emissions emissions' : List (Int × Emission)}
    {waiting waiting' : List Tag} (h : Reported S env now s s₁ emissions waiting)
    (h' : Reported S env now s₁ s' emissions' waiting') : Reported S env now s s' (emissions ++ emissions') waiting' := by
  obtain ⟨es, hadds, hfw⟩ := h.adds
  obtain ⟨es', hadds', hfw'⟩ := h'.adds
  exact ⟨⟨es ++ es', hadds.trans hadds', hfw.append hfw'⟩, h'.writes, h'.log, fun rest => by
    rw [List.append_assoc, h.takes, h'.takes]⟩

/-- An exception while datagrams are sent. In a steady run a copy was not forwarded, and the sink has not taken
the emissions. -/
structure Fails (S : EventSink σ) (env : Environment) (now : Int) (s s' : RunState σ)
    (emissions : List (Int × Emission)) : Prop where
  log : ∃ waiting, Log (s'.events S) waiting
  receivedPackets : s'.receivedPackets = s.receivedPackets
  refused : Steady env → Short s' ∧ ∀ rest, ¬Takes S now s (emissions ++ rest)

theorem Fails.after {now : Int} {s s₁ s' : RunState σ} {emissions emissions' : List (Int × Emission)}
    {waiting : List Tag} (h : Fails S env now s₁ s' emissions') (hr : Reported S env now s s₁ emissions waiting) :
    Fails S env now s s' (emissions ++ emissions') := by
  obtain ⟨es, hadds, -⟩ := hr.adds
  refine ⟨h.log, h.receivedPackets.trans hadds.frame.receivedPackets, fun hs => ⟨(h.refused hs).1, fun rest => ?_⟩⟩
  rw [List.append_assoc, hr.takes]
  exact (h.refused hs).2 rest

theorem tag_forwardAttributes (d : ScheduledDatagram) :
    Emission.tag d.packetIndex (.PACKET_FORWARDED, forwardAttributes d) = d.tag := by
  have hitems : (Dict.ofItems (forwardAttributes d)).items = forwardAttributes d :=
    Dict.items_ofItems_of_keys ["copy_index", "corrupted_bit", "payload_bytes"] rfl (by decide)
  simp only [Emission.tag, Dict.get?, hitems]
  rfl

theorem valid_forwarded (d : ScheduledDatagram) : Emission.Valid (.PACKET_FORWARDED, forwardAttributes d) :=
  ⟨by simp, by simp, by simp [forwardAttributes, ValidItem, isFinite_optionalBit]⟩

theorem packetIndex_nonneg {es : List LinkEvent} {d : ScheduledDatagram} {waiting : List Tag}
    (h : Log es (d.tag :: waiting)) : 0 ≤ d.packetIndex := by
  have hmem : d.tag ∈ tagsOf .DELIVERY_SCHEDULED es :=
    h.perm.mem_iff.mp (List.mem_append_right _ (List.mem_cons_self ..))
  obtain ⟨e, -, -, htag⟩ := mem_tagsOf.mp hmem
  have hidx : optionalInt e.packetIndex = .int d.packetIndex := congrArg Tag.packetIndex htag
  cases hi : e.packetIndex with
  | none => rw [hi] at hidx; cases hidx
  | some n =>
    rw [hi] at hidx
    rw [← Scalar.int.inj hidx]
    exact Int.natCast_nonneg n

/-- A packet that a later one has overtaken, and that was not noted yet. -/
def Late (highest : Int) (noted : List Int) (d : ScheduledDatagram) : Prop :=
  d.packetIndex < highest ∧ d.packetIndex ∉ noted

instance (highest : Int) (noted : List Int) (d : ScheduledDatagram) : Decidable (Late highest noted d) :=
  inferInstanceAs (Decidable (_ ∧ _))

/-- What is emitted about a datagram before it is forwarded. -/
def notes (highest : Int) (noted : List Int) (d : ScheduledDatagram) : List (Int × Emission) :=
  if Late highest noted d then
    [(d.packetIndex, .PACKET_REORDERED, [("overtaken_by_packet_index", .int highest),
      ("release_after_packet", .int d.releaseAfterPacket)])]
  else []

/-- What is emitted when datagrams are forwarded, by the greatest packet forwarded and the packets noted before. -/
def forwardEmissions (highest : Int) (noted : List Int) : List ScheduledDatagram → List (Int × Emission)
  | [] => []
  | d :: ds => notes highest noted d ++ [(d.packetIndex, .PACKET_FORWARDED, forwardAttributes d)] ++
      forwardEmissions (max highest d.packetIndex) (if Late highest noted d then d.packetIndex :: noted else noted) ds

/-- The emissions of a run that forwards these datagrams next. -/
def upcomingEmissions (s : RunState σ) (items : List ScheduledDatagram) : List (Int × Emission) :=
  forwardEmissions s.highestForwardedPacketIndex s.reorderedPackets items

theorem upcomingEmissions_cons (s : RunState σ) (d : ScheduledDatagram) (ds : List ScheduledDatagram) :
    upcomingEmissions s (d :: ds) = upcomingEmissions s [d] ++
      forwardEmissions (max s.highestForwardedPacketIndex d.packetIndex)
        (if Late s.highestForwardedPacketIndex s.reorderedPackets d then d.packetIndex :: s.reorderedPackets
        else s.reorderedPackets) ds := by
  simp only [upcomingEmissions, forwardEmissions, List.append_nil]

/-- An overtaken packet is noted, which leaves the copies as they were. -/
theorem wp_emitReordered {now : Int} {d : ScheduledDatagram} {waiting : List Tag} {s : RunState σ}
    (hw : Writes S env now s.eventStream) (hlog : Log (s.events S) (d.tag :: waiting)) :
    Method.wp (emitReordered S d now)
      (fun _ s' => Reported S env now s s' (notes s.highestForwardedPacketIndex s.reorderedPackets d) (d.tag :: waiting) ∧
        s'.highestForwardedPacketIndex = s.highestForwardedPacketIndex ∧ s'.reorderedPackets =
          if Late s.highestForwardedPacketIndex s.reorderedPackets d then d.packetIndex :: s.reorderedPackets
          else s.reorderedPackets)
      (fun _ s' => Fails S env now s s' (notes s.highestForwardedPacketIndex s.reorderedPackets d)) s := by
  have hp := packetIndex_nonneg hlog
  refine Method.wp_bind (Method.wp_of_ok (Method.get_apply s) ?_)
  by_cases hover : Late s.highestForwardedPacketIndex s.reorderedPackets d
  · simp only [notes, if_pos hover]
    rw [if_pos (show d.packetIndex < _ ∧ _ from hover)]
    refine Method.wp_bind (Method.wp_of_ok (Method.modify_apply _ s) ?_)
    have hx : Emission.Valid (.PACKET_REORDERED, [("overtaken_by_packet_index", .int s.highestForwardedPacketIndex),
        ("release_after_packet", .int d.releaseAfterPacket)]) := ⟨nofun, nofun, by simp [ValidItem]⟩
    refine Method.wp_mono (wp_emit (s := { s with reorderedPackets := d.packetIndex :: s.reorderedPackets }) hw hx hp)
      ?_ ?_
    · rintro _ s' ⟨e, hemits, hadds, hw', hstate, htakes⟩
      have ht : e.eventType = .PACKET_REORDERED := by
        obtain ⟨x, hx, heq⟩ := hemits.mem (List.mem_singleton.mpr rfl)
        rw [← heq, List.mem_singleton.mp hx]
      have hev : s'.events S = s.events S ++ [e] := hadds.events
      refine ⟨⟨⟨[e], ⟨⟨hadds.frame.engine, hadds.frame.scheduler, hadds.frame.receivedPackets, hadds.frame.draining,
        hadds.frame.clockCalls⟩, hev⟩, by simp [Forwards, ht]⟩, hw', ?_, htakes⟩, by rw [hstate], by rw [hstate]⟩
      rw [hev]
      exact hlog.other (by simp [ht]) (by simp [ht])
    · rintro _ s' ⟨hadds, hstats, hrefused⟩
      have hlog' : Log (s'.events S) (d.tag :: waiting) := by
        rw [hadds.events, List.append_nil]
        exact hlog
      refine ⟨⟨_, hlog'⟩, hadds.frame.receivedPackets, fun hs => ⟨short_of_log hlog' ?_, hrefused hs⟩⟩
      rw [hadds.events, List.append_nil, hstats]
      exact hw.statistics
  · simp only [notes, if_neg hover]
    rw [if_neg (show ¬(d.packetIndex < _ ∧ _) from hover)]
    exact Method.wp_of_ok (Method.pure_apply () s) ⟨.refl hw hlog, rfl, rfl⟩

theorem wp_emitForwarded {now : Int} {d : ScheduledDatagram} {waiting : List Tag} {s : RunState σ}
    (hw : Writes S env now s.eventStream) (hlog : Log (s.events S) (d.tag :: waiting)) :
    Method.wp (emitForwarded S d now)
      (fun _ s' => Reported S env now s s' (upcomingEmissions s [d]) waiting ∧
        ∀ ds, upcomingEmissions s (d :: ds) = upcomingEmissions s [d] ++ upcomingEmissions s' ds)
      (fun _ s' => Fails S env now s s' (upcomingEmissions s [d])) s := by
  have hp := packetIndex_nonneg hlog
  have hone : upcomingEmissions s [d] = notes s.highestForwardedPacketIndex s.reorderedPackets d ++
      [(d.packetIndex, .PACKET_FORWARDED, forwardAttributes d)] := List.append_nil _
  rw [hone]
  refine Method.wp_bind (Method.wp_mono (wp_emitReordered hw hlog) ?_ fun _ s' hf => ?_)
  · rintro _ s1 ⟨hnoted, hhighest, hreordered⟩
    refine Method.wp_bind (Method.wp_of_ok (Method.modify_apply _ s1) ?_)
    refine Method.wp_mono (wp_emit (s := { s1 with
      highestForwardedPacketIndex := max s1.highestForwardedPacketIndex d.packetIndex }) hnoted.writes
      (valid_forwarded d) hp) ?_ ?_
    · rintro _ s' ⟨e, hemits, hadds, hw', hstate, htakes⟩
      have hpair := List.cons.inj hemits
      have ht : e.eventType = .PACKET_FORWARDED := congrArg Prod.fst hpair.1
      have htag : e.tag = d.tag := (congrArg Prod.snd hpair.1).trans (tag_forwardAttributes d)
      have hev : s'.events S = s1.events S ++ [e] := hadds.events
      have hreported : Reported S env now s1 s' [(d.packetIndex, .PACKET_FORWARDED, forwardAttributes d)] waiting := by
        refine ⟨⟨[e], ⟨⟨hadds.frame.engine, hadds.frame.scheduler, hadds.frame.receivedPackets, hadds.frame.draining,
          hadds.frame.clockCalls⟩, hev⟩, by simp [Forwards, ht]⟩, hw', ?_, htakes⟩
        rw [hev]
        exact Log.forward (by rw [htag]; exact hnoted.log) ht
      refine ⟨hnoted.trans hreported, fun ds => ?_⟩
      rw [upcomingEmissions_cons, hone, upcomingEmissions.eq_def s', hstate]
      simp only [hhighest, hreordered]
    · rintro _ s' ⟨hadds, hstats, hrefused⟩
      have hlog' : Log (s'.events S) (d.tag :: waiting) := by
        rw [hadds.events, List.append_nil]
        exact hnoted.log
      have hfails : Fails S env now s1 s' [(d.packetIndex, .PACKET_FORWARDED, forwardAttributes d)] := by
        refine ⟨⟨_, hlog'⟩, hadds.frame.receivedPackets, fun hs => ⟨short_of_log hlog' ?_, hrefused hs⟩⟩
        rw [hadds.events, List.append_nil, hstats]
        exact hnoted.writes.statistics
      exact hfails.after hnoted
  · refine ⟨hf.log, hf.receivedPackets, fun hs => ⟨(hf.refused hs).1, fun rest => ?_⟩⟩
    rw [List.append_assoc]
    exact (hf.refused hs).2 _

theorem wp_sendItem {now : Int} {d : ScheduledDatagram} {waiting : List Tag} {s : RunState σ}
    (hw : Writes S env now s.eventStream) (hlog : Log (s.events S) (d.tag :: waiting)) :
    Method.wp (sendItem S env now d)
      (fun _ s' => Reported S env now s s' (upcomingEmissions s [d]) waiting ∧
        ∀ ds, upcomingEmissions s (d :: ds) = upcomingEmissions s [d] ++ upcomingEmissions s' ds)
      (fun _ s' => Fails S env now s s' (upcomingEmissions s [d])) s := by
  have hunsent (s' : RunState σ) (hstream : s'.eventStream = s.eventStream) (hrec : s'.receivedPackets = s.receivedPackets)
      (hs : ¬Steady env) : Fails S env now s s' (upcomingEmissions s [d]) :=
    ⟨⟨_, by rw [events, hstream]; exact hlog⟩, hrec, fun h => absurd h hs⟩
  cases hsend : env.sendto s.handed.length d.payload with
  | error e =>
    have hm : sendto env d.payload s = (.error e, { s with handed := s.handed ++ [d.payload] }) := by rw [sendto, hsend]
    refine Method.wp_of_error (Method.bind_error hm) (hunsent _ rfl rfl fun hs => ?_)
    rw [hs.sends] at hsend; cases hsend
  | ok n =>
    have hm : sendto env d.payload s = (.ok n, { s with handed := s.handed ++ [d.payload] }) := by rw [sendto, hsend]
    refine Method.wp_bind (Method.wp_of_ok hm ?_)
    split_ifs with hlen
    · refine Method.wp_of_error rfl (hunsent _ rfl rfl fun hs => hlen ?_)
      rw [hs.sends] at hsend
      exact (Except.ok.inj hsend).symm
    · refine Method.wp_mono (wp_emitForwarded (s := { s with handed := s.handed ++ [d.payload] }) hw hlog) ?_
        fun _ _ hf => ⟨hf.log, hf.receivedPackets, hf.refused⟩
      rintro _ s' ⟨hr, hnext⟩
      obtain ⟨es, hadds, hfw⟩ := hr.adds
      exact ⟨⟨⟨es, ⟨⟨hadds.frame.engine, hadds.frame.scheduler, hadds.frame.receivedPackets, hadds.frame.draining,
        hadds.frame.clockCalls⟩, hadds.events⟩, hfw⟩, hr.writes, hr.log, hr.takes⟩, hnext⟩

/-! ### The loop head -/

/-- The accounting of a run between two iterations. -/
structure Accounts (S : EventSink σ) (env : Environment) (maxPackets : Option Int) (now : Int) (s : RunState σ) :
    Prop where
  writes : Writes S env now s.eventStream
  log : Log (s.events S) (s.scheduler.pending.toList.map ScheduledDatagram.tag)
  balance : Balanced (s.events S)
  older : ∀ t ∈ tagsOf .DELIVERY_SCHEDULED (s.events S), ∃ i, t.packetIndex = .int i ∧ i < s.engine.packetIndex
  newest : s.scheduler.highestPacketIndex < s.engine.packetIndex
  index_nonneg : 0 ≤ s.engine.packetIndex
  draining : s.draining = true ↔ ∃ m ∈ maxPackets, m ≤ (s.receivedPackets : Int)
  released : s.draining = true → s.scheduler.holdsReleased = true

variable {maxPackets : Option Int} {pollIntervalS : Float64}

theorem Accounts.mono {now now' : Int} {s : RunState σ} (h : Accounts S env maxPackets now s)
    (hle : Steady env → now ≤ now') : Accounts S env maxPackets now' s :=
  ⟨h.writes.mono hle, h.log, h.balance, h.older, h.newest, h.index_nonneg, h.draining, h.released⟩

theorem Accounts.tick {now : Int} {s : RunState σ} (h : Accounts S env maxPackets now s) (k : Nat) :
    Accounts S env maxPackets now { s with clockCalls := k } :=
  ⟨h.writes, h.log, h.balance, h.older, h.newest, h.index_nonneg, h.draining, h.released⟩

theorem Accounts.distinct {now : Int} {s : RunState σ} (h : Accounts S env maxPackets now s) :
    DatagramScheduler.Distinct s.scheduler.pending.toList := by
  have hkeys : ((tagsOf .DELIVERY_SCHEDULED (s.events S)).map Tag.key).Nodup := h.log.nodup
  have hall := ((h.log.perm.map Tag.key).nodup_iff.mpr hkeys)
  rw [List.map_append, List.map_map] at hall
  refine (List.pairwise_map.mp (List.nodup_append.mp hall).2.1).imp fun {d d'} hne heq => hne ?_
  simp only [ScheduledDatagram.copy, Prod.mk.injEq] at heq
  simp only [Function.comp, ScheduledDatagram.tag, Tag.key, heq]

/-- The pending datagrams that are due, in the order of their keys. -/
def dueInOrder (scheduler : DatagramScheduler) (now : Int) : List ScheduledDatagram :=
  (scheduler.pending.toList.filter fun d => d.dueAtNs ≤ now).mergeSort fun d d' => decide (d.key ≤ d'.key)

/-- Once the holds are released, this is what `pop_ready` hands out. -/
theorem eq_dueInOrder {s s' : DatagramScheduler} {now : Int} {items : List ScheduledDatagram}
    (h : DatagramScheduler.Pops s s' now items) (hnow : 0 ≤ now)
    (hpop : DatagramScheduler.popReady (.int now) s = (.ok items, s')) (hr : s.holdsReleased = true)
    (hd : DatagramScheduler.Distinct s.pending.toList) : items = dueInOrder s now := by
  have hready : s.ready now = fun d => decide (d.dueAtNs ≤ now) := by
    funext d
    rw [DatagramScheduler.ready, DatagramScheduler.eligible, hr, Bool.true_or, Bool.and_true]
  have hperm : items.Perm (dueInOrder s now) := by
    have hp := h.perm_ready.1
    rw [hready] at hp
    exact hp.trans (List.mergeSort_perm _ _).symm
  refine DatagramScheduler.eq_of_perm_of_sorted hperm ?_ (DatagramScheduler.popReady_sorted hnow hpop) ?_
  · exact (List.pairwise_append.mp (hd.of_perm h.perm.symm)).1
  · have htrans : IsTrans ScheduledDatagram fun d d' => d.key ≤ d'.key := ⟨fun _ _ _ => le_trans⟩
    have htotal : Std.Total fun d d' : ScheduledDatagram => d.key ≤ d'.key := ⟨fun _ _ => le_total _ _⟩
    exact List.pairwise_mergeSort' (fun d d' : ScheduledDatagram => d.key ≤ d'.key) _

/-- The sink takes the events that forwarding the due datagrams emits. -/
def TakesDue (S : EventSink σ) (now : Int) (s : RunState σ) : Prop :=
  Takes S now s (upcomingEmissions s (dueInOrder s.scheduler now))

/-- After the sends: the scheduler has given out what was due, all of it was forwarded. -/
structure Sends (s s' : RunState σ) (now : Int) : Prop where
  clockCalls : s'.clockCalls = s.clockCalls
  draining : s'.draining = s.draining
  receivedPackets : s'.receivedPackets = s.receivedPackets
  pops : ∃ items, DatagramScheduler.Pops s.scheduler s'.scheduler now items

theorem wp_sendReady {now : Int} {s : RunState σ} (h : Accounts S env maxPackets now s) :
    Method.wp (sendReady S env now)
      (fun _ s' => Accounts S env maxPackets now s' ∧ Sends s s' now ∧ (s.draining = true → TakesDue S now s))
      (fun _ s' => (∃ waiting, Log (s'.events S) waiting) ∧ s'.receivedPackets = s.receivedPackets ∧
        (Steady env → s.draining = true → Short s' ∧ ¬TakesDue S now s)) s := by
  by_cases hnow : 0 ≤ now
  · obtain ⟨items, sched, hpop, hpops⟩ := DatagramScheduler.popReady_spec s.scheduler hnow
    have hdue (hd : s.draining = true) : dueInOrder s.scheduler now = items :=
      (eq_dueInOrder hpops hnow hpop (h.released hd) h.distinct).symm
    refine Method.wp_bind (Method.wp_of_ok (Method.zoom_eq hpop) ?_)
    have hlog : Log (s.events S) (items.map ScheduledDatagram.tag ++ sched.pending.toList.map ScheduledDatagram.tag) :=
      h.log.of_perm (by rw [← List.map_append]; exact hpops.perm.map _)
    -- the invariant: what is left of the datagrams given out still waits, with the pending ones, and the sink has
    -- taken what was emitted for the others
    have hloop := Method.wp_forEach (f := sendItem S env now) (s := { s with scheduler := sched })
      (E := fun _ s' => ∃ done, Fails S env now { s with scheduler := sched } s' done ∧
        done <+: upcomingEmissions s items)
      (I := fun rest s' => ∃ done, Reported S env now { s with scheduler := sched } s' done
          (rest.map ScheduledDatagram.tag ++ sched.pending.toList.map ScheduledDatagram.tag) ∧
        done ++ upcomingEmissions s' rest = upcomingEmissions s items)
      ?_ ⟨[], .refl h.writes hlog, rfl⟩
    · refine Method.wp_mono hloop ?_ ?_
      · rintro _ s' ⟨done, hr, hdone⟩
        obtain ⟨es, hadds, hfw⟩ := hr.adds
        have hev : s'.events S = s.events S ++ es := hadds.events
        have hsched : s'.scheduler = sched := hadds.frame.scheduler
        have heng : s'.engine = s.engine := hadds.frame.engine
        have hdr : s'.draining = s.draining := hadds.frame.draining
        have hrec : s'.receivedPackets = s.receivedPackets := hadds.frame.receivedPackets
        refine ⟨⟨hr.writes, ?_, ?_, ?_, ?_, ?_, ?_, ?_⟩, ⟨hadds.frame.clockCalls, hdr, hrec, items, hsched ▸ hpops⟩,
          fun hd => ?_⟩
        · rw [hsched]; exact hr.log
        · rw [hev]; exact h.balance.append hfw.balanced
        · rw [hev, tagsOf_append, hfw.tagsOf, List.append_nil, heng]; exact h.older
        · rw [hsched, heng, hpops.highestPacketIndex]; exact h.newest
        · rw [heng]; exact h.index_nonneg
        · rw [hdr, hrec]; exact h.draining
        · rw [hdr, hsched, hpops.holdsReleased]; exact h.released
        · rw [TakesDue, hdue hd, ← hdone]
          exact (hr.takes []).mpr trivial
      · rintro _ s' ⟨done, hf, rest, hrest⟩
        refine ⟨hf.log, hf.receivedPackets, fun hs hd => ⟨(hf.refused hs).1, ?_⟩⟩
        rw [TakesDue, hdue hd, ← hrest]
        exact (hf.refused hs).2 rest
    · rintro d rest s1 ⟨done, hr, hdone⟩
      have hlog1 : Log (s1.events S) (d.tag :: (rest.map ScheduledDatagram.tag ++
          sched.pending.toList.map ScheduledDatagram.tag)) := hr.log
      refine Method.wp_mono (wp_sendItem hr.writes hlog1) ?_ fun _ s2 hf => ⟨_, hf.after hr, ?_⟩
      · rintro _ s2 ⟨hr', hnext⟩
        refine ⟨_, hr.trans hr', ?_⟩
        rw [← hdone, hnext rest, List.append_assoc]
      · rw [← hdone, upcomingEmissions_cons s1 d rest]
        exact (List.prefix_append_right_inj _).mpr (List.prefix_append ..)
  · rcases DatagramScheduler.popReady_cases s.scheduler (.int now) with ⟨e, he⟩ | ⟨t, _, _, ht, h0, _⟩
    · exact Method.wp_of_error (Method.bind_error (Method.zoom_eq he))
        ⟨⟨_, h.log⟩, rfl, fun hs => absurd (h.writes.now_nonneg hs) hnow⟩
    · rw [Json.int.inj ht] at hnow
      exact absurd h0 hnow

/-! ### Draining -/

/-- The wait at the end of a draining iteration that starts in `s`: until the earliest of the
datagrams that are not due at its start, from the clock reading after the sends. -/
def drainWait (env : Environment) (s : RunState σ) : Option Int :=
  ((s.scheduler.pending.toList.map ScheduledDatagram.dueAtNs).filter (env.clock s.clockCalls < ·)).min?.map
    (· - env.clock (s.clockCalls + 1))

/-- The wait in seconds is a float. -/
def WaitFits (env : Environment) (s : RunState σ) : Prop :=
  ∀ ns ∈ drainWait env s, (Float64.ofQuotient? (max 0 ns) 1000000000).isSome = true

/-- A draining iteration that starts in `s` gets through: the wait at its end is a float, and the sink takes the
events of its sends. -/
def Passable (S : EventSink σ) (env : Environment) (s : RunState σ) : Prop :=
  WaitFits env s ∧ TakesDue S (env.clock s.clockCalls) s

/-- Once the holds are released, what is pending after the sends is what was not due. -/
theorem nextDeadlineNs_of_pops {s s' : DatagramScheduler} {now : Int} {items : List ScheduledDatagram}
    (h : DatagramScheduler.Pops s s' now items) (hr : s'.holdsReleased = true) : s'.nextDeadlineNs =
      ((s.pending.toList.map ScheduledDatagram.dueAtNs).filter (now < ·)).min? := by
  have hel : ∀ d, s.eligible d = true := fun d => by simp [DatagramScheduler.eligible, ← h.holdsReleased, hr]
  rw [h.nextDeadlineNs, DatagramScheduler.upcoming, List.filter_map]
  refine congrArg (fun l : List ScheduledDatagram => (l.map ScheduledDatagram.dueAtNs).min?) ?_
  exact List.filter_congr fun d _ => by simp [hel]

theorem nextDeadlineNs_isSome {s : DatagramScheduler} (hr : s.holdsReleased = true) (h : s.pendingCount ≠ 0) :
    ∃ deadline, s.nextDeadlineNs = some deadline :=
  Option.ne_none_iff_exists'.mp fun hnone => h ((DatagramScheduler.nextDeadlineNs_eq_none_of_released hr).mp hnone)

/-- The end of a draining iteration: the loop is left only with nothing pending, and raises exactly
when the wait does not fit a float. -/
theorem wp_drain {s : RunState σ} (hr : s.scheduler.holdsReleased = true) : Method.wp (drain env pollIntervalS)
    (fun flow s' => flow ≠ .stopped ∧ (flow ≠ .again → s.scheduler.pendingCount = 0) ∧
      (∃ k, s.clockCalls ≤ k ∧ s' = { s with clockCalls := k }) ∧
      ∀ deadline ∈ s.scheduler.nextDeadlineNs,
        (Float64.ofQuotient? (max 0 (deadline - env.clock s.clockCalls)) 1000000000).isSome = true)
    (fun _ s' => s' = { s with clockCalls := s.clockCalls + 1 } ∧ s.scheduler.pendingCount ≠ 0 ∧
      ∃ deadline ∈ s.scheduler.nextDeadlineNs,
        Float64.ofQuotient? (max 0 (deadline - env.clock s.clockCalls)) 1000000000 = none) s := by
  refine Method.wp_bind (Method.wp_of_ok (Method.get_apply s) ?_)
  split_ifs with hcount
  · have hnil : s.scheduler.pending.toList = [] := List.length_eq_zero_iff.mp hcount
    refine Method.wp_of_ok (Method.pure_apply _ s) ⟨by decide, fun _ => hcount, ⟨s.clockCalls, le_refl _, rfl⟩, ?_⟩
    simp [DatagramScheduler.nextDeadlineNs, hnil]
  · obtain ⟨deadline, hd⟩ := nextDeadlineNs_isSome hr hcount
    rw [hd]
    have hclock : readClock env s = (.ok (env.clock s.clockCalls), { s with clockCalls := s.clockCalls + 1 }) := rfl
    refine Method.wp_bind (Method.wp_of_ok hclock ?_)
    cases hq : Float64.ofQuotient? (max 0 (deadline - env.clock s.clockCalls)) 1000000000 with
    | none =>
      refine Method.wp_of_error (Method.bind_error (Method.lift_eq (by rw [clampWait, hq]) _)) ⟨rfl, hcount, ?_⟩
      exact ⟨deadline, rfl, hq⟩
    | some remaining =>
      refine Method.wp_bind (Method.wp_of_ok (Method.lift_eq (by rw [clampWait, hq]) _) ?_)
      refine Method.wp_of_ok (Method.pure_apply _ _) ⟨by decide, by simp, ⟨s.clockCalls + 1, Nat.le_succ _, rfl⟩, ?_⟩
      rintro _ ⟨⟩
      rw [hq]; rfl

/-! ### Receiving -/

theorem nodup_keys_scheduled {config : LinkConfig} {raw : Bytes} {index : Int} {o : PacketOutcome}
    (h : ImpairmentEngine.Impairs config raw index o) (t : Int) :
    (((DatagramScheduler.scheduled o t).map ScheduledDatagram.tag).map Tag.key).Nodup := by
  rcases h.deliveries with ⟨-, hnil⟩ | ⟨-, d, copies, -, rfl | rfl, hds⟩
  · simp [DatagramScheduler.scheduled, hnil]
  · simp [DatagramScheduler.scheduled, hds]
  · simp [DatagramScheduler.scheduled, hds, ScheduledDatagram.tag, Tag.key]

/-- The events of the outcome of the next packet, as far as they were recorded, keep the accounting. -/
theorem log_emissions {now : Int} {raw : Bytes} {o : PacketOutcome} {es : List LinkEvent} {done : List Emission}
    {s s' : RunState σ} (h : Accounts S env maxPackets now s)
    (ho : ImpairmentEngine.Impairs s.engine.config raw s.engine.packetIndex o)
    (hemits : Says o.packetIndex es done) (hdone : done <+: outcomeEmissions raw o)
    (hev : s'.events S = s.events S ++ es) : Log (s'.events S)
      (s.scheduler.pending.toList.map ScheduledDatagram.tag ++ tagsOf .DELIVERY_SCHEDULED es) := by
  rw [hev]
  have htags : tagsOf .DELIVERY_SCHEDULED es <+: (DatagramScheduler.scheduled o 0).map ScheduledDatagram.tag := by
    rw [hemits.tagsOf, ← tag_deliveryAttributes]
    have := (hdone.filter fun x => x.1 = .DELIVERY_SCHEDULED).map (Emission.tag o.packetIndex)
    rwa [filter_outcomeEmissions ho.deliveries_eq_nil, List.map_map] at this
  refine h.log.schedule ?_ ?_ ?_
  · intro e he ht
    obtain ⟨x, hx, heq⟩ := hemits.mem he
    exact (valid_outcomeEmissions raw o x (hdone.subset hx)).2 (heq.trans ht)
  · exact ((htags.map Tag.key).sublist).nodup (nodup_keys_scheduled ho 0)
  · intro t ht t' ht' hk
    obtain ⟨i, hi, hlt⟩ := h.older t ht
    obtain ⟨d, hd, rfl⟩ := List.mem_map.mp (htags.subset ht')
    have hidx : d.packetIndex = s.engine.packetIndex := by
      rw [DatagramScheduler.scheduled, List.mem_map] at hd
      obtain ⟨_, -, rfl⟩ := hd
      exact ho.packetIndex
    have hpi : t.packetIndex = .int d.packetIndex := congrArg Prod.fst hk
    rw [hi, hidx] at hpi
    exact absurd (Scalar.int.inj hpi) (ne_of_lt hlt)

theorem balanced_emissions {raw : Bytes} {o : PacketOutcome} {es : List LinkEvent} {s : RunState σ}
    (h : Balanced (s.events S)) (ho : ImpairmentEngine.Impairs s.engine.config raw s.engine.packetIndex o)
    (hemits : Says o.packetIndex es (outcomeEmissions raw o)) : Balanced (s.events S ++ es) := by
  refine h.append ?_
  rw [Balanced, hemits.typeCount, hemits.typeCount, hemits.typeCount, hemits.typeCount]
  exact countP_outcomeEmissions ho

theorem older_emissions {now : Int} {o : PacketOutcome} {es : List LinkEvent} {emissions : List Emission}
    {s : RunState σ} (h : Accounts S env maxPackets now s) (ho : o.packetIndex = s.engine.packetIndex)
    (hemits : Says o.packetIndex es emissions) :
    ∀ t ∈ tagsOf .DELIVERY_SCHEDULED (s.events S ++ es),
      ∃ i, t.packetIndex = .int i ∧ i < s.engine.packetIndex + 1 := by
  rw [tagsOf_append]
  intro t ht
  rcases List.mem_append.mp ht with ht | ht
  · obtain ⟨i, hi, hlt⟩ := h.older t ht
    exact ⟨i, hi, by omega⟩
  · rw [hemits.tagsOf] at ht
    obtain ⟨x, -, rfl⟩ := List.mem_map.mp ht
    exact ⟨o.packetIndex, rfl, by rw [ho]; omega⟩

theorem wp_beginDraining {now : Int} {s : RunState σ} (hw : Writes S env now s.eventStream)
    (hlog : Log (s.events S) (s.scheduler.pending.toList.map ScheduledDatagram.tag)) (hbal : Balanced (s.events S))
    (holder : ∀ t ∈ tagsOf .DELIVERY_SCHEDULED (s.events S), ∃ i, t.packetIndex = .int i ∧ i < s.engine.packetIndex)
    (hnewest : s.scheduler.highestPacketIndex < s.engine.packetIndex) (hidx : 0 ≤ s.engine.packetIndex)
    (hd : s.draining = false) : Method.wp (beginDraining maxPackets)
      (fun _ s' => Accounts S env maxPackets now s' ∧ s'.clockCalls = s.clockCalls) (fun _ _ => False) s := by
  refine Method.wp_bind (Method.wp_of_ok (Method.get_apply s) ?_)
  split_ifs with hmax
  · refine Method.wp_of_ok (Method.bind_ok (Method.zoom_eq (Method.modify_apply _ _))) ⟨?_, rfl⟩
    exact ⟨hw, hlog, hbal, holder, hnewest, hidx, by simpa using hmax, fun _ => rfl⟩
  · refine Method.wp_of_ok (Method.pure_apply () s) ⟨?_, rfl⟩
    exact ⟨hw, hlog, hbal, holder, hnewest, hidx, by rw [hd]; simpa using hmax, fun h => by rw [hd] at h; cases h⟩

/-- An exception after which the log still accounts and no packet was counted. -/
structure Breaks (S : EventSink σ) (s s' : RunState σ) : Prop where
  log : ∃ waiting, Log (s'.events S) waiting
  receivedPackets : s'.receivedPackets = s.receivedPackets

theorem wp_accept {now : Int} {raw : Bytes} {s : RunState σ} (h : Accounts S env maxPackets now s)
    (hnow : Steady env → now ≤ env.clock s.clockCalls) (hd : s.draining = false) :
    Method.wp (accept S env maxPackets raw)
      (fun _ s' => Accounts S env maxPackets (env.clock s.clockCalls) s' ∧ s'.clockCalls = s.clockCalls + 1)
      (fun _ s' => Breaks S s s') s := by
  have hclock : readClock env s = (.ok (env.clock s.clockCalls), { s with clockCalls := s.clockCalls + 1 }) := rfl
  refine Method.wp_bind (Method.wp_of_ok hclock ?_)
  obtain ⟨o, engine, hproc, him, -, hindex⟩ := ImpairmentEngine.process_spec raw s.engine
  refine Method.wp_bind (Method.wp_of_ok (Method.zoom_eq hproc) ?_)
  rw [emitOutcome_eq him.deliveries_ne_nil]
  have hw := (h.writes.mono hnow)
  refine Method.wp_bind (Method.wp_mono (wp_emits (s := { s with clockCalls := s.clockCalls + 1, engine := engine }) hw
    (fun x hx => (valid_outcomeEmissions raw o x hx).1) (by rw [him.packetIndex]; exact h.index_nonneg)) ?_ ?_)
  · rintro _ s1 ⟨es, hemits, hadds, hw1⟩
    have hev : s1.events S = s.events S ++ es := hadds.events
    have hsched : s1.scheduler = s.scheduler := hadds.frame.scheduler
    have heng : s1.engine = engine := hadds.frame.engine
    have hlog := log_emissions h him hemits (List.prefix_refl _) hev
    have htags : tagsOf .DELIVERY_SCHEDULED es =
        (DatagramScheduler.scheduled o (env.clock s.clockCalls)).map ScheduledDatagram.tag := by
      rw [hemits.tagsOf, filter_outcomeEmissions him.deliveries_eq_nil, List.map_map, ← tag_deliveryAttributes]
      rfl
    by_cases ht : 0 ≤ env.clock s.clockCalls
    · have hnew : s1.scheduler.highestPacketIndex < o.packetIndex := by
        rw [hsched, him.packetIndex]; exact h.newest
      refine Method.wp_bind (Method.wp_of_ok (Method.zoom_eq (DatagramScheduler.enqueue_spec _ ht hnew)) ?_)
      refine Method.wp_bind (Method.wp_of_ok (Method.modify_apply _ _) ?_)
      have hpending : (s.scheduler.pending.toList.map ScheduledDatagram.tag ++ tagsOf .DELIVERY_SCHEDULED es).Perm
          ((s1.scheduler.pending.pushAll (DatagramScheduler.scheduled o (env.clock s.clockCalls))).toList.map
            ScheduledDatagram.tag) := by
        rw [htags, ← List.map_append, hsched]
        exact (List.perm_append_comm.trans (Heapq.Heap.toList_pushAll _ _).symm).map _
      refine Method.wp_mono (wp_beginDraining hw1
        (hlog.of_perm hpending.symm) ?_ ?_ ?_ ?_ (hadds.frame.draining.trans hd)) ?_ fun _ _ => False.elim
      · show Balanced (s1.events S)
        rw [hev]
        exact balanced_emissions h.balance him hemits
      · show ∀ t ∈ tagsOf .DELIVERY_SCHEDULED (s1.events S), ∃ i, t.packetIndex = .int i ∧ i < s1.engine.packetIndex
        rw [hev, heng, hindex]
        exact older_emissions h him.packetIndex hemits
      · show o.packetIndex < s1.engine.packetIndex
        rw [heng, hindex, him.packetIndex]; omega
      · show 0 ≤ s1.engine.packetIndex
        have := h.index_nonneg
        rw [heng, hindex]; omega
      · rintro _ s' ⟨hacc, hcalls⟩
        exact ⟨hacc, hcalls.trans hadds.frame.clockCalls⟩
    · rcases DatagramScheduler.enqueue_cases s1.scheduler o (.int (env.clock s.clockCalls)) with
        ⟨e, he⟩ | ⟨t, htt, h0, _⟩
      · exact Method.wp_of_error (Method.bind_error (Method.zoom_eq he)) ⟨⟨_, hlog⟩, hadds.frame.receivedPackets⟩
      · rw [Json.int.inj htt] at ht
        exact absurd h0 ht
  · rintro _ s1 ⟨es, done, hdone, hemits, hadds⟩
    exact ⟨⟨_, log_emissions h him hemits hdone hadds.events⟩, hadds.frame.receivedPackets⟩

theorem wp_receive {now : Int} {k : Nat} {s : RunState σ} (h : Accounts S env maxPackets now s)
    (hnow : Steady env → now ≤ env.clock s.clockCalls) (hd : s.draining = false) :
    Method.wp (receive S env pollIntervalS maxPackets now k)
      (fun flow s' => flow = .again ∧ Accounts S env maxPackets (env.clock s'.clockCalls) s')
      (fun _ s' => Breaks S s s') s := by
  refine Method.wp_bind (Method.wp_of_ok (Method.get_apply s) ?_)
  cases ht : receiveTimeout pollIntervalS s.scheduler now with
  | error e => exact Method.wp_of_error (Method.bind_error (Method.lift_apply _ s)) ⟨⟨_, h.log⟩, rfl⟩
  | ok timeout =>
    refine Method.wp_bind (Method.wp_of_ok (Method.lift_apply _ s) ?_)
    cases env.recv k with
    | timeout => exact Method.wp_of_ok (Method.pure_apply _ s) ⟨rfl, h.mono hnow⟩
    | failed e => exact Method.wp_of_error (Method.raise_apply e s) ⟨⟨_, h.log⟩, rfl⟩
    | datagram raw =>
      refine Method.wp_bind (Method.wp_mono (wp_accept h hnow hd) ?_ fun _ _ hb => hb)
      rintro _ s' ⟨hacc, hcalls⟩
      refine Method.wp_of_ok (Method.pure_apply _ s') ⟨rfl, hacc.mono fun hs => ?_⟩
      rw [hcalls]
      exact hs.clock (Nat.le_succ _)

/-! ### Iterations -/

/-- What an iteration that does not raise does. -/
structure Iterates (S : EventSink σ) (env : Environment) (maxPackets : Option Int) (k : Nat) (s s' : RunState σ)
    (flow : Flow) : Prop where
  accounts : Accounts S env maxPackets (env.clock s'.clockCalls) s'
  stopped : flow = .stopped → env.stop k = true
  drained : flow ≠ .again → flow ≠ .stopped → s'.scheduler.pendingCount = 0
  fits : s.draining = true → env.stop k = false → Passable S env s

/-- What an iteration that raises does; while draining in a steady run only an unfit wait or the sink raises,
and something is left to do. -/
structure Aborts (S : EventSink σ) (env : Environment) (k : Nat) (s s' : RunState σ) : Prop where
  breaks : Breaks S s s'
  going : env.stop k = false
  unfit : Steady env → s.draining = true → (s'.scheduler.pendingCount ≠ 0 ∨ Short s') ∧ ¬Passable S env s

theorem wp_iteration {k : Nat} {s : RunState σ} (h : Accounts S env maxPackets (env.clock s.clockCalls) s) :
    Method.wp (iteration S env pollIntervalS maxPackets k) (fun flow s' => Iterates S env maxPackets k s s' flow)
      (fun _ s' => Aborts S env k s s') s := by
  unfold iteration
  by_cases hstop : env.stop k = true
  · rw [if_pos hstop]
    refine Method.wp_of_ok (Method.pure_apply _ s) ⟨h, fun _ => hstop, fun _ hne => absurd rfl hne, fun _ hgo => ?_⟩
    rw [hstop] at hgo; cases hgo
  rw [if_neg hstop]
  have hclock : readClock env s = (.ok (env.clock s.clockCalls), { s with clockCalls := s.clockCalls + 1 }) := rfl
  refine Method.wp_bind (Method.wp_of_ok hclock ?_)
  refine Method.wp_bind (Method.wp_mono (wp_sendReady (h.tick (s.clockCalls + 1))) ?_ ?_)
  · rintro _ s1 ⟨hacc, hsends, htakes⟩
    obtain ⟨items, hpops⟩ := hsends.pops
    have hcalls : s1.clockCalls = s.clockCalls + 1 := hsends.clockCalls
    have hdr : s1.draining = s.draining := hsends.draining
    have hrec : s1.receivedPackets = s.receivedPackets := hsends.receivedPackets
    have hnow : Steady env → env.clock s.clockCalls ≤ env.clock s1.clockCalls := fun hs => by
      rw [hcalls]; exact hs.clock (Nat.le_succ _)
    refine Method.wp_bind (Method.wp_of_ok (Method.get_apply s1) ?_)
    cases hdraining : s1.draining with
    | false =>
      rw [if_neg (by decide)]
      have hno : s.draining ≠ true := by rw [← hdr, hdraining]; decide
      refine Method.wp_mono (wp_receive hacc hnow hdraining) ?_ ?_
      · rintro flow s' ⟨rfl, hacc'⟩
        exact ⟨hacc', nofun, fun hne => absurd rfl hne, fun hd => absurd hd hno⟩
      · rintro _ s' hb
        exact ⟨⟨hb.log, hb.receivedPackets.trans hrec⟩, by simpa using hstop, fun _ hd => absurd hd hno⟩
    | true =>
      rw [if_pos rfl]
      have hrel := hacc.released hdraining
      have hdeadline := nextDeadlineNs_of_pops hpops hrel
      have hwait : drainWait env s = s1.scheduler.nextDeadlineNs.map (· - env.clock s1.clockCalls) := by
        rw [hdeadline, hcalls]
        rfl
      refine Method.wp_mono (wp_drain hrel) ?_ ?_
      · rintro flow s' ⟨hns, hcount, ⟨c, hc, rfl⟩, hfits⟩
        refine ⟨(hacc.tick c).mono fun hs => ?_, fun he => absurd he hns, fun hna _ => hcount hna,
          fun hd _ => ⟨?_, htakes hd⟩⟩
        · exact (hnow hs).trans (hs.clock hc)
        · intro ns hns'
          rw [hwait, Option.mem_def, Option.map_eq_some_iff] at hns'
          obtain ⟨deadline, hd, rfl⟩ := hns'
          exact hfits deadline hd
      · rintro _ s' ⟨rfl, hcount, deadline, hd, hq⟩
        refine ⟨⟨⟨_, hacc.log⟩, hrec⟩, by simpa using hstop, fun _ _ => ⟨.inl hcount, fun hpass => ?_⟩⟩
        have := hpass.1 (deadline - env.clock s1.clockCalls) (by rw [hwait, Option.mem_def.mp hd]; rfl)
        rw [hq] at this
        cases this
  · rintro _ s' ⟨hlog, hrec, hrefused⟩
    refine ⟨⟨hlog, hrec⟩, by simpa using hstop, fun hs hd => ?_⟩
    obtain ⟨hshort, hno⟩ := hrefused hs hd
    exact ⟨.inr hshort, fun hpass => hno hpass.2⟩

/-! ### Runs -/

def Progress.state : Progress σ → RunState σ
  | .running s | .left _ s | .raised _ s => s

/-- The run is at its loop head, or left the loop there. -/
def Progress.AtLoop (s : RunState σ) : Progress σ → Prop
  | .running s' | .left _ s' => s' = s
  | .raised _ _ => False

/-- The run left its loop without being stopped. -/
def Progress.Leaves (s : RunState σ) : Progress σ → Prop
  | .running _ => False
  | .left flow s' => flow ≠ .stopped ∧ s' = s
  | .raised _ s' => s' = s

theorem raised_iteration {s₀ s : RunState σ} {e : PyError} {n : Nat}
    (h : iterations S env pollIntervalS maxPackets s₀ n = .raised e s) : ∃ k s₁,
      iterations S env pollIntervalS maxPackets s₀ k = .running s₁ ∧
      iteration S env pollIntervalS maxPackets k s₁ = (.error e, s) := by
  induction n with
  | zero => cases h
  | succ n ih =>
    cases hn : iterations S env pollIntervalS maxPackets s₀ n with
    | running s₁ =>
      rcases hi : iteration S env pollIntervalS maxPackets n s₁ with ⟨e' | flow, s'⟩
      · simp only [iterations, hn, hi] at h
        cases h
        exact ⟨n, s₁, hn, hi⟩
      · cases flow <;> simp only [iterations, hn, hi, reduceCtorEq] at h
    | left flow s' => simp only [iterations, hn, reduceCtorEq] at h
    | raised e' s' =>
      simp only [iterations, hn] at h
      exact ih (hn.trans h)

/-- What holds wherever a run is. -/
def Progress.Accounted (S : EventSink σ) (env : Environment) (maxPackets : Option Int) : Progress σ → Prop
  | .running s => Accounts S env maxPackets (env.clock s.clockCalls) s
  | .left flow s => Accounts S env maxPackets (env.clock s.clockCalls) s ∧
      (flow ≠ .stopped → s.scheduler.pendingCount = 0)
  | .raised _ s => ∃ waiting, Log (s.events S) waiting

theorem accounted_iterations {s₀ : RunState σ} (h : Accounts S env maxPackets (env.clock s₀.clockCalls) s₀) (n : Nat) :
    (iterations S env pollIntervalS maxPackets s₀ n).Accounted S env maxPackets := by
  induction n with
  | zero => exact h
  | succ n ih =>
    cases hn : iterations S env pollIntervalS maxPackets s₀ n with
    | running s =>
      rw [hn] at ih
      have hwp : Method.wp (iteration S env pollIntervalS maxPackets n) _ _ s := wp_iteration ih
      rcases hi : iteration S env pollIntervalS maxPackets n s with ⟨e | flow, s'⟩
      · simp only [iterations, hn, hi]
        exact (hwp.of_error hi).breaks.log
      · have hstep := hwp.of_ok hi
        cases flow with
        | again => simp only [iterations, hn, hi]; exact hstep.accounts
        | stopped => simp only [iterations, hn, hi]; exact ⟨hstep.accounts, fun hne => absurd rfl hne⟩
        | drained => simp only [iterations, hn, hi]; exact ⟨hstep.accounts, fun hne => hstep.drained nofun hne⟩
        | noDeadline => simp only [iterations, hn, hi]; exact ⟨hstep.accounts, fun hne => hstep.drained nofun hne⟩
    | left flow s => rw [hn] at ih; simp only [iterations, hn]; exact ih
    | raised e s => rw [hn] at ih; simp only [iterations, hn]; exact ih

theorem accounts_start {config : LinkConfig} {sessionId : String} {metadata : LinkRunMetadata} {sink : σ}
    {s₀ : RunState σ} (hstart : start S env maxPackets config sessionId metadata sink = .ok s₀)
    (h0 : S.recorded sink = []) : Accounts S env maxPackets (env.clock s₀.clockCalls) s₀ := by
  unfold start at hstart
  split_ifs at hstart with hmax
  obtain ⟨stream, hnew, hstart⟩ := except_bind_eq_ok.mp hstart
  have hrec := LinkEventStream.records_new (S := S) hnew
  rw [h0] at hrec
  rcases LinkEventStream.emitRunMetadata_cases (S := S) metadata (.int (env.clock 0)) stream with
    ⟨e, s', he, -, -⟩ | ⟨e, s', now, hnow, hok, hopen, hidx, hem⟩
  · rw [he] at hstart; cases hstart
  · rw [hok] at hstart
    cases hstart
    obtain rfl : env.clock 0 = now := Json.int.inj hnow
    unfold LinkEventStream.new at hnew
    simp only at hnew
    split_ifs at hnew with hblank hneg
    cases hnew
    have hrec' := hrec.emitted_open rfl hem (by simp) (by decide)
    have ht : e.eventType = .RUN_METADATA := (LinkEvent.fields_of_new hem.built).2.2.2.1
    have hev : S.recorded s'.sink = [e] := by rw [hem.recorded, h0, List.nil_append]
    have hsched : tagsOf .DELIVERY_SCHEDULED [e] = [] := by rw [tagsOf_singleton, if_neg (by simp [ht])]
    refine ⟨⟨hrec', ?_, ?_, ?_, fun hs => ?_⟩, ?_, ?_, ?_, neg_one_lt_zero, le_refl 0, by simpa using hmax, nofun⟩
    · rw [hem.state]
    · rw [hem.state]; exact Nat.succ_ne_zero _
    · rw [hem.state]; exact not_lt.mp hneg
    · rw [hem.state]
      simpa using hs.clock (Nat.zero_le 1)
    · show Log (S.recorded s'.sink) []
      rw [hev]
      have hempty : Log [] [] := ⟨.nil, .refl _, trivial⟩
      exact hempty.other (by simp [ht]) (by simp [ht])
    · show Balanced (S.recorded s'.sink)
      rw [hev]
      simp [Balanced, typeCount, ht]
    · show ∀ t ∈ tagsOf .DELIVERY_SCHEDULED (S.recorded s'.sink), _
      rw [hev, hsched]
      exact fun t ht => by cases ht

/-- The equations between the counters and the pending datagrams. -/
structure Balances (s : RunState σ) : Prop where
  scheduled : (s.eventStream.statistics.deliveriesScheduled : Int) = s.eventStream.statistics.packetsReceived -
    s.eventStream.statistics.packetsDropped + s.eventStream.statistics.packetsDuplicated
  pending : s.eventStream.statistics.deliveriesScheduled =
    s.eventStream.statistics.deliveriesForwarded + s.scheduler.pendingCount

theorem Accounts.balances {now : Int} {s : RunState σ} (h : Accounts S env maxPackets now s) : Balances s := by
  have hstats := h.writes.statistics
  rw [statisticsFromEvents_eq] at hstats
  have hbal := h.balance
  have hlog := h.log.scheduled_eq
  rw [List.length_map] at hlog
  unfold Balanced events at hbal
  constructor
  · rw [hstats]; dsimp only; omega
  · rw [hstats]; exact hlog

theorem Progress.Accounted.balances {p : Progress σ} {s : RunState σ} (h : p.Accounted S env maxPackets)
    (hs : p.AtLoop s) : Balances s := by
  cases p with
  | running s' => cases hs; exact Accounts.balances h
  | left flow s' => cases hs; exact h.1.balances
  | raised e s' => cases hs

theorem Progress.Accounted.exists_log {p : Progress σ} (h : p.Accounted S env maxPackets) :
    ∃ waiting, Log (p.state.events S) waiting := by
  cases p with
  | running s => exact ⟨_, Accounts.log h⟩
  | left flow s => exact ⟨_, h.1.log⟩
  | raised e s => exact h

/-- A run that has its packets and was not stopped leaves its loop with nothing pending. -/
def Drains (S : EventSink σ) (env : Environment) (pollIntervalS : Float64) (maxPackets : Option Int)
    (s₀ : RunState σ) : Prop :=
  ∀ n s, (iterations S env pollIntervalS maxPackets s₀ n).Leaves s → (∃ m ∈ maxPackets, m ≤ (s.receivedPackets : Int)) →
    s.scheduler.pendingCount = 0 ∧
      s.eventStream.statistics.deliveriesForwarded = s.eventStream.statistics.deliveriesScheduled

/-- A draining iteration that does not get through would raise with something left to do. -/
theorem passable_of_drains {s₀ : RunState σ} (hsteady : Steady env)
    (hacc : ∀ n, (iterations S env pollIntervalS maxPackets s₀ n).Accounted S env maxPackets)
    (hdrains : Drains S env pollIntervalS maxPackets s₀) {n : Nat} {s : RunState σ}
    (hn : iterations S env pollIntervalS maxPackets s₀ n = .running s) (hd : s.draining = true)
    (hgo : env.stop n = false) : Passable S env s := by
  have h := hacc n
  rw [hn] at h
  have hwp : Method.wp (iteration S env pollIntervalS maxPackets n) _ _ s := wp_iteration h
  rcases hi : iteration S env pollIntervalS maxPackets n s with ⟨e | flow, s'⟩
  · have habort := hwp.of_error hi
    have hraised : iterations S env pollIntervalS maxPackets s₀ (n + 1) = .raised e s' := by
      simp only [iterations, hn, hi]
    have hmax : ∃ m ∈ maxPackets, m ≤ (s'.receivedPackets : Int) := by
      rw [habort.breaks.receivedPackets]; exact h.draining.mp hd
    have hempty := hdrains (n + 1) s' (by rw [hraised]; rfl) hmax
    rcases (habort.unfit hsteady hd).1 with hpending | hshort
    · exact absurd hempty.1 hpending
    · exact absurd hempty.2 hshort.ne
  · exact (hwp.of_ok hi).fits hd hgo

/-- Where the draining iterations get through, a run that has its packets does not raise, and it leaves its loop
drained. -/
theorem drains_of_passable {s₀ : RunState σ} (hsteady : Steady env)
    (hacc : ∀ n, (iterations S env pollIntervalS maxPackets s₀ n).Accounted S env maxPackets)
    (hpass : ∀ n s, iterations S env pollIntervalS maxPackets s₀ n = .running s → s.draining = true →
      env.stop n = false → Passable S env s) : Drains S env pollIntervalS maxPackets s₀ := by
  intro n s hleaves hmax
  have h := hacc n
  cases hn : iterations S env pollIntervalS maxPackets s₀ n with
  | running s' => rw [hn] at hleaves; cases hleaves
  | left flow s' =>
    rw [hn] at h hleaves
    obtain ⟨hne, rfl⟩ := hleaves
    have hcount := h.2 hne
    have hpending := h.1.balances.pending
    exact ⟨hcount, by omega⟩
  | raised e s' =>
    rw [hn] at hleaves
    obtain rfl : s' = s := hleaves
    obtain ⟨k, s₁, hk, hi⟩ := raised_iteration hn
    have h₁ := hacc k
    rw [hk] at h₁
    have hwp : Method.wp (iteration S env pollIntervalS maxPackets k) _ _ s₁ := wp_iteration h₁
    have habort := hwp.of_error hi
    rw [habort.breaks.receivedPackets] at hmax
    have hd := h₁.draining.mpr hmax
    exact absurd (hpass k s₁ hk hd habort.going) (habort.unfit hsteady hd).2

/-- At every loop head the counters and the pending datagrams are accounted for; wherever the run
is, each forwarded copy was scheduled exactly once before it, with the same flipped bit and length,
and is forwarded once; and when time does not go back and datagrams are sent whole, the run drains
exactly when in its draining iterations the waits fit a float and the sink takes the events of the sends. -/
theorem iterations_account {config : LinkConfig} {sessionId : String} {metadata : LinkRunMetadata} {sink : σ}
    {s₀ : RunState σ} (hstart : start S env maxPackets config sessionId metadata sink = .ok s₀)
    (h0 : S.recorded sink = []) :
    (∀ n s, (iterations S env pollIntervalS maxPackets s₀ n).AtLoop s → Balances s) ∧
    (∀ n pre e suf, (iterations S env pollIntervalS maxPackets s₀ n).state.events S = pre ++ e :: suf →
      e.eventType = .PACKET_FORWARDED →
      (∃ d, pre.filter (fun f => f.eventType = .DELIVERY_SCHEDULED ∧ f.tag.key = e.tag.key) = [d] ∧ d.tag = e.tag) ∧
      ∀ f ∈ pre ++ suf, f.eventType = .PACKET_FORWARDED → f.tag.key ≠ e.tag.key) ∧
    (Steady env → (Drains S env pollIntervalS maxPackets s₀ ↔
      ∀ n s, iterations S env pollIntervalS maxPackets s₀ n = .running s → s.draining = true → env.stop n = false →
        Passable S env s)) := by
  have hacc (n : Nat) : (iterations S env pollIntervalS maxPackets s₀ n).Accounted S env maxPackets :=
    accounted_iterations (accounts_start hstart h0) n
  refine ⟨fun n s hs => (hacc n).balances hs, fun n pre e suf hes ht => ?_, fun hsteady => ⟨fun hdrains n s hn => ?_, ?_⟩⟩
  · obtain ⟨waiting, hlog⟩ := (hacc n).exists_log
    exact hlog.forwarded_once hes ht
  · exact passable_of_drains hsteady hacc hdrains hn
  · exact drains_of_passable hsteady hacc

/-- How a run has left its loop, and the state then. -/
def Progress.ended? : Progress σ → Option (Except PyError Flow × RunState σ)
  | .running _ => none
  | .left flow s => some (.ok flow, s)
  | .raised e s => some (.error e, s)

theorem Progress.eq_left {p : Progress σ} {flow : Flow} {s : RunState σ} (h : p.ended? = some (.ok flow, s)) :
    p = .left flow s := by
  cases p with
  | running s' => cases h
  | left flow' s' => cases h; rfl
  | raised e s' => cases h

theorem Progress.eq_raised {p : Progress σ} {e : PyError} {s : RunState σ} (h : p.ended? = some (.error e, s)) :
    p = .raised e s := by
  cases p with
  | running s' => cases h
  | left flow' s' => cases h
  | raised e' s' => cases h; rfl

/-- A run that starts and ends, with what `f` shows of its last state. -/
theorem exists_ended {β : Type} (x : Result (RunState σ)) (run : RunState σ → Progress σ) (f : RunState σ → β)
    (r : Except PyError Flow) (b : β)
    (h : (x.toOption.bind fun s₀ => (run s₀).ended?.map fun y => (y.1, f y.2)) = some (r, b)) :
    ∃ s₀ s, x = .ok s₀ ∧ (run s₀).ended? = some (r, s) ∧ f s = b := by
  cases x with
  | error e => cases h
  | ok s₀ =>
    obtain ⟨⟨r', s⟩, hend, heq⟩ := Option.map_eq_some_iff.mp (show (run s₀).ended?.map _ = _ from h)
    cases heq
    exact ⟨s₀, s, rfl, hend, rfl⟩

/-- A run that has left its loop stays where it is. -/
theorem iterations_ended {s₀ : RunState σ} {n m : Nat} {p : Progress σ}
    (hn : iterations S env pollIntervalS maxPackets s₀ n = p) (hp : ∀ s, p ≠ .running s) (hle : n ≤ m) :
    iterations S env pollIntervalS maxPackets s₀ m = p := by
  induction hle with
  | refl => exact hn
  | step _ ih =>
    cases p with
    | running s => exact absurd rfl (hp s)
    | left flow s => simp only [iterations, ih]
    | raised e s => simp only [iterations, ih]

/-- A run that has left its loop with nothing pending drains. -/
theorem drains_of_left {s₀ s : RunState σ} {n : Nat} {flow : Flow}
    (hn : iterations S env pollIntervalS maxPackets s₀ n = .left flow s) (hcount : s.scheduler.pendingCount = 0)
    (hforwarded : s.eventStream.statistics.deliveriesForwarded = s.eventStream.statistics.deliveriesScheduled) :
    Drains S env pollIntervalS maxPackets s₀ := by
  intro m s' hleaves _
  have hsame : iterations S env pollIntervalS maxPackets s₀ m = .left flow s := by
    rcases le_total n m with hle | hle
    · exact iterations_ended hn (by simp) hle
    · cases hm : iterations S env pollIntervalS maxPackets s₀ m with
      | running s₁ => rw [hm] at hleaves; cases hleaves
      | left flow' s₁ => exact (iterations_ended hm (by simp) hle).symm.trans hn
      | raised e s₁ => exact (iterations_ended hm (by simp) hle).symm.trans hn
  rw [hsame] at hleaves
  obtain ⟨-, rfl⟩ := hleaves
  exact ⟨hcount, hforwarded⟩

/-- `_DEFAULT_POLL_INTERVAL_S`, `0.05`. -/
def defaultPollIntervalS : Float64 := ⟨0x3FA999999999999A#64⟩

/-- Four packets. -/
def busyPackets : List (TelemetryPacket Int) := [1, 2, 3, 4].map fun n => { nominalPacket with sequence := n }

/-- The packets arrive in every other iteration, while time goes on. -/
def busyEnvironment : Environment where
  clock c := c * 500000
  stop _ := false
  recv k :=
    match busyPackets[k / 2]? with
    | some packet => if k % 2 = 0 then .datagram (encoding packet) else .timeout
    | none => .timeout
  sendto _ payload := .ok payload.length

theorem steady_busy : Steady busyEnvironment := by
  refine ⟨fun c c' h => ?_, fun _ _ => rfl⟩
  show (c * 500000 : Int) ≤ c' * 500000
  omega

abbrev busyStart (S : EventSink (List LinkEvent)) (config : LinkConfig) : Result (RunState (List LinkEvent)) :=
  start S busyEnvironment (some 4) config "run" LinkEventStream.plainMetadata []

abbrev busyRun (S : EventSink (List LinkEvent)) (s₀ : RunState (List LinkEvent)) (n : Nat) : Progress (List LinkEvent) :=
  iterations S busyEnvironment defaultPollIntervalS (some 4) s₀ n

/-- The run of the four packets leaves its loop, with what `f` shows of its last state. -/
theorem exists_busy {β : Type} (S : EventSink (List LinkEvent)) (config : LinkConfig)
    (f : RunState (List LinkEvent) → β) (flow : Flow) (b : β)
    (h : ((busyStart S config).toOption.bind fun s₀ => (busyRun S s₀ 9).ended?.map fun y => (y.1, f y.2)) =
      some (.ok flow, b)) :
    ∃ s₀ s, busyStart S config = .ok s₀ ∧ busyRun S s₀ 9 = .left flow s ∧ f s = b := by
  obtain ⟨s₀, s, hstart, hend, hseen⟩ := exists_ended (busyStart S config) (busyRun S · 9) f (.ok flow) b h
  exact ⟨s₀, s, hstart, Progress.eq_left hend, hseen⟩

/-- Of the four packets one is dropped, two are duplicated, two corrupted and one is overtaken; the run drains. -/
theorem iterations_account_busy : ∃ s₀ s, busyStart LinkEventStream.listSink .busy = .ok s₀ ∧
    busyRun LinkEventStream.listSink s₀ 9 = .left .drained s ∧ Balances s ∧
    s.eventStream.statistics = ⟨4, 1, 3, 2, 2, 1, 5, 5⟩ ∧
    ∀ n s, busyRun LinkEventStream.listSink s₀ n = .running s → s.draining = true →
      Passable LinkEventStream.listSink busyEnvironment s := by
  obtain ⟨s₀, s, hstart, hleft, hseen⟩ := exists_busy LinkEventStream.listSink .busy
    (fun s => (s.eventStream.statistics, s.scheduler.pendingCount)) .drained (⟨4, 1, 3, 2, 2, 1, 5, 5⟩, 0)
    (by decide +kernel)
  obtain ⟨hstats, hcount⟩ := Prod.mk.inj hseen
  have hloop : (busyRun LinkEventStream.listSink s₀ 9).AtLoop s := by rw [hleft]; rfl
  have hdrains := drains_of_left hleft hcount (by rw [hstats])
  exact ⟨s₀, s, hstart, hleft, (iterations_account hstart rfl).1 9 s hloop, hstats, fun n s' hn hd =>
    ((iterations_account hstart rfl).2.2 steady_busy).mp hdrains n s' hn hd rfl⟩

/-- One datagram arrives while the clock stands still. -/
def stillEnvironment : Environment where
  clock _ := 0
  stop _ := false
  recv k := if k = 0 then .datagram [1, 2] else .timeout
  sendto _ payload := .ok payload.length

theorem steady_still : Steady stillEnvironment := ⟨monotone_const, fun _ _ => rfl⟩

/-- A latency whose wait in seconds is no float. -/
def longLatencyConfig : LinkConfig := { LinkConfig.default with latencyMs := 10 ^ 330 }

/-- With that latency, the run that received its one packet raises with the packet pending. -/
theorem not_drains_longLatency : ∃ s₀, start LinkEventStream.listSink stillEnvironment (some 1) longLatencyConfig
      "run" LinkEventStream.plainMetadata [] = .ok s₀ ∧ Steady stillEnvironment ∧
    ¬Drains LinkEventStream.listSink stillEnvironment defaultPollIntervalS (some 1) s₀ := by
  obtain ⟨s₀, s, hstart, hend, hseen⟩ := exists_ended
    (start LinkEventStream.listSink stillEnvironment (some 1) longLatencyConfig "run" LinkEventStream.plainMetadata [])
    (iterations LinkEventStream.listSink stillEnvironment defaultPollIntervalS (some 1) · 2)
    (fun s => (s.receivedPackets, s.scheduler.pendingCount))
    (.error (overflowError "integer division result too large for a float")) (1, 1) (by decide +kernel)
  obtain ⟨hreceived, hcount⟩ := Prod.mk.inj hseen
  refine ⟨s₀, hstart, steady_still, fun hdrains => ?_⟩
  have hempty := hdrains 2 s (by rw [Progress.eq_raised hend]; rfl) ⟨1, rfl, by omega⟩
  omega

end RunState

end OrbitOps.Link
