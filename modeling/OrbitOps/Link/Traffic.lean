import OrbitOps.Link.Overtaking
import OrbitOps.Link.Reordering

/-!
# The traffic of a run

What a run has received and what it has handed to `sendto` are read off its iterations. A run is a run
of the two components below it (`Carries`): its engine has processed the received datagrams in order,
its scheduler has seen a list of calls, the sent datagrams are what these calls returned, and the
decisions in its event log are those of the engine's outcomes. So what is known of engines and of
scheduler calls holds of the datagrams that leave the runtime.
-/

namespace OrbitOps.Link
open Py DatagramScheduler

/-! ### One more step of the components -/

namespace ImpairmentEngine

theorem processAll_concat {payloads : List Bytes} {payload : Bytes} {e e₁ e₂ : ImpairmentEngine}
    {os : List PacketOutcome} {o : PacketOutcome} (h : processAll payloads e = (.ok os, e₁))
    (ho : process payload e₁ = (.ok o, e₂)) : processAll (payloads ++ [payload]) e = (.ok (os ++ [o]), e₂) := by
  induction payloads generalizing e os with
  | nil =>
    cases h
    rw [List.nil_append, processAll, Method.bind_ok ho]
    rfl
  | cons p ps ih =>
    rw [processAll] at h
    rcases hp : process p e with ⟨exc | o', e'⟩
    · rw [Method.bind_error hp] at h
      cases h
    · rw [Method.bind_ok hp] at h
      rcases hps : processAll ps e' with ⟨exc | os', e''⟩
      · rw [Method.bind_error hps] at h
        cases h
      · rw [Method.bind_ok hps] at h
        cases h
        rw [List.cons_append, processAll, Method.bind_ok hp, Method.bind_ok (ih hps)]
        rfl

theorem packetIndex_process {payload : Bytes} {e e' : ImpairmentEngine} {o : PacketOutcome}
    (h : process payload e = (.ok o, e')) : o.packetIndex = e.packetIndex := by
  obtain ⟨_, _, hproc, him, -, -⟩ := process_spec payload e
  rw [h] at hproc
  cases hproc
  exact him.packetIndex

theorem packetIndex_processAll {payloads : List Bytes} {e e' : ImpairmentEngine} {os : List PacketOutcome}
    (h : processAll payloads e = (.ok os, e')) : e'.packetIndex = e.packetIndex + payloads.length := by
  induction payloads generalizing e os with
  | nil =>
    cases h
    exact (Int.add_zero _).symm
  | cons p ps ih =>
    obtain ⟨o, e₁, hp, -, -, hindex⟩ := process_spec p e
    rw [processAll, Method.bind_ok hp] at h
    rcases hps : processAll ps e₁ with ⟨exc | os', e₂⟩
    · rw [Method.bind_error hps] at h
      cases h
    · rw [Method.bind_ok hps] at h
      cases h
      rw [ih hps, hindex, List.length_cons]
      push_cast
      ring

end ImpairmentEngine

namespace DatagramScheduler

theorem run_concat (calls : List Call) (c : Call) : run (calls ++ [c]) = (run calls).step c :=
  List.foldl_concat ..

theorem arrivalsFrom_append (r : Run) (calls calls' : List Call) :
    arrivalsFrom r (calls ++ calls') = arrivalsFrom r calls ++ arrivalsFrom (calls.foldl Run.step r) calls' := by
  induction calls generalizing r with
  | nil => rfl
  | cons c calls ih => rw [List.cons_append, arrivalsFrom, ih, arrivalsFrom, List.append_assoc, List.foldl_cons]

theorem arrivals_concat (calls : List Call) (c : Call) : arrivals (calls ++ [c]) = arrivals calls ++ (run calls).arrival c := by
  rw [arrivals, arrivalsFrom_append, arrivalsFrom, arrivalsFrom, List.append_nil]
  rfl

/-- The datagrams that `pop_ready` hands out. -/
def popped (nowNs : Int) (scheduler : DatagramScheduler) : List ScheduledDatagram :=
  match popReady (.int nowNs) scheduler with
  | (.ok items, _) => items
  | (.error _, _) => []

theorem step_popReady (r : Run) (nowNs : Int) : r.step (.popReady (.int nowNs)) =
      ⟨(popReady (.int nowNs) r.scheduler).2, r.enqueued, r.returned ++ popped nowNs r.scheduler⟩ ∧
    r.arrival (.popReady (.int nowNs)) = [] := by
  refine ⟨?_, rfl⟩
  have hcall : Call.apply (.popReady (.int nowNs)) = popReady (.int nowNs) := rfl
  rw [Run.step, popped, hcall]
  rcases popReady (.int nowNs) r.scheduler with ⟨e | items, s⟩ <;> simp [Call.enqueues]

theorem step_enqueue {r : Run} {o : PacketOutcome} {t : Int} {s : DatagramScheduler}
    (h : enqueue o (.int t) r.scheduler = (.ok (), s)) : (r.step (.enqueue o (.int t))).scheduler = s ∧
    (r.step (.enqueue o (.int t))).returned = r.returned ∧ r.arrival (.enqueue o (.int t)) = [⟨o, t⟩] := by
  have hcall : Call.apply (.enqueue o (.int t)) r.scheduler = (.ok [], s) := by
    rw [Call.apply, Method.bind_ok h]
    rfl
  unfold Run.step Run.arrival
  rw [hcall]
  exact ⟨rfl, List.append_nil _, rfl⟩

theorem step_releaseHolds (r : Run) : (r.step .releaseHolds).scheduler = { r.scheduler with holdsReleased := true } ∧
    (r.step .releaseHolds).returned = r.returned ∧ r.arrival .releaseHolds = [] :=
  ⟨rfl, List.append_nil _, rfl⟩

theorem popReady_keeps (nowNs : Int) (s : DatagramScheduler) :
    (popReady (.int nowNs) s).2.highestPacketIndex = s.highestPacketIndex ∧
    (popReady (.int nowNs) s).2.holdsReleased = s.holdsReleased := by
  rcases popReady_cases s (.int nowNs) with ⟨e, he⟩ | ⟨t, items, s', -, -, hok, hpops⟩
  · rw [he]
    exact ⟨rfl, rfl⟩
  · rw [hok]
    exact ⟨hpops.highestPacketIndex, hpops.holdsReleased⟩

theorem enqueue_keeps {o : PacketOutcome} {t : Json} {s s' : DatagramScheduler} (h : enqueue o t s = (.ok (), s')) :
    s'.highestPacketIndex = o.packetIndex ∧ s'.holdsReleased = s.holdsReleased := by
  rcases enqueue_cases s o t with ⟨e, he⟩ | ⟨_, -, -, -, hok⟩
  · rw [he] at h
    cases h
  · rw [hok] at h
    cases h
    exact ⟨rfl, rfl⟩

/-- What is handed out is due. -/
theorem dueAtNs_le_of_mem_popped {nowNs : Int} {s : DatagramScheduler} {d : ScheduledDatagram} (h : d ∈ popped nowNs s) :
    d.dueAtNs ≤ nowNs := by
  rw [popped] at h
  rcases popReady_cases s (.int nowNs) with ⟨e, he⟩ | ⟨t, items, s', ht, -, hok, hpops⟩
  · rw [he] at h
    cases h
  · rw [hok] at h
    rw [Json.int.inj ht]
    exact (hpops.ready d h).1

end DatagramScheduler

/-! ### Entries of the log -/

/-- What an event says besides its position: its time, type, packet and attributes. -/
abbrev Entry := Int × LinkEventType × Option Nat × Dict Scalar

def LinkEvent.entry (e : LinkEvent) : Entry := (e.elapsedNs, e.eventType, e.packetIndex, e.attributes.dict)

/-- The entries that say what was decided for a received datagram. -/
def Entry.isDecision (x : Entry) : Bool := !(x.2.1 ∈ [.RUN_METADATA, .RUN_SUMMARY, .PACKET_FORWARDED, .PACKET_REORDERED])

/-- The entries that say which datagrams were forwarded. -/
def Entry.isForward (x : Entry) : Bool := x.2.1 = .PACKET_FORWARDED

namespace RunState
variable {σ : Type} {S : EventSink σ} {env : Environment} {pollIntervalS : Float64} {maxPackets : Option Int}

/-- The log of a run so far. -/
def log (S : EventSink σ) (s : RunState σ) : List Entry := (s.events S).map LinkEvent.entry

def Emission.entry (elapsedNs packetIndex : Int) (x : Emission) : Entry :=
  (elapsedNs, x.1, some packetIndex.toNat, Dict.ofItems x.2)

/-- What the log says about a datagram with its outcome. -/
def outcomeEntries (elapsedNs : Int) (raw : Bytes) (o : PacketOutcome) : List Entry :=
  (outcomeEmissions raw o).map (Emission.entry elapsedNs o.packetIndex)

/-- What the log says about a datagram that was sent. -/
def forwardEntry (elapsedNs : Int) (d : ScheduledDatagram) : Entry :=
  Emission.entry elapsedNs d.packetIndex (.PACKET_FORWARDED, forwardAttributes d)

/-! ### What iterations receive and send -/

variable (S env pollIntervalS maxPackets) in
/-- The datagram that the engine processes in an iteration, with the time of its arrival. -/
def receivedBy (k : Nat) (s : RunState σ) : List (Int × Bytes) :=
  match env.recv k with
  | .datagram raw =>
    if (iteration S env pollIntervalS maxPackets k s).2.engine.packetIndex = s.engine.packetIndex then []
    else [(env.clock (s.clockCalls + 1), raw)]
  | _ => []

variable (S env pollIntervalS maxPackets) in
/-- The datagrams handed to `sendto` in an iteration, with the time of its start. -/
def sentBy (k : Nat) (s : RunState σ) : List (Int × ScheduledDatagram) :=
  let sends := (iteration S env pollIntervalS maxPackets k s).2.handed.length - s.handed.length
  ((popped (env.clock s.clockCalls) s.scheduler).take sends).map fun d => (env.clock s.clockCalls, d)

variable (S env pollIntervalS maxPackets) in
/-- What `by` collects from the first `n` iterations. -/
def collected {α : Type} (part : Nat → RunState σ → List α) (s₀ : RunState σ) : Nat → List α
  | 0 => []
  | n + 1 => collected part s₀ n ++
    match iterations S env pollIntervalS maxPackets s₀ n with
    | .running s => part n s
    | _ => []

variable (S env pollIntervalS maxPackets) in
def received (s₀ : RunState σ) (n : Nat) : List (Int × Bytes) :=
  collected S env pollIntervalS maxPackets (receivedBy S env pollIntervalS maxPackets) s₀ n

variable (S env pollIntervalS maxPackets) in
def sent (s₀ : RunState σ) (n : Nat) : List (Int × ScheduledDatagram) :=
  collected S env pollIntervalS maxPackets (sentBy S env pollIntervalS maxPackets) s₀ n

/-! ### Emitting and sending -/

/-- Only the event stream changes, and the log has `l` more. -/
structure Logs (S : EventSink σ) (s s' : RunState σ) (l : List Entry) : Prop where
  state : ∃ stream, stream.startNs = s.eventStream.startNs ∧ s' = { s with eventStream := stream }
  log : s'.log S = s.log S ++ l

theorem Logs.refl (s : RunState σ) : Logs S s s [] := ⟨⟨_, rfl, rfl⟩, by rw [List.append_nil]⟩

theorem Logs.trans {s s' s'' : RunState σ} {l l' : List Entry} (h : Logs S s s' l) (h' : Logs S s' s'' l') :
    Logs S s s'' (l ++ l') := by
  obtain ⟨⟨_, hs, rfl⟩, hl⟩ := h
  obtain ⟨⟨_, hs', rfl⟩, hl'⟩ := h'
  exact ⟨⟨_, hs'.trans hs, rfl⟩, by rw [hl', hl, List.append_assoc]⟩

theorem wp_emit_logs {now index : Int} {x : Emission} (hx : x.Valid) (s : RunState σ) :
    Method.wp (emit S x.1 now index x.2)
      (fun _ s' => Logs S s s' [Emission.entry (now - s.eventStream.startNs) index x]) (fun _ s' => Logs S s s' []) s := by
  rcases LinkEventStream.emit_cases (S := S) x.1 (.int now) (.int index) (scalarObj x.2) s.eventStream with
    ⟨err, t, he, hun, hr⟩ | ⟨e, t, now', hnow, he, -, -, hmeta, -, hem⟩
  · refine Method.wp_of_error (Method.bind_error (Method.zoom_eq he)) ⟨⟨t, hun.startNs, rfl⟩, ?_⟩
    rw [List.append_nil]
    exact congrArg (List.map LinkEvent.entry) hr
  · obtain rfl : now = now' := Json.int.inj hnow
    obtain ⟨-, -, helapsed, ht, hpi, -, hattr⟩ := LinkEvent.fields_of_new hem.built
    refine Method.wp_of_ok (Method.bind_ok (Method.zoom_eq he)) ⟨⟨t, by rw [hem.state], rfl⟩, ?_⟩
    have hval : validateAttributes (scalarObj x.2) = .ok e.attributes :=
      LinkEvent.validateAttributes_of_eventAttributes hmeta hattr
    rw [validateAttributes_scalarObj hx.attributes] at hval
    have hpacket : e.packetIndex = some index.toNat := by
      cases hi : e.packetIndex with
      | none =>
        rw [hi] at hpi
        cases hpi
      | some n =>
        rw [hi] at hpi
        rw [Json.int.inj hpi]
        rfl
    have hentry : e.entry = Emission.entry (now - s.eventStream.startNs) index x := by
      rw [LinkEvent.entry, Emission.entry, ht, hpacket, ← Except.ok.inj hval, Json.int.inj helapsed]
      rfl
    show (S.recorded t.sink).map LinkEvent.entry = (S.recorded s.eventStream.sink).map LinkEvent.entry ++ _
    rw [hem.recorded, List.map_append, List.map_singleton, hentry]

/-- Only the event stream and the notes on forwarding change; the log decides nothing more and reports `fs`. -/
structure Reports (S : EventSink σ) (s s' : RunState σ) (fs : List Entry) : Prop where
  state : ∃ stream highest noted, stream.startNs = s.eventStream.startNs ∧ s' = { s with
    eventStream := stream
    highestForwardedPacketIndex := highest
    reorderedPackets := noted }
  decisions : (s'.log S).filter Entry.isDecision = (s.log S).filter Entry.isDecision
  forwards : (s'.log S).filter Entry.isForward = (s.log S).filter Entry.isForward ++ fs

theorem Reports.refl (s : RunState σ) : Reports S s s [] := ⟨⟨_, _, _, rfl, rfl⟩, rfl, by rw [List.append_nil]⟩

theorem Reports.note (s : RunState σ) (highest : Int) (noted : List Int) :
    Reports S s { s with highestForwardedPacketIndex := highest, reorderedPackets := noted } [] :=
  ⟨⟨_, _, _, rfl, rfl⟩, rfl, (List.append_nil _).symm⟩

theorem Reports.trans {s s' s'' : RunState σ} {fs fs' : List Entry} (h : Reports S s s' fs) (h' : Reports S s' s'' fs') :
    Reports S s s'' (fs ++ fs') := by
  obtain ⟨⟨_, _, _, hs, rfl⟩, hd, hf⟩ := h
  obtain ⟨⟨_, _, _, hs', rfl⟩, hd', hf'⟩ := h'
  exact ⟨⟨_, _, _, hs'.trans hs, rfl⟩, hd'.trans hd, by rw [hf', hf, List.append_assoc]⟩

theorem Logs.reports {s s' : RunState σ} {l : List Entry} (h : Logs S s s' l) (hl : l.filter Entry.isDecision = []) :
    Reports S s s' (l.filter Entry.isForward) := by
  obtain ⟨⟨stream, hs, rfl⟩, hlog⟩ := h
  refine ⟨⟨stream, _, _, hs, rfl⟩, ?_, ?_⟩
  · rw [hlog, List.filter_append, hl, List.append_nil]
  · rw [hlog, List.filter_append]

theorem wp_emitReordered_reports (d : ScheduledDatagram) (now : Int) (s : RunState σ) :
    Method.wp (emitReordered S d now) (fun _ s' => Reports S s s' []) (fun _ s' => Reports S s s' []) s := by
  refine Method.wp_bind (Method.wp_of_ok (Method.get_apply s) ?_)
  split_ifs
  · refine Method.wp_bind (Method.wp_of_ok (Method.modify_apply _ s) ?_)
    have hx : Emission.Valid (.PACKET_REORDERED, [("overtaken_by_packet_index", .int s.highestForwardedPacketIndex),
        ("release_after_packet", .int d.releaseAfterPacket)]) := ⟨nofun, nofun, by simp [ValidItem]⟩
    have hnote := Reports.note (S := S) s s.highestForwardedPacketIndex (d.packetIndex :: s.reorderedPackets)
    exact Method.wp_mono (wp_emit_logs hx _) (fun _ s' h => hnote.trans (h.reports rfl))
      fun _ s' h => hnote.trans (h.reports rfl)
  · exact Method.wp_of_ok (Method.pure_apply () s) (.refl s)

theorem Reports.startNs {s s' : RunState σ} {fs : List Entry} (h : Reports S s s' fs) :
    s'.eventStream.startNs = s.eventStream.startNs := by
  obtain ⟨⟨_, _, _, hs, rfl⟩, -, -⟩ := h
  exact hs

theorem wp_emitForwarded_reports (d : ScheduledDatagram) (now : Int) (s : RunState σ) :
    Method.wp (emitForwarded S d now) (fun _ s' => Reports S s s' [forwardEntry (now - s.eventStream.startNs) d])
      (fun _ s' => Reports S s s' []) s := by
  refine Method.wp_bind (Method.wp_mono (wp_emitReordered_reports d now s) ?_ fun _ _ h => h)
  rintro _ s₁ hr
  have hnoted := hr.trans (Reports.note s₁ (max s₁.highestForwardedPacketIndex d.packetIndex) s₁.reorderedPackets)
  refine Method.wp_bind (Method.wp_of_ok (Method.modify_apply _ s₁) (Method.wp_mono
    (wp_emit_logs (valid_forwarded d) _) ?_ ?_))
  · rintro _ s' h
    rw [forwardEntry, ← hr.startNs]
    exact hnoted.trans (h.reports rfl)
  · rintro _ s' h
    exact hnoted.trans (h.reports rfl)

/-- A pass over the ready datagrams: the payloads of `items` were handed to `sendto`, `fs` is reported. -/
structure Passes (S : EventSink σ) (s s' : RunState σ) (scheduler : DatagramScheduler) (items : List ScheduledDatagram)
    (fs : List Entry) : Prop where
  state : ∃ stream highest noted, stream.startNs = s.eventStream.startNs ∧ s' = { s with
    scheduler := scheduler
    eventStream := stream
    highestForwardedPacketIndex := highest
    reorderedPackets := noted
    handed := s.handed ++ items.map ScheduledDatagram.payload }
  decisions : (s'.log S).filter Entry.isDecision = (s.log S).filter Entry.isDecision
  forwards : (s'.log S).filter Entry.isForward = (s.log S).filter Entry.isForward ++ fs

theorem Passes.start (s : RunState σ) (scheduler : DatagramScheduler) :
    Passes S s { s with scheduler := scheduler } scheduler [] [] :=
  ⟨⟨_, _, _, rfl, by rw [List.map_nil, List.append_nil]⟩, rfl, (List.append_nil _).symm⟩

theorem Passes.then_reports {s s₁ s' : RunState σ} {scheduler : DatagramScheduler} {items : List ScheduledDatagram}
    {d : ScheduledDatagram} {fs fs' : List Entry} (h : Passes S s s₁ scheduler items fs)
    (hr : Reports S { s₁ with handed := s₁.handed ++ [d.payload] } s' fs') :
    Passes S s s' scheduler (items ++ [d]) (fs ++ fs') := by
  obtain ⟨⟨_, _, _, hs, rfl⟩, hd, hf⟩ := h
  obtain ⟨⟨stream, highest, noted, hs', rfl⟩, hd', hf'⟩ := hr
  refine ⟨⟨stream, highest, noted, hs'.trans hs, ?_⟩, hd'.trans hd, by rw [hf', ← List.append_assoc, ← hf]; rfl⟩
  rw [List.map_append, ← List.append_assoc]
  rfl

/-- The payload is handed over, whatever becomes of it. -/
theorem wp_sendItem_reports (now : Int) (d : ScheduledDatagram) (s : RunState σ) : Method.wp (sendItem S env now d)
    (fun _ s' => Reports S { s with handed := s.handed ++ [d.payload] } s' [forwardEntry (now - s.eventStream.startNs) d])
    (fun _ s' => Reports S { s with handed := s.handed ++ [d.payload] } s' []) s := by
  rcases hsend : env.sendto s.handed.length d.payload with e | n
  · have hm : sendto env d.payload s = (.error e, { s with handed := s.handed ++ [d.payload] }) := by rw [sendto, hsend]
    exact Method.wp_of_error (Method.bind_error hm) (.refl _)
  · have hm : sendto env d.payload s = (.ok n, { s with handed := s.handed ++ [d.payload] }) := by rw [sendto, hsend]
    refine Method.wp_bind (Method.wp_of_ok hm ?_)
    split_ifs with hlen
    · exact Method.wp_of_error (Method.raise_apply _ _) (.refl _)
    · exact wp_emitForwarded_reports d now _

/-- What the log says about the datagrams of a pass. -/
def forwardEntries (elapsedNs : Int) (items : List ScheduledDatagram) : List Entry := items.map (forwardEntry elapsedNs)

theorem wp_sendItems {now : Int} {s : RunState σ} {scheduler : DatagramScheduler} (items : List ScheduledDatagram) :
    Method.wp (Method.forEach (sendItem S env now) items)
      (fun _ s' => Passes S s s' scheduler items (forwardEntries (now - s.eventStream.startNs) items))
      (fun _ s' => ∃ done fs, done <+: items ∧ fs <+: forwardEntries (now - s.eventStream.startNs) done ∧
        Passes S s s' scheduler done fs) { s with scheduler := scheduler } := by
  -- the invariant splits the datagrams into those sent and those to come
  refine Method.wp_mono (Method.wp_forEach (I := fun rest s' => ∃ done, done ++ rest = items ∧ Passes S s s' scheduler
    done (forwardEntries (now - s.eventStream.startNs) done)) ?_ ⟨[], rfl, .start s scheduler⟩) ?_ fun _ _ h => h
  · rintro d rest s₁ ⟨done, rfl, hpass⟩
    have hstart : s₁.eventStream.startNs = s.eventStream.startNs := by
      obtain ⟨⟨_, _, _, hs, rfl⟩, -, -⟩ := hpass
      exact hs
    refine Method.wp_mono (wp_sendItem_reports now d s₁) ?_ ?_
    · rintro _ s₂ hr
      refine ⟨done ++ [d], by rw [List.append_assoc]; rfl, ?_⟩
      rw [forwardEntries, List.map_append, ← hstart]
      exact (hstart ▸ hpass).then_reports hr
    · rintro _ s₂ hr
      refine ⟨done ++ [d], _, ⟨rest, by rw [List.append_assoc]; rfl⟩, ?_, hpass.then_reports hr⟩
      rw [List.append_nil, forwardEntries, forwardEntries, List.map_append]
      exact List.prefix_append ..
  · rintro _ s' ⟨done, hdone, hpass⟩
    rw [List.append_nil] at hdone
    exact hdone ▸ hpass

theorem wp_sendReady_passes (now : Int) (s : RunState σ) : Method.wp (sendReady S env now)
    (fun _ s' => 0 ≤ now ∧ Passes S s s' (popReady (.int now) s.scheduler).2 (popped now s.scheduler)
      (forwardEntries (now - s.eventStream.startNs) (popped now s.scheduler)))
    (fun _ s' => ∃ items fs, items <+: popped now s.scheduler ∧
      fs <+: forwardEntries (now - s.eventStream.startNs) items ∧
      Passes S s s' (popReady (.int now) s.scheduler).2 items fs) s := by
  rcases popReady_cases s.scheduler (.int now) with ⟨e, hpop⟩ | ⟨t, items, scheduler, ht, h0, hpop, -⟩
  · refine Method.wp_of_error (Method.bind_error (Method.zoom_eq hpop)) ?_
    rw [hpop]
    exact ⟨[], [], List.nil_prefix, List.nil_prefix, .start s _⟩
  · have hitems : popped now s.scheduler = items := by rw [popped, hpop]
    rw [hitems, hpop]
    rw [Json.int.inj ht]
    exact Method.wp_bind (Method.wp_of_ok (Method.zoom_eq (Json.int.inj ht ▸ hpop))
      (Method.wp_mono (wp_sendItems items) (fun _ _ h => ⟨h0, h⟩) fun _ _ h => h))

/-! ### Receiving -/

theorem isDecision_outcomeEntries {elapsedNs : Int} {raw : Bytes} {o : PacketOutcome} {x : Entry}
    (h : x ∈ outcomeEntries elapsedNs raw o) : x.isDecision = true ∧ x.isForward = false := by
  obtain ⟨y, hy, rfl⟩ := List.mem_map.mp h
  obtain ⟨hvalid, hforwarded⟩ := valid_outcomeEmissions raw o y hy
  have hreordered := outcomeEmissions_ne_reordered raw o y hy
  have hmeta := hvalid.not_metadata
  have hsummary := hvalid.not_summary
  rw [Entry.isDecision, Entry.isForward]
  simp only [Emission.entry, List.mem_cons, hmeta, hsummary, hforwarded, hreordered]
  exact ⟨rfl, rfl⟩

theorem wp_emits_logs {now : Int} {raw : Bytes} {o : PacketOutcome} (s : RunState σ) :
    Method.wp (Method.forEach (fun x => emit S x.1 now o.packetIndex x.2) (outcomeEmissions raw o))
      (fun _ s' => Logs S s s' (outcomeEntries (now - s.eventStream.startNs) raw o))
      (fun _ s' => ∃ l, l <+: outcomeEntries (now - s.eventStream.startNs) raw o ∧ Logs S s s' l) s := by
  have hloop := Method.wp_forEach
    (E := fun _ s' => ∃ l, l <+: outcomeEntries (now - s.eventStream.startNs) raw o ∧ Logs S s s' l)
    (I := fun rest s' => ∃ done, done ++ rest = outcomeEmissions raw o ∧
      Logs S s s' (done.map (Emission.entry (now - s.eventStream.startNs) o.packetIndex)))
    (f := fun x => emit S x.1 now o.packetIndex x.2) (s := s) ?_ ⟨[], (List.nil_append (outcomeEmissions raw o)), .refl s⟩
  · refine Method.wp_mono hloop ?_ fun _ _ h => h
    rintro _ s' ⟨done, hdone, hlogs⟩
    rw [List.append_nil] at hdone
    rwa [outcomeEntries, ← hdone]
  · rintro x rest s₁ ⟨done, hdone, hlogs⟩
    have hx : x ∈ outcomeEmissions raw o := hdone ▸ List.mem_append_right _ (List.mem_cons_self ..)
    have hstart : s₁.eventStream.startNs = s.eventStream.startNs := by
      obtain ⟨⟨_, hs, rfl⟩, -⟩ := hlogs
      exact hs
    refine Method.wp_mono (wp_emit_logs (valid_outcomeEmissions raw o x hx).1 s₁) ?_ ?_
    · rintro _ s₂ hnext
      refine ⟨done ++ [x], by rw [List.append_assoc]; exact hdone, ?_⟩
      rw [List.map_append, ← hstart]
      exact (hstart ▸ hlogs).trans hnext
    · rintro _ s₂ hnext
      refine ⟨done.map (Emission.entry (now - s.eventStream.startNs) o.packetIndex), ?_, ?_⟩
      · rw [outcomeEntries, ← hdone, List.map_append]
        exact List.prefix_append ..
      · have hall := hlogs.trans hnext
        rwa [List.append_nil] at hall

/-- The run has received its number of packets. -/
abbrev Full (maxPackets : Option Int) (receivedPackets : Nat) : Prop := ∃ m ∈ maxPackets, m ≤ (receivedPackets : Int)

/-- A datagram was processed and scheduled. -/
structure Accepts (S : EventSink σ) (env : Environment) (maxPackets : Option Int) (raw : Bytes) (o : PacketOutcome)
    (scheduler : DatagramScheduler) (s s' : RunState σ) : Prop where
  processed : ImpairmentEngine.process raw s.engine = (.ok o, s'.engine)
  enqueued : enqueue o (.int (env.clock s.clockCalls)) s.scheduler = (.ok (), scheduler)
  scheduler : s'.scheduler =
    if Full maxPackets (s.receivedPackets + 1) then { scheduler with holdsReleased := true } else scheduler
  receivedPackets : s'.receivedPackets = s.receivedPackets + 1
  handed : s'.handed = s.handed
  clockCalls : s'.clockCalls = s.clockCalls + 1
  startNs : s'.eventStream.startNs = s.eventStream.startNs
  log : s'.log S = s.log S ++ outcomeEntries (env.clock s.clockCalls - s.eventStream.startNs) raw o

/-- A datagram was processed, and then its report or its scheduling raised. -/
structure Loses (S : EventSink σ) (env : Environment) (raw : Bytes) (o : PacketOutcome) (s s' : RunState σ) : Prop where
  processed : ImpairmentEngine.process raw s.engine = (.ok o, s'.engine)
  handed : s'.handed = s.handed
  log : ∃ l, l <+: outcomeEntries (env.clock s.clockCalls - s.eventStream.startNs) raw o ∧ s'.log S = s.log S ++ l

theorem wp_accept_traffic {raw : Bytes} (s : RunState σ) : Method.wp (accept S env maxPackets raw)
    (fun _ s' => ∃ o scheduler, Accepts S env maxPackets raw o scheduler s s') (fun _ s' => ∃ o, Loses S env raw o s s') s := by
  have hclock : readClock env s = (.ok (env.clock s.clockCalls), { s with clockCalls := s.clockCalls + 1 }) := rfl
  refine Method.wp_bind (Method.wp_of_ok hclock ?_)
  obtain ⟨o, engine, hproc, him, -, -⟩ := ImpairmentEngine.process_spec raw s.engine
  refine Method.wp_bind (Method.wp_of_ok (Method.zoom_eq hproc) ?_)
  rw [emitOutcome_eq him.deliveries_ne_nil]
  refine Method.wp_bind (Method.wp_mono
    (wp_emits_logs { s with clockCalls := s.clockCalls + 1, engine := engine }) ?_ ?_)
  · rintro _ s₁ ⟨⟨stream, hstart, rfl⟩, hlog⟩
    rcases henq : enqueue o (.int (env.clock s.clockCalls)) s.scheduler with ⟨e | u, scheduler⟩
    · exact Method.wp_of_error (Method.bind_error (Method.zoom_eq henq)) ⟨o, hproc, rfl, _, List.prefix_refl _, hlog⟩
    · refine Method.wp_bind (Method.wp_of_ok (Method.zoom_eq henq) ?_)
      refine Method.wp_bind (Method.wp_of_ok (Method.modify_apply _ _) ?_)
      refine Method.wp_bind (Method.wp_of_ok (Method.get_apply _) ?_)
      split_ifs with hmax
      · refine Method.wp_of_ok (Method.bind_ok (Method.zoom_eq (Method.modify_apply _ _))) ⟨o, scheduler, ?_⟩
        exact ⟨hproc, henq, (if_pos hmax).symm, rfl, rfl, rfl, hstart, hlog⟩
      · refine Method.wp_of_ok (Method.pure_apply () _) ⟨o, scheduler, ?_⟩
        exact ⟨hproc, henq, (if_neg hmax).symm, rfl, rfl, rfl, hstart, hlog⟩
  · rintro _ s₁ ⟨l, hl, ⟨stream, -, rfl⟩, hlog⟩
    exact ⟨o, hproc, rfl, l, hl, hlog⟩

/-- After the sends an iteration either leaves all but the clock alone or processes one datagram. -/
def Ends (S : EventSink σ) (env : Environment) (maxPackets : Option Int) (k : Nat) (s s' : RunState σ) : Prop :=
  (∃ calls, s.clockCalls ≤ calls ∧ s' = { s with clockCalls := calls }) ∨
  ∃ raw o scheduler, env.recv k = .datagram raw ∧ Accepts S env maxPackets raw o scheduler s s'

/-- How an iteration may raise after the sends. -/
def Raises (S : EventSink σ) (env : Environment) (k : Nat) (s s' : RunState σ) : Prop :=
  (∃ calls, s.clockCalls ≤ calls ∧ s' = { s with clockCalls := calls }) ∨ ∃ raw o, env.recv k = .datagram raw ∧ Loses S env raw o s s'

theorem wp_drain_ends (k : Nat) (s : RunState σ) : Method.wp (drain env pollIntervalS)
    (fun _ s' => Ends S env maxPackets k s s') (fun _ s' => Raises S env k s s') s := by
  refine Method.wp_bind (Method.wp_of_ok (Method.get_apply s) ?_)
  split_ifs
  · exact Method.wp_of_ok (Method.pure_apply _ s) (.inl ⟨_, le_rfl, rfl⟩)
  · cases s.scheduler.nextDeadlineNs with
    | none => exact Method.wp_of_ok (Method.pure_apply _ s) (.inl ⟨_, le_rfl, rfl⟩)
    | some deadline =>
      have hclock : readClock env s = (.ok (env.clock s.clockCalls), { s with clockCalls := s.clockCalls + 1 }) := rfl
      refine Method.wp_bind (Method.wp_of_ok hclock ?_)
      rcases hwait : clampWait pollIntervalS (deadline - env.clock s.clockCalls) with e | w
      · exact Method.wp_of_error (Method.bind_error (Method.lift_apply _ _)) (.inl ⟨_, Nat.le_succ _, rfl⟩)
      · exact Method.wp_bind (Method.wp_of_ok (Method.lift_apply _ _)
          (Method.wp_of_ok (Method.pure_apply _ _) (.inl ⟨_, Nat.le_succ _, rfl⟩)))

theorem wp_receive_ends (now : Int) (k : Nat) (s : RunState σ) : Method.wp (receive S env pollIntervalS maxPackets now k)
    (fun _ s' => Ends S env maxPackets k s s') (fun _ s' => Raises S env k s s') s := by
  refine Method.wp_bind (Method.wp_of_ok (Method.get_apply s) ?_)
  rcases receiveTimeout pollIntervalS s.scheduler now with e | timeout
  · exact Method.wp_of_error (Method.bind_error (Method.lift_apply _ s)) (.inl ⟨_, le_rfl, rfl⟩)
  · refine Method.wp_bind (Method.wp_of_ok (Method.lift_apply _ s) ?_)
    cases hrecv : env.recv k with
    | timeout => exact Method.wp_of_ok (Method.pure_apply _ s) (.inl ⟨_, le_rfl, rfl⟩)
    | failed e => exact Method.wp_of_error (Method.raise_apply e s) (.inl ⟨_, le_rfl, rfl⟩)
    | datagram raw =>
      refine Method.wp_bind (Method.wp_mono (wp_accept_traffic s) ?_ ?_)
      · rintro _ s' ⟨o, scheduler, ha⟩
        exact Method.wp_of_ok (Method.pure_apply _ s') (.inr ⟨raw, o, scheduler, hrecv, ha⟩)
      · rintro _ s' ⟨o, hl⟩
        exact .inr ⟨raw, o, hrecv, hl⟩

/-- What an iteration that raises has done: a part of the pass, or all of it and then something at its end. -/
def Stops (S : EventSink σ) (env : Environment) (k : Nat) (s s' : RunState σ) : Prop :=
  ∃ s₁ items fs, items <+: popped (env.clock s.clockCalls) s.scheduler ∧
    fs <+: forwardEntries (env.clock s.clockCalls - s.eventStream.startNs) items ∧
    Passes S { s with clockCalls := s.clockCalls + 1 } s₁ (popReady (.int (env.clock s.clockCalls)) s.scheduler).2 items fs ∧
    (s' = s₁ ∨ items = popped (env.clock s.clockCalls) s.scheduler ∧
      fs = forwardEntries (env.clock s.clockCalls - s.eventStream.startNs) (popped (env.clock s.clockCalls) s.scheduler) ∧
      Raises S env k s₁ s')

/-- An iteration that is not stopped: a pass over the ready datagrams, then its end. -/
theorem wp_iteration_traffic {k : Nat} (s : RunState σ) (hgo : env.stop k = false) :
    Method.wp (iteration S env pollIntervalS maxPackets k)
      (fun _ s' => 0 ≤ env.clock s.clockCalls ∧ ∃ s₁, Passes S { s with clockCalls := s.clockCalls + 1 } s₁
        (popReady (.int (env.clock s.clockCalls)) s.scheduler).2 (popped (env.clock s.clockCalls) s.scheduler)
        (forwardEntries (env.clock s.clockCalls - s.eventStream.startNs) (popped (env.clock s.clockCalls) s.scheduler)) ∧
        Ends S env maxPackets k s₁ s')
      (fun _ s' => Stops S env k s s') s := by
  unfold iteration
  rw [if_neg (by rw [hgo]; decide)]
  have hclock : readClock env s = (.ok (env.clock s.clockCalls), { s with clockCalls := s.clockCalls + 1 }) := rfl
  refine Method.wp_bind (Method.wp_of_ok hclock (Method.wp_bind (Method.wp_mono (wp_sendReady_passes _ _) ?_ ?_)))
  · rintro _ s₁ ⟨h0, hpass⟩
    have hraises (s' : RunState σ) (h : Raises S env k s₁ s') : Stops S env k s s' :=
      ⟨s₁, _, _, List.prefix_refl _, List.prefix_refl _, hpass, .inr ⟨rfl, rfl, h⟩⟩
    refine Method.wp_bind (Method.wp_of_ok (Method.get_apply s₁) ?_)
    split_ifs
    · exact Method.wp_mono (wp_drain_ends k s₁) (fun _ s' h => ⟨h0, s₁, hpass, h⟩) fun _ => hraises
    · exact Method.wp_mono (wp_receive_ends _ k s₁) (fun _ s' h => ⟨h0, s₁, hpass, h⟩) fun _ => hraises
  · rintro _ s₁ ⟨items, fs, hitems, hfs, hpass⟩
    exact ⟨s₁, items, fs, hitems, hfs, hpass, .inl rfl⟩

/-! ### A run is a run of its components -/

/-- What the log says about received datagrams with their outcomes. -/
def decided (startNs : Int) (rs : List (Int × Bytes)) (os : List PacketOutcome) : List Entry :=
  (List.zipWith (fun r o => outcomeEntries (r.1 - startNs) r.2 o) rs os).flatten

/-- What the log says about sent datagrams. -/
def reported (startNs : Int) (ds : List (Int × ScheduledDatagram)) : List Entry :=
  ds.map fun x => forwardEntry (x.1 - startNs) x.2

/-- The times of arrival are clock readings, in their order. -/
structure Timed (env : Environment) (calls : Nat) (rs : List (Int × Bytes)) : Prop where
  readings : ∀ x ∈ rs, ∃ c < calls, x.1 = env.clock c
  ordered : Monotone env.clock → rs.Pairwise fun x y => x.1 ≤ y.1

/-- The traffic of a run at its loop head. -/
structure Carries (S : EventSink σ) (env : Environment) (maxPackets : Option Int) (config : LinkConfig)
    (rs : List (Int × Bytes)) (ds : List (Int × ScheduledDatagram)) (calls : List Call) (s : RunState σ) : Prop where
  processed : ImpairmentEngine.processAll (rs.map Prod.snd) (.new config) =
    (.ok ((arrivals calls).map Arrival.outcome), s.engine)
  times : (arrivals calls).map Arrival.receivedAtNs = rs.map Prod.fst
  timed : Timed env s.clockCalls rs
  scheduler : (DatagramScheduler.run calls).scheduler = s.scheduler
  returned : ds.map Prod.snd = (DatagramScheduler.run calls).returned
  handed : s.handed = ds.map fun x => x.2.payload
  due : ∀ x ∈ ds, x.2.dueAtNs ≤ x.1
  startNs : s.eventStream.startNs = env.clock 0
  decisions : (s.log S).filter Entry.isDecision = decided (env.clock 0) rs ((arrivals calls).map Arrival.outcome)
  forwards : (s.log S).filter Entry.isForward = reported (env.clock 0) ds
  receivedPackets : s.receivedPackets = rs.length
  newest : s.scheduler.highestPacketIndex = rs.length - 1
  released : s.scheduler.holdsReleased = true ↔ Full maxPackets rs.length

/-- The traffic of a run that may have raised in the middle of an iteration. -/
structure Carried (S : EventSink σ) (env : Environment) (config : LinkConfig) (rs : List (Int × Bytes))
    (ds : List (Int × ScheduledDatagram)) (calls : List Call) (s : RunState σ) : Prop where
  processed : ∃ os e, ImpairmentEngine.processAll (rs.map Prod.snd) (.new config) = (.ok os, e) ∧
    (arrivals calls).map Arrival.outcome <+: os ∧ (s.log S).filter Entry.isDecision <+: decided (env.clock 0) rs os
  times : (arrivals calls).map Arrival.receivedAtNs <+: rs.map Prod.fst
  ordered : Monotone env.clock → rs.Pairwise fun x y => x.1 ≤ y.1
  returned : ds.map Prod.snd <+: (DatagramScheduler.run calls).returned
  handed : s.handed = ds.map fun x => x.2.payload
  due : ∀ x ∈ ds, x.2.dueAtNs ≤ x.1
  forwards : (s.log S).filter Entry.isForward <+: reported (env.clock 0) ds

section
variable {config : LinkConfig} {rs : List (Int × Bytes)} {ds : List (Int × ScheduledDatagram)} {calls : List Call}
  {s s' : RunState σ}

theorem Timed.mono {c c' : Nat} (h : Timed env c rs) (hle : c ≤ c') : Timed env c' rs :=
  ⟨fun x hx => (h.readings x hx).imp fun _ hc => ⟨hc.1.trans_le hle, hc.2⟩, h.ordered⟩

theorem Timed.next {c : Nat} (h : Timed env c rs) (raw : Bytes) : Timed env (c + 1) (rs ++ [(env.clock c, raw)]) := by
  refine ⟨fun x hx => ?_, fun hmono => ?_⟩
  · rcases List.mem_append.mp hx with hx | hx
    · exact (h.mono (Nat.le_succ c)).readings x hx
    · rw [List.mem_singleton.mp hx]
      exact ⟨c, Nat.lt_succ_self c, rfl⟩
  · refine List.pairwise_append.mpr ⟨h.ordered hmono, List.pairwise_singleton _ _, fun x hx y hy => ?_⟩
    obtain ⟨i, hi, hxi⟩ := h.readings x hx
    rw [List.mem_singleton.mp hy, hxi]
    exact hmono hi.le

theorem decided_concat {startNs : Int} {os : List PacketOutcome} (h : rs.length = os.length) (r : Int × Bytes)
    (o : PacketOutcome) :
    decided startNs (rs ++ [r]) (os ++ [o]) = decided startNs rs os ++ outcomeEntries (r.1 - startNs) r.2 o := by
  rw [decided, List.zipWith_append h, List.flatten_append]
  simp [decided]

theorem Carries.length_eq (h : Carries S env maxPackets config rs ds calls s) :
    rs.length = ((arrivals calls).map Arrival.outcome).length := by
  rw [List.length_map, ← List.length_map Prod.fst, ← h.times, List.length_map]

theorem Carries.engine (h : Carries S env maxPackets config rs ds calls s) : s.engine.packetIndex = rs.length := by
  rw [ImpairmentEngine.packetIndex_processAll h.processed, List.length_map]
  exact Int.zero_add _

theorem Carries.carried (h : Carries S env maxPackets config rs ds calls s) : Carried S env config rs ds calls s :=
  ⟨⟨_, _, h.processed, List.prefix_refl _, by rw [h.decisions]⟩, by rw [h.times], h.timed.ordered, by rw [h.returned],
    h.handed, h.due, by rw [h.forwards]⟩

theorem Carries.tick (h : Carries S env maxPackets config rs ds calls s) {c : Nat} (hc : s.clockCalls ≤ c) :
    Carries S env maxPackets config rs ds calls { s with clockCalls := c } :=
  { h with timed := h.timed.mono hc }

/-- The datagrams of a pass, at its time. -/
def atTime (nowNs : Int) (items : List ScheduledDatagram) : List (Int × ScheduledDatagram) := items.map fun d => (nowNs, d)

theorem map_snd_atTime (nowNs : Int) (items : List ScheduledDatagram) : (atTime nowNs items).map Prod.snd = items := by
  rw [atTime, List.map_map]
  exact List.map_id items

theorem payloads_atTime (nowNs : Int) (items : List ScheduledDatagram) :
    (atTime nowNs items).map (fun x => x.2.payload) = items.map ScheduledDatagram.payload := by
  rw [atTime, List.map_map]
  rfl

theorem reported_atTime (startNs nowNs : Int) (items : List ScheduledDatagram) :
    reported startNs (atTime nowNs items) = forwardEntries (nowNs - startNs) items := by
  rw [reported, atTime, List.map_map]
  rfl

/-- A pass that reports all its datagrams, after `h`, is the scheduler call `pop_ready`. -/
theorem Carries.pass (h : Carries S env maxPackets config rs ds calls s) {nowNs : Int}
    (hp : Passes S s s' (popReady (.int nowNs) s.scheduler).2 (popped nowNs s.scheduler)
      (forwardEntries (nowNs - s.eventStream.startNs) (popped nowNs s.scheduler))) :
    Carries S env maxPackets config rs (ds ++ atTime nowNs (popped nowNs s.scheduler)) (calls ++ [.popReady (.int nowNs)])
      s' := by
  obtain ⟨⟨_, _, _, hstart, rfl⟩, hdec, hfwd⟩ := hp
  obtain ⟨hstep, harrival⟩ := step_popReady (DatagramScheduler.run calls) nowNs
  have harrivals : arrivals (calls ++ [.popReady (.int nowNs)]) = arrivals calls := by
    rw [arrivals_concat, harrival, List.append_nil]
  rw [h.scheduler] at hstep
  have hkept := popReady_keeps nowNs s.scheduler
  refine { h with
    processed := ?_
    times := ?_
    scheduler := ?_
    returned := ?_
    handed := ?_
    due := ?_
    startNs := hstart.trans h.startNs
    decisions := ?_
    forwards := ?_
    newest := hkept.1.trans h.newest
    released := ?_ }
  · rw [harrivals]
    exact h.processed
  · rw [harrivals]
    exact h.times
  · rw [run_concat, hstep]
  · rw [run_concat, hstep, List.map_append, h.returned, map_snd_atTime]
  · show s.handed ++ (popped nowNs s.scheduler).map ScheduledDatagram.payload = _
    rw [h.handed, List.map_append, payloads_atTime]
  · intro x hx
    rcases List.mem_append.mp hx with hx | hx
    · exact h.due x hx
    · obtain ⟨d, hd, rfl⟩ := List.mem_map.mp hx
      exact dueAtNs_le_of_mem_popped hd
  · rw [harrivals, hdec]
    exact h.decisions
  · rw [hfwd, h.forwards, h.startNs, ← reported_atTime]
    exact List.map_append.symm
  · show (popReady (.int nowNs) s.scheduler).2.holdsReleased = true ↔ _
    rw [hkept.2]
    exact h.released

theorem Full.succ {n : Nat} (h : Full maxPackets n) : Full maxPackets (n + 1) :=
  h.imp fun m hm => ⟨hm.1, hm.2.trans (by push_cast; omega)⟩

/-- Accepting a datagram is a step of the engine and a scheduler call `enqueue`, with `release_holds` for the last one. -/
theorem Carries.accept (h : Carries S env maxPackets config rs ds calls s) {raw : Bytes} {o : PacketOutcome}
    {scheduler : DatagramScheduler} (ha : Accepts S env maxPackets raw o scheduler s s') :
    ∃ calls', Carries S env maxPackets config (rs ++ [(env.clock s.clockCalls, raw)]) ds calls' s' := by
  have henq : enqueue o (.int (env.clock s.clockCalls)) (DatagramScheduler.run calls).scheduler = (.ok (), scheduler) := by
    rw [h.scheduler]
    exact ha.enqueued
  obtain ⟨hsched, hreturned, harrival⟩ := step_enqueue henq
  have harrivals : arrivals (calls ++ [.enqueue o (.int (env.clock s.clockCalls))]) =
      arrivals calls ++ [⟨o, env.clock s.clockCalls⟩] := by
    rw [arrivals_concat, harrival]
  obtain ⟨hnewest, hholds⟩ := enqueue_keeps ha.enqueued
  have hlog := ha.log
  rw [h.startNs] at hlog
  have hfull : Full maxPackets (s.receivedPackets + 1) ↔
      Full maxPackets (rs ++ [(env.clock s.clockCalls, raw)]).length := by
    rw [h.receivedPackets, List.length_append, List.length_singleton]
  have hcarries {cs : List Call} (hcs : arrivals cs = arrivals calls ++ [⟨o, env.clock s.clockCalls⟩])
      (hscheduler : (DatagramScheduler.run cs).scheduler = s'.scheduler)
      (hret : (DatagramScheduler.run cs).returned = (DatagramScheduler.run calls).returned)
      (hnew : s'.scheduler.highestPacketIndex = o.packetIndex)
      (hreleased : s'.scheduler.holdsReleased = true ↔ Full maxPackets (rs ++ [(env.clock s.clockCalls, raw)]).length) :
      Carries S env maxPackets config (rs ++ [(env.clock s.clockCalls, raw)]) ds cs s' := by
    refine ⟨?_, ?_, ?_, hscheduler, by rw [hret]; exact h.returned, ha.handed.trans h.handed, h.due,
      ha.startNs.trans h.startNs, ?_, ?_, ?_, ?_, hreleased⟩
    · rw [hcs, List.map_append, List.map_append]
      exact ImpairmentEngine.processAll_concat h.processed ha.processed
    · rw [hcs, List.map_append, List.map_append, h.times]
      rfl
    · rw [ha.clockCalls]
      exact h.timed.next raw
    · rw [hcs, hlog, List.filter_append, h.decisions, List.map_append]
      refine Eq.trans ?_ (decided_concat h.length_eq _ o).symm
      rw [List.filter_eq_self.mpr fun x hx => (isDecision_outcomeEntries hx).1]
    · rw [hlog, List.filter_append, h.forwards, List.filter_eq_nil_iff.mpr, List.append_nil]
      intro x hx
      rw [(isDecision_outcomeEntries hx).2]
      decide
    · rw [ha.receivedPackets, h.receivedPackets, List.length_append, List.length_singleton]
    · rw [hnew, ImpairmentEngine.packetIndex_process ha.processed, h.engine, List.length_append]
      simp
  have hs := ha.scheduler
  split_ifs at hs with hmax
  · obtain ⟨hsched', hreturned', harrival'⟩ :=
      step_releaseHolds (DatagramScheduler.run (calls ++ [.enqueue o (.int (env.clock s.clockCalls))]))
    refine ⟨calls ++ [.enqueue o (.int (env.clock s.clockCalls))] ++ [.releaseHolds], hcarries ?_ ?_ ?_ ?_ ?_⟩
    · rw [arrivals_concat, harrival', List.append_nil, harrivals]
    · rw [run_concat, hsched', run_concat, hsched, hs]
    · rw [run_concat, hreturned', run_concat, hreturned]
    · rw [hs]
      exact hnewest
    · rw [hs]
      exact iff_of_true rfl (hfull.mp hmax)
  · refine ⟨_, hcarries harrivals ?_ ?_ ?_ ?_⟩
    · rw [run_concat, hsched, hs]
    · rw [run_concat, hreturned]
    · rw [hs]
      exact hnewest
    · rw [hs, hholds, h.released, ← hfull]
      refine iff_of_false (fun hf => hmax ?_) hmax
      rw [h.receivedPackets]
      exact hf.succ

/-! ### Runs -/

/-- What an iteration sends is what it hands over of the datagrams that were ready. -/
theorem sentBy_eq {k : Nat} {s : RunState σ} {items : List ScheduledDatagram}
    (hitems : items <+: popped (env.clock s.clockCalls) s.scheduler)
    (h : (iteration S env pollIntervalS maxPackets k s).2.handed = s.handed ++ items.map ScheduledDatagram.payload) :
    sentBy S env pollIntervalS maxPackets k s = atTime (env.clock s.clockCalls) items := by
  have hsends : (s.handed ++ items.map ScheduledDatagram.payload).length - s.handed.length = items.length := by
    rw [List.length_append, List.length_map, Nat.add_sub_cancel_left]
  simp only [sentBy, h, hsends, atTime, ← List.prefix_iff_eq_take.mp hitems]

theorem receivedBy_nil {k : Nat} {s : RunState σ}
    (h : (iteration S env pollIntervalS maxPackets k s).2.engine.packetIndex = s.engine.packetIndex) :
    receivedBy S env pollIntervalS maxPackets k s = [] := by
  rw [receivedBy]
  cases env.recv k with
  | timeout => rfl
  | failed e => rfl
  | datagram raw => exact if_pos h

/-- A datagram that the engine has processed. -/
theorem receivedBy_processed {k : Nat} {s s' : RunState σ} {raw : Bytes} {o : PacketOutcome} {e : Except PyError Flow}
    (hm : iteration S env pollIntervalS maxPackets k s = (e, s')) (hrecv : env.recv k = .datagram raw)
    (h : ImpairmentEngine.process raw s.engine = (.ok o, s'.engine)) :
    receivedBy S env pollIntervalS maxPackets k s = [(env.clock (s.clockCalls + 1), raw)] := by
  obtain ⟨o', e', hproc, -, -, hindex⟩ := ImpairmentEngine.process_spec raw s.engine
  have he : e' = s'.engine := congrArg Prod.snd (hproc.symm.trans h)
  simp only [receivedBy, hrecv, hm, ← he, hindex]
  exact if_neg (by omega)

theorem Passes.unchanged {scheduler : DatagramScheduler} {items : List ScheduledDatagram} {fs : List Entry}
    {s₁ : RunState σ} (hp : Passes S s s₁ scheduler items fs) : s₁.engine = s.engine ∧ s₁.clockCalls = s.clockCalls ∧
      s₁.handed = s.handed ++ items.map ScheduledDatagram.payload := by
  obtain ⟨⟨_, _, _, -, rfl⟩, -, -⟩ := hp
  exact ⟨rfl, rfl, rfl⟩

variable (S pollIntervalS maxPackets s) in
theorem iteration_stopped {k : Nat} (hstop : env.stop k = true) :
    iteration S env pollIntervalS maxPackets k s = (.ok .stopped, s) := by
  rw [iteration, if_pos hstop]
  rfl

/-- One iteration more. -/
theorem Carries.iteration {k : Nat} {flow : Flow} (h : Carries S env maxPackets config rs ds calls s)
    (hm : RunState.iteration S env pollIntervalS maxPackets k s = (.ok flow, s')) :
    ∃ calls', Carries S env maxPackets config (rs ++ receivedBy S env pollIntervalS maxPackets k s)
      (ds ++ sentBy S env pollIntervalS maxPackets k s) calls' s' := by
  have hs' : (RunState.iteration S env pollIntervalS maxPackets k s).2 = s' := by rw [hm]
  rcases hstop : env.stop k with _ | _
  · obtain ⟨-, s₁, hpass, hend⟩ := (wp_iteration_traffic s hstop).of_ok hm
    obtain ⟨hengine, hclock, hsends⟩ : s₁.engine = s.engine ∧ s₁.clockCalls = s.clockCalls + 1 ∧ _ := hpass.unchanged
    have hcarries := (h.tick (Nat.le_succ s.clockCalls)).pass hpass
    rcases hend with ⟨c, hc, rfl⟩ | ⟨raw, o, scheduler, hrecv, ha⟩
    · rw [receivedBy_nil (by rw [hs']; exact congrArg ImpairmentEngine.packetIndex hengine),
        sentBy_eq (List.prefix_refl _) (by rw [hs']; exact hsends), List.append_nil]
      exact ⟨_, hcarries.tick hc⟩
    · rw [receivedBy_processed hm hrecv (hengine ▸ ha.processed),
        sentBy_eq (List.prefix_refl _) (by rw [hs', ha.handed]; exact hsends)]
      rw [← hclock]
      exact hcarries.accept ha
  · have hstopped := iteration_stopped S pollIntervalS maxPackets s hstop
    rw [hstopped] at hm hs'
    cases hs'
    rw [receivedBy_nil (by rw [hstopped]),
      sentBy_eq List.nil_prefix (by rw [hstopped, List.map_nil, List.append_nil])]
    exact ⟨calls, by rwa [List.append_nil, atTime, List.map_nil, List.append_nil]⟩

/-- A pass that is cut short: its remaining datagrams are taken from the scheduler but not sent. -/
theorem Carries.cut (h : Carries S env maxPackets config rs ds calls s) {nowNs : Int} {items : List ScheduledDatagram}
    {fs : List Entry} (hp : Passes S s s' (popReady (.int nowNs) s.scheduler).2 items fs)
    (hitems : items <+: popped nowNs s.scheduler)
    (hfs : fs <+: forwardEntries (nowNs - s.eventStream.startNs) items) :
    Carried S env config rs (ds ++ atTime nowNs items) (calls ++ [.popReady (.int nowNs)]) s' := by
  obtain ⟨⟨_, _, _, hstart, rfl⟩, hdec, hfwd⟩ := hp
  obtain ⟨hstep, harrival⟩ := step_popReady (DatagramScheduler.run calls) nowNs
  have harrivals : arrivals (calls ++ [.popReady (.int nowNs)]) = arrivals calls := by
    rw [arrivals_concat, harrival, List.append_nil]
  rw [h.scheduler] at hstep
  refine ⟨⟨_, _, h.processed, ?_, ?_⟩, ?_, h.timed.ordered, ?_, ?_, ?_, ?_⟩
  · rw [harrivals]
  · rw [hdec, h.decisions]
  · rw [harrivals, h.times]
  · rw [run_concat, hstep, List.map_append, h.returned, map_snd_atTime]
    exact (List.prefix_append_right_inj _).mpr hitems
  · show s.handed ++ items.map ScheduledDatagram.payload = _
    rw [h.handed, List.map_append, payloads_atTime]
  · intro x hx
    rcases List.mem_append.mp hx with hx | hx
    · exact h.due x hx
    · obtain ⟨d, hd, rfl⟩ := List.mem_map.mp hx
      exact dueAtNs_le_of_mem_popped (hitems.subset hd)
  · rw [hfwd, h.forwards]
    refine ((List.prefix_append_right_inj _).mpr hfs).trans ?_
    rw [h.startNs, ← reported_atTime, reported, reported, reported, List.map_append]

/-- A datagram that was processed but not scheduled has no part in the calls. -/
theorem Carries.lose {raw : Bytes} {o : PacketOutcome} (h : Carries S env maxPackets config rs ds calls s)
    (hl : Loses S env raw o s s') : Carried S env config (rs ++ [(env.clock s.clockCalls, raw)]) ds calls s' := by
  obtain ⟨l, hbegin, hlog⟩ := hl.log
  rw [h.startNs] at hbegin
  have hdecisions : ∀ x ∈ l, x.isDecision = true ∧ x.isForward = false := fun x hx =>
    isDecision_outcomeEntries (hbegin.subset hx)
  refine ⟨⟨(arrivals calls).map Arrival.outcome ++ [o], s'.engine, ?_, List.prefix_append .., ?_⟩, ?_,
    (h.timed.next raw).ordered, by rw [h.returned], hl.handed.trans h.handed, h.due, ?_⟩
  · rw [List.map_append]
    exact ImpairmentEngine.processAll_concat h.processed hl.processed
  · rw [hlog, List.filter_append, h.decisions, List.filter_eq_self.mpr fun x hx => (hdecisions x hx).1,
      decided_concat h.length_eq]
    exact (List.prefix_append_right_inj _).mpr hbegin
  · rw [h.times, List.map_append]
    exact List.prefix_append ..
  · rw [hlog, List.filter_append, h.forwards, List.filter_eq_nil_iff.mpr, List.append_nil]
    intro x hx
    rw [(hdecisions x hx).2]
    decide

/-- An iteration that raises. -/
theorem Carries.iteration_raised {k : Nat} {e : PyError} (h : Carries S env maxPackets config rs ds calls s)
    (hm : RunState.iteration S env pollIntervalS maxPackets k s = (.error e, s')) :
    ∃ calls', Carried S env config (rs ++ receivedBy S env pollIntervalS maxPackets k s)
      (ds ++ sentBy S env pollIntervalS maxPackets k s) calls' s' := by
  have hs' : (RunState.iteration S env pollIntervalS maxPackets k s).2 = s' := by rw [hm]
  have hgo : env.stop k = false := by
    by_contra hstop
    rw [iteration_stopped S pollIntervalS maxPackets s (Bool.not_eq_false _ ▸ hstop)] at hm
    cases hm
  obtain ⟨s₁, items, fs, hitems, hfs, hpass, hend⟩ := (wp_iteration_traffic s hgo).of_error hm
  obtain ⟨hengine, hclock, hsends⟩ : s₁.engine = s.engine ∧ s₁.clockCalls = s.clockCalls + 1 ∧ _ := hpass.unchanged
  have htick := h.tick (Nat.le_succ s.clockCalls)
  have hidle (hsame : s'.engine = s.engine) (hsent : s'.handed = s.handed ++ items.map ScheduledDatagram.payload) :
      receivedBy S env pollIntervalS maxPackets k s = [] ∧
        sentBy S env pollIntervalS maxPackets k s = atTime (env.clock s.clockCalls) items :=
    ⟨receivedBy_nil (by rw [hs', hsame]), sentBy_eq hitems (by rw [hs', hsent])⟩
  rcases hend with rfl | ⟨rfl, rfl, ⟨c, hc, rfl⟩ | ⟨raw, o, hrecv, hl⟩⟩
  · obtain ⟨hr, hd⟩ := hidle hengine hsends
    rw [hr, hd, List.append_nil]
    exact ⟨_, htick.cut hpass hitems hfs⟩
  · obtain ⟨hr, hd⟩ := hidle hengine hsends
    rw [hr, hd, List.append_nil]
    have hcut := htick.cut hpass hitems hfs
    exact ⟨_, ⟨hcut.processed, hcut.times, hcut.ordered, hcut.returned, hcut.handed, hcut.due, hcut.forwards⟩⟩
  · rw [receivedBy_processed hm hrecv (hengine ▸ hl.processed), sentBy_eq hitems (by rw [hs', hl.handed]; exact hsends),
      ← hclock]
    exact ⟨_, (htick.pass hpass).lose hl⟩

theorem carries_start {sessionId : String} {metadata : LinkRunMetadata} {sink : σ} {s₀ : RunState σ}
    (hstart : start S env maxPackets config sessionId metadata sink = .ok s₀) (h0 : S.recorded sink = []) :
    Carries S env maxPackets config [] [] [] s₀ := by
  unfold start at hstart
  split_ifs at hstart with hmax
  obtain ⟨stream, hnew, hstart⟩ := except_bind_eq_ok.mp hstart
  obtain ⟨hsink, hstartNs⟩ : stream.sink = sink ∧ stream.startNs = env.clock 0 := by
    unfold LinkEventStream.new at hnew
    simp only at hnew
    split_ifs at hnew
    cases hnew
    exact ⟨rfl, rfl⟩
  rcases LinkEventStream.emitRunMetadata_cases (S := S) metadata (.int (env.clock 0)) stream with
    ⟨e, s', he, -, -⟩ | ⟨e, s', now, -, hok, -, -, hem⟩
  · rw [he] at hstart
    cases hstart
  · rw [hok] at hstart
    cases hstart
    have ht : e.eventType = .RUN_METADATA := (LinkEvent.fields_of_new hem.built).2.2.2.1
    have hlog : (S.recorded s'.sink).map LinkEvent.entry = [e.entry] := by rw [hem.recorded, hsink, h0]; rfl
    have htype : e.entry.2.1 = .RUN_METADATA := ht
    have hdecision : e.entry.isDecision = false := by
      rw [Entry.isDecision, htype]
      rfl
    have hforward : e.entry.isForward = false := by
      rw [Entry.isForward, htype]
      rfl
    refine ⟨rfl, rfl, ⟨fun x hx => absurd hx List.not_mem_nil, fun _ => .nil⟩, rfl, rfl, rfl,
      fun x hx => absurd hx List.not_mem_nil, ?_, ?_, ?_, rfl, rfl, iff_of_false (by simp [new]) (by simpa using hmax)⟩
    · rw [← hstartNs, hem.state]
    · show ((S.recorded s'.sink).map LinkEvent.entry).filter Entry.isDecision = []
      rw [hlog, List.filter_cons_of_neg (by rw [hdecision]; decide), List.filter_nil]
    · show ((S.recorded s'.sink).map LinkEvent.entry).filter Entry.isForward = []
      rw [hlog, List.filter_cons_of_neg (by rw [hforward]; decide), List.filter_nil]

/-- The traffic of a run wherever it is. -/
def Progress.Carried (S : EventSink σ) (env : Environment) (maxPackets : Option Int) (config : LinkConfig)
    (rs : List (Int × Bytes)) (ds : List (Int × ScheduledDatagram)) : Progress σ → Prop
  | .running s | .left _ s => ∃ calls, Carries S env maxPackets config rs ds calls s
  | .raised _ s => ∃ calls, RunState.Carried S env config rs ds calls s

theorem Progress.Carried.exists_calls {p : Progress σ} (h : p.Carried S env maxPackets config rs ds) :
    ∃ calls, RunState.Carried S env config rs ds calls p.state := by
  cases p with
  | running s => exact h.imp fun _ hc => hc.carried
  | left flow s => exact h.imp fun _ hc => hc.carried
  | raised e s => exact h

theorem carried_iterations {s₀ : RunState σ} (h : Carries S env maxPackets config [] [] [] s₀) (n : Nat) :
    (iterations S env pollIntervalS maxPackets s₀ n).Carried S env maxPackets config
      (received S env pollIntervalS maxPackets s₀ n) (sent S env pollIntervalS maxPackets s₀ n) := by
  induction n with
  | zero => exact ⟨[], h⟩
  | succ n ih =>
    cases hn : iterations S env pollIntervalS maxPackets s₀ n with
    | running s =>
      rw [hn] at ih
      obtain ⟨calls, hcarries⟩ := ih
      simp only [received, sent, collected, hn]
      rcases hi : RunState.iteration S env pollIntervalS maxPackets n s with ⟨e | flow, s'⟩
      · simp only [iterations, hn, hi]
        exact hcarries.iteration_raised hi
      · have hstep := hcarries.iteration hi
        cases flow <;> · simp only [iterations, hn, hi]; exact hstep
    | left flow s =>
      rw [hn] at ih
      simpa only [iterations, received, sent, collected, hn, List.append_nil] using ih
    | raised e s =>
      rw [hn] at ih
      simpa only [iterations, received, sent, collected, hn, List.append_nil] using ih

end

end RunState

end OrbitOps.Link
