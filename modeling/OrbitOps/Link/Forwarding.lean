import OrbitOps.Link.Traffic

/-!
# What the link may do to its traffic

Every datagram that a run hands to `sendto` is a copy of one that it has received, sent in its time and
once (`sent_sound`); none is lost (`sent_complete`); the event log tells all of it (`log_tells_traffic`).
So a receiver behind the link decodes no packet that was not sent to it (`sent_authentic`), and without
jitter it sees packets out of order only within the reorder window (`sent_in_window`).
-/

namespace OrbitOps.Link
open Py DatagramScheduler

/-- What a datagram handed to `sendto` owes to the received datagram at a position. -/
structure Delivers (config : LinkConfig) (r : Int × Bytes) (i : Nat) (x : Int × ScheduledDatagram) : Prop where
  packetIndex : x.2.packetIndex = i
  copyIndex : x.2.copyIndex = 0 ∨ x.2.copyIndex = 1
  payload : (x.2.corruptedBit = none ∧ x.2.payload = r.2) ∨
    ∃ bit, x.2.corruptedBit = some bit ∧ 0 ≤ bit ∧ bit < r.2.length * 8 ∧ flipBit r.2 bit = .ok x.2.payload
  hold : i ≤ x.2.releaseAfterPacket ∧ x.2.releaseAfterPacket ≤ i + config.reorderWindow
  due_ge : r.1 + max 0 ((config.latencyMs : Int) - config.jitterMs) * nanosecondsPerMillisecond ≤ x.2.dueAtNs
  due_le : x.2.dueAtNs ≤ r.1 + ((config.latencyMs : Int) + config.jitterMs) * nanosecondsPerMillisecond
  sent : x.2.dueAtNs ≤ x.1

/-- The copies that the engine has made of received datagrams, with the times at which they are due. -/
def copies (config : LinkConfig) (rs : List (Int × Bytes)) : List ScheduledDatagram :=
  match ImpairmentEngine.processAll (rs.map Prod.snd) (.new config) with
  | (.ok os, _) => (List.zipWith (fun r o => scheduled o r.1) rs os).flatten
  | (.error _, _) => []

namespace ImpairmentEngine

theorem processAll_prefix {xs ys : List Bytes} (h : xs <+: ys) {e e₁ e₂ : ImpairmentEngine} {os os' : List PacketOutcome}
    (hx : processAll xs e = (.ok os, e₁)) (hy : processAll ys e = (.ok os', e₂)) : os <+: os' := by
  induction xs generalizing ys e os os' with
  | nil =>
    cases hx
    exact List.nil_prefix
  | cons x xs ih =>
    obtain ⟨rest, rfl⟩ := h
    obtain ⟨o, e', ho, -⟩ := process_spec x e
    obtain ⟨osx, ex, hxs, -⟩ := processAll_spec xs e'
    obtain ⟨osy, ey, hys, -⟩ := processAll_spec (xs ++ rest) e'
    rw [processAll, Method.bind_ok ho, Method.bind_ok hxs] at hx
    rw [List.cons_append, processAll, Method.bind_ok ho, Method.bind_ok hys] at hy
    cases hx
    cases hy
    exact (List.prefix_cons_inj o).mpr (ih (List.prefix_append ..) hxs hys)

end ImpairmentEngine

namespace DatagramScheduler

theorem delivers_of_impairs {config : LinkConfig} {r : Int × Bytes} {i : Nat} {a : Arrival} {x : Int × ScheduledDatagram}
    (him : ImpairmentEngine.Impairs config r.2 i a.outcome) (ht : a.receivedAtNs = r.1) (hx : x.2 ∈ a.datagrams)
    (hdue : x.2.dueAtNs ≤ x.1) : Delivers config r i x := by
  obtain ⟨d, hd, hxd⟩ := List.mem_map.mp hx
  have hem := him.emits hd
  have hcopy : d.copyIndex = 0 ∨ d.copyIndex = 1 := by
    rcases him.deliveries with ⟨-, hnil⟩ | ⟨-, d', cs, -, hcs, hds⟩
    · rw [hnil] at hd
      exact absurd hd List.not_mem_nil
    · rw [hds] at hd
      obtain ⟨c, hc, rfl⟩ := List.mem_map.mp hd
      rcases hcs with rfl | rfl
      · exact .inl (List.mem_singleton.mp hc)
      · simpa using hc
  have hms : 0 ≤ nanosecondsPerMillisecond := by decide
  have hge := mul_le_mul_of_nonneg_right hem.delay_ge hms
  have hle := mul_le_mul_of_nonneg_right hem.delay_le hms
  have hhold := hem.hold
  refine ⟨?_, ?_, ?_, ?_, ?_, ?_, hdue⟩ <;> rw [← hxd]
  · exact him.packetIndex
  · exact hcopy
  · exact hem.payload
  · rw [him.packetIndex]
    dsimp only
    omega
  · dsimp only
    omega
  · dsimp only
    omega

/-- The datagrams of arrivals are the copies of what arrived. -/
theorem flatMap_datagrams_eq {rs : List (Int × Bytes)} {as : List Arrival}
    (h : as.map Arrival.receivedAtNs = rs.map Prod.fst) :
    as.flatMap Arrival.datagrams = (List.zipWith (fun r o => scheduled o r.1) rs (as.map Arrival.outcome)).flatten := by
  induction as generalizing rs with
  | nil =>
    cases rs with
    | nil => rfl
    | cons r rs => cases h
  | cons a as ih =>
    cases rs with
    | nil => cases h
    | cons r rs =>
      obtain ⟨hr, hrs⟩ := List.cons.inj h
      rw [List.flatMap_cons, ih hrs, List.map_cons, List.zipWith_cons_cons, List.flatten_cons, Arrival.datagrams, hr]

end DatagramScheduler

namespace RunState
variable {σ : Type} {S : EventSink σ} {env : Environment} {pollIntervalS : Float64} {maxPackets : Option Int}
  {config : LinkConfig} {sessionId : String} {metadata : LinkRunMetadata} {sink : σ} {s₀ s : RunState σ}
  {rs : List (Int × Bytes)} {ds : List (Int × ScheduledDatagram)} {calls : List Call}

variable (pollIntervalS) in
theorem traffic_iterations (hstart : start S env maxPackets config sessionId metadata sink = .ok s₀)
    (h0 : S.recorded sink = []) (n : Nat) : (iterations S env pollIntervalS maxPackets s₀ n).Carried S env maxPackets config
      (received S env pollIntervalS maxPackets s₀ n) (sent S env pollIntervalS maxPackets s₀ n) :=
  carried_iterations (carries_start hstart h0) n

theorem Progress.Carried.at_loop {p : Progress σ} (h : p.Carried S env maxPackets config rs ds) (hs : p.AtLoop s) :
    ∃ calls, Carries S env maxPackets config rs ds calls s := by
  cases p with
  | running s' => exact (show s' = s from hs) ▸ h
  | left flow s' => exact (show s' = s from hs) ▸ h
  | raised e s' => exact hs.elim

theorem Progress.AtLoop.state_eq {p : Progress σ} (h : p.AtLoop s) : p.state = s := by
  cases p with
  | running s' => exact h
  | left flow s' => exact h
  | raised e s' => exact h.elim

theorem Progress.Tracked.at_loop {p : Progress σ} (h : p.Tracked S) (hs : p.AtLoop s) : Tracks S s := by
  cases p with
  | running s' => exact (show s' = s from hs) ▸ h
  | left flow s' => exact (show s' = s from hs) ▸ h
  | raised e s' => exact hs.elim

abbrev busyReceived (s₀ : RunState (List LinkEvent)) (n : Nat) : List (Int × Bytes) :=
  received LinkEventStream.listSink busyEnvironment defaultPollIntervalS (some 4) s₀ n

abbrev busySent (s₀ : RunState (List LinkEvent)) (n : Nat) : List (Int × ScheduledDatagram) :=
  sent LinkEventStream.listSink busyEnvironment defaultPollIntervalS (some 4) s₀ n

/-- Of four packets received five copies are sent. -/
theorem busy_sends : ∃ s₀ s, busyStart LinkEventStream.listSink .busy = .ok s₀ ∧
    busyRun LinkEventStream.listSink s₀ 9 = .left .drained s ∧ s.handed.length = 5 :=
  exists_busy LinkEventStream.listSink .busy (fun s => s.handed.length) .drained 5 (by decide +kernel)

/-- The arrival at a position is the datagram received there, with its outcome. -/
theorem Carried.arrival (h : Carried S env config rs ds calls s) {i : Nat} {a : Arrival}
    (ha : (arrivals calls)[i]? = some a) :
    ∃ r, rs[i]? = some r ∧ a.receivedAtNs = r.1 ∧ ImpairmentEngine.Impairs config r.2 i a.outcome := by
  obtain ⟨os, e, hrun, hbegin, -⟩ := h.processed
  obtain ⟨os', e', hrun', hlen, him⟩ := ImpairmentEngine.processAll_spec (rs.map Prod.snd) (.new config)
  obtain ⟨rfl, -⟩ : os = os' ∧ e = e' := by
    rw [hrun] at hrun'
    cases hrun'
    exact ⟨rfl, rfl⟩
  have ho : os[i]? = some a.outcome := by
    obtain ⟨rest, rfl⟩ := hbegin
    rw [List.getElem?_append_left (by simpa using (List.getElem?_eq_some_iff.mp ha).1), List.getElem?_map, ha]
    rfl
  have ht : (rs.map Prod.fst)[i]? = some a.receivedAtNs := by
    obtain ⟨rest, hrest⟩ := h.times
    rw [← hrest, List.getElem?_append_left (by simpa using (List.getElem?_eq_some_iff.mp ha).1), List.getElem?_map, ha]
    rfl
  rw [List.getElem?_map] at ht
  obtain ⟨r, hr, htime⟩ := Option.map_eq_some_iff.mp ht
  have hpayload := him i r.2 a.outcome (by rw [List.getElem?_map, hr]; rfl) ho
  refine ⟨r, hr, htime.symm, ?_⟩
  rwa [show (ImpairmentEngine.new config).packetIndex + (i : Int) = i from Int.zero_add _] at hpayload

theorem Carried.impairs (h : Carried S env config rs ds calls s) {a : Arrival} (ha : a ∈ arrivals calls) :
    ∃ payload index, ImpairmentEngine.Impairs config payload index a.outcome := by
  obtain ⟨i, hi⟩ := List.mem_iff_getElem?.mp ha
  obtain ⟨r, -, -, him⟩ := h.arrival hi
  exact ⟨r.2, i, him⟩

/-- What was sent is part of what was enqueued. -/
theorem Carried.subperm (h : Carried S env config rs ds calls s) :
    (ds.map Prod.snd).Subperm ((arrivals calls).flatMap Arrival.datagrams) := by
  rw [← (records_run calls).enqueued]
  exact h.returned.sublist.subperm.trans ((List.sublist_append_left _ _).subperm.trans (conserves_run calls).subperm)

theorem Carried.delivers (h : Carried S env config rs ds calls s) {x : Int × ScheduledDatagram} (hx : x ∈ ds) :
    ∃ i r, rs[i]? = some r ∧ Delivers config r i x := by
  obtain ⟨a, ha, hxa⟩ := List.mem_flatMap.mp (h.subperm.subset (List.mem_map_of_mem hx))
  obtain ⟨i, hi⟩ := List.mem_iff_getElem?.mp ha
  obtain ⟨r, hr, ht, him⟩ := h.arrival hi
  exact ⟨i, r, hr, delivers_of_impairs him ht hxa (h.due x hx)⟩

/-- No copy is sent twice. -/
theorem Carried.nodup (h : Carried S env config rs ds calls s) : (ds.map fun x => x.2.copy).Nodup := by
  have hdistinct : Distinct ((arrivals calls).flatMap Arrival.datagrams) := by
    rw [← (records_run calls).enqueued]
    refine (records_run calls).distinct fun a ha => ?_
    obtain ⟨payload, index, him⟩ := h.impairs ha
    exact him.distinctCopies
  rw [show (ds.map fun x => x.2.copy) = (ds.map Prod.snd).map ScheduledDatagram.copy by rw [List.map_map]; rfl]
  obtain ⟨l, hperm, hsub⟩ := h.subperm
  exact (hperm.map _).nodup_iff.mp ((List.pairwise_map.mpr hdistinct).sublist (hsub.map _))

/-- A datagram of a pass has no hold left, or the run has its packets. -/
theorem Carries.released_of_popped (h : Carries S env maxPackets config rs ds calls s) {nowNs : Int}
    {d : ScheduledDatagram} (hd : d ∈ popped nowNs s.scheduler) :
    d.releaseAfterPacket < rs.length ∨ Full maxPackets rs.length := by
  rw [popped] at hd
  rcases popReady_cases s.scheduler (.int nowNs) with ⟨e, he⟩ | ⟨t, items, scheduler, -, -, hok, hpops⟩
  · rw [he] at hd
    cases hd
  · rw [hok] at hd
    have helig := (hpops.ready d hd).2
    rw [eligible, Bool.or_eq_true, decide_eq_true_eq] at helig
    rcases helig with hreleased | hle
    · exact .inr (h.released.mp hreleased)
    · rw [h.newest] at hle
      exact .inl (by omega)

/-- What a run has given to `sendto` are the payloads of its sent datagrams, in their order. Every one of these is a
copy of one that it has received: with its payload or with one flipped bit, due within the latency and the
jitter of its arrival and not sent before that. No copy is sent twice, and none before the packets it is held
for, unless the run has all its packets. -/
theorem sent_sound (hstart : start S env maxPackets config sessionId metadata sink = .ok s₀) (h0 : S.recorded sink = [])
    (n : Nat) :
    (iterations S env pollIntervalS maxPackets s₀ n).state.handed =
      (sent S env pollIntervalS maxPackets s₀ n).map (fun x => x.2.payload) ∧
    (∀ x ∈ sent S env pollIntervalS maxPackets s₀ n,
      ∃ i r, (received S env pollIntervalS maxPackets s₀ n)[i]? = some r ∧ Delivers config r i x) ∧
    ((sent S env pollIntervalS maxPackets s₀ n).map fun x => x.2.copy).Nodup ∧
    ∀ s, iterations S env pollIntervalS maxPackets s₀ n = .running s →
      ∀ x ∈ sentBy S env pollIntervalS maxPackets n s,
        x.2.releaseAfterPacket < (received S env pollIntervalS maxPackets s₀ n).length ∨
        Full maxPackets (received S env pollIntervalS maxPackets s₀ n).length := by
  have htraffic := traffic_iterations pollIntervalS hstart h0 n
  obtain ⟨calls, h⟩ := htraffic.exists_calls
  refine ⟨h.handed, fun x hx => h.delivers hx, h.nodup, fun s hs x hx => ?_⟩
  rw [hs] at htraffic
  obtain ⟨calls, h⟩ := htraffic
  obtain ⟨d, hd, rfl⟩ := List.mem_map.mp hx
  exact h.released_of_popped (List.mem_of_mem_take hd)

theorem sent_sound_busy : ∃ s₀ s, busyStart LinkEventStream.listSink .busy = .ok s₀ ∧
    busyRun LinkEventStream.listSink s₀ 9 = .left .drained s ∧ s.handed.length = 5 ∧
    s.handed = (busySent s₀ 9).map (fun x => x.2.payload) ∧
    (∀ x ∈ busySent s₀ 9, ∃ i r, (busyReceived s₀ 9)[i]? = some r ∧ Delivers .busy r i x) ∧
    ((busySent s₀ 9).map fun x => x.2.copy).Nodup := by
  obtain ⟨s₀, s, hstart, hleft, hlength⟩ := busy_sends
  have hhanded : (busyRun LinkEventStream.listSink s₀ 9).state.handed = (busySent s₀ 9).map fun x => x.2.payload :=
    (sent_sound hstart rfl 9).1
  rw [hleft] at hhanded
  exact ⟨s₀, s, hstart, hleft, hlength, hhanded, (sent_sound hstart rfl 9).2.1, (sent_sound hstart rfl 9).2.2.1⟩

/-! ### Nothing is lost -/

theorem Carries.datagrams_eq (h : Carries S env maxPackets config rs ds calls s) :
    (arrivals calls).flatMap Arrival.datagrams = copies config rs := by
  rw [flatMap_datagrams_eq h.times, copies, h.processed]

theorem Carries.conserves (h : Carries S env maxPackets config rs ds calls s) :
    (ds.map Prod.snd ++ s.scheduler.pending.toList).Perm (copies config rs) := by
  rw [← h.datagrams_eq, ← (records_run calls).enqueued, h.returned, ← h.scheduler]
  exact conserves_run calls

theorem sent_succ {n : Nat} (hn : iterations S env pollIntervalS maxPackets s₀ n = .running s) :
    sent S env pollIntervalS maxPackets s₀ (n + 1) =
      sent S env pollIntervalS maxPackets s₀ n ++ sentBy S env pollIntervalS maxPackets n s := by
  simp only [sent, collected, hn]

/-- An iteration that does not raise sends what is ready at its start. -/
theorem Carries.sends (h : Carries S env maxPackets config rs ds calls s) {k : Nat} {flow : Flow} {s' : RunState σ}
    (hgo : env.stop k = false) (hm : RunState.iteration S env pollIntervalS maxPackets k s = (.ok flow, s')) {d : ScheduledDatagram}
    (hd : d ∈ s.scheduler.pending.toList) : d ∈ (sentBy S env pollIntervalS maxPackets k s).map Prod.snd ∨
      env.clock s.clockCalls < d.dueAtNs ∨ (rs.length : Int) ≤ d.releaseAfterPacket ∧ ¬Full maxPackets rs.length := by
  obtain ⟨hnow, s₁, hpass, hend⟩ := (wp_iteration_traffic s hgo).of_ok hm
  have hsends : (RunState.iteration S env pollIntervalS maxPackets k s).2.handed =
      s.handed ++ (popped (env.clock s.clockCalls) s.scheduler).map ScheduledDatagram.payload := by
    rw [hm]
    rcases hend with ⟨c, -, rfl⟩ | ⟨raw, o, scheduler, -, ha⟩
    · exact hpass.unchanged.2.2
    · exact ha.handed.trans hpass.unchanged.2.2
  rw [sentBy_eq (List.prefix_refl _) hsends, map_snd_atTime]
  obtain ⟨items, scheduler, hok, hpops⟩ := popReady_spec s.scheduler hnow
  have hitems : popped (env.clock s.clockCalls) s.scheduler = items := by rw [popped, hok]
  rw [hitems]
  rcases List.mem_append.mp (hpops.perm.mem_iff.mpr hd) with hsent | hleft
  · exact .inl hsent
  · refine .inr ((hpops.waiting d hleft).imp_right fun hheld => ?_)
    rw [hpops.eligible_eq, eligible, Bool.or_eq_false_iff, decide_eq_false_iff_not, h.newest] at hheld
    refine ⟨by omega, fun hfull => ?_⟩
    rw [h.released.mpr hfull] at hheld
    exact Bool.noConfusion hheld.1

/-- No copy is lost or held back: what was given to `sendto` are the payloads of the copies sent, and at the loop head
the copies sent and pending are those that the engine has made; an iteration that does not raise leaves only
copies that were not due at its start or whose hold was not over; and a run that leaves its loop without
being stopped has sent them all. -/
theorem sent_complete (hstart : start S env maxPackets config sessionId metadata sink = .ok s₀)
    (h0 : S.recorded sink = []) (n : Nat) :
    (iterations S env pollIntervalS maxPackets s₀ n).state.handed =
      (sent S env pollIntervalS maxPackets s₀ n).map (fun x => x.2.payload) ∧
    (∀ s, (iterations S env pollIntervalS maxPackets s₀ n).AtLoop s →
      ((sent S env pollIntervalS maxPackets s₀ n).map Prod.snd ++ s.scheduler.pending.toList).Perm
        (copies config (received S env pollIntervalS maxPackets s₀ n))) ∧
    (∀ s flow s', iterations S env pollIntervalS maxPackets s₀ n = .running s → env.stop n = false →
      iteration S env pollIntervalS maxPackets n s = (.ok flow, s') →
      ∀ d ∈ copies config (received S env pollIntervalS maxPackets s₀ n),
        d ∈ (sent S env pollIntervalS maxPackets s₀ (n + 1)).map Prod.snd ∨ env.clock s.clockCalls < d.dueAtNs ∨
        ((received S env pollIntervalS maxPackets s₀ n).length : Int) ≤ d.releaseAfterPacket ∧
          ¬Full maxPackets (received S env pollIntervalS maxPackets s₀ n).length) ∧
    ∀ flow s, iterations S env pollIntervalS maxPackets s₀ n = .left flow s → flow ≠ .stopped →
      ((sent S env pollIntervalS maxPackets s₀ n).map Prod.snd).Perm
        (copies config (received S env pollIntervalS maxPackets s₀ n)) := by
  have htraffic := traffic_iterations pollIntervalS hstart h0 n
  obtain ⟨calls, hcarried⟩ := htraffic.exists_calls
  refine ⟨hcarried.handed, fun s hs => ?_, fun s flow s' hs hgo hm d hd => ?_, fun flow s hs hne => ?_⟩
  · obtain ⟨calls, h⟩ := htraffic.at_loop hs
    exact h.conserves
  · rw [hs] at htraffic
    obtain ⟨calls, h⟩ := htraffic
    rw [sent_succ hs, List.map_append, List.mem_append]
    rcases List.mem_append.mp (h.conserves.mem_iff.mpr hd) with hsent | hpending
    · exact .inl (.inl hsent)
    · exact (h.sends hgo hm hpending).imp_left .inr
  · have hacc : (iterations S env pollIntervalS maxPackets s₀ n).Accounted S env maxPackets :=
      accounted_iterations (accounts_start hstart h0) n
    rw [hs] at htraffic hacc
    obtain ⟨calls, h⟩ := htraffic
    have hempty : s.scheduler.pending.toList = [] := List.length_eq_zero_iff.mp (hacc.2 hne)
    have hperm := h.conserves
    rwa [hempty, List.append_nil] at hperm

theorem sent_complete_busy : ∃ s₀ s, busyStart LinkEventStream.listSink .busy = .ok s₀ ∧
    busyRun LinkEventStream.listSink s₀ 9 = .left .drained s ∧ s.handed.length = 5 ∧
    ((busySent s₀ 9).map Prod.snd).Perm (copies .busy (busyReceived s₀ 9)) := by
  obtain ⟨s₀, s, hstart, hleft, hlength⟩ := busy_sends
  exact ⟨s₀, s, hstart, hleft, hlength, (sent_complete hstart rfl 9).2.2.2 .drained s hleft (by decide)⟩

/-! ### The log -/

/-- The event log tells the traffic of a run: at the loop head its decisions are those of the engine on the
received datagrams, in their order and at their times, and its forwarding events are the datagrams whose
payloads were given to `sendto`; where the run has raised, the log may lack the last of them. -/
theorem log_tells_traffic (hstart : start S env maxPackets config sessionId metadata sink = .ok s₀)
    (h0 : S.recorded sink = []) (n : Nat) :
    let run := iterations S env pollIntervalS maxPackets s₀ n
    let rs := received S env pollIntervalS maxPackets s₀ n
    let ds := sent S env pollIntervalS maxPackets s₀ n
    run.state.handed = ds.map (fun x => x.2.payload) ∧
    ∃ os e, ImpairmentEngine.processAll (rs.map Prod.snd) (.new config) = (.ok os, e) ∧
      (∀ s, run.AtLoop s → (s.log S).filter Entry.isDecision = decided (env.clock 0) rs os ∧
        (s.log S).filter Entry.isForward = reported (env.clock 0) ds) ∧
      (run.state.log S).filter Entry.isDecision <+: decided (env.clock 0) rs os ∧
      (run.state.log S).filter Entry.isForward <+: reported (env.clock 0) ds := by
  intro run rs ds
  have htraffic : run.Carried S env maxPackets config rs ds := traffic_iterations pollIntervalS hstart h0 n
  obtain ⟨calls, h⟩ := htraffic.exists_calls
  obtain ⟨os, e, hrun, -, hdecisions⟩ := h.processed
  refine ⟨h.handed, os, e, hrun, fun s hs => ?_, hdecisions, h.forwards⟩
  obtain ⟨calls', h'⟩ := htraffic.at_loop hs
  have hok := h'.processed
  rw [hrun] at hok
  rw [h'.decisions, h'.forwards, ← Except.ok.inj (congrArg Prod.fst hok)]
  exact ⟨rfl, rfl⟩

theorem log_tells_traffic_busy : ∃ s₀ s, busyStart LinkEventStream.listSink .busy = .ok s₀ ∧
    busyRun LinkEventStream.listSink s₀ 9 = .left .drained s ∧ s.handed.length = 5 ∧
    (s.log LinkEventStream.listSink).filter Entry.isForward = reported 0 (busySent s₀ 9) := by
  obtain ⟨s₀, s, hstart, hleft, hlength⟩ := busy_sends
  have hloop : (busyRun LinkEventStream.listSink s₀ 9).AtLoop s := by rw [hleft]; rfl
  obtain ⟨-, os, e, -, hlog, -⟩ := log_tells_traffic hstart rfl 9
  exact ⟨s₀, s, hstart, hleft, hlength, (hlog s hloop).2⟩

end RunState

/-! ### What a receiver can decode -/

/-- The packets that payloads decode to, in their order. -/
def decodable (payloads : List Bytes) : List (TelemetryPacket Int) :=
  payloads.filterMap fun payload => (decodePacket payload).toOption.map TelemetryPacket.numbered

/-- Lists that contribute to `q` only at its own positions, and there `k` at most. -/
theorem count_flatMap_le {α β : Type} [DecidableEq β] {f : α → List β} {k : Nat} {q : β} {as : List α} {ps : List β}
    (h : ∀ (i : Nat) a, as[i]? = some a → ∃ p, ps[i]? = some p ∧ (f a).count q ≤ if p = q then k else 0) :
    (as.flatMap f).count q ≤ k * ps.count q := by
  induction as generalizing ps with
  | nil => exact Nat.zero_le _
  | cons a as ih =>
    obtain ⟨p, hp, hcount⟩ := h 0 a rfl
    cases ps with
    | nil => cases hp
    | cons p' ps =>
      obtain rfl : p' = p := Option.some.inj hp
      have hrest := ih fun i a' ha' => h (i + 1) a' ha'
      rw [List.flatMap_cons, List.count_append, List.count_cons, Nat.mul_add, add_comm]
      refine Nat.add_le_add hrest (hcount.trans ?_)
      by_cases heq : p' = q <;> simp [heq]

namespace ImpairmentEngine

/-- The copies of an encoded packet decode to it or not at all. -/
theorem Impairs.count_decodable {config : LinkConfig} {p : TelemetryPacket Int} {i : Int} {o : PacketOutcome}
    (h : Impairs config (encoding p) i o) (hp : p.InRange) (t : Int) (q : TelemetryPacket Int) :
    (decodable ((scheduled o t).map ScheduledDatagram.payload)).count q ≤ if p = q then o.deliveries.length else 0 := by
  have hall : ∀ r ∈ decodable ((scheduled o t).map ScheduledDatagram.payload), r = p := by
    intro r hr
    obtain ⟨payload, hpayload, hr⟩ := List.mem_filterMap.mp hr
    obtain ⟨d, hd, rfl⟩ := List.mem_map.mp hpayload
    obtain ⟨x, hx, rfl⟩ := List.mem_map.mp hd
    rcases (h.emits hx).decodes_or_rejected hp with ⟨-, q', hq', hnum⟩ | ⟨-, err, herr, -⟩
    · simp only [hq', Except.toOption, Option.map_some, Option.some.injEq] at hr
      rw [← hr, hnum]
    · simp [herr, Except.toOption] at hr
  split_ifs with heq
  · refine List.count_le_length.trans ((List.length_filterMap_le ..).trans ?_)
    rw [List.length_map, scheduled, List.length_map]
  · rw [List.count_eq_zero.mpr fun hmem => heq (hall q hmem).symm]

theorem Impairs.length_le_two {config : LinkConfig} {payload : Bytes} {i : Int} {o : PacketOutcome}
    (h : Impairs config payload i o) : o.deliveries.length ≤ 2 := by
  rcases h.deliveries with ⟨-, hnil⟩ | ⟨-, d, copies, -, hcopies, hds⟩
  · rw [hnil]
    exact Nat.zero_le 2
  · rw [hds, List.length_map]
    rcases hcopies with rfl | rfl
    · exact Nat.le_succ 1
    · exact le_rfl

/-- Without duplication there is one copy at most. -/
theorem length_le_one_of_process {config : LinkConfig} {payload : Bytes} {rng : SplitMix64} {i : Int} {o : PacketOutcome}
    {e : ImpairmentEngine} (hrate : config.duplicateRate.value.toRat = 0)
    (h : process payload ⟨config, rng, i⟩ = (.ok o, e)) : o.deliveries.length ≤ 1 := by
  obtain ⟨d, hd, -⟩ := impair_spec config payload (rng.output 3) (rng.output 4) (rng.output 5)
    (probabilityHit (rng.output 2) config.corruptRate.value.toRat)
  rw [process_apply, hd, hrate, probabilityHit_zero] at h
  rw [← Except.ok.inj (congrArg Prod.fst h)]
  cases hdrop : probabilityHit (rng.output 0) config.lossRate.value.toRat with
  | true => exact Nat.zero_le 1
  | false => exact Nat.le_refl 1

theorem length_le_one {config : LinkConfig} {payloads : List Bytes} {os : List PacketOutcome} {e : ImpairmentEngine}
    (hrun : processAll payloads (.new config) = (.ok os, e)) (hrate : config.duplicateRate.value.toRat = 0) {o : PacketOutcome}
    (ho : o ∈ os) : o.deliveries.length ≤ 1 := by
  obtain ⟨os', e', hrun', hlen, -⟩ := processAll_spec payloads (.new config)
  rw [hrun] at hrun'
  cases hrun'
  obtain ⟨i, hi, rfl⟩ := List.getElem_of_mem ho
  obtain ⟨o', e'', ho', hproc⟩ := processAll_getElem? hrun (List.getElem?_eq_getElem (hlen ▸ hi))
  rw [List.getElem?_eq_getElem hi, Option.some.injEq] at ho'
  rw [ho']
  exact length_le_one_of_process hrate hproc

end ImpairmentEngine

namespace RunState
variable {σ : Type} {S : EventSink σ} {env : Environment} {pollIntervalS : Float64} {maxPackets : Option Int}
  {config : LinkConfig} {sessionId : String} {metadata : LinkRunMetadata} {sink : σ} {s₀ s : RunState σ}
  {rs : List (Int × Bytes)} {ds : List (Int × ScheduledDatagram)} {calls : List Call}

theorem Carried.count_decodable (h : Carried S env config rs ds calls s) {ps : List (TelemetryPacket Int)}
    (hps : rs.map Prod.snd = ps.map encoding) (hin : ∀ p ∈ ps, p.InRange) {k : Nat}
    (hk : ∀ a ∈ arrivals calls, a.outcome.deliveries.length ≤ k) (q : TelemetryPacket Int) :
    (decodable (ds.map fun x => x.2.payload)).count q ≤ k * ps.count q := by
  have hsub : (decodable (ds.map fun x => x.2.payload)).Subperm
      ((arrivals calls).flatMap fun a => decodable (a.datagrams.map ScheduledDatagram.payload)) := by
    obtain ⟨l, hperm, hl⟩ := h.subperm
    refine ⟨decodable (l.map ScheduledDatagram.payload), ?_, ?_⟩
    · rw [show (ds.map fun x => x.2.payload) = (ds.map Prod.snd).map ScheduledDatagram.payload by rw [List.map_map]; rfl]
      exact (hperm.map _).filterMap _
    · rw [show ((arrivals calls).flatMap fun a => decodable (a.datagrams.map ScheduledDatagram.payload)) =
        decodable (((arrivals calls).flatMap Arrival.datagrams).map ScheduledDatagram.payload) by
          rw [List.map_flatMap, decodable, List.filterMap_flatMap]; rfl]
      exact (hl.map _).filterMap _
  refine (hsub.count_le q).trans (count_flatMap_le fun i a ha => ?_)
  obtain ⟨r, hr, -, him⟩ := h.arrival ha
  have hpi : (rs.map Prod.snd)[i]? = some r.2 := by rw [List.getElem?_map, hr]; rfl
  rw [hps, List.getElem?_map] at hpi
  obtain ⟨p, hp, hpr⟩ := Option.map_eq_some_iff.mp hpi
  refine ⟨p, hp, ?_⟩
  have hcount := ImpairmentEngine.Impairs.count_decodable (hpr ▸ him) (hin p (List.mem_of_getElem? hp)) a.receivedAtNs q
  refine hcount.trans ?_
  split_ifs
  · exact hk a (List.mem_of_getElem? ha)
  · exact le_rfl

/-- A receiver behind the link decodes no packet that was not sent to it. Where the datagrams received encode packets,
the payloads given to `sendto` are those of the sent datagrams; of these exactly the uncorrupted copies decode,
each to the packet at its position, and every packet at most twice as often as it was received, or as often
without duplication. -/
theorem sent_authentic (hstart : start S env maxPackets config sessionId metadata sink = .ok s₀)
    (h0 : S.recorded sink = []) (n : Nat) (ps : List (TelemetryPacket Int))
    (hps : ps.mapM encodePacket = .ok ((received S env pollIntervalS maxPackets s₀ n).map Prod.snd)) :
    let handed := (iterations S env pollIntervalS maxPackets s₀ n).state.handed
    handed = (sent S env pollIntervalS maxPackets s₀ n).map (fun x => x.2.payload) ∧
    (∀ x ∈ sent S env pollIntervalS maxPackets s₀ n,
      (∃ i p q, x.2.packetIndex = (i : Nat) ∧ ps[i]? = some p ∧ x.2.corruptedBit = none ∧
        decodePacket x.2.payload = .ok q ∧ q.numbered = p) ∨
      (∃ bit, x.2.corruptedBit = some bit) ∧ ∃ e, decodePacket x.2.payload = .error e ∧ e.cls = .protocolError) ∧
    ∀ p, (decodable handed).count p ≤ 2 * ps.count p ∧
      (config.duplicateRate.value.toRat = 0 → (decodable handed).count p ≤ ps.count p) := by
  intro handed
  obtain ⟨calls, h⟩ := (traffic_iterations pollIntervalS hstart h0 n).exists_calls
  have hhanded : handed = (sent S env pollIntervalS maxPackets s₀ n).map fun x => x.2.payload := h.handed
  obtain ⟨hraws, hin⟩ := ImpairmentEngine.mapM_encodePacket_eq_ok hps
  refine ⟨hhanded, fun x hx => ?_, fun p => ⟨?_, fun hrate => ?_⟩⟩
  · obtain ⟨i, r, hr, hx⟩ := h.delivers hx
    have hpi : ((received S env pollIntervalS maxPackets s₀ n).map Prod.snd)[i]? = some r.2 := by
      rw [List.getElem?_map, hr]
      rfl
    rw [hraws, List.getElem?_map] at hpi
    obtain ⟨p, hp, hpr⟩ := Option.map_eq_some_iff.mp hpi
    rcases hx.payload with ⟨hbit, hpayload⟩ | ⟨bit, hbit, -, -, hflip⟩
    · obtain ⟨q, hq, hnum⟩ := decodePacket_encoding (hin p (List.mem_of_getElem? hp))
      exact .inl ⟨i, p, q, hx.packetIndex, hp, hbit, by rw [hpayload, ← hpr, hq], hnum⟩
    · exact .inr ⟨⟨bit, hbit⟩, ImpairmentEngine.decodePacket_flipBit (hpr ▸ hflip)⟩
  · rw [hhanded]
    refine h.count_decodable hraws hin (fun a ha => ?_) p
    obtain ⟨payload, index, him⟩ := h.impairs ha
    exact him.length_le_two
  · obtain ⟨os, e, hrun, hbegin, -⟩ := h.processed
    have hone := h.count_decodable hraws hin (k := 1)
      (fun a ha => ImpairmentEngine.length_le_one hrun hrate (hbegin.subset (List.mem_map_of_mem ha))) p
    rwa [Nat.one_mul, ← hhanded] at hone

/-- The same packets while the clock stands still. -/
def suddenEnvironment : Environment := { busyEnvironment with clock := fun _ => 0 }

/-- A run that has received the four packets. -/
def Relays (env : Environment) (s₀ s : RunState (List LinkEvent)) : Prop :=
  start LinkEventStream.listSink env (some 4) .busy "run" LinkEventStream.plainMetadata [] = .ok s₀ ∧
    (iterations LinkEventStream.listSink env defaultPollIntervalS (some 4) s₀ 9).AtLoop s ∧
    (received LinkEventStream.listSink env defaultPollIntervalS (some 4) s₀ 9).map Prod.snd = busyPackets.map encoding

def Progress.hasRaised {σ : Type} : Progress σ → Bool
  | .running _ | .left _ _ => false
  | .raised _ _ => true

theorem relays {β : Type} (env : Environment) (f : RunState (List LinkEvent) → β) (b : β)
    (h : ((start LinkEventStream.listSink env (some 4) .busy "run" LinkEventStream.plainMetadata []).toOption.map fun s₀ =>
      let run := iterations LinkEventStream.listSink env defaultPollIntervalS (some 4) s₀ 9
      (run.hasRaised, (received LinkEventStream.listSink env defaultPollIntervalS (some 4) s₀ 9).map Prod.snd, f run.state)) =
      some (false, busyPackets.map encoding, b)) : ∃ s₀ s, Relays env s₀ s ∧ f s = b := by
  cases hs : start LinkEventStream.listSink env (some 4) .busy "run" LinkEventStream.plainMetadata [] with
  | error e =>
    rw [hs] at h
    cases h
  | ok s₀ =>
    rw [hs] at h
    obtain ⟨hraised, hseen⟩ := Prod.mk.inj (Option.some.inj h)
    obtain ⟨hreceived, hf⟩ := Prod.mk.inj hseen
    cases hn : iterations LinkEventStream.listSink env defaultPollIntervalS (some 4) s₀ 9 with
    | running s =>
      rw [hn] at hf
      exact ⟨s₀, s, ⟨hs, by rw [hn]; rfl, hreceived⟩, hf⟩
    | left flow s =>
      rw [hn] at hf
      exact ⟨s₀, s, ⟨hs, by rw [hn]; rfl, hreceived⟩, hf⟩
    | raised e s =>
      rw [hn] at hraised
      cases hraised

/-- Four of the five copies sent are corrupted, so one decodes. -/
theorem sent_authentic_busy : ∃ s₀ s, Relays busyEnvironment s₀ s ∧
    (decodable s.handed).map TelemetryPacket.sequence = [3] ∧
    ∀ p, (decodable s.handed).count p ≤ 2 * busyPackets.count p := by
  obtain ⟨s₀, s, hs, hseen⟩ := relays busyEnvironment
    (fun s => (decodable s.handed).map TelemetryPacket.sequence) [3] (by decide +kernel)
  have hps : busyPackets.mapM encodePacket = .ok _ := congrArg Except.ok hs.2.2.symm
  have h := (sent_authentic hs.1 rfl 9 _ hps).2.2
  have hstate : (busyRun LinkEventStream.listSink s₀ 9).state = s := hs.2.1.state_eq
  rw [show (iterations LinkEventStream.listSink busyEnvironment defaultPollIntervalS (some 4) s₀ 9).state = s from hstate]
    at h
  exact ⟨s₀, s, hs, hseen, fun p => (h p).1⟩

/-! ### The order of sending -/

theorem packetsOf_forwarded_eq (es : List LinkEvent) : packetsOf .PACKET_FORWARDED es =
    ((es.map LinkEvent.entry).filter Entry.isForward).filterMap fun x => x.2.2.1 := by
  rw [packetsOf, List.filter_map, List.filterMap_map]
  rfl

theorem filterMap_reported (startNs : Int) (ds : List (Int × ScheduledDatagram)) :
    (reported startNs ds).filterMap (fun x => x.2.2.1) = ds.map fun x => x.2.packetIndex.toNat := by
  rw [reported, List.filterMap_map]
  exact congrFun List.filterMap_eq_map ds

theorem Carried.times_ordered (h : Carried S env config rs ds calls s) (hclock : Monotone env.clock) :
    (arrivals calls).Pairwise fun a a' => a.receivedAtNs ≤ a'.receivedAtNs :=
  List.pairwise_map.mp ((List.pairwise_map.mpr (h.ordered hclock)).sublist h.times.sublist)

theorem Carried.bounded (h : Carried S env config rs ds calls s) (hclock : Monotone env.clock)
    (hjitter : config.jitterMs = 0) : (DatagramScheduler.run calls).Bounded :=
  bounded_run (sameDelay_of_no_jitter hjitter (fun _ ha => h.impairs ha) (h.times_ordered hclock))

theorem Carried.hold_le (h : Carried S env config rs ds calls s) {d : ScheduledDatagram}
    (hd : d ∈ (DatagramScheduler.run calls).enqueued) : d.holdPackets ≤ config.reorderWindow := by
  rw [(records_run calls).enqueued, List.mem_flatMap] at hd
  obtain ⟨a, ha, hda⟩ := hd
  obtain ⟨i, hi⟩ := List.mem_iff_getElem?.mp ha
  obtain ⟨r, -, -, him⟩ := h.arrival hi
  exact holdPackets_le him hda

theorem Carried.in_window (h : Carried S env config rs ds calls s) (hclock : Monotone env.clock)
    (hjitter : config.jitterMs = 0) : (ds.map Prod.snd).Pairwise fun d d' =>
      d'.packetIndex < d.packetIndex → d.packetIndex < d'.packetIndex + (config.reorderWindow : Int) := by
  refine ((h.bounded hclock hjitter).returned.sublist h.returned.sublist).imp_of_mem fun {d d'} hd hd' hin hlt => ?_
  have hhold := h.hold_le ((conserves_run calls).mem_returned (h.returned.subset hd'))
  have := hin hlt
  omega

theorem Carried.in_order (h : Carried S env config rs ds calls s) (hclock : Monotone env.clock)
    (hjitter : config.jitterMs = 0) (hwindow : config.reorderWindow ≤ 1) :
    ds.Pairwise fun x y => x.2.packetIndex ≤ y.2.packetIndex := by
  refine (List.pairwise_map.mp (h.in_window hclock hjitter)).imp fun {x y} hin => ?_
  by_contra hlt
  have := hin (not_le.mp hlt)
  omega

theorem not_overtaken_of_sorted {ps : List Nat} (h : ps.Pairwise (· ≤ ·)) (p : Nat) : ¬Overtaken ps p := by
  rintro ⟨pre, suf, rfl, q, hq, hlt⟩
  have hle := (List.pairwise_append.mp h).2.2 q hq p (List.mem_cons_self ..)
  omega

/-- Without jitter, and with a clock that does not go back, a datagram is given to `sendto` before older ones only
within the reorder window. A window of one or none keeps the packets in the order of arrival, and no packet is noted
as reordered. -/
theorem sent_in_window (hstart : start S env maxPackets config sessionId metadata sink = .ok s₀)
    (h0 : S.recorded sink = []) (hclock : Monotone env.clock) (hjitter : config.jitterMs = 0) (n : Nat) :
    (iterations S env pollIntervalS maxPackets s₀ n).state.handed =
      (sent S env pollIntervalS maxPackets s₀ n).map (fun x => x.2.payload) ∧
    ((sent S env pollIntervalS maxPackets s₀ n).map Prod.snd).Pairwise (fun d d' =>
      d'.packetIndex < d.packetIndex → d.packetIndex < d'.packetIndex + (config.reorderWindow : Int)) ∧
    (config.reorderWindow ≤ 1 →
      (sent S env pollIntervalS maxPackets s₀ n).Pairwise (fun x y => x.2.packetIndex ≤ y.2.packetIndex) ∧
      ∀ s, (iterations S env pollIntervalS maxPackets s₀ n).AtLoop s →
        packetsOf .PACKET_REORDERED (s.events S) = [] ∧ s.eventStream.statistics.packetsReordered = 0) := by
  have htraffic := traffic_iterations pollIntervalS hstart h0 n
  obtain ⟨calls, h⟩ := htraffic.exists_calls
  refine ⟨h.handed, h.in_window hclock hjitter, fun hwindow => ⟨h.in_order hclock hjitter hwindow, fun s hs => ?_⟩⟩
  have hsorted : ((sent S env pollIntervalS maxPackets s₀ n).map fun x => x.2.packetIndex.toNat).Pairwise (· ≤ ·) :=
    List.pairwise_map.mpr ((h.in_order hclock hjitter hwindow).imp fun hle => Int.toNat_le_toNat hle)
  obtain ⟨calls', hcarries⟩ := htraffic.at_loop hs
  have htracked : (iterations S env pollIntervalS maxPackets s₀ n).Tracked S := tracked_iterations (tracks_start hstart h0) n
  have htracks := htracked.at_loop hs
  have hnot : ∀ p, ¬Overtaken (packetsOf .PACKET_FORWARDED (s.events S)) p := by
    intro p
    rw [packetsOf_forwarded_eq, show (s.events S).map LinkEvent.entry = s.log S from rfl, hcarries.forwards, filterMap_reported]
    exact not_overtaken_of_sorted hsorted p
  constructor
  · refine List.eq_nil_iff_forall_not_mem.mpr fun p hp => hnot p ?_
    exact (noted_iff_overtaken htracks.follows.grows htracks.settled).mp hp
  · rw [htracks.follows.counted, statisticsFromEvents_eq]
    show typeCount .PACKET_REORDERED (s.events S) = 0
    have hempty : {p | Overtaken (packetsOf .PACKET_FORWARDED (s.events S)) p} = ∅ := Set.eq_empty_of_forall_notMem hnot
    rw [typeCount_reordered htracks.follows.grows htracks.settled, hempty, Set.ncard_empty]

/-- The second packet is sent before the first, which is within the window of two. -/
theorem sent_in_window_holding : ∃ s₀ s, busyStart LinkEventStream.listSink holdingConfig = .ok s₀ ∧
    busyRun LinkEventStream.listSink s₀ 9 = .left .drained s ∧
    (decodable s.handed).map TelemetryPacket.sequence = [2, 1, 3, 4] ∧
    ((busySent s₀ 9).map Prod.snd).Pairwise fun d d' =>
      d'.packetIndex < d.packetIndex → d.packetIndex < d'.packetIndex + 2 := by
  obtain ⟨s₀, s, hstart, hleft, hseen⟩ := exists_busy LinkEventStream.listSink holdingConfig
    (fun s => (decodable s.handed).map TelemetryPacket.sequence) .drained [2, 1, 3, 4] (by decide +kernel)
  exact ⟨s₀, s, hstart, hleft, hseen, (sent_in_window hstart rfl steady_busy.clock rfl 9).2.1⟩

/-! ### Timing decides nothing -/

theorem decided_untimed (startNs : Int) (rs : List (Int × Bytes)) (os : List PacketOutcome) :
    (decided startNs rs os).map Prod.snd =
      (List.zipWith (fun raw o => (outcomeEntries 0 raw o).map Prod.snd) (rs.map Prod.snd) os).flatten := by
  rw [decided, List.map_flatten, List.map_zipWith, List.zipWith_map_left]
  simp only [outcomeEntries, List.map_map]
  rfl

/-- Two runs of one configuration, with any clocks, polling, stops and sinks: when one has received the beginning of
what the other has, its log decides the beginning of what the other's does, apart from the times. -/
theorem decisions_untimed {τ : Type} {T : EventSink τ} {env' : Environment} {pollIntervalS' : Float64}
    {maxPackets' : Option Int} {sessionId' : String} {metadata' : LinkRunMetadata} {sink' : τ} {t₀ : RunState τ}
    (hstart : start S env maxPackets config sessionId metadata sink = .ok s₀) (h0 : S.recorded sink = [])
    (hstart' : start T env' maxPackets' config sessionId' metadata' sink' = .ok t₀) (h0' : T.recorded sink' = [])
    {n n' : Nat} {s : RunState σ} {t : RunState τ} (hs : (iterations S env pollIntervalS maxPackets s₀ n).AtLoop s)
    (ht : (iterations T env' pollIntervalS' maxPackets' t₀ n').AtLoop t)
    (hreceived : (received S env pollIntervalS maxPackets s₀ n).map Prod.snd <+:
      (received T env' pollIntervalS' maxPackets' t₀ n').map Prod.snd) :
    ((s.log S).filter Entry.isDecision).map Prod.snd <+: ((t.log T).filter Entry.isDecision).map Prod.snd := by
  obtain ⟨calls, h⟩ := (traffic_iterations pollIntervalS hstart h0 n).at_loop hs
  obtain ⟨calls', h'⟩ := (traffic_iterations pollIntervalS' hstart' h0' n').at_loop ht
  have hos := ImpairmentEngine.processAll_prefix hreceived h.processed h'.processed
  have hlen := h.length_eq
  rw [h.decisions, h'.decisions, decided_untimed, decided_untimed]
  obtain ⟨raws, hraws⟩ := hreceived
  obtain ⟨os, hos⟩ := hos
  rw [← hraws, ← hos, List.zipWith_append (by rw [List.length_map]; exact hlen), List.flatten_append]
  exact List.prefix_append ..

theorem decisions_untimed_busy : ∃ s₀ s t₀ t, Relays busyEnvironment s₀ s ∧ Relays suddenEnvironment t₀ t ∧
    ((s.log LinkEventStream.listSink).filter Entry.isDecision).map Prod.snd <+:
      ((t.log LinkEventStream.listSink).filter Entry.isDecision).map Prod.snd ∧
    s.handed.length = 5 ∧ t.handed = [] := by
  obtain ⟨s₀, s, hs, hsent⟩ := relays busyEnvironment (fun s => s.handed.length) 5 (by decide +kernel)
  obtain ⟨t₀, t, ht, hnone⟩ := relays suddenEnvironment RunState.handed [] (by decide +kernel)
  refine ⟨s₀, s, t₀, t, hs, ht, decisions_untimed hs.1 rfl ht.1 rfl hs.2.1 ht.2.1 ?_, hsent, hnone⟩
  rw [hs.2.2, ht.2.2]

end RunState

/-! ### A link without impairments -/

/-- A list in order, with nothing before it left over, begins the sorted list. -/
theorem prefix_of_perm_of_sorted {α : Type} {f : α → Int} {xs ys zs : List α} (hperm : (xs ++ ys).Perm zs)
    (hz : zs.Pairwise fun z z' => f z < f z') (hx : xs.Pairwise fun x x' => f x ≤ f x')
    (hxy : ∀ x ∈ xs, ∀ y ∈ ys, f x ≤ f y) : xs <+: zs := by
  induction xs generalizing zs with
  | nil => exact List.nil_prefix
  | cons x xs ih =>
    obtain ⟨hle, hx⟩ := List.pairwise_cons.mp hx
    cases zs with
    | nil => exact absurd hperm.length_eq (by simp)
    | cons z zs =>
      obtain ⟨hlt, hzs⟩ := List.pairwise_cons.mp hz
      have hmin : ∀ x' ∈ x :: xs ++ ys, f x ≤ f x' := by
        intro x' hx'
        rcases List.mem_cons.mp hx' with rfl | hx'
        · exact le_rfl
        · exact (List.mem_append.mp hx').elim (hle x') (hxy x (List.mem_cons_self ..) x')
      obtain rfl : x = z := by
        rcases List.mem_cons.mp (hperm.mem_iff.mp (List.mem_cons_self ..)) with heq | hmem
        · exact heq
        · have := hlt x hmem
          have := hmin z (hperm.mem_iff.mpr (List.mem_cons_self ..))
          omega
      refine (List.prefix_cons_inj x).mpr (ih (List.perm_cons x |>.mp hperm) hzs hx fun x' hx' => ?_)
      exact hxy x' (List.mem_cons_of_mem _ hx')

theorem flatten_map_singleton {α : Type} (xs : List α) : (xs.map fun x => [x]).flatten = xs := by
  rw [← List.flatMap_def]
  exact List.flatMap_singleton' xs

namespace ImpairmentEngine

/-- Without impairments every payload has one delivery, as it was. -/
theorem processAll_transparent {config : LinkConfig} (h : Transparent config) {payloads : List Bytes} {rng : SplitMix64}
    {index : Int} {os : List PacketOutcome} {e : ImpairmentEngine}
    (hrun : processAll payloads ⟨config, rng, index⟩ = (.ok os, e)) :
    os.map (fun o => o.deliveries.map Delivery.payload) = payloads.map fun payload => [payload] := by
  induction payloads generalizing rng index os e with
  | nil =>
    cases hrun
    rfl
  | cons p ps ih =>
    obtain ⟨hold, e', hp, -⟩ := process_transparent h p rng index
    obtain ⟨os', e'', hps, -⟩ := processAll_spec ps e'
    rw [processAll, Method.bind_ok hp, Method.bind_ok hps] at hrun
    cases hrun
    have he' : e' = ⟨config, rng.advance 6, index + 1⟩ := by
      rw [process_apply, Prod.mk.injEq] at hp
      exact hp.2.symm
    rw [List.map_cons, List.map_cons, ih (he' ▸ hps)]
    rfl

end ImpairmentEngine

namespace RunState
variable {σ : Type} {S : EventSink σ} {env : Environment} {pollIntervalS : Float64} {maxPackets : Option Int}
  {config : LinkConfig} {sessionId : String} {metadata : LinkRunMetadata} {sink : σ} {s₀ s : RunState σ}
  {rs : List (Int × Bytes)} {ds : List (Int × ScheduledDatagram)} {calls : List Call}

theorem map_payload_datagrams (as : List Arrival) : (as.flatMap Arrival.datagrams).map ScheduledDatagram.payload =
    ((as.map Arrival.outcome).map fun o => o.deliveries.map Delivery.payload).flatten := by
  rw [List.map_flatMap, List.map_map, List.flatMap_def]
  congr 1
  refine List.map_congr_left fun a _ => ?_
  rw [Arrival.datagrams, scheduled, List.map_map]
  rfl

/-- Without impairments the datagrams enqueued are what was received. -/
theorem Carried.enqueued_transparent (h : Carried S env config rs ds calls s)
    (hconfig : ImpairmentEngine.Transparent config) :
    (DatagramScheduler.run calls).enqueued.map ScheduledDatagram.payload <+: rs.map Prod.snd ∧
    (DatagramScheduler.run calls).enqueued.Pairwise fun d d' => d.packetIndex < d'.packetIndex := by
  obtain ⟨os, e, hrun, hbegin, -⟩ := h.processed
  have hpayloads := ImpairmentEngine.processAll_transparent hconfig hrun
  have hone : ∀ a ∈ arrivals calls, a.datagrams.length ≤ 1 := by
    intro a ha
    rw [Arrival.datagrams, scheduled, List.length_map]
    exact ImpairmentEngine.length_le_one hrun hconfig.duplicate (hbegin.subset (List.mem_map_of_mem ha))
  rw [(records_run calls).enqueued]
  constructor
  · rw [map_payload_datagrams]
    have hflat := (hbegin.map fun o => o.deliveries.map Delivery.payload).flatten
    rwa [hpayloads, flatten_map_singleton] at hflat
  · refine List.pairwise_flatMap.mpr ⟨fun a ha => ?_, (records_run calls).increasing.imp fun hlt d hd d' hd' => ?_⟩
    · have hlen := hone a ha
      rcases hds : a.datagrams with _ | ⟨d, _ | ⟨d', rest⟩⟩
      · exact .nil
      · exact List.pairwise_singleton _ d
      · rw [hds] at hlen
        exact absurd hlen (by simp)
    · rw [packetIndex_of_mem_datagrams hd, packetIndex_of_mem_datagrams hd']
      exact hlt

/-- What was returned begins what was enqueued. -/
theorem Carried.returned_prefix (h : Carried S env config rs ds calls s) (hclock : Monotone env.clock)
    (hconfig : ImpairmentEngine.Transparent config) (hwindow : config.reorderWindow ≤ 1) :
    (DatagramScheduler.run calls).returned <+: (DatagramScheduler.run calls).enqueued := by
  have hbounded := h.bounded hclock hconfig.jitter
  have hcons := conserves_run calls
  have hle {d d' : ScheduledDatagram} (hd' : d' ∈ (DatagramScheduler.run calls).enqueued) (hin : InBound d d') :
      d.packetIndex ≤ d'.packetIndex := by
    by_contra hlt
    have hhold := h.hold_le hd'
    have := hin (not_le.mp hlt)
    omega
  refine prefix_of_perm_of_sorted hcons (h.enqueued_transparent hconfig).2 ?_ ?_
  · exact hbounded.returned.imp_of_mem fun _ hd' hin => hle (hcons.mem_returned hd') hin
  · exact fun d hd d' hd' => hle (hcons.mem_pending hd') (hbounded.waiting d hd d' hd')

/-- A link without impairments, with a clock that does not go back and no reordering, is a wire: the payloads given to
`sendto` are the beginning of the payloads received, and all of them when nothing is pending, as after every
run that leaves its loop without being stopped. -/
theorem sent_transparent (hstart : start S env maxPackets config sessionId metadata sink = .ok s₀)
    (h0 : S.recorded sink = []) (hclock : Monotone env.clock) (hconfig : ImpairmentEngine.Transparent config)
    (hwindow : config.reorderWindow ≤ 1) (n : Nat) :
    let run := iterations S env pollIntervalS maxPackets s₀ n
    let payloads := (received S env pollIntervalS maxPackets s₀ n).map Prod.snd
    run.state.handed <+: payloads ∧
    (∀ s, run.AtLoop s → s.scheduler.pendingCount = 0 → s.handed = payloads) ∧
    ∀ flow s, run = .left flow s → flow ≠ .stopped → s.scheduler.pendingCount = 0 := by
  intro run payloads
  have htraffic := traffic_iterations pollIntervalS hstart h0 n
  obtain ⟨calls, h⟩ := htraffic.exists_calls
  have hmap : (sent S env pollIntervalS maxPackets s₀ n).map (fun x => x.2.payload) =
      ((sent S env pollIntervalS maxPackets s₀ n).map Prod.snd).map ScheduledDatagram.payload := by
    rw [List.map_map]
    rfl
  refine ⟨?_, fun s hs hempty => ?_, fun flow s hs hne => ?_⟩
  · rw [h.handed, hmap]
    refine (h.returned.trans (h.returned_prefix hclock hconfig hwindow)).map _ |>.trans ?_
    exact (h.enqueued_transparent hconfig).1
  · obtain ⟨calls', h'⟩ := htraffic.at_loop hs
    have hperm := h'.conserves
    rw [List.length_eq_zero_iff.mp hempty, List.append_nil, ← h'.datagrams_eq, ← (records_run calls').enqueued,
      h'.returned] at hperm
    have heq := (h'.carried.returned_prefix hclock hconfig hwindow).eq_of_length hperm.length_eq
    have hall := ImpairmentEngine.processAll_transparent hconfig h'.processed
    rw [h'.handed, hmap, h'.returned, heq, (records_run calls').enqueued, map_payload_datagrams, hall,
      flatten_map_singleton]
  · have hacc : (iterations S env pollIntervalS maxPackets s₀ n).Accounted S env maxPackets :=
      accounted_iterations (accounts_start hstart h0) n
    rw [show iterations S env pollIntervalS maxPackets s₀ n = .left flow s from hs] at hacc
    exact hacc.2 hne

theorem sent_transparent_busy : ∃ s₀ s, busyStart LinkEventStream.listSink .default = .ok s₀ ∧
    busyRun LinkEventStream.listSink s₀ 9 = .left .drained s ∧ s.handed = busyPackets.map encoding ∧
    s.handed = (busyReceived s₀ 9).map Prod.snd := by
  obtain ⟨s₀, s, hstart, hleft, hhanded⟩ := exists_busy LinkEventStream.listSink .default RunState.handed .drained
    (busyPackets.map encoding) (by decide +kernel)
  have hloop : (busyRun LinkEventStream.listSink s₀ 9).AtLoop s := by rw [hleft]; rfl
  obtain ⟨-, hall, hempty⟩ := sent_transparent hstart rfl steady_busy.clock ⟨by decide +kernel, by decide +kernel,
    by decide +kernel, rfl, rfl⟩ (by decide) 9
  exact ⟨s₀, s, hstart, hleft, hhanded, hall s hloop (hempty .drained s hleft (by decide))⟩

end RunState

end OrbitOps.Link
