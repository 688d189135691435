import OrbitOps.Link.Accounting

/-!
# Overtaken packets

The runtime keeps the greatest packet forwarded so far and the packets noted as reordered. In the log of
a run (`Notes`) an event `PACKET_REORDERED` is about a packet that is older than the greatest forwarded
one and not noted before, and the next event forwards that packet; and a packet forwarded after a newer
one was noted. So exactly the overtaken packets are noted, each once, right before its first late delivery.
-/

namespace OrbitOps.Link
open Py

/-- The packets of the events of one type, in order. -/
def packetsOf (t : LinkEventType) (es : List LinkEvent) : List Nat :=
  (es.filter fun e => e.eventType = t).filterMap LinkEvent.packetIndex

/-- Some delivery of a packet follows one of a newer packet. -/
def Overtaken (ps : List Nat) (p : Nat) : Prop := ∃ pre suf, ps = pre ++ p :: suf ∧ ∃ q ∈ pre, p < q

/-- What an event may be after a log. -/
structure Notes (pre : List LinkEvent) (e : LinkEvent) : Prop where
  forwarded : e.eventType = .PACKET_FORWARDED → ∀ p q, e.packetIndex = some p →
    q ∈ packetsOf .PACKET_FORWARDED pre → p < q → p ∈ packetsOf .PACKET_REORDERED pre
  reordered : e.eventType = .PACKET_REORDERED → ∃ p q, e.packetIndex = some p ∧ p < q ∧
    q ∈ packetsOf .PACKET_FORWARDED pre ∧ (∀ x ∈ packetsOf .PACKET_FORWARDED pre, x ≤ q) ∧
    e.attributes.get "overtaken_by_packet_index" = .int q ∧ p ∉ packetsOf .PACKET_REORDERED pre
  next : ∀ r, pre.getLast? = some r → r.eventType = .PACKET_REORDERED →
    e.eventType = .PACKET_FORWARDED ∧ e.packetIndex = r.packetIndex

section
variable {t : LinkEventType} {es pre suf : List LinkEvent} {e : LinkEvent} {p : Nat}

theorem packetsOf_append (t : LinkEventType) (es es' : List LinkEvent) :
    packetsOf t (es ++ es') = packetsOf t es ++ packetsOf t es' := by
  rw [packetsOf, List.filter_append, List.filterMap_append]
  rfl

theorem packetsOf_singleton (h : e.eventType = t) (hp : e.packetIndex = some p) : packetsOf t [e] = [p] := by
  simp [packetsOf, h, hp]

theorem packetsOf_singleton_of_ne (h : e.eventType ≠ t) : packetsOf t [e] = [] := by
  simp [packetsOf, h]

theorem mem_packetsOf : p ∈ packetsOf t es ↔ ∃ e ∈ es, e.eventType = t ∧ e.packetIndex = some p := by
  simp [packetsOf, and_assoc]

theorem Overtaken.append {ps : List Nat} (h : Overtaken ps p) (ps' : List Nat) : Overtaken (ps ++ ps') p := by
  obtain ⟨pre, suf, rfl, hq⟩ := h
  exact ⟨pre, suf ++ ps', by rw [List.append_assoc, List.cons_append], hq⟩

/-- One more delivery overtakes nothing, but may be late itself. -/
theorem overtaken_snoc {ps : List Nat} {x : Nat} (h : Overtaken (ps ++ [x]) p) :
    Overtaken ps p ∨ p = x ∧ ∃ q ∈ ps, p < q := by
  obtain ⟨pre, suf, heq, hq⟩ := h
  rcases List.eq_nil_or_concat suf with rfl | ⟨suf', y, rfl⟩
  · obtain ⟨rfl, hx⟩ := List.append_inj' heq rfl
    cases hx
    exact .inr ⟨rfl, hq⟩
  · rw [List.concat_eq_append, ← List.cons_append, ← List.append_assoc] at heq
    obtain ⟨rfl, -⟩ := List.append_inj' heq rfl
    exact .inl ⟨pre, suf', rfl, hq⟩

theorem grows_snoc (h : Grows Notes [] (es ++ [e])) : Grows Notes [] es ∧ Notes es e :=
  ⟨h.of_append, by simpa using h.next_of_eq_append rfl⟩

theorem noted_of_overtaken (h : Grows Notes [] es) (hp : Overtaken (packetsOf .PACKET_FORWARDED es) p) :
    p ∈ packetsOf .PACKET_REORDERED es := by
  induction es using List.reverseRecOn with
  | nil =>
    obtain ⟨pre, suf, heq, -⟩ := hp
    cases pre <;> cases heq
  | append_singleton es e ih =>
    obtain ⟨hes, he⟩ := grows_snoc h
    rw [packetsOf_append] at hp ⊢
    by_cases ht : e.eventType = .PACKET_FORWARDED
    · cases hidx : e.packetIndex with
      | none =>
        rw [show packetsOf .PACKET_FORWARDED [e] = [] by simp [packetsOf, ht, hidx], List.append_nil] at hp
        exact List.mem_append_left _ (ih hes hp)
      | some x =>
        rw [packetsOf_singleton ht hidx] at hp
        rcases overtaken_snoc hp with hp | ⟨rfl, q, hq, hlt⟩
        · exact List.mem_append_left _ (ih hes hp)
        · exact List.mem_append_left _ (he.forwarded ht p q hidx hq hlt)
    · rw [packetsOf_singleton_of_ne ht, List.append_nil] at hp
      exact List.mem_append_left _ (ih hes hp)

theorem nodup_noted (h : Grows Notes [] es) : (packetsOf .PACKET_REORDERED es).Nodup := by
  induction es using List.reverseRecOn with
  | nil => exact .nil
  | append_singleton es e ih =>
    obtain ⟨hes, he⟩ := grows_snoc h
    rw [packetsOf_append]
    by_cases ht : e.eventType = .PACKET_REORDERED
    · obtain ⟨p, q, hidx, -, -, -, -, hnew⟩ := he.reordered ht
      rw [packetsOf_singleton ht hidx]
      refine List.nodup_append.mpr ⟨ih hes, List.nodup_singleton p, ?_⟩
      rintro x hx y hy rfl
      rw [List.mem_singleton.mp hy] at hx
      exact hnew hx
    · rw [packetsOf_singleton_of_ne ht, List.append_nil]
      exact ih hes

/-- The log does not end with a packet that is still to be forwarded. -/
def Settled (es : List LinkEvent) : Prop := ∀ r, es.getLast? = some r → r.eventType ≠ .PACKET_REORDERED

/-- In a settled log the noted packets are the overtaken ones. -/
theorem noted_iff_overtaken (h : Grows Notes [] es) (hs : Settled es) :
    p ∈ packetsOf .PACKET_REORDERED es ↔ Overtaken (packetsOf .PACKET_FORWARDED es) p := by
  refine ⟨fun hp => ?_, noted_of_overtaken h⟩
  obtain ⟨e, he, ht, hidx⟩ := mem_packetsOf.mp hp
  obtain ⟨pre, suf, rfl⟩ := List.append_of_mem he
  have hnote : Notes pre e := by simpa using h.next_of_eq_append rfl
  obtain ⟨p', q, hidx', hlt, hq, -⟩ := hnote.reordered ht
  rw [hidx] at hidx'
  cases hidx'
  cases suf with
  | nil => exact absurd ht (hs e (by simp))
  | cons f rest =>
    have hsplit : pre ++ e :: f :: rest = (pre ++ [e]) ++ f :: rest := by simp
    have hnext : Notes (pre ++ [e]) f := by simpa using h.next_of_eq_append hsplit
    obtain ⟨hf, hfidx⟩ := hnext.next e (by simp) ht
    rw [hidx] at hfidx
    have hne : e.eventType ≠ .PACKET_FORWARDED := by simp [ht]
    refine ⟨packetsOf .PACKET_FORWARDED pre, packetsOf .PACKET_FORWARDED rest, ?_, q, hq, hlt⟩
    rw [← List.singleton_append, packetsOf_append, packetsOf_append, packetsOf_singleton_of_ne hne, List.nil_append,
      ← List.singleton_append, packetsOf_append, packetsOf_singleton hf hfidx, List.singleton_append]

/-- Every noted packet has an index, so their number is that of the events. -/
theorem length_noted (h : Grows Notes [] es) :
    (packetsOf .PACKET_REORDERED es).length = typeCount .PACKET_REORDERED es := by
  induction es using List.reverseRecOn with
  | nil => rfl
  | append_singleton es e ih =>
    obtain ⟨hes, he⟩ := grows_snoc h
    rw [packetsOf_append, List.length_append, ih hes, typeCount, typeCount, List.countP_append, List.countP_singleton]
    by_cases ht : e.eventType = .PACKET_REORDERED
    · obtain ⟨p, q, hidx, -⟩ := he.reordered ht
      simp [packetsOf_singleton ht hidx, ht]
    · simp [packetsOf_singleton_of_ne ht, ht]

theorem typeCount_reordered (h : Grows Notes [] es) (hs : Settled es) :
    typeCount .PACKET_REORDERED es = {p | Overtaken (packetsOf .PACKET_FORWARDED es) p}.ncard := by
  have hset : {p | Overtaken (packetsOf .PACKET_FORWARDED es) p} = ↑(packetsOf .PACKET_REORDERED es).toFinset := by
    ext p
    rw [Set.mem_ofPred_eq, ← noted_iff_overtaken h hs, Finset.mem_coe, List.mem_toFinset]
  rw [hset, Set.ncard_coe_finset, List.toFinset_card_of_nodup (nodup_noted h), length_noted h]

end

/-! ### The state of a run -/

namespace RunState
variable {σ : Type} {S : EventSink σ} {env : Environment} {maxPackets : Option Int} {pollIntervalS : Float64}

/-- The log ends with a note, and the sink has raised the exception on the forwarding that the note announces. -/
def InterruptedBy (S : EventSink σ) (error : PyError) (s : RunState σ) : Prop :=
  ∃ r f sink, (s.events S).getLast? = some r ∧ r.eventType = .PACKET_REORDERED ∧ f.eventType = .PACKET_FORWARDED ∧
    f.packetIndex = r.packetIndex ∧ S.call f sink = (.error error, s.eventStream.sink)

/-- The log of a run that has raised, and its statistics. -/
structure Noted (S : EventSink σ) (error : PyError) (s : RunState σ) : Prop where
  grows : Grows Notes [] (s.events S)
  settled : Settled (s.events S) ∨ InterruptedBy S error s
  counted : s.eventStream.statistics = statisticsFromEvents (s.events S)

/-- The greatest packet and the noted ones are those of the log. -/
structure Follows (S : EventSink σ) (s : RunState σ) : Prop where
  grows : Grows Notes [] (s.events S)
  greatest : ∀ p ∈ packetsOf .PACKET_FORWARDED (s.events S), (p : Int) ≤ s.highestForwardedPacketIndex
  attained : s.highestForwardedPacketIndex = -1 ∨
    ∃ p ∈ packetsOf .PACKET_FORWARDED (s.events S), (p : Int) = s.highestForwardedPacketIndex
  noted : ∀ p : Nat, (p : Int) ∈ s.reorderedPackets ↔ p ∈ packetsOf .PACKET_REORDERED (s.events S)
  counted : s.eventStream.statistics = statisticsFromEvents (s.events S)

/-- What holds between two deliveries. -/
structure Tracks (S : EventSink σ) (s : RunState σ) : Prop where
  follows : Follows S s
  settled : Settled (s.events S)

theorem Tracks.toNoted {s : RunState σ} (h : Tracks S s) (error : PyError) : Noted S error s :=
  ⟨h.follows.grows, .inl h.settled, h.follows.counted⟩

theorem Tracks.congr {s s' : RunState σ} (h : Tracks S s) (hstream : s'.eventStream = s.eventStream)
    (hhighest : s'.highestForwardedPacketIndex = s.highestForwardedPacketIndex)
    (hnoted : s'.reorderedPackets = s.reorderedPackets) : Tracks S s' := by
  have hev : s'.events S = s.events S := by rw [events, events, hstream]
  obtain ⟨⟨hgrows, hgreatest, hattained, hmem, hcounted⟩, hsettled⟩ := h
  refine ⟨⟨?_, ?_, ?_, ?_, ?_⟩, ?_⟩
  · rw [hev]; exact hgrows
  · rw [hev, hhighest]; exact hgreatest
  · rw [hev, hhighest]; exact hattained
  · rw [hev, hnoted]; exact hmem
  · rw [hev, hstream]; exact hcounted
  · rw [hev]; exact hsettled

/-- A further event about the packet is built, and then only the sink can raise. -/
def Continues (S : EventSink σ) (now index : Int) (t : LinkEventStream σ) : Prop :=
  ∀ y : Emission, y.Valid → ∃ f, f.eventType = y.1 ∧ (∃ n : Nat, f.packetIndex = some n ∧ (n : Int) = index) ∧
    ∀ err t', LinkEventStream.emit S y.1 (.int now) (.int index) (scalarObj y.2) t = (.error err, t') →
      S.call f t.sink = (.error err, t'.sink)

/-- One event more is recorded, about the packet. -/
structure Appends (S : EventSink σ) (now index : Int) (x : Emission) (s s' : RunState σ) (e : LinkEvent) : Prop where
  state : s' = { s with eventStream := s'.eventStream }
  events : s'.events S = s.events S ++ [e]
  eventType : e.eventType = x.1
  packetIndex : ∃ n : Nat, e.packetIndex = some n ∧ (n : Int) = index
  attributes : ∀ ha : ∀ kv ∈ x.2, ValidItem kv, e.attributes = .ofItems x.2 ha
  statistics : s'.eventStream.statistics = s.eventStream.statistics.count x.1
  continues : Continues S now index s'.eventStream

/-- Nothing is recorded. -/
structure Refuses (S : EventSink σ) (now index : Int) (x : Emission) (error : PyError) (s s' : RunState σ) : Prop where
  events : s'.events S = s.events S
  statistics : s'.eventStream.statistics = s.eventStream.statistics
  refused : LinkEventStream.emit S x.1 (.int now) (.int index) (scalarObj x.2) s.eventStream = (.error error, s'.eventStream)

theorem wp_emit_appends {now index : Int} {x : Emission} (s : RunState σ) :
    Method.wp (emit S x.1 now index x.2) (fun _ s' => ∃ e, Appends S now index x s s' e)
      (fun err s' => Refuses S now index x err s s') s := by
  have hcases := LinkEventStream.emit_cases (S := S) x.1 (.int now) (.int index) (scalarObj x.2) s.eventStream
  rcases hcases with ⟨err, t, he, hun, hr⟩ | ⟨e, t, now', hnow, he, hopen, hidx, hmeta, hsum, hem⟩
  · exact Method.wp_of_error (Method.bind_error (Method.zoom_eq he)) ⟨hr, hun.statistics, he⟩
  · obtain rfl : now = now' := Json.int.inj hnow
    obtain ⟨hsession, -, helapsed, ht, hpi, -, hattr⟩ := LinkEvent.fields_of_new hem.built
    have hindex : ∃ n : Nat, e.packetIndex = some n ∧ (n : Int) = index := by
      cases hi : e.packetIndex with
      | none => rw [hi] at hpi; cases hpi
      | some n => rw [hi] at hpi; exact ⟨n, rfl, (Json.int.inj hpi).symm⟩
    refine Method.wp_of_ok (Method.bind_ok (Method.zoom_eq he)) ⟨e, rfl, hem.recorded, ht, hindex, fun ha => ?_, ?_, ?_⟩
    · have hval : validateAttributes (scalarObj x.2) = .ok e.attributes :=
        LinkEvent.validateAttributes_of_eventAttributes hmeta hattr
      rw [validateAttributes_scalarObj ha] at hval
      exact (Except.ok.inj hval).symm
    · show t.statistics = _
      rw [hem.state]
    · intro y hy
      have hnonneg : 0 ≤ now - s.eventStream.startNs := by
        rw [Json.int.inj helapsed]
        exact Int.natCast_nonneg _
      obtain ⟨n, -, hn⟩ := hindex
      have hlast : t.lastElapsedNs ≤ now - t.startNs := by rw [hem.state]
      have hindex_nonneg : 0 ≤ index := by omega
      obtain ⟨f, hbuilt, hrefused⟩ := LinkEventStream.emit_built (S := S) (by rw [hem.state, ← hsession]; exact e.session_visible) (by rw [hem.state]; exact hopen)
        (by rw [hem.state]; exact Nat.succ_ne_zero _) hy.not_metadata hy.not_summary (by rw [hem.state]; exact hnonneg)
        hlast hindex_nonneg hy.attributes
      obtain ⟨-, -, -, hf, hfi, -, -⟩ := LinkEvent.fields_of_new hbuilt
      refine ⟨f, hf, ?_, hrefused⟩
      cases hi : f.packetIndex with
      | none => rw [hi] at hfi; cases hfi
      | some m => rw [hi] at hfi; exact ⟨m, rfl, (Json.int.inj hfi).symm⟩

theorem Appends.counted {now index : Int} {x : Emission} {s s' : RunState σ} {e : LinkEvent}
    (h : Appends S now index x s s' e)
    (hc : s.eventStream.statistics = statisticsFromEvents (s.events S)) :
    s'.eventStream.statistics = statisticsFromEvents (s'.events S) := by
  rw [h.statistics, h.events, statisticsFromEvents_snoc, h.eventType, hc]

theorem Refuses.noted {now index : Int} {x : Emission} {error : PyError} {s₀ s s' : RunState σ}
    (h : Refuses S now index x error s s') (hs : Tracks S s₀) (hstream : s.eventStream = s₀.eventStream) :
    Noted S error s' := by
  have hev : s'.events S = s₀.events S := h.events.trans (congrArg (fun t : LinkEventStream σ => S.recorded t.sink) hstream)
  refine ⟨?_, .inl ?_, ?_⟩
  · rw [hev]; exact hs.follows.grows
  · rw [hev]; exact hs.settled
  · rw [hev, h.statistics, hstream]; exact hs.follows.counted

theorem Tracks.other {now index : Int} {x : Emission} {s s' : RunState σ} {e : LinkEvent} (h : Tracks S s)
    (ha : Appends S now index x s s' e) (hr : x.1 ≠ .PACKET_REORDERED) (hf : x.1 ≠ .PACKET_FORWARDED) :
    Tracks S s' := by
  have hre : e.eventType ≠ .PACKET_REORDERED := by rw [ha.eventType]; exact hr
  have hfe : e.eventType ≠ .PACKET_FORWARDED := by rw [ha.eventType]; exact hf
  have hnote : Notes (s.events S) e :=
    ⟨fun ht => absurd ht hfe, fun ht => absurd ht hre, fun r hlast ht => absurd ht (h.settled r hlast)⟩
  have hhighest : s'.highestForwardedPacketIndex = s.highestForwardedPacketIndex := by rw [ha.state]
  have hnoted : s'.reorderedPackets = s.reorderedPackets := by rw [ha.state]
  refine ⟨⟨?_, ?_, ?_, ?_, ha.counted h.follows.counted⟩, ?_⟩
  · rw [ha.events]; exact h.follows.grows.snoc hnote
  · rw [ha.events, packetsOf_append, packetsOf_singleton_of_ne hfe, List.append_nil, hhighest]
    exact h.follows.greatest
  · rw [ha.events, packetsOf_append, packetsOf_singleton_of_ne hfe, List.append_nil, hhighest]
    exact h.follows.attained
  · rw [ha.events, packetsOf_append, packetsOf_singleton_of_ne hre, List.append_nil, hnoted]
    exact h.follows.noted
  · rw [ha.events]
    intro r hlast
    rw [List.getLast?_concat, Option.some.injEq] at hlast
    rw [← hlast]
    exact hre

/-- Before a copy is forwarded: if it is late it is noted, and a note just made is about it. -/
structure Cleared (S : EventSink σ) (now : Int) (d : ScheduledDatagram) (s : RunState σ) : Prop where
  follows : Follows S s
  late : d.packetIndex < s.highestForwardedPacketIndex → d.packetIndex ∈ s.reorderedPackets
  last : Settled (s.events S) ∨
    (∃ r, (s.events S).getLast? = some r ∧ r.eventType = .PACKET_REORDERED ∧
      ∃ n : Nat, r.packetIndex = some n ∧ (n : Int) = d.packetIndex) ∧
    Continues S now d.packetIndex s.eventStream

theorem get_overtaken {q r : Int} (hv : ∀ kv ∈ [("overtaken_by_packet_index", Scalar.int q),
    ("release_after_packet", .int r)], ValidItem kv) :
    (Attributes.ofItems _ hv).get "overtaken_by_packet_index" = .int q := by
  have hitems : (Attributes.ofItems _ hv).dict.items =
      [("overtaken_by_packet_index", Scalar.int q), ("release_after_packet", .int r)] :=
    Attributes.items_ofItems_of_keys ["overtaken_by_packet_index", "release_after_packet"] rfl (by decide)
  rw [Attributes.get, Dict.get?, hitems]
  rfl

/-- An overtaken packet is noted when it was not before. -/
theorem wp_emitReordered_clears {now : Int} {d : ScheduledDatagram} {s : RunState σ} (h : Tracks S s) :
    Method.wp (emitReordered S d now) (fun _ s' => Cleared S now d s') (fun e s' => Noted S e s') s := by
  refine Method.wp_bind (Method.wp_of_ok (Method.get_apply s) ?_)
  split_ifs with hover
  · obtain ⟨hlt, hnew⟩ := hover
    refine Method.wp_bind (Method.wp_of_ok (Method.modify_apply _ s) ?_)
    refine Method.wp_mono (wp_emit_appends (x := (.PACKET_REORDERED,
      [("overtaken_by_packet_index", .int s.highestForwardedPacketIndex),
        ("release_after_packet", .int d.releaseAfterPacket)]))
      { s with reorderedPackets := d.packetIndex :: s.reorderedPackets }) ?_ ?_
    · rintro _ s' ⟨e, ha⟩
      obtain ⟨p, hp, hpd⟩ := ha.packetIndex
      have ht : e.eventType = .PACKET_REORDERED := ha.eventType
      have hev : s'.events S = s.events S ++ [e] := ha.events
      have hhighest : s'.highestForwardedPacketIndex = s.highestForwardedPacketIndex := by rw [ha.state]
      have hnoted : s'.reorderedPackets = d.packetIndex :: s.reorderedPackets := by rw [ha.state]
      have hnf : e.eventType ≠ .PACKET_FORWARDED := by simp [ht]
      have hnote : Notes (s.events S) e := by
        refine ⟨fun hf => absurd hf hnf, fun _ => ?_, fun r hlast hr => absurd hr (h.settled r hlast)⟩
        rcases h.follows.attained with hnone | ⟨q, hq, hqh⟩
        · omega
        · refine ⟨p, q, hp, by omega, hq, fun x hx => ?_, ?_, fun hmem => ?_⟩
          · have := h.follows.greatest x hx
            omega
          · rw [ha.attributes (by simp [ValidItem]), hqh]
            exact get_overtaken _
          · rw [← h.follows.noted, hpd] at hmem
            exact hnew hmem
      refine ⟨⟨?_, ?_, ?_, ?_, ha.counted h.follows.counted⟩, ?_, .inr ⟨⟨e, ?_, ht, p, hp, hpd⟩, ha.continues⟩⟩
      · rw [hev]; exact h.follows.grows.snoc hnote
      · rw [hev, packetsOf_append, packetsOf_singleton_of_ne hnf, List.append_nil, hhighest]
        exact h.follows.greatest
      · rw [hev, packetsOf_append, packetsOf_singleton_of_ne hnf, List.append_nil, hhighest]
        exact h.follows.attained
      · intro x
        rw [hev, packetsOf_append, packetsOf_singleton ht hp, hnoted, List.mem_cons, List.mem_append,
          List.mem_singleton, ← h.follows.noted, ← hpd, Int.natCast_inj]
        exact or_comm
      · intro _
        rw [hnoted]
        exact List.mem_cons_self ..
      · rw [hev, List.getLast?_concat]
    · rintro _ s' hr
      exact hr.noted h rfl
  · refine Method.wp_of_ok (Method.pure_apply () s) ⟨h.follows, fun hlt => ?_, .inl h.settled⟩
    by_contra hnew
    exact hover ⟨hlt, hnew⟩

theorem Cleared.forward {now : Int} {d : ScheduledDatagram} {s s' : RunState σ} {e : LinkEvent} (h : Cleared S now d s)
    (ha : Appends S now d.packetIndex (.PACKET_FORWARDED, forwardAttributes d)
      { s with highestForwardedPacketIndex := max s.highestForwardedPacketIndex d.packetIndex } s' e) :
    Tracks S s' := by
  obtain ⟨p, hp, hpd⟩ := ha.packetIndex
  have ht : e.eventType = .PACKET_FORWARDED := ha.eventType
  have hev : s'.events S = s.events S ++ [e] := ha.events
  have hhighest : s'.highestForwardedPacketIndex = max s.highestForwardedPacketIndex d.packetIndex := by rw [ha.state]
  have hnoted : s'.reorderedPackets = s.reorderedPackets := by rw [ha.state]
  have hnr : e.eventType ≠ .PACKET_REORDERED := by simp [ht]
  have hnote : Notes (s.events S) e := by
    refine ⟨fun _ p' q hp' hq hlt => ?_, fun hr => absurd hr hnr, fun r hlast hr => ⟨ht, ?_⟩⟩
    · rw [hp] at hp'
      cases hp'
      have := h.follows.greatest q hq
      rw [← h.follows.noted, hpd]
      exact h.late (by omega)
    · rcases h.last with hs | ⟨⟨r', hlast', -, n, hn, hnd⟩, -⟩
      · exact absurd hr (hs r hlast)
      · obtain rfl := Option.some.inj (hlast.symm.trans hlast')
        rw [hp, hn, Int.natCast_inj.mp (hpd.trans hnd.symm)]
  refine ⟨⟨?_, ?_, ?_, ?_, ha.counted h.follows.counted⟩, ?_⟩
  · rw [hev]; exact h.follows.grows.snoc hnote
  · rw [hev, packetsOf_append, packetsOf_singleton ht hp, hhighest]
    intro x hx
    rcases List.mem_append.mp hx with hx | hx
    · exact (h.follows.greatest x hx).trans (le_max_left ..)
    · rw [List.mem_singleton.mp hx, hpd]
      exact le_max_right ..
  · rw [hev, packetsOf_append, packetsOf_singleton ht hp, hhighest]
    refine .inr ?_
    rcases h.follows.attained with hnone | ⟨q, hq, hqh⟩
    · exact ⟨p, List.mem_append_right _ (List.mem_singleton.mpr rfl), by omega⟩
    · rcases le_total s.highestForwardedPacketIndex d.packetIndex with hle | hle
      · exact ⟨p, List.mem_append_right _ (List.mem_singleton.mpr rfl), by omega⟩
      · exact ⟨q, List.mem_append_left _ hq, by omega⟩
  · rw [hev, packetsOf_append, packetsOf_singleton_of_ne hnr, List.append_nil, hnoted]
    exact h.follows.noted
  · rw [hev]
    intro r hlast
    rw [List.getLast?_concat, Option.some.injEq] at hlast
    rw [← hlast]
    exact hnr

theorem wp_emitForwarded_tracks {now : Int} {d : ScheduledDatagram} {s : RunState σ} (h : Tracks S s) :
    Method.wp (emitForwarded S d now) (fun _ s' => Tracks S s') (fun e s' => Noted S e s') s := by
  refine Method.wp_bind (Method.wp_mono (wp_emitReordered_clears h) ?_ fun _ _ he => he)
  rintro _ s1 hclear
  refine Method.wp_bind (Method.wp_of_ok (Method.modify_apply _ s1) ?_)
  refine Method.wp_mono (wp_emit_appends (x := (.PACKET_FORWARDED, forwardAttributes d)) _) ?_ ?_
  · rintro _ s' ⟨e, ha⟩
    exact hclear.forward ha
  · rintro err s' hr
    have hev : s'.events S = s1.events S := hr.events
    refine ⟨?_, ?_, ?_⟩
    · rw [hev]; exact hclear.follows.grows
    · rcases hclear.last with hs | ⟨⟨r, hlast, ht, n, hn, hnd⟩, hcontinues⟩
      · rw [hev]; exact .inl hs
      · -- after a note, only the sink can raise
        obtain ⟨f, hf, ⟨m, hm, hmd⟩, hcall⟩ := hcontinues _ (valid_forwarded d)
        refine .inr ⟨r, f, s1.eventStream.sink, by rw [hev]; exact hlast, ht, hf, ?_, hcall err _ hr.refused⟩
        rw [hm, hn, Int.natCast_inj.mp (hmd.trans hnd.symm)]
    · rw [hev, hr.statistics]; exact hclear.follows.counted

/-- A datagram that was not sent leaves the log as it is. -/
theorem wp_sendItem_tracks {now : Int} {d : ScheduledDatagram} {s : RunState σ} (h : Tracks S s) :
    Method.wp (sendItem S env now d) (fun _ s' => Tracks S s') (fun e s' => Noted S e s') s := by
  have hsent : Tracks S { s with handed := s.handed ++ [d.payload] } := h.congr rfl rfl rfl
  rcases hsend : env.sendto s.handed.length d.payload with e | n
  · have hm : sendto env d.payload s = (.error e, { s with handed := s.handed ++ [d.payload] }) := by rw [sendto, hsend]
    exact Method.wp_of_error (Method.bind_error hm) (hsent.toNoted _)
  · have hm : sendto env d.payload s = (.ok n, { s with handed := s.handed ++ [d.payload] }) := by rw [sendto, hsend]
    refine Method.wp_bind (Method.wp_of_ok hm ?_)
    split_ifs with hlen
    · exact Method.wp_of_error rfl (hsent.toNoted _)
    · exact wp_emitForwarded_tracks hsent

/-- Whatever the scheduler gives out is sent with the log tracked. -/
theorem wp_sendReady_tracks {now : Int} {s : RunState σ} (h : Tracks S s) :
    Method.wp (sendReady S env now) (fun _ s' => Tracks S s') (fun e s' => Noted S e s') s := by
  rcases hpop : DatagramScheduler.popReady (.int now) s.scheduler with ⟨e | items, sched⟩
  · have h1 : Tracks S { s with scheduler := sched } := h.congr rfl rfl rfl
    exact Method.wp_of_error (Method.bind_error (Method.zoom_eq hpop)) (h1.toNoted _)
  · refine Method.wp_bind (Method.wp_of_ok (Method.zoom_eq hpop) ?_)
    exact Method.wp_forEach (I := fun _ s' => Tracks S s') (fun d _ s1 h1 => wp_sendItem_tracks h1)
      (h.congr rfl rfl rfl)

/-! ### Receiving and draining -/

theorem wp_emits_tracks {now index : Int} {l : List Emission} {s : RunState σ} (h : Tracks S s)
    (hl : ∀ x ∈ l, x.1 ≠ .PACKET_REORDERED ∧ x.1 ≠ .PACKET_FORWARDED) :
    Method.wp (Method.forEach (fun x => emit S x.1 now index x.2) l) (fun _ s' => Tracks S s')
      (fun e s' => Noted S e s') s := by
  refine Method.wp_mono (Method.wp_forEach (I := fun rest s' => rest ⊆ l ∧ Tracks S s')
    (E := fun e s' => Noted S e s') ?_ ⟨List.Subset.refl l, h⟩) (fun _ _ h' => h'.2) fun _ _ he => he
  rintro x rest s1 ⟨hsub, h1⟩
  obtain ⟨hx, hrest⟩ := List.cons_subset.mp hsub
  refine Method.wp_mono (wp_emit_appends s1) ?_ fun _ _ hr => hr.noted h1 rfl
  rintro _ s2 ⟨e, ha⟩
  exact ⟨hrest, h1.other ha (hl x hx).1 (hl x hx).2⟩

theorem outcomeEmissions_ne_reordered (raw : Bytes) (o : PacketOutcome) :
    ∀ x ∈ outcomeEmissions raw o, x.1 ≠ .PACKET_REORDERED := by
  intro x hx
  rw [outcomeEmissions] at hx
  rcases List.mem_cons.mp hx with rfl | hx
  · simp
  · by_cases hdrop : o.dropped = true
    · rw [if_pos hdrop] at hx
      rw [List.mem_singleton.mp hx]
      simp
    · rw [if_neg hdrop] at hx
      simp only [List.mem_append, List.mem_map] at hx
      rcases hx with ((⟨n, -, rfl⟩ | ⟨bit, -, rfl⟩) | ⟨d, -, rfl⟩) | ⟨d, -, rfl⟩ <;> simp

theorem wp_accept_tracks {raw : Bytes} {s : RunState σ} (h : Tracks S s) :
    Method.wp (accept S env maxPackets raw) (fun _ s' => Tracks S s') (fun e s' => Noted S e s') s := by
  have hclock : readClock env s = (.ok (env.clock s.clockCalls), { s with clockCalls := s.clockCalls + 1 }) := rfl
  refine Method.wp_bind (Method.wp_of_ok hclock ?_)
  obtain ⟨o, engine, hproc, him, -, -⟩ := ImpairmentEngine.process_spec raw s.engine
  refine Method.wp_bind (Method.wp_of_ok (Method.zoom_eq hproc) ?_)
  rw [emitOutcome_eq him.deliveries_ne_nil]
  refine Method.wp_bind (Method.wp_mono (wp_emits_tracks (h.congr rfl rfl rfl) fun x hx =>
    ⟨outcomeEmissions_ne_reordered raw o x hx, (valid_outcomeEmissions raw o x hx).2⟩) ?_ fun _ _ he => he)
  rintro _ s1 h1
  rcases henq : DatagramScheduler.enqueue o (.int (env.clock s.clockCalls)) s1.scheduler with ⟨e | u, sched⟩
  · have h2 : Tracks S { s1 with scheduler := sched } := h1.congr rfl rfl rfl
    exact Method.wp_of_error (Method.bind_error (Method.zoom_eq henq)) (h2.toNoted _)
  · refine Method.wp_bind (Method.wp_of_ok (Method.zoom_eq henq) ?_)
    refine Method.wp_bind (Method.wp_of_ok (Method.modify_apply _ _) ?_)
    refine Method.wp_bind (Method.wp_of_ok (Method.get_apply _) ?_)
    split_ifs with hmax
    · exact Method.wp_of_ok (Method.bind_ok (Method.zoom_eq (Method.modify_apply _ _))) (h1.congr rfl rfl rfl)
    · exact Method.wp_of_ok (Method.pure_apply () _) (h1.congr rfl rfl rfl)

theorem wp_receive_tracks {now : Int} {k : Nat} {s : RunState σ} (h : Tracks S s) :
    Method.wp (receive S env pollIntervalS maxPackets now k) (fun _ s' => Tracks S s') (fun e s' => Noted S e s') s := by
  refine Method.wp_bind (Method.wp_of_ok (Method.get_apply s) ?_)
  rcases ht : receiveTimeout pollIntervalS s.scheduler now with e | timeout
  · exact Method.wp_of_error (Method.bind_error (Method.lift_apply _ s)) (h.toNoted _)
  · refine Method.wp_bind (Method.wp_of_ok (Method.lift_apply _ s) ?_)
    cases env.recv k with
    | timeout => exact Method.wp_of_ok (Method.pure_apply _ s) h
    | failed e => exact Method.wp_of_error (Method.raise_apply e s) (h.toNoted _)
    | datagram raw =>
      refine Method.wp_bind (Method.wp_mono (wp_accept_tracks h) ?_ fun _ _ he => he)
      rintro _ s' h'
      exact Method.wp_of_ok (Method.pure_apply _ s') h'

theorem wp_drain_tracks {s : RunState σ} (h : Tracks S s) :
    Method.wp (drain env pollIntervalS) (fun _ s' => Tracks S s') (fun e s' => Noted S e s') s := by
  refine Method.wp_bind (Method.wp_of_ok (Method.get_apply s) ?_)
  split_ifs with hcount
  · exact Method.wp_of_ok (Method.pure_apply _ s) h
  · cases s.scheduler.nextDeadlineNs with
    | none => exact Method.wp_of_ok (Method.pure_apply _ s) h
    | some deadline =>
      have hclock : readClock env s = (.ok (env.clock s.clockCalls), { s with clockCalls := s.clockCalls + 1 }) := rfl
      have h1 : Tracks S { s with clockCalls := s.clockCalls + 1 } := h.congr rfl rfl rfl
      refine Method.wp_bind (Method.wp_of_ok hclock ?_)
      rcases hwait : clampWait pollIntervalS (deadline - env.clock s.clockCalls) with e | w
      · exact Method.wp_of_error (Method.bind_error (Method.lift_apply _ _)) (h1.toNoted _)
      · exact Method.wp_bind (Method.wp_of_ok (Method.lift_apply _ _) (Method.wp_of_ok (Method.pure_apply _ _) h1))

/-- An iteration keeps the log tracked, or raises with a log that is noted. -/
theorem wp_iteration_tracks {k : Nat} {s : RunState σ} (h : Tracks S s) :
    Method.wp (iteration S env pollIntervalS maxPackets k) (fun _ s' => Tracks S s') (fun e s' => Noted S e s') s := by
  unfold iteration
  by_cases hstop : env.stop k = true
  · rw [if_pos hstop]
    exact Method.wp_of_ok (Method.pure_apply _ s) h
  · rw [if_neg hstop]
    have hclock : readClock env s = (.ok (env.clock s.clockCalls), { s with clockCalls := s.clockCalls + 1 }) := rfl
    have h1 : Tracks S { s with clockCalls := s.clockCalls + 1 } := h.congr rfl rfl rfl
    refine Method.wp_bind (Method.wp_of_ok hclock (Method.wp_bind (Method.wp_mono (wp_sendReady_tracks h1) ?_
      fun _ _ he => he)))
    rintro _ s2 h2
    refine Method.wp_bind (Method.wp_of_ok (Method.get_apply s2) ?_)
    by_cases hdraining : s2.draining = true
    · rw [if_pos hdraining]
      exact wp_drain_tracks h2
    · rw [if_neg hdraining]
      exact wp_receive_tracks h2

/-! ### Runs -/

/-- Where a run is, its log is tracked; a run that raised has a log that is noted. -/
def Progress.Tracked (S : EventSink σ) : Progress σ → Prop
  | .running s | .left _ s => Tracks S s
  | .raised e s => Noted S e s

theorem tracked_iterations {s₀ : RunState σ} (h : Tracks S s₀) (n : Nat) :
    (iterations S env pollIntervalS maxPackets s₀ n).Tracked S := by
  induction n with
  | zero => exact h
  | succ n ih =>
    cases hn : iterations S env pollIntervalS maxPackets s₀ n with
    | running s =>
      rw [hn] at ih
      have hwp : Method.wp (iteration S env pollIntervalS maxPackets n) _ _ s := wp_iteration_tracks ih
      rcases hi : iteration S env pollIntervalS maxPackets n s with ⟨e | flow, s'⟩
      · simp only [iterations, hn, hi]
        exact hwp.of_error hi
      · have hstep := hwp.of_ok hi
        cases flow <;> simp only [iterations, hn, hi] <;> exact hstep
    | left flow s => rw [hn] at ih; simp only [iterations, hn]; exact ih
    | raised e s => rw [hn] at ih; simp only [iterations, hn]; exact ih

theorem tracks_start {config : LinkConfig} {sessionId : String} {metadata : LinkRunMetadata} {sink : σ}
    {s₀ : RunState σ} (hstart : start S env maxPackets config sessionId metadata sink = .ok s₀)
    (h0 : S.recorded sink = []) : Tracks S s₀ := by
  have hstats := (accounts_start hstart h0).writes.statistics
  unfold start at hstart
  split_ifs at hstart
  obtain ⟨stream, hnew, hstart⟩ := except_bind_eq_ok.mp hstart
  have hsink : stream.sink = sink := by
    unfold LinkEventStream.new at hnew
    simp only at hnew
    split_ifs at hnew
    cases hnew
    rfl
  rcases LinkEventStream.emitRunMetadata_cases (S := S) metadata (.int (env.clock 0)) stream with
    ⟨e, s', he, -, -⟩ | ⟨e, s', now, -, hok, -, -, hem⟩
  · rw [he] at hstart; cases hstart
  · rw [hok] at hstart
    cases hstart
    have ht : e.eventType = .RUN_METADATA := (LinkEvent.fields_of_new hem.built).2.2.2.1
    have hev : S.recorded s'.sink = [e] := by rw [hem.recorded, hsink, h0, List.nil_append]
    have hnone {t : LinkEventType} (hne : t ≠ .RUN_METADATA) : packetsOf t (S.recorded s'.sink) = [] := by
      rw [hev, packetsOf_singleton_of_ne (by rw [ht]; exact hne.symm)]
    refine ⟨⟨?_, ?_, .inl rfl, ?_, hstats⟩, ?_⟩
    · show Grows Notes [] (S.recorded s'.sink)
      rw [hev]
      exact ⟨⟨fun hf => by simp [ht] at hf, fun hr => by simp [ht] at hr, fun r hr => by simp at hr⟩, trivial⟩
    · show ∀ p ∈ packetsOf .PACKET_FORWARDED (S.recorded s'.sink), (p : Int) ≤ -1
      rw [hnone (by simp)]
      exact fun p hp => absurd hp List.not_mem_nil
    · show ∀ p : Nat, (p : Int) ∈ [] ↔ p ∈ packetsOf .PACKET_REORDERED (S.recorded s'.sink)
      rw [hnone (by simp)]
      exact fun p => iff_of_false List.not_mem_nil List.not_mem_nil
    · show Settled (S.recorded s'.sink)
      rw [hev]
      intro r hr
      rw [List.getLast?_singleton, Option.some.injEq] at hr
      simp [← hr, ht]

/-- The run ended because the sink raised on the forwarding that the last event, a note, announces. -/
def Progress.Interrupted (S : EventSink σ) : Progress σ → Prop
  | .running _ | .left _ _ => False
  | .raised e s => InterruptedBy S e s

theorem Progress.Tracked.noted {p : Progress σ} (h : p.Tracked S) : Grows Notes [] (p.state.events S) ∧
    (Settled (p.state.events S) ↔ ¬p.Interrupted S) ∧
    p.state.eventStream.statistics = statisticsFromEvents (p.state.events S) := by
  cases p with
  | running s => exact ⟨h.follows.grows, iff_of_true h.settled id, h.follows.counted⟩
  | left flow s => exact ⟨h.follows.grows, iff_of_true h.settled id, h.follows.counted⟩
  | raised e s =>
    refine ⟨h.grows, ⟨fun hs => ?_, h.settled.resolve_right⟩, h.counted⟩
    rintro ⟨r, f, sink, hlast, ht, -⟩
    exact hs r hlast ht

/-- Holds of up to two packets. -/
def holdingConfig : LinkConfig where
  seed := 10
  lossRate := .zero
  duplicateRate := .zero
  corruptRate := .zero
  latencyMs := 0
  jitterMs := 0
  reorderWindow := 2
  seed_le := by decide
  reorderWindow_le := by decide

end RunState

end OrbitOps.Link
