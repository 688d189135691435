import OrbitOps.Link.Polling

/-!
# Reordering

When all deliveries have one delay and arrive in the order of time, an older packet that is still
waiting when a newer one is returned waits for its hold, so it is overtaken only by packets that its
hold allows (`Run.Bounded`). The copies of a packet share their due time and their hold, so a packet
is returned whole (`Run.Whole`).
-/

namespace OrbitOps.Link
open Py Py.Heapq

/-- How many later packets hold a datagram back. -/
def ScheduledDatagram.holdPackets (d : ScheduledDatagram) : Int := d.releaseAfterPacket - d.packetIndex

/-- The copies of an outcome have increasing indices and share their delay and their hold. -/
structure PacketOutcome.Whole (o : PacketOutcome) : Prop where
  copies : o.deliveries.Pairwise fun d d' => d.copyIndex < d'.copyIndex
  same : ∀ d ∈ o.deliveries, ∀ d' ∈ o.deliveries, d.delayMs = d'.delayMs ∧ d.holdPackets = d'.holdPackets

theorem PacketOutcome.Whole.distinctCopies {o : PacketOutcome} (h : o.Whole) : o.DistinctCopies :=
  List.pairwise_map.mpr (h.copies.imp fun hlt => ne_of_lt hlt)

theorem ImpairmentEngine.Impairs.whole {config : LinkConfig} {payload : Bytes} {index : Int} {o : PacketOutcome}
    (h : Impairs config payload index o) : o.Whole := by
  rcases h.deliveries with ⟨-, hnil⟩ | ⟨-, d, copies, -, hcopies, hds⟩
  · exact ⟨by simp [hnil], by simp [hnil]⟩
  · constructor
    · rw [hds, List.pairwise_map]
      rcases hcopies with rfl | rfl <;> simp
    · intro d₁ h₁ d₂ h₂
      rw [hds, List.mem_map] at h₁ h₂
      obtain ⟨_, -, rfl⟩ := h₁
      obtain ⟨_, -, rfl⟩ := h₂
      exact ⟨rfl, rfl⟩

namespace DatagramScheduler

/-! ### Overtaking -/

/-- The deliveries have one delay, and the outcomes arrive in the order of time. -/
structure SameDelay (delayMs : Int) (as : List Arrival) : Prop where
  delay : ∀ a ∈ as, ∀ d ∈ a.outcome.deliveries, d.delayMs = delayMs
  times : as.Pairwise fun a a' => a.receivedAtNs ≤ a'.receivedAtNs

theorem SameDelay.of_append {delayMs : Int} {as as' : List Arrival} (h : SameDelay delayMs (as ++ as')) :
    SameDelay delayMs as :=
  ⟨fun a ha => h.delay a (List.mem_append_left _ ha), (List.pairwise_append.mp h.times).1⟩

/-- Of two packets the newer one is not due earlier. -/
theorem SameDelay.dueAtNs_le {delayMs : Int} {as : List Arrival} {r : Run} (h : SameDelay delayMs as)
    (hrec : r.Records as) {d d' : ScheduledDatagram} (hd : d ∈ r.enqueued) (hd' : d' ∈ r.enqueued)
    (hlt : d.packetIndex < d'.packetIndex) : d.dueAtNs ≤ d'.dueAtNs := by
  rw [hrec.enqueued, List.mem_flatMap] at hd hd'
  obtain ⟨a, ha, hda⟩ := hd
  obtain ⟨a', ha', hda'⟩ := hd'
  rw [packetIndex_of_mem_datagrams hda, packetIndex_of_mem_datagrams hda'] at hlt
  have hdue {a : Arrival} (ha : a ∈ as) {d : ScheduledDatagram} (hd : d ∈ a.datagrams) :
      d.dueAtNs = a.receivedAtNs + delayMs * nanosecondsPerMillisecond := by
    obtain ⟨delivery, hm, rfl⟩ := List.mem_map.mp hd
    rw [← h.delay a ha delivery hm]
  -- the arrivals are in the order of their packets and of their times
  let R (b b' : Arrival) : Prop :=
    (b.outcome.packetIndex < b'.outcome.packetIndex → b.receivedAtNs ≤ b'.receivedAtNs) ∧
      (b'.outcome.packetIndex < b.outcome.packetIndex → b'.receivedAtNs ≤ b.receivedAtNs)
  have hsymm : Std.Symm R := ⟨fun _ _ hr => ⟨hr.2, hr.1⟩⟩
  have hboth : as.Pairwise R := by
    refine (hrec.increasing.and h.times).imp ?_
    rintro b b' ⟨hidx, htime⟩
    exact ⟨fun _ => htime, fun hback => absurd hback (lt_asymm hidx)⟩
  have hne : a ≠ a' := fun heq => by rw [heq] at hlt; exact lt_irrefl _ hlt
  have htime := (hboth.forall ha ha' hne).1 hlt
  rw [hdue ha hda, hdue ha' hda']
  omega

/-- A datagram returned before another one overtakes it at most as its hold allows. -/
def InBound (d d' : ScheduledDatagram) : Prop :=
  d'.packetIndex < d.packetIndex → d.packetIndex < d'.packetIndex + d'.holdPackets

/-- What was returned overtakes what was returned later, and what is pending, at most as holds allow. -/
structure Run.Bounded (r : Run) : Prop where
  returned : r.returned.Pairwise InBound
  waiting : ∀ d ∈ r.returned, ∀ d' ∈ r.scheduler.pending.toList, InBound d d'

theorem Run.Records.packetIndex_le {r : Run} {as : List Arrival} (h : r.Records as) {d : ScheduledDatagram}
    (hd : d ∈ r.enqueued) : d.packetIndex ≤ r.scheduler.highestPacketIndex := by
  rw [h.enqueued, List.mem_flatMap] at hd
  obtain ⟨a, ha, hda⟩ := hd
  rw [packetIndex_of_mem_datagrams hda]
  exact h.newest a ha

theorem Run.Conserves.mem_returned {r : Run} (h : r.Conserves) {d : ScheduledDatagram} (hd : d ∈ r.returned) :
    d ∈ r.enqueued := h.mem_iff.mp (List.mem_append_left _ hd)

theorem Run.Conserves.mem_pending {r : Run} (h : r.Conserves) {d : ScheduledDatagram}
    (hd : d ∈ r.scheduler.pending.toList) : d ∈ r.enqueued := h.mem_iff.mp (List.mem_append_right _ hd)

theorem Run.Bounded.step {delayMs : Int} {r : Run} {as : List Arrival} (h : r.Bounded) (hcons : r.Conserves)
    (hrec : r.Records as) (hsame : SameDelay delayMs as) (c : Call) : (r.step c).Bounded := by
  rcases r.step_cases c with ⟨hs, -⟩ | ⟨a, -, hnew, hs, -⟩ | ⟨now, items, s', hnow, hpop, hpops, hs, -⟩ | ⟨hs, -⟩
  · rw [hs]
    exact h
  · rw [hs]
    refine ⟨h.returned, fun d hd d' hd' hlt => ?_⟩
    rcases List.mem_append.mp ((Heap.toList_pushAll _ _).mem_iff.mp hd') with hd' | hd'
    · -- a new packet overtakes nothing
      have hle := hrec.packetIndex_le (hcons.mem_returned hd)
      rw [packetIndex_of_mem_datagrams hd'] at hlt
      omega
    · exact h.waiting d hd d' hd' hlt
  · rw [hs]
    have hitem {d : ScheduledDatagram} (hd : d ∈ items) : d ∈ r.scheduler.pending.toList :=
      hpops.perm.mem_iff.mp (List.mem_append_left _ hd)
    have hleft {d : ScheduledDatagram} (hd : d ∈ s'.pending.toList) : d ∈ r.scheduler.pending.toList :=
      hpops.perm.mem_iff.mp (List.mem_append_right _ hd)
    constructor
    · refine List.pairwise_append.mpr ⟨h.returned, ?_, fun d hd d' hd' => h.waiting d hd d' (hitem hd')⟩
      refine (popReady_sorted hnow hpop).imp_of_mem ?_
      intro d d' hd hd' hkey hlt
      -- in one batch the older packet, due no later, comes first
      have hdue := hsame.dueAtNs_le hrec (hcons.mem_pending (hitem hd')) (hcons.mem_pending (hitem hd)) hlt
      simp only [ScheduledDatagram.key, Prod.Lex.toLex_le_toLex] at hkey
      rcases hkey with hlt' | ⟨-, hlt' | ⟨heq, -⟩⟩ <;> omega
    · intro d hd d' hd' hlt
      rcases List.mem_append.mp hd with hd | hd
      · exact h.waiting d hd d' (hleft hd') hlt
      · -- the older packet was due, so it stayed for its hold
        have hdue := hsame.dueAtNs_le hrec (hcons.mem_pending (hleft hd')) (hcons.mem_pending (hitem hd)) hlt
        have hready := (hpops.ready d hd).1
        have hheld := (hpops.waiting d' hd').resolve_left (by omega)
        have hnewest := hrec.packetIndex_le (hcons.mem_pending (hitem hd))
        rw [eligible, Bool.or_eq_false_iff, decide_eq_false_iff_not, hpops.highestPacketIndex] at hheld
        have := hheld.2
        rw [ScheduledDatagram.holdPackets]
        omega
  · rw [hs]
    exact ⟨h.returned, h.waiting⟩

theorem bounded_run {calls : List Call} {delayMs : Int} (h : SameDelay delayMs (arrivals calls)) :
    (run calls).Bounded := by
  have hrun := run_induction (P := fun r as => r.Conserves ∧ r.Records as ∧ (SameDelay delayMs as → r.Bounded))
    ⟨.refl _, ⟨rfl, .nil, fun _ ha => by cases ha⟩, fun _ => ⟨.nil, fun _ hd => by cases hd⟩⟩
    (fun r as c hr => ⟨hr.1.step c, hr.2.1.step c, fun hsame =>
      (hr.2.2 hsame.of_append).step hr.1 hr.2.1 hsame.of_append c⟩) calls
  exact hrun.2.2 h

/-! ### Whole packets -/

/-- Selecting by a test that does not tell the members of a group apart selects whole groups. -/
theorem filter_flatMap_of_const {α β : Type} {f : α → List β} {p : β → Bool} {q : α → Bool} {as : List α}
    (h : ∀ a ∈ as, ∀ b ∈ f a, p b = q a) : (as.flatMap f).filter p = (as.filter q).flatMap f := by
  induction as with
  | nil => rfl
  | cons a as ih =>
    have hrest := ih fun a' ha' => h a' (List.mem_cons_of_mem _ ha')
    have hhead := h a (List.mem_cons_self ..)
    rw [List.flatMap_cons, List.filter_append, hrest]
    cases hq : q a with
    | true =>
      rw [List.filter_cons_of_pos hq, List.flatMap_cons, List.filter_eq_self.mpr fun b hb => (hhead b hb).trans hq]
    | false =>
      rw [List.filter_cons_of_neg (by simp [hq]),
        List.filter_eq_nil_iff.mpr fun b hb => by simp [(hhead b hb).trans hq], List.nil_append]

theorem Arrival.same {a : Arrival} (h : a.outcome.Whole) {d d' : ScheduledDatagram} (hd : d ∈ a.datagrams)
    (hd' : d' ∈ a.datagrams) : d.dueAtNs = d'.dueAtNs ∧ d.releaseAfterPacket = d'.releaseAfterPacket := by
  obtain ⟨x, hx, rfl⟩ := List.mem_map.mp hd
  obtain ⟨y, hy, rfl⟩ := List.mem_map.mp hd'
  obtain ⟨hdelay, hhold⟩ := h.same x hx y hy
  exact ⟨by rw [hdelay], by rw [hhold]⟩

/-- All copies of a packet are ready. -/
def Arrival.ready (s : DatagramScheduler) (nowNs : Int) (a : Arrival) : Bool := a.datagrams.all (s.ready nowNs)

theorem Arrival.ready_eq {a : Arrival} (h : a.outcome.Whole) (s : DatagramScheduler) (nowNs : Int)
    {d : ScheduledDatagram} (hd : d ∈ a.datagrams) : s.ready nowNs d = a.ready s nowNs := by
  have hsame {d' : ScheduledDatagram} (hd' : d' ∈ a.datagrams) : s.ready nowNs d' = s.ready nowNs d := by
    obtain ⟨hdue, hrel⟩ := Arrival.same h hd' hd
    rw [DatagramScheduler.ready, DatagramScheduler.ready, eligible, eligible, hdue, hrel]
  cases hr : s.ready nowNs d with
  | true => exact (List.all_eq_true.mpr fun d' hd' => (hsame hd').trans hr).symm
  | false => exact (List.all_eq_false.mpr ⟨d, hd, by simp [hr]⟩).symm

theorem Arrival.sorted {a : Arrival} (h : a.outcome.Whole) : a.datagrams.Pairwise fun d d' => d.key ≤ d'.key := by
  refine List.pairwise_map.mpr (h.copies.imp_of_mem ?_)
  intro d d' hd hd' hlt
  obtain ⟨hdelay, -⟩ := h.same d hd d' hd'
  simp [ScheduledDatagram.key, Prod.Lex.toLex_le_toLex, hdelay, hlt]

/-- The order in which packets are returned from one batch. -/
def Arrival.order (a : Arrival) : Int ×ₗ Int :=
  toLex ((a.datagrams.head?.map ScheduledDatagram.dueAtNs).getD 0, a.outcome.packetIndex)

theorem Arrival.order_eq {a : Arrival} (h : a.outcome.Whole) {d : ScheduledDatagram} (hd : d ∈ a.datagrams) :
    a.order = toLex (d.dueAtNs, d.packetIndex) := by
  rw [order, packetIndex_of_mem_datagrams hd]
  cases hds : a.datagrams with
  | nil => rw [hds] at hd; cases hd
  | cons first rest =>
    have hmem : first ∈ a.datagrams := by rw [hds]; exact List.mem_cons_self ..
    rw [← (Arrival.same h hmem hd).1]
    rfl

/-- Packets in their order have their datagrams in the order of the keys. -/
theorem sorted_flatMap {as : List Arrival} (hwhole : ∀ a ∈ as, a.outcome.Whole)
    (hne : as.Pairwise fun a a' => a.outcome.packetIndex ≠ a'.outcome.packetIndex)
    (hsorted : as.Pairwise fun a a' => a.order ≤ a'.order) :
    (as.flatMap Arrival.datagrams).Pairwise fun d d' => d.key ≤ d'.key := by
  refine List.pairwise_flatMap.mpr ⟨fun a ha => Arrival.sorted (hwhole a ha), ?_⟩
  refine (hne.and hsorted).imp_of_mem ?_
  rintro a a' ha ha' ⟨hidx, hle⟩ d hd d' hd'
  rw [Arrival.order_eq (hwhole a ha) hd, Arrival.order_eq (hwhole a' ha') hd', Prod.Lex.toLex_le_toLex] at hle
  rw [← packetIndex_of_mem_datagrams hd, ← packetIndex_of_mem_datagrams hd'] at hidx
  simp only [ScheduledDatagram.key, Prod.Lex.toLex_le_toLex]
  rcases hle with hlt | ⟨hdue, hle⟩
  · exact .inl hlt
  · exact .inr ⟨hdue, .inl (lt_of_le_of_ne hle hidx)⟩

/-- The packets returned, each whole, and the packets that wait, each whole. -/
def Run.Whole (r : Run) (as : List Arrival) : Prop :=
  ∃ packets waiting : List Arrival, (packets ++ waiting).Perm as ∧ r.returned = packets.flatMap Arrival.datagrams ∧
    r.scheduler.pending.toList.Perm (waiting.flatMap Arrival.datagrams)

/-- The arrivals of a run, in any order, are of different packets. -/
theorem Run.Records.ne_packetIndex {r : Run} {as as' : List Arrival} (h : r.Records as) (hperm : as'.Perm as) :
    as'.Pairwise fun a a' => a.outcome.packetIndex ≠ a'.outcome.packetIndex :=
  (hperm.pairwise_iff fun hne => hne.symm).mpr (h.increasing.imp fun hlt => ne_of_lt hlt)

theorem Arrival.sorted_mergeSort (as : List Arrival) :
    (as.mergeSort fun a a' => decide (a.order ≤ a'.order)).Pairwise fun a a' => a.order ≤ a'.order := by
  have hle : (as.mergeSort fun a a' => decide (a.order ≤ a'.order)).Pairwise fun a a' =>
      decide (a.order ≤ a'.order) = true := by
    refine List.pairwise_mergeSort (fun a b c hab hbc => ?_) (fun a b => ?_) _
    · rw [decide_eq_true_eq] at *
      exact hab.trans hbc
    · rw [Bool.or_eq_true, decide_eq_true_eq, decide_eq_true_eq]
      exact le_total _ _
  exact hle.imp fun hle => of_decide_eq_true hle

theorem Run.Whole.step {r : Run} {as : List Arrival} (h : r.Whole as) (hcons : r.Conserves) (hrec : r.Records as)
    (hwhole : ∀ a ∈ as, a.outcome.Whole) (c : Call) : (r.step c).Whole (as ++ r.arrival c) := by
  obtain ⟨packets, waiting, hperm, hret, hpend⟩ := h
  rcases r.step_cases c with ⟨hs, ha⟩ | ⟨a, -, -, hs, ha⟩ | ⟨now, items, s', hnow, hpop, hpops, hs, ha⟩ | ⟨hs, ha⟩
  · rw [hs, ha, List.append_nil]
    exact ⟨packets, waiting, hperm, hret, hpend⟩
  · rw [hs, ha]
    refine ⟨packets, waiting ++ [a], by rw [← List.append_assoc]; exact hperm.append_right _, hret, ?_⟩
    rw [List.flatMap_append, List.flatMap_singleton]
    exact (Heap.toList_pushAll _ _).trans ((hpend.append_left _).trans List.perm_append_comm)
  · rw [hs, ha, List.append_nil]
    have hmem {a : Arrival} (ha : a ∈ waiting) : a ∈ as := hperm.mem_iff.mp (List.mem_append_right _ ha)
    have hconst {a : Arrival} (ha : a ∈ waiting) {d : ScheduledDatagram} (hd : d ∈ a.datagrams) :
        r.scheduler.ready now d = a.ready r.scheduler now := Arrival.ready_eq (hwhole a (hmem ha)) _ _ hd
    -- the packets of the batch, in their order
    let batch := (waiting.filter (Arrival.ready r.scheduler now)).mergeSort fun a a' => decide (a.order ≤ a'.order)
    have hbatch : batch.Perm (waiting.filter (Arrival.ready r.scheduler now)) := List.mergeSort_perm _ _
    have hitems : items.Perm (batch.flatMap Arrival.datagrams) := by
      refine (hpops.perm_ready.1.trans (hpend.filter _)).trans ?_
      rw [filter_flatMap_of_const fun a ha d hd => hconst ha hd]
      exact hbatch.symm.flatMap_right _
    have hleft : s'.pending.toList.Perm
        ((waiting.filter fun a => !a.ready r.scheduler now).flatMap Arrival.datagrams) := by
      refine (hpops.perm_ready.2.trans (hpend.filter _)).trans ?_
      rw [filter_flatMap_of_const fun a ha d hd => congrArg not (hconst ha hd)]
    have hall : (packets ++ (batch ++ waiting.filter fun a => !a.ready r.scheduler now)).Perm as := by
      refine (List.Perm.append_left packets ?_).trans hperm
      exact (hbatch.append_right _).trans (List.filter_append_perm _ _)
    have hbatchas {a : Arrival} (ha : a ∈ batch) : a ∈ as :=
      hmem (List.mem_of_mem_filter (hbatch.mem_iff.mp ha))
    have hbatchne : batch.Pairwise fun a a' => a.outcome.packetIndex ≠ a'.outcome.packetIndex :=
      (List.pairwise_append.mp (List.pairwise_append.mp (hrec.ne_packetIndex hall)).2.1).1
    have hdistinct : Distinct items := by
      have hpending := hcons.distinct_pending (hrec.distinct fun a ha => (hwhole a ha).distinctCopies)
      exact (List.pairwise_append.mp (hpending.of_perm hpops.perm.symm)).1
    refine ⟨packets ++ batch, _, by rw [List.append_assoc]; exact hall, ?_, hleft⟩
    rw [List.flatMap_append, hret]
    exact congrArg _ (eq_of_perm_of_sorted hitems hdistinct (popReady_sorted hnow hpop)
      (sorted_flatMap (fun a ha => hwhole a (hbatchas ha)) hbatchne (Arrival.sorted_mergeSort _)))
  · rw [hs, ha, List.append_nil]
    exact ⟨packets, waiting, hperm, hret, hpend⟩

theorem whole_run {calls : List Call} (h : ∀ a ∈ arrivals calls, a.outcome.Whole) :
    (run calls).Whole (arrivals calls) := by
  have hrun := run_induction
    (P := fun r as => r.Conserves ∧ r.Records as ∧ ((∀ a ∈ as, a.outcome.Whole) → r.Whole as))
    ⟨.refl _, ⟨rfl, .nil, fun _ ha => by cases ha⟩, fun _ => ⟨[], [], .refl _, rfl, .refl _⟩⟩
    (fun r as c hr => ⟨hr.1.step c, hr.2.1.step c, fun hwhole =>
      have hold : ∀ a ∈ as, a.outcome.Whole := fun a ha => hwhole a (List.mem_append_left _ ha)
      (hr.2.2 hold).step hr.1 hr.2.1 hold c⟩) calls
  exact hrun.2.2 h

/-! ### The datagrams of an engine -/

/-- What an engine may decide for the outcomes of its stream. -/
theorem impairs_of_processAll {config : LinkConfig} {payloads : List Bytes} {outcomes : List PacketOutcome}
    {e : ImpairmentEngine} (h : ImpairmentEngine.processAll payloads (.new config) = (.ok outcomes, e))
    {o : PacketOutcome} (ho : o ∈ outcomes) : ∃ payload index, ImpairmentEngine.Impairs config payload index o := by
  obtain ⟨os, e', hos, hlen, hall⟩ := ImpairmentEngine.processAll_spec payloads (.new config)
  rw [h] at hos
  cases hos
  obtain ⟨n, hn, rfl⟩ := List.getElem_of_mem ho
  exact ⟨_, _, hall n payloads[n] outcomes[n] (List.getElem?_eq_getElem _) (List.getElem?_eq_getElem hn)⟩

theorem holdPackets_le {config : LinkConfig} {a : Arrival} {payload : Bytes} {index : Int}
    (h : ImpairmentEngine.Impairs config payload index a.outcome) {d : ScheduledDatagram} (hd : d ∈ a.datagrams) :
    d.holdPackets ≤ config.reorderWindow := by
  obtain ⟨x, hx, rfl⟩ := List.mem_map.mp hd
  have := (h.emits hx).hold.2
  simp only [ScheduledDatagram.holdPackets]
  omega

theorem sameDelay_of_no_jitter {config : LinkConfig} (hjitter : config.jitterMs = 0) {as : List Arrival}
    (has : ∀ a ∈ as, ∃ payload index, ImpairmentEngine.Impairs config payload index a.outcome)
    (htimes : as.Pairwise fun a a' => a.receivedAtNs ≤ a'.receivedAtNs) : SameDelay config.latencyMs as := by
  refine ⟨fun a ha d hd => ?_, htimes⟩
  obtain ⟨payload, index, him⟩ := has a ha
  have hge := (him.emits hd).delay_ge
  have hle := (him.emits hd).delay_le
  rw [hjitter] at hge hle
  omega

/-- Packets returned whole, in the order of their indices, have their datagrams in the order of packet
and copy. -/
theorem ordered_flatMap {as : List Arrival} (hwhole : ∀ a ∈ as, a.outcome.Whole)
    (hne : as.Pairwise fun a a' => a.outcome.packetIndex ≠ a'.outcome.packetIndex)
    (hle : (as.flatMap Arrival.datagrams).Pairwise fun d d' => d.packetIndex ≤ d'.packetIndex) :
    (as.flatMap Arrival.datagrams).Pairwise fun d d' =>
      d.packetIndex < d'.packetIndex ∨ d.packetIndex = d'.packetIndex ∧ d.copyIndex < d'.copyIndex := by
  have hcopies : (as.flatMap Arrival.datagrams).Pairwise fun d d' =>
      d.packetIndex = d'.packetIndex → d.copyIndex < d'.copyIndex := by
    refine List.pairwise_flatMap.mpr ⟨fun a ha => ?_, hne.imp fun hne d hd d' hd' heq => ?_⟩
    · refine List.pairwise_map.mpr ((hwhole a ha).copies.imp ?_)
      intro x y hlt _
      exact hlt
    · rw [packetIndex_of_mem_datagrams hd, packetIndex_of_mem_datagrams hd'] at heq
      exact absurd heq hne
  refine (hle.and hcopies).imp ?_
  rintro d d' ⟨hle, hcopy⟩
  rcases lt_or_eq_of_le hle with hlt | heq
  · exact .inl hlt
  · exact .inr ⟨heq, hcopy heq⟩

theorem copyIndex_datagrams {config : LinkConfig} {payload : Bytes} {index : Int} {a : Arrival}
    (h : ImpairmentEngine.Impairs config payload index a.outcome) :
    a.datagrams.map ScheduledDatagram.copyIndex ∈ [[], [0], [0, 1]] := by
  have hindices : a.datagrams.map ScheduledDatagram.copyIndex = a.outcome.deliveries.map Delivery.copyIndex := by
    rw [Arrival.datagrams, scheduled, List.map_map]
    rfl
  rw [hindices]
  rcases h.deliveries with ⟨-, hnil⟩ | ⟨-, d, copies, -, rfl | rfl, hds⟩
  · simp [hnil]
  · simp [hds]
  · simp [hds]

/-- Outcomes with one delay, enqueued in the order of time: whatever the calls in between, a packet is
overtaken only by packets that its hold allows. So without jitter no packet of an engine is overtaken
by one that is a reorder window or more newer, and windows 0 and 1 keep the order of arrival; and, with
any jitter, packets are returned whole, the first copy right before the second. -/
theorem reordering_bounded :
    (∀ (calls : List Call) (delayMs : Int),
      (∀ a ∈ arrivals calls, ∀ d ∈ a.outcome.deliveries, d.delayMs = delayMs) →
      ((arrivals calls).Pairwise fun a a' => a.receivedAtNs ≤ a'.receivedAtNs) →
      (run calls).returned.Pairwise fun d d' =>
        d'.packetIndex < d.packetIndex → d.packetIndex < d'.packetIndex + d'.holdPackets) ∧
    ∀ config payloads outcomes e calls, ImpairmentEngine.processAll payloads (.new config) = (.ok outcomes, e) →
      (∀ a ∈ arrivals calls, a.outcome ∈ outcomes) →
      (∃ packets waiting : List Arrival, (packets ++ waiting).Perm (arrivals calls) ∧
        (run calls).returned = packets.flatMap Arrival.datagrams ∧
        ∀ a ∈ packets, a.datagrams.map ScheduledDatagram.copyIndex ∈ [[], [0], [0, 1]]) ∧
      (config.jitterMs = 0 → ((arrivals calls).Pairwise fun a a' => a.receivedAtNs ≤ a'.receivedAtNs) →
        ((run calls).returned.Pairwise fun d d' =>
          d'.packetIndex < d.packetIndex → d.packetIndex < d'.packetIndex + (config.reorderWindow : Int)) ∧
        (config.reorderWindow ≤ 1 → (run calls).returned.Pairwise fun d d' =>
          d.packetIndex < d'.packetIndex ∨ d.packetIndex = d'.packetIndex ∧ d.copyIndex < d'.copyIndex)) := by
  refine ⟨fun calls delayMs hdelay htimes => (bounded_run ⟨hdelay, htimes⟩).returned, ?_⟩
  intro config payloads outcomes e calls hrun hcalls
  have him : ∀ a ∈ arrivals calls, ∃ payload index, ImpairmentEngine.Impairs config payload index a.outcome :=
    fun a ha => impairs_of_processAll hrun (hcalls a ha)
  have hwhole : ∀ a ∈ arrivals calls, a.outcome.Whole := by
    intro a ha
    obtain ⟨payload, index, h⟩ := him a ha
    exact h.whole
  have hrec := records_run calls
  obtain ⟨packets, waiting, hperm, hret, -⟩ := whole_run hwhole
  have hmem {a : Arrival} (ha : a ∈ packets) : a ∈ arrivals calls := hperm.mem_iff.mp (List.mem_append_left _ ha)
  refine ⟨⟨packets, waiting, hperm, hret, fun a ha => ?_⟩, fun hjitter htimes => ?_⟩
  · obtain ⟨payload, index, h⟩ := him a (hmem ha)
    exact copyIndex_datagrams h
  · have hbound := (bounded_run (sameDelay_of_no_jitter hjitter him htimes)).returned
    have hwindow : (run calls).returned.Pairwise fun d d' =>
        d'.packetIndex < d.packetIndex → d.packetIndex < d'.packetIndex + (config.reorderWindow : Int) := by
      refine hbound.imp_of_mem ?_
      intro d d' _ hd' hin hlt
      have henq := (conserves_run calls).mem_returned hd'
      rw [hrec.enqueued, List.mem_flatMap] at henq
      obtain ⟨a, ha, hda⟩ := henq
      obtain ⟨payload, index, h⟩ := him a ha
      have := holdPackets_le h hda
      have := hin hlt
      omega
    refine ⟨hwindow, fun hone => ?_⟩
    rw [hret] at hwindow ⊢
    refine ordered_flatMap (fun a ha => hwhole a (hmem ha)) ?_ (hwindow.imp fun hin => ?_)
    · exact (List.pairwise_append.mp (hrec.ne_packetIndex hperm)).1
    · by_contra hback
      have := hin (not_le.mp hback)
      omega

end DatagramScheduler

end OrbitOps.Link
