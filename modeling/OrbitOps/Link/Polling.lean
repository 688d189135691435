import OrbitOps.Link.Impairments
import OrbitOps.Link.Scheduler

/-!
# Polling the scheduler

`pop_ready` hands out, in the order of their keys, the pending datagrams that are due and released
(`Pops.perm_ready`, `popReady_sorted`). No two pending datagrams are the same copy, so the list is
determined by what is pending, and polling more often splits it without changing it. After a
`pop_ready` the next deadline is in the future.
-/

namespace OrbitOps.Link
open Py Py.Heapq

/-- The packet and the copy that a datagram is. -/
def ScheduledDatagram.copy (d : ScheduledDatagram) : Int × Int := (d.packetIndex, d.copyIndex)

/-- The order of forwarding: by due time, then by packet, then by copy. -/
def ScheduledDatagram.order (d : ScheduledDatagram) : Int ×ₗ Int ×ₗ Int :=
  toLex (d.dueAtNs, toLex (d.packetIndex, d.copyIndex))

theorem ScheduledDatagram.key_lt_of_dueAtNs_lt {d d' : ScheduledDatagram} (h : d.dueAtNs < d'.dueAtNs) :
    d.key < d'.key := Prod.Lex.lt_iff.mpr (.inl h)

theorem ScheduledDatagram.copy_eq_of_key_eq {d d' : ScheduledDatagram} (h : d.key = d'.key) : d.copy = d'.copy := by
  simp only [key, toLex_inj, Prod.mk.injEq] at h
  rw [copy, copy, h.2.1, h.2.2.1]

/-- Different copies in the order of their keys are in the order of forwarding. -/
theorem ScheduledDatagram.order_lt_of_key_le {d d' : ScheduledDatagram} (h : d.key ≤ d'.key) (hne : d.copy ≠ d'.copy) :
    d.order < d'.order := by
  simp only [copy, ne_eq, Prod.mk.injEq] at hne
  simp only [key, Prod.Lex.toLex_le_toLex] at h
  simp only [order, Prod.Lex.toLex_lt_toLex]
  rcases h with h | ⟨hdue, h | ⟨hpacket, h | ⟨hcopy, -⟩⟩⟩
  · exact .inl h
  · exact .inr ⟨hdue, .inl h⟩
  · exact .inr ⟨hdue, .inr ⟨hpacket, h⟩⟩
  · exact absurd ⟨hpacket, hcopy⟩ hne

/-- The copies of an outcome can be told apart. -/
def PacketOutcome.DistinctCopies (o : PacketOutcome) : Prop := (o.deliveries.map Delivery.copyIndex).Nodup

theorem ImpairmentEngine.Impairs.distinctCopies {config : LinkConfig} {payload : Bytes} {index : Int} {o : PacketOutcome}
    (h : Impairs config payload index o) : o.DistinctCopies := by
  unfold PacketOutcome.DistinctCopies
  rcases h.deliveries with ⟨-, hnil⟩ | ⟨-, d, copies, -, rfl | rfl, hds⟩
  · simp [hnil]
  · simp [hds]
  · simp [hds]

namespace DatagramScheduler

/-! ### What a `pop_ready` returns -/

/-- A list that splits into what satisfies a test and what does not is split by the test. -/
theorem perm_filter_of_append {α : Type} {p : α → Bool} {xs ys zs : List α} (h : (xs ++ ys).Perm zs)
    (hx : ∀ x ∈ xs, p x = true) (hy : ∀ y ∈ ys, p y = false) :
    xs.Perm (zs.filter p) ∧ ys.Perm (zs.filter fun z => !p z) := by
  have hxs : xs.filter p = xs := List.filter_eq_self.mpr hx
  have hys : ys.filter p = [] := List.filter_eq_nil_iff.mpr fun y hm => by simp [hy y hm]
  have hxs' : xs.filter (fun z => !p z) = [] := List.filter_eq_nil_iff.mpr fun x hm => by simp [hx x hm]
  have hys' : ys.filter (fun z => !p z) = ys := List.filter_eq_self.mpr fun y hm => by simp [hy y hm]
  constructor
  · have hp := h.filter p
    rwa [List.filter_append, hxs, hys, List.append_nil] at hp
  · have hp := h.filter fun z => !p z
    rwa [List.filter_append, hxs', hys', List.nil_append] at hp

/-- A datagram that a `pop_ready` hands out. -/
def ready (s : DatagramScheduler) (nowNs : Int) (d : ScheduledDatagram) : Bool :=
  decide (d.dueAtNs ≤ nowNs) && s.eligible d

theorem Pops.eligible_eq {s s' : DatagramScheduler} {nowNs : Int} {items : List ScheduledDatagram}
    (h : Pops s s' nowNs items) : s'.eligible = s.eligible := by
  funext d
  rw [eligible, eligible, h.highestPacketIndex, h.holdsReleased]

/-- The pending datagrams are split by whether they are ready. -/
theorem Pops.perm_ready {s s' : DatagramScheduler} {nowNs : Int} {items : List ScheduledDatagram}
    (h : Pops s s' nowNs items) : items.Perm (s.pending.toList.filter (s.ready nowNs)) ∧
      s'.pending.toList.Perm (s.pending.toList.filter fun d => !s.ready nowNs d) := by
  refine perm_filter_of_append h.perm (fun d hd => ?_) fun d hd => ?_
  · obtain ⟨hdue, hrel⟩ := h.ready d hd
    simp [DatagramScheduler.ready, hdue, hrel]
  · rcases h.waiting d hd with hlt | hheld
    · simp [DatagramScheduler.ready, not_le.mpr hlt]
    · rw [h.eligible_eq] at hheld
      simp [DatagramScheduler.ready, hheld]

theorem popDue_sorted (released : ScheduledDatagram → Bool) (nowNs : Int) (fuel : Nat)
    (pending : Heap ScheduledDatagram.key) (hfuel : pending.toList.length ≤ fuel) :
    (popDue released nowNs fuel pending).1.Pairwise fun d d' => d.key ≤ d'.key := by
  induction fuel generalizing pending with
  | zero => exact .nil
  | succ fuel ih =>
    rw [popDue]
    cases hroot : pending.root? with
    | none => exact .nil
    | some root =>
      dsimp only
      split_ifs with hdue
      · obtain ⟨rest, hpop⟩ := Heap.pop?_isSome hroot
        have hperm := (Heap.toList_pop? hpop).1
        have hlen := hperm.length_eq
        rw [List.length_cons] at hlen
        have hsorted := ih rest (by omega)
        have hspec := popDue_spec released nowNs fuel rest (by omega)
        simp only [hpop]
        split_ifs with hrel
        · -- the root is below whatever is popped later
          refine List.pairwise_cons.mpr ⟨fun d hd => ?_, hsorted⟩
          have hmem : d ∈ rest.toList := hspec.perm.mem_iff.mp (List.mem_append_left _ hd)
          exact Heap.root?_le hroot (hperm.mem_iff.mpr (List.mem_cons_of_mem _ hmem))
        · exact hsorted
      · exact .nil

theorem popReady_sorted {s s' : DatagramScheduler} {nowNs : Int} {items : List ScheduledDatagram} (h : 0 ≤ nowNs)
    (hpop : popReady (.int nowNs) s = (.ok items, s')) : items.Pairwise fun d d' => d.key ≤ d'.key := by
  rw [popReady_int s h] at hpop
  cases hpop
  exact popDue_sorted _ _ _ _ le_rfl

/-! ### Reachable schedulers -/

/-- No two datagrams are the same copy. -/
def Distinct (ds : List ScheduledDatagram) : Prop := ds.Pairwise fun d d' => d.copy ≠ d'.copy

theorem Distinct.of_perm {ds ds' : List ScheduledDatagram} (h : Distinct ds) (hp : ds.Perm ds') : Distinct ds' :=
  (hp.pairwise_iff fun hne => hne.symm).mp h

theorem Distinct.eq {ds : List ScheduledDatagram} (h : Distinct ds) {d d' : ScheduledDatagram} (hd : d ∈ ds)
    (hd' : d' ∈ ds) (heq : d.copy = d'.copy) : d = d' :=
  List.inj_on_of_nodup_map (List.pairwise_map.mpr h) hd hd' heq

theorem distinct_scheduled {o : PacketOutcome} (h : o.DistinctCopies) (t : Int) : Distinct (scheduled o t) := by
  unfold Distinct scheduled
  rw [List.pairwise_map]
  refine (List.pairwise_map.mp h).imp ?_
  intro d d' hne heq
  exact hne (congrArg Prod.snd heq)

/-- The datagrams of a run are different copies when those of every outcome are. -/
theorem Run.Records.distinct {r : Run} {as : List Arrival} (h : r.Records as)
    (hc : ∀ a ∈ as, a.outcome.DistinctCopies) : Distinct r.enqueued := by
  rw [h.enqueued, Distinct, List.pairwise_flatMap]
  refine ⟨fun a ha => distinct_scheduled (hc a ha) a.receivedAtNs, h.increasing.imp ?_⟩
  intro a a' hlt d hd d' hd' heq
  have hidx : d.packetIndex = d'.packetIndex := congrArg Prod.fst heq
  rw [packetIndex_of_mem_datagrams hd, packetIndex_of_mem_datagrams hd'] at hidx
  omega

theorem Run.Conserves.distinct_pending {r : Run} (h : r.Conserves) (hd : Distinct r.enqueued) :
    Distinct r.scheduler.pending.toList :=
  (List.pairwise_append.mp (hd.of_perm h.symm)).2.1

theorem distinct_pending {calls : List Call} (h : ∀ a ∈ arrivals calls, a.outcome.DistinctCopies) :
    Distinct (run calls).scheduler.pending.toList :=
  (conserves_run calls).distinct_pending ((records_run calls).distinct h)

/-! ### Polling more often -/

/-- Lists of different copies that are in the order of their keys agree when their datagrams do. -/
theorem eq_of_perm_of_sorted {xs ys : List ScheduledDatagram} (hp : xs.Perm ys) (hd : Distinct xs)
    (hx : xs.Pairwise fun d d' => d.key ≤ d'.key) (hy : ys.Pairwise fun d d' => d.key ≤ d'.key) : xs = ys := by
  refine hp.eq_of_pairwise ?_ hx hy
  intro d d' hmem hmem' hle hle'
  exact hd.eq hmem (hp.mem_iff.mpr hmem') (ScheduledDatagram.copy_eq_of_key_eq (le_antisymm hle hle'))

/-- Two polls hand out what the later one alone hands out, in the same order. -/
theorem popReady_twice {s : DatagramScheduler} (hs : Distinct s.pending.toList) {t₁ t₂ : Int} (h₀ : 0 ≤ t₁)
    (h₁₂ : t₁ ≤ t₂) : ∃ first s₁ second s₂ whole s',
      popReady (.int t₁) s = (.ok first, s₁) ∧ popReady (.int t₂) s₁ = (.ok second, s₂) ∧
      popReady (.int t₂) s = (.ok whole, s') ∧ first ++ second = whole ∧
      s₂.pending.toList.Perm s'.pending.toList ∧ s₂.highestPacketIndex = s'.highestPacketIndex ∧
      s₂.holdsReleased = s'.holdsReleased := by
  obtain ⟨first, s₁, hp₁, h₁⟩ := popReady_spec s h₀
  obtain ⟨second, s₂, hp₂, h₂⟩ := popReady_spec s₁ (h₀.trans h₁₂)
  obtain ⟨whole, s', hp, h⟩ := popReady_spec s (h₀.trans h₁₂)
  have hready : ∀ d, s₁.ready t₂ d = s.ready t₂ d := fun d => by rw [ready, ready, h₁.eligible_eq]
  have hmono : ∀ d, s.ready t₁ d = true → s.ready t₂ d = true := by
    intro d hd
    rw [ready, Bool.and_eq_true, decide_eq_true_eq] at hd ⊢
    exact ⟨hd.1.trans h₁₂, hd.2⟩
  -- what the two polls hand out and keep, together
  have hall : ((first ++ second) ++ s₂.pending.toList).Perm s.pending.toList := by
    rw [List.append_assoc]
    exact (h₂.perm.append_left first).trans h₁.perm
  have hsplit := perm_filter_of_append (p := s.ready t₂) hall ?_ ?_
  · refine ⟨first, s₁, second, s₂, whole, s', hp₁, hp₂, hp, ?_, hsplit.2.trans h.perm_ready.2.symm, ?_, ?_⟩
    · have hperm : (first ++ second).Perm whole := hsplit.1.trans h.perm_ready.1.symm
      refine eq_of_perm_of_sorted hperm ?_ ?_ (popReady_sorted (h₀.trans h₁₂) hp)
      · exact ((List.pairwise_append.mp (hs.of_perm hall.symm)).1)
      · refine List.pairwise_append.mpr ⟨popReady_sorted h₀ hp₁, popReady_sorted (h₀.trans h₁₂) hp₂, ?_⟩
        intro d hd d' hd'
        have hnot : s₁.ready t₁ d' = false := by
          have hmem : d' ∈ s₁.pending.toList := h₂.perm.mem_iff.mp (List.mem_append_left _ hd')
          have := List.mem_filter.mp (h₁.perm_ready.2.mem_iff.mp hmem)
          rw [ready, h₁.eligible_eq]
          exact Bool.not_eq_true' _ |>.mp this.2
        have hdue := (h₁.ready d hd).1
        rw [ready, (h₂.ready d' hd').2, Bool.and_true, decide_eq_false_iff_not, not_le] at hnot
        exact (ScheduledDatagram.key_lt_of_dueAtNs_lt (by omega)).le
    · rw [h₂.highestPacketIndex, h₁.highestPacketIndex, h.highestPacketIndex]
    · rw [h₂.holdsReleased, h₁.holdsReleased, h.holdsReleased]
  · intro d hd
    rcases List.mem_append.mp hd with hd | hd
    · obtain ⟨hdue, hrel⟩ := h₁.ready d hd
      exact hmono d (by simp [ready, hdue, hrel])
    · obtain ⟨hdue, hrel⟩ := h₂.ready d hd
      rw [← hready]
      simp [ready, hdue, hrel]
  · intro d hd
    rw [← hready]
    have hm := List.mem_filter.mp (h₂.perm_ready.2.mem_iff.mp hd)
    simpa using hm.2

/-- In every state that the outcomes of an engine, or any outcomes whose copies differ, lead to: two
polls return together what the later one alone returns, and leave the same datagrams pending; and
what a poll returns is in the strict order of due time, packet and copy. -/
theorem popReady_granularity :
    (∀ config payloads outcomes e,
      ImpairmentEngine.processAll payloads (.new config) = (.ok outcomes, e) → ∀ o ∈ outcomes, o.DistinctCopies) ∧
    ∀ calls : List Call, (∀ a ∈ arrivals calls, a.outcome.DistinctCopies) →
      (∀ t₁ t₂ : Int, 0 ≤ t₁ → t₁ ≤ t₂ → ∃ first s₁ second s₂ whole s',
        popReady (.int t₁) (run calls).scheduler = (.ok first, s₁) ∧ popReady (.int t₂) s₁ = (.ok second, s₂) ∧
        popReady (.int t₂) (run calls).scheduler = (.ok whole, s') ∧ first ++ second = whole ∧
        s₂.pending.toList.Perm s'.pending.toList) ∧
      ∀ now items s', popReady now (run calls).scheduler = (.ok items, s') →
        items.Pairwise fun d d' => d.order < d'.order := by
  refine ⟨fun config payloads outcomes e hrun o ho => ?_, fun calls hcalls => ⟨fun t₁ t₂ h₀ h₁₂ => ?_, ?_⟩⟩
  · obtain ⟨os, e', hos, hlen, hall⟩ := ImpairmentEngine.processAll_spec payloads (.new config)
    rw [hrun] at hos
    cases hos
    obtain ⟨n, hn, rfl⟩ := List.getElem_of_mem ho
    exact (hall n payloads[n] outcomes[n] (List.getElem?_eq_getElem _) (List.getElem?_eq_getElem hn)).distinctCopies
  · obtain ⟨first, s₁, second, s₂, whole, s', hp₁, hp₂, hp, happ, hperm, -⟩ :=
      popReady_twice (distinct_pending hcalls) h₀ h₁₂
    exact ⟨first, s₁, second, s₂, whole, s', hp₁, hp₂, hp, happ, hperm⟩
  · intro now items s' hpop
    rcases popReady_cases (run calls).scheduler now with ⟨e, he⟩ | ⟨t, items', s'', rfl, h0, hok, hpops⟩
    · rw [he] at hpop; cases hpop
    · rw [hok] at hpop
      cases hpop
      have hdistinct : Distinct items :=
        (List.pairwise_append.mp ((distinct_pending hcalls).of_perm hpops.perm.symm)).1
      exact (popReady_sorted h0 hok).imp₂ (fun d d' hle hne => d.order_lt_of_key_le hle hne) hdistinct

/-! ### The next deadline -/

/-- There is no deadline exactly when every pending datagram is held. -/
theorem nextDeadlineNs_eq_none {s : DatagramScheduler} :
    s.nextDeadlineNs = none ↔ ∀ d ∈ s.pending.toList, s.eligible d = false := by
  rw [nextDeadlineNs, List.min?_eq_none_iff, List.map_eq_nil_iff, List.filter_eq_nil_iff]
  simp only [Bool.not_eq_true]

theorem nextDeadlineNs_eq_none_of_released {s : DatagramScheduler} (h : s.holdsReleased = true) :
    s.nextDeadlineNs = none ↔ s.pendingCount = 0 := by
  rw [nextDeadlineNs_eq_none, pendingCount, List.length_eq_zero_iff, List.eq_nil_iff_forall_not_mem]
  simp [eligible, h]

/-- The datagrams whose hold is over and that are not due, the earliest of which is the next
deadline after a `pop_ready`. -/
def upcoming (s : DatagramScheduler) (nowNs : Int) : List ScheduledDatagram :=
  s.pending.toList.filter fun d => s.eligible d && decide (nowNs < d.dueAtNs)

theorem min?_of_perm {l l' : List Int} (h : l.Perm l') : l.min? = l'.min? := by
  cases hm : l.min? with
  | none =>
    rw [List.min?_eq_none_iff] at hm
    subst hm
    rw [← h.nil_eq]
    rfl
  | some a =>
    obtain ⟨ha, hle⟩ := List.min?_eq_some_iff.mp hm
    exact (List.min?_eq_some_iff.mpr ⟨h.mem_iff.mp ha, fun b hb => hle b (h.mem_iff.mpr hb)⟩).symm

theorem Pops.nextDeadlineNs {s s' : DatagramScheduler} {nowNs : Int} {items : List ScheduledDatagram}
    (h : Pops s s' nowNs items) :
    s'.nextDeadlineNs = ((s.upcoming nowNs).map ScheduledDatagram.dueAtNs).min? := by
  have hp := (h.perm_ready.2.filter s.eligible).map ScheduledDatagram.dueAtNs
  rw [DatagramScheduler.nextDeadlineNs, h.eligible_eq, min?_of_perm hp, List.filter_filter]
  refine congrArg (fun l : List ScheduledDatagram => (l.map ScheduledDatagram.dueAtNs).min?) ?_
  refine List.filter_congr fun d _ => ?_
  by_cases hlt : nowNs < d.dueAtNs
  · simp [DatagramScheduler.ready, hlt, not_le.mpr hlt]
  · rw [DatagramScheduler.ready, decide_eq_true (not_lt.mp hlt), decide_eq_false hlt]
    cases s.eligible d <;> rfl

/-- After a `pop_ready` the next deadline is in the future. -/
theorem Pops.lt_nextDeadlineNs {s s' : DatagramScheduler} {nowNs : Int} {items : List ScheduledDatagram}
    (h : Pops s s' nowNs items) {deadline : Int} (hd : s'.nextDeadlineNs = some deadline) : nowNs < deadline := by
  rw [h.nextDeadlineNs] at hd
  obtain ⟨d, hmem, rfl⟩ := List.mem_map.mp (List.min?_mem hd)
  have := (List.mem_filter.mp hmem).2
  simp only [Bool.and_eq_true, decide_eq_true_eq] at this
  exact this.2

end DatagramScheduler

end OrbitOps.Link
