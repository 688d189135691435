import OrbitOps.Link.Accounting

/-!
# The waits of the runtime

After the sends the next deadline is in the future, so the timeout of `recvfrom` is positive and at
most the poll interval, whenever the time to that deadline is a float at all (`DeadlineFits`). While
draining there is no deadline exactly when nothing is pending.
-/

namespace OrbitOps.Link
open Py DatagramScheduler

namespace RunState
variable {σ : Type} {S : EventSink σ} {env : Environment} {maxPackets : Option Int} {pollIntervalS : Float64}

/-- The timeout of the next `recvfrom` is positive and at most the poll interval. -/
def Waits (pollIntervalS : Float64) (s : DatagramScheduler) (nowNs : Int) : Prop :=
  ∃ w, receiveTimeout pollIntervalS s nowNs = .ok w ∧ Float64.zero.lt w = true ∧ w.le pollIntervalS = true

/-- The seconds to the earliest datagram that is only waiting for its due time are a float. -/
def DeadlineFits (s : DatagramScheduler) (nowNs : Int) : Prop :=
  ∀ due ∈ ((s.upcoming nowNs).map ScheduledDatagram.dueAtNs).min?,
    (Float64.ofQuotient? (due - nowNs) 1000000000).isSome = true

theorem requirePollInterval_eq_ok {p p' : Float64} (h : requirePollInterval p = .ok p') :
    p' = p ∧ p.isFinite = true ∧ Float64.zero.lt p = true := by
  unfold requirePollInterval at h
  split_ifs at h with hfin hrange
  exact ⟨(Except.ok.inj h).symm, by simpa using hfin, hrange.1⟩

/-- The timeout after a `pop_ready` is positive and at most the poll interval exactly when the time
to the next deadline fits a float; otherwise computing it raises. -/
theorem waits_iff {s s' : DatagramScheduler} {nowNs : Int} {items : List ScheduledDatagram}
    (h : Pops s s' nowNs items) (hpoll : requirePollInterval pollIntervalS = .ok pollIntervalS) :
    Waits pollIntervalS s' nowNs ↔ DeadlineFits s nowNs := by
  obtain ⟨-, -, hpos⟩ := requirePollInterval_eq_ok hpoll
  unfold Waits DeadlineFits receiveTimeout
  rw [← h.nextDeadlineNs]
  cases hd : s'.nextDeadlineNs with
  | none =>
    refine iff_of_true ⟨pollIntervalS, rfl, hpos, Float64.le_self_of_lt hpos⟩ ?_
    rintro _ ⟨⟩
  | some deadline =>
    have hlt := h.lt_nextDeadlineNs hd
    have hmax : max 0 (deadline - nowNs) = deadline - nowNs := max_eq_right (by omega)
    simp only [clampWait, hmax, Option.mem_def, Option.some.injEq, forall_eq']
    cases hq : Float64.ofQuotient? (deadline - nowNs) 1000000000 with
    | none => simp
    | some remaining =>
      have hnano : 1000000000 < 2 ^ 1000 :=
        (by norm_num : 1000000000 < 2 ^ 30).trans_le (Nat.pow_le_pow_right (by norm_num) (by norm_num))
      have hrem := Float64.zero_lt_of_ofQuotient? (by omega) (by norm_num) hnano hq
      obtain ⟨hw, hle⟩ := Float64.pyMin_pos hpos hrem
      exact iff_of_true ⟨_, rfl, hw, hle⟩ rfl

/-- After a `pop_ready` in any reachable state the next deadline is in the future; there is none
exactly when every pending datagram is held and, once the holds are released, exactly when nothing
is pending, so a run that leaves its loop while draining leaves no datagram behind; and the timeout is
positive and at most the poll interval exactly when the time to the next deadline fits a float. -/
theorem popReady_waits {config : LinkConfig} {sessionId : String} {metadata : LinkRunMetadata} {sink : σ}
    {s₀ : RunState σ} (hstart : start S env maxPackets config sessionId metadata sink = .ok s₀)
    (h0 : S.recorded sink = []) (hpoll : requirePollInterval pollIntervalS = .ok pollIntervalS) :
    (∀ (calls : List Call) (nowNs : Int), 0 ≤ nowNs → ∃ items s',
      popReady (.int nowNs) (DatagramScheduler.run calls).scheduler = (.ok items, s') ∧
      (∀ deadline, s'.nextDeadlineNs = some deadline → nowNs < deadline) ∧
      (Waits pollIntervalS s' nowNs ↔ DeadlineFits (DatagramScheduler.run calls).scheduler nowNs)) ∧
    (∀ s : DatagramScheduler, (s.nextDeadlineNs = none ↔ ∀ d ∈ s.pending.toList, s.eligible d = false) ∧
      (s.holdsReleased = true → (s.nextDeadlineNs = none ↔ s.pendingCount = 0))) ∧
    ∀ n flow s, iterations S env pollIntervalS maxPackets s₀ n = .left flow s → flow ≠ .stopped →
      s.scheduler.pendingCount = 0 := by
  refine ⟨fun calls nowNs hnow => ?_, fun s => ⟨nextDeadlineNs_eq_none, nextDeadlineNs_eq_none_of_released⟩, ?_⟩
  · obtain ⟨items, s', hpop, hpops⟩ := popReady_spec (DatagramScheduler.run calls).scheduler hnow
    exact ⟨items, s', hpop, fun deadline hd => hpops.lt_nextDeadlineNs hd, waits_iff hpops hpoll⟩
  · intro n flow s hn hflow
    have hacc : (iterations S env pollIntervalS maxPackets s₀ n).Accounted S env maxPackets :=
      accounted_iterations (accounts_start hstart h0) n
    rw [hn] at hacc
    exact hacc.2 hflow

/-- The run of the four packets drains after five deliveries. -/
theorem popReady_waits_busy : ∃ s₀ s, busyStart LinkEventStream.listSink .busy = .ok s₀ ∧
    busyRun LinkEventStream.listSink s₀ 9 = .left .drained s ∧ s.scheduler.pendingCount = 0 ∧
    s.eventStream.statistics.deliveriesForwarded = 5 ∧
    ∀ (calls : List Call) (nowNs : Int), 0 ≤ nowNs → ∃ items s',
      popReady (.int nowNs) (DatagramScheduler.run calls).scheduler = (.ok items, s') ∧
      (∀ deadline, s'.nextDeadlineNs = some deadline → nowNs < deadline) ∧
      (Waits defaultPollIntervalS s' nowNs ↔ DeadlineFits (DatagramScheduler.run calls).scheduler nowNs) := by
  have hpoll : requirePollInterval defaultPollIntervalS = .ok defaultPollIntervalS := by decide +kernel
  obtain ⟨s₀, s, hstart, hleft, hseen⟩ := exists_busy LinkEventStream.listSink .busy
    (fun s => s.eventStream.statistics.deliveriesForwarded) .drained 5 (by decide +kernel)
  have h := popReady_waits hstart rfl hpoll
  exact ⟨s₀, s, hstart, hleft, h.2.2 9 .drained s hleft (by decide), hseen, h.1⟩

/-- The one packet of an engine with the long latency makes the timeout raise. -/
theorem not_waits_longLatency : ∃ outcome engine items s',
    ImpairmentEngine.process [1, 2] (.new longLatencyConfig) = (.ok outcome, engine) ∧
    popReady (.int 0) (DatagramScheduler.run [.enqueue outcome (.int 0)]).scheduler = (.ok items, s') ∧
    receiveTimeout defaultPollIntervalS s' 0 = .error (overflowError "integer division result too large for a float") ∧
    ¬Waits defaultPollIntervalS s' 0 := by
  obtain ⟨outcome, engine, hout, -⟩ := ImpairmentEngine.process_spec [1, 2] (.new longLatencyConfig)
  obtain ⟨items, s', hpop, -⟩ := popReady_spec (DatagramScheduler.run [.enqueue outcome (.int 0)]).scheduler le_rfl
  have hcheck : ((ImpairmentEngine.process [1, 2] (.new longLatencyConfig)).1.toOption.map fun o => receiveTimeout
      defaultPollIntervalS (popReady (.int 0) (DatagramScheduler.run [.enqueue o (.int 0)]).scheduler).2 0) =
      some (.error (overflowError "integer division result too large for a float")) := by decide +kernel
  rw [hout] at hcheck
  replace hcheck := Option.some.inj hcheck
  simp only [hpop] at hcheck
  refine ⟨outcome, engine, items, s', hout, hpop, hcheck, ?_⟩
  rintro ⟨w, hw, -⟩
  rw [hcheck] at hw
  cases hw

end RunState

end OrbitOps.Link
