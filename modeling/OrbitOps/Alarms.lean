import Mathlib.Tactic.Linarith
import OrbitOps.AlarmPolicy
import OrbitOps.Protocol
import OrbitOps.Py.Latch

/-!
# The alarm engine

A packet moves a three-state temperature machine and two flags and may emit one transition for each,
after a possible sequence gap. The severity and the flags are latches, so after any packets they are
functions of the history; and each transition says exactly how the state moved, so folding the
emitted transitions gives the state back.
-/

namespace OrbitOps
open Py

inductive AlarmSeverity where
  | WARNING
  | CRITICAL
deriving DecidableEq, Repr

def AlarmSeverity.value : AlarmSeverity → String
  | WARNING => "warning"
  | CRITICAL => "critical"

/-- Lifecycle change emitted by the alarm engine. -/
inductive AlarmTransitionType where
  | RAISED
  | UPDATED
  | CLEARED
deriving DecidableEq, Repr

def AlarmTransitionType.value : AlarmTransitionType → String
  | RAISED => "raised"
  | UPDATED => "updated"
  | CLEARED => "cleared"

inductive AlarmIdentity where
  | sequenceGap
  | temperature
  | battery
  | safeMode
deriving DecidableEq, Repr

namespace AlarmIdentity

def name : AlarmIdentity → String
  | sequenceGap => "sequence-gap"
  | temperature => "temperature"
  | battery => "battery"
  | safeMode => "safe-mode"

/-- The order in which one packet emits. -/
def rank : AlarmIdentity → Nat
  | sequenceGap => 0
  | temperature => 1
  | battery => 2
  | safeMode => 3

end AlarmIdentity

/-- An observed value or a threshold. -/
inductive AlarmValue (α : Type) where
  | none
  | number (x : α)
  | int (n : Int)
  | text (s : String)
deriving DecidableEq, Repr

/-- Immutable state transition emitted for one logical alarm. -/
structure AlarmTransition (α : Type) where
  severity : AlarmSeverity
  code : String
  message : String
  identity : AlarmIdentity
  transition : AlarmTransitionType
  observedValue : AlarmValue α
  threshold : AlarmValue α
deriving DecidableEq, Repr

section
variable {α : Type} [FloatLike α]
open FloatLike

def TelemetryPacket.batteryV {μ : Type} (p : TelemetryPacket μ) : α := scaled p.batteryMv 1000

def TelemetryPacket.temperatureC {μ : Type} (p : TelemetryPacket μ) : α := scaled p.temperatureCentiC 100

variable (α) in
/-- An ordered packet stream's alarm state under a policy. -/
structure AlarmEngine where
  policy : AlarmPolicy α
  lastSequence : Option Int
  temperatureSeverity : Option AlarmSeverity
  batteryActive : Bool
  safeModeActive : Bool

namespace AlarmEngine

def new (policy : AlarmPolicy α) : AlarmEngine α := ⟨policy, none, none, false, false⟩

def reset (e : AlarmEngine α) : AlarmEngine α := new e.policy

/-- Active stateful alarms in presentation order. -/
def activeAlarmIdentities (e : AlarmEngine α) : List AlarmIdentity :=
  (if e.temperatureSeverity.isSome then [.temperature] else []) ++ (if e.batteryActive then [.battery] else []) ++
    (if e.safeModeActive then [.safeMode] else [])

def evaluateSequence (e : AlarmEngine α) (packet : DecodedPacket) : Option (AlarmTransition α) × AlarmEngine α :=
  let expected := e.lastSequence.map fun last => (last + 1) % 2 ^ 32
  let e' := { e with lastSequence := some packet.sequence }
  match expected with
  | none => (none, e')
  | some expected =>
    if !e.policy.sequence.detectGaps || packet.sequence == expected then (none, e')
    else (some {
      severity := .WARNING
      code := "SEQUENCE_GAP"
      message := s!"expected sequence {expected}, received {packet.sequence}"
      identity := .sequenceGap
      transition := .RAISED
      observedValue := .int packet.sequence
      threshold := .int expected }, e')

def nextTemperatureSeverity (policy : TemperatureAlarmPolicy α) (severity : Option AlarmSeverity) (temperatureC : α) :
    Option AlarmSeverity :=
  let warningClearC := sub policy.warningC policy.hysteresisC
  let criticalClearC := sub policy.criticalC policy.hysteresisC
  match severity with
  | none =>
    if le policy.criticalC temperatureC then some .CRITICAL
    else if le policy.warningC temperatureC then some .WARNING
    else none
  | some .WARNING =>
    if le policy.criticalC temperatureC then some .CRITICAL
    -- equality stays active
    else if lt temperatureC warningClearC then none
    else some .WARNING
  | some .CRITICAL =>
    if le criticalClearC temperatureC then some .CRITICAL
    else if le warningClearC temperatureC then some .WARNING
    else none

def temperatureEntryThreshold (e : AlarmEngine α) : AlarmSeverity → α
  | .CRITICAL => e.policy.temperature.criticalC
  | .WARNING => e.policy.temperature.warningC

def temperatureCode : AlarmSeverity → String
  | .CRITICAL => "HIGH_TEMPERATURE"
  | .WARNING => "ELEVATED_TEMPERATURE"

def temperatureTransition (transition : AlarmTransitionType) (severity : AlarmSeverity) (observed threshold : α) :
    AlarmTransition α where
  severity := severity
  code := temperatureCode severity
  message := (if transition = .CLEARED then "temperature recovered to " else "temperature is ") ++ fixed 2 observed ++
    " °C"
  identity := .temperature
  transition := transition
  observedValue := .number observed
  threshold := .number threshold

def evaluateTemperature (e : AlarmEngine α) (packet : DecodedPacket) : Option (AlarmTransition α) × AlarmEngine α :=
  let previous := e.temperatureSeverity
  let observed : α := packet.temperatureC
  let current := nextTemperatureSeverity e.policy.temperature previous observed
  let e' := { e with temperatureSeverity := current }
  if current = previous then (none, e')
  else
    match previous, current with
    | none, some current =>
      (some (temperatureTransition .RAISED current observed (e.temperatureEntryThreshold current)), e')
    | some previous, none =>
      (some (temperatureTransition .CLEARED previous observed
        (sub e.policy.temperature.warningC e.policy.temperature.hysteresisC)), e')
    | some _, some current =>
      let threshold := match current with
        | .CRITICAL => e.policy.temperature.criticalC
        | .WARNING => sub e.policy.temperature.criticalC e.policy.temperature.hysteresisC
      (some (temperatureTransition .UPDATED current observed threshold), e')
    | none, none => (none, e')

def nextBatteryActive (policy : BatteryAlarmPolicy α) (active : Bool) (batteryV : α) : Bool :=
  if active then le batteryV (add policy.criticalV policy.hysteresisV) else le batteryV policy.criticalV

def evaluateBattery (e : AlarmEngine α) (packet : DecodedPacket) : Option (AlarmTransition α) × AlarmEngine α :=
  let policy := e.policy.battery
  let previous := e.batteryActive
  let observed : α := packet.batteryV
  let current := nextBatteryActive policy previous observed
  let e' := { e with batteryActive := current }
  if current = previous then (none, e')
  else (some {
    severity := .CRITICAL
    code := "LOW_BATTERY"
    message := (if current then "battery voltage is " else "battery voltage recovered to ") ++ fixed 3 observed ++ " V"
    identity := .battery
    transition := if current then .RAISED else .CLEARED
    observedValue := .number observed
    threshold := .number (if current then policy.criticalV else add policy.criticalV policy.hysteresisV) }, e')

def nextSafeModeActive (policy : ModeAlarmPolicy) (mode : Mode) : Bool := policy.alarmOnSafe && mode = .SAFE

def evaluateMode (e : AlarmEngine α) (packet : DecodedPacket) : Option (AlarmTransition α) × AlarmEngine α :=
  let current := nextSafeModeActive e.policy.mode packet.mode
  let previous := e.safeModeActive
  let e' := { e with safeModeActive := current }
  if current = previous then (none, e')
  else (some {
    severity := .WARNING
    code := "SAFE_MODE"
    message := if current then "spacecraft reports SAFE mode" else "spacecraft exited SAFE mode"
    identity := .safeMode
    transition := if current then .RAISED else .CLEARED
    observedValue := .text packet.mode.name
    threshold := .none }, e')

/-- Evaluate one packet and emit only lifecycle changes. -/
def evaluate (e : AlarmEngine α) (packet : DecodedPacket) : List (AlarmTransition α) × AlarmEngine α :=
  let (sequence, e) := e.evaluateSequence packet
  let (temperature, e) := e.evaluateTemperature packet
  let (battery, e) := e.evaluateBattery packet
  let (mode, e) := e.evaluateMode packet
  (sequence.toList ++ temperature.toList ++ battery.toList ++ mode.toList, e)

/-- The engine after a packet. -/
def advance (e : AlarmEngine α) (packet : DecodedPacket) : AlarmEngine α := (e.evaluate packet).2

/-- The engine after a stream. -/
def after (policy : AlarmPolicy α) (packets : List DecodedPacket) : AlarmEngine α := packets.foldl advance (new policy)

/-- The transitions emitted for a stream. -/
def transitions : AlarmEngine α → List DecodedPacket → List (AlarmTransition α)
  | _, [] => []
  | e, packet :: packets => (e.evaluate packet).1 ++ transitions (e.advance packet) packets

/-! ### One packet -/

@[simp] theorem evaluateSequence_snd (e : AlarmEngine α) (p : DecodedPacket) :
    (e.evaluateSequence p).2 = { e with lastSequence := some p.sequence } := by
  unfold evaluateSequence
  cases e.lastSequence with
  | none => rfl
  | some last => dsimp only [Option.map_some]; split_ifs <;> rfl

@[simp] theorem evaluateTemperature_snd (e : AlarmEngine α) (p : DecodedPacket) :
    (e.evaluateTemperature p).2 = { e with
      temperatureSeverity := nextTemperatureSeverity e.policy.temperature e.temperatureSeverity p.temperatureC } := by
  unfold evaluateTemperature
  dsimp only
  split_ifs
  · rfl
  · split <;> rfl

@[simp] theorem evaluateBattery_snd (e : AlarmEngine α) (p : DecodedPacket) :
    (e.evaluateBattery p).2 =
      { e with batteryActive := nextBatteryActive e.policy.battery e.batteryActive p.batteryV } := by
  unfold evaluateBattery
  dsimp only
  split_ifs <;> rfl

@[simp] theorem evaluateMode_snd (e : AlarmEngine α) (p : DecodedPacket) :
    (e.evaluateMode p).2 = { e with safeModeActive := nextSafeModeActive e.policy.mode p.mode } := by
  unfold evaluateMode
  dsimp only
  split_ifs <;> rfl

/-- Each part of the state moves by itself. -/
theorem advance_eq (e : AlarmEngine α) (p : DecodedPacket) : e.advance p = {
    policy := e.policy
    lastSequence := some p.sequence
    temperatureSeverity := nextTemperatureSeverity e.policy.temperature e.temperatureSeverity p.temperatureC
    batteryActive := nextBatteryActive e.policy.battery e.batteryActive p.batteryV
    safeModeActive := nextSafeModeActive e.policy.mode p.mode } := by
  simp [advance, evaluate]

/-! ### Streams -/

theorem after_concat (policy : AlarmPolicy α) (ps : List DecodedPacket) (p : DecodedPacket) :
    after policy (ps ++ [p]) = (after policy ps).advance p := by
  rw [after, List.foldl_append]; rfl

theorem transitions_append (e : AlarmEngine α) (ps qs : List DecodedPacket) :
    e.transitions (ps ++ qs) = e.transitions ps ++ (ps.foldl advance e).transitions qs := by
  induction ps generalizing e with
  | nil => rfl
  | cons p ps ih => rw [List.cons_append, transitions, transitions, ih, List.append_assoc]; rfl

@[simp] theorem policy_after (policy : AlarmPolicy α) (ps : List DecodedPacket) : (after policy ps).policy = policy := by
  induction ps using List.reverseRecOn with
  | nil => rfl
  | append_singleton ps p ih => rw [after_concat, advance_eq, ih]

/-- The severity is a function of the temperatures and their policy. -/
theorem temperatureSeverity_after (policy : AlarmPolicy α) (ps : List DecodedPacket) :
    (after policy ps).temperatureSeverity =
      (ps.map fun p => (p.temperatureC : α)).foldl (nextTemperatureSeverity policy.temperature) none := by
  induction ps using List.reverseRecOn with
  | nil => rfl
  | append_singleton ps p ih => rw [after_concat, advance_eq, policy_after, ih, List.map_append, List.foldl_append]; rfl

/-- The battery flag is a function of the voltages and their policy. -/
theorem batteryActive_after (policy : AlarmPolicy α) (ps : List DecodedPacket) : (after policy ps).batteryActive =
    (ps.map fun p => (p.batteryV : α)).foldl (nextBatteryActive policy.battery) false := by
  induction ps using List.reverseRecOn with
  | nil => rfl
  | append_singleton ps p ih => rw [after_concat, advance_eq, policy_after, ih, List.map_append, List.foldl_append]; rfl

/-- The safe-mode flag is a function of the last mode and its policy. -/
theorem safeModeActive_after (policy : AlarmPolicy α) (ps : List DecodedPacket) : (after policy ps).safeModeActive =
    (ps.map TelemetryPacket.mode).getLast?.any (nextSafeModeActive policy.mode) := by
  rcases List.eq_nil_or_concat ps with rfl | ⟨ps, p, rfl⟩
  · rfl
  · rw [List.concat_eq_append, after_concat, advance_eq, policy_after, List.map_append, List.map_singleton,
      List.getLast?_concat]
    rfl

@[simp] theorem temperature_mem_active {e : AlarmEngine α} :
    AlarmIdentity.temperature ∈ e.activeAlarmIdentities ↔ e.temperatureSeverity.isSome = true := by
  unfold activeAlarmIdentities
  split_ifs <;> simp [*]

@[simp] theorem battery_mem_active {e : AlarmEngine α} :
    AlarmIdentity.battery ∈ e.activeAlarmIdentities ↔ e.batteryActive = true := by
  unfold activeAlarmIdentities
  split_ifs <;> simp [*]

@[simp] theorem safeMode_mem_active {e : AlarmEngine α} :
    AlarmIdentity.safeMode ∈ e.activeAlarmIdentities ↔ e.safeModeActive = true := by
  unfold activeAlarmIdentities
  split_ifs <;> simp [*]

/-! ### State and history -/

section Rational

theorem nextTemperatureSeverity_isSome (policy : TemperatureAlarmPolicy ℚ) (s : Option AlarmSeverity) (t : ℚ) :
    (nextTemperatureSeverity policy s t).isSome = true ↔
      policy.warningC ≤ t ∨ (s.isSome = true ∧ policy.warningC - policy.hysteresisC ≤ t) := by
  obtain ⟨w, c, h, -, hord, hhyst, -, hclear⟩ := policy
  simp only [FloatLike.le_rat, FloatLike.lt_rat, FloatLike.sub_rat, FloatLike.zero_rat, decide_eq_false_iff_not,
    not_le, not_lt] at hord hhyst hclear
  unfold nextTemperatureSeverity
  rcases s with _ | _ | _ <;>
    simp only [FloatLike.le_rat, FloatLike.lt_rat, FloatLike.sub_rat, decide_eq_true_eq] <;>
    split_ifs <;> simp <;> grind

theorem nextTemperatureSeverity_critical (policy : TemperatureAlarmPolicy ℚ) (s : Option AlarmSeverity) (t : ℚ) :
    nextTemperatureSeverity policy s t = some .CRITICAL ↔
      policy.criticalC ≤ t ∨ (s = some .CRITICAL ∧ policy.criticalC - policy.hysteresisC ≤ t) := by
  obtain ⟨w, c, h, -, hord, hhyst, -, hclear⟩ := policy
  simp only [FloatLike.le_rat, FloatLike.lt_rat, FloatLike.sub_rat, FloatLike.zero_rat, decide_eq_false_iff_not,
    not_le, not_lt] at hord hhyst hclear
  unfold nextTemperatureSeverity
  rcases s with _ | _ | _ <;>
    simp only [FloatLike.le_rat, FloatLike.lt_rat, FloatLike.sub_rat, decide_eq_true_eq] <;>
    split_ifs <;> simp <;> grind

theorem nextBatteryActive_iff (policy : BatteryAlarmPolicy ℚ) (b : Bool) (v : ℚ) :
    nextBatteryActive policy b v = true ↔
      v ≤ policy.criticalV ∨ (b = true ∧ v ≤ policy.criticalV + policy.hysteresisV) := by
  have hhyst := policy.hysteresis_nonneg
  simp only [FloatLike.lt_rat, FloatLike.zero_rat, decide_eq_false_iff_not, not_lt] at hhyst
  cases b <;> simp [nextBatteryActive]
  intro hv
  linarith

/-- After any packets the alarms are those of the history: each is a latch over one measurement and
one section of the policy, and depends on nothing else. -/
theorem alarms_are_history (policy : AlarmPolicy ℚ) (ps : List DecodedPacket) :
    (.temperature ∈ (after policy ps).activeAlarmIdentities ↔
      Latched (fun p => policy.temperature.warningC ≤ p.temperatureC)
        (fun p => policy.temperature.warningC - policy.temperature.hysteresisC ≤ p.temperatureC) ps) ∧
    ((after policy ps).temperatureSeverity = some .CRITICAL ↔
      Latched (fun p => policy.temperature.criticalC ≤ p.temperatureC)
        (fun p => policy.temperature.criticalC - policy.temperature.hysteresisC ≤ p.temperatureC) ps) ∧
    ((after policy ps).temperatureSeverity = some .WARNING ↔
      .temperature ∈ (after policy ps).activeAlarmIdentities ∧
        (after policy ps).temperatureSeverity ≠ some .CRITICAL) ∧
    (.battery ∈ (after policy ps).activeAlarmIdentities ↔
      Latched (fun p => p.batteryV ≤ policy.battery.criticalV)
        (fun p => p.batteryV ≤ policy.battery.criticalV + policy.battery.hysteresisV) ps) ∧
    (.safeMode ∈ (after policy ps).activeAlarmIdentities ↔
      policy.mode.alarmOnSafe = true ∧ ∃ p ∈ ps.getLast?, p.mode = .SAFE) ∧
    ∀ (policy' : AlarmPolicy ℚ) (ps' : List DecodedPacket),
      (policy'.temperature = policy.temperature →
        (ps'.map fun p => (p.temperatureC : ℚ)) = ps.map (fun p => (p.temperatureC : ℚ)) →
        (after policy' ps').temperatureSeverity = (after policy ps).temperatureSeverity) ∧
      (policy'.battery = policy.battery →
        (ps'.map fun p => (p.batteryV : ℚ)) = ps.map (fun p => (p.batteryV : ℚ)) →
        (after policy' ps').batteryActive = (after policy ps).batteryActive) ∧
      (policy'.mode = policy.mode → (ps'.getLast?.map TelemetryPacket.mode) = ps.getLast?.map TelemetryPacket.mode →
        (after policy' ps').safeModeActive = (after policy ps).safeModeActive) := by
  refine ⟨?_, ?_, ?_, ?_, ?_, fun policy' ps' => ⟨fun hp hm => ?_, fun hp hm => ?_, fun hp hm => ?_⟩⟩
  · rw [temperature_mem_active, temperatureSeverity_after]
    exact (latched_iff_of_step (fun s : Option AlarmSeverity => s.isSome = true) (by simp)
      (nextTemperatureSeverity_isSome policy.temperature) _).trans (latched_map _ ps)
  · rw [temperatureSeverity_after]
    exact (latched_iff_of_step (fun s : Option AlarmSeverity => s = some .CRITICAL) (by simp)
      (nextTemperatureSeverity_critical policy.temperature) _).trans (latched_map _ ps)
  · rw [temperature_mem_active]
    rcases (after policy ps).temperatureSeverity with _ | _ | _ <;> simp
  · rw [battery_mem_active, batteryActive_after]
    exact (latched_iff_of_step (fun b : Bool => b = true) (by simp) (nextBatteryActive_iff policy.battery) _).trans
      (latched_map _ ps)
  · rw [safeMode_mem_active, safeModeActive_after, List.getLast?_map]
    cases ps.getLast? with
    | none => simp
    | some p => simp [nextSafeModeActive]
  · rw [temperatureSeverity_after, temperatureSeverity_after, hp, hm]
  · rw [batteryActive_after, batteryActive_after, hp, hm]
  · rw [safeModeActive_after, safeModeActive_after, List.getLast?_map, List.getLast?_map, hp, hm]

end Rational

end AlarmEngine

end

/-! ### Transitions as a change log -/

namespace AlarmTransition
variable {α : Type}

/-- Which alarms are active, and how severely. -/
abbrev View := AlarmIdentity → Option AlarmSeverity

/-- A transition read as a change of the view; sequence gaps change nothing. -/
def apply (v : View) (t : AlarmTransition α) : View :=
  if t.identity = .sequenceGap then v
  else
    match t.transition with
    | .RAISED | .UPDATED => Function.update v t.identity (some t.severity)
    | .CLEARED => Function.update v t.identity none

/-- The view that a log of transitions gives. -/
def replay (log : List (AlarmTransition α)) : View := log.foldl apply fun _ => none

/-- A transition that may happen in a view. -/
def Legal (v : View) (t : AlarmTransition α) : Prop :=
  match t.transition with
  | .RAISED => v t.identity = none
  | .UPDATED => t.identity = .temperature ∧ ∃ s, v .temperature = some s ∧ s ≠ t.severity
  | .CLEARED => (v t.identity).isSome = true

/-- Transitions that are legal one after the other and lead from one view to another. -/
structure Emits (v v' : View) (ts : List (AlarmTransition α)) : Prop where
  folds : ts.foldl apply v = v'
  legal : ∀ pre t post, ts = pre ++ t :: post → Legal (pre.foldl apply v) t

theorem Emits.nil (v : View) : @Emits α v v [] := ⟨rfl, fun pre t post h => by simp at h⟩

theorem Emits.append {v v' v'' : View} {ts us : List (AlarmTransition α)} (h : Emits v v' ts) (h' : Emits v' v'' us) :
    Emits v v'' (ts ++ us) := by
  refine ⟨by rw [List.foldl_append, h.folds, h'.folds], fun pre t post heq => ?_⟩
  rcases List.append_eq_append_iff.mp heq with ⟨mid, rfl, hus⟩ | ⟨mid, hts, hpost⟩
  · rw [List.foldl_append, h.folds]
    exact h'.legal mid t post hus
  · cases mid with
    | nil =>
      rw [List.append_nil] at hts
      subst hts
      rw [h.folds]
      exact h'.legal [] t post hpost.symm
    | cons u mid =>
      cases hpost
      exact h.legal pre t mid hts

/-- A transition says how one alarm moved. -/
def Moves (i : AlarmIdentity) (old new : Option AlarmSeverity) (t : AlarmTransition α) : Prop :=
  t.identity = i ∧
    match t.transition with
    | .RAISED => old = none ∧ new = some t.severity
    | .UPDATED => i = .temperature ∧ (∃ s, old = some s ∧ s ≠ t.severity) ∧ new = some t.severity
    | .CLEARED => old.isSome = true ∧ new = none

theorem Moves.legal {i : AlarmIdentity} {v : View} {new : Option AlarmSeverity} {t : AlarmTransition α}
    (h : Moves i (v i) new t) : Legal v t := by
  obtain ⟨rfl, h⟩ := h
  unfold Legal
  cases ht : t.transition with
  | RAISED => rw [ht] at h; exact h.1
  | UPDATED =>
    rw [ht] at h
    obtain ⟨hid, hold, -⟩ := h
    rw [hid] at hold
    exact ⟨hid, hold⟩
  | CLEARED => rw [ht] at h; exact h.1

theorem Moves.apply_eq {i : AlarmIdentity} {v : View} {new : Option AlarmSeverity} {t : AlarmTransition α}
    (h : Moves i (v i) new t) (hi : i ≠ .sequenceGap) : apply v t = Function.update v i new := by
  obtain ⟨rfl, h⟩ := h
  rw [apply, if_neg hi]
  cases ht : t.transition with
  | RAISED => rw [ht] at h; rw [h.2]
  | UPDATED => rw [ht] at h; rw [h.2.2]
  | CLEARED => rw [ht] at h; rw [h.2]

theorem Moves.ne {i : AlarmIdentity} {old new : Option AlarmSeverity} {t : AlarmTransition α} (h : Moves i old new t) :
    new ≠ old := by
  obtain ⟨-, h⟩ := h
  rintro rfl
  cases ht : t.transition with
  | RAISED =>
    rw [ht] at h
    exact absurd (h.1.symm.trans h.2) (by simp)
  | UPDATED =>
    rw [ht] at h
    obtain ⟨-, ⟨s, hs, hne⟩, hnew⟩ := h
    exact hne (Option.some.inj (hs.symm.trans hnew))
  | CLEARED =>
    rw [ht] at h
    rw [h.2] at h
    exact absurd h.1 (by simp)

/-- One alarm's transition, when there is one exactly if the alarm moved. -/
theorem emits_moves {i : AlarmIdentity} (hi : i ≠ .sequenceGap) {v : View} {new : Option AlarmSeverity}
    {o : Option (AlarmTransition α)} (hnone : o = none → new = v i) (hsome : ∀ t ∈ o, Moves i (v i) new t) :
    Emits v (Function.update v i new) o.toList := by
  cases o with
  | none => rw [hnone rfl, Function.update_eq_self]; exact .nil v
  | some t =>
    refine ⟨(hsome t rfl).apply_eq hi, fun pre u post h => ?_⟩
    rcases pre with _ | ⟨w, pre⟩
    · cases h; exact (hsome _ rfl).legal
    · have := congrArg List.length h
      simp at this

/-- A flag that stands for an alarm of one severity. -/
def flag (severity : AlarmSeverity) (active : Bool) : Option AlarmSeverity := if active then some severity else none

theorem moves_flag {i : AlarmIdentity} {severity : AlarmSeverity} {old new : Bool} (h : new ≠ old)
    {t : AlarmTransition α} (hid : t.identity = i) (hsev : t.severity = severity)
    (ht : t.transition = if new then .RAISED else .CLEARED) : Moves i (flag severity old) (flag severity new) t := by
  refine ⟨hid, ?_⟩
  cases old <;> cases new
  · exact absurd rfl h
  · rw [ht]; exact ⟨rfl, by rw [hsev]; rfl⟩
  · rw [ht]; exact ⟨rfl, rfl⟩
  · exact absurd rfl h

end AlarmTransition

namespace AlarmEngine
open AlarmTransition

section
variable {α : Type} [FloatLike α]

def view (e : AlarmEngine α) : View
  | .temperature => e.temperatureSeverity
  | .battery => flag .CRITICAL e.batteryActive
  | .safeMode => flag .WARNING e.safeModeActive
  | .sequenceGap => none

/-- The active identities are those of the view, in presentation order. -/
theorem activeAlarmIdentities_eq_filter (e : AlarmEngine α) : e.activeAlarmIdentities =
    [AlarmIdentity.temperature, .battery, .safeMode].filter fun i => (e.view i).isSome := by
  unfold activeAlarmIdentities
  cases ht : e.temperatureSeverity <;> cases hb : e.batteryActive <;> cases hm : e.safeModeActive <;>
    simp [view, flag, ht, hb, hm]

theorem mem_evaluateSequence {e : AlarmEngine α} {p : DecodedPacket} {t : AlarmTransition α}
    (ht : t ∈ (e.evaluateSequence p).1) : t.identity = .sequenceGap ∧ t.transition = .RAISED := by
  unfold evaluateSequence at ht
  cases hlast : e.lastSequence with
  | none => simp [hlast] at ht
  | some last =>
    rw [hlast] at ht
    dsimp only [Option.map_some] at ht
    split_ifs at ht
    · cases ht
    · cases ht; exact ⟨rfl, rfl⟩

theorem evaluateTemperature_moves (e : AlarmEngine α) (p : DecodedPacket) :
    ((e.evaluateTemperature p).1 = none → (e.advance p).temperatureSeverity = e.temperatureSeverity) ∧
      ∀ t ∈ (e.evaluateTemperature p).1,
        Moves .temperature e.temperatureSeverity (e.advance p).temperatureSeverity t := by
  rw [advance_eq]
  dsimp only
  unfold evaluateTemperature
  dsimp only
  generalize nextTemperatureSeverity e.policy.temperature e.temperatureSeverity p.temperatureC = s'
  split_ifs with hsame
  · exact ⟨fun _ => hsame, fun t ht => by cases ht⟩
  · cases hs : e.temperatureSeverity with
    | none =>
      cases s' with
      | none => exact absurd hs.symm hsame
      | some s' =>
        refine ⟨(nomatch ·), fun t ht => ?_⟩
        cases ht
        exact ⟨rfl, rfl, rfl⟩
    | some s =>
      cases s' with
      | none =>
        refine ⟨(nomatch ·), fun t ht => ?_⟩
        cases ht
        exact ⟨rfl, rfl, rfl⟩
      | some s' =>
        refine ⟨(nomatch ·), fun t ht => ?_⟩
        cases ht
        exact ⟨rfl, rfl, ⟨s, rfl, fun h => hsame (by rw [hs]; exact congrArg some h.symm)⟩, rfl⟩

theorem evaluateBattery_moves (e : AlarmEngine α) (p : DecodedPacket) :
    ((e.evaluateBattery p).1 = none → flag .CRITICAL (e.advance p).batteryActive = flag .CRITICAL e.batteryActive) ∧
      ∀ t ∈ (e.evaluateBattery p).1,
        Moves .battery (flag .CRITICAL e.batteryActive) (flag .CRITICAL (e.advance p).batteryActive) t := by
  rw [advance_eq]
  dsimp only
  unfold evaluateBattery
  dsimp only
  generalize nextBatteryActive e.policy.battery e.batteryActive p.batteryV = b'
  split_ifs with hsame
  · exact ⟨fun _ => by rw [hsame], fun t ht => by cases ht⟩
  all_goals
    refine ⟨(nomatch ·), fun t ht => ?_⟩
    cases ht
    exact moves_flag hsame rfl rfl (by simp [*])

theorem evaluateMode_moves (e : AlarmEngine α) (p : DecodedPacket) :
    ((e.evaluateMode p).1 = none → flag .WARNING (e.advance p).safeModeActive = flag .WARNING e.safeModeActive) ∧
      ∀ t ∈ (e.evaluateMode p).1,
        Moves .safeMode (flag .WARNING e.safeModeActive) (flag .WARNING (e.advance p).safeModeActive) t := by
  rw [advance_eq]
  dsimp only
  unfold evaluateMode
  dsimp only
  generalize nextSafeModeActive e.policy.mode p.mode = b'
  split_ifs with hsame
  · exact ⟨fun _ => by rw [hsame], fun t ht => by cases ht⟩
  all_goals
    refine ⟨(nomatch ·), fun t ht => ?_⟩
    cases ht
    exact moves_flag hsame rfl rfl (by simp [*])

theorem evaluateSequence_fst_congr {e e' : AlarmEngine α} (hp : e'.policy.sequence = e.policy.sequence)
    (hs : e'.lastSequence = e.lastSequence) (p : DecodedPacket) :
    (e'.evaluateSequence p).1 = (e.evaluateSequence p).1 := by
  unfold evaluateSequence
  rw [hp, hs]
  dsimp only
  split
  · rfl
  · split_ifs <;> rfl

theorem evaluateTemperature_fst_congr {e e' : AlarmEngine α} (hp : e'.policy.temperature = e.policy.temperature)
    (hs : e'.temperatureSeverity = e.temperatureSeverity) (p : DecodedPacket) :
    (e'.evaluateTemperature p).1 = (e.evaluateTemperature p).1 := by
  unfold evaluateTemperature temperatureEntryThreshold
  rw [hp, hs]
  dsimp only
  split_ifs
  · rfl
  · split <;> rfl

theorem evaluateBattery_fst_congr {e e' : AlarmEngine α} (hp : e'.policy.battery = e.policy.battery)
    (hb : e'.batteryActive = e.batteryActive) (p : DecodedPacket) :
    (e'.evaluateBattery p).1 = (e.evaluateBattery p).1 := by
  unfold evaluateBattery
  rw [hp, hb]
  dsimp only
  split_ifs <;> rfl

theorem evaluateMode_fst_congr {e e' : AlarmEngine α} (hp : e'.policy.mode = e.policy.mode)
    (hm : e'.safeModeActive = e.safeModeActive) (p : DecodedPacket) :
    (e'.evaluateMode p).1 = (e.evaluateMode p).1 := by
  unfold evaluateMode
  rw [hp, hm]
  dsimp only
  split_ifs <;> rfl

/-- No part reads what an earlier part of the same packet wrote. -/
theorem evaluate_fst (e : AlarmEngine α) (p : DecodedPacket) : (e.evaluate p).1 =
    (e.evaluateSequence p).1.toList ++ (e.evaluateTemperature p).1.toList ++ (e.evaluateBattery p).1.toList ++
      (e.evaluateMode p).1.toList := by
  unfold evaluate
  dsimp only
  rw [evaluateMode_fst_congr (e := e) (by simp) (by simp), evaluateBattery_fst_congr (e := e) (by simp) (by simp),
    evaluateTemperature_fst_congr (e := e) (by simp) (by simp)]

/-- The transitions of a packet are legal and lead to its view. -/
theorem evaluate_emits (e : AlarmEngine α) (p : DecodedPacket) : Emits e.view (e.advance p).view (e.evaluate p).1 := by
  have hgap : Emits e.view e.view (e.evaluateSequence p).1.toList := by
    cases hs : (e.evaluateSequence p).1 with
    | none => exact .nil _
    | some t =>
      obtain ⟨hid, htr⟩ := mem_evaluateSequence (Option.mem_def.mpr hs)
      refine ⟨if_pos hid, fun pre u post h => ?_⟩
      rcases pre with _ | ⟨w, pre⟩
      · cases h
        rw [List.foldl_nil, Legal, htr, hid]
        rfl
      · have := congrArg List.length h
        simp at this
  have htemperature := evaluateTemperature_moves e p
  have hbattery := evaluateBattery_moves e p
  have hmode := evaluateMode_moves e p
  have hview : (e.advance p).view = Function.update (Function.update (Function.update e.view
      .temperature (e.advance p).temperatureSeverity) .battery (flag .CRITICAL (e.advance p).batteryActive))
      .safeMode (flag .WARNING (e.advance p).safeModeActive) := by
    funext i
    cases i <;> rfl
  rw [evaluate_fst, hview]
  exact ((hgap.append (emits_moves (by decide) htemperature.1 htemperature.2)).append
    (emits_moves (by decide) hbattery.1 hbattery.2)).append (emits_moves (by decide) hmode.1 hmode.2)

/-- A packet emits at most once for an identity, in the order of the identities. -/
theorem evaluate_ordered (e : AlarmEngine α) (p : DecodedPacket) :
    ((e.evaluate p).1.map fun t => t.identity.rank).Pairwise (· < ·) := by
  have hpart : ∀ {o : Option (AlarmTransition α)} {i : AlarmIdentity}, (∀ t ∈ o, t.identity = i) →
      o.toList.map (fun t => t.identity.rank) = if o.isSome then [i.rank] else [] := by
    intro o i h
    cases o with
    | none => rfl
    | some t => rw [← h t rfl]; rfl
  rw [evaluate_fst, List.map_append, List.map_append, List.map_append,
    hpart fun t ht => (mem_evaluateSequence ht).1, hpart fun t ht => ((evaluateTemperature_moves e p).2 t ht).1,
    hpart fun t ht => ((evaluateBattery_moves e p).2 t ht).1, hpart fun t ht => ((evaluateMode_moves e p).2 t ht).1]
  split_ifs <;> decide

/-- A packet that changes no alarm emits at most a sequence gap. -/
theorem evaluate_quiet (e : AlarmEngine α) (p : DecodedPacket) (h : (e.advance p).view = e.view) :
    ∀ t ∈ (e.evaluate p).1, t.identity = .sequenceGap := by
  intro t ht
  rw [evaluate_fst] at ht
  simp only [List.mem_append, Option.mem_toList] at ht
  rcases ht with ((ht | ht) | ht) | ht
  · exact (mem_evaluateSequence ht).1
  · exact absurd (congrFun h .temperature) ((evaluateTemperature_moves e p).2 t ht).ne
  · exact absurd (congrFun h .battery) ((evaluateBattery_moves e p).2 t ht).ne
  · exact absurd (congrFun h .safeMode) ((evaluateMode_moves e p).2 t ht).ne

theorem transitions_concat (policy : AlarmPolicy α) (ps : List DecodedPacket) (p : DecodedPacket) :
    (new policy).transitions (ps ++ [p]) = (new policy).transitions ps ++ ((after policy ps).evaluate p).1 := by
  rw [transitions_append, transitions, transitions, List.append_nil]
  rfl

/-- The transitions of a stream are legal and lead from the empty view to the final one. -/
theorem transitions_emits (policy : AlarmPolicy α) (ps : List DecodedPacket) :
    Emits (fun _ => none) (after policy ps).view ((new policy).transitions ps) := by
  induction ps using List.reverseRecOn with
  | nil =>
    have h : (after policy []).view = fun _ => none := by funext i; cases i <;> rfl
    rw [h]
    exact .nil _
  | append_singleton ps p ih =>
    rw [transitions_concat, after_concat]
    exact ih.append (evaluate_emits _ p)

/-- The emitted transitions are a legal change log of the alarms. -/
theorem transitions_are_change_log (policy : AlarmPolicy α) (ps : List DecodedPacket) :
    (after policy ps).activeAlarmIdentities = ([.temperature, .battery, .safeMode] : List AlarmIdentity).filter
      (fun i => (replay ((new policy).transitions ps) i).isSome) ∧
    (after policy ps).temperatureSeverity = replay ((new policy).transitions ps) .temperature ∧
    (∀ pre t post, (new policy).transitions ps = pre ++ t :: post → Legal (replay pre) t) ∧
    ∀ p, ∃ ts, (new policy).transitions (ps ++ [p]) = (new policy).transitions ps ++ ts ∧
      (ts.map fun t => t.identity.rank).Pairwise (· < ·) ∧
      ((after policy (ps ++ [p])).activeAlarmIdentities = (after policy ps).activeAlarmIdentities →
        (after policy (ps ++ [p])).temperatureSeverity = (after policy ps).temperatureSeverity →
        ∀ t ∈ ts, t.identity = .sequenceGap) := by
  have hemits := transitions_emits policy ps
  have hview : replay ((new policy).transitions ps) = (after policy ps).view := hemits.folds
  refine ⟨?_, ?_, hemits.legal, fun p => ⟨_, transitions_concat policy ps p, evaluate_ordered _ p, ?_⟩⟩
  · rw [activeAlarmIdentities_eq_filter, hview]
  · rw [hview]; rfl
  · intro hactive hseverity
    rw [after_concat] at hactive hseverity
    refine evaluate_quiet _ p ?_
    have hbattery : ((after policy ps).advance p).batteryActive = true ↔ (after policy ps).batteryActive = true := by
      rw [← battery_mem_active, hactive, battery_mem_active]
    have hmode : ((after policy ps).advance p).safeModeActive = true ↔ (after policy ps).safeModeActive = true := by
      rw [← safeMode_mem_active, hactive, safeMode_mem_active]
    funext i
    cases i with
    | sequenceGap => rfl
    | temperature => exact hseverity
    | battery => exact congrArg (flag .CRITICAL) (Bool.eq_iff_iff.mpr hbattery)
    | safeMode => exact congrArg (flag .WARNING) (Bool.eq_iff_iff.mpr hmode)

end

end AlarmEngine

end OrbitOps
