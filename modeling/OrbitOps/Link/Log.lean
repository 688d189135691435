import OrbitOps.Link.Statistics

/-!
# The copies in an event log

The events `DELIVERY_SCHEDULED` and `PACKET_FORWARDED` say which copy of which packet they are about,
the bit flipped in it and its length (`Tag`). `Log es waiting` is the accounting between the two: no
copy is scheduled twice, the forwarded and the waiting copies together are the scheduled ones, and a
copy is forwarded only after it was scheduled.
-/

namespace OrbitOps.Link
open Py

/-- What an event or a pending datagram says about one copy. -/
structure Tag where
  packetIndex : Scalar
  copyIndex : Scalar
  corruptedBit : Scalar
  payloadBytes : Scalar
deriving DecidableEq, Repr

/-- The packet and the copy. -/
def Tag.key (t : Tag) : Scalar × Scalar := (t.packetIndex, t.copyIndex)

def LinkEvent.tag (e : LinkEvent) : Tag where
  packetIndex := optionalInt e.packetIndex
  copyIndex := e.attributes.get "copy_index"
  corruptedBit := e.attributes.get "corrupted_bit"
  payloadBytes := e.attributes.get "payload_bytes"

/-- The tags of the events of one type, in order. -/
def tagsOf (t : LinkEventType) (es : List LinkEvent) : List Tag :=
  (es.filter fun e => e.eventType = t).map LinkEvent.tag

theorem tagsOf_append (t : LinkEventType) (es es' : List LinkEvent) :
    tagsOf t (es ++ es') = tagsOf t es ++ tagsOf t es' := by
  rw [tagsOf, List.filter_append, List.map_append]
  rfl

theorem tagsOf_singleton (t : LinkEventType) (e : LinkEvent) :
    tagsOf t [e] = if e.eventType = t then [e.tag] else [] := by
  by_cases h : e.eventType = t <;> simp [tagsOf, h]

theorem length_tagsOf (t : LinkEventType) (es : List LinkEvent) : (tagsOf t es).length = typeCount t es := by
  rw [tagsOf, List.length_map, typeCount, List.countP_eq_length_filter]

theorem tagsOf_eq_nil {t : LinkEventType} {es : List LinkEvent} (h : ∀ e ∈ es, e.eventType ≠ t) :
    tagsOf t es = [] := by
  rw [tagsOf, List.filter_eq_nil_iff.mpr (by simpa using h), List.map_nil]

theorem mem_tagsOf {t : LinkEventType} {es : List LinkEvent} {x : Tag} :
    x ∈ tagsOf t es ↔ ∃ e ∈ es, e.eventType = t ∧ e.tag = x := by
  simp [tagsOf, and_assoc]

/-- Where keys do not repeat, only one entry has a given key. -/
theorem filter_eq_singleton_of_nodup {α β : Type} [DecidableEq β] {f : α → β} {l : List α} (h : (l.map f).Nodup)
    {x : α} (hx : x ∈ l) : l.filter (fun y => f y = f x) = [x] := by
  induction l with
  | nil => cases hx
  | cons y l ih =>
    rw [List.map_cons, List.nodup_cons] at h
    rcases List.mem_cons.mp hx with rfl | hx
    · have hnil : l.filter (fun y => f y = f x) = [] := by
        simp only [List.filter_eq_nil_iff, decide_eq_true_eq]
        exact fun y hy hk => h.1 (List.mem_map.mpr ⟨y, hy, hk⟩)
      rw [List.filter_cons_of_pos (by simp), hnil]
    · have hne : f y ≠ f x := fun hk => h.1 (List.mem_map.mpr ⟨x, hx, hk.symm⟩)
      rw [List.filter_cons_of_neg (by simpa using hne)]
      exact ih h.2 hx

/-- The event may follow a log: what is forwarded was scheduled. -/
def Caused (es : List LinkEvent) (e : LinkEvent) : Prop :=
  e.eventType = .PACKET_FORWARDED → e.tag ∈ tagsOf .DELIVERY_SCHEDULED es

/-- The accounting of a log whose copies `waiting` are not forwarded yet. -/
structure Log (es : List LinkEvent) (waiting : List Tag) : Prop where
  nodup : ((tagsOf .DELIVERY_SCHEDULED es).map Tag.key).Nodup
  perm : (tagsOf .PACKET_FORWARDED es ++ waiting).Perm (tagsOf .DELIVERY_SCHEDULED es)
  caused : Grows Caused [] es

namespace Log
variable {es es' : List LinkEvent} {waiting waiting' : List Tag} {e : LinkEvent}

theorem of_perm (h : Log es waiting) (hp : waiting'.Perm waiting) : Log es waiting' :=
  ⟨h.nodup, (hp.append_left _).trans h.perm, h.caused⟩

/-- Events that forward nothing follow any log. -/
theorem grows_of_not_forwarded (h : ∀ e ∈ es', e.eventType ≠ .PACKET_FORWARDED) : Grows Caused es es' := by
  induction es' generalizing es with
  | nil => trivial
  | cons e es' ih =>
    exact ⟨fun ht => absurd ht (h e (List.mem_cons_self ..)), ih fun f hf => h f (List.mem_cons_of_mem _ hf)⟩

theorem schedule (h : Log es waiting) (hf : ∀ e ∈ es', e.eventType ≠ .PACKET_FORWARDED)
    (hnodup : ((tagsOf .DELIVERY_SCHEDULED es').map Tag.key).Nodup)
    (hnew : ∀ t ∈ tagsOf .DELIVERY_SCHEDULED es, ∀ t' ∈ tagsOf .DELIVERY_SCHEDULED es', t.key ≠ t'.key) :
    Log (es ++ es') (waiting ++ tagsOf .DELIVERY_SCHEDULED es') := by
  refine ⟨?_, ?_, h.caused.append (grows_of_not_forwarded hf)⟩
  · rw [tagsOf_append, List.map_append, List.nodup_append]
    refine ⟨h.nodup, hnodup, ?_⟩
    simp only [List.mem_map]
    rintro _ ⟨t, ht, rfl⟩ _ ⟨t', ht', rfl⟩
    exact hnew t ht t' ht'
  · rw [tagsOf_append, tagsOf_append, tagsOf_eq_nil hf, List.append_nil, ← List.append_assoc]
    exact h.perm.append_right _

theorem other (h : Log es waiting) (hs : e.eventType ≠ .DELIVERY_SCHEDULED) (hf : e.eventType ≠ .PACKET_FORWARDED) :
    Log (es ++ [e]) waiting := by
  have hnil : tagsOf .DELIVERY_SCHEDULED [e] = [] := by rw [tagsOf_singleton, if_neg hs]
  have hkeep : ∀ f ∈ [e], f.eventType ≠ .PACKET_FORWARDED := by simpa using hf
  have := h.schedule hkeep (by simp [hnil]) (by simp [hnil])
  rwa [hnil, List.append_nil] at this

theorem forward (h : Log es (e.tag :: waiting)) (ht : e.eventType = .PACKET_FORWARDED) :
    Log (es ++ [e]) waiting := by
  have hs : tagsOf .DELIVERY_SCHEDULED [e] = [] := by simp [tagsOf_singleton, ht]
  have hf : tagsOf .PACKET_FORWARDED [e] = [e.tag] := by simp [tagsOf_singleton, ht]
  refine ⟨?_, ?_, h.caused.snoc fun _ => ?_⟩
  · rw [tagsOf_append, hs, List.append_nil]
    exact h.nodup
  · rw [tagsOf_append, tagsOf_append, hs, hf, List.append_nil, List.append_assoc]
    exact h.perm
  · exact h.perm.mem_iff.mp (List.mem_append_right _ (List.mem_cons_self ..))

theorem scheduled_eq (h : Log es waiting) :
    typeCount .DELIVERY_SCHEDULED es = typeCount .PACKET_FORWARDED es + waiting.length := by
  rw [← length_tagsOf, ← length_tagsOf, ← h.perm.length_eq, List.length_append]

/-- A forwarded copy was scheduled exactly once before, and is forwarded only once. -/
theorem forwarded_once (h : Log es waiting) {pre suf : List LinkEvent} (hes : es = pre ++ e :: suf)
    (ht : e.eventType = .PACKET_FORWARDED) :
    (∃ d, pre.filter (fun f => f.eventType = .DELIVERY_SCHEDULED ∧ f.tag.key = e.tag.key) = [d] ∧ d.tag = e.tag) ∧
    ∀ f ∈ pre ++ suf, f.eventType = .PACKET_FORWARDED → f.tag.key ≠ e.tag.key := by
  constructor
  · obtain ⟨d, hd, hdt, htag⟩ := mem_tagsOf.mp (by simpa using h.caused.next_of_eq_append hes ht)
    have hnodup : ((tagsOf .DELIVERY_SCHEDULED pre).map Tag.key).Nodup := by
      have := h.nodup
      rw [hes, tagsOf_append, List.map_append] at this
      exact (List.nodup_append.mp this).1
    rw [tagsOf, List.map_map] at hnodup
    refine ⟨d, ?_, htag⟩
    have hone := filter_eq_singleton_of_nodup hnodup (by simpa using ⟨hd, hdt⟩ : d ∈ pre.filter _)
    rw [List.filter_filter] at hone
    rw [← hone]
    exact List.filter_congr fun f _ => by simp [htag, Bool.and_comm]
  · intro f hf hft hk
    have hnodup : ((tagsOf .PACKET_FORWARDED es).map Tag.key).Nodup := by
      have := (h.perm.map Tag.key).nodup_iff.mpr h.nodup
      rw [List.map_append] at this
      exact (List.nodup_append.mp this).1
    have hone : tagsOf .PACKET_FORWARDED [e] = [e.tag] := by simp [tagsOf_singleton, ht]
    rw [hes, ← List.singleton_append, tagsOf_append, tagsOf_append, hone, List.map_append, List.map_append,
      List.map_singleton] at hnodup
    have hmid := List.nodup_append.mp hnodup
    have hkey : ∀ gs, f ∈ gs → e.tag.key ∈ (tagsOf .PACKET_FORWARDED gs).map Tag.key := fun gs hg =>
      List.mem_map.mpr ⟨f.tag, mem_tagsOf.mpr ⟨f, hg, hft, rfl⟩, hk⟩
    rcases List.mem_append.mp hf with hpre | hsuf
    · exact hmid.2.2 _ (hkey pre hpre) _ (List.mem_append_left _ (List.mem_singleton.mpr rfl)) rfl
    · exact (List.nodup_append.mp hmid.2.1).2.2 _ (List.mem_singleton.mpr rfl) _ (hkey suf hsuf) rfl

end Log

end OrbitOps.Link
