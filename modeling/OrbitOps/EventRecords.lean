import OrbitOps.AlarmEvents
import OrbitOps.Link.Events
import OrbitOps.Py.Records

/-!
# Event records

Decoding an event record loses and changes nothing: the record of the decoded event is the one that
was read, up to the order of its keys. The typed models inside an event (run metadata, counters,
transition attributes) only check their attributes and give them back as they are.
-/

namespace OrbitOps
open Py

namespace Attributes

/-- Attributes with known keys are known by their values. -/
theorem eq_of_get {a b : Attributes} {keys : List String} (ha : hasKeys keys a.dict.items = true)
    (hb : hasKeys keys b.dict.items = true) (hs : keys.Pairwise (· < ·)) (h : ∀ k ∈ keys, a.get k = b.get k) :
    a = b := by
  refine ext (Dict.ext ?_)
  rw [a.dict.items_of_hasKeys ha hs .none, b.dict.items_of_hasKeys hb hs .none]
  exact List.map_congr_left fun k hk => congrArg (Prod.mk k) (h k hk)

/-- The attributes that a list of items with distinct keys builds, as a JSON value. -/
theorem toJson_ofItems {l : List (String × Scalar)} {h : ∀ kv ∈ l, ValidItem kv} (hd : (l.map Prod.fst).Nodup) :
    (ofItems l h).toJson = (scalarObj l).sortKeys := by
  have hitems : (ofItems l h).dict.items = sortItems l := Dict.items_ofItems hd
  rw [toJson, hitems, scalarObj, Json.sortKeys_obj_eq, Json.sortItems_map, List.map_map]
  exact congrArg Json.obj (List.map_congr_left fun kv _ => congrArg (Prod.mk kv.1) (Json.sortKeys_toJson kv.2).symm)

end Attributes

theorem toJson_of_validateAttributes {j : Json} {a : Attributes} (hd : j.DistinctKeys)
    (h : validateAttributes j = .ok a) : a.toJson = j.sortKeys := by
  obtain ⟨l, hl, rfl, rfl⟩ := validateAttributes_eq_ok.mp h
  refine Attributes.toJson_ofItems ?_
  have hkeys := Json.DistinctKeys.keys hd
  rwa [List.map_map] at hkeys

theorem toJson_injective {v w : Scalar} (h : v.toJson = w.toJson) : v = w := by
  have heq := Json.scalar?_toJson v
  rw [h, Json.scalar?_toJson w] at heq
  exact (Option.some.inj heq).symm

/-- A checked text or number of an attribute. -/
theorem get_of_validateNonEmptyString {name : String} {v : Scalar} {t : VisibleText}
    (h : validateNonEmptyString name v.toJson = .ok t) : v = .str t.text :=
  toJson_injective (validateNonEmptyString_eq_ok.mp h)

theorem get_of_validateNonNegativeInt {name : String} {v : Scalar} {n : Nat}
    (h : validateNonNegativeInt name v.toJson = .ok n) : v = .int n :=
  toJson_injective (validateNonNegativeInt_eq_ok.mp h)

/-! ### The typed attributes of alarm events -/

theorem AlarmRunMetadata.toAttributes_of_fromAttributes {a : Attributes} {m : AlarmRunMetadata}
    (h : fromAttributes a.toJson = .ok m) : m.toAttributes = a := by
  rw [fromAttributes, validateAttributes_toJson] at h
  obtain ⟨validated, hv, h⟩ := except_bind_eq_ok.mp h
  cases hv
  split_ifs at h with hkeys
  obtain ⟨name, hname, h⟩ := except_bind_eq_ok.mp h
  obtain ⟨reference, href, h⟩ := except_bind_eq_ok.mp h
  obtain ⟨fingerprint, hfp, h⟩ := except_bind_eq_ok.mp h
  obtain ⟨version, hver, h⟩ := except_bind_eq_ok.mp h
  have hm : m.policyName = name ∧ m.policyReference = reference ∧ m.policySchemaVersion = version ∧
      m.policyFingerprint = fingerprint.text := by
    simp only [new, validateNonEmptyString_text, validateNonNegativeInt_nat, bind, Except.bind] at h
    split_ifs at h
    cases h
    exact ⟨rfl, rfl, rfl, rfl⟩
  refine Attributes.eq_of_get ?_ hkeys (by decide) fun k hk => ?_
  · rw [items_toAttributes]; rfl
  · rw [Attributes.get, Dict.get?, items_toAttributes]
    fin_cases hk
    · rw [get_of_validateNonEmptyString hfp, ← hm.2.2.2]; rfl
    · rw [get_of_validateNonEmptyString hname, ← hm.1]; rfl
    · rw [get_of_validateNonEmptyString href, ← hm.2.1]; rfl
    · rw [get_of_validateNonNegativeInt hver, ← hm.2.2.1]; rfl

theorem AlarmRunStatistics.toAttributes_of_fromAttributes {a : Attributes} {s : AlarmRunStatistics}
    (h : fromAttributes a.toJson = .ok s) : s.toAttributes = a := by
  rw [fromAttributes, validateAttributes_toJson] at h
  obtain ⟨validated, hv, h⟩ := except_bind_eq_ok.mp h
  cases hv
  split_ifs at h with hkeys
  obtain ⟨raised, hraised, h⟩ := except_bind_eq_ok.mp h
  obtain ⟨updated, hupdated, h⟩ := except_bind_eq_ok.mp h
  obtain ⟨cleared, hcleared, h⟩ := except_bind_eq_ok.mp h
  obtain ⟨total, htotal, h⟩ := except_bind_eq_ok.mp h
  dsimp only at h
  split_ifs at h with hsum
  cases h
  -- the total that is recomputed is the one that was read
  rw [not_not.mp hsum] at htotal
  refine Attributes.eq_of_get ?_ hkeys (by decide) fun k hk => ?_
  · rw [items_toAttributes]; rfl
  · rw [Attributes.get, Dict.get?, items_toAttributes]
    fin_cases hk
    · rw [get_of_validateNonNegativeInt hcleared]; rfl
    · rw [get_of_validateNonNegativeInt hraised]; rfl
    · rw [get_of_validateNonNegativeInt htotal]; rfl
    · rw [get_of_validateNonNegativeInt hupdated]; rfl

theorem AlarmSeverity.value_of_ofValue {s : String} {severity : AlarmSeverity} (h : ofValue s = .ok severity) :
    severity.value = s := by
  unfold ofValue at h
  split_ifs at h with hwarning hcritical
  · cases h; exact hwarning.symm
  · cases h; exact hcritical.symm

theorem AlarmTransitionAttributes.eq_of_validateJsonScalar {name : String} {v : Scalar}
    {w : { v : Scalar // isObserved v = true }} (h : validateJsonScalar name v = .ok w) : w.1 = v := by
  unfold validateJsonScalar at h
  split at h
  · cases h
  · split_ifs at h
    cases h
    rfl

theorem AlarmTransitionAttributes.toAttributes_of_fromAttributes {a : Attributes} {t : AlarmTransitionAttributes}
    (h : fromAttributes a.toJson = .ok t) : t.toAttributes = a := by
  rw [fromAttributes, validateAttributes_toJson] at h
  obtain ⟨validated, hv, h⟩ := except_bind_eq_ok.mp h
  cases hv
  split_ifs at h with hkeys
  obtain ⟨identity, hidentity, h⟩ := except_bind_eq_ok.mp h
  obtain ⟨code, hcode, h⟩ := except_bind_eq_ok.mp h
  obtain ⟨message, hmessage, h⟩ := except_bind_eq_ok.mp h
  obtain ⟨severityValue, hvalue, h⟩ := except_bind_eq_ok.mp h
  obtain ⟨severity, hseverity, h⟩ := except_bind_eq_ok.mp h
  obtain ⟨observed, hobserved, h⟩ := except_bind_eq_ok.mp h
  obtain ⟨threshold, hthreshold, h⟩ := except_bind_eq_ok.mp h
  split_ifs at h
  cases h
  refine Attributes.eq_of_get ?_ hkeys (by decide) fun k hk => ?_
  · rw [items_toAttributes]; rfl
  · rw [Attributes.get, Dict.get?, items_toAttributes]
    fin_cases hk
    · rw [get_of_validateNonEmptyString hidentity]; rfl
    · rw [get_of_validateNonEmptyString hcode]; rfl
    · rw [get_of_validateNonEmptyString hmessage]; rfl
    · exact eq_of_validateJsonScalar hobserved
    · rw [get_of_validateNonEmptyString hvalue, ← AlarmSeverity.value_of_ofValue hseverity]; rfl
    · exact eq_of_validateJsonScalar hthreshold

/-! ### Alarm events -/

theorem AlarmEventType.value_of_ofValue {s : String} {t : AlarmEventType} (h : ofValue s = .ok t) : t.value = s := by
  unfold ofValue at h
  split at h
  · rename_i heq
    cases h
    have hvalue := List.find?_some heq
    exact beq_iff_eq.mp hvalue
  · cases h

namespace AlarmEvent

/-- An event of any type keeps the attributes that it is given. -/
theorem attributes_of_parts {t : AlarmEventType} {packetSequence : Json} {a : Attributes} {r : Option Nat × Attributes}
    (h : parts t packetSequence a.toJson = .ok r) : r.2 = a := by
  have htransition : (transitionParts packetSequence a.toJson).map (fun p => (some p.1, p.2.toAttributes)) = .ok r →
      r.2 = a := by
    intro h
    rcases hp : transitionParts packetSequence a.toJson with err | ⟨n, attributes⟩
    · rw [hp] at h; cases h
    · rw [hp] at h
      cases h
      exact AlarmTransitionAttributes.toAttributes_of_fromAttributes (transitionParts_eq_ok.mp hp).2.2
  cases t with
  | RUN_METADATA =>
    simp only [parts] at h
    split_ifs at h
    rcases hm : AlarmRunMetadata.fromAttributes a.toJson with err | m
    · rw [hm] at h; cases h
    · rw [hm] at h
      cases h
      exact AlarmRunMetadata.toAttributes_of_fromAttributes hm
  | RUN_SUMMARY =>
    simp only [parts] at h
    split_ifs at h
    rcases hs : AlarmRunStatistics.fromAttributes a.toJson with err | s
    · rw [hs] at h; cases h
    · rw [hs] at h
      cases h
      exact AlarmRunStatistics.toAttributes_of_fromAttributes hs
  | ALARM_RAISED => exact htransition h
  | ALARM_UPDATED => exact htransition h
  | ALARM_CLEARED => exact htransition h

theorem packetSequence_of_parts {t : AlarmEventType} {sequence : Option Nat} {attributes : Json}
    {r : Option Nat × Attributes} (h : parts t (optionalInt sequence).toJson attributes = .ok r) : r.1 = sequence := by
  have hnull (hn : (optionalInt sequence).toJson.isNull = true) : sequence = none := by
    cases sequence with
    | none => rfl
    | some n => cases hn
  have htransition : (transitionParts (optionalInt sequence).toJson attributes).map
      (fun p => (some p.1, p.2.toAttributes)) = .ok r → r.1 = sequence := by
    intro h
    rcases hp : transitionParts (optionalInt sequence).toJson attributes with err | ⟨n, t⟩
    · rw [hp] at h; cases h
    · rw [hp] at h
      cases h
      have hn : optionalInt sequence = .int n := toJson_injective (transitionParts_eq_ok.mp hp).1
      cases sequence with
      | none => cases hn
      | some k => exact congrArg some (Int.natCast_inj.mp (Scalar.int.inj hn)).symm
  cases t with
  | RUN_METADATA =>
    simp only [parts] at h
    split_ifs at h with hn
    rcases hm : AlarmRunMetadata.fromAttributes attributes with err | m
    · rw [hm] at h; cases h
    · rw [hm] at h; cases h; exact (hnull hn).symm
  | RUN_SUMMARY =>
    simp only [parts] at h
    split_ifs at h with hn
    rcases hs : AlarmRunStatistics.fromAttributes attributes with err | s
    · rw [hs] at h; cases h
    · rw [hs] at h; cases h; exact (hnull hn).symm
  | ALARM_RAISED => exact htransition h
  | ALARM_UPDATED => exact htransition h
  | ALARM_CLEARED => exact htransition h

/-- The record of a decoded event is the one that was read. -/
theorem toDict_of_fromDict {d : Json} {e : AlarmEvent} (hd : d.DistinctKeys) (h : fromDict d = .ok e) :
    e.toDict = d.sortKeys := by
  cases d with
  | obj items =>
    rw [fromDict] at h
    split_ifs at h with hkeys
    rcases htype : getKey items "event_type" with _ | _ | _ | _ | eventType | _ | _ <;>
      simp only [htype, reduceCtorEq] at h
    rcases hsession : getKey items "session_id" with _ | _ | _ | _ | sessionId | _ | _ <;>
      simp only [hsession, reduceCtorEq] at h
    obtain ⟨sequence, hsequence, h⟩ := except_bind_eq_ok.mp h
    have hnew := reraise_eq_ok.mp h
    obtain ⟨index, hindex, h⟩ := except_bind_eq_ok.mp hnew
    obtain ⟨elapsed, helapsed, h⟩ := except_bind_eq_ok.mp h
    obtain ⟨t, ht, h⟩ := except_bind_eq_ok.mp h
    obtain ⟨attributes, hattributes, h⟩ := except_bind_eq_ok.mp h
    obtain ⟨version, hversion, h⟩ := except_bind_eq_ok.mp h
    obtain ⟨hid, hi, hn, rfl, hv, hparts⟩ := new_eq_ok.mp h
    have hattr : e.attributes = attributes := attributes_of_parts hparts
    have hseq : e.packetSequence = sequence := packetSequence_of_parts hparts
    have hjson : e.attributes.toJson = (getKey items "attributes").sortKeys := by
      rw [hattr]
      exact toJson_of_validateAttributes (hd.getKey "attributes") hattributes
    rw [Json.sortKeys_record hkeys (by decide) hd.keys, toDict, toItems, hjson]
    simp only [recordKeys, List.map_cons, List.map_nil, htype, hsession, validateNonNegativeInt_eq_ok.mp hindex,
      validateNonNegativeInt_eq_ok.mp helapsed, validateNonNegativeInt_eq_ok.mp hversion,
      validateOptionalNonNegativeInt_eq_ok.mp hsequence, ← hseq, ← hi, ← hn, hv, schemaVersion, hid,
      AlarmEventType.value_of_ofValue ht, Json.sortKeys_toJson, Json.sortKeys]
  | _ => cases h

end AlarmEvent

/-! ### Link events -/

namespace Link

theorem LinkRunMetadata.eq_of_requireVersion {j : Json} {r : { n : Option Nat // n.isSome = !j.isNull ∧ ∀ k ∈ n, 0 < k }}
    (h : requireVersion j = .ok r) : j = (optionalInt r.1).toJson := by
  cases j with
  | null => cases h; rfl
  | int n =>
    simp only [requireVersion] at h
    split_ifs at h with hpos
    cases h
    exact congrArg Json.int (Int.toNat_of_nonneg hpos.le).symm
  | _ => cases h

theorem LinkRunMetadata.fields_of_new {fingerprint : String} {name reference version : Json} {m : LinkRunMetadata}
    (h : new (.str fingerprint) name reference version = .ok m) : m.configurationFingerprint = fingerprint ∧
      name = (optionalText m.profileName).toJson ∧ reference = (optionalText m.profileReference).toJson ∧
      version = (optionalInt m.profileSchemaVersion).toJson := by
  simp only [new] at h
  split_ifs at h with hfp
  obtain ⟨n, hn, h⟩ := except_bind_eq_ok.mp h
  obtain ⟨r, hr, h⟩ := except_bind_eq_ok.mp h
  split_ifs at h with ht
  obtain ⟨v, hv, h⟩ := except_bind_eq_ok.mp h
  cases h
  exact ⟨rfl, validateOptionalNonEmptyString_eq_ok.mp hn, validateOptionalNonEmptyString_eq_ok.mp hr, eq_of_requireVersion hv⟩

theorem LinkRunMetadata.toAttributes_of_fromAttributes {a : Attributes} {m : LinkRunMetadata}
    (h : fromAttributes a.toJson = .ok m) : m.toAttributes = a := by
  rw [fromAttributes, validateAttributes_toJson] at h
  obtain ⟨validated, hv, h⟩ := except_bind_eq_ok.mp h
  cases hv
  split_ifs at h with hkeys
  rcases hfp : a.get "configuration_fingerprint" with _ | _ | _ | _ | fingerprint <;>
    simp only [hfp, reduceCtorEq] at h
  split_ifs at h with hint
  obtain ⟨name, hname, h⟩ := except_bind_eq_ok.mp h
  obtain ⟨reference, href, h⟩ := except_bind_eq_ok.mp h
  obtain ⟨hm, hmname, hmref, hmver⟩ := fields_of_new h
  refine Attributes.eq_of_get ?_ hkeys (by decide) fun k hk => ?_
  · rw [items_toAttributes]; rfl
  · rw [get_toAttributes]
    fin_cases hk
    · rw [hfp, ← hm]; rfl
    · rw [toJson_injective (validateOptionalNonEmptyString_eq_ok.mp hname), toJson_injective hmname]; rfl
    · rw [toJson_injective (validateOptionalNonEmptyString_eq_ok.mp href), toJson_injective hmref]; rfl
    · rw [toJson_injective hmver]; rfl

namespace LinkEvent

/-- An event of any type keeps the attributes that it is given. -/
theorem attributes_of_eventAttributes {t : LinkEventType} {version : Nat} {packetIndex : Option Nat} {a b : Attributes}
    (h : ∃ hb, eventAttributes t version packetIndex a.toJson = .ok ⟨b, hb⟩) : b = a := by
  by_cases ht : t = .RUN_METADATA
  · obtain ⟨hb, h⟩ := h
    simp only [eventAttributes, dif_pos ht] at h
    split_ifs at h
    rcases hm : LinkRunMetadata.fromAttributes a.toJson with err | m
    · rw [hm] at h; cases h
    · rw [hm] at h
      cases h
      exact LinkRunMetadata.toAttributes_of_fromAttributes hm
  · have hval := validateAttributes_of_eventAttributes ht h
    rw [validateAttributes_toJson] at hval
    exact (Except.ok.inj hval).symm

/-- The record of a decoded event is the one that was read. -/
theorem toDict_of_fromDict {d : Json} {e : LinkEvent} (hd : d.DistinctKeys) (h : fromDict d = .ok e) :
    e.toDict = d.sortKeys := by
  cases d with
  | obj items =>
    rw [fromDict] at h
    split_ifs at h with hkeys
    rcases hsession : getKey items "session_id" with _ | _ | _ | _ | sessionId | _ | _ <;>
      simp only [hsession, reduceCtorEq] at h
    rcases htype : getKey items "event_type" with _ | _ | _ | _ | eventType | _ | _ <;>
      simp only [htype, reduceCtorEq] at h
    obtain ⟨packetIndex, hpacket, h⟩ := except_bind_eq_ok.mp h
    have hnew := reraise_eq_ok.mp h
    obtain ⟨index, hindex, h⟩ := except_bind_eq_ok.mp hnew
    obtain ⟨elapsed, helapsed, h⟩ := except_bind_eq_ok.mp h
    obtain ⟨t, ht, h⟩ := except_bind_eq_ok.mp h
    obtain ⟨attributes, hattributes, h⟩ := except_bind_eq_ok.mp h
    obtain ⟨version, hversion, h⟩ := except_bind_eq_ok.mp h
    obtain ⟨hid, hi, hn, het, hp, hv, ha⟩ := fields_of_new h
    have hattr : e.attributes = attributes := attributes_of_eventAttributes ha
    have hjson : e.attributes.toJson = (getKey items "attributes").sortKeys := by
      rw [hattr]
      exact toJson_of_validateAttributes (hd.getKey "attributes") hattributes
    have hvalue : eventType = e.eventType.value := by
      rw [het]
      exact LinkEventType.value_of_ofValue ht
    rw [Json.sortKeys_record hkeys (by decide) hd.keys, toDict, toItems, hjson]
    simp only [recordKeys, List.map_cons, List.map_nil, htype, hsession, validateNonNegativeInt_eq_ok.mp hindex,
      validateNonNegativeInt_eq_ok.mp helapsed, validateNonNegativeInt_eq_ok.mp hversion,
      validateOptionalNonNegativeInt_eq_ok.mp hpacket, hp, ← hi, ← hn, hv, hid, hvalue, Json.sortKeys_toJson,
      Json.sortKeys]
  | _ => cases h

end LinkEvent

end Link

/-! ### Both directions -/

/-- Encoding and decoding undo one another: a decoded record is encoded as it was read, up to the order of
its keys, and what is not decoded is refused with a `ValueError` or a `TypeError`. -/
structure RoundTrips {E : Type} (toDict : E → Json) (fromDict : Json → Result E) : Prop where
  decode_encode : ∀ e, fromDict (toDict e) = .ok e
  encode_decode : ∀ d e, d.DistinctKeys → fromDict d = .ok e → toDict e = d.sortKeys
  refused : ∀ d err, fromDict d = .error err → err.isTypeOrValueError = true

theorem events_roundTrip : RoundTrips AlarmEvent.toDict AlarmEvent.fromDict ∧
    RoundTrips Link.LinkEvent.toDict Link.LinkEvent.fromDict := by
  constructor
  · exact ⟨AlarmEvent.fromDict_toDict, fun _ _ hd h => AlarmEvent.toDict_of_fromDict hd h,
      fun d => AlarmEvent.catchable_fromDict d⟩
  · exact ⟨Link.LinkEvent.fromDict_toDict, fun _ _ hd h => Link.LinkEvent.toDict_of_fromDict hd h,
      fun d => Link.LinkEvent.catchable_fromDict d⟩

end OrbitOps
