import OrbitOps.Py.Dict
import OrbitOps.Py.JsonText

/-!
# Objects as records

A decoded document has no key twice in an object (`Json.DistinctKeys`). Up to the order of its keys
such an object is its keys with their values, so what a decoder reads by key is all there is.
-/

namespace Py

/-! ### Items with distinct keys -/

section items
variable {α : Type} {items l : List (String × α)} {keys : List String} {k : String} {v : α}

theorem nodup_of_nodup_keys (h : (items.map Prod.fst).Nodup) : items.Nodup := List.Nodup.of_map _ h

theorem eq_of_mem_of_key {a b : String × α} (h : (items.map Prod.fst).Nodup) (ha : a ∈ items) (hb : b ∈ items)
    (hkey : a.1 = b.1) : a = b :=
  List.inj_on_of_nodup_map h ha hb hkey

theorem mem_of_lookupKey (h : lookupKey items k = some v) : (k, v) ∈ items := by
  obtain ⟨kv, hfind, rfl⟩ := Option.map_eq_some_iff.mp h
  have hk : kv.1 = k := by simpa using List.find?_some hfind
  subst hk
  exact List.mem_of_find?_eq_some hfind

theorem lookupKey_eq_some_iff (h : (items.map Prod.fst).Nodup) : lookupKey items k = some v ↔ (k, v) ∈ items := by
  refine ⟨mem_of_lookupKey, fun hmem => ?_⟩
  cases hl : lookupKey items k with
  | none =>
    rw [lookupKey, Option.map_eq_none_iff, List.find?_eq_none] at hl
    exact absurd (beq_self_eq_true k) (hl (k, v) hmem)
  | some w =>
    have heq : (k, w) = (k, v) := eq_of_mem_of_key h (mem_of_lookupKey hl) hmem rfl
    exact congrArg some (Prod.ext_iff.mp heq).2

/-- Sorting by distinct keys has one result. -/
theorem sortItems_eq_of_perm (hperm : items.Perm l) (hl : l.Pairwise fun a b => a.1 < b.1) : sortItems items = l := by
  have hsorted : (sortItems items).Pairwise fun a b => a.1 ≤ b.1 :=
    List.pairwise_insertionSort (fun a b : String × α => a.1 ≤ b.1) items
  have hnodup : (l.map Prod.fst).Nodup := (List.pairwise_map.mpr hl).imp fun h => ne_of_lt h
  have hperm' : (sortItems items).Perm l := (List.perm_insertionSort _ items).trans hperm
  refine hperm'.eq_of_pairwise ?_ hsorted (hl.imp fun h => h.le)
  intro a b ha hb hab hba
  exact eq_of_mem_of_key hnodup (hperm'.mem_iff.mp ha) hb (le_antisymm hab hba)

theorem mem_keys_of_hasKeys (h : hasKeys keys items = true) {kv : String × α} (hkv : kv ∈ items) : kv.1 ∈ keys := by
  rw [hasKeys, Bool.and_eq_true, List.all_eq_true, List.all_eq_true] at h
  exact List.contains_iff_mem.mp (h.2 kv hkv)

/-- The order of the expected keys does not matter. -/
theorem hasKeys_of_perm {keys' : List String} (h : keys.Perm keys') : hasKeys keys items = hasKeys keys' items := by
  rw [hasKeys, hasKeys, Bool.eq_iff_iff]
  simp only [Bool.and_eq_true, List.all_eq_true, List.contains_iff_mem, h.mem_iff]

theorem exists_of_hasKeys (h : hasKeys keys items = true) (hk : k ∈ keys) : ∃ v, lookupKey items k = some v := by
  rw [hasKeys, Bool.and_eq_true, List.all_eq_true, List.all_eq_true] at h
  obtain ⟨kv, hkv, heq⟩ := List.any_eq_true.mp (h.1 k hk)
  cases hl : items.find? (fun kv => kv.1 == k) with
  | none => exact absurd heq (List.find?_eq_none.mp hl kv hkv)
  | some found => exact ⟨found.2, by rw [lookupKey, hl]; rfl⟩

theorem sortItems_of_hasKeys (h : hasKeys keys items = true) (hs : keys.Pairwise (· < ·))
    (hd : (items.map Prod.fst).Nodup) (default : α) :
    sortItems items = keys.map fun k => (k, (lookupKey items k).getD default) := by
  have hnodup : keys.Nodup := hs.imp fun h => ne_of_lt h
  refine sortItems_eq_of_perm ?_ (List.pairwise_map.mpr hs)
  refine (List.perm_ext_iff_of_nodup (nodup_of_nodup_keys hd)
    (hnodup.map fun _ _ heq => (Prod.ext_iff.mp heq).1)).mpr fun kv => ?_
  obtain ⟨k, v⟩ := kv
  rw [← lookupKey_eq_some_iff hd, List.mem_map]
  constructor
  · intro hl
    exact ⟨k, mem_keys_of_hasKeys h (mem_of_lookupKey hl), by rw [hl]; rfl⟩
  · rintro ⟨k', hk', heq⟩
    obtain ⟨w, hw⟩ := exists_of_hasKeys h hk'
    rw [hw] at heq
    cases heq
    exact hw

end items

namespace Dict
variable {α : Type} {keys : List String}

theorem nodup_keys (d : Dict α) : (d.items.map Prod.fst).Nodup := (List.pairwise_map.mpr d.sorted).imp fun h => ne_of_lt h

/-- The items of a dictionary whose keys are known. -/
theorem items_of_hasKeys (d : Dict α) (h : hasKeys keys d.items = true) (hs : keys.Pairwise (· < ·)) (default : α) :
    d.items = keys.map fun k => (k, (d.get? k).getD default) := by
  rw [← sortItems_eq_of_perm (.refl d.items) d.sorted]
  exact sortItems_of_hasKeys h hs d.nodup_keys default

/-- Assignments to distinct keys give their items in the order of the keys. -/
theorem items_ofItems {l : List (String × α)} (h : (l.map Prod.fst).Nodup) : (ofItems l).items = sortItems l := by
  refine (sortItems_eq_of_perm ?_ (ofItems l).sorted).symm
  refine (List.perm_ext_iff_of_nodup (nodup_of_nodup_keys h) (nodup_of_nodup_keys (ofItems l).nodup_keys)).mpr fun kv => ?_
  exact ⟨fun hkv => mem_of_lookupKey (get?_ofItems h hkv), mem_ofItems⟩

end Dict

/-! ### Documents -/

namespace Json

mutual

/-- No object of the value has a key twice. -/
def DistinctKeys : Json → Prop
  | .arr items => DistinctKeysList items
  | .obj items => (items.map Prod.fst).Nodup ∧ DistinctKeysItems items
  | _ => True

def DistinctKeysList : List Json → Prop
  | [] => True
  | v :: rest => v.DistinctKeys ∧ DistinctKeysList rest

def DistinctKeysItems : List (String × Json) → Prop
  | [] => True
  | (_, v) :: rest => v.DistinctKeys ∧ DistinctKeysItems rest

end

variable {items : List (String × Json)}

theorem DistinctKeysItems.of_mem (h : DistinctKeysItems items) {kv : String × Json} (hkv : kv ∈ items) :
    kv.2.DistinctKeys := by
  induction items with
  | nil => cases hkv
  | cons head rest ih =>
    obtain ⟨k, v⟩ := head
    rw [DistinctKeysItems] at h
    rcases List.mem_cons.mp hkv with rfl | hkv
    · exact h.1
    · exact ih h.2 hkv

theorem DistinctKeys.keys (h : (obj items).DistinctKeys) : (items.map Prod.fst).Nodup := by
  rw [DistinctKeys] at h
  exact h.1

/-- The value of a key has no key twice either. -/
theorem DistinctKeys.getKey (h : (obj items).DistinctKeys) (k : String) : (getKey items k).DistinctKeys := by
  rw [DistinctKeys] at h
  rw [Py.getKey]
  cases hl : lookupKey items k with
  | none => simp [DistinctKeys]
  | some v => exact h.2.of_mem (mem_of_lookupKey hl)

/-- An object with distinct keys is its keys and their values. -/
theorem sortKeys_record {keys : List String} (h : hasKeys keys items = true) (hs : keys.Pairwise (· < ·))
    (hd : (items.map Prod.fst).Nodup) :
    (obj items).sortKeys = .obj (keys.map fun k => (k, (Py.getKey items k).sortKeys)) := by
  rw [sortKeys_obj_eq, sortItems_of_hasKeys h hs hd .null, List.map_map]
  rfl

end Json

end Py
