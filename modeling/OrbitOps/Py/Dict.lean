import OrbitOps.Py.Json

/-!
# Dictionaries with text keys

A `Dict` keeps its items in strictly increasing key order, so two dictionaries are equal exactly
when Python's `==` says so, and iterating over `sorted(d)` is reading `items`.
-/

namespace Py

/-- Insertion of an item in key order, replacing the item with the same key. -/
def insertItem {α : Type} (k : String) (v : α) : List (String × α) → List (String × α)
  | [] => [(k, v)]
  | (k', v') :: rest =>
    if k < k' then (k, v) :: (k', v') :: rest
    else if k = k' then (k, v) :: rest
    else (k', v') :: insertItem k v rest

/-- A dictionary with text keys. -/
structure Dict (α : Type) where
  items : List (String × α)
  sorted : items.Pairwise fun a b => a.1 < b.1
deriving DecidableEq

section insertItem
variable {α : Type} {k : String} {v : α} {l : List (String × α)} {kv : String × α}

theorem mem_insertItem (h : kv ∈ insertItem k v l) : kv = (k, v) ∨ kv ∈ l := by
  induction l with
  | nil => exact .inl (by simpa [insertItem] using h)
  | cons head rest ih =>
    obtain ⟨k', v'⟩ := head
    rw [insertItem] at h
    split_ifs at h
    · rcases List.mem_cons.mp h with h | h
      · exact .inl h
      · exact .inr h
    · rcases List.mem_cons.mp h with h | h
      · exact .inl h
      · exact .inr (List.mem_cons_of_mem _ h)
    · rcases List.mem_cons.mp h with h | h
      · exact .inr (h ▸ List.mem_cons_self ..)
      · exact (ih h).imp_right (List.mem_cons_of_mem _)

theorem sorted_insertItem (h : l.Pairwise fun a b => a.1 < b.1) :
    (insertItem k v l).Pairwise fun a b => a.1 < b.1 := by
  induction l with
  | nil => simp [insertItem]
  | cons head rest ih =>
    obtain ⟨k', v'⟩ := head
    obtain ⟨hhead, hrest⟩ := List.pairwise_cons.mp h
    rw [insertItem]
    split_ifs with hlt heq
    · refine List.pairwise_cons.mpr ⟨fun a ha => ?_, h⟩
      rcases List.mem_cons.mp ha with rfl | ha
      · exact hlt
      · exact lt_trans hlt (hhead a ha)
    · exact List.pairwise_cons.mpr ⟨fun a ha => heq ▸ hhead a ha, hrest⟩
    · refine List.pairwise_cons.mpr ⟨fun a ha => ?_, ih hrest⟩
      rcases mem_insertItem ha with rfl | ha
      · exact lt_of_le_of_ne (not_lt.mp hlt) (Ne.symm heq)
      · exact hhead a ha

/-- A key above all others goes to the end. -/
theorem insertItem_of_lt (h : ∀ a ∈ l, a.1 < k) : insertItem k v l = l ++ [(k, v)] := by
  induction l with
  | nil => rfl
  | cons head rest ih =>
    obtain ⟨k', v'⟩ := head
    have hk : k' < k := h (k', v') (List.mem_cons_self ..)
    rw [insertItem, if_neg (lt_asymm hk), if_neg (ne_of_gt hk),
      ih fun a ha => h a (List.mem_cons_of_mem _ ha)]
    rfl

theorem lookupKey_cons (k' : String) : lookupKey ((k, v) :: l) k' = if k = k' then some v else lookupKey l k' := by
  by_cases h : k = k' <;> simp [lookupKey, h]

theorem lookupKey_insertItem (k' : String) : lookupKey (insertItem k v l) k' = if k = k' then some v else lookupKey l k' := by
  induction l with
  | nil => rw [insertItem, lookupKey_cons]
  | cons head rest ih =>
    obtain ⟨k'', v''⟩ := head
    rw [insertItem]
    by_cases hlt : k < k''
    · rw [if_pos hlt, lookupKey_cons]
    · rw [if_neg hlt]
      by_cases heq : k = k''
      · subst heq
        rw [if_pos rfl, lookupKey_cons, lookupKey_cons]
        by_cases hk : k = k' <;> simp [hk]
      · rw [if_neg heq, lookupKey_cons, ih, lookupKey_cons]
        by_cases hk : k = k'
        · subst hk
          rw [if_pos rfl, if_pos rfl, if_neg (Ne.symm heq)]
        · rw [if_neg hk, if_neg hk]

end insertItem

namespace Dict
variable {α : Type}

theorem ext {d d' : Dict α} (h : d.items = d'.items) : d = d' := by
  cases d; cases d'; cases h; rfl

/-- The empty dictionary. -/
def empty : Dict α := ⟨[], List.Pairwise.nil⟩

/-- `d[k] = v`. -/
def insert (d : Dict α) (k : String) (v : α) : Dict α := ⟨insertItem k v d.items, sorted_insertItem d.sorted⟩

/-- The dictionary that a list of assignments builds. -/
def ofItems (l : List (String × α)) : Dict α := l.foldl (fun d kv => d.insert kv.1 kv.2) empty

/-- `d.get(k)`. -/
def get? (d : Dict α) (k : String) : Option α := lookupKey d.items k

theorem mem_foldl_insert {l : List (String × α)} {d : Dict α} {kv : String × α}
    (h : kv ∈ (l.foldl (fun d kv => d.insert kv.1 kv.2) d).items) : kv ∈ l ∨ kv ∈ d.items := by
  induction l generalizing d with
  | nil => exact .inr h
  | cons head rest ih =>
    rcases ih h with h | h
    · exact .inl (List.mem_cons_of_mem _ h)
    · rcases mem_insertItem h with rfl | h
      · exact .inl (List.mem_cons_self ..)
      · exact .inr h

theorem mem_ofItems {l : List (String × α)} {kv : String × α} (h : kv ∈ (ofItems l).items) : kv ∈ l :=
  (mem_foldl_insert h).resolve_right (by simp [empty])

theorem foldl_insert_of_sorted {l : List (String × α)} {d : Dict α}
    (h : (d.items ++ l).Pairwise fun a b => a.1 < b.1) :
    (l.foldl (fun d kv => d.insert kv.1 kv.2) d).items = d.items ++ l := by
  induction l generalizing d with
  | nil => simp
  | cons head rest ih =>
    have hlt : ∀ a ∈ d.items, a.1 < head.1 := fun a ha =>
      (List.pairwise_append.mp h).2.2 a ha head (List.mem_cons_self ..)
    have hins : (d.insert head.1 head.2).items = d.items ++ [head] := insertItem_of_lt hlt
    rw [List.foldl_cons, ih, hins, List.append_assoc]
    · rfl
    · rw [hins, List.append_assoc]; exact h

theorem items_ofItems_of_sorted {l : List (String × α)} (h : l.Pairwise fun a b => a.1 < b.1) :
    (ofItems l).items = l :=
  foldl_insert_of_sorted (d := empty) h

theorem items_ofItems_of_keys {l : List (String × α)} (keys : List String) (hk : l.map Prod.fst = keys)
    (h : keys.Pairwise (· < ·)) : (ofItems l).items = l := by
  subst hk
  exact items_ofItems_of_sorted (List.pairwise_map.mp h)

theorem get?_insert (d : Dict α) (k k' : String) (v : α) :
    (d.insert k v).get? k' = if k = k' then some v else d.get? k' := lookupKey_insertItem k'

/-- Of distinct keys every one has its value. -/
theorem get?_ofItems {l : List (String × α)} (h : (l.map Prod.fst).Nodup) {kv : String × α} (hkv : kv ∈ l) :
    (ofItems l).get? kv.1 = some kv.2 := by
  have hfold (l : List (String × α)) (d : Dict α) (h : (l.map Prod.fst).Nodup) :
      (kv ∈ l → (l.foldl (fun d kv => d.insert kv.1 kv.2) d).get? kv.1 = some kv.2) ∧
        (kv.1 ∉ l.map Prod.fst → (l.foldl (fun d kv => d.insert kv.1 kv.2) d).get? kv.1 = d.get? kv.1) := by
    induction l generalizing d with
    | nil => exact ⟨(nomatch ·), fun _ => rfl⟩
    | cons head rest ih =>
      rw [List.map_cons, List.nodup_cons] at h
      obtain ⟨hin, hout⟩ := ih (d.insert head.1 head.2) h.2
      constructor
      · intro hmem
        rcases List.mem_cons.mp hmem with rfl | hmem
        · rw [List.foldl_cons, hout h.1, get?_insert, if_pos rfl]
        · exact hin hmem
      · intro hnot
        rw [List.map_cons, List.mem_cons, not_or] at hnot
        rw [List.foldl_cons, hout hnot.2, get?_insert, if_neg (Ne.symm hnot.1)]
  exact (hfold l empty h).1 hkv

@[simp] theorem ofItems_items (d : Dict α) : ofItems d.items = d :=
  ext (items_ofItems_of_sorted d.sorted)

end Dict

end Py
