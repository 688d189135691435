import OrbitOps.Py.JsonScan
import OrbitOps.Py.Records

/-!
# JSON is read back

`Prints` is the concrete syntax, with whitespace where it may stand: a text that it relates to a value is
read as that value. Both layouts of `json.dumps` are of this syntax.
-/

namespace Py
namespace Json

/-! ### Concrete syntax -/

/-- Whitespace. -/
def Gap (g : List Char) : Prop := ∀ c ∈ g, isGapChar c = true

/-- Every scalar but the floats that are no number. -/
def IsNumber : Scalar → Prop
  | .float x => x.isNan = false
  | _ => True

mutual

/-- The texts of a value, with whitespace between their parts. -/
inductive Prints : Json → List Char → Prop where
  | scalar (v : Scalar) (h : IsNumber v) (hw : v.toJson.Writable) : Prints v.toJson v.dumps.toList
  | emptyArr {g : List Char} (hg : Gap g) : Prints (.arr []) ('[' :: (g ++ [']']))
  | arr {vs : List Json} {g cs : List Char} (hg : Gap g) (h : PrintsElements vs cs) : Prints (.arr vs) ('[' :: (g ++ cs))
  | emptyObj {g : List Char} (hg : Gap g) : Prints (.obj []) ('\x7b' :: (g ++ ['\x7d']))
  | obj {kvs : List (String × Json)} {g cs : List Char} (hkeys : (kvs.map Prod.fst).Nodup) (hg : Gap g)
      (h : PrintsMembers kvs cs) : Prints (.obj kvs) ('\x7b' :: (g ++ cs))

/-- The texts of the elements of an array with its closing bracket. -/
inductive PrintsElements : List Json → List Char → Prop where
  | last {v : Json} {cs g : List Char} (h : Prints v cs) (hg : Gap g) : PrintsElements [v] (cs ++ (g ++ [']']))
  | cons {v : Json} {vs : List Json} {cs g g' ds : List Char} (h : Prints v cs) (hg : Gap g) (hg' : Gap g')
      (ht : PrintsElements vs ds) : PrintsElements (v :: vs) (cs ++ (g ++ ',' :: (g' ++ ds)))

/-- The texts of the members of an object with its closing brace. -/
inductive PrintsMembers : List (String × Json) → List Char → Prop where
  | last {k : String} {v : Json} {g₁ g₂ cs g : List Char} (h₁ : Gap g₁) (h₂ : Gap g₂) (h : Prints v cs) (hg : Gap g) :
      PrintsMembers [(k, v)] ((quoteStr k).toList ++ (g₁ ++ ':' :: (g₂ ++ (cs ++ (g ++ ['\x7d'])))))
  | cons {k : String} {v : Json} {kvs : List (String × Json)} {g₁ g₂ cs g g' ds : List Char} (h₁ : Gap g₁) (h₂ : Gap g₂)
      (h : Prints v cs) (hg : Gap g) (hg' : Gap g') (ht : PrintsMembers kvs ds) :
      PrintsMembers ((k, v) :: kvs) ((quoteStr k).toList ++ (g₁ ++ ':' :: (g₂ ++ (cs ++ (g ++ ',' :: (g' ++ ds))))))

end

theorem skipGap_append {g : List Char} (hg : Gap g) {c : Char} (hc : isGapChar c = false) (s : List Char) :
    skipGap (g ++ c :: s) = c :: s := by
  rw [skipGap, List.dropWhile_append_of_pos hg, List.dropWhile_cons_of_neg (by simp [hc])]

theorem numberEnd_cons {c : Char} (h : c ∈ [',', ']', '\x7d']) (s : List Char) : NumberEnd (c :: s) := by
  rintro _ ⟨⟩
  rcases List.mem_cons.mp h with rfl | h
  · decide
  · rcases List.mem_pair.mp h with rfl | rfl <;> decide

theorem numberEnd_of_gap {g : List Char} (hg : Gap g) {s : List Char} (hs : NumberEnd s) : NumberEnd (g ++ s) := by
  cases g with
  | nil => exact hs
  | cons c g =>
    have hc : isGapChar c = true := hg c (List.mem_cons_self ..)
    simp only [isGapChar, Bool.or_eq_true, beq_iff_eq] at hc
    rintro _ ⟨⟩
    rcases hc with ((rfl | rfl) | rfl) | rfl <;> decide

theorem numberEnd_nil : NumberEnd [] := fun _ h => by cases h

theorem numberEnd_gap {g : List Char} (hg : Gap g) {c : Char} (h : c ∈ [',', ']', '\x7d']) (s : List Char) :
    NumberEnd (g ++ c :: s) := numberEnd_of_gap hg (numberEnd_cons h s)

/-! ### The concrete syntax is read -/

/-- The text of a number starts with a digit or with a sign and a digit. -/
def StartsNumber (cs : List Char) : Prop :=
  ∃ (neg : Bool) (c : Char) (rest : List Char), cs = (if neg then ['-'] else []) ++ c :: rest ∧ c.isDigit = true

theorem StartsNumber.append {cs : List Char} (h : StartsNumber cs) (s : List Char) : StartsNumber (cs ++ s) := by
  obtain ⟨neg, c, rest, rfl, hc⟩ := h
  exact ⟨neg, c, rest ++ s, by rw [List.append_assoc, List.cons_append], hc⟩

theorem startsNumber_intText (n : Int) : StartsNumber (intText n).toList := by
  obtain ⟨d, ds, hd⟩ := List.exists_cons_of_ne_nil (show natDigits n.natAbs ≠ [] from Nat.toDigits_ne_nil)
  have hdigit : d.isDigit = true := isDigit_of_mem_natDigits (hd ▸ List.mem_cons_self ..)
  refine ⟨n < 0, d, ds, ?_, hdigit⟩
  rw [intText, String.toList_ofList, hd]
  by_cases hn : n < 0 <;> simp [hn]

theorem startsNumber_repr {x : Float64} (hx : x.isFinite = true) : StartsNumber x.repr.toList := by
  rw [Float64.toList_repr hx]
  by_cases h0 : x.units = 0
  · rw [if_pos h0]
    exact ⟨x.signBit, '0', ['.', '0'], rfl, by decide⟩
  · obtain ⟨c, hc, hdigit⟩ := head?_decimalText (Float64.isDecimal_shortestDecimal hx h0)
    obtain ⟨rest, hrest⟩ := List.head?_eq_some_iff.mp hc
    rw [if_neg h0, hrest]
    exact ⟨x.signBit, c, rest, rfl, hdigit⟩

theorem afterWord_of_ne {word : String} {d c : Char} {ds : List Char} (hw : word.toList = d :: ds) (h : d ≠ c) (cs : List Char) :
    afterWord word (c :: cs) = none := by
  rw [afterWord, hw]
  exact if_neg (by simp [h])

theorem scanAtom_startsNumber {cs : List Char} (h : StartsNumber cs) : scanAtom cs = scanNumber cs := by
  obtain ⟨neg, c, rest, rfl, hc⟩ := h
  cases neg with
  | true =>
    have hI : 'I' ≠ c := by rintro rfl; revert hc; decide
    have hminus : afterWord "-Infinity" ('-' :: c :: rest) = none := if_neg (by simp [hI])
    show scanAtom ('-' :: c :: rest) = _
    rw [scanAtom, afterWord_of_ne rfl (by decide), afterWord_of_ne rfl (by decide), afterWord_of_ne rfl (by decide),
      afterWord_of_ne rfl (by decide), afterWord_of_ne rfl (by decide), hminus]
    rfl
  | false =>
    have hne (d : Char) (hd : d.isDigit = false) : d ≠ c := by
      rintro rfl
      rw [hc] at hd
      cases hd
    show scanAtom (c :: rest) = _
    rw [scanAtom, afterWord_of_ne rfl (hne 'n' rfl), afterWord_of_ne rfl (hne 't' rfl), afterWord_of_ne rfl (hne 'f' rfl),
      afterWord_of_ne rfl (hne 'N' rfl), afterWord_of_ne rfl (hne 'I' rfl), afterWord_of_ne rfl (hne '-' rfl)]
    rfl

theorem scanOnce_startsNumber {cs : List Char} (h : StartsNumber cs) (fuel : Nat) : scanOnce (fuel + 1) cs = scanNumber cs := by
  rw [← scanAtom_startsNumber h]
  obtain ⟨neg, c, rest, rfl, hc⟩ := h
  cases neg with
  | true => exact scanOnce_atom (by decide) fuel _
  | false =>
    refine scanOnce_atom ?_ fuel rest
    simp only [opensNone, Bool.and_eq_true, bne_iff_ne, ne_eq]
    refine ⟨⟨?_, ?_⟩, ?_⟩ <;> rintro rfl <;> revert hc <;> decide

theorem isFinite_or_inf {x : Float64} (h : x.isNan = false) : x.isFinite = true ∨ ∃ neg, x = .inf neg := by
  by_cases hfin : x.isFinite = true
  · exact .inl hfin
  · have hmag : x.magBits = Float64.infBits := by
      simp only [Float64.isNan, Float64.isFinite, decide_eq_false_iff_not, decide_eq_true_eq] at h hfin
      omega
    exact .inr ⟨x.signBit, by rw [Float64.inf, ← hmag, Float64.ofMag_self]⟩

theorem length_le_escaped (cs : List Char) : cs.length ≤ (cs.flatMap escapeChar).length := by
  induction cs with
  | nil => exact le_rfl
  | cons c cs ih =>
    have hne : escapeChar c ≠ [] := fun h => by
      have hread := scanChar_escapeChar c []
      rw [h] at hread
      cases hread
    have hpos := List.length_pos_iff.mpr hne
    rw [List.flatMap_cons, List.length_append, List.length_cons]
    omega

theorem dumpsFloat_finite {x : Float64} (hx : x.isFinite = true) : dumpsFloat x = x.repr := by
  rw [dumpsFloat, if_neg (by simp [Float64.isNan_of_isFinite hx]), if_neg (by simp [Float64.isInf_of_isFinite hx])]

theorem dumpsFloat_inf (neg : Bool) : dumpsFloat (.inf neg) = if neg then "-Infinity" else "Infinity" := by
  cases neg <;> decide

theorem scanOnce_dumpsFloat {x : Float64} (hx : x.isNan = false) {s : List Char} (hs : NumberEnd s) (fuel : Nat) :
    scanOnce (fuel + 1) ((dumpsFloat x).toList ++ s) = some (.float x, s) := by
  rcases isFinite_or_inf hx with hfin | ⟨neg, rfl⟩
  · rw [dumpsFloat_finite hfin, scanOnce_startsNumber ((startsNumber_repr hfin).append s), scanNumber_repr hfin hs]
  · rw [dumpsFloat_inf]
    cases neg <;> exact scanOnce_atom (by decide) fuel _

/-- A character that a value can start with: no whitespace and no closing bracket. -/
def opensValue (c : Char) : Bool := !isGapChar c && c != ']' && c != '\x7d'

theorem opensValue_of_isDigit {c : Char} (h : c.isDigit = true) : opensValue c = true := by
  simp only [opensValue, isGapChar, Bool.and_eq_true, Bool.not_eq_true', Bool.or_eq_false_iff, bne_iff_ne, ne_eq, beq_eq_false_iff_ne]
  refine ⟨⟨⟨⟨⟨?_, ?_⟩, ?_⟩, ?_⟩, ?_⟩, ?_⟩ <;> rintro rfl <;> revert h <;> decide

theorem StartsNumber.head {cs : List Char} (h : StartsNumber cs) : ∃ c rest, cs = c :: rest ∧ opensValue c = true := by
  obtain ⟨neg, c, rest, rfl, hc⟩ := h
  cases neg with
  | true => exact ⟨'-', c :: rest, rfl, by decide⟩
  | false => exact ⟨c, rest, rfl, opensValue_of_isDigit hc⟩

theorem head_scalar (v : Scalar) (h : IsNumber v) : ∃ c rest, v.dumps.toList = c :: rest ∧ opensValue c = true := by
  cases v with
  | none => exact ⟨'n', _, rfl, by decide⟩
  | bool b => cases b <;> exact ⟨_, _, rfl, by decide⟩
  | int n => exact (startsNumber_intText n).head
  | str s => exact ⟨'"', _, toList_quoteStr s, by decide⟩
  | float x =>
    rw [Scalar.dumps]
    rcases isFinite_or_inf h with hfin | ⟨neg, rfl⟩
    · rw [dumpsFloat_finite hfin]
      exact (startsNumber_repr hfin).head
    · rw [dumpsFloat_inf]
      cases neg <;> exact ⟨_, _, rfl, by decide⟩

theorem scanOnce_scalar (v : Scalar) (h : IsNumber v) (hw : v.toJson.Writable) {s : List Char} (hs : NumberEnd s) {fuel : Nat}
    (hf : v.dumps.toList.length ≤ fuel) : scanOnce fuel (v.dumps.toList ++ s) = some (v.toJson, s) := by
  obtain ⟨c, rest, hcs, -⟩ := head_scalar v h
  have hpos : 0 < fuel := hf.trans_lt' (by rw [hcs]; exact Nat.succ_pos _)
  obtain ⟨fuel, rfl⟩ := Nat.exists_eq_add_of_lt hpos
  cases v with
  | str t =>
    refine scanOnce_quoteStr ?_
    have hlen := length_le_escaped t.toList
    rw [Scalar.dumps, toList_quoteStr, List.length_cons, List.length_append] at hf
    omega
  | none => exact scanOnce_atom (by decide) _ _
  | bool b => cases b <;> exact scanOnce_atom (by decide) _ _
  | int n =>
    have hn : n.natAbs < strLimit := hw n (List.mem_singleton_self n)
    rw [Scalar.dumps, scanOnce_startsNumber ((startsNumber_intText n).append s), scanNumber_intText hn hs]
    rfl
  | float x => exact scanOnce_dumpsFloat h hs _

theorem Prints.head {v : Json} {cs : List Char} (h : Prints v cs) : ∃ c rest, cs = c :: rest ∧ opensValue c = true := by
  cases h with
  | scalar v h => exact head_scalar v h
  | emptyArr => exact ⟨_, _, rfl, by decide⟩
  | arr => exact ⟨_, _, rfl, by decide⟩
  | emptyObj => exact ⟨_, _, rfl, by decide⟩
  | obj => exact ⟨_, _, rfl, by decide⟩

/-- What a value starts with is not skipped. -/
theorem Prints.skipGap {v : Json} {cs : List Char} (h : Prints v cs) {g : List Char} (hg : Gap g) (s : List Char) :
    Json.skipGap (g ++ (cs ++ s)) = cs ++ s := by
  obtain ⟨c, rest, rfl, hc⟩ := h.head
  simp only [opensValue, Bool.and_eq_true, Bool.not_eq_true'] at hc
  exact skipGap_append hg hc.1.1 _

theorem PrintsElements.head {vs : List Json} {cs : List Char} (h : PrintsElements vs cs) :
    ∃ c rest, cs = c :: rest ∧ opensValue c = true := by
  cases h with
  | last h hg =>
    obtain ⟨c, rest, rfl, hc⟩ := h.head
    exact ⟨c, _, rfl, hc⟩
  | cons h hg hg' ht =>
    obtain ⟨c, rest, rfl, hc⟩ := h.head
    exact ⟨c, _, rfl, hc⟩

theorem PrintsMembers.head {kvs : List (String × Json)} {cs : List Char} (h : PrintsMembers kvs cs) :
    ∃ rest, cs = '"' :: rest := by
  cases h with
  | last => exact ⟨_, by rw [toList_quoteStr, List.cons_append]⟩
  | cons => exact ⟨_, by rw [toList_quoteStr, List.cons_append]⟩

theorem setItem_new {α : Type} {items : List (String × α)} {key : String} (h : key ∉ items.map Prod.fst) (value : α) :
    setItem items key value = items ++ [(key, value)] := by
  refine if_neg ?_
  rw [List.any_eq_true]
  rintro ⟨kv, hkv, hkey⟩
  exact h (List.mem_map.mpr ⟨kv, hkv, by simpa using hkey⟩)

theorem foldl_setItem {α : Type} {items pairs : List (String × α)} (h : ((items ++ pairs).map Prod.fst).Nodup) :
    pairs.foldl (fun items kv => setItem items kv.1 kv.2) items = items ++ pairs := by
  induction pairs generalizing items with
  | nil => rw [List.foldl_nil, List.append_nil]
  | cons kv pairs ih =>
    have hnew : kv.1 ∉ items.map Prod.fst := by
      rw [List.map_append, List.map_cons, List.nodup_append] at h
      exact fun hmem => h.2.2 _ hmem _ (List.mem_cons_self ..) rfl
    rw [List.foldl_cons, setItem_new hnew, ih (by rwa [List.append_assoc]), List.append_assoc]
    rfl

theorem dictItems_of_nodup {α : Type} {pairs : List (String × α)} (h : (pairs.map Prod.fst).Nodup) : dictItems pairs = pairs :=
  foldl_setItem h

theorem scanOnce_elements {c : Char} (hc : opensValue c = true) {g : List Char} (hg : Gap g) (fuel : Nat) (cs : List Char) :
    scanOnce (fuel + 1) ('[' :: (g ++ c :: cs)) = (scanElements fuel (c :: cs)).map fun p => (.arr p.1, p.2) := by
  simp only [opensValue, Bool.and_eq_true, Bool.not_eq_true', bne_iff_ne, ne_eq] at hc
  rw [scanOnce, skipGap_append hg hc.1.1]
  split
  · rename_i heq
    exact absurd (List.cons.inj heq).1 hc.1.2
  · rfl

theorem scanOnce_members {g : List Char} (hg : Gap g) (fuel : Nat) (cs : List Char) : scanOnce (fuel + 1) ('\x7b' :: (g ++ '"' :: cs)) =
    (scanMembers fuel ('"' :: cs)).map fun p => (.obj (dictItems p.1), p.2) := by
  rw [scanOnce, skipGap_append hg (by decide)]
  rfl

theorem scanElements_last {fuel : Nat} {v : Json} {cs g s : List Char} (hg : Gap g)
    (hv : scanOnce fuel cs = some (v, g ++ ']' :: s)) : scanElements (fuel + 1) cs = some ([v], s) := by
  rw [scanElements, hv]
  simp only [Option.bind_eq_bind, Option.bind_some]
  rw [skipGap_append hg (by decide)]
  rfl

theorem scanElements_cons {fuel : Nat} {v : Json} {vs : List Json} {cs g rest s : List Char} (hg : Gap g)
    (hv : scanOnce fuel cs = some (v, g ++ ',' :: rest)) (hvs : scanElements fuel (skipGap rest) = some (vs, s)) :
    scanElements (fuel + 1) cs = some (v :: vs, s) := by
  rw [scanElements, hv]
  simp only [Option.bind_eq_bind, Option.bind_some]
  rw [skipGap_append hg (by decide)]
  simp only [hvs]
  rfl

theorem scanMembers_last {fuel : Nat} {k : String} {v : Json} {g₁ cs g s : List Char} (h₁ : Gap g₁) (hg : Gap g)
    (hk : k.toList.length ≤ fuel) (hv : scanOnce fuel (skipGap cs) = some (v, g ++ '\x7d' :: s)) :
    scanMembers (fuel + 1) ((quoteStr k).toList ++ (g₁ ++ ':' :: cs)) = some ([(k, v)], s) := by
  rw [toList_quoteStr, List.cons_append, List.append_assoc, List.singleton_append, scanMembers, scanString_escaped hk]
  simp only [Option.bind_eq_bind, Option.bind_some]
  rw [skipGap_append h₁ (by decide)]
  simp only [hv, Option.bind_some, String.ofList_toList]
  rw [skipGap_append hg (by decide)]
  rfl

theorem scanMembers_cons {fuel : Nat} {k : String} {v : Json} {kvs : List (String × Json)} {g₁ cs g rest s : List Char}
    (h₁ : Gap g₁) (hg : Gap g) (hk : k.toList.length ≤ fuel) (hv : scanOnce fuel (skipGap cs) = some (v, g ++ ',' :: rest))
    (hkvs : scanMembers fuel (skipGap rest) = some (kvs, s)) :
    scanMembers (fuel + 1) ((quoteStr k).toList ++ (g₁ ++ ':' :: cs)) = some ((k, v) :: kvs, s) := by
  rw [toList_quoteStr, List.cons_append, List.append_assoc, List.singleton_append, scanMembers, scanString_escaped hk]
  simp only [Option.bind_eq_bind, Option.bind_some]
  rw [skipGap_append h₁ (by decide)]
  simp only [hv, Option.bind_some, String.ofList_toList]
  rw [skipGap_append hg (by decide)]
  simp only [hkvs, Option.bind_some]
  rfl

theorem length_le_quoteStr (k : String) : k.toList.length + 2 ≤ (quoteStr k).toList.length := by
  have hlen := length_le_escaped k.toList
  rw [toList_quoteStr, List.length_cons, List.length_append, List.length_singleton]
  omega

mutual

/-- What a value is written as is read as the value. -/
theorem scanOnce_prints {v : Json} {cs s : List Char} {fuel : Nat} (h : Prints v cs) (hs : NumberEnd s) (hf : cs.length ≤ fuel) :
    scanOnce fuel (cs ++ s) = some (v, s) := by
  cases h with
  | scalar v h hw => exact scanOnce_scalar v h hw hs hf
  | @emptyArr g hg =>
    obtain ⟨fuel, rfl⟩ := Nat.exists_eq_add_of_lt (show 0 < fuel from hf.trans_lt' (Nat.succ_pos _))
    rw [List.cons_append, List.append_assoc, scanOnce, List.singleton_append, skipGap_append hg (by decide)]
    rfl
  | @arr vs g ds hg h =>
    obtain ⟨fuel, rfl⟩ := Nat.exists_eq_add_of_lt (show 0 < fuel from hf.trans_lt' (Nat.succ_pos _))
    rw [List.length_cons, List.length_append] at hf
    have hread : scanElements (0 + fuel) (ds ++ s) = some (vs, s) := scanElements_prints h (by omega)
    obtain ⟨c, rest, rfl, hc⟩ := h.head
    rw [List.cons_append, List.append_assoc, List.cons_append, scanOnce_elements hc hg]
    rw [List.cons_append] at hread
    rw [hread]
    rfl
  | @emptyObj g hg =>
    obtain ⟨fuel, rfl⟩ := Nat.exists_eq_add_of_lt (show 0 < fuel from hf.trans_lt' (Nat.succ_pos _))
    rw [List.cons_append, List.append_assoc, scanOnce, List.singleton_append, skipGap_append hg (by decide)]
    rfl
  | @obj kvs g ds hkeys hg h =>
    obtain ⟨fuel, rfl⟩ := Nat.exists_eq_add_of_lt (show 0 < fuel from hf.trans_lt' (Nat.succ_pos _))
    rw [List.length_cons, List.length_append] at hf
    have hread : scanMembers (0 + fuel) (ds ++ s) = some (kvs, s) := scanMembers_prints h (by omega)
    obtain ⟨rest, rfl⟩ := h.head
    rw [List.cons_append, List.append_assoc, List.cons_append, scanOnce_members hg]
    rw [List.cons_append] at hread
    rw [hread, Option.map_some, dictItems_of_nodup hkeys]

theorem scanElements_prints {vs : List Json} {cs s : List Char} {fuel : Nat} (h : PrintsElements vs cs) (hf : cs.length ≤ fuel) :
    scanElements fuel (cs ++ s) = some (vs, s) := by
  cases h with
  | @last v ds g h hg =>
    rw [List.length_append, List.length_append, List.length_singleton] at hf
    obtain ⟨fuel, rfl⟩ := Nat.exists_eq_add_of_lt (show 0 < fuel by omega)
    rw [List.append_assoc, List.append_assoc]
    exact scanElements_last hg (scanOnce_prints h (numberEnd_gap hg (by decide) s) (by omega))
  | @cons v vs ds g g' es h hg hg' ht =>
    rw [List.length_append, List.length_append, List.length_cons, List.length_append] at hf
    obtain ⟨fuel, rfl⟩ := Nat.exists_eq_add_of_lt (show 0 < fuel by omega)
    have hrest : skipGap (g' ++ (es ++ s)) = es ++ s := by
      obtain ⟨c, rest, rfl, hc⟩ := ht.head
      simp only [opensValue, Bool.and_eq_true, Bool.not_eq_true'] at hc
      exact skipGap_append hg' hc.1.1 _
    rw [List.append_assoc, List.append_assoc, List.cons_append, List.append_assoc]
    refine scanElements_cons hg (scanOnce_prints h (numberEnd_gap hg (by decide) _) (by omega)) ?_
    rw [hrest]
    exact scanElements_prints ht (by omega)

theorem scanMembers_prints {kvs : List (String × Json)} {cs s : List Char} {fuel : Nat} (h : PrintsMembers kvs cs)
    (hf : cs.length ≤ fuel) : scanMembers fuel (cs ++ s) = some (kvs, s) := by
  cases h with
  | @last k v g₁ g₂ ds g h₁ h₂ h hg =>
    have hk := length_le_quoteStr k
    simp only [List.length_append, List.length_cons, List.length_nil] at hf
    obtain ⟨fuel, rfl⟩ := Nat.exists_eq_add_of_lt (show 0 < fuel by omega)
    simp only [List.append_assoc, List.cons_append, List.nil_append]
    refine scanMembers_last h₁ hg (by omega) ?_
    rw [h.skipGap h₂]
    exact scanOnce_prints h (numberEnd_gap hg (by decide) s) (by omega)
  | @cons k v kvs g₁ g₂ ds g g' es h₁ h₂ h hg hg' ht =>
    have hk := length_le_quoteStr k
    simp only [List.length_append, List.length_cons] at hf
    obtain ⟨fuel, rfl⟩ := Nat.exists_eq_add_of_lt (show 0 < fuel by omega)
    have hrest : skipGap (g' ++ (es ++ s)) = es ++ s := by
      obtain ⟨rest, rfl⟩ := ht.head
      exact skipGap_append hg' (by decide) _
    simp only [List.append_assoc, List.cons_append]
    have hv : scanOnce (0 + fuel) (ds ++ (g ++ ',' :: (g' ++ (es ++ s)))) = some (v, _) :=
      scanOnce_prints h (numberEnd_gap hg (by decide) _) (by omega)
    refine scanMembers_cons h₁ hg (by omega) (by rwa [h.skipGap h₂]) ?_
    rw [hrest]
    exact scanMembers_prints ht (by omega)

end

/-- A text of a value, with whitespace around it, is read as the value. -/
theorem loads_prints {v : Json} {g cs g' : List Char} (hg : Gap g) (h : Prints v cs) (hg' : Gap g') :
    loads (String.ofList (g ++ (cs ++ g'))) = some v := by
  have hend : NumberEnd g' := by
    have hnil := numberEnd_of_gap hg' numberEnd_nil
    rwa [List.append_nil] at hnil
  rw [loads, String.toList_ofList, h.skipGap hg, scanOnce_prints h hend (by simp only [List.length_append]; omega)]
  have hskip : skipGap g' = [] := List.dropWhile_eq_nil_iff.mpr hg'
  simp only [Option.bind_eq_bind, Option.bind_some]
  rw [hskip]
  rfl

/-! ### What is written is of the syntax -/

/-- A value that `json.loads` can give: no float is `nan`, and an object has each key once. -/
inductive Readable : Json → Prop where
  | scalar (v : Scalar) (h : IsNumber v) : Readable v.toJson
  | arr {items : List Json} (h : ∀ v ∈ items, Readable v) : Readable (.arr items)
  | obj {items : List (String × Json)} (hkeys : (items.map Prod.fst).Nodup) (h : ∀ kv ∈ items, Readable kv.2) :
      Readable (.obj items)

section
variable {α : Type} {value : α → Json} {text : α → String} {sep colon : String} {g₂ g' g : List Char}

theorem printsElements_join (hsep : sep.toList = ',' :: g') (hg' : Gap g') (hg : Gap g) {xs : List α} (hne : xs ≠ [])
    (h : ∀ x ∈ xs, Prints (value x) (text x).toList) :
    PrintsElements (xs.map value) ((join sep (xs.map text)).toList ++ (g ++ [']'])) := by
  have hnil : Gap [] := fun _ h => by cases h
  induction xs with
  | nil => exact absurd rfl hne
  | cons x xs ih =>
    cases xs with
    | nil => exact .last (h x (List.mem_cons_self ..)) hg
    | cons y ys =>
      have ht := ih (List.cons_ne_nil _ _) fun z hz => h z (List.mem_cons_of_mem _ hz)
      have hcons := PrintsElements.cons (h x (List.mem_cons_self ..)) hnil hg' ht
      show PrintsElements _ ((text x ++ sep ++ join sep ((y :: ys).map text)).toList ++ _)
      rw [String.toList_append, String.toList_append, hsep]
      simp only [List.nil_append, List.append_assoc, List.cons_append] at hcons ⊢
      exact hcons

theorem printsMembers_join {xs : List (String × α)} (hsep : sep.toList = ',' :: g') (hg' : Gap g')
    (hcolon : colon.toList = ':' :: g₂) (h₂ : Gap g₂) (hg : Gap g) (hne : xs ≠ [])
    (h : ∀ x ∈ xs, Prints (value x.2) (text x.2).toList) :
    PrintsMembers (xs.map fun x => (x.1, value x.2))
      ((join sep (xs.map fun x => quoteStr x.1 ++ colon ++ text x.2)).toList ++ (g ++ ['\x7d'])) := by
  have hnil : Gap [] := fun _ h => by cases h
  induction xs with
  | nil => exact absurd rfl hne
  | cons x xs ih =>
    cases xs with
    | nil =>
      have hlast := PrintsMembers.last (k := x.1) hnil h₂ (h x (List.mem_cons_self ..)) hg
      rw [List.map_singleton, List.map_singleton, join, String.toList_append, String.toList_append, hcolon]
      simp only [List.nil_append, List.append_assoc, List.cons_append] at hlast ⊢
      exact hlast
    | cons y ys =>
      have ht := ih (List.cons_ne_nil _ _) fun z hz => h z (List.mem_cons_of_mem _ hz)
      have hcons := PrintsMembers.cons (k := x.1) hnil h₂ (h x (List.mem_cons_self ..)) hnil hg' ht
      show PrintsMembers _ ((quoteStr x.1 ++ colon ++ text x.2 ++ sep ++
        join sep ((y :: ys).map fun x => quoteStr x.1 ++ colon ++ text x.2)).toList ++ _)
      rw [String.toList_append, String.toList_append, hsep, String.toList_append, String.toList_append, hcolon]
      simp only [List.nil_append, List.append_assoc, List.cons_append] at hcons ⊢
      exact hcons

end

theorem dumps_toJson (v : Scalar) : v.toJson.dumps = v.dumps := by
  cases v <;> rfl

theorem pretty_toJson (v : Scalar) (level : Nat) : v.toJson.pretty level = v.dumps := by
  cases v <;> rfl

theorem nodup_sortItems {items : List (String × Json)} (h : (items.map Prod.fst).Nodup) :
    (((sortItems items).map fun kv => (kv.1, kv.2.sortKeys)).map Prod.fst).Nodup := by
  rw [List.map_map]
  exact (((List.perm_insertionSort _ items).map Prod.fst).nodup_iff).mpr h

theorem sortItems_ne_nil {items : List (String × Json)} (h : items ≠ []) : sortItems items ≠ [] := fun hnil =>
  h (List.perm_nil.mp (hnil ▸ (List.perm_insertionSort _ items).symm))

/-- `json.dumps` with compact separators. -/
theorem Readable.prints {v : Json} (h : v.Readable) (hw : v.Writable) : Prints v.sortKeys v.dumps.toList := by
  have hnil : Gap [] := fun _ h => by cases h
  induction h with
  | scalar v h =>
    rw [sortKeys_toJson, dumps_toJson]
    exact .scalar v h hw
  | @arr items h ih =>
    rw [sortKeys, sortKeysList_eq_map, dumps, dumpsList_eq_map, String.toList_append, String.toList_append, List.append_assoc]
    by_cases hitems : items = []
    · subst hitems
      exact .emptyArr hnil
    · exact .arr hnil (printsElements_join rfl hnil hnil hitems fun v hv => ih v hv (writable_arr.mp hw v hv))
  | @obj items hkeys h ih =>
    rw [sortKeys_obj_eq, dumps_obj, String.toList_append, String.toList_append, List.append_assoc]
    by_cases hitems : items = []
    · subst hitems
      exact .emptyObj hnil
    · exact .obj (nodup_sortItems hkeys) hnil
        (printsMembers_join rfl hnil rfl hnil hnil (sortItems_ne_nil hitems) fun kv hkv =>
          ih kv (mem_sortItems.mp hkv) (writable_obj.mp hw kv (mem_sortItems.mp hkv)))

theorem prettyList_eq_map (level : Nat) (items : List Json) : prettyList level items = items.map (pretty level) := by
  induction items with
  | nil => rfl
  | cons v items ih => rw [prettyList, ih]; rfl

theorem prettyItems_eq_map (level : Nat) (items : List (String × Json)) :
    prettyItems level items = items.map fun kv => (kv.1, kv.2.pretty level) := by
  induction items with
  | nil => rfl
  | cons kv items ih => obtain ⟨k, v⟩ := kv; rw [prettyItems, ih]; rfl

theorem pretty_arr (level : Nat) {items : List Json} (h : items ≠ []) : (arr items).pretty level = "[" ++ lineBreak (level + 1) ++
    join ("," ++ lineBreak (level + 1)) (items.map (pretty (level + 1))) ++ lineBreak level ++ "]" := by
  obtain ⟨v, items, rfl⟩ := List.exists_cons_of_ne_nil h
  rw [pretty, prettyList_eq_map, List.map_cons]

theorem pretty_obj (level : Nat) {items : List (String × Json)} (h : items ≠ []) : (obj items).pretty level =
    "\x7b" ++ lineBreak (level + 1) ++ join ("," ++ lineBreak (level + 1))
      ((sortItems items).map fun kv => quoteStr kv.1 ++ ": " ++ kv.2.pretty (level + 1)) ++ lineBreak level ++ "\x7d" := by
  obtain ⟨⟨k, v⟩, items, rfl⟩ := List.exists_cons_of_ne_nil h
  have hmap := sortItems_map (pretty (level + 1)) ((k, v) :: items)
  rw [List.map_cons] at hmap
  rw [pretty, prettyItems_eq_map, hmap, List.map_map]
  rfl

theorem gap_lineBreak (level : Nat) : Gap (lineBreak level).toList := by
  intro c hc
  rw [lineBreak, String.toList_append] at hc
  rcases List.mem_append.mp hc with hc | hc
  · obtain rfl : c = '\n' := by simpa using hc
    decide
  · rw [String.toList_ofList] at hc
    rw [List.eq_of_mem_replicate hc]
    decide

/-- `json.dumps` with an indentation. -/
theorem Readable.prints_pretty {v : Json} (h : v.Readable) (hw : v.Writable) (level : Nat) :
    Prints v.sortKeys (v.pretty level).toList := by
  have hnil : Gap [] := fun _ h => by cases h
  have hsep (level : Nat) : ("," ++ lineBreak level).toList = ',' :: (lineBreak level).toList := String.toList_append ..
  have hspace : Gap [' '] := by
    rintro c hc
    rw [List.mem_singleton.mp hc]
    decide
  induction h generalizing level with
  | scalar v h =>
    rw [sortKeys_toJson, pretty_toJson]
    exact .scalar v h hw
  | @arr items h ih =>
    rw [sortKeys, sortKeysList_eq_map]
    by_cases hitems : items = []
    · subst hitems
      rw [show pretty level (Json.arr []) = "[]" by rw [pretty]]
      exact .emptyArr hnil
    · have hprints := Prints.arr (gap_lineBreak (level + 1)) (printsElements_join (hsep (level + 1)) (gap_lineBreak (level + 1))
        (gap_lineBreak level) hitems fun v hv => ih v hv (writable_arr.mp hw v hv) (level + 1))
      rw [pretty_arr level hitems]
      simp only [String.toList_append, List.append_assoc]
      exact hprints
  | @obj items hkeys h ih =>
    rw [sortKeys_obj_eq]
    by_cases hitems : items = []
    · subst hitems
      rw [show pretty level (Json.obj []) = "\x7b\x7d" by rw [pretty]]
      exact .emptyObj hnil
    · have hprints := Prints.obj (nodup_sortItems hkeys) (gap_lineBreak (level + 1)) (printsMembers_join (hsep (level + 1))
        (gap_lineBreak (level + 1)) (show (": " : String).toList = ':' :: [' '] from rfl) hspace (gap_lineBreak level)
        (sortItems_ne_nil hitems) fun kv hkv =>
          ih kv (mem_sortItems.mp hkv) (writable_obj.mp hw kv (mem_sortItems.mp hkv)) (level + 1))
      rw [pretty_obj level hitems]
      simp only [String.toList_append, List.append_assoc]
      exact hprints

/-- A text of the syntax that is written as a line. -/
theorem loads_line {v : Json} {text : String} (h : Prints v text.toList) : Json.loads (text ++ "\n") = some v := by
  have hnil : Gap [] := fun _ h => by cases h
  have hline : Gap ['\n'] := by
    rintro c hc
    rw [List.mem_singleton.mp hc]
    decide
  have hread := loads_prints hnil h hline
  have htext : text.toList ++ ['\n'] = (text ++ "\n").toList := by
    rw [String.toList_append]
    rfl
  rwa [List.nil_append, htext, String.ofList_toList] at hread

/-- `json.loads` reads back both layouts of `json.dumps`. -/
theorem Readable.readsBack {v : Json} (h : v.Readable) (hw : v.Writable) : ReadsBack Json.loads v := loads_line (h.prints hw)

theorem Readable.loads_pretty {v : Json} (h : v.Readable) (hw : v.Writable) : Json.loads (v.pretty 0 ++ "\n") = some v.sortKeys :=
  loads_line (h.prints_pretty hw 0)

/-- Lines that are short enough are read back. -/
theorem readsBack_of_lines {E : Type} {toDict : E → Json} (hreadable : ∀ e, (toDict e).Readable) {es : List E}
    {lines : List String} (hlines : lines = es.map fun e => (toDict e).line)
    (hshort : ∀ line ∈ lines, line.utf8ByteSize ≤ maxStrDigits) : ∀ e ∈ es, ReadsBack Json.loads (toDict e) := fun e he =>
  (hreadable e).readsBack (writable_of_line (hshort _ (hlines ▸ List.mem_map_of_mem he)))

/-! ### Values that are readable -/

theorem isNumber_of_isFinite {v : Scalar} (h : v.isFinite = true) : IsNumber v := by
  cases v with
  | float x => exact Float64.isNan_of_isFinite h
  | _ => trivial

theorem readable_finite {v : Scalar} (h : v.isFinite = true) : v.toJson.Readable := .scalar v (isNumber_of_isFinite h)

theorem readable_str (s : String) : (str s).Readable := .scalar (.str s) trivial

theorem readable_int (n : Int) : (int n).Readable := .scalar (.int n) trivial

theorem readable_bool (b : Bool) : (bool b).Readable := .scalar (.bool b) trivial

theorem readable_null : null.Readable := .scalar .none trivial

/-- A record with known keys. -/
theorem readable_record {items : List (String × Json)} (keys : List String) (hk : items.map Prod.fst = keys)
    (hd : keys.Nodup) (h : List.Forall Readable (items.map Prod.snd)) : (obj items).Readable := by
  refine .obj (hk ▸ hd) fun kv hkv => ?_
  exact List.forall_iff_forall_mem.mp h kv.2 (List.mem_map_of_mem hkv)

/-! ### What is read has each key once and can be written -/

theorem map_fst_setItem {α : Type} (items : List (String × α)) (key : String) (value : α) :
    (setItem items key value).map Prod.fst = if key ∈ items.map Prod.fst then items.map Prod.fst else items.map Prod.fst ++ [key] := by
  have hany : (items.any fun kv => kv.1 == key) = true ↔ key ∈ items.map Prod.fst := by
    simp only [List.any_eq_true, beq_iff_eq, List.mem_map]
  rw [setItem]
  by_cases h : key ∈ items.map Prod.fst
  · rw [if_pos (hany.mpr h), if_pos h, List.map_map]
    refine List.map_congr_left fun kv _ => ?_
    by_cases hkv : kv.1 = key <;> simp [hkv]
  · rw [if_neg (fun ha => h (hany.mp ha)), if_neg h, List.map_append]
    rfl

theorem mem_setItem {α : Type} {items : List (String × α)} {key : String} {value : α} {kv : String × α}
    (h : kv ∈ setItem items key value) : kv ∈ items ∨ kv = (key, value) := by
  rw [setItem] at h
  split_ifs at h
  · obtain ⟨old, hold, rfl⟩ := List.mem_map.mp h
    split_ifs
    · exact .inr rfl
    · exact .inl hold
  · exact (List.mem_append.mp h).imp_right List.mem_singleton.mp

theorem dictItems_spec {α : Type} (pairs : List (String × α)) :
    ((dictItems pairs).map Prod.fst).Nodup ∧ ∀ kv ∈ dictItems pairs, kv ∈ pairs := by
  have hfold (items : List (String × α)) (h : (items.map Prod.fst).Nodup) :
      ((pairs.foldl (fun items kv => setItem items kv.1 kv.2) items).map Prod.fst).Nodup ∧
        ∀ kv ∈ pairs.foldl (fun items kv => setItem items kv.1 kv.2) items, kv ∈ items ∨ kv ∈ pairs := by
    induction pairs generalizing items with
    | nil => exact ⟨h, fun kv hkv => .inl hkv⟩
    | cons p pairs ih =>
      have hset : ((setItem items p.1 p.2).map Prod.fst).Nodup := by
        rw [map_fst_setItem]
        split_ifs with hmem
        · exact h
        · exact List.nodup_append.mpr ⟨h, List.nodup_singleton _, fun a ha b hb hab =>
            hmem (List.mem_singleton.mp hb ▸ hab ▸ ha)⟩
      obtain ⟨hnodup, hall⟩ := ih _ hset
      refine ⟨hnodup, fun kv hkv => ?_⟩
      rcases hall kv hkv with hin | hin
      · rcases mem_setItem hin with hold | rfl
        · exact .inl hold
        · exact .inr (List.mem_cons_self ..)
      · exact .inr (List.mem_cons_of_mem _ hin)
  obtain ⟨hnodup, hall⟩ := hfold [] List.nodup_nil
  exact ⟨hnodup, fun kv hkv => (hall kv hkv).resolve_left List.not_mem_nil⟩

theorem distinctKeysItems_of_forall {items : List (String × Json)} (h : ∀ kv ∈ items, kv.2.DistinctKeys) :
    DistinctKeysItems items := by
  induction items with
  | nil => trivial
  | cons kv items ih =>
    obtain ⟨k, v⟩ := kv
    rw [DistinctKeysItems]
    exact ⟨h (k, v) (List.mem_cons_self ..), ih fun kv hkv => h kv (List.mem_cons_of_mem _ hkv)⟩

theorem distinctKeys_toJson (s : Scalar) : s.toJson.DistinctKeys := by
  cases s <;> trivial

theorem distinctKeysList_of_forall {items : List Json} (h : ∀ v ∈ items, v.DistinctKeys) : DistinctKeysList items := by
  induction items with
  | nil => trivial
  | cons v items ih =>
    rw [DistinctKeysList]
    exact ⟨h v (List.mem_cons_self ..), ih fun v hv => h v (List.mem_cons_of_mem _ hv)⟩

section
variable {P : Json → Prop} (hscalar : ∀ v, IsScalar v → P v) (harr : ∀ items, (∀ v ∈ items, P v) → P (.arr items))
  (hobj : ∀ items, (items.map Prod.fst).Nodup → (∀ kv ∈ items, P kv.2) → P (.obj items))
include hscalar harr hobj

/-- What holds of scalars that can be written, and is kept by arrays and by objects without a repeated key, holds of
everything that is scanned. -/
theorem scan_induction (fuel : Nat) : (∀ cs v rest, scanOnce fuel cs = some (v, rest) → P v) ∧
    (∀ cs vs rest, scanElements fuel cs = some (vs, rest) → ∀ v ∈ vs, P v) ∧
    (∀ cs kvs rest, scanMembers fuel cs = some (kvs, rest) → ∀ kv ∈ kvs, P kv.2) := by
  induction fuel with
  | zero =>
    refine ⟨fun cs v rest h => ?_, fun cs vs rest h => ?_, fun cs kvs rest h => ?_⟩
    · simp [scanOnce] at h
    · simp [scanElements] at h
    · simp [scanMembers] at h
  | succ fuel ih =>
    obtain ⟨ihv, ihe, ihm⟩ := ih
    refine ⟨fun cs v rest h => ?_, fun cs vs rest h => ?_, fun cs kvs rest h => ?_⟩
    · rcases scanOnce_cases h with ⟨-, hv⟩ | ⟨vs, cs', rfl, -, hvs⟩ | ⟨kvs, cs', rfl, -, hkvs⟩
      · exact hscalar v hv
      · refine harr vs fun v hv => ?_
        rcases hvs with ⟨rfl, -⟩ | hvs
        · cases hv
        · exact ihe _ _ _ hvs v hv
      · obtain ⟨hnodup, hall⟩ := dictItems_spec kvs
        refine hobj _ hnodup fun kv hkv => ?_
        rcases hkvs with ⟨rfl, -⟩ | hkvs
        · exact absurd (hall kv hkv) List.not_mem_nil
        · exact ihm _ _ _ hkvs kv (hall kv hkv)
    · obtain ⟨v, r, hv, ⟨rfl, -⟩ | ⟨vs', cs', rfl, hvs, -⟩⟩ := scanElements_cases h
      · exact List.forall_mem_singleton.mpr (ihv _ _ _ hv)
      · exact List.forall_mem_cons.mpr ⟨ihv _ _ _ hv, ihe _ _ _ hvs⟩
    · obtain ⟨k, v, cs', r, hv, -, ⟨rfl, -⟩ | ⟨kvs', cs'', rfl, hkvs, -⟩⟩ := scanMembers_cases h
      · exact List.forall_mem_singleton.mpr (ihv _ _ _ hv)
      · exact List.forall_mem_cons.mpr ⟨ihv _ _ _ hv, ihm _ _ _ hkvs⟩

theorem loads_induction {text : String} {v : Json} (h : loads text = some v) : P v := by
  rw [loads] at h
  simp only [Option.bind_eq_bind, Option.bind_eq_some_iff] at h
  obtain ⟨⟨w, rest⟩, hw, h⟩ := h
  dsimp only at h
  split_ifs at h
  cases h
  exact (scan_induction hscalar harr hobj _).1 _ _ _ hw

end

/-- No object that is read has a key twice. -/
theorem distinctKeys_loads {text : String} {v : Json} (h : loads text = some v) : v.DistinctKeys := by
  refine loads_induction (fun v hv => ?_) (fun items ih => ?_) (fun items hnodup ih => ?_) h
  · obtain ⟨s, rfl, -⟩ := hv
    exact distinctKeys_toJson s
  · rw [DistinctKeys]
    exact distinctKeysList_of_forall ih
  · rw [DistinctKeys]
    exact ⟨hnodup, distinctKeysItems_of_forall ih⟩

/-- What is read can be written. -/
theorem writable_loads {text : String} {v : Json} (h : loads text = some v) : v.Writable :=
  loads_induction (fun _ ⟨_, _, hw⟩ => hw) (fun _ ih => writable_arr.mpr ih) (fun _ _ ih => writable_obj.mpr ih) h

end Json
end Py
