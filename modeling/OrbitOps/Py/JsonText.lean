import OrbitOps.Py.DigitText
import OrbitOps.Py.Json

/-!
# JSON values are determined by their text

`dumps` of two values without floats is the same text only when the values are the same up to the
order of keys. The proof reads both texts from the left: a value ends where the text says it does,
so equal texts part at the same places, item by item and key by key.

A value is `Writable` when its line is shorter than the longest integer that `str` writes.
-/

namespace Py

/-! ### Strings -/

/-- The 16-bit code unit of four hexadecimal digits. -/
def readUnit : List Char → Option (Nat × List Char)
  | a :: b :: c :: d :: rest => some (hexNat 0 [a, b, c, d], rest)
  | _ => none

/-- The character of an escape with a code unit, or with two of them. -/
def readUnicode (cs : List Char) : Option (Char × List Char) := do
  let (v, rest) ← readUnit cs
  if 0xD800 ≤ v ∧ v < 0xDC00 then
    let (w, rest) ← readUnit (rest.drop 2)
    return (Char.ofNat (0x10000 + (v - 0xD800) * 0x400 + (w - 0xDC00)), rest)
  else return (Char.ofNat v, rest)

/-- The character that a letter after a backslash stands for. -/
def unescapeLetter (c : Char) : Char :=
  if c = 'n' then '\n'
  else if c = 'r' then '\r'
  else if c = 't' then '\t'
  else if c = 'b' then Char.ofNat 8
  else if c = 'f' then Char.ofNat 12
  else c

/-- The first character inside the quotes of a JSON string. -/
def readChar : List Char → Option (Char × List Char)
  | '\\' :: 'u' :: rest => readUnicode rest
  | '\\' :: c :: rest => some (unescapeLetter c, rest)
  | c :: rest => some (c, rest)
  | [] => none

theorem hexNat_hexDigits {n : Nat} (h : n < 65536) :
    hexNat 0 [hexDigit (n / 4096 % 16), hexDigit (n / 256 % 16), hexDigit (n / 16 % 16), hexDigit (n % 16)] = n := by
  have hvalue (k : Nat) : (hexValue? (hexDigit (k % 16))).getD 0 = k % 16 := by
    rw [hexValue?_hexDigit _ (Nat.mod_lt _ (by decide))]
    rfl
  simp only [hexNat, List.foldl_cons, List.foldl_nil, hvalue]
  omega

theorem readUnit_hexDigits {n : Nat} (h : n < 65536) (rest : List Char) :
    readUnit ((unicodeEscape n).drop 2 ++ rest) = some (n, rest) := by
  show some (hexNat 0 _, rest) = _
  rw [hexNat_hexDigits h]

theorem readChar_unicodeEscape {n : Nat} (h : n < 65536) (hs : n < 0xD800 ∨ 0xDFFF < n) (rest : List Char) :
    readChar (unicodeEscape n ++ rest) = some (Char.ofNat n, rest) := by
  show readUnicode ((unicodeEscape n).drop 2 ++ rest) = _
  have hno : ¬(0xD800 ≤ n ∧ n < 0xDC00) := by omega
  rw [readUnicode, readUnit_hexDigits h]
  exact if_neg hno

/-- A character above the basic plane is read back from its two code units. -/
theorem readChar_surrogates {v : Nat} (h : v < 0x100000) (rest : List Char) :
    readChar (unicodeEscape (0xD800 + v / 0x400) ++ unicodeEscape (0xDC00 + v % 0x400) ++ rest) =
      some (Char.ofNat (0x10000 + v), rest) := by
  have hhigh : 0xD800 + v / 0x400 < 65536 := by omega
  have hlow : 0xDC00 + v % 0x400 < 65536 := by omega
  have hyes : 0xD800 ≤ 0xD800 + v / 0x400 ∧ 0xD800 + v / 0x400 < 0xDC00 := by omega
  rw [List.append_assoc]
  show readUnicode ((unicodeEscape (0xD800 + v / 0x400)).drop 2 ++ (unicodeEscape (0xDC00 + v % 0x400) ++ rest)) = _
  rw [readUnicode, readUnit_hexDigits hhigh]
  refine (if_pos hyes).trans ?_
  show (readUnit ((unicodeEscape (0xDC00 + v % 0x400)).drop 2 ++ rest) >>= _) = _
  rw [readUnit_hexDigits hlow]
  show some (Char.ofNat _, rest) = _
  rw [show 0x10000 + (0xD800 + v / 0x400 - 0xD800) * 0x400 + (0xDC00 + v % 0x400 - 0xDC00) = 0x10000 + v by omega]

theorem readChar_of_ne {c : Char} (h : c ≠ '\\') (rest : List Char) : readChar (c :: rest) = some (c, rest) := by
  unfold readChar
  split
  · rename_i heq; exact absurd (List.cons.inj heq).1 h
  · rename_i heq; exact absurd (List.cons.inj heq).1 h
  · rename_i heq
    cases heq
    rfl
  · rename_i heq; cases heq

/-- Every character is read back from its escape. -/
theorem readChar_escapeChar (c : Char) (rest : List Char) : readChar (escapeChar c ++ rest) = some (c, rest) := by
  unfold escapeChar
  split_ifs with h h h h h8 h12 hprint hbmp
  · rcases h with rfl | rfl <;> rfl
  · rw [h]; rfl
  · rw [h]; rfl
  · rw [h]; rfl
  · rw [← Char.ofNat_toNat c, h8]; rfl
  · rw [← Char.ofNat_toNat c, h12]; rfl
  · exact readChar_of_ne (by rintro rfl; exact absurd (Or.inr rfl) ‹¬(_ ∨ _)›) rest
  · rw [readChar_unicodeEscape hbmp ?_, Char.ofNat_toNat]
    have hvalid : c.toNat < 0xD800 ∨ (0xDFFF < c.toNat ∧ c.toNat < 0x110000) := c.valid
    exact hvalid.imp id And.left
  · have hvalid : c.toNat < 0xD800 ∨ (0xDFFF < c.toNat ∧ c.toNat < 0x110000) := c.valid
    have hv : c.toNat - 0x10000 < 0x100000 := by omega
    refine (readChar_surrogates hv rest).trans ?_
    rw [show 0x10000 + (c.toNat - 0x10000) = c.toNat by omega, Char.ofNat_toNat]

theorem escapeChar_ne_quote (c : Char) {s t : List Char} : escapeChar c ++ s ≠ '"' :: t := by
  intro h
  have hread := readChar_escapeChar c s
  rw [h, readChar_of_ne (by decide)] at hread
  cases hread
  cases h

theorem flatMap_escapeChar_inj {cs ds s t : List Char}
    (h : cs.flatMap escapeChar ++ '"' :: s = ds.flatMap escapeChar ++ '"' :: t) : cs = ds ∧ s = t := by
  induction cs generalizing ds with
  | nil =>
    cases ds with
    | nil => exact ⟨rfl, (List.cons.inj h).2⟩
    | cons d ds =>
      rw [List.flatMap_cons, List.append_assoc] at h
      exact absurd h.symm (escapeChar_ne_quote d)
  | cons c cs ih =>
    cases ds with
    | nil =>
      rw [List.flatMap_cons, List.append_assoc] at h
      exact absurd h (escapeChar_ne_quote c)
    | cons d ds =>
      rw [List.flatMap_cons, List.flatMap_cons, List.append_assoc, List.append_assoc] at h
      have hread := readChar_escapeChar c (cs.flatMap escapeChar ++ '"' :: s)
      rw [h, readChar_escapeChar] at hread
      obtain ⟨rfl, hrest⟩ := Prod.mk.inj (Option.some.inj hread)
      obtain ⟨rfl, hst⟩ := ih hrest.symm
      exact ⟨rfl, hst⟩

theorem toList_quoteStr (s : String) : (quoteStr s).toList = '"' :: (s.toList.flatMap escapeChar ++ ['"']) := by
  rw [quoteStr, String.toList_ofList, List.cons_append]

/-- A quoted string ends at its closing quote. -/
theorem quoteStr_append_inj {a b : String} {s t : List Char}
    (h : (quoteStr a).toList ++ s = (quoteStr b).toList ++ t) : a = b ∧ s = t := by
  rw [toList_quoteStr, toList_quoteStr, List.cons_append, List.cons_append, List.append_assoc, List.append_assoc] at h
  obtain ⟨htext, hst⟩ := flatMap_escapeChar_inj (List.cons.inj h).2
  exact ⟨String.toList_inj.mp htext, hst⟩

/-! ### Lists of texts -/

/-- What follows a value: no character that an integer could go on with. -/
def Stop (s : List Char) : Prop := ∀ c ∈ s.head?, ¬IsIntChar c

theorem stop_cons {c : Char} {s : List Char} (h : ¬IsIntChar c) : Stop (c :: s) := by
  intro d hd
  cases hd
  exact h

theorem not_isIntChar_comma : ¬IsIntChar ',' := by rw [IsIntChar]; decide

theorem toList_join_cons (sep x : String) (xs : List String) :
    (join sep (x :: xs)).toList = x.toList ++ xs.flatMap fun y => sep.toList ++ y.toList := by
  induction xs generalizing x with
  | nil => simp [join]
  | cons y ys ih => rw [join, String.toList_append, String.toList_append, ih, List.flatMap_cons, List.append_assoc, List.append_assoc]

section
variable {α : Type} {f : α → List Char} {R : α → α → Prop} {close : Char}

/-- What comes after the items of a list stops the last of them. -/
theorem stop_flatMap (hclose : ¬IsIntChar close) (xs : List α) (s : List Char) :
    Stop ((xs.flatMap fun x => ',' :: f x) ++ close :: s) := by
  cases xs with
  | nil => exact stop_cons hclose
  | cons x xs => exact stop_cons not_isIntChar_comma

theorem flatMap_comma_inj (hclose : ¬IsIntChar close) (hcomma : close ≠ ',') {xs ys : List α} {s t : List Char}
    (hstep : ∀ x ∈ xs, ∀ y ∈ ys, ∀ s t, Stop s → Stop t → f x ++ s = f y ++ t → R x y ∧ s = t)
    (h : (xs.flatMap fun x => ',' :: f x) ++ close :: s = (ys.flatMap fun y => ',' :: f y) ++ close :: t) :
    List.Forall₂ R xs ys ∧ s = t := by
  induction xs generalizing ys with
  | nil =>
    cases ys with
    | nil => exact ⟨.nil, (List.cons.inj h).2⟩
    | cons y ys => exact absurd (List.cons.inj h).1 hcomma
  | cons x xs ih =>
    cases ys with
    | nil => exact absurd (List.cons.inj h).1.symm hcomma
    | cons y ys =>
      rw [List.flatMap_cons, List.flatMap_cons, List.append_assoc, List.append_assoc] at h
      obtain ⟨hxy, hrest⟩ := hstep x (List.mem_cons_self ..) y (List.mem_cons_self ..) _ _
        (stop_flatMap hclose xs s) (stop_flatMap hclose ys t) (List.cons.inj h).2
      obtain ⟨hall, hst⟩ := ih (fun x hx y hy => hstep x (List.mem_cons_of_mem _ hx) y (List.mem_cons_of_mem _ hy)) hrest
      exact ⟨.cons hxy hall, hst⟩

/-- Bracketed lists of texts with commas between them part item by item. -/
theorem join_append_inj {text : α → String} (hclose : ¬IsIntChar close) (hcomma : close ≠ ',') {xs ys : List α}
    {s t : List Char} (hhead : ∀ x ∈ xs ++ ys, ∀ s t, (text x).toList ++ s ≠ close :: t)
    (hstep : ∀ x ∈ xs, ∀ y ∈ ys, ∀ s t, Stop s → Stop t → (text x).toList ++ s = (text y).toList ++ t → R x y ∧ s = t)
    (h : (join "," (xs.map text)).toList ++ close :: s = (join "," (ys.map text)).toList ++ close :: t) :
    List.Forall₂ R xs ys ∧ s = t := by
  have hcons (x : α) (xs : List α) (s : List Char) : (join "," ((x :: xs).map text)).toList ++ close :: s =
      (text x).toList ++ ((xs.flatMap fun y => ',' :: (text y).toList) ++ close :: s) := by
    rw [List.map_cons, toList_join_cons, List.flatMap_map, List.append_assoc]
    rfl
  rcases xs with _ | ⟨x, xs⟩ <;> rcases ys with _ | ⟨y, ys⟩
  · exact ⟨.nil, (List.cons.inj h).2⟩
  · rw [hcons] at h
    exact absurd h.symm (hhead y (by simp) _ _)
  · rw [hcons] at h
    exact absurd h (hhead x (by simp) _ _)
  · rw [hcons, hcons] at h
    obtain ⟨hxy, hrest⟩ := hstep x (List.mem_cons_self ..) y (List.mem_cons_self ..) _ _
      (stop_flatMap hclose xs s) (stop_flatMap hclose ys t) h
    obtain ⟨hall, hst⟩ := flatMap_comma_inj hclose hcomma
      (fun x hx y hy => hstep x (List.mem_cons_of_mem _ hx) y (List.mem_cons_of_mem _ hy)) hrest
    exact ⟨.cons hxy hall, hst⟩

end

/-! ### Values -/

namespace Json

/-- A value without floats at any level. -/
inductive FloatFree : Json → Prop where
  | null : FloatFree .null
  | bool (b : Bool) : FloatFree (.bool b)
  | int (n : Int) : FloatFree (.int n)
  | str (s : String) : FloatFree (.str s)
  | arr {items : List Json} (h : ∀ v ∈ items, FloatFree v) : FloatFree (.arr items)
  | obj {items : List (String × Json)} (h : ∀ kv ∈ items, FloatFree kv.2) : FloatFree (.obj items)

/-- The character class that a value starts with; its number tells the kind of the value. -/
def kindOfHead (c : Char) : Nat :=
  if c = 'n' then 0 else if c = 't' ∨ c = 'f' then 1 else if c.isDigit ∨ c = '-' then 2 else if c = '"' then 3
  else if c = '[' then 4 else if c = Char.ofNat 123 then 5 else 6

def kind : Json → Nat
  | .null => 0
  | .bool _ => 1
  | .int _ => 2
  | .str _ => 3
  | .arr _ => 4
  | .obj _ => 5
  | .float _ => 6

theorem kindOfHead_int {c : Char} (h : IsIntChar c) : kindOfHead c = 2 := by
  rcases h with h | rfl
  · have hn : c ≠ 'n' := by rintro rfl; revert h; decide
    have ht : c ≠ 't' := by rintro rfl; revert h; decide
    have hf : c ≠ 'f' := by rintro rfl; revert h; decide
    simp [kindOfHead, hn, ht, hf, h]
  · decide

/-- The first character of a text tells the kind of the value. -/
theorem head_dumps {v : Json} (h : v.FloatFree) : ∃ c r, v.dumps.toList = c :: r ∧ kindOfHead c = v.kind := by
  cases h with
  | null => exact ⟨'n', _, rfl, by decide⟩
  | bool b => cases b <;> exact ⟨_, _, rfl, by decide⟩
  | int n =>
    have hne : (intText n).toList ≠ [] := by
      rw [intText, String.toList_ofList]
      split_ifs
      · exact List.cons_ne_nil _ _
      · exact Nat.toDigits_ne_nil
    obtain ⟨c, r, hcr⟩ := List.exists_cons_of_ne_nil hne
    exact ⟨c, r, hcr, kindOfHead_int (isIntChar_of_mem_intText (hcr ▸ List.mem_cons_self ..))⟩
  | str s => exact ⟨'"', _, toList_quoteStr s, rfl⟩
  | arr _ => exact ⟨'[', _, by rw [dumps, String.toList_append, String.toList_append]; rfl, rfl⟩
  | obj _ => exact ⟨Char.ofNat 123, _, by rw [dumps, String.toList_append, String.toList_append]; rfl, rfl⟩

theorem kind_eq_of_append {v w : Json} (hv : v.FloatFree) (hw : w.FloatFree) {s t : List Char}
    (h : v.dumps.toList ++ s = w.dumps.toList ++ t) : v.kind = w.kind := by
  obtain ⟨c, r, hcr, hc⟩ := head_dumps hv
  obtain ⟨d, u, hdu, hd⟩ := head_dumps hw
  rw [hcr, hdu] at h
  rw [← hc, ← hd, (List.cons.inj h).1]

theorem dumpsList_eq_map (items : List Json) : dumpsList items = items.map dumps := by
  induction items with
  | nil => rfl
  | cons v items ih => rw [dumpsList, ih]; rfl

theorem sortKeysList_eq_map (items : List Json) : sortKeysList items = items.map sortKeys := by
  induction items with
  | nil => rfl
  | cons v items ih => rw [sortKeysList, ih]; rfl

theorem dumpsItems_eq_map (items : List (String × Json)) : dumpsItems items = items.map fun kv => (kv.1, kv.2.dumps) := by
  induction items with
  | nil => rfl
  | cons kv items ih => obtain ⟨k, v⟩ := kv; rw [dumpsItems, ih]; rfl

theorem sortKeysItems_eq_map (items : List (String × Json)) :
    sortKeysItems items = items.map fun kv => (kv.1, kv.2.sortKeys) := by
  induction items with
  | nil => rfl
  | cons kv items ih => obtain ⟨k, v⟩ := kv; rw [sortKeysItems, ih]; rfl

/-- Sorting looks at the keys only. -/
theorem sortItems_map {α β : Type} (f : α → β) (items : List (String × α)) :
    sortItems (items.map fun kv => (kv.1, f kv.2)) = (sortItems items).map fun kv => (kv.1, f kv.2) := by
  have hsort := List.map_insertionSort (fun a b : String × α => a.1 ≤ b.1) (fun a b : String × β => a.1 ≤ b.1)
    (fun kv => (kv.1, f kv.2)) items fun _ _ _ _ => Iff.rfl
  exact hsort.symm

theorem mem_sortItems {α : Type} {items : List (String × α)} {kv : String × α} : kv ∈ sortItems items ↔ kv ∈ items :=
  (List.perm_insertionSort _ items).mem_iff

theorem map_eq_of_forall₂ {α β : Type} {f : α → β} {xs ys : List α} (h : List.Forall₂ (fun x y => f x = f y) xs ys) :
    xs.map f = ys.map f := by
  induction h with
  | nil => rfl
  | cons hxy _ ih => rw [List.map_cons, List.map_cons, hxy, ih]

/-- One item of an object. -/
def itemText (kv : String × Json) : String := quoteStr kv.1 ++ ":" ++ kv.2.dumps

theorem dumps_obj (items : List (String × Json)) :
    (obj items).dumps = "\x7b" ++ join "," ((sortItems items).map itemText) ++ "\x7d" := by
  rw [dumps, dumpsItems_eq_map, sortItems_map, List.map_map]
  rfl

theorem sortKeys_obj_eq (items : List (String × Json)) :
    (obj items).sortKeys = .obj ((sortItems items).map fun kv => (kv.1, kv.2.sortKeys)) := by
  rw [sortKeys, sortKeysItems_eq_map, sortItems_map]

/-- Equal texts are of values that are equal up to the order of their keys, and what follows is equal. -/
theorem dumps_append_inj {v w : Json} (hv : v.FloatFree) (hw : w.FloatFree) {s t : List Char} (hs : Stop s) (ht : Stop t)
    (h : v.dumps.toList ++ s = w.dumps.toList ++ t) : v.sortKeys = w.sortKeys ∧ s = t := by
  induction hv generalizing w s t with
  | null =>
    have hkind := kind_eq_of_append .null hw h
    cases hw <;> cases hkind
    exact ⟨rfl, List.append_cancel_left h⟩
  | bool b =>
    have hkind := kind_eq_of_append (.bool b) hw h
    cases hw <;> cases hkind
    rename_i b'
    cases b <;> cases b'
    · exact ⟨rfl, List.append_cancel_left h⟩
    · exact absurd (List.cons.inj h).1 (by decide)
    · exact absurd (List.cons.inj h).1 (by decide)
    · exact ⟨rfl, List.append_cancel_left h⟩
  | int n =>
    have hkind := kind_eq_of_append (.int n) hw h
    cases hw <;> cases hkind
    obtain ⟨rfl, hst⟩ := intText_append_inj hs ht h
    exact ⟨rfl, hst⟩
  | str a =>
    have hkind := kind_eq_of_append (.str a) hw h
    cases hw <;> cases hkind
    obtain ⟨rfl, hst⟩ := quoteStr_append_inj h
    exact ⟨rfl, hst⟩
  | @arr items hitems ih =>
    have hkind := kind_eq_of_append (.arr hitems) hw h
    cases hw <;> cases hkind
    rename_i items' hitems'
    have hclose : ¬IsIntChar ']' := by rw [IsIntChar]; decide
    have hhead (x : Json) (hx : x ∈ items ++ items') (s t : List Char) : x.dumps.toList ++ s ≠ ']' :: t := by
      have hfree : x.FloatFree := (List.mem_append.mp hx).elim (hitems x) (hitems' x)
      obtain ⟨c, r, hcr, hc⟩ := head_dumps hfree
      intro heq
      rw [hcr] at heq
      rw [(List.cons.inj heq).1, show kindOfHead ']' = 6 by decide] at hc
      cases hfree <;> cases hc
    have htext (items : List Json) (s : List Char) :
        (arr items).dumps.toList ++ s = '[' :: ((join "," (items.map dumps)).toList ++ ']' :: s) := by
      rw [dumps, dumpsList_eq_map, String.toList_append, String.toList_append, List.append_assoc, List.append_assoc]
      rfl
    rw [htext, htext] at h
    obtain ⟨hall, hst⟩ := join_append_inj (R := fun x y => x.sortKeys = y.sortKeys) hclose (by decide) hhead
      (fun x hx y hy s t hs ht hxy => ih x hx (hitems' y hy) hs ht hxy) (List.cons.inj h).2
    refine ⟨?_, hst⟩
    rw [sortKeys, sortKeys, sortKeysList_eq_map, sortKeysList_eq_map, map_eq_of_forall₂ hall]
  | @obj items hitems ih =>
    have hkind := kind_eq_of_append (.obj hitems) hw h
    cases hw <;> cases hkind
    rename_i items' hitems'
    have hclose : ¬IsIntChar (Char.ofNat 125) := by rw [IsIntChar]; decide
    have hitem (kv : String × Json) (s : List Char) :
        (itemText kv).toList ++ s = (quoteStr kv.1).toList ++ ':' :: (kv.2.dumps.toList ++ s) := by
      rw [itemText, String.toList_append, String.toList_append, List.append_assoc, List.append_assoc]
      rfl
    have hhead (kv : String × Json) (s t : List Char) : (itemText kv).toList ++ s ≠ Char.ofNat 125 :: t := by
      rw [hitem, toList_quoteStr]
      intro heq
      exact absurd (List.cons.inj heq).1 (by decide)
    have htext (items : List (String × Json)) (s : List Char) : (obj items).dumps.toList ++ s =
        Char.ofNat 123 :: ((join "," ((sortItems items).map itemText)).toList ++ Char.ofNat 125 :: s) := by
      rw [dumps_obj, String.toList_append, String.toList_append, List.append_assoc, List.append_assoc]
      rfl
    have hstep (kv : String × Json) (hkv : kv ∈ sortItems items) (kw : String × Json) (hkw : kw ∈ sortItems items')
        (s t : List Char) (hs : Stop s) (ht : Stop t) (heq : (itemText kv).toList ++ s = (itemText kw).toList ++ t) :
        (kv.1, kv.2.sortKeys) = (kw.1, kw.2.sortKeys) ∧ s = t := by
      rw [hitem, hitem] at heq
      obtain ⟨hkey, hrest⟩ := quoteStr_append_inj heq
      obtain ⟨hvalue, hst⟩ := ih kv (mem_sortItems.mp hkv) (hitems' kw (mem_sortItems.mp hkw)) hs ht (List.cons.inj hrest).2
      exact ⟨Prod.ext hkey hvalue, hst⟩
    rw [htext, htext] at h
    obtain ⟨hall, hst⟩ := join_append_inj hclose (by decide) (fun kv _ => hhead kv) hstep (List.cons.inj h).2
    refine ⟨?_, hst⟩
    rw [sortKeys_obj_eq, sortKeys_obj_eq, map_eq_of_forall₂ hall]

/-- The text of a value without floats determines it up to the order of its keys. -/
theorem sortKeys_eq_of_dumps {v w : Json} (hv : v.FloatFree) (hw : w.FloatFree) (h : v.dumps = w.dumps) :
    v.sortKeys = w.sortKeys := by
  have hend : Stop [] := fun _ hc => by cases hc
  exact (dumps_append_inj hv hw hend hend (by rw [h])).1

/-- A list of items can only be put in another order by changing the order of its keys. -/
theorem eq_of_perm_of_keys {α : Type} {l l' : List (String × α)} (hkeys : l.map Prod.fst = l'.map Prod.fst)
    (hnodup : (l.map Prod.fst).Nodup) (hperm : l.Perm l') : l = l' := by
  induction l generalizing l' with
  | nil => exact hperm.symm.eq_nil.symm
  | cons a l ih =>
    cases l' with
    | nil => cases hkeys
    | cons b l' =>
      have htail : l.map Prod.fst = l'.map Prod.fst := (List.cons.inj hkeys).2
      rw [List.map_cons, List.nodup_cons] at hnodup
      have heq : a = b := by
        rcases List.mem_cons.mp (hperm.mem_iff.mp (List.mem_cons_self ..)) with h | h
        · exact h
        · have hmem : a.1 ∈ l'.map Prod.fst := List.mem_map_of_mem h
          exact absurd (htail ▸ hmem) hnodup.1
      subst heq
      rw [ih htail hnodup.2 (List.perm_cons a |>.mp hperm)]

/-- Objects with the same distinct keys in the same order are equal up to the order of keys only value by value. -/
theorem values_eq_of_sortKeys {items items' : List (String × Json)} (keys : List String)
    (hk : items.map Prod.fst = keys) (hk' : items'.map Prod.fst = keys) (hnodup : keys.Nodup)
    (h : (obj items).sortKeys = (obj items').sortKeys) :
    items.map (fun kv => kv.2.sortKeys) = items'.map fun kv => kv.2.sortKeys := by
  rw [sortKeys, sortKeys, Json.obj.injEq, sortKeysItems_eq_map, sortKeysItems_eq_map] at h
  have hkeysOf (items : List (String × Json)) :
      (items.map fun kv => (kv.1, kv.2.sortKeys)).map Prod.fst = items.map Prod.fst := by
    rw [List.map_map]
    rfl
  have hperm : (items.map fun kv => (kv.1, kv.2.sortKeys)).Perm (items'.map fun kv => (kv.1, kv.2.sortKeys)) := by
    refine (List.perm_insertionSort (fun a b => a.1 ≤ b.1) _).symm.trans ?_
    rw [sortItems, sortItems] at h
    rw [h]
    exact List.perm_insertionSort _ _
  have heq := eq_of_perm_of_keys (by rw [hkeysOf, hkeysOf, hk, hk']) (by rwa [hkeysOf, hk]) hperm
  have hvalues := congrArg (List.map Prod.snd) heq
  rw [List.map_map, List.map_map] at hvalues
  exact hvalues

/-! ### Values that can be written -/

theorem integersList_eq_flatMap (items : List Json) : integersList items = items.flatMap integers := by
  induction items with
  | nil => rfl
  | cons v items ih => rw [integersList, ih]; rfl

theorem integersItems_eq_flatMap (items : List (String × Json)) : integersItems items = items.flatMap fun kv => kv.2.integers := by
  induction items with
  | nil => rfl
  | cons kv items ih => obtain ⟨k, v⟩ := kv; rw [integersItems, ih]; rfl

theorem writable_arr {items : List Json} : (arr items).Writable ↔ ∀ v ∈ items, v.Writable := by
  simp only [Writable, integers, integersList_eq_flatMap, List.mem_flatMap]
  exact ⟨fun h v hv n hn => h n ⟨v, hv, hn⟩, fun h n ⟨v, hv, hn⟩ => h v hv n hn⟩

theorem writable_obj {items : List (String × Json)} : (obj items).Writable ↔ ∀ kv ∈ items, kv.2.Writable := by
  simp only [Writable, integers, integersItems_eq_flatMap, List.mem_flatMap]
  exact ⟨fun h kv hkv n hn => h n ⟨kv, hkv, hn⟩, fun h n ⟨kv, hkv, hn⟩ => h kv hkv n hn⟩

/-- A value is a scalar, or made of its elements or its members. -/
theorem induction {P : Json → Prop} (hscalar : ∀ s : Scalar, P s.toJson) (harr : ∀ items, (∀ v ∈ items, P v) → P (.arr items))
    (hobj : ∀ items, (∀ kv ∈ items, P kv.2) → P (.obj items)) : ∀ v, P v
  | .null => hscalar .none
  | .bool b => hscalar (.bool b)
  | .int n => hscalar (.int n)
  | .float x => hscalar (.float x)
  | .str s => hscalar (.str s)
  | .arr items => harr items fun v _ => induction hscalar harr hobj v
  | .obj items => hobj items fun kv _ => induction hscalar harr hobj kv.2
decreasing_by
  · have hlist := List.sizeOf_lt_of_mem ‹v ∈ items›
    simp only [arr.sizeOf_spec]
    omega
  · have hlist := List.sizeOf_lt_of_mem ‹kv ∈ items›
    have hitem : sizeOf kv.2 < sizeOf kv := by
      obtain ⟨k, v⟩ := kv
      simp only [Prod.mk.sizeOf_spec]
      omega
    simp only [obj.sizeOf_spec]
    omega

theorem Writable.sortKeys {v : Json} (h : v.Writable) : v.sortKeys.Writable := by
  induction v using Json.induction with
  | hscalar s => rwa [sortKeys_toJson]
  | harr items ih =>
    rw [Json.sortKeys, sortKeysList_eq_map, writable_arr]
    exact List.forall_mem_map.mpr fun v hv => ih v hv (writable_arr.mp h v hv)
  | hobj items ih =>
    rw [sortKeys_obj_eq, writable_obj]
    exact List.forall_mem_map.mpr fun kv hkv =>
      ih kv (mem_sortItems.mp hkv) (writable_obj.mp h kv (mem_sortItems.mp hkv))

theorem length_le_join (sep : String) {xs : List String} {x : String} (h : x ∈ xs) :
    x.toList.length ≤ (join sep xs).toList.length := by
  cases xs with
  | nil => cases h
  | cons y xs =>
    rw [toList_join_cons, List.length_append]
    rcases List.mem_cons.mp h with rfl | h
    · exact Nat.le_add_right ..
    · have hpart : (sep.toList ++ x.toList).length ≤ (xs.flatMap fun y => sep.toList ++ y.toList).length :=
        (List.sublist_flatten_of_mem (List.mem_map_of_mem (f := fun y => sep.toList ++ y.toList) h)).length_le
      rw [List.length_append] at hpart
      omega

theorem length_intText_le (v : Json) : ∀ n ∈ v.integers, (intText n).toList.length ≤ v.dumps.toList.length := by
  induction v using Json.induction with
  | hscalar s =>
    intro n hn
    cases s with
    | int m =>
      rw [List.mem_singleton.mp hn]
      exact le_rfl
    | _ => cases hn
  | harr items ih =>
    intro n hn
    rw [integers, integersList_eq_flatMap] at hn
    obtain ⟨v, hv, hn⟩ := List.mem_flatMap.mp hn
    have hjoin := length_le_join "," (List.mem_map_of_mem (f := dumps) hv)
    rw [dumps, dumpsList_eq_map, String.toList_append, String.toList_append, List.length_append, List.length_append]
    exact (ih v hv n hn).trans (by omega)
  | hobj items ih =>
    intro n hn
    rw [integers, integersItems_eq_flatMap] at hn
    obtain ⟨kv, hkv, hn⟩ := List.mem_flatMap.mp hn
    have hjoin := length_le_join "," (List.mem_map_of_mem (f := itemText) (mem_sortItems.mpr hkv))
    rw [itemText, String.toList_append, List.length_append] at hjoin
    rw [dumps_obj, String.toList_append, String.toList_append, List.length_append, List.length_append]
    exact (ih kv hkv n hn).trans (by omega)

theorem length_le_utf8ByteSize (s : String) : s.toList.length ≤ s.utf8ByteSize := by
  induction s using String.push_induction with
  | empty => exact le_rfl
  | push s c ih =>
    have hpos := c.utf8Size_pos
    rw [String.toList_push, List.length_append, List.length_singleton, String.utf8ByteSize_push]
    omega

/-- A line that is short enough holds no integer that is too long. -/
theorem writable_of_line {v : Json} (h : v.line.utf8ByteSize ≤ maxStrDigits) : v.Writable := by
  intro n hn
  have htext := length_intText_le v n hn
  have hdigits : (natDigits n.natAbs).length ≤ (intText n).toList.length := by
    rw [intText, String.toList_ofList]
    split_ifs
    · exact Nat.le_succ _
    · exact le_rfl
  have hline := length_le_utf8ByteSize v.line
  rw [line, String.toList_append, List.length_append] at hline
  refine (Nat.length_toDigits_le_iff (by decide) (by decide)).mp (show (natDigits n.natAbs).length ≤ maxStrDigits from ?_)
  rw [line] at h
  omega

end Json

end Py
