import OrbitOps.Py.Json

/-!
# Printable ASCII

Numbers in decimal and quoted JSON texts consist of the characters from space to tilde. Such a text
has no control character: no NUL, no line break and no escape.
-/

namespace Py

/-- A character from space to tilde. -/
def isPrintable (c : Char) : Bool := 32 ≤ c.toNat && c.toNat ≤ 126

/-- A text of printable ASCII characters. -/
def Printable (s : String) : Prop := ∀ c ∈ s.toList, isPrintable c = true

instance (s : String) : Decidable (Printable s) := List.decidableBAll (fun c => isPrintable c = true) s.toList

theorem Printable.empty : Printable "" := by decide

theorem printable_append {a b : String} : Printable (a ++ b) ↔ Printable a ∧ Printable b := by
  simp only [Printable, String.toList_append, List.mem_append, or_imp, forall_and]

theorem Printable.append {a b : String} (ha : Printable a) (hb : Printable b) : Printable (a ++ b) :=
  printable_append.mpr ⟨ha, hb⟩

theorem printable_ofList {cs : List Char} : Printable (String.ofList cs) ↔ ∀ c ∈ cs, isPrintable c = true := by
  rw [Printable, String.toList_ofList]

theorem Printable.not_mem {s : String} (h : Printable s) {c : Char} (hc : isPrintable c = false) : c ∉ s.toList := by
  intro hmem
  rw [h c hmem] at hc
  cases hc

theorem Printable.hasNul {s : String} (h : Printable s) : hasNul s = false := by
  rw [Py.hasNul, Bool.eq_false_iff]
  exact fun hc => h.not_mem (by decide) (List.contains_iff_mem.mp hc)

theorem printable_join {sep : String} (hsep : Printable sep) {xs : List String} (h : ∀ s ∈ xs, Printable s) :
    Printable (join sep xs) := by
  induction xs with
  | nil => exact .empty
  | cons s xs ih =>
    cases xs with
    | nil => exact h s (List.mem_cons_self ..)
    | cons t rest =>
      rw [join]
      exact ((h s (List.mem_cons_self ..)).append hsep).append (ih fun u hu => h u (List.mem_cons_of_mem _ hu))

/-! ### Numbers -/

theorem isPrintable_of_isDigit {c : Char} (h : c.isDigit = true) : isPrintable c = true := by
  obtain ⟨hlo, hhi⟩ : 48 ≤ c.toNat ∧ c.toNat ≤ 57 := by
    simpa [Char.isDigit, UInt32.le_iff_toNat_le] using h
  simp only [isPrintable, Bool.and_eq_true, decide_eq_true_eq]
  omega

theorem isPrintable_natDigits {n : Nat} {c : Char} (h : c ∈ natDigits n) : isPrintable c = true :=
  isPrintable_of_isDigit (Nat.isDigit_of_mem_toDigits (by decide) (by decide) h)

theorem printable_natDigits (n : Nat) : Printable (String.ofList (natDigits n)) :=
  printable_ofList.mpr fun _ => isPrintable_natDigits

theorem printable_intText (n : Int) : Printable (intText n) := by
  unfold intText
  split_ifs
  · refine printable_ofList.mpr fun c hc => ?_
    rcases List.mem_cons.mp hc with rfl | hc
    · decide
    · exact isPrintable_natDigits hc
  · exact printable_natDigits _

theorem printable_toString_nat (n : Nat) : Printable (toString n) := printable_natDigits n

theorem printable_toString_int (n : Int) : Printable (toString n) := by
  cases n with
  | ofNat n => exact printable_toString_nat n
  | negSucc n => exact Printable.append (by decide) (printable_toString_nat (n + 1))

theorem printable_padLeft {fill : Char} (hf : isPrintable fill = true) {width : Nat} {s : String} (h : Printable s) :
    Printable (padLeft fill width s) := by
  refine Printable.append (printable_ofList.mpr fun c hc => ?_) h
  rw [(List.mem_replicate.mp hc).2, hf]

theorem printable_fixedFraction (neg : Bool) (n d k : Nat) : Printable (fixedFraction neg n d k) := by
  unfold fixedFraction
  refine Printable.append (Printable.append ?_ (printable_natDigits _)) ?_
  · split_ifs <;> decide
  · split_ifs
    · decide
    · exact Printable.append (by decide) (printable_padLeft (by decide) (printable_natDigits _))

/-- The hexadecimal digits of a number, in either case. -/
theorem isPrintable_toDigits_hex {n : Nat} {c : Char} (h : c ∈ Nat.toDigits 16 n) :
    isPrintable c = true ∧ isPrintable c.toUpper = true := by
  have hdigit : ∀ d < 16, isPrintable (Nat.digitChar d) = true ∧ isPrintable (Nat.digitChar d).toUpper = true := by
    decide
  induction n using Nat.strongRecOn with
  | ind n ih =>
    by_cases hn : n < 16
    · rw [Nat.toDigits_of_lt_base hn] at h
      rw [List.mem_singleton.mp h]
      exact hdigit n hn
    · rw [Nat.toDigits_of_base_le (by decide) (not_lt.mp hn)] at h
      rcases List.mem_append.mp h with h | h
      · exact ih (n / 16) (Nat.div_lt_self (by omega) (by decide)) h
      · rw [List.mem_singleton.mp h]
        exact hdigit _ (Nat.mod_lt n (by decide))

theorem printable_hexUpper (width n : Nat) : Printable (hexUpper width n) := by
  refine printable_padLeft (by decide) (printable_ofList.mpr fun c hc => ?_)
  obtain ⟨d, hd, rfl⟩ := List.mem_map.mp hc
  exact (isPrintable_toDigits_hex hd).2

namespace Float64

theorem printable_fixed (k : Nat) (x : Float64) : Printable (fixed k x) := by
  unfold fixed
  split_ifs
  · decide
  · decide
  · decide
  · exact printable_fixedFraction x.signBit x.units (2 ^ 1074) k

/-- The digits of the shortest decimal are digits. -/
theorem isPrintable_shortestDecimal {x : Float64} {c : Char} (h : c ∈ x.shortestDecimal.1) : isPrintable c = true := by
  unfold shortestDecimal at h
  rw [List.mem_reverse] at h
  exact isPrintable_natDigits (List.mem_reverse.mp ((List.dropWhile_suffix _).subset h))

theorem printable_repr (x : Float64) : Printable x.repr := by
  have hsign : Printable (if x.signBit = true then "-" else "") := by split_ifs <;> decide
  have hzeros (n : Nat) : ∀ c ∈ List.replicate n '0', isPrintable c = true := fun c hc => by
    rw [(List.mem_replicate.mp hc).2]; decide
  have hdigits : ∀ c ∈ x.shortestDecimal.1, isPrintable c = true := fun _ => isPrintable_shortestDecimal
  have htake (n : Nat) : ∀ c ∈ x.shortestDecimal.1.take n, isPrintable c = true := fun c hc =>
    hdigits c (List.mem_of_mem_take hc)
  have hdrop (n : Nat) : ∀ c ∈ x.shortestDecimal.1.drop n, isPrintable c = true := fun c hc =>
    hdigits c (List.mem_of_mem_drop hc)
  have hexpo (n : Nat) : ∀ c ∈ (padLeft '0' 2 (String.ofList (natDigits n))).toList, isPrintable c = true :=
    printable_padLeft (by decide) (printable_natDigits n)
  have hpoint : isPrintable '.' = true ∧ isPrintable '0' = true ∧ isPrintable 'e' = true ∧ isPrintable '-' = true ∧
      isPrintable '+' = true := by decide
  obtain ⟨hdot, hzero, he, hminus, hplus⟩ := hpoint
  have hnil : ∀ c ∈ ([] : List Char), isPrintable c = true := fun c hc => by cases hc
  unfold repr
  generalize x.shortestDecimal = sd at hdigits htake hdrop
  generalize x.units = units
  generalize (if x.signBit = true then "-" else "") = sign at hsign ⊢
  obtain ⟨digits, point⟩ := sd
  dsimp only at hdigits htake hdrop ⊢
  split_ifs
  · exact (by decide : Printable "nan")
  · exact hsign.append (by decide : Printable "inf")
  · exact hsign.append (by decide : Printable "0.0")
  all_goals
    refine hsign.append (printable_ofList.mpr ?_)
    simp only [List.forall_mem_append, List.forall_mem_cons]
  · exact ⟨⟨hzero, hdot, hzeros _⟩, hdigits⟩
  · exact ⟨⟨hdigits, hzeros _⟩, hdot, hzero, hnil⟩
  · exact ⟨htake _, hdot, hdrop _⟩
  · exact ⟨⟨htake _, hnil⟩, he, hminus, hexpo _⟩
  · exact ⟨⟨htake _, hnil⟩, he, hplus, hexpo _⟩
  · exact ⟨⟨htake _, hdot, hdrop _⟩, he, hminus, hexpo _⟩
  · exact ⟨⟨htake _, hdot, hdrop _⟩, he, hplus, hexpo _⟩

end Float64

/-! ### Bytes -/

theorem isPrintable_hexDigit : ∀ n < 16, isPrintable (hexDigit n) = true := by decide

theorem isPrintable_reprByte {quote : Char} (hquote : isPrintable quote = true) {b : UInt8} {c : Char}
    (h : c ∈ reprByte quote b) : isPrintable c = true := by
  have hbyte := b.toNat_lt
  have hvalid : b.toNat.isValidChar := .inl (by omega)
  have hchar : (Char.ofNat b.toNat).toNat = b.toNat := by
    rw [Char.ofNat, dif_pos hvalid]
    rfl
  unfold reprByte at h
  dsimp only at h
  split_ifs at h with hescaped htab hnl hcr hctl
  · have hc : isPrintable (Char.ofNat b.toNat) = true := by
      rcases hescaped with heq | heq
      · rw [heq]; exact hquote
      · rw [heq]; decide
    rcases List.mem_cons.mp h with rfl | h
    · decide
    · rw [List.mem_singleton.mp h]; exact hc
  · exact List.all_eq_true.mp (by decide) c h
  · exact List.all_eq_true.mp (by decide) c h
  · exact List.all_eq_true.mp (by decide) c h
  · simp only [hexByte, List.mem_cons, List.not_mem_nil, or_false] at h
    rcases h with rfl | rfl | rfl | rfl
    · decide
    · decide
    · exact isPrintable_hexDigit _ (by omega)
    · exact isPrintable_hexDigit _ (by omega)
  · rw [List.mem_singleton.mp h, isPrintable, hchar]
    simp only [Bool.and_eq_true, decide_eq_true_eq]
    omega

theorem printable_reprBytes (bs : List UInt8) : Printable (reprBytes bs) := by
  have hquote : isPrintable (if (bs.contains 39 && !bs.contains 34) = true then '"' else '\'') = true := by
    split_ifs <;> decide
  refine printable_ofList.mpr fun c hc => ?_
  rcases List.mem_append.mp hc with hc | hc
  · rcases List.mem_cons.mp hc with rfl | hc
    · decide
    · rcases List.mem_cons.mp hc with rfl | hc
      · exact hquote
      · obtain ⟨b, -, hc⟩ := List.mem_flatMap.mp hc
        exact isPrintable_reprByte hquote hc
  · rw [List.mem_singleton.mp hc]
    exact hquote

/-! ### JSON scalars -/

theorem isPrintable_unicodeEscape {n : Nat} {c : Char} (h : c ∈ unicodeEscape n) : isPrintable c = true := by
  simp only [unicodeEscape, List.mem_cons, List.not_mem_nil, or_false] at h
  rcases h with rfl | rfl | rfl | rfl | rfl | rfl
  · decide
  · decide
  all_goals exact isPrintable_hexDigit _ (Nat.mod_lt _ (by decide))

/-- Whatever the character, its escape is printable. -/
theorem isPrintable_escapeChar {a c : Char} (h : c ∈ escapeChar a) : isPrintable c = true := by
  unfold escapeChar at h
  split_ifs at h with hquote hnl hcr htab hbs hff hplain hbmp
  · rcases hquote with rfl | rfl <;> exact List.all_eq_true.mp (by decide) c h
  · exact List.all_eq_true.mp (by decide) c h
  · exact List.all_eq_true.mp (by decide) c h
  · exact List.all_eq_true.mp (by decide) c h
  · exact List.all_eq_true.mp (by decide) c h
  · exact List.all_eq_true.mp (by decide) c h
  · rw [List.mem_singleton.mp h]
    simpa [isPrintable] using hplain
  · exact isPrintable_unicodeEscape h
  · exact (List.mem_append.mp h).elim isPrintable_unicodeEscape isPrintable_unicodeEscape

theorem printable_quoteStr (s : String) : Printable (quoteStr s) := by
  refine printable_ofList.mpr fun c hc => ?_
  rcases List.mem_append.mp hc with hc | hc
  · rcases List.mem_cons.mp hc with rfl | hc
    · decide
    · obtain ⟨a, -, hc⟩ := List.mem_flatMap.mp hc
      exact isPrintable_escapeChar hc
  · rw [List.mem_singleton.mp hc]; decide

/-- A scalar's JSON text is printable, whatever the scalar. -/
theorem printable_dumps (v : Scalar) : Printable v.dumps := by
  cases v with
  | none => exact (by decide : Printable "null")
  | bool b => cases b <;> exact (by decide)
  | int n => exact printable_intText n
  | float x =>
    show Printable (dumpsFloat x)
    unfold dumpsFloat
    split_ifs
    · decide
    · decide
    · decide
    · exact x.printable_repr
  | str s => exact printable_quoteStr s

end Py
