import OrbitOps.Py.Json

/-!
# Line-by-line loading

A strict loader reads a text file line by line, skips blank lines, decodes each other line into a
record and compares the record with the ones before it. `foldLines` is that loop. Its main rule
says which files the loop accepts: when the loop state is a function of the records read so far and
one line succeeds exactly when it decodes to a record that may follow them, the file is accepted
exactly when its lines decode to records of which each may follow the ones before.
-/

namespace Py

/-- A readable text file: the lines a text-mode handle yields, and the message of the
`UnicodeDecodeError` that ends the reading, if one does. -/
structure TextFile where
  lines : List String
  undecodable : Option String := none
deriving Repr, DecidableEq

section
variable {ε σ E : Type}

/-- `for n, line in enumerate(handle, start=n)`, blank lines skipped. -/
def foldLines (step : Nat → String → σ → Except ε σ) : Nat → List String → σ → Except ε σ
  | _, [], s => .ok s
  | n, line :: rest, s =>
    if isBlank line then foldLines step (n + 1) rest s
    else (step n line s).bind fun s' => foldLines step (n + 1) rest s'

/-- Reading a whole file, up to the line that cannot be decoded. -/
def TextFile.fold (undecodable : String → ε) (step : Nat → String → σ → Except ε σ) (file : TextFile) (s : σ) :
    Except ε σ :=
  (foldLines step 1 file.lines s).bind fun s' =>
    match file.undecodable with
    | none => .ok s'
    | some message => .error (undecodable message)

/-- The non-blank lines, numbered from `n`, decode to the records. -/
def Decodes (decode : Nat → String → Except ε E) : Nat → List String → List E → Prop
  | _, [], es => es = []
  | n, line :: rest, es =>
    if isBlank line then Decodes decode (n + 1) rest es
    else ∃ e es', es = e :: es' ∧ decode n line = .ok e ∧ Decodes decode (n + 1) rest es'

/-- Each record may follow the ones before it. -/
def Grows (next : List E → E → Prop) : List E → List E → Prop
  | _, [] => True
  | acc, e :: es => next acc e ∧ Grows next (acc ++ [e]) es

variable {step : Nat → String → σ → Except ε σ} {decode : Nat → String → Except ε E} {next : List E → E → Prop}
  {repr : List E → σ}

theorem foldLines_eq_ok (hstep : ∀ n line acc s', isBlank line = false →
      (step n line (repr acc) = .ok s' ↔ ∃ e, decode n line = .ok e ∧ next acc e ∧ s' = repr (acc ++ [e])))
    {n : Nat} {lines : List String} {acc : List E} {s' : σ} :
    foldLines step n lines (repr acc) = .ok s' ↔
      ∃ es, Decodes decode n lines es ∧ Grows next acc es ∧ s' = repr (acc ++ es) := by
  induction lines generalizing n acc with
  | nil =>
    simp only [foldLines, Except.ok.injEq, Decodes]
    constructor
    · rintro rfl; exact ⟨[], rfl, trivial, by rw [List.append_nil]⟩
    · rintro ⟨_, rfl, -, rfl⟩; rw [List.append_nil]
  | cons line rest ih =>
    rw [foldLines]
    by_cases hb : isBlank line = true
    · simp only [hb, ↓reduceIte, Decodes]
      exact ih
    · simp only [hb, ↓reduceIte, Decodes, Bool.false_eq_true]
      constructor
      · intro h
        cases hs : step n line (repr acc) with
        | error e => rw [hs] at h; cases h
        | ok s1 =>
          rw [hs] at h
          obtain ⟨e, hd, hn, rfl⟩ := (hstep n line acc s1 (Bool.not_eq_true _ ▸ hb)).mp hs
          obtain ⟨es, hds, hg, rfl⟩ := ih.mp h
          exact ⟨e :: es, ⟨e, es, rfl, hd, hds⟩, ⟨hn, hg⟩, by rw [List.append_assoc]; rfl⟩
      · rintro ⟨_, ⟨e, es, rfl, hd, hds⟩, ⟨hn, hg⟩, rfl⟩
        rw [(hstep n line acc _ (Bool.not_eq_true _ ▸ hb)).mpr ⟨e, hd, hn, rfl⟩]
        exact ih.mpr ⟨es, hds, hg, by rw [List.append_assoc]; rfl⟩

theorem TextFile.fold_eq_ok {undecodable : String → ε} (hstep : ∀ n line acc s', isBlank line = false →
      (step n line (repr acc) = .ok s' ↔ ∃ e, decode n line = .ok e ∧ next acc e ∧ s' = repr (acc ++ [e])))
    {file : TextFile} {s' : σ} :
    file.fold undecodable step (repr []) = .ok s' ↔ file.undecodable = none ∧
      ∃ es, Decodes decode 1 file.lines es ∧ Grows next [] es ∧ s' = repr es := by
  have hlines (s : σ) : foldLines step 1 file.lines (repr []) = .ok s ↔
      ∃ es, Decodes decode 1 file.lines es ∧ Grows next [] es ∧ s = repr ([] ++ es) := foldLines_eq_ok hstep
  simp only [List.nil_append] at hlines
  unfold fold
  cases hs : foldLines step 1 file.lines (repr []) with
  | error e =>
    constructor
    · intro h; cases h
    · rintro ⟨-, h⟩
      rw [(hlines s').mpr h] at hs; cases hs
  | ok s1 =>
    cases hu : file.undecodable with
    | some message => simp [Except.bind]
    | none =>
      simp only [Except.bind, Except.ok.injEq, true_and]
      rw [← hlines s', hs]
      simp

theorem decodes_map {line : E → String} {es : List E} (n : Nat)
    (h : ∀ e ∈ es, isBlank (line e) = false ∧ ∀ n, decode n (line e) = .ok e) :
    Decodes decode n (es.map line) es := by
  induction es generalizing n with
  | nil => rfl
  | cons e es ih =>
    obtain ⟨hb, hd⟩ := h e (List.mem_cons_self ..)
    simp only [List.map_cons, Decodes, hb, Bool.false_eq_true, ↓reduceIte]
    exact ⟨e, es, rfl, hd n, ih (n + 1) fun e' he' => h e' (List.mem_cons_of_mem _ he')⟩

/-- Lines decode to one list of records at most. -/
theorem Decodes.unique {n : Nat} {lines : List String} {es es' : List E} (h : Decodes decode n lines es)
    (h' : Decodes decode n lines es') : es = es' := by
  induction lines generalizing n es es' with
  | nil => exact h.trans h'.symm
  | cons line rest ih =>
    rw [Decodes] at h h'
    split_ifs at h h' with hb
    · exact ih h h'
    · obtain ⟨e, tail, rfl, hd, hrest⟩ := h
      obtain ⟨e', tail', rfl, hd', hrest'⟩ := h'
      rw [hd] at hd'
      rw [Except.ok.inj hd', ih hrest hrest']

/-- Each record of a growing list may follow the ones before it. -/
theorem Grows.next_of_eq_append {acc es pre suf : List E} {e : E} (h : Grows next acc es)
    (hes : es = pre ++ e :: suf) : next (acc ++ pre) e := by
  induction pre generalizing acc es with
  | nil => subst hes; rw [List.append_nil]; exact h.1
  | cons p pre ih =>
    subst hes
    have := ih h.2 rfl
    rwa [List.append_assoc] at this

theorem Grows.append {acc es es' : List E} (h : Grows next acc es) (h' : Grows next (acc ++ es) es') :
    Grows next acc (es ++ es') := by
  induction es generalizing acc with
  | nil => rwa [List.append_nil] at h'
  | cons e es ih =>
    refine ⟨h.1, ih h.2 ?_⟩
    rwa [List.append_assoc]

theorem Grows.of_append {acc es es' : List E} (h : Grows next acc (es ++ es')) : Grows next acc es := by
  induction es generalizing acc with
  | nil => exact trivial
  | cons e es ih => exact ⟨h.1, ih h.2⟩

theorem Grows.take {acc es : List E} (h : Grows next acc es) (k : Nat) : Grows next acc (es.take k) := by
  rw [← List.take_append_drop k es] at h
  exact h.of_append

/-- Records that are numbered by their positions. -/
theorem Grows.map_index {index : E → Nat} (hindex : ∀ acc e, next acc e → index e = acc.length) {acc es : List E}
    (h : Grows next acc es) : es.map index = List.range' acc.length es.length := by
  induction es generalizing acc with
  | nil => rfl
  | cons e es ih =>
    have hrest := ih h.2
    rw [List.length_append, List.length_singleton] at hrest
    rw [List.map_cons, hindex acc e h.1, hrest, List.length_cons, List.range'_succ]

theorem Grows.snoc {es : List E} {e : E} (h : Grows next [] es) (he : next es e) : Grows next [] (es ++ [e]) :=
  h.append ⟨he, trivial⟩

end

/-! ### What a loop remembers of the records read -/

section
variable {α β : Type} (es : List α) (e : α)

theorem map_head?_concat (f : α → β) : (es ++ [e]).head?.map f = (es.head?.map f).or (some (f e)) := by
  cases es <;> rfl

theorem any_concat (p : α → Bool) : (es ++ [e]).any p = (p e || es.any p) := by
  rw [List.any_append, Bool.or_comm, List.any_cons, List.any_nil, Bool.or_false]

variable {es}

/-- A field that must stay as it is in the first record. -/
theorem not_changed_iff {f : α → β} {b : β} :
    ¬(es.head?.map f ≠ none ∧ es.head?.map f ≠ some b) ↔ ∀ x ∈ es.head?, f x = b := by
  cases es <;> simp

/-- A clock that must not go back, with `-1` before the first record. -/
theorem not_backwards_iff {f : α → Nat} {n : Nat} :
    ¬((n : Int) < (es.getLast?.map fun x => (f x : Int)).getD (-1)) ↔ ∀ x ∈ es.getLast?, f x ≤ n := by
  rcases hl : es.getLast? with _ | x
  · simp only [Option.map_none, Option.getD_none, Option.mem_def, reduceCtorEq, false_imp_iff, implies_true, iff_true]
    omega
  · simp

theorem not_seen_iff {P : α → Prop} [DecidablePred P] :
    ¬(es.any fun x => decide (P x)) = true ↔ ∀ x ∈ es, ¬P x := by
  simp

end

end Py
