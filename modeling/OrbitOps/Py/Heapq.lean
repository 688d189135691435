import Mathlib.Data.List.Perm.Basic
import Mathlib.Order.Lattice
import Mathlib.Data.Multiset.Basic

/-!
# `heapq`

A binary min-heap in an array, with the comparisons and moves of Python's `heapq`: `heappush`
sifts the new last item towards the root, `heappop` lets the hole left at the root sink to a leaf
along the smaller children and sifts the former last item up from there. Items are compared by a
key, and items with equal keys keep whatever order the sifts leave them in.

Both sifts work around one position. `UpReady` allows only the edge into it to be out of order,
`DownReady` every edge at it; in both, its parent is below its children.
-/

namespace Py.Heapq
variable {α κ : Type} [LinearOrder κ] (key : α → κ)

/-- `j` is a child of `i` in the level order of the array. -/
def IsChild (i j : Nat) : Prop := j = 2 * i + 1 ∨ j = 2 * i + 2

instance (i j : Nat) : Decidable (IsChild i j) := inferInstanceAs (Decidable (_ ∨ _))

theorem IsChild.lt {i j : Nat} (h : IsChild i j) : i < j := by
  unfold IsChild at h; omega

theorem IsChild.eq {i i' j : Nat} (h : IsChild i j) (h' : IsChild i' j) : i = i' := by
  unfold IsChild at h h'; omega

theorem isChild_parent {j : Nat} (h : 0 < j) : IsChild ((j - 1) / 2) j := by
  unfold IsChild; omega

/-- `_siftdown(heap, 0, pos)`: the item at `pos` moves towards the root. -/
def siftdown : Nat → Array α → Nat → Array α
  | 0, a, _ => a
  | fuel + 1, a, pos =>
    if h : 0 < pos ∧ pos < a.size then
      if key a[pos] < key a[(pos - 1) / 2] then siftdown fuel (a.swap pos ((pos - 1) / 2)) ((pos - 1) / 2)
      else a
    else a

/-- The child of `pos` that moves up: the right one when it is not above the left one. -/
def smallerChild (a : Array α) (pos : Nat) (h : 2 * pos + 1 < a.size) : Nat :=
  if hr : 2 * pos + 2 < a.size then
    if key a[2 * pos + 1] < key a[2 * pos + 2] then 2 * pos + 1 else 2 * pos + 2
  else 2 * pos + 1

theorem smallerChild_lt (a : Array α) (pos : Nat) (h : 2 * pos + 1 < a.size) :
    smallerChild key a pos h < a.size := by
  unfold smallerChild; split_ifs <;> omega

theorem isChild_smallerChild (a : Array α) (pos : Nat) (h : 2 * pos + 1 < a.size) :
    IsChild pos (smallerChild key a pos h) := by
  unfold smallerChild IsChild; split_ifs <;> omega

/-- The loop of `_siftup`: the item at `pos` sinks to a leaf, whose position comes back too. -/
def sink : Nat → Array α → Nat → Array α × Nat
  | 0, a, pos => (a, pos)
  | fuel + 1, a, pos =>
    if h : 2 * pos + 1 < a.size then
      sink fuel (a.swap pos (smallerChild key a pos h) (by omega) (smallerChild_lt key a pos h))
        (smallerChild key a pos h)
    else (a, pos)

/-- `_siftup(heap, 0)`. -/
def siftup (a : Array α) : Array α :=
  let (a', pos) := sink key a.size a 0
  siftdown key pos a' pos

/-- `heappush(heap, item)`. -/
def heappush (a : Array α) (x : α) : Array α := siftdown key a.size (a.push x) a.size

/-- `heappop(heap)`, or nothing for an empty heap: the last item takes the place of the root. -/
def heappop? (a : Array α) : Option (α × Array α) :=
  if h : 0 < a.size then some (a[0], siftup key (a.swap 0 (a.size - 1)).pop) else none

/-! ### The items are kept -/

theorem siftdown_perm (fuel : Nat) (a : Array α) (pos : Nat) : (siftdown key fuel a pos).toList.Perm a.toList := by
  induction fuel generalizing a pos with
  | zero => exact List.Perm.refl _
  | succ fuel ih =>
    rw [siftdown]
    split_ifs
    · exact (ih _ _).trans (Array.swap_perm _ _).toList
    · exact List.Perm.refl _
    · exact List.Perm.refl _

theorem sink_perm (fuel : Nat) (a : Array α) (pos : Nat) : (sink key fuel a pos).1.toList.Perm a.toList := by
  induction fuel generalizing a pos with
  | zero => exact List.Perm.refl _
  | succ fuel ih =>
    rw [sink]
    split_ifs
    · exact (ih _ _).trans (Array.swap_perm _ _).toList
    · exact List.Perm.refl _

theorem siftup_perm (a : Array α) : (siftup key a).toList.Perm a.toList :=
  (siftdown_perm key _ _ _).trans (sink_perm key _ _ _)

theorem heappush_perm (a : Array α) (x : α) : (heappush key a x).toList.Perm (x :: a.toList) := by
  refine (siftdown_perm key _ _ _).trans ?_
  rw [Array.toList_push]
  exact List.perm_append_singleton x a.toList

theorem cons_pop_swap_perm (a : Array α) (h : 0 < a.size) :
    (a[0] :: (a.swap 0 (a.size - 1)).pop.toList).Perm a.toList := by
  have hswap := (Array.swap_perm h (by omega : a.size - 1 < a.size)).toList
  have hne : (a.swap 0 (a.size - 1)).toList ≠ [] := by
    intro hnil
    have hlen := congrArg List.length hnil
    rw [Array.length_toList, Array.size_swap, List.length_nil] at hlen
    omega
  have hlast : (a.swap 0 (a.size - 1)).toList.getLast hne = a[0] := by
    rw [List.getLast_eq_getElem]
    simp
  refine List.Perm.trans ?_ hswap
  rw [Array.toList_pop, ← hlast]
  refine (List.perm_append_singleton ..).symm.trans (List.Perm.of_eq ?_)
  exact List.dropLast_append_getLast hne

/-- Popping removes one item, the one at the root. -/
theorem heappop?_perm {a a' : Array α} {x : α} (h : heappop? key a = some (x, a')) :
    a.toList.Perm (x :: a'.toList) ∧ a[0]? = some x := by
  unfold heappop? at h
  split_ifs at h with h0
  simp only [Option.some.injEq, Prod.mk.injEq] at h
  obtain ⟨rfl, rfl⟩ := h
  refine ⟨?_, Array.getElem?_eq_getElem h0⟩
  exact (cons_pop_swap_perm a h0).symm.trans ((siftup_perm key _).symm.cons _)

theorem heappop?_eq_none {a : Array α} : heappop? key a = none ↔ a.size = 0 := by
  unfold heappop?
  split_ifs with h
  · simp only [false_iff]
    omega
  · simp only [true_iff]
    omega

/-! ### The order is kept -/

/-- Every item is at or below its children. -/
def IsHeap (a : Array α) : Prop :=
  ∀ i j (hi : i < a.size) (hj : j < a.size), IsChild i j → key a[i] ≤ key a[j]

/-- Only the edge into `pos` may be out of order. -/
structure UpReady (a : Array α) (pos : Nat) : Prop where
  edges : ∀ i j (hi : i < a.size) (hj : j < a.size), IsChild i j → j ≠ pos → key a[i] ≤ key a[j]
  grand : ∀ i k (hi : i < a.size) (hk : k < a.size), IsChild i pos → IsChild pos k → key a[i] ≤ key a[k]

/-- Only the edges at `pos` may be out of order. -/
structure DownReady (a : Array α) (pos : Nat) : Prop where
  edges : ∀ i j (hi : i < a.size) (hj : j < a.size), IsChild i j → i ≠ pos → j ≠ pos → key a[i] ≤ key a[j]
  grand : ∀ i k (hi : i < a.size) (hk : k < a.size), IsChild i pos → IsChild pos k → key a[i] ≤ key a[k]

variable {key} {a : Array α} {pos : Nat}

theorem UpReady.isHeap (h : UpReady key a pos)
    (hpos : ∀ i (hi : i < a.size) (hp : pos < a.size), IsChild i pos → key a[i] ≤ key a[pos]) : IsHeap key a := by
  intro i j hi hj hc
  by_cases hjp : j = pos
  · subst hjp; exact hpos i hi hj hc
  · exact h.edges i j hi hj hc hjp

/-- Moving the item at `pos` above its parent. -/
theorem UpReady.swap {p : Nat} (h : UpReady key a pos) (hp : pos < a.size) (hc : IsChild p pos)
    (hpa : p < a.size) (hlt : key a[pos] < key a[p]) : UpReady key (a.swap pos p) p := by
  have hppos := hc.lt
  constructor
  · intro i j hi hj hij hjp
    have hi' : i < a.size := by simpa using hi
    have hj' : j < a.size := by simpa using hj
    rw [Array.getElem_swap, Array.getElem_swap]
    by_cases hjpos : j = pos
    · subst hjpos
      have : i = p := hij.eq hc
      subst this
      simpa [Nat.ne_of_lt hppos] using hlt.le
    · by_cases hipos : i = pos
      · subst hipos
        simpa [hjpos, hjp] using h.grand p j hpa hj' hc hij
      · by_cases hip : i = p
        · subst hip
          simpa [hipos, hjpos, hjp] using hlt.le.trans (h.edges i j hpa hj' hij hjpos)
        · simpa [hipos, hip, hjpos, hjp] using h.edges i j hi' hj' hij hjpos
  · intro i k hi hk hip hpk
    have hi' : i < a.size := by simpa using hi
    have hk' : k < a.size := by simpa using hk
    have hltip := hip.lt
    have hup := h.edges i p hi' hpa hip (Nat.ne_of_lt hppos)
    rw [Array.getElem_swap, Array.getElem_swap]
    by_cases hkpos : k = pos
    · subst hkpos
      simpa [show i ≠ k by omega, show i ≠ p by omega] using hup
    · have hltpk := hpk.lt
      simpa [show i ≠ pos by omega, show i ≠ p by omega, hkpos, show k ≠ p by omega] using
        hup.trans (h.edges p k hpa hk' hpk hkpos)

theorem isHeap_siftdown {fuel : Nat} (hfuel : pos ≤ fuel) (h : UpReady key a pos) :
    IsHeap key (siftdown key fuel a pos) := by
  induction fuel generalizing a pos with
  | zero =>
    refine h.isHeap fun i _ _ hc => ?_
    have := hc.lt
    omega
  | succ fuel ih =>
    rw [siftdown]
    split_ifs with hpos hlt
    · exact ih (by omega) (h.swap hpos.2 (isChild_parent hpos.1) (by omega) hlt)
    · refine h.isHeap fun i hi hp hc => ?_
      have : i = (pos - 1) / 2 := hc.eq (isChild_parent hpos.1)
      subst this
      exact not_lt.mp hlt
    · refine h.isHeap fun i hi hp hc => ?_
      have := hc.lt
      omega

theorem smallerChild_le (h : 2 * pos + 1 < a.size) (hlt : smallerChild key a pos h < a.size) {j : Nat}
    (hj : j < a.size) (hc : IsChild pos j) : key a[smallerChild key a pos h] ≤ key a[j] := by
  have hjc : j = 2 * pos + 1 ∨ j = 2 * pos + 2 := hc
  by_cases hr : 2 * pos + 2 < a.size
  · by_cases hlt : key a[2 * pos + 1] < key a[2 * pos + 2]
    · have hs : smallerChild key a pos h = 2 * pos + 1 := by simp [smallerChild, hr, hlt]
      rcases hjc with rfl | rfl
      · simp [hs]
      · simpa [hs] using hlt.le
    · have hs : smallerChild key a pos h = 2 * pos + 2 := by simp [smallerChild, hr, hlt]
      rcases hjc with rfl | rfl
      · simpa [hs] using hlt
      · simp [hs]
  · have hs : smallerChild key a pos h = 2 * pos + 1 := by simp [smallerChild, hr]
    rcases hjc with rfl | rfl
    · simp [hs]
    · exact absurd hj hr

/-- Moving the smaller child of `pos` up. -/
theorem DownReady.swap {c : Nat} (h : DownReady key a pos) (hp : pos < a.size) (hc : c < a.size)
    (hpc : IsChild pos c) (hmin : ∀ j (hj : j < a.size), IsChild pos j → key a[c] ≤ key a[j]) :
    DownReady key (a.swap pos c) c := by
  have hlt := hpc.lt
  constructor
  · intro i j hi hj hij hic hjc
    have hi' : i < a.size := by simpa using hi
    have hj' : j < a.size := by simpa using hj
    have hltij := hij.lt
    rw [Array.getElem_swap, Array.getElem_swap]
    by_cases hjp : j = pos
    · subst hjp
      simpa [show i ≠ j by omega, hic] using h.grand i c hi' hc hij hpc
    · by_cases hip : i = pos
      · subst hip
        simpa [hjp, hjc] using hmin j hj' hij
      · simpa [hip, hic, hjp, hjc] using h.edges i j hi' hj' hij hip hjp
  · intro i k hi hk hic hck
    have hi' : i < a.size := by simpa using hi
    have hk' : k < a.size := by simpa using hk
    have hltck := hck.lt
    have : i = pos := hic.eq hpc
    subst this
    rw [Array.getElem_swap, Array.getElem_swap]
    simpa [show k ≠ i by omega, show k ≠ c by omega] using
      h.edges c k hc hk' hck (by omega) (by omega)

theorem upReady_sink {fuel : Nat} (hfuel : a.size ≤ fuel + pos) (h : DownReady key a pos) :
    UpReady key (sink key fuel a pos).1 (sink key fuel a pos).2 := by
  induction fuel generalizing a pos with
  | zero =>
    refine ⟨fun i j hi hj hij hj' => ?_, h.grand⟩
    have := hij.lt
    have hi' : i < a.size := hi
    exact h.edges i j hi hj hij (by omega) hj'
  | succ fuel ih =>
    rw [sink]
    split_ifs with hchild
    · have hc := isChild_smallerChild key a pos hchild
      have hlt := hc.lt
      refine ih (by rw [Array.size_swap]; omega) ?_
      exact h.swap (by omega) (smallerChild_lt key a pos hchild) hc fun j hj hj' => smallerChild_le hchild _ hj hj'
    · refine ⟨fun i j hi hj hij hj' => ?_, h.grand⟩
      refine h.edges i j hi hj hij ?_ hj'
      rintro rfl
      have hj'' : j < a.size := hj
      unfold IsChild at hij
      omega

theorem isHeap_heappush {x : α} (h : IsHeap key a) : IsHeap key (heappush key a x) := by
  refine isHeap_siftdown le_rfl ⟨fun i j hi hj hij hj' => ?_, fun i k hi hk hip hpk => ?_⟩
  · have hj'' : j < a.size := by simp at hj; omega
    have hi' : i < a.size := hij.lt.trans hj''
    rw [Array.getElem_push_lt hi', Array.getElem_push_lt hj'']
    exact h i j hi' hj'' hij
  · have := hpk.lt
    simp at hk
    omega

theorem isHeap_heappop? {a' : Array α} {x : α} (h : IsHeap key a) (hpop : heappop? key a = some (x, a')) :
    IsHeap key a' := by
  unfold heappop? at hpop
  split_ifs at hpop with h0
  simp only [Option.some.injEq, Prod.mk.injEq] at hpop
  obtain ⟨rfl, rfl⟩ := hpop
  set b := (a.swap 0 (a.size - 1)).pop with hb
  have hsize : b.size = a.size - 1 := by simp [hb]
  have hlt : ∀ {i}, i < b.size → i < a.size := fun hi => by omega
  have hget : ∀ i (hi : i < b.size) (_ : i < a.size), i ≠ 0 → b[i] = a[i] := by
    intro i hi _ hi0
    rw [Array.getElem_pop, Array.getElem_swap, if_neg hi0, if_neg (by omega)]
  have hdown : DownReady key b 0 := by
    refine ⟨fun i j hi hj hij hi0 hj0 => ?_, fun i k _ _ hip _ => ?_⟩
    · rw [hget i hi (hlt hi) hi0, hget j hj (hlt hj) hj0]
      exact h i j _ _ hij
    · have := hip.lt
      omega
  exact isHeap_siftdown le_rfl (upReady_sink (by omega) hdown)

theorem IsHeap.root_le (h : IsHeap key a) (hpos : 0 < a.size) {i : Nat} (hi : i < a.size) : key a[0] ≤ key a[i] := by
  induction i using Nat.strongRecOn with
  | ind i ih =>
    by_cases h0 : i = 0
    · subst h0; exact le_rfl
    · have hpar : (i - 1) / 2 < i := by omega
      exact (ih _ hpar (by omega)).trans (h _ _ (by omega) hi (isChild_parent (by omega)))

theorem IsHeap.root_le_of_mem (h : IsHeap key a) {x y : α} (hx : a[0]? = some x) (hy : y ∈ a.toList) :
    key x ≤ key y := by
  obtain ⟨i, hi, rfl⟩ := List.getElem_of_mem hy
  have hi' : i < a.size := by simpa using hi
  obtain ⟨h0, rfl⟩ := Array.getElem?_eq_some_iff.mp hx
  simpa using h.root_le h0 hi'

theorem isHeap_empty : IsHeap key (#[] : Array α) := by
  intro i j hi
  simp at hi

/-! ### Heaps -/

/-- An array kept in heap order. -/
structure Heap (key : α → κ) where
  items : Array α
  isHeap : IsHeap key items

namespace Heap

def empty : Heap key := ⟨#[], isHeap_empty⟩

def toList (h : Heap key) : List α := h.items.toList

/-- `heap[0]`. -/
def root? (h : Heap key) : Option α := h.items[0]?

def push (h : Heap key) (x : α) : Heap key := ⟨heappush key h.items x, isHeap_heappush h.isHeap⟩

def pop? (h : Heap key) : Option (α × Heap key) :=
  match hp : heappop? key h.items with
  | none => none
  | some (x, a) => some (x, ⟨a, isHeap_heappop? h.isHeap hp⟩)

/-- Pushing items one after the other. -/
def pushAll (h : Heap key) (xs : List α) : Heap key := xs.foldl push h

@[simp] theorem toList_empty : (empty : Heap key).toList = [] := rfl

theorem toList_push (h : Heap key) (x : α) : (h.push x).toList.Perm (x :: h.toList) :=
  heappush_perm key h.items x

theorem toList_pushAll (h : Heap key) (xs : List α) : (h.pushAll xs).toList.Perm (xs ++ h.toList) := by
  induction xs generalizing h with
  | nil => exact .refl _
  | cons x xs ih =>
    refine (ih (h.push x)).trans ?_
    exact ((toList_push h x).append_left xs).trans List.perm_middle

theorem toList_pop? {h h' : Heap key} {x : α} (hp : h.pop? = some (x, h')) :
    h.toList.Perm (x :: h'.toList) ∧ h.root? = some x := by
  unfold pop? at hp
  split at hp
  · cases hp
  · rename_i heq
    cases hp
    exact heappop?_perm key heq

theorem pop?_isSome {h : Heap key} {x : α} (hr : h.root? = some x) : ∃ h', h.pop? = some (x, h') := by
  cases hp : h.pop? with
  | some r =>
    obtain ⟨y, h'⟩ := r
    have := (toList_pop? hp).2
    rw [hr] at this
    cases this
    exact ⟨h', rfl⟩
  | none =>
    unfold pop? at hp
    split at hp
    · rename_i heq
      have h0 := (heappop?_eq_none key).mp heq
      rw [root?, Array.getElem?_eq_none (by omega)] at hr
      cases hr
    · cases hp

theorem root?_eq_none {h : Heap key} (hr : h.root? = none) : h.toList = [] := by
  have h0 : h.items.size = 0 := by simpa [root?] using hr
  exact List.length_eq_zero_iff.mp (by rw [toList, Array.length_toList, h0])

theorem root?_le {h : Heap key} {x y : α} (hr : h.root? = some x) (hy : y ∈ h.toList) : key x ≤ key y :=
  h.isHeap.root_le_of_mem hr hy

end Heap

end Py.Heapq
