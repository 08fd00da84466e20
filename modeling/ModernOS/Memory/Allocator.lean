import Mathlib.Data.Finset.Card
import ModernOS.Lib.FirstFit
import ModernOS.Lib.Transition
import ModernOS.Memory.Model

/-!
The page allocator as a first-fit allocator of the clear bits of a packed bitmap.

`freePages` is the set of the pages whose bit is clear. `allocate_page` takes its
least element and `free_page` puts a page back, each through one bit of one word. A
`Ledger` watches a run and keeps the set of the pages handed out; free pages and pages
handed out always make up the pages that were free at first (`Conserved`).
-/

namespace ModernOS.Memory

/-! ### One bit of the bitmap -/

section Bit

variable (bitmap : ℕ → Word) (i j : ℕ)

/-- The mask `1 << (i % 32)` selects one bit, the sign bit included. -/
theorem getLsbD_mask {k : ℕ} (inside : k < 32) :
    (1#32 <<< (i % 32)).getLsbD k = decide (k = i % 32) := by
  have := Nat.mod_lt i (show 0 < 32 by decide)
  rw [BitVec.getLsbD_shiftLeft, BitVec.getLsbD_one]
  simp only [inside, decide_true, Bool.true_and]
  by_cases below : k < i % 32
  · simp [below, below.ne]
  · simp only [below, decide_false, Bool.not_false, Bool.true_and]
    exact decide_eq_decide.mpr (by omega)

theorem pageUsed_eq_getLsbD : pageUsed bitmap i = (bitmap (i / 32)).getLsbD (i % 32) := by
  have inside := Nat.mod_lt i (show 0 < 32 by decide)
  rw [pageUsed, Bool.eq_iff_iff, bne_iff_ne]
  constructor
  · intro some
    by_contra clear
    refine some (BitVec.eq_of_getLsbD_eq fun k hk => ?_)
    rw [BitVec.getLsbD_and, getLsbD_mask i hk, BitVec.getLsbD_zero]
    by_cases same : k = i % 32
    · rw [same, Bool.not_eq_true _ |>.mp clear, Bool.false_and]
    · rw [decide_eq_false same, Bool.and_false]
  · intro set none
    have bit := congrArg (BitVec.getLsbD · (i % 32)) none
    simp [getLsbD_mask i inside, set] at bit

theorem pageUsed_markUsed :
    pageUsed (markUsed bitmap i) j = if j = i then true else pageUsed bitmap j := by
  have inside := Nat.mod_lt j (show 0 < 32 by decide)
  rw [pageUsed_eq_getLsbD, pageUsed_eq_getLsbD, markUsed, Function.update_apply]
  by_cases word : j / 32 = i / 32
  · rw [if_pos word, BitVec.getLsbD_or, getLsbD_mask i inside, word]
    have same : j % 32 = i % 32 ↔ j = i := by omega
    by_cases here : j = i
    · simp [here]
    · simp [here, same]
  · rw [if_neg word, if_neg fun same => word (congrArg (· / 32) same)]

theorem pageUsed_clearUsed :
    pageUsed (clearUsed bitmap i) j = if j = i then false else pageUsed bitmap j := by
  have inside := Nat.mod_lt j (show 0 < 32 by decide)
  rw [pageUsed_eq_getLsbD, pageUsed_eq_getLsbD, clearUsed, Function.update_apply]
  by_cases word : j / 32 = i / 32
  · rw [if_pos word, BitVec.getLsbD_and, BitVec.getLsbD_not, getLsbD_mask i inside, word]
    have same : j % 32 = i % 32 ↔ j = i := by omega
    by_cases here : j = i
    · simp [here]
    · simp [here, same, inside]
  · rw [if_neg word, if_neg fun same => word (congrArg (· / 32) same)]

end Bit

/-! ### The free pages -/

/-- Below page 2^20 an address does not wrap. -/
theorem toNat_pageAddr {i : ℕ} (inside : i < 2 ^ 20) : (pageAddr i).toNat = i * PAGE_SIZE := by
  rw [pageAddr, BitVec.toNat_ofNat, PAGE_SIZE]
  omega

theorem pageAddr_inj {i j : ℕ} (hi : i < 2 ^ 20) (hj : j < 2 ^ 20) :
    pageAddr i = pageAddr j ↔ i = j := by
  rw [← BitVec.toNat_inj, toNat_pageAddr hi, toNat_pageAddr hj, PAGE_SIZE]
  omega

/-- The pages below `total_pages` whose bit is clear. -/
def freePages (s : State) : Finset ℕ :=
  (Finset.range s.totalPages).filter (pageUsed s.memoryBitmap · = false)

theorem mem_freePages {s : State} {i : ℕ} :
    i ∈ freePages s ↔ i < s.totalPages ∧ pageUsed s.memoryBitmap i = false := by
  rw [freePages, Finset.mem_filter, Finset.mem_range]

theorem freePages_congr {s t : State} (memoryBitmap : t.memoryBitmap = s.memoryBitmap)
    (totalPages : t.totalPages = s.totalPages) : freePages t = freePages s := by
  rw [freePages, memoryBitmap, totalPages, freePages]

theorem freePages_modify (s : State) (addr : Word) (f : Word → Word) :
    freePages (s.modify addr f) = freePages s :=
  freePages_congr (State.modify_memoryBitmap ..) (State.modify_totalPages ..)

theorem firstFree_eq_some {s : State} {i : ℕ} :
    firstFree s = some i ↔ pageUsed s.memoryBitmap i = false ∧ i < s.totalPages ∧
      ∀ j < i, pageUsed s.memoryBitmap j = true := by
  rw [firstFree, List.find?_range_eq_some, List.mem_range]
  simp only [Bool.not_eq_eq_eq_not, Bool.not_true, Bool.not_not]

/-- With a free page among the pages of a 32-bit memory, the allocator stops at one of
them. -/
theorem exists_firstFree {s : State}
    (free : ∃ i < s.totalPages, i < 2 ^ 20 ∧ pageUsed s.memoryBitmap i = false) :
    ∃ i, firstFree s = some i ∧ i < 2 ^ 20 := by
  obtain ⟨i, below, inside, clear⟩ := free
  cases found : firstFree s with
  | none =>
      have all := List.find?_eq_none.mp found i (List.mem_range.mpr below)
      simp [clear] at all
  | some j =>
      have lowest := (firstFree_eq_some.mp found).2.2
      have : ¬ i < j := fun before => by simp [lowest i before] at clear
      exact ⟨j, rfl, by omega⟩

theorem coe_freePages (s : State) :
    (freePages s : Set ℕ) = {i | i < s.totalPages ∧ (!pageUsed s.memoryBitmap i) = true} := by
  ext i
  rw [Finset.mem_coe, mem_freePages, Set.mem_ofPred_eq, Bool.not_eq_true']

/-- The loop of `allocate_page` stops at the least free page. -/
theorem firstFree_eq_some_iff {s : State} {i : ℕ} :
    firstFree s = some i ↔ IsLeast (freePages s : Set ℕ) i := by
  rw [firstFree, FirstFit.find?_eq_some_iff, coe_freePages]

theorem firstFree_eq_none_iff {s : State} : firstFree s = none ↔ freePages s = ∅ := by
  rw [firstFree, List.find?_eq_none, Finset.eq_empty_iff_forall_notMem]
  simp only [List.mem_range, mem_freePages, not_and, Bool.not_eq_true', Bool.not_eq_false]

/-- The set of free pages decides what the allocator does. -/
theorem firstFree_cases (s : State) :
    (freePages s = ∅ ∧ firstFree s = none) ∨
      ∃ i, IsLeast (freePages s : Set ℕ) i ∧ firstFree s = some i := by
  cases found : firstFree s with
  | none => exact Or.inl ⟨firstFree_eq_none_iff.mp found, rfl⟩
  | some i => exact Or.inr ⟨i, firstFree_eq_some_iff.mp found, rfl⟩

theorem exists_firstFree_of_card {s : State} (room : 0 < (freePages s).card) :
    ∃ i, firstFree s = some i := by
  rcases firstFree_cases s with ⟨none, -⟩ | ⟨i, -, found⟩
  · rw [none] at room
    exact absurd room (Nat.not_lt_zero _)
  · exact ⟨i, found⟩

/-! ### The calls -/

theorem allocatePage_of_some {s : State} {i : ℕ} (found : firstFree s = some i) :
    allocatePage s = (pageAddr i, { s with memoryBitmap := markUsed s.memoryBitmap i }) := by
  rw [allocatePage, found]

theorem allocatePage_of_none {s : State} (none : firstFree s = none) :
    allocatePage s = (0#32, s) := by
  rw [allocatePage, none]

/-- `allocate_page` touches the bitmap only. -/
theorem allocatePage_frame (s : State) :
    (allocatePage s).2.mem = s.mem ∧ (allocatePage s).2.totalPages = s.totalPages ∧
    (allocatePage s).2.currentDirectory = s.currentDirectory := by
  rw [allocatePage]
  split <;> exact ⟨rfl, rfl, rfl⟩

/-- Marking a page takes it from the free pages. -/
theorem freePages_markUsed (s : State) (i : ℕ) :
    freePages { s with memoryBitmap := markUsed s.memoryBitmap i } = (freePages s).erase i := by
  ext j
  rw [Finset.mem_erase, mem_freePages, mem_freePages, pageUsed_markUsed]
  by_cases same : j = i
  · simp [same]
  · simp [same]

/-- `free_page` makes the page of its argument free. -/
theorem mem_freePages_freePage {s : State} {ptr : Word} {j : ℕ} :
    j ∈ freePages (freePage ptr s) ↔
      j < s.totalPages ∧ (j = ptr.toNat / PAGE_SIZE ∨ j ∈ freePages s) := by
  have page : (ptr / 4096#32).toNat = ptr.toNat / PAGE_SIZE := rfl
  rw [mem_freePages, mem_freePages, freePage, page]
  dsimp only
  rw [pageUsed_clearUsed]
  by_cases same : j = ptr.toNat / PAGE_SIZE
  · simp [same]
  · simp [same]

/-- `get_free_memory` counts the free pages. -/
theorem getFreeMemory_eq (s : State) :
    getFreeMemory s = BitVec.ofNat 32 (PAGE_SIZE * (freePages s).card) := by
  have counted : CountedLoop.forRange 0 s.totalPages (fun i freePages =>
      if !pageUsed s.memoryBitmap i then freePages + 1#32 else freePages) 0#32 =
      BitVec.ofNat 32 (Nat.count (pageUsed s.memoryBitmap · = false) s.totalPages) := by
    refine CountedLoop.forRange_induction (I := fun i freePages =>
      freePages = BitVec.ofNat 32 (Nat.count (pageUsed s.memoryBitmap · = false) i))
      (Nat.zero_le _) (fun i n _ _ before => ?_) rfl
    rw [Nat.count_succ, before]
    by_cases used : pageUsed s.memoryBitmap i = true
    · simp [used]
    · simp [used, BitVec.ofNat_add]
  rw [getFreeMemory, counted, Nat.count_eq_card_filter_range, PAGE_SIZE, ← freePages,
    Nat.mul_comm, BitVec.ofNat_mul]

/-- `allocate_page` reports that memory is full exactly when it is, and then leaves the
bitmap, if and only if the lowest free page is not one whose address is 0. -/
theorem allocatePage_reports_iff (s : State) :
    (((allocatePage s).1 = 0#32 ↔ ∀ i < s.totalPages, pageUsed s.memoryBitmap i = true) ∧
      ((allocatePage s).1 = 0#32 → (allocatePage s).2.memoryBitmap = s.memoryBitmap)) ↔
    ∀ i, IsLeast (freePages s : Set ℕ) i → i % 2 ^ 20 ≠ 0 := by
  have full : (∀ i < s.totalPages, pageUsed s.memoryBitmap i = true) ↔ freePages s = ∅ := by
    rw [Finset.eq_empty_iff_forall_notMem]
    simp only [mem_freePages, not_and, Bool.not_eq_false]
  rw [full]
  rcases firstFree_cases s with ⟨none, found⟩ | ⟨i, least, found⟩
  · rw [allocatePage_of_none found]
    refine iff_of_true ⟨iff_of_true rfl none, fun _ => rfl⟩ fun i least => ?_
    rw [none] at least
    exact absurd least.1 (Finset.notMem_empty i)
  · rw [allocatePage_of_some found]
    have some : freePages s ≠ ∅ := Finset.ne_empty_of_mem least.1
    have null : pageAddr i = 0#32 ↔ i % 2 ^ 20 = 0 := by
      rw [pageAddr, PAGE_SIZE, ← BitVec.toNat_inj, BitVec.toNat_ofNat, BitVec.toNat_ofNat]
      omega
    constructor
    · rintro ⟨reported, -⟩ j least'
      rw [least'.unique least, Ne, ← null]
      exact fun zero => some (reported.mp zero)
    · intro page
      have address : pageAddr i ≠ 0#32 := fun zero => page i least (null.mp zero)
      exact ⟨iff_of_false address some, fun zero => absurd zero address⟩

/-- Memory in which the pages below `n` are free, and all words are zero. -/
def freeMemory (n : ℕ) : State := ⟨fun _ => 0#32, fun _ => 0#32, n, 0#32⟩

/-- With page 0 free, the allocation that takes it looks like a failure. -/
theorem allocatePage_takes_page_zero :
    (allocatePage (freeMemory 1)).1 = 0#32 ∧
    ¬ (∀ i < (freeMemory 1).totalPages, pageUsed (freeMemory 1).memoryBitmap i = true) ∧
    (allocatePage (freeMemory 1)).2.memoryBitmap ≠ (freeMemory 1).memoryBitmap := by
  refine ⟨by decide, fun full => ?_, fun same => ?_⟩
  · exact absurd (full 0 Nat.zero_lt_one) (by decide)
  · exact absurd (congrFun same 0) (by decide)

/-! ### Runs -/

/-- A call to the allocator. -/
inductive Call where
  | allocatePage
  | freePage (ptr : Word)

/-- The pages that a call of `allocate_page` hands out: those whose bit it sets. -/
def handedOut (s : State) : Finset ℕ :=
  (freePages s).filter (pageUsed (allocatePage s).2.memoryBitmap · = true)

/-- A run of the allocator under watch: `out` are the pages handed out and not yet given
back. -/
structure Ledger where
  state : State
  out : Finset ℕ

def Ledger.step (l : Ledger) : Call → Ledger
  | .allocatePage => ⟨(allocatePage l.state).2, l.out ∪ handedOut l.state⟩
  | .freePage ptr => ⟨freePage ptr l.state, l.out.filter (pageAddr · ≠ ptr)⟩

/-- `free_page` is only given the address of a page that is handed out. -/
def Call.Allowed (l : Ledger) : Call → Prop
  | .allocatePage => True
  | .freePage ptr => ∃ i ∈ l.out, pageAddr i = ptr

/-- The pages free at first are the free ones and the ones handed out. -/
structure Conserved (s₀ : State) (l : Ledger) : Prop where
  totalPages : l.state.totalPages = s₀.totalPages
  apart : Disjoint (freePages l.state) l.out
  together : freePages l.state ∪ l.out = freePages s₀

/-- A successful call of `allocate_page` hands out one page, the least free one. -/
theorem handedOut_of_some {s : State} {i : ℕ} (found : firstFree s = some i) :
    handedOut s = {i} := by
  ext j
  rw [handedOut, allocatePage_of_some found, Finset.mem_filter, Finset.mem_singleton,
    pageUsed_markUsed]
  constructor
  · rintro ⟨free, set⟩
    by_contra other
    rw [if_neg other, (mem_freePages.mp free).2] at set
    cases set
  · rintro rfl
    exact ⟨(firstFree_eq_some_iff.mp found).1, if_pos rfl⟩

theorem handedOut_of_none {s : State} (none : firstFree s = none) : handedOut s = ∅ := by
  rw [handedOut, firstFree_eq_none_iff.mp none, Finset.filter_empty]

theorem Conserved.allocatePage {s₀ : State} {l : Ledger} (conserved : Conserved s₀ l) :
    Conserved s₀ (l.step .allocatePage) := by
  obtain ⟨totalPages, apart, together⟩ := conserved
  rcases firstFree_cases l.state with ⟨none, found⟩ | ⟨i, least, found⟩
  · rw [Ledger.step, allocatePage_of_none found, handedOut_of_none found, Finset.union_empty]
    exact ⟨totalPages, apart, together⟩
  · rw [Ledger.step, allocatePage_of_some found, handedOut_of_some found]
    have free : i ∈ freePages l.state := least.1
    refine ⟨totalPages, ?_, ?_⟩ <;> rw [freePages_markUsed]
    · rw [Finset.disjoint_union_right, Finset.disjoint_singleton_right]
      exact ⟨apart.mono_left (Finset.erase_subset _ _), Finset.notMem_erase _ _⟩
    · rw [← together]
      ext j
      by_cases same : j = i
      · simp [same, free]
      · simp [same]

theorem Conserved.freePage {s₀ : State} (bounded : s₀.totalPages ≤ 2 ^ 20) {l : Ledger}
    (conserved : Conserved s₀ l) {ptr : Word} (allowed : Call.Allowed l (.freePage ptr)) :
    Conserved s₀ (l.step (.freePage ptr)) := by
  obtain ⟨totalPages, apart, together⟩ := conserved
  obtain ⟨i, out, rfl⟩ := allowed
  have below : ∀ j ∈ l.out, j < 2 ^ 20 := fun j here =>
    (mem_freePages.mp (together ▸ Finset.mem_union_right _ here)).1.trans_le bounded
  have page : (pageAddr i).toNat / PAGE_SIZE = i := by
    rw [toNat_pageAddr (below i out), PAGE_SIZE]
    omega
  have room : i < l.state.totalPages := by
    rw [totalPages]
    exact (mem_freePages.mp (together ▸ Finset.mem_union_right _ out)).1
  have kept : l.out.filter (pageAddr · ≠ pageAddr i) = l.out.erase i := by
    ext j
    rw [Finset.mem_filter, Finset.mem_erase, and_comm]
    refine and_congr_left fun here => ?_
    rw [Ne, pageAddr_inj (below j here) (below i out)]
  have free : freePages (Memory.freePage (pageAddr i) l.state) = insert i (freePages l.state) := by
    ext j
    rw [mem_freePages_freePage, page, Finset.mem_insert]
    refine ⟨And.right, fun here => ⟨?_, here⟩⟩
    rcases here with rfl | here
    · exact room
    · exact (mem_freePages.mp here).1
  rw [Ledger.step, kept]
  refine ⟨totalPages, ?_, ?_⟩ <;> dsimp only <;> rw [free]
  · rw [Finset.disjoint_insert_left]
    exact ⟨Finset.notMem_erase _ _, apart.mono_right (Finset.erase_subset _ _)⟩
  · rw [← together, Finset.insert_union, ← Finset.union_insert, Finset.insert_erase out]

theorem Conserved.step {s₀ : State} (bounded : s₀.totalPages ≤ 2 ^ 20) (l : Ledger) (call : Call)
    (conserved : Conserved s₀ l) (allowed : call.Allowed l) : Conserved s₀ (l.step call) := by
  cases call with
  | allocatePage => exact conserved.allocatePage
  | freePage ptr => exact conserved.freePage bounded allowed

/-- The allocator neither loses nor duplicates pages: along every run that frees only
what is handed out, a bit is set exactly when it was at first or its page is handed out,
an allocation takes the least page whose bit is clear, and the free memory and the pages
handed out add up to the initial free memory. -/
theorem allocator_conserves {s₀ : State} (bounded : s₀.totalPages ≤ 2 ^ 20) {calls : List Call}
    (allowed : Transition.EveryStep Ledger.step (fun l call => call.Allowed l) ⟨s₀, ∅⟩ calls) :
    let l := Transition.run Ledger.step ⟨s₀, ∅⟩ calls
    (∀ i < s₀.totalPages, pageUsed l.state.memoryBitmap i = true ↔
      pageUsed s₀.memoryBitmap i = true ∨ i ∈ l.out) ∧
    (freePages l.state = ∅ ∧ handedOut l.state = ∅ ∨
      ∃ i, IsLeast (freePages l.state : Set ℕ) i ∧ i ∉ l.out ∧ handedOut l.state = {i} ∧
        (allocatePage l.state).1 = pageAddr i) ∧
    getFreeMemory l.state + BitVec.ofNat 32 (PAGE_SIZE * l.out.card) = getFreeMemory s₀ := by
  intro l
  have start : Conserved s₀ ⟨s₀, ∅⟩ :=
    ⟨rfl, Finset.disjoint_empty_right _, Finset.union_empty _⟩
  have conserved : Conserved s₀ l :=
    Transition.run_invariant_of_everyStep (Conserved.step bounded) start allowed
  obtain ⟨totalPages, apart, together⟩ := conserved
  refine ⟨fun i inside => ?_, ?_, ?_⟩
  · have either : (i ∈ freePages l.state ∨ i ∈ l.out) ↔ i ∈ freePages s₀ := by
      rw [← Finset.mem_union, together]
    have never : i ∈ freePages l.state → i ∉ l.out :=
      fun free => Finset.disjoint_left.mp apart free
    rw [mem_freePages, totalPages, mem_freePages] at either
    rw [mem_freePages, totalPages] at never
    grind
  · rcases firstFree_cases l.state with ⟨none, found⟩ | ⟨i, least, found⟩
    · exact Or.inl ⟨none, handedOut_of_none found⟩
    · exact Or.inr ⟨i, least, Finset.disjoint_left.mp apart least.1, handedOut_of_some found, by
        rw [allocatePage_of_some found]⟩
  · rw [getFreeMemory_eq, getFreeMemory_eq, ← together, Finset.card_union_of_disjoint apart,
      Nat.mul_add, BitVec.ofNat_add]

/-- Both pages of a small memory are taken, and the second is given back. -/
theorem allocator_conserves_two_pages :
    let l := Transition.run Ledger.step ⟨freeMemory 2, ∅⟩
      [.allocatePage, .allocatePage, .freePage 0x1000#32]
    getFreeMemory l.state + BitVec.ofNat 32 (PAGE_SIZE * l.out.card) =
      getFreeMemory (freeMemory 2) := by
  have allowed : Transition.EveryStep Ledger.step (fun l call => call.Allowed l)
      ⟨freeMemory 2, ∅⟩ [.allocatePage, .allocatePage, .freePage 0x1000#32] :=
    ⟨trivial, trivial, ⟨1, by decide, by decide⟩, trivial⟩
  exact (allocator_conserves (by decide) allowed).2.2

end ModernOS.Memory
