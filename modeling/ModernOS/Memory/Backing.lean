import Mathlib.Data.Set.Function
import ModernOS.Memory.MapPage

/-!
One page for an address, and how much of a range it backs.

`allocateAt` is what `allocate_process_memory` does to memory: it asks for a page and maps it.
The allocator gives out that page, and another one if `map_page` needs a new table (`newTable`).
Every other page is translated as before, or, in a new table, by the word that the page of the
table held (`leftTranslation`). So a range of more than one page is backed only by accident
(`pagesBacked_iff`).
-/

namespace ModernOS.Memory

/-- A page is allocated and mapped at `v`. -/
def allocateAt (v : Word) (s : State) : State := mapPage (allocatePage s).1 v (allocatePage s).2

/-- The page that becomes the table of `v`, if there is none. -/
def newTable (s : State) (v : Word) : Option ℕ :=
  if (dirEntry s v).present = 1#1 then none else firstFree (allocatePage s).2

/-- The translation of a page other than that of `v` after a page has been mapped at `v`: as
before, or by the word that the page of a new table held. -/
def leftTranslation (s : State) (v u : Word) : Option (BitVec 20) :=
  match newTable s v with
  | none => translate s u
  | some t =>
      if tableIdx u = tableIdx v then
        if Entry.present (s.mem (entryAddr (pageAddr t) (pageOffset u))) = 1#1 then
          some (Entry.frame (s.mem (entryAddr (pageAddr t) (pageOffset u))))
        else none
      else translate s u

/-- `n` virtual pages from `v` on are translated to different pages that were free in `s` and
are in use in `s'`. -/
def PagesBacked (s s' : State) (v : Word) (n : ℕ) : Prop :=
  ∃ page : ℕ → ℕ, Set.InjOn page (Set.Iio n) ∧ ∀ i < n,
    page i ∈ freePages s ∧ page i ∉ freePages s' ∧
      translate s' (v + BitVec.ofNat 32 (i * PAGE_SIZE)) = some (frameOf (pageAddr (page i)))

theorem pagesBacked_zero (s s' : State) (v : Word) : PagesBacked s s' v 0 :=
  ⟨id, fun i below => absurd below (Nat.not_lt_zero i), fun i below =>
    absurd below (Nat.not_lt_zero i)⟩

/-! ### What is allocated and mapped -/

/-- The page `p` is given to `v`: the pages taken, and the translations left. -/
structure GivenTo (s : State) (v : Word) (p : ℕ) (s' : State) : Prop where
  apart : newTable s v ≠ some p
  taken : ∀ j, j ∈ freePages s ∧ j ∉ freePages s' ↔ j = p ∨ newTable s v = some j
  translates : ∀ u, translate s' u =
    if pageIdx u = pageIdx v then some (frameOf (pageAddr p)) else leftTranslation s v u

section AllocateAt

variable {s : State} (wf : DirectoryWellFormed s) {p : ℕ} (found : firstFree s = some p)

include wf found

/-- The page allocated first leaves the directory as it is. -/
theorem DirectoryWellFormed.allocatePage : DirectoryWellFormed (allocatePage s).2 := by
  rw [allocatePage_of_some found]
  have used {i : ℕ} (before : pageUsed s.memoryBitmap i = true) :
      pageUsed (markUsed s.memoryBitmap p) i = true := by
    rw [pageUsed_markUsed, before, ite_self]
  exact {
    aligned := wf.aligned
    directoryUsed := used wf.directoryUsed
    tablesUsed := fun v present => used (wf.tablesUsed v present)
    tablesApart := wf.tablesApart
    distinct := wf.distinct }

/-- The table of `v` is there. -/
theorem givenTo_of_present {v : Word} (here : (dirEntry s v).present = 1#1) :
    GivenTo s v p (allocateAt v s) := by
  obtain ⟨mem, -, currentDirectory⟩ := allocatePage_frame s
  have same := walk_congr mem currentDirectory
  have table : newTable s v = none := if_pos here
  have after := walk_mapPage_of_present (pageAddr p) (wf.allocatePage found).tables
    ((same v).1 ▸ here)
  have address : (allocatePage s).1 = pageAddr p := by rw [allocatePage_of_some found]
  rw [allocateAt, address]
  refine ⟨table ▸ (Option.some_ne_none p).symm, ?_, ?_⟩
  · intro j
    rw [mapPage_of_present (pageAddr p) ((same v).1 ▸ here), freePages_modify,
      allocatePage_of_some found, freePages_markUsed, table, Finset.mem_erase]
    have free := (firstFree_eq_some_iff.mp found).1
    constructor
    · rintro ⟨before, now⟩
      exact Or.inl (by_contra fun other => now ⟨other, before⟩)
    · rintro (rfl | none)
      · exact ⟨free, fun now => now.1 rfl⟩
      · cases none
  · intro u
    rw [translate, after, leftTranslation, table]
    split
    · rw [Option.map_some, Entry.frame_fill]
    · rw [(same u).2, translate]

/-- A new table is made for `v`. -/
theorem givenTo_of_absent (bounded : s.totalPages ≤ 2 ^ 20) (room : 2 ≤ (freePages s).card)
    {v : Word} (absent : (dirEntry s v).present = 0#1) : GivenTo s v p (allocateAt v s) := by
  obtain ⟨mem, totalPages, currentDirectory⟩ := allocatePage_frame s
  have same := walk_congr mem currentDirectory
  have free := (firstFree_eq_some_iff.mp found).1
  have left : freePages (Memory.allocatePage s).2 = (freePages s).erase p := by
    rw [allocatePage_of_some found, freePages_markUsed]
  obtain ⟨t, next, inside⟩ : ∃ t, firstFree (Memory.allocatePage s).2 = some t ∧ t < 2 ^ 20 := by
    rcases firstFree_cases (Memory.allocatePage s).2 with ⟨none, -⟩ | ⟨t, least, next⟩
    · have card := Finset.card_erase_of_mem free
      rw [← left, none, Finset.card_empty] at card
      omega
    · have below := (mem_freePages.mp least.1).1
      rw [totalPages] at below
      exact ⟨t, next, below.trans_le bounded⟩
  have other := (firstFree_eq_some_iff.mp next).1
  rw [left] at other
  obtain ⟨apart, before⟩ := Finset.mem_erase.mp other
  have table : newTable s v = some t := by
    rw [newTable, if_neg (present_ne_one.mpr absent), next]
  have absent' : (dirEntry (Memory.allocatePage s).2 v).present = 0#1 := (same v).1 ▸ absent
  have after := walk_mapPage_of_absent (pageAddr p) (wf.allocatePage found) absent' next inside
  have address : (Memory.allocatePage s).1 = pageAddr p := by rw [allocatePage_of_some found]
  rw [allocateAt, address]
  refine ⟨table ▸ fun own => apart (Option.some.inj own), ?_, ?_⟩
  · intro j
    rw [mapPage_of_absent (pageAddr p) absent' next, freePages_modify, withTable, freePages_modify,
      freePages_markUsed, left, table, Finset.mem_erase, Finset.mem_erase, Option.some.injEq]
    constructor
    · rintro ⟨was, now⟩
      by_contra others
      obtain ⟨not_p, not_t⟩ := not_or.mp others
      exact now ⟨Ne.symm not_t, not_p, was⟩
    · rintro (rfl | rfl)
      · exact ⟨free, fun now => now.2.1 rfl⟩
      · exact ⟨before, fun now => now.1 rfl⟩
  · intro u
    rw [translate, after, leftTranslation, table, mem]
    dsimp only
    split
    · rw [Option.map_some, Entry.frame_fill]
    · split
      · split <;> rfl
      · rw [(same u).2, translate]

/-- A page is given to `v`, whether there is a table for it or not. -/
theorem givenTo_allocateAt (bounded : s.totalPages ≤ 2 ^ 20) (room : 2 ≤ (freePages s).card)
    (v : Word) : GivenTo s v p (allocateAt v s) := by
  by_cases here : (dirEntry s v).present = 1#1
  · exact givenTo_of_present wf found here
  · exact givenTo_of_absent wf found bounded room (present_ne_one.mp here)

end AllocateAt

/-! ### How much is backed -/

/-- The page behind the one of `v`. -/
theorem pageIdx_next_ne (v : Word) : pageIdx (v + BitVec.ofNat 32 (1 * PAGE_SIZE)) ≠ pageIdx v := by
  intro same
  have nat : (v + BitVec.ofNat 32 (1 * PAGE_SIZE)).toNat / 4096 = v.toNat / 4096 :=
    congrArg BitVec.toNat same
  rw [BitVec.toNat_add, BitVec.toNat_ofNat, PAGE_SIZE] at nat
  have inside := v.isLt
  omega

section Backed

variable {s s' : State} {v : Word} {p : ℕ}

theorem GivenTo.translate_first (given : GivenTo s v p s') :
    translate s' (v + BitVec.ofNat 32 (0 * PAGE_SIZE)) = some (frameOf (pageAddr p)) := by
  rw [Nat.zero_mul, BitVec.add_zero, given.translates, if_pos rfl]

theorem GivenTo.translate_second (given : GivenTo s v p s') :
    translate s' (v + BitVec.ofNat 32 (1 * PAGE_SIZE)) =
      leftTranslation s v (v + BitVec.ofNat 32 (1 * PAGE_SIZE)) := by
  rw [given.translates, if_neg (pageIdx_next_ne v)]

/-- A range of one page is backed by the page given. -/
theorem GivenTo.pagesBacked_one (given : GivenTo s v p s') : PagesBacked s s' v 1 := by
  have p_taken := (given.taken p).mpr (Or.inl rfl)
  refine ⟨fun _ => p, fun i hi j hj _ => ?_, fun i below => ?_⟩
  · rw [Nat.lt_one_iff.mp hi, Nat.lt_one_iff.mp hj]
  · rw [Nat.lt_one_iff.mp below]
    exact ⟨p_taken.1, p_taken.2, given.translate_first⟩

/-- A range of two pages is backed by the page given and that of the table, if the second one is
translated to it. -/
theorem GivenTo.pagesBacked_two (given : GivenTo s v p s') {t : ℕ} (table : newTable s v = some t)
    (translated : leftTranslation s v (v + BitVec.ofNat 32 (1 * PAGE_SIZE)) =
      some (frameOf (pageAddr t))) : PagesBacked s s' v 2 := by
  have p_taken := (given.taken p).mpr (Or.inl rfl)
  have t_taken := (given.taken t).mpr (Or.inr table)
  have apart : t ≠ p := fun same => given.apart (same ▸ table)
  refine ⟨fun i => if i = 0 then p else t, fun i hi j hj same => ?_, fun i below => ?_⟩
  · have hi : i < 2 := hi
    have hj : j < 2 := hj
    dsimp only at same
    split at same <;> split at same
    · omega
    · exact absurd same.symm apart
    · exact absurd same apart
    · omega
  · dsimp only
    split
    · rename_i zero
      rw [zero]
      exact ⟨p_taken.1, p_taken.2, given.translate_first⟩
    · rename_i later
      obtain rfl : i = 1 := by omega
      exact ⟨t_taken.1, t_taken.2, given.translate_second.trans translated⟩

/-- The first page of a range is backed by the page given. -/
theorem GivenTo.eq_of_translated (given : GivenTo s v p s') (bounded : s.totalPages ≤ 2 ^ 20)
    {q : ℕ} (free : q ∈ freePages s)
    (translated : translate s' (v + BitVec.ofNat 32 (0 * PAGE_SIZE)) =
      some (frameOf (pageAddr q))) : q = p := by
  have inside {j : ℕ} (free : j ∈ freePages s) : j < 2 ^ 20 :=
    (mem_freePages.mp free).1.trans_le bounded
  have p_free := ((given.taken p).mpr (Or.inl rfl)).1
  rw [given.translate_first, Option.some.injEq,
    frameOf_inj (pageAligned_pageAddr p) (pageAligned_pageAddr _),
    pageAddr_inj (inside p_free) (inside free)] at translated
  exact translated.symm

/-- A page given to `v` backs a range of one page; it backs two when a new table is made and the
second page happens to be translated to the page of the table. -/
theorem GivenTo.pagesBacked_iff (given : GivenTo s v p s') (bounded : s.totalPages ≤ 2 ^ 20)
    (n : ℕ) :
    PagesBacked s s' v n ↔ n = 0 ∨ n = 1 ∨ n = 2 ∧ ∃ t, newTable s v = some t ∧
      leftTranslation s v (v + BitVec.ofNat 32 (1 * PAGE_SIZE)) = some (frameOf (pageAddr t)) := by
  constructor
  · rintro ⟨page, injective, backed⟩
    by_cases zero : n = 0
    · exact Or.inl zero
    have positive : 0 < n := Nat.pos_of_ne_zero zero
    obtain ⟨free, -, translated⟩ := backed 0 positive
    have page_zero := given.eq_of_translated bounded free translated
    -- Every page but the first is the page of the new table, so that there is at most one.
    have page_table {i : ℕ} (below : i < n) (later : i ≠ 0) : newTable s v = some (page i) := by
      obtain ⟨free, used, -⟩ := backed i below
      refine ((given.taken (page i)).mp ⟨free, used⟩).resolve_left fun same => later ?_
      exact injective below positive (same.trans page_zero.symm)
    by_cases one : n = 1
    · exact Or.inr (Or.inl one)
    have two : n = 2 := by
      by_contra more
      have same := (page_table (show 1 < n by omega) one_ne_zero).symm.trans
        (page_table (show 2 < n by omega) two_ne_zero)
      exact absurd (injective (show 1 < n by omega) (show 2 < n by omega) (Option.some.inj same))
        (by decide)
    refine Or.inr (Or.inr ⟨two, page 1, page_table (by omega) one_ne_zero, ?_⟩)
    exact given.translate_second.symm.trans (backed 1 (by omega)).2.2
  · rintro (rfl | rfl | ⟨rfl, t, table, translated⟩)
    · exact pagesBacked_zero ..
    · exact given.pagesBacked_one
    · exact given.pagesBacked_two table translated

end Backed

end ModernOS.Memory
