import ModernOS.Memory.Allocator

/-!
The arguments of `free_page`.

`free_page` divides the address into the index of a word and that of a bit, and clears the bit. It
has no test on the way: what it does is right exactly when the bit is one of the bitmap, and is
clear already or belongs to a page with that address (`rejectsInvalid_iff`).

In the 64-bit build the allocator returns an address of 64 bits, and `free_page` takes its low 32
bits. So the page that is freed is the page that was allocated exactly when its address fits in
32 bits (`Wide.roundTrip_iff`).
-/

namespace ModernOS.Memory

/-! ### Any address -/

/-- The number of words in the bitmap of `n` pages. -/
def bitmapWords (n : ℕ) : ℕ := (n + 31) / 32

/-- `free_page` on a bitmap that remembers the words that are accessed. -/
def freePageLogged (ptr : Word) (bitmap : LoggedArray ℕ Word) : LoggedArray ℕ Word :=
  let page := ptr / 4096#32
  let word := page.toNat / 32
  bitmap.store word (bitmap.cells word &&& ~~~(1#32 <<< (page.toNat % 32)))

/-- Only words of the bitmap are accessed, and the bitmap changes only when the address is that of
a page in use, whose bit is then cleared. -/
structure RejectsInvalid (ptr : Word) (s : State) : Prop where
  inside : (freePageLogged ptr ⟨s.memoryBitmap, []⟩).Within (· < bitmapWords s.totalPages)
  changes : (freePage ptr s).memoryBitmap ≠ s.memoryBitmap →
    ∃ i < s.totalPages, ptr.toNat = i * PAGE_SIZE ∧ pageUsed s.memoryBitmap i = true ∧
      ∀ j, pageUsed (freePage ptr s).memoryBitmap j =
        if j = i then false else pageUsed s.memoryBitmap j

/-- The page number of the address has a bit in the bitmap; if the bit is set, the address is
aligned and the page is below `total_pages`. -/
structure Harmless (ptr : Word) (s : State) : Prop where
  inside : ptr.toNat / PAGE_SIZE < 32 * bitmapWords s.totalPages
  page : pageUsed s.memoryBitmap (ptr.toNat / PAGE_SIZE) = true →
    PAGE_SIZE ∣ ptr.toNat ∧ ptr.toNat / PAGE_SIZE < s.totalPages

/-- The log forgotten, it is `free_page`. -/
theorem freePageLogged_cells (ptr : Word) (s : State) :
    (freePageLogged ptr ⟨s.memoryBitmap, []⟩).cells = (freePage ptr s).memoryBitmap := rfl

theorem freePage_memoryBitmap (ptr : Word) (s : State) :
    (freePage ptr s).memoryBitmap = clearUsed s.memoryBitmap (ptr.toNat / PAGE_SIZE) := rfl

/-- A bitmap is determined by its bits. -/
theorem bitmap_ext {bitmap bitmap' : ℕ → Word}
    (same : ∀ i, pageUsed bitmap i = pageUsed bitmap' i) : bitmap = bitmap' := by
  ext w k inside
  have bit := same (32 * w + k)
  have word : (32 * w + k) / 32 = w := by omega
  have index : (32 * w + k) % 32 = k := by omega
  rw [pageUsed_eq_getLsbD, pageUsed_eq_getLsbD, word, index] at bit
  simpa [BitVec.getLsbD_eq_getElem inside] using bit

theorem clearUsed_eq_self_iff {bitmap : ℕ → Word} {i : ℕ} :
    clearUsed bitmap i = bitmap ↔ pageUsed bitmap i = false := by
  constructor
  · intro same
    have bit := pageUsed_clearUsed bitmap i i
    rwa [same, if_pos rfl] at bit
  · intro clear
    refine bitmap_ext fun j => ?_
    rw [pageUsed_clearUsed]
    split
    · rename_i here
      rw [here, clear]
    · rfl

/-- **`free_page` rejects what is not a page in use** exactly when it is given the address of a
page in use, or one whose bit is in the bitmap and clear. -/
theorem rejectsInvalid_iff (ptr : Word) (s : State) :
    RejectsInvalid ptr s ↔ Harmless ptr s := by
  have inside : (freePageLogged ptr ⟨s.memoryBitmap, []⟩).Within (· < bitmapWords s.totalPages) ↔
      ptr.toNat / PAGE_SIZE < 32 * bitmapWords s.totalPages := by
    have stores : (freePageLogged ptr ⟨s.memoryBitmap, []⟩).stores =
        [ptr.toNat / PAGE_SIZE / 32] := rfl
    rw [LoggedArray.Within, stores]
    simp only [List.mem_singleton, forall_eq]
    rw [Nat.div_lt_iff_lt_mul (by decide), Nat.mul_comm]
  have changed : (freePage ptr s).memoryBitmap ≠ s.memoryBitmap ↔
      pageUsed s.memoryBitmap (ptr.toNat / PAGE_SIZE) = true := by
    rw [freePage_memoryBitmap, ne_eq, clearUsed_eq_self_iff, Bool.not_eq_false]
  constructor
  · rintro ⟨within, changes⟩
    refine ⟨inside.mp within, fun used => ?_⟩
    obtain ⟨i, below, address, -, -⟩ := changes (changed.mpr used)
    have page : ptr.toNat / PAGE_SIZE = i := by
      rw [address]
      exact Nat.mul_div_cancel i (by decide)
    exact ⟨⟨i, address.trans (Nat.mul_comm ..)⟩, page ▸ below⟩
  · rintro ⟨within, page⟩
    refine ⟨inside.mpr within, fun change => ?_⟩
    have used := changed.mp change
    obtain ⟨aligned, below⟩ := page used
    refine ⟨_, below, (Nat.div_mul_cancel aligned).symm, used, fun j => ?_⟩
    rw [freePage_memoryBitmap, pageUsed_clearUsed]

/-- An address inside page 1 frees it. -/
theorem rejectsInvalid_fails : ¬ ∀ ptr s, RejectsInvalid ptr s := by
  intro rejects
  obtain ⟨i, -, address, -⟩ :=
    (rejects 0x1234#32 ⟨fun _ => 0#32, fun _ => 0xFFFFFFFF#32, 32, 0#32⟩).changes fun same =>
      absurd (congrFun same 0) (by decide)
  rw [PAGE_SIZE] at address
  have odd : (0x1234#32).toNat = 4660 := rfl
  omega

/-! ### The 64-bit build -/

namespace Wide

/-- `allocate_page` with 64-bit pointers. -/
def allocatePage (s : State) : BitVec 64 × State :=
  match firstFree s with
  | some i =>
      (BitVec.ofNat 64 (i * PAGE_SIZE), { s with memoryBitmap := markUsed s.memoryBitmap i })
  | none => (0#64, s)

/-- `free_page` with 64-bit pointers: the cast keeps 32 bits, the division is one of `size_t`. -/
def freePage (ptr : BitVec 64) (s : State) : State :=
  let page := ((ptr.setWidth 32).setWidth 64 / 4096#64).setWidth 32
  { s with memoryBitmap := clearUsed s.memoryBitmap page.toNat }

/-- The address of the page that is allocated in `s` frees that page in `t`, where it is in use,
and no other. -/
def RoundTrip (s t : State) : Prop :=
  ∀ i, firstFree s = some i → pageUsed t.memoryBitmap i = true →
    ∀ j, pageUsed (freePage (allocatePage s).1 t).memoryBitmap j =
      if j = i then false else pageUsed t.memoryBitmap j

/-- The page that the address of page `i` frees. -/
theorem freePage_allocatePage {s : State} {i : ℕ} (found : firstFree s = some i) (t : State) :
    (freePage (allocatePage s).1 t).memoryBitmap = clearUsed t.memoryBitmap (i % 2 ^ 20) := by
  have page : ((((allocatePage s).1.setWidth 32).setWidth 64 / 4096#64).setWidth 32).toNat =
      i % 2 ^ 20 := by
    rw [allocatePage, found, PAGE_SIZE]
    simp only [BitVec.toNat_setWidth, BitVec.toNat_udiv, BitVec.toNat_ofNat, Nat.reducePow,
      Nat.reduceMod]
    omega
  rw [freePage, page]

/-- **Page addresses survive the round trip** in the 64-bit build exactly for the pages below
2^20. -/
theorem roundTrip_iff (s t : State) :
    RoundTrip s t ↔
      ∀ i, firstFree s = some i → pageUsed t.memoryBitmap i = true → i < 2 ^ 20 := by
  refine forall_congr' fun i => forall_congr' fun found => forall_congr' fun used => ?_
  rw [freePage_allocatePage found]
  constructor
  · intro frees
    have cleared := frees i
    rw [if_pos rfl, pageUsed_clearUsed] at cleared
    split at cleared
    · rename_i same
      exact same ▸ Nat.mod_lt i (by decide)
    · rw [used] at cleared
      cases cleared
  · intro below j
    rw [Nat.mod_eq_of_lt below, pageUsed_clearUsed]

/-- Of 2^20 + 1 pages, all but the last are in use. -/
def lastFree : State where
  mem := fun _ => 0#32
  memoryBitmap := fun w => if w < 2 ^ 15 then 0xFFFFFFFF#32 else 0#32
  totalPages := 2 ^ 20 + 1
  currentDirectory := 0#32

theorem firstFree_lastFree : firstFree lastFree = some (2 ^ 20) := by
  refine firstFree_eq_some.mpr ⟨by decide, by decide, fun j below => ?_⟩
  have word : lastFree.memoryBitmap (j / 32) = 0xFFFFFFFF#32 := if_pos (by omega)
  have inside := Nat.mod_lt j (show 0 < 32 by decide)
  rw [pageUsed_eq_getLsbD, word, show 0xFFFFFFFF#32 = BitVec.allOnes 32 from rfl,
    BitVec.getLsbD_allOnes]
  exact decide_eq_true inside

/-- The address of page 2^20 frees page 0. -/
theorem roundTrip_fails : ¬ ∀ s i, 1 ≤ i → firstFree s = some i →
    ∀ j, pageUsed (freePage (allocatePage s).1 (allocatePage s).2).memoryBitmap j =
      if j = i then false else pageUsed (allocatePage s).2.memoryBitmap j := by
  intro survives
  have freed := survives lastFree (2 ^ 20) (by decide) firstFree_lastFree 0
  rw [freePage_allocatePage firstFree_lastFree, pageUsed_clearUsed, if_pos (by decide),
    if_neg (by decide), allocatePage, firstFree_lastFree] at freed
  dsimp only at freed
  rw [pageUsed_markUsed, if_neg (by decide)] at freed
  exact absurd freed (by decide)

end Wide

end ModernOS.Memory
