import ModernOS.Memory.MapPage

/-!
What `Memory::init` builds.

With 1025 free pages the directory takes the lowest of them and table `i` the one of
rank `i + 1`. `Filled i` describes memory before round `i` of the outer loop: the entries
placed so far map their frames. The pages may share addresses when they lie past the 32-bit
address space; then the last of the writes to an address counts, and the pages have to agree
on its frame (`FramesAgree`), as pages with different addresses do. After the last round every
address is translated to itself.
-/

namespace ModernOS.Memory

open FirstFit

/-! ### Allocations one after another -/

/-- `t` is reached from `s` by `n` allocations, and by writes that leave the allocator
alone. -/
structure Taken (s : State) (n : ℕ) (t : State) : Prop where
  totalPages : t.totalPages = s.totalPages
  used : ∀ i, pageUsed t.memoryBitmap i = true ↔
    pageUsed s.memoryBitmap i = true ∨ i ∈ freePages s ∧ rank (freePages s) i < n

theorem Taken.refl (s : State) : Taken s 0 s := ⟨rfl, fun i => by simp⟩

theorem Taken.freePages_eq {s t : State} {n : ℕ} (taken : Taken s n t) :
    freePages t = left (freePages s) n := by
  ext i
  have used := taken.used i
  rw [mem_freePages] at used
  rw [mem_freePages, mem_left, mem_freePages, taken.totalPages, ← Bool.not_eq_true, used,
    ← Bool.not_eq_true]
  grind

/-- The address of the page that the allocation after `n` others takes. -/
noncomputable def pageAt (s : State) (n : ℕ) : Word := pageAddr (slot (freePages s) n)

theorem Taken.allocate {s t : State} {n : ℕ} (taken : Taken s n t)
    (room : n < (freePages s).card) :
    (allocatePage t).1 = pageAt s n ∧ Taken s (n + 1) (allocatePage t).2 := by
  have least : IsLeast (freePages t : Set ℕ) (slot (freePages s) n) := by
    rw [taken.freePages_eq]
    exact isLeast_left.mpr ⟨slot_mem room, rank_slot room⟩
  rw [allocatePage_of_some (firstFree_eq_some_iff.mpr least)]
  refine ⟨rfl, taken.totalPages, fun i => ?_⟩
  dsimp only
  rw [pageUsed_markUsed]
  have next : rank (freePages s) i < n + 1 ↔
      rank (freePages s) i < n ∨ rank (freePages s) i = n := by omega
  by_cases same : i = slot (freePages s) n
  · rw [if_pos same, same]
    exact iff_of_true rfl (Or.inr ⟨slot_mem room, (rank_slot room).trans_lt (Nat.lt_succ_self n)⟩)
  · have other : i ∈ freePages s → rank (freePages s) i ≠ n := by
      rintro free rfl
      exact same (slot_rank free).symm
    rw [if_neg same, taken.used]
    grind

/-! ### Rewriting a whole table -/

theorem toNat_index {j : ℕ} (inside : j < 1024) : (BitVec.ofNat 32 j).toNat = j := by
  rw [BitVec.toNat_ofNat]
  omega

theorem entryAt_inj {table table' : Word} (aligned : PageAligned table)
    (aligned' : PageAligned table') {i j : ℕ} (hi : i < 1024) (hj : j < 1024) :
    entryAt table i = entryAt table' j ↔ table = table' ∧ i = j := by
  rw [entryAt, entryAt, entryAddr_inj aligned aligned' (by rwa [toNat_index hi])
    (by rwa [toNat_index hj]), ← BitVec.toNat_inj (x := BitVec.ofNat 32 i), toNat_index hi,
    toNat_index hj]

theorem entryAddr_eq_entryAt (table i : Word) : entryAddr table i = entryAt table i.toNat := by
  rw [entryAt, BitVec.ofNat_toNat, BitVec.setWidth_eq]

/-- `t` is `s` with entry `j` of a table rewritten by `f j`, for all `j` below `n`. -/
structure Rewritten (table : Word) (f : ℕ → Word → Word) (n : ℕ) (s t : State) : Prop where
  entries : ∀ j < n, t.mem (entryAt table j) = f j (s.mem (entryAt table j))
  others : ∀ a, (∀ j < n, a ≠ entryAt table j) → t.mem a = s.mem a
  memoryBitmap : t.memoryBitmap = s.memoryBitmap
  totalPages : t.totalPages = s.totalPages
  currentDirectory : t.currentDirectory = s.currentDirectory

/-- A loop over the entries of a table rewrites each of them once. -/
theorem rewritten_forRange {table : Word} (aligned : PageAligned table) (f : ℕ → Word → Word)
    (s : State) :
    Rewritten table f 1024 s (CountedLoop.forRange 0 1024 (fun j s =>
      s.modify (entryAt table j) (f j)) s) := by
  refine CountedLoop.forRange_induction (I := fun n t => Rewritten table f n s t)
    (Nat.zero_le _) (fun n t _ inside before => ?_)
    ⟨fun j none => absurd none (Nat.not_lt_zero j), fun _ _ => rfl, rfl, rfl, rfl⟩
  have fresh : ∀ j < n, entryAt table n ≠ entryAt table j := fun j below same => by
    have := ((entryAt_inj aligned aligned inside (below.trans inside)).mp same).2
    omega
  refine ⟨fun j below => ?_, fun a apart => ?_, before.memoryBitmap, before.totalPages,
    before.currentDirectory⟩
  · rcases Nat.lt_succ_iff_lt_or_eq.mp below with old | rfl
    · rw [State.modify_mem_of_ne _ _ (fresh j old).symm]
      exact before.entries j old
    · rw [← before.others _ fresh]
      exact State.modify_mem_self ..
  · rw [State.modify_mem_of_ne _ _ (apart n (Nat.lt_succ_self n))]
    exact before.others a fun j below => apart j (below.trans (Nat.lt_succ_self n))

/-- An entry that maps a page to frame `f`, for reading and writing by the kernel. -/
structure Entry.Maps (f : BitVec 20) (e : Entry) : Prop where
  present : e.present = 1#1
  rw : e.rw = 1#1
  user : e.user = 0#1
  frame : e.frame = f

theorem Entry.maps_fill (f : BitVec 20) (e : Entry) : Entry.Maps f (Entry.fill f e) :=
  ⟨present_fill f e, rw_fill f e, user_fill f e, frame_fill f e⟩

/-! ### The loop over the tables -/

theorem initRound_eq (dir : Word) (i : ℕ) (t : State) :
    initRound dir i t =
      (fillTable (allocatePage t).1 i (allocatePage t).2).modify (entryAt dir i)
        (Entry.fill (frameOf (allocatePage t).1)) := rfl

theorem pageAligned_pageAt (s : State) (n : ℕ) : PageAligned (pageAt s n) :=
  pageAligned_pageAddr _

theorem Taken.of_frame {s t t' : State} {n : ℕ} (taken : Taken s n t)
    (memoryBitmap : t'.memoryBitmap = t.memoryBitmap) (totalPages : t'.totalPages = t.totalPages) :
    Taken s n t' :=
  ⟨totalPages.trans taken.totalPages, memoryBitmap ▸ taken.used⟩

theorem init_eq (s : State) :
    init s =
      switchPageDirectory (allocatePage s).1
        (CountedLoop.forRange 0 1024 (initRound (allocatePage s).1)
          (clearDirectory (allocatePage s).1 (allocatePage s).2)) := rfl

/-! ### The frames of the entries -/

/-- The frame that entry `j` of page `n` is for: page 0 is the directory, page `i + 1` table
`i`. -/
noncomputable def frameAt (s : State) : ℕ → ℕ → BitVec 20
  | 0, j => frameOf (pageAt s (j + 1))
  | i + 1, j => BitVec.ofNat 20 (i * 1024 + j)

/-- Pages that share an address are for the same frames. -/
def FramesAgree (s : State) : Prop :=
  ∀ m < 1025, ∀ n < 1025, pageAt s m = pageAt s n → ∀ j < 1024, frameAt s m j = frameAt s n j

/-- The entries of the first `i` tables, and of these in the directory. -/
def Placed (i n j : ℕ) : Prop := j < 1024 ∧ n ≤ i ∧ (n = 0 → j < i)

/-- Memory before round `i` of the outer loop: the entries placed map their frames. -/
structure Filled (s : State) (i : ℕ) (t : State) : Prop where
  taken : Taken s (i + 1) t
  entries : ∀ n j, Placed i n j → Entry.Maps (frameAt s n j) (t.mem (entryAt (pageAt s n) j))

/-- Switching to another directory leaves memory and the allocator. -/
theorem Filled.switch {s t : State} {i : ℕ} (filled : Filled s i t) (dir : Word) :
    Filled s i (switchPageDirectory dir t) :=
  ⟨filled.taken.of_frame rfl rfl, filled.entries⟩

section Filled

variable {s : State} (room : 1025 ≤ (freePages s).card) (agree : FramesAgree s)

include room agree

/-- One round of the outer loop: an entry that shares its address with one that is written is
for the same frame. -/
theorem Filled.round {t : State} {i : ℕ} (inside : i < 1024) (filled : Filled s i t) :
    Filled s (i + 1) (initRound (pageAt s 0) i t) := by
  obtain ⟨address, taken⟩ := filled.taken.allocate (show i + 1 < _ by omega)
  obtain ⟨mem, -, -⟩ := allocatePage_frame t
  have table : Rewritten (pageAt s (i + 1)) (fun j => Entry.fill (BitVec.ofNat 20 (i * 1024 + j)))
      1024 (allocatePage t).2 (fillTable (pageAt s (i + 1)) i (allocatePage t).2) :=
    rewritten_forRange (pageAligned_pageAt s (i + 1)) _ _
  rw [initRound_eq, address]
  refine ⟨taken.of_frame ((State.modify_memoryBitmap ..).trans table.memoryBitmap)
    ((State.modify_totalPages ..).trans table.totalPages), ?_⟩
  rintro n j ⟨hj, hn, placed⟩
  by_cases last : entryAt (pageAt s n) j = entryAt (pageAt s 0) i
  · -- The directory entry of the new table is written last.
    obtain ⟨page, rfl⟩ := (entryAt_inj (pageAligned_pageAt s n) (pageAligned_pageAt s 0) hj
      inside).mp last
    rw [last, State.modify_mem_self, agree n (by omega) 0 (by omega) page j hj]
    exact Entry.maps_fill _ _
  rw [State.modify_mem_of_ne _ _ last]
  by_cases shared : pageAt s n = pageAt s (i + 1)
  · rw [shared, table.entries j hj, agree n (by omega) (i + 1) (by omega) shared j hj]
    exact Entry.maps_fill _ _
  · have outside : ∀ l < 1024, entryAt (pageAt s n) j ≠ entryAt (pageAt s (i + 1)) l :=
      fun l hl same => shared ((entryAt_inj (pageAligned_pageAt s n) (pageAligned_pageAt s _) hj
        hl).mp same).1
    rw [table.others _ outside, mem]
    refine filled.entries n j ⟨hj, ?_, fun zero => ?_⟩
    · exact Nat.lt_succ_iff.mp (lt_of_le_of_ne hn fun same => shared (same ▸ rfl))
    · refine lt_of_le_of_ne (Nat.lt_succ_iff.mp (placed zero)) fun same => last ?_
      rw [zero, same]

theorem filled_init : Filled s 1024 (init s) := by
  obtain ⟨address, taken⟩ := (Taken.refl s).allocate (show 0 < _ by omega)
  have cleared : Rewritten (pageAt s 0) (fun _ => Entry.clear) 1024 (allocatePage s).2
      (clearDirectory (pageAt s 0) (allocatePage s).2) :=
    rewritten_forRange (pageAligned_pageAt s 0) _ _
  have start : Filled s 0 (clearDirectory (pageAt s 0) (allocatePage s).2) := by
    refine ⟨taken.of_frame cleared.memoryBitmap cleared.totalPages, ?_⟩
    rintro n j ⟨-, none, placed⟩
    exact absurd (placed (Nat.le_zero.mp none)) (Nat.not_lt_zero j)
  have filled : Filled s 1024 (CountedLoop.forRange 0 1024 (initRound (pageAt s 0))
      (clearDirectory (pageAt s 0) (allocatePage s).2)) :=
    CountedLoop.forRange_induction (I := fun i t => Filled s i t) (Nat.zero_le _)
      (fun i t _ inside before => before.round room agree inside) start
  rw [init_eq, address]
  exact filled.switch _

end Filled

/-! ### The identity mapping -/

/-- The first `i` tables are in place, and no page but these and the directory is taken. -/
structure Built (s : State) (i : ℕ) (t : State) : Prop where
  taken : Taken s (i + 1) t
  directory : ∀ j < i, Entry.Maps (frameOf (pageAt s (j + 1))) (t.mem (entryAt (pageAt s 0) j))
  tables : ∀ j < i, ∀ k < 1024,
    Entry.Maps (BitVec.ofNat 20 (j * 1024 + k)) (t.mem (entryAt (pageAt s (j + 1)) k))

section Init

variable {s : State} (room : 1025 ≤ (freePages s).card)
  (distinct : Set.InjOn pageAddr (freePages s))

include room distinct in
/-- The pages of the directory and the tables have different addresses. -/
theorem pageAt_inj {m n : ℕ} (hm : m < 1025) (hn : n < 1025) : pageAt s m = pageAt s n ↔ m = n := by
  constructor
  · intro same
    have slots := distinct (slot_mem (hm.trans_le room)) (slot_mem (hn.trans_le room)) same
    rw [← rank_slot (hm.trans_le room), slots, rank_slot (hn.trans_le room)]
  · rintro rfl
    rfl

include room distinct in
/-- Pages with different addresses agree. -/
theorem framesAgree_of_injOn : FramesAgree s := by
  intro m hm n hn same j _
  rw [(pageAt_inj room distinct hm hn).mp same]

/-- When the loop is done, the entries placed are the directory and the tables. -/
theorem Filled.built {t : State} (filled : Filled s 1024 t) : Built s 1024 t where
  taken := filled.taken
  directory j below := filled.entries 0 j ⟨below, Nat.zero_le _, fun _ => below⟩
  tables j below k hk :=
    filled.entries (j + 1) k ⟨hk, below, fun zero => absurd zero (Nat.succ_ne_zero j)⟩

include room distinct in
/-- After `init` the directory and the 1024 tables are in place. -/
theorem built_init : Built s 1024 (init s) ∧ (init s).currentDirectory = pageAt s 0 := by
  have agree := framesAgree_of_injOn room distinct
  exact ⟨(filled_init room agree).built, ((Taken.refl s).allocate (show 0 < _ by omega)).1⟩

include room distinct in
/-- The directory entry of an address after `init`. -/
theorem dirEntry_init (v : Word) :
    Entry.Maps (frameOf (pageAt s ((tableIdx v).toNat + 1))) (dirEntry (init s) v) := by
  obtain ⟨built, current⟩ := built_init room distinct
  rw [dirEntry, current, entryAddr_eq_entryAt]
  exact built.directory _ (tableIdx_lt v)

include room distinct in
/-- The table of an address after `init`. -/
theorem tableOf_init (v : Word) :
    tableOf (dirEntry (init s) v) = pageAt s ((tableIdx v).toNat + 1) :=
  tableOf_of_frame (pageAligned_pageAt s _) (dirEntry_init room distinct v).frame

include room distinct in
/-- After `init` every address is translated to itself. -/
theorem walk_init (v : Word) : ∃ e, walk (init s) v = some e ∧ Entry.Maps (frameOf v) e := by
  obtain ⟨built, -⟩ := built_init room distinct
  have here := (dirEntry_init room distinct v).present
  have entry : Entry.Maps (BitVec.ofNat 20 ((tableIdx v).toNat * 1024 + (pageOffset v).toNat))
      (tableEntry (init s) (dirEntry (init s) v) v) := by
    rw [tableEntry, tableOf_init room distinct, entryAddr_eq_entryAt]
    exact built.tables _ (tableIdx_lt v) _ (pageOffset_lt v)
  have frame : BitVec.ofNat 20 ((tableIdx v).toNat * 1024 + (pageOffset v).toNat) = frameOf v := by
    apply BitVec.eq_of_toNat_eq
    rw [BitVec.toNat_ofNat, frameOf, BitVec.toNat_setWidth, BitVec.toNat_ushiftRight,
      Nat.shiftRight_eq_div_pow, toNat_tableIdx, toNat_pageOffset]
    omega
  rw [frame] at entry
  refine ⟨_, ?_, entry⟩
  rw [walk, if_pos here]
  exact if_pos entry.present

end Init

theorem injOn_pageAddr {s : State} (bounded : s.totalPages ≤ 2 ^ 20) :
    Set.InjOn pageAddr (freePages s) := by
  intro i hi j hj same
  have inside : ∀ {k}, k ∈ freePages s → k < 2 ^ 20 := fun free =>
    (mem_freePages.mp free).1.trans_le bounded
  exact (pageAddr_inj (inside hi) (inside hj)).mp same

/-- With 1025 free pages `init` puts the directory and its tables in as many different
pages that were free, takes no other page, and maps every address to itself. -/
theorem init_builds_identity {s : State} (bounded : s.totalPages ≤ 2 ^ 20)
    (room : 1025 ≤ (freePages s).card) :
    ∃ page : ℕ → ℕ, Set.InjOn page (Set.Iio 1025) ∧ (∀ n < 1025, page n ∈ freePages s) ∧
      (init s).currentDirectory = pageAddr (page 0) ∧
      (∀ v, tableOf (dirEntry (init s) v) = pageAddr (page ((tableIdx v).toNat + 1))) ∧
      (∀ i, pageUsed (init s).memoryBitmap i = true ↔
        pageUsed s.memoryBitmap i = true ∨ ∃ n < 1025, page n = i) ∧
      ∀ v, ∃ e, walk (init s) v = some e ∧ e.present = 1#1 ∧ e.rw = 1#1 ∧ e.user = 0#1 ∧
        e.frame = frameOf v := by
  have distinct := injOn_pageAddr bounded
  obtain ⟨built, current⟩ := built_init room distinct
  refine ⟨slot (freePages s), fun m hm n hn same => ?_, fun n hn => slot_mem (hn.trans_le room),
    current, tableOf_init room distinct, fun i => ?_, fun v => ?_⟩
  · exact (pageAt_inj room distinct hm hn).mp (congrArg pageAddr same)
  · rw [built.taken.used]
    refine or_congr_right ⟨fun ⟨free, below⟩ => ⟨_, below, slot_rank free⟩, ?_⟩
    rintro ⟨n, hn, rfl⟩
    exact ⟨slot_mem (hn.trans_le room), (rank_slot (hn.trans_le room)).trans_lt hn⟩
  · obtain ⟨e, reached, maps⟩ := walk_init room distinct v
    exact ⟨e, reached, maps.present, maps.rw, maps.user, maps.frame⟩

theorem freePages_freeMemory (n : ℕ) : freePages (freeMemory n) = Finset.range n := by
  ext i
  rw [mem_freePages, Finset.mem_range, pageUsed_eq_getLsbD]
  simp [freeMemory]

theorem room_freeMemory {n : ℕ} (many : 1025 ≤ n) : 1025 ≤ (freePages (freeMemory n)).card := by
  rwa [freePages_freeMemory, Finset.card_range]

/-- A memory of exactly 1025 free pages is enough: the last page of the address space is
mapped to the last frame. -/
theorem init_builds_identity_1025 :
    ∃ e, walk (init (freeMemory 1025)) 0xfffff000#32 = some e ∧ e.present = 1#1 ∧ e.rw = 1#1 ∧
      e.user = 0#1 ∧ e.frame = 0xfffff#20 := by
  obtain ⟨_, -, -, -, -, -, identity⟩ := init_builds_identity (by decide) (room_freeMemory le_rfl)
  exact identity 0xfffff000#32

end ModernOS.Memory
