import ModernOS.Memory.Init

/-!
`map_page` on a processor with paging enabled.

After `init` the kernel's pointers are virtual addresses. `mapPagePaged` sends each
access of `map_page` through the walk; it does what `mapPage` says as long as the
directory and the table in question are mapped to themselves (`Reached`). `Paging`
is what `init` leaves: a full directory of different tables, and free pages with
different addresses. Giving a new page to an address keeps it (`MapsNew`).
-/

namespace ModernOS.Memory

open FirstFit

/-! ### Accesses through the walk -/

/-- The physical address behind the pointer `a`, if its page is mapped. -/
def physical (s : State) (a : Word) : Option Word :=
  (translate s a).map fun frame => (frame.setWidth 32 : Word) <<< 12 + a % 4096#32

/-- A read-modify-write through the pointer `a`; there is no result after a page fault. -/
def State.access (s : State) (a : Word) (f : Word → Word) : Option State :=
  (physical s a).map fun addr => s.modify addr f

/-- `map_page` with paging enabled. -/
def mapPagePaged (physicalAddr virtualAddr : Word) (s : State) : Option State :=
  let dirEntry := entryAddr s.currentDirectory (tableIdx virtualAddr)
  (physical s dirEntry).bind fun addr =>
    if Entry.present (s.mem addr) = 0#1 then
      let (table, s) := allocatePage s
      (s.access dirEntry (Entry.fill (frameOf table))).bind fun s =>
        s.access (entryAddr table (pageOffset virtualAddr)) (Entry.fill (frameOf physicalAddr))
    else
      s.access (entryAddr (tableOf (s.mem addr)) (pageOffset virtualAddr))
        (Entry.fill (frameOf physicalAddr))

/-- The page at `a` is mapped to itself. -/
def MapsToItself (s : State) (a : Word) : Prop := translate s a = some (frameOf a)

/-- The directory and the table of the address `v` are mapped to themselves. -/
structure Reached (s : State) (v : Word) : Prop where
  directory : MapsToItself s s.currentDirectory
  table : MapsToItself s (tableOf (dirEntry s v))

theorem translate_of_pageIdx {s : State} {u v : Word} (same : pageIdx u = pageIdx v) :
    translate s u = translate s v := by
  obtain ⟨table, offset⟩ := pageIdx_eq_iff.mp same
  rw [translate, translate, walk, walk, dirEntry, dirEntry, tableEntry, tableEntry, table, offset]

theorem toNat_pageIdx (a : Word) : (pageIdx a).toNat = a.toNat / 4096 := rfl

/-- An entry lies in the page of its table. -/
theorem pageIdx_entryAddr {table i : Word} (aligned : PageAligned table) (inside : i.toNat < 1024) :
    pageIdx (entryAddr table i) = pageIdx table := by
  apply BitVec.eq_of_toNat_eq
  rw [toNat_pageIdx, toNat_pageIdx, toNat_entryAddr aligned inside]
  unfold PageAligned PAGE_SIZE at aligned
  omega

theorem frameOf_of_pageIdx {a b : Word} (same : pageIdx a = pageIdx b) : frameOf a = frameOf b := by
  have pages := congrArg BitVec.toNat same
  rw [toNat_pageIdx, toNat_pageIdx] at pages
  apply BitVec.eq_of_toNat_eq
  rw [frameOf, frameOf, BitVec.toNat_setWidth, BitVec.toNat_setWidth, BitVec.toNat_ushiftRight,
    BitVec.toNat_ushiftRight, Nat.shiftRight_eq_div_pow, Nat.shiftRight_eq_div_pow]
  omega

/-- A pointer into a page that is mapped to itself is its own physical address. -/
theorem physical_eq_self {s : State} {a : Word} (itself : MapsToItself s a) :
    physical s a = some a := by
  have := a.isLt
  rw [physical, itself, Option.map_some, Option.some_inj]
  apply BitVec.eq_of_toNat_eq
  rw [BitVec.toNat_add, BitVec.toNat_shiftLeft, BitVec.toNat_setWidth, frameOf,
    BitVec.toNat_setWidth, BitVec.toNat_ushiftRight, Nat.shiftRight_eq_div_pow, Nat.shiftLeft_eq,
    BitVec.toNat_umod, show (4096#32 : Word).toNat = 4096 from rfl]
  omega

theorem MapsToItself.entryAddr {s : State} {table i : Word} (itself : MapsToItself s table)
    (aligned : PageAligned table) (inside : i.toNat < 1024) :
    MapsToItself s (entryAddr table i) := by
  have same := pageIdx_entryAddr aligned inside
  rw [MapsToItself, translate_of_pageIdx same, frameOf_of_pageIdx same]
  exact itself

/-- With the directory and the table mapped to themselves, `map_page` edits the table that
the processor walks. -/
theorem mapPagePaged_of_reached {s : State} {v : Word} (physicalAddr : Word)
    (aligned : PageAligned s.currentDirectory) (here : (dirEntry s v).present = 1#1)
    (reached : Reached s v) : mapPagePaged physicalAddr v s = some (mapPage physicalAddr v s) := by
  have directory := physical_eq_self (reached.directory.entryAddr aligned (tableIdx_lt v))
  have table := physical_eq_self
    (reached.table.entryAddr (pageAligned_tableOf _) (pageOffset_lt v))
  have taken : ¬ (dirEntry s v).present = 0#1 := by rw [here]; decide
  unfold dirEntry at taken table
  rw [mapPage_of_present physicalAddr here, mapPagePaged]
  dsimp only
  rw [directory, Option.bind_some, if_neg taken, State.access, table]
  rfl

/-! ### A new page for an address -/

/-- Paging as `init` sets it up. -/
structure Paging (s : State) : Prop where
  tables : TablesApart s
  present : ∀ v, (dirEntry s v).present = 1#1
  distinct : Set.InjOn pageAddr (freePages s)

/-- `t` is `s` after page `i`, the lowest free one, has been given to the address `v`. -/
structure MapsNew (s : State) (v : Word) (i : ℕ) (t : State) : Prop where
  least : IsLeast (freePages s : Set ℕ) i
  currentDirectory : t.currentDirectory = s.currentDirectory
  dirEntry : ∀ u, dirEntry t u = dirEntry s u
  freePages : freePages t = (freePages s).erase i
  translate : ∀ u, translate t u =
    if pageIdx u = pageIdx v then some (frameOf (pageAddr i)) else translate s u

/-- Allocating a page and mapping it at `v`. -/
theorem Paging.mapsNew {s : State} (paging : Paging s) {i : ℕ} (found : firstFree s = some i)
    (v : Word) : MapsNew s v i (mapPage (pageAddr i) v (allocatePage s).2) := by
  set t := (allocatePage s).2 with allocated
  obtain ⟨mem, -, currentDirectory⟩ := allocatePage_frame s
  have same := walk_congr mem currentDirectory
  have free : Memory.freePages t = (Memory.freePages s).erase i := by
    rw [allocated, allocatePage_of_some found, freePages_markUsed]
  have here : (Memory.dirEntry t v).present = 1#1 := (same v).1 ▸ paging.present v
  have tables : TablesApart t := by
    refine ⟨currentDirectory ▸ paging.tables.aligned, fun u _ => ?_, fun u w _ _ tables => ?_⟩
    · rw [(same u).1, currentDirectory]
      exact paging.tables.apart u (paging.present u)
    · rw [(same u).1, (same w).1] at tables
      exact paging.tables.distinct u w (paging.present u) (paging.present w) tables
  have directory := dirEntry_mapPage_of_present (pageAddr i) tables here
  refine ⟨firstFree_eq_some_iff.mp found, ?_, fun u => ?_, ?_, fun u => ?_⟩
  · rw [mapPage_of_present (pageAddr i) here, State.modify_currentDirectory, currentDirectory]
  · rw [directory, (same u).1]
  · rw [mapPage_of_present (pageAddr i) here, freePages_modify, free]
  · rw [Memory.translate, walk_mapPage_of_present (pageAddr i) tables here]
    by_cases page : pageIdx u = pageIdx v
    · rw [if_pos page, if_pos page, Option.map_some, Entry.frame_fill]
    · rw [if_neg page, if_neg page, (same u).2, Memory.translate]

/-- Paging stays set up. -/
theorem MapsNew.paging {s t : State} {v : Word} {i : ℕ} (paging : Paging s)
    (maps : MapsNew s v i t) : Paging t where
  tables := {
    aligned := maps.currentDirectory ▸ paging.tables.aligned
    apart := fun u _ => by
      rw [maps.dirEntry, maps.currentDirectory]
      exact paging.tables.apart u (paging.present u)
    distinct := fun u w _ _ tables => by
      rw [maps.dirEntry, maps.dirEntry] at tables
      exact paging.tables.distinct u w (paging.present u) (paging.present w) tables }
  present := fun u => by
    rw [maps.dirEntry]
    exact paging.present u
  distinct := paging.distinct.mono fun j free => by
    rw [maps.freePages] at free
    exact Finset.mem_of_mem_erase free

/-- `init` sets paging up, given enough pages with different addresses. -/
theorem paging_init {s : State} (room : 1025 ≤ (freePages s).card)
    (distinct : Set.InjOn pageAddr (freePages s)) : Paging (init s) where
  tables := {
    aligned := by
      rw [(built_init room distinct).2]
      exact pageAligned_pageAt s 0
    apart := fun v _ => by
      have := tableIdx_lt v
      rw [tableOf_init room distinct, (built_init room distinct).2, Ne,
        pageAt_inj room distinct (by omega) (by omega)]
      exact Nat.succ_ne_zero _
    distinct := fun u v _ _ tables => by
      have := tableIdx_lt u
      have := tableIdx_lt v
      rw [tableOf_init room distinct, tableOf_init room distinct,
        pageAt_inj room distinct (by omega) (by omega)] at tables
      exact BitVec.eq_of_toNat_eq (Nat.succ.inj tables) }
  present := fun v => (dirEntry_init room distinct v).present
  distinct := by
    rw [(built_init room distinct).1.taken.freePages_eq]
    exact distinct.mono fun i left => (mem_left.mp left).1

end ModernOS.Memory
