import Mathlib.Algebra.Group.Nat.Defs
import Mathlib.Tactic.Set
import ModernOS.Memory.Allocator

/-!
What `map_page` does to the address space.

`walk` is the two-level walk the processor performs from the current directory;
`translate` keeps its frame and is the address space as a partial map from
virtual addresses to frames. `mapPage` is meant to change that map at one page.
It does when the directory entry of the address is already present
(`walk_mapPage_of_present`). When it is absent the page taken for the new table
keeps its old words, and each of them that has its present bit set becomes a
translation (`walk_mapPage_of_absent`).
-/

namespace ModernOS.Memory

/-! ### Addresses of entries -/

/-- An address at the start of a page. -/
def PageAligned (a : Word) : Prop := a.toNat % PAGE_SIZE = 0

instance : DecidablePred PageAligned := fun _ => inferInstanceAs (Decidable (_ = _))

theorem toNat_tableIdx (v : Word) : (tableIdx v).toNat = v.toNat / 4096 / 1024 := rfl

theorem toNat_pageOffset (v : Word) : (pageOffset v).toNat = v.toNat / 4096 % 1024 := rfl

theorem tableIdx_lt (v : Word) : (tableIdx v).toNat < 1024 := by
  have := v.isLt
  rw [toNat_tableIdx]
  omega

theorem pageOffset_lt (v : Word) : (pageOffset v).toNat < 1024 := by
  rw [toNat_pageOffset]
  omega

/-- Two addresses lie in one page exactly when both indices agree. -/
theorem pageIdx_eq_iff {u v : Word} :
    pageIdx u = pageIdx v ↔ tableIdx u = tableIdx v ∧ pageOffset u = pageOffset v := by
  constructor
  · intro same
    exact ⟨by rw [tableIdx, same, tableIdx], by rw [pageOffset, same, pageOffset]⟩
  · rintro ⟨table, offset⟩
    have hTable := congrArg BitVec.toNat table
    have hOffset := congrArg BitVec.toNat offset
    rw [toNat_tableIdx, toNat_tableIdx] at hTable
    rw [toNat_pageOffset, toNat_pageOffset] at hOffset
    apply BitVec.eq_of_toNat_eq
    show u.toNat / 4096 = v.toNat / 4096
    omega

theorem toNat_entryAddr {table i : Word} (aligned : PageAligned table) (inside : i.toNat < 1024) :
    (entryAddr table i).toNat = table.toNat + 4 * i.toNat := by
  have := table.isLt
  unfold PageAligned PAGE_SIZE at aligned
  rw [entryAddr, BitVec.toNat_add, BitVec.toNat_mul]
  simp only [BitVec.toNat_ofNat]
  omega

/-- Entries of page-aligned tables share an address only when they are the same entry
of the same table. -/
theorem entryAddr_inj {table table' i j : Word} (aligned : PageAligned table)
    (aligned' : PageAligned table') (hi : i.toNat < 1024) (hj : j.toNat < 1024) :
    entryAddr table i = entryAddr table' j ↔ table = table' ∧ i = j := by
  constructor
  · intro same
    have eq := congrArg BitVec.toNat same
    rw [toNat_entryAddr aligned hi, toNat_entryAddr aligned' hj] at eq
    unfold PageAligned PAGE_SIZE at aligned aligned'
    exact ⟨BitVec.eq_of_toNat_eq (by omega), BitVec.eq_of_toNat_eq (by omega)⟩
  · rintro ⟨rfl, rfl⟩
    rfl

/-- Different tables share no entry. -/
theorem entryAddr_ne {table table' i j : Word} (aligned : PageAligned table)
    (aligned' : PageAligned table') (apart : table ≠ table') (hi : i.toNat < 1024)
    (hj : j.toNat < 1024) : entryAddr table i ≠ entryAddr table' j := fun same =>
  apart ((entryAddr_inj aligned aligned' hi hj).mp same).1

theorem toNat_tableOf (e : Entry) : (tableOf e).toNat = e.frame.toNat * PAGE_SIZE := by
  have := e.frame.isLt
  rw [tableOf, BitVec.toNat_shiftLeft, BitVec.toNat_setWidth, Nat.shiftLeft_eq, PAGE_SIZE]
  omega

theorem pageAligned_tableOf (e : Entry) : PageAligned (tableOf e) := by
  rw [PageAligned, toNat_tableOf, PAGE_SIZE]
  omega

theorem pageAligned_pageAddr (i : ℕ) : PageAligned (pageAddr i) := by
  rw [PageAligned, pageAddr, BitVec.toNat_ofNat, PAGE_SIZE]
  omega

/-- An entry with the frame of an aligned address points to that address. -/
theorem tableOf_of_frame {a : Word} (aligned : PageAligned a) {e : Entry}
    (frame : e.frame = frameOf a) : tableOf e = a := by
  have := a.isLt
  unfold PageAligned PAGE_SIZE at aligned
  apply BitVec.eq_of_toNat_eq
  rw [toNat_tableOf, frame, frameOf, BitVec.toNat_setWidth, BitVec.toNat_ushiftRight,
    Nat.shiftRight_eq_div_pow, PAGE_SIZE]
  omega

/-- Aligned addresses with one frame are equal. -/
theorem frameOf_inj {a b : Word} (ha : PageAligned a) (hb : PageAligned b) :
    frameOf a = frameOf b ↔ a = b := by
  constructor
  · intro same
    rw [← tableOf_of_frame ha (Entry.frame_fill (frameOf a) 0#32), same,
      tableOf_of_frame hb (Entry.frame_fill (frameOf b) 0#32)]
  · rintro rfl
    rfl

/-! ### The two-level walk -/

/-- The directory entry of a virtual address. -/
def dirEntry (s : State) (v : Word) : Entry := s.mem (entryAddr s.currentDirectory (tableIdx v))

/-- The page table entry of a virtual address under a directory entry `e`. -/
def tableEntry (s : State) (e : Entry) (v : Word) : Entry :=
  s.mem (entryAddr (tableOf e) (pageOffset v))

/-- The two-level walk: the page table entry that translates `v`, if both levels are
present. -/
def walk (s : State) (v : Word) : Option Entry :=
  if (dirEntry s v).present = 1#1 then
    let e := tableEntry s (dirEntry s v) v
    if e.present = 1#1 then some e else none
  else none

/-- The frame to which `v` is translated, if it is. -/
def translate (s : State) (v : Word) : Option (BitVec 20) := (walk s v).map Entry.frame

/-- The bitmap has no part in the walk. -/
theorem walk_congr {s t : State} (mem : t.mem = s.mem)
    (currentDirectory : t.currentDirectory = s.currentDirectory) (v : Word) :
    dirEntry t v = dirEntry s v ∧ walk t v = walk s v := by
  have entry : dirEntry t v = dirEntry s v := by rw [dirEntry, mem, currentDirectory, dirEntry]
  refine ⟨entry, ?_⟩
  rw [walk, entry, tableEntry, mem, walk, tableEntry]

theorem present_ne_one {e : Entry} : e.present ≠ 1#1 ↔ e.present = 0#1 := by
  generalize e.present = b
  revert b
  decide

/-- The page number of an address. -/
def pageOf (a : Word) : ℕ := a.toNat / PAGE_SIZE

/-- A directory as `map_page` may be given it: it fills one page that the bitmap marks
used, and its present entries point to distinct tables in other pages marked used. -/
structure DirectoryWellFormed (s : State) : Prop where
  aligned : PageAligned s.currentDirectory
  directoryUsed : pageUsed s.memoryBitmap (pageOf s.currentDirectory) = true
  tablesUsed : ∀ v, (dirEntry s v).present = 1#1 →
    pageUsed s.memoryBitmap (pageOf (tableOf (dirEntry s v))) = true
  tablesApart : ∀ v, (dirEntry s v).present = 1#1 → tableOf (dirEntry s v) ≠ s.currentDirectory
  distinct : ∀ u v, (dirEntry s u).present = 1#1 → (dirEntry s v).present = 1#1 →
    tableOf (dirEntry s u) = tableOf (dirEntry s v) → tableIdx u = tableIdx v

/-- The directory and the tables of its present entries are different pages. -/
structure TablesApart (s : State) : Prop where
  aligned : PageAligned s.currentDirectory
  apart : ∀ v, (dirEntry s v).present = 1#1 → tableOf (dirEntry s v) ≠ s.currentDirectory
  distinct : ∀ u v, (dirEntry s u).present = 1#1 → (dirEntry s v).present = 1#1 →
    tableOf (dirEntry s u) = tableOf (dirEntry s v) → tableIdx u = tableIdx v

theorem DirectoryWellFormed.tables {s : State} (wf : DirectoryWellFormed s) : TablesApart s :=
  ⟨wf.aligned, wf.tablesApart, wf.distinct⟩

/-! ### The two branches of `map_page` -/

section Branches

variable {s : State} {v : Word} (physicalAddr : Word)

/-- With the directory entry present, one word of its table changes. -/
theorem mapPage_of_present (here : (dirEntry s v).present = 1#1) :
    mapPage physicalAddr v s =
      s.modify (entryAddr (tableOf (dirEntry s v)) (pageOffset v))
        (Entry.fill (frameOf physicalAddr)) := by
  have taken : ¬ (dirEntry s v).present = 0#1 := by rw [here]; decide
  unfold dirEntry at taken
  simp only [mapPage, if_neg taken]
  rfl

/-- The state in which `map_page` has taken page `i` for a new table and entered it in the
directory. -/
def withTable (s : State) (v : Word) (i : ℕ) : State :=
  State.modify { s with memoryBitmap := markUsed s.memoryBitmap i }
    (entryAddr s.currentDirectory (tableIdx v)) (Entry.fill (frameOf (pageAddr i)))

/-- With the directory entry absent, the directory entry and one word of the page taken
for the new table change. -/
theorem mapPage_of_absent {i : ℕ} (absent : (dirEntry s v).present = 0#1)
    (found : firstFree s = some i) :
    mapPage physicalAddr v s =
      (withTable s v i).modify (entryAddr (pageAddr i) (pageOffset v))
        (Entry.fill (frameOf physicalAddr)) := by
  unfold dirEntry at absent
  simp only [mapPage, if_pos absent, allocatePage, found]
  rfl

/-- Writing into a table that is already there leaves the directory. -/
theorem dirEntry_mapPage_of_present (tables : TablesApart s) (here : (dirEntry s v).present = 1#1)
    (u : Word) : dirEntry (mapPage physicalAddr v s) u = dirEntry s u := by
  rw [mapPage_of_present physicalAddr here, dirEntry, dirEntry]
  exact State.modify_mem_of_ne _ _ (entryAddr_ne tables.aligned (pageAligned_tableOf _)
    (tables.apart v here).symm (tableIdx_lt u) (pageOffset_lt v))

/-- The walk after `map_page` wrote into a table that was already there: only the page
of `v` is translated anew. -/
theorem walk_mapPage_of_present (tables : TablesApart s) (here : (dirEntry s v).present = 1#1)
    (u : Word) :
    walk (mapPage physicalAddr v s) u =
      if pageIdx u = pageIdx v then
        some (Entry.fill (frameOf physicalAddr) (tableEntry s (dirEntry s v) v))
      else walk s u := by
  have directory := dirEntry_mapPage_of_present physicalAddr tables here u
  rw [mapPage_of_present physicalAddr here] at directory ⊢
  set s' := s.modify (entryAddr (tableOf (dirEntry s v)) (pageOffset v))
    (Entry.fill (frameOf physicalAddr)) with written
  by_cases same : pageIdx u = pageIdx v
  · obtain ⟨table, offset⟩ := pageIdx_eq_iff.mp same
    have entry : dirEntry s u = dirEntry s v := by rw [dirEntry, dirEntry, table]
    rw [walk, directory, entry, if_pos here, if_pos same, tableEntry, offset, written,
      State.modify_mem_self]
    simp [tableEntry]
  · rw [walk, directory, if_neg same, walk]
    by_cases present : (dirEntry s u).present = 1#1
    · have untouched : entryAddr (tableOf (dirEntry s u)) (pageOffset u) ≠
          entryAddr (tableOf (dirEntry s v)) (pageOffset v) := by
        rw [Ne, entryAddr_inj (pageAligned_tableOf _) (pageAligned_tableOf _) (pageOffset_lt u)
          (pageOffset_lt v)]
        rintro ⟨table, offset⟩
        exact same (pageIdx_eq_iff.mpr ⟨tables.distinct u v present here table, offset⟩)
      rw [if_pos present, if_pos present, tableEntry, written,
        State.modify_mem_of_ne _ _ untouched, ← tableEntry]
    · rw [if_neg present, if_neg present]

section NewTable

variable (wf : DirectoryWellFormed s) {i : ℕ} (found : firstFree s = some i) (inside : i < 2 ^ 20)

include found inside

theorem pageUsed_pageAddr : pageUsed s.memoryBitmap (pageOf (pageAddr i)) = false := by
  have here : pageOf (pageAddr i) = i := by
    rw [pageOf, toNat_pageAddr inside, PAGE_SIZE]
    omega
  rw [here]
  exact (firstFree_eq_some.mp found).1

include wf

/-- The page taken for the new table is not the directory. -/
theorem pageAddr_ne_directory : pageAddr i ≠ s.currentDirectory := by
  intro same
  have used := wf.directoryUsed
  rw [← same, pageUsed_pageAddr found inside] at used
  cases used

/-- The page taken for the new table is not a table in use. -/
theorem tableOf_ne_pageAddr {w : Word} (present : (dirEntry s w).present = 1#1) :
    tableOf (dirEntry s w) ≠ pageAddr i := by
  intro same
  have used := wf.tablesUsed w present
  rw [same, pageUsed_pageAddr found inside] at used
  cases used

/-- The page taken for the new table is not cleared. -/
theorem withTable_mem_pageAddr {j : Word} (hj : j.toNat < 1024) :
    (withTable s v i).mem (entryAddr (pageAddr i) j) = s.mem (entryAddr (pageAddr i) j) :=
  State.modify_mem_of_ne _ _ (entryAddr_ne (pageAligned_pageAddr i) wf.aligned
    (pageAddr_ne_directory wf found inside) hj (tableIdx_lt v))

/-- Filling the new table leaves the directory. -/
theorem dirEntry_mapPage_of_absent (absent : (dirEntry s v).present = 0#1) (u : Word) :
    dirEntry (mapPage physicalAddr v s) u = dirEntry (withTable s v i) u := by
  rw [mapPage_of_absent physicalAddr absent found, dirEntry]
  exact State.modify_mem_of_ne _ _ (entryAddr_ne wf.aligned (pageAligned_pageAddr i)
    (pageAddr_ne_directory wf found inside).symm (tableIdx_lt u) (pageOffset_lt v))

/-- The walk of the pages that the new table translates: all but the page of `v` get the
word that page `i` held. -/
theorem walk_mapPage_new (absent : (dirEntry s v).present = 0#1) {u : Word}
    (table : tableIdx u = tableIdx v) :
    walk (mapPage physicalAddr v s) u =
      if pageOffset u = pageOffset v then
        some (Entry.fill (frameOf physicalAddr) (s.mem (entryAddr (pageAddr i) (pageOffset v))))
      else if Entry.present (s.mem (entryAddr (pageAddr i) (pageOffset u))) = 1#1 then
        some (s.mem (entryAddr (pageAddr i) (pageOffset u)))
      else none := by
  have aligned := pageAligned_pageAddr i
  have entry : dirEntry (withTable s v i) u =
      Entry.fill (frameOf (pageAddr i)) (dirEntry s v) := by
    rw [dirEntry, table]
    exact State.modify_mem_self ..
  rw [walk, dirEntry_mapPage_of_absent physicalAddr wf found inside absent, entry,
    if_pos (Entry.present_fill _ _), tableEntry, tableOf_of_frame aligned (Entry.frame_fill _ _),
    mapPage_of_absent physicalAddr absent found]
  by_cases offset : pageOffset u = pageOffset v
  · rw [if_pos offset, offset, State.modify_mem_self,
      withTable_mem_pageAddr wf found inside (pageOffset_lt v)]
    simp
  · have untouched : entryAddr (pageAddr i) (pageOffset u) ≠
        entryAddr (pageAddr i) (pageOffset v) := fun same =>
      offset ((entryAddr_inj aligned aligned (pageOffset_lt u) (pageOffset_lt v)).mp same).2
    rw [if_neg offset, State.modify_mem_of_ne _ _ untouched,
      withTable_mem_pageAddr wf found inside (pageOffset_lt u)]

/-- The walk of the pages that another table translates, or none. -/
theorem walk_mapPage_old (absent : (dirEntry s v).present = 0#1) {u : Word}
    (table : tableIdx u ≠ tableIdx v) : walk (mapPage physicalAddr v s) u = walk s u := by
  have entry : dirEntry (withTable s v i) u = dirEntry s u := by
    unfold dirEntry
    refine State.modify_mem_of_ne _ _ fun same => table ?_
    exact ((entryAddr_inj wf.aligned wf.aligned (tableIdx_lt u) (tableIdx_lt v)).mp same).2
  rw [walk, dirEntry_mapPage_of_absent physicalAddr wf found inside absent, entry, walk]
  by_cases present : (dirEntry s u).present = 1#1
  · have outside : entryAddr (tableOf (dirEntry s u)) (pageOffset u) ≠
        entryAddr (pageAddr i) (pageOffset v) := fun same =>
      tableOf_ne_pageAddr wf found inside present
        ((entryAddr_inj (pageAligned_tableOf _) (pageAligned_pageAddr i) (pageOffset_lt u)
          (pageOffset_lt v)).mp same).1
    have notDirectory : entryAddr (tableOf (dirEntry s u)) (pageOffset u) ≠
        entryAddr s.currentDirectory (tableIdx v) :=
      entryAddr_ne (pageAligned_tableOf _) wf.aligned (wf.tablesApart u present)
        (pageOffset_lt u) (tableIdx_lt v)
    rw [if_pos present, if_pos present, tableEntry, mapPage_of_absent physicalAddr absent found,
      State.modify_mem_of_ne _ _ outside, withTable, State.modify_mem_of_ne _ _ notDirectory,
      tableEntry]
  · rw [if_neg present, if_neg present]

end NewTable

/-- The walk after `map_page` created a table in the free page `i`: besides the page of
`v`, every page of the same table is translated by the word that page `i` held. -/
theorem walk_mapPage_of_absent (wf : DirectoryWellFormed s) {i : ℕ}
    (absent : (dirEntry s v).present = 0#1) (found : firstFree s = some i) (inside : i < 2 ^ 20)
    (u : Word) :
    walk (mapPage physicalAddr v s) u =
      if pageIdx u = pageIdx v then
        some (Entry.fill (frameOf physicalAddr) (s.mem (entryAddr (pageAddr i) (pageOffset v))))
      else if tableIdx u = tableIdx v then
        if Entry.present (s.mem (entryAddr (pageAddr i) (pageOffset u))) = 1#1 then
          some (s.mem (entryAddr (pageAddr i) (pageOffset u)))
        else none
      else walk s u := by
  by_cases table : tableIdx u = tableIdx v
  · rw [walk_mapPage_new physicalAddr wf found inside absent table]
    simp only [pageIdx_eq_iff, table, true_and, if_true]
  · rw [walk_mapPage_old physicalAddr wf found inside absent table, if_neg table,
      if_neg fun same => table (pageIdx_eq_iff.mp same).1]

end Branches

/-! ### One translation -/

/-- `s'` is `s` with exactly one translation changed: the page of `v` has a present,
writable supervisor entry for the frame of `physicalAddr`, every other page is
translated as before. -/
def MapsOnePage (physicalAddr v : Word) (s s' : State) : Prop :=
  (∃ e, walk s' v = some e ∧ e.present = 1#1 ∧ e.rw = 1#1 ∧ e.user = 0#1 ∧
    e.frame = frameOf physicalAddr) ∧
  ∀ u, pageIdx u ≠ pageIdx v → translate s' u = translate s u

/-- Apart from the entry of `v`, every word of the page that the next table is put in
has its present bit clear. -/
def FreshTableClear (s : State) (v : Word) : Prop :=
  ∀ i, firstFree s = some i → ∀ j : Word, j.toNat < 1024 → j ≠ pageOffset v →
    Entry.present (s.mem (entryAddr (pageAddr i) j)) = 0#1

/-- Every pair of indices belongs to some virtual address. -/
theorem exists_virtualAddr {t o : Word} (ht : t.toNat < 1024) (ho : o.toNat < 1024) :
    ∃ u, tableIdx u = t ∧ pageOffset u = o := by
  refine ⟨BitVec.ofNat 32 ((t.toNat * 1024 + o.toNat) * 4096), ?_, ?_⟩ <;>
    apply BitVec.eq_of_toNat_eq
  · rw [toNat_tableIdx, BitVec.toNat_ofNat]
    omega
  · rw [toNat_pageOffset, BitVec.toNat_ofNat]
    omega

/-- `map_page` changes exactly one translation if and only if the directory entry of the
address is present already or the page it takes for the new table happens to hold no
other present entry. -/
theorem mapPage_mapsOnePage_iff {s : State} {physicalAddr v : Word} (wf : DirectoryWellFormed s)
    (free : ∃ i < s.totalPages, i < 2 ^ 20 ∧ pageUsed s.memoryBitmap i = false) :
    MapsOnePage physicalAddr v s (mapPage physicalAddr v s) ↔
      (dirEntry s v).present = 1#1 ∨ FreshTableClear s v := by
  by_cases here : (dirEntry s v).present = 1#1
  · have after := walk_mapPage_of_present physicalAddr wf.tables here
    refine iff_of_true ⟨⟨_, by rw [after, if_pos rfl], by simp⟩, fun u other => ?_⟩ (Or.inl here)
    rw [translate, after, if_neg other, translate]
  · obtain ⟨i, found, inside⟩ := exists_firstFree free
    have absent := present_ne_one.mp here
    have after := walk_mapPage_of_absent physicalAddr wf absent found inside
    -- Before the call no page of this table is translated.
    have before : ∀ u, tableIdx u = tableIdx v → walk s u = none := by
      intro u table
      rw [walk, dirEntry, table, ← dirEntry, if_neg here]
    constructor
    · rintro ⟨-, others⟩
      right
      intro i' found' j hj other
      obtain rfl : i = i' := Option.some.inj (found.symm.trans found')
      obtain ⟨u, table, rfl⟩ := exists_virtualAddr (tableIdx_lt v) hj
      have different : pageIdx u ≠ pageIdx v := fun same => other (pageIdx_eq_iff.mp same).2
      have kept := others u different
      rw [translate, after, if_neg different, if_pos table, translate, before u table] at kept
      by_contra present
      rw [← Ne, Ne, ← present_ne_one, not_not] at present
      simp [present] at kept
    · rintro (present | clear)
      · exact absurd present here
      · refine ⟨⟨_, by rw [after, if_pos rfl], by simp⟩, fun u other => ?_⟩
        rw [translate, after, if_neg other]
        by_cases table : tableIdx u = tableIdx v
        · have offset : pageOffset u ≠ pageOffset v := fun same =>
            other (pageIdx_eq_iff.mpr ⟨table, same⟩)
          rw [if_pos table, clear i found _ (pageOffset_lt u) offset, translate, before u table]
          rfl
        · rw [if_neg table, translate]

/-- Two pages of memory: an empty directory in page 1, and page 0 free with `word` left
at its index 5. -/
def twoPages (word : Word) : State where
  mem := fun a => if a = 20#32 then word else 0#32
  memoryBitmap := fun _ => 2#32
  totalPages := 2
  currentDirectory := 4096#32

theorem dirEntry_twoPages (word v : Word) : dirEntry (twoPages word) v = 0#32 := by
  have inside := tableIdx_lt v
  refine if_neg fun same => ?_
  have := @toNat_entryAddr 4096#32 _ (by decide) inside
  rw [show entryAddr 4096#32 (tableIdx v) = 20#32 from same, BitVec.toNat_ofNat,
    BitVec.toNat_ofNat] at this
  omega

theorem twoPages_wellFormed (word : Word) : DirectoryWellFormed (twoPages word) := by
  have absent : ∀ v, (dirEntry (twoPages word) v).present ≠ 1#1 := fun v => by
    rw [dirEntry_twoPages]
    decide
  exact {
    aligned := show PageAligned 4096#32 by decide
    directoryUsed := show pageUsed (fun _ => 2#32) (pageOf 4096#32) = true by decide
    tablesUsed := fun v present => absurd present (absent v)
    tablesApart := fun v present => absurd present (absent v)
    distinct := fun u _ present => absurd present (absent u) }

theorem twoPages_free (word : Word) :
    ∃ i < (twoPages word).totalPages, i < 2 ^ 20 ∧
      pageUsed (twoPages word).memoryBitmap i = false :=
  ⟨0, Nat.zero_lt_two, by decide, show pageUsed (fun _ => 2#32) 0 = false by decide⟩

/-- With a clean page at hand the new table translates the mapped page only. -/
theorem mapPage_mapsOnePage_clean :
    MapsOnePage 0x5000#32 0#32 (twoPages 0#32) (mapPage 0x5000#32 0#32 (twoPages 0#32)) := by
  refine (mapPage_mapsOnePage_iff (twoPages_wellFormed _) (twoPages_free _)).mpr (Or.inr ?_)
  intro i _ j _ _
  simp [twoPages, Entry.present, BitField.get]

/-- A stray present word in the page taken for the table translates another page: after
mapping address 0, the page at `0x5000` is translated to frame 0. -/
theorem mapPage_stray_translation :
    DirectoryWellFormed (twoPages 1#32) ∧
    (∃ i < (twoPages 1#32).totalPages, i < 2 ^ 20 ∧
      pageUsed (twoPages 1#32).memoryBitmap i = false) ∧
    ¬ MapsOnePage 0x5000#32 0#32 (twoPages 1#32) (mapPage 0x5000#32 0#32 (twoPages 1#32)) := by
  refine ⟨twoPages_wellFormed _, twoPages_free _, fun ⟨_, others⟩ => ?_⟩
  have stray := others 0x5000#32 (by decide)
  revert stray
  decide

end ModernOS.Memory
