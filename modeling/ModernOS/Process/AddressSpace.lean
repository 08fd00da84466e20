import ModernOS.Lib.Transition
import ModernOS.Memory.Paged
import ModernOS.Process.Events

/-!
The memory of the processes.

Every creation maps its page in the one directory that `Memory::init` built, at the
`memory_size` of the record that `get_process` finds for the new pid (`mappedAt`). For a
pid that is in no record yet that is 4 MB, for every process.

* `tablesReachable_iff`: the directory and its tables stay mapped to themselves along
  a run of creations exactly when none of them maps at one of their pages.
* `mapping_survives_iff`: the page of a process stays mapped exactly until a later
  creation maps at the same virtual page.
-/

namespace ModernOS.ProcessTable

open SlotTable Transition FirstFit Memory

/-! ### Where a creation maps its page -/

section Create

variable {μ : Type} {M : PageAllocator μ}

/-- The virtual address at which a creation maps its page. A record of the new pid in a
slot below the one taken is found in its place. -/
def mappedAt (k : Table μ) : Word :=
  match takenSlot k, getProcess k.nextPid k with
  | some i, some j => if j < i then (k.processes j).memorySize else 0x400000#32
  | _, _ => 0x400000#32

/-- The record that `get_process` finds for the new pid. -/
theorem getProcess_initProcess (entryPoint : Word) {i : Slot} {k : Table μ}
    (taken : takenSlot k = some i) :
    ∃ j, getProcess k.nextPid (initProcess entryPoint i k) = some j ∧
      ((initProcess entryPoint i k).processes j).memorySize = mappedAt k := by
  have self : ((initProcess entryPoint i k).processes i).pid = k.nextPid := by
    rw [initProcess_self]
  -- With no earlier record of the pid, the slot taken is found.
  have own : (∀ j < i, (k.processes j).pid ≠ k.nextPid) →
      getProcess k.nextPid (initProcess entryPoint i k) = some i := by
    intro none
    rw [getProcess, firstSlot_eq_some]
    refine ⟨self, fun j below => ?_⟩
    rw [initProcess_of_ne below.ne]
    exact none j below
  cases found : getProcess k.nextPid k with
  | none =>
      rw [getProcess, firstSlot_eq_none] at found
      refine ⟨i, own fun j _ => found j, ?_⟩
      rw [initProcess_self, mappedAt, taken, getProcess, firstSlot_eq_none.mpr found]
      rfl
  | some j =>
      have holds := firstSlot_eq_some.mp (show firstSlot _ k.processes = some j from found)
      by_cases below : j < i
      · refine ⟨j, ?_, ?_⟩
        · rw [getProcess, firstSlot_eq_some]
          refine ⟨by rw [initProcess_of_ne below.ne]; exact holds.1, fun l before => ?_⟩
          rw [initProcess_of_ne (before.trans below).ne]
          exact holds.2 l before
        · rw [initProcess_of_ne below.ne, mappedAt, taken, found]
          exact (if_pos below).symm
      · refine ⟨i, own fun l before => holds.2 l (before.trans_le (not_lt.mp below)), ?_⟩
        rw [initProcess_self, mappedAt, taken, found]
        exact (if_neg below).symm

/-- A creation that succeeds takes a slot, gets a page, and maps it. -/
theorem createProcess_memory {entryPoint : Word} {k : Table μ}
    (success : (createProcess M entryPoint k).1 ≠ 0#32) :
    (M.allocatePage k.memory).1 ≠ 0#32 ∧
    (createProcess M entryPoint k).2.memory =
      M.mapPage (M.allocatePage k.memory).1 (mappedAt k) (M.allocatePage k.memory).2 := by
  cases taken : takenSlot k with
  | none =>
      rw [createProcess_of_none M entryPoint taken] at success
      exact absurd rfl success
  | some i =>
      have page := (createProcess_ne_zero_iff.mp success).2.1
      refine ⟨page, ?_⟩
      obtain ⟨j, found, size⟩ := getProcess_initProcess entryPoint taken
      have memory : (initProcess entryPoint i k).memory = k.memory := rfl
      have asked : (askMemory M entryPoint i k).1 = true ∧ (askMemory M entryPoint i k).2.memory =
          M.mapPage (M.allocatePage k.memory).1 (mappedAt k) (M.allocatePage k.memory).2 := by
        rw [askMemory, allocateProcessMemory, found, memory]
        dsimp only
        rw [if_neg page, size]
        exact ⟨rfl, rfl⟩
      rw [createProcess_eq M entryPoint taken, if_pos asked.1]
      exact asked.2

end Create

/-! ### Creations after `Memory::init` -/

/-- The memory module once paging is enabled. After a page fault the state stays. -/
def pagedPages : PageAllocator Memory.State :=
  ⟨allocatePage, fun physicalAddr virtualAddr s =>
    (mapPagePaged physicalAddr virtualAddr s).getD s⟩

/-- The table after a creation. -/
def create (k : Table Memory.State) (entryPoint : Word) : Table Memory.State :=
  (createProcess pagedPages entryPoint k).2

/-- The creation returns a pid. -/
def Succeeds (k : Table Memory.State) (entryPoint : Word) : Prop :=
  (createProcess pagedPages entryPoint k).1 ≠ 0#32

/-- What a successful creation does to memory, as long as `map_page` reaches the table of
its address. -/
theorem create_mapsNew {k : Table Memory.State} {entryPoint : Word} (paging : Paging k.memory)
    (reached : Reached k.memory (mappedAt k)) (success : Succeeds k entryPoint) :
    ∃ i, firstFree k.memory = some i ∧
      MapsNew k.memory (mappedAt k) i (create k entryPoint).memory := by
  obtain ⟨page, memory⟩ := createProcess_memory success
  rcases firstFree_cases k.memory with ⟨-, found⟩ | ⟨i, -, found⟩
  · refine absurd ?_ page
    show (allocatePage k.memory).1 = 0#32
    rw [allocatePage_of_none found]
  · refine ⟨i, found, ?_⟩
    have maps := paging.mapsNew found (mappedAt k)
    obtain ⟨mem, -, currentDirectory⟩ := allocatePage_frame k.memory
    have same := walk_congr mem currentDirectory
    have still : ∀ a, MapsToItself k.memory a → MapsToItself (allocatePage k.memory).2 a := by
      intro a itself
      rw [MapsToItself, Memory.translate, (same a).2]
      exact itself
    have edited := mapPagePaged_of_reached (s := (allocatePage k.memory).2) (v := mappedAt k)
      (pageAddr i) (currentDirectory ▸ paging.tables.aligned)
      ((same _).1 ▸ paging.present _)
      ⟨currentDirectory ▸ still _ reached.directory, (same _).1 ▸ still _ reached.table⟩
    have address : (allocatePage k.memory).1 = pageAddr i := by rw [allocatePage_of_some found]
    have after : (create k entryPoint).memory =
        mapPage (pageAddr i) (mappedAt k) (allocatePage k.memory).2 := by
      rw [← address] at edited ⊢
      exact memory.trans (congrArg (Option.getD · _) edited)
    rw [after]
    exact maps

/-! ### The tables that `init` built -/

/-- The directory in use and its tables are mapped to themselves. -/
def TablesReachable (s : Memory.State) : Prop :=
  MapsToItself s s.currentDirectory ∧
  ∀ v, (dirEntry s v).present = 1#1 → MapsToItself s (tableOf (dirEntry s v))

/-- The creation does not map at one of the 1025 lowest free pages, which `init` took. -/
def MapsApart (s₀ : Memory.State) (k : Table Memory.State) : Prop :=
  ∀ i ∈ freePages s₀, rank (freePages s₀) i < 1025 → pageIdx (pageAddr i) ≠ pageIdx (mappedAt k)

/-- The directory and the tables are those that `init` built. -/
structure Booted (s₀ s : Memory.State) : Prop where
  paging : Paging s
  directory : s.currentDirectory = pageAt s₀ 0
  tables : ∀ v, tableOf (dirEntry s v) = pageAt s₀ ((tableIdx v).toNat + 1)
  free : freePages s ⊆ left (freePages s₀) 1025

section Boot

variable {s₀ : Memory.State} (room : 1025 ≤ (freePages s₀).card)
  (distinct : Set.InjOn pageAddr (freePages s₀))

include room distinct in
theorem booted_init : Booted s₀ (Memory.init s₀) where
  paging := paging_init room distinct
  directory := (built_init room distinct).2
  tables := tableOf_init room distinct
  free := (built_init room distinct).1.taken.freePages_eq.le

/-- The pages that must be mapped to themselves are the 1025 that `init` took. -/
theorem Booted.reachable_iff {s : Memory.State} (booted : Booted s₀ s) :
    TablesReachable s ↔ ∀ n < 1025, MapsToItself s (pageAt s₀ n) := by
  constructor
  · rintro ⟨directory, tables⟩ n below
    cases n with
    | zero => exact booted.directory ▸ directory
    | succ m =>
        have index : (BitVec.ofNat 32 m).toNat = m := toNat_index (by omega)
        obtain ⟨v, table, -⟩ := exists_virtualAddr (t := BitVec.ofNat 32 m) (o := 0#32)
          (by omega) (by decide)
        have reached := tables v (booted.paging.present v)
        rw [booted.tables, table, index] at reached
        exact reached
  · intro all
    refine ⟨booted.directory ▸ all 0 (by decide), fun v _ => ?_⟩
    have := tableIdx_lt v
    rw [booted.tables]
    exact all _ (by omega)

include room distinct in
theorem tablesReachable_init : TablesReachable (Memory.init s₀) := by
  rw [(booted_init room distinct).reachable_iff]
  intro n _
  obtain ⟨e, reached, maps⟩ := walk_init room distinct (pageAt s₀ n)
  rw [MapsToItself, Memory.translate, reached, Option.map_some, maps.frame]

theorem TablesReachable.reached {s : Memory.State} (reachable : TablesReachable s)
    (paging : Paging s) (v : Word) : Reached s v :=
  ⟨reachable.1, reachable.2 v (paging.present v)⟩

theorem Booted.mapsNew {s t : Memory.State} {v : Word} {i : ℕ} (booted : Booted s₀ s)
    (maps : MapsNew s v i t) : Booted s₀ t where
  paging := maps.paging booted.paging
  directory := maps.currentDirectory.trans booted.directory
  tables := fun u => by rw [maps.dirEntry, booted.tables]
  free := by
    rw [maps.freePages]
    exact (Finset.erase_subset _ _).trans booted.free

include room distinct in
/-- A new page at `v` keeps the tables reachable exactly when `v` is in none of the pages
that `init` took. -/
theorem Booted.reachable_mapsNew_iff {s t : Memory.State} {v : Word} {i : ℕ}
    (booted : Booted s₀ s) (reachable : TablesReachable s) (maps : MapsNew s v i t) :
    TablesReachable t ↔
      ∀ j ∈ freePages s₀, rank (freePages s₀) j < 1025 → pageIdx (pageAddr j) ≠ pageIdx v := by
  have before := booted.reachable_iff.mp reachable
  rw [(booted.mapsNew maps).reachable_iff]
  constructor
  · intro all j free below same
    have here := all (rank (freePages s₀) j) below
    rw [MapsToItself, pageAt, slot_rank free, maps.translate, if_pos same, Option.some_inj,
      frameOf_inj (pageAligned_pageAddr i) (pageAligned_pageAddr j)] at here
    -- The new page is not among the 1025, so its address is another one.
    obtain ⟨new, above⟩ := mem_left.mp (booted.free maps.least.1)
    exact absurd (distinct new free here ▸ above) (not_le.mpr below)
  · intro apart n below
    have room : n < (freePages s₀).card := below.trans_le room
    have other := apart _ (slot_mem room) ((rank_slot room).trans_lt below)
    rw [MapsToItself, maps.translate, pageAt, if_neg other]
    exact before n below

end Boot

/-! ### Processes created after boot -/

/-- Every pid in the table has been issued. -/
def PidsIssued (k : Table Memory.State) : Prop :=
  ∀ j, (k.processes j).pid.toNat < k.nextPid.toNat

/-- A pid that is in no record is mapped at 4 MB. -/
theorem mappedAt_of_pidsIssued {k : Table Memory.State} (issued : PidsIssued k) :
    mappedAt k = 0x400000#32 := by
  have none : getProcess k.nextPid k = none := by
    rw [getProcess, firstSlot_eq_none]
    intro j same
    have below := issued j
    rw [same] at below
    exact lt_irrefl _ below
  rw [mappedAt, none]
  cases takenSlot k <;> rfl

theorem PidsIssued.create {k : Table Memory.State} (issued : PidsIssued k)
    (fits : k.nextPid.toNat + 1 < 2 ^ 32) (entryPoint : Word) :
    PidsIssued (create k entryPoint) := by
  intro j
  rw [ProcessTable.create]
  cases taken : takenSlot k with
  | none =>
      rw [createProcess_of_none _ entryPoint taken]
      exact issued j
  | some i =>
      have created := createProcess_of_some pagedPages entryPoint taken
      have next : (k.nextPid + 1#32).toNat = k.nextPid.toNat + 1 := by
        rw [BitVec.toNat_add, BitVec.toNat_ofNat]
        omega
      rw [created.nextPid, next]
      by_cases same : j = i
      · rw [same, created.pid_self]
        exact Nat.lt_succ_self _
      · rw [created.pid_of_ne same]
        exact (issued j).trans (Nat.lt_succ_self _)

theorem succeeds_iff {k : Table Memory.State} {entryPoint : Word} :
    Succeeds k entryPoint ↔
      (∃ i, takenSlot k = some i) ∧ (allocatePage k.memory).1 ≠ 0#32 ∧ k.nextPid ≠ 0#32 :=
  createProcess_ne_zero_iff

/-- The empty process table after `Memory::init` in a memory whose `n` pages were free. -/
def bootTable (n : ℕ) : Table Memory.State :=
  emptyTable ⟨fun _ => Process.zeroed, 0#32, 0#32, none, Memory.init (freeMemory n)⟩

theorem rank_range {n i : ℕ} (inside : i ≤ n) : rank (Finset.range n) i = i :=
  Nat.count_iff_forall.mpr fun _ below => Finset.mem_range.mpr (below.trans_le inside)

section BootTable

variable {n : ℕ} (few : n ≤ 2 ^ 20) (many : 1027 ≤ n)

include many in
theorem room_bootTable : 1025 ≤ (freePages (freeMemory n)).card := room_freeMemory (by omega)

include few in
theorem distinct_bootTable : Set.InjOn pageAddr (freePages (freeMemory n)) :=
  injOn_pageAddr (s := freeMemory n) few

include few many

theorem booted_bootTable : Booted (freeMemory n) (bootTable n).memory :=
  booted_init (room_bootTable many) (distinct_bootTable few)

theorem tablesReachable_bootTable : TablesReachable (bootTable n).memory :=
  tablesReachable_init (room_bootTable many) (distinct_bootTable few)

theorem freePages_bootTable :
    freePages (bootTable n).memory = left (Finset.range n) 1025 := by
  rw [← freePages_freeMemory]
  exact (built_init (room_bootTable many) (distinct_bootTable few)).1.taken.freePages_eq

theorem least_bootTable : IsLeast (freePages (bootTable n).memory : Set ℕ) 1025 := by
  rw [freePages_bootTable few many, isLeast_left]
  exact ⟨Finset.mem_range.mpr (by omega), rank_range (by omega)⟩

theorem succeeds_bootTable (entryPoint : Word) : Succeeds (bootTable n) entryPoint := by
  have found := firstFree_eq_some_iff.mpr (least_bootTable few many)
  refine succeeds_iff.mpr ⟨exists_takenSlot.mpr ⟨?_, 0, rfl⟩, ?_, ?_⟩
  · show (0#32).toNat < MAX_PROCESSES
    decide
  · rw [allocatePage_of_some found]
    show pageAddr 1025 ≠ 0#32
    decide
  · show 1#32 ≠ 0#32
    decide

omit few many in
theorem mappedAt_bootTable : mappedAt (bootTable n) = 0x400000#32 :=
  mappedAt_of_pidsIssued fun _ => show (0#32).toNat < (1#32).toNat by decide

/-- The first creation maps page 1025 at 4 MB. -/
theorem mapsNew_bootTable (entryPoint : Word) :
    MapsNew (bootTable n).memory 0x400000#32 1025 (create (bootTable n) entryPoint).memory := by
  have booted := booted_bootTable few many
  have reached := (tablesReachable_bootTable few many).reached booted.paging
    (mappedAt (bootTable n))
  obtain ⟨i, found, maps⟩ :=
    create_mapsNew booted.paging reached (succeeds_bootTable few many entryPoint)
  obtain rfl : i = 1025 :=
    (firstFree_eq_some_iff.mp found).unique (least_bootTable few many)
  rw [← mappedAt_bootTable (n := n)]
  exact maps

theorem least_create_bootTable (first : Word) :
    IsLeast (freePages (create (bootTable n) first).memory : Set ℕ) 1026 := by
  have rank : rank (Finset.range n) 1025 = 1025 := rank_range (by omega)
  have here : 1025 ∈ Finset.range n := Finset.mem_range.mpr (by omega)
  have left := left_succ here
  rw [rank] at left
  rw [(mapsNew_bootTable few many first).freePages, freePages_bootTable few many, ← left,
    isLeast_left]
  exact ⟨Finset.mem_range.mpr (by omega), rank_range (by omega)⟩

/-- A second creation succeeds too. -/
theorem succeeds_create_bootTable (first second : Word) :
    Succeeds (create (bootTable n) first) second := by
  obtain ⟨⟨i, taken⟩, page, -⟩ := succeeds_iff.mp (succeeds_bootTable few many first)
  have created := createProcess_of_some pagedPages first taken
  have outcome := created.outcome
  rw [if_pos (show (pagedPages.allocatePage (bootTable n).memory).1 ≠ 0#32 from page)] at outcome
  have found := firstFree_eq_some_iff.mpr (least_create_bootTable few many first)
  refine succeeds_iff.mpr ⟨exists_takenSlot.mpr ⟨?_, ?_⟩, ?_, ?_⟩
  · rw [create, outcome.2]
    show (0#32 + 1#32).toNat < MAX_PROCESSES
    decide
  · obtain ⟨j, other⟩ := exists_ne i
    refine ⟨j, ?_⟩
    rw [create, created.states, Function.update_of_ne other]
    rfl
  · rw [allocatePage_of_some found]
    show pageAddr 1026 ≠ 0#32
    decide
  · rw [create, created.nextPid]
    show 1#32 + 1#32 ≠ 0#32
    decide

/-- The directory and the table of 4 MB are still mapped to themselves. -/
theorem reached_create_bootTable (first : Word) :
    Reached (create (bootTable n) first).memory 0x400000#32 := by
  have booted := booted_bootTable few many
  have maps := mapsNew_bootTable few many first
  have pages := booted.reachable_iff.mp (tablesReachable_bootTable few many)
  have address : ∀ m < n, pageAt (freeMemory n) m = pageAddr m := by
    intro m inside
    have slot := slot_rank (Finset.mem_range.mpr inside)
    rw [rank_range inside.le] at slot
    rw [pageAt, freePages_freeMemory, slot]
  have still : ∀ m < 1024, MapsToItself (create (bootTable n) first).memory
      (pageAt (freeMemory n) m) := by
    intro m inside
    have other : pageIdx (pageAt (freeMemory n) m) ≠ pageIdx 0x400000#32 := by
      rw [address m (by omega), Ne, ← BitVec.toNat_inj, toNat_pageIdx,
        toNat_pageAddr (by omega), PAGE_SIZE]
      show ¬ m * 4096 / 4096 = 1024
      omega
    rw [MapsToItself, maps.translate, if_neg other]
    exact pages m (by omega)
  have after := booted.mapsNew maps
  exact ⟨after.directory ▸ still 0 (by decide), after.tables 0x400000#32 ▸ still 2 (by decide)⟩

omit few many in
theorem mappedAt_create_bootTable (first : Word) :
    mappedAt (create (bootTable n) first) = 0x400000#32 := by
  have issued : PidsIssued (bootTable n) := fun _ =>
    show (0#32).toNat < (1#32).toNat by decide
  refine mappedAt_of_pidsIssued (issued.create ?_ first)
  show (1#32).toNat + 1 < 2 ^ 32
  decide

end BootTable

/-! ### The tables stay reachable -/

/-- Along a run of successful creations after `init`, the directory and its tables stay
mapped to themselves if and only if no creation maps at one of their pages. -/
theorem tablesReachable_iff {s₀ : Memory.State} (room : 1025 ≤ (freePages s₀).card)
    (distinct : Set.InjOn pageAddr (freePages s₀)) {k : Table Memory.State}
    (booted : k.memory = Memory.init s₀) {entryPoints : List Word}
    (successful : EveryStep create Succeeds k entryPoints) :
    (∀ pre, pre <+: entryPoints → TablesReachable (run create k pre).memory) ↔
      EveryStep create (fun k _ => MapsApart s₀ k) k entryPoints := by
  have start : TablesReachable k.memory := booted ▸ tablesReachable_init room distinct
  have inv : Booted s₀ k.memory ∧ TablesReachable k.memory :=
    ⟨booted ▸ booted_init room distinct, start⟩
  have step : ∀ k e, Booted s₀ k.memory ∧ TablesReachable k.memory →
      Succeeds k e → Booted s₀ (create k e).memory ∧
        (TablesReachable (create k e).memory ↔ MapsApart s₀ k) := by
    rintro k e ⟨boot, reachable⟩ success
    obtain ⟨i, -, maps⟩ := create_mapsNew boot.paging (reachable.reached boot.paging _) success
    exact ⟨boot.mapsNew maps, boot.reachable_mapsNew_iff room distinct reachable maps⟩
  have runs : EveryStep create (fun k e => Succeeds k e ∧ TablesReachable (create k e).memory) k
        entryPoints ↔
      EveryStep create (fun k e => Succeeds k e ∧ MapsApart s₀ k) k entryPoints :=
    everyStep_congr (I := fun k => Booted s₀ k.memory ∧ TablesReachable k.memory)
      (fun k e inv ⟨success, apart⟩ =>
        ⟨(step k e inv success).1, (step k e inv success).2.mpr apart⟩)
      (fun k e inv => and_congr_right fun success => (step k e inv success).2) inv entryPoints
  rw [everyStep_and, everyStep_and] at runs
  rw [everyState_iff (P := fun k : Table Memory.State => TablesReachable k.memory),
    and_iff_right start]
  exact and_congr_right_iff.mp runs successful

/-- The condition at the first creation after boot with 2000 free pages. -/
theorem tablesReachable_first_creation :
    (∀ pre, pre <+: [0#32] → TablesReachable (run create (bootTable 2000) pre).memory) ↔
      EveryStep create (fun k _ => MapsApart (freeMemory 2000) k) (bootTable 2000) [0#32] :=
  tablesReachable_iff (room_bootTable (by decide)) (distinct_bootTable (by decide)) rfl
    ⟨succeeds_bootTable (by decide) (by decide) 0#32, trivial⟩

/-- With 2000 free pages `init` puts the last page table in page 1024, at 4 MB, and the
first process takes that address. -/
theorem tables_lost_after_first_creation :
    1025 ≤ (freePages (freeMemory 2000)).card ∧ Succeeds (bootTable 2000) 0#32 ∧
    ¬ TablesReachable (create (bootTable 2000) 0#32).memory := by
  have few : 2000 ≤ 2 ^ 20 := by decide
  have many : 1027 ≤ 2000 := by decide
  have room := room_bootTable many
  refine ⟨room, succeeds_bootTable few many 0#32, fun reachable => ?_⟩
  have apart := ((booted_bootTable few many).reachable_mapsNew_iff room (distinct_bootTable few)
    (tablesReachable_bootTable few many) (mapsNew_bootTable few many 0#32)).mp reachable
  rw [freePages_freeMemory] at apart
  refine apart 1024 (Finset.mem_range.mpr (by decide)) ?_ (by decide)
  rw [rank_range (by decide)]
  decide

/-! ### The mapping of one process -/

/-- The table before creation number `c`. -/
def before (k : Table Memory.State) (entryPoints : List Word) (c : ℕ) : Table Memory.State :=
  run create k (entryPoints.take c)

section Survive

variable {k : Table Memory.State} {entryPoints : List Word}

theorem before_succ {c : ℕ} (inside : c < entryPoints.length) :
    before k entryPoints (c + 1) = create (before k entryPoints c) entryPoints[c] := by
  rw [before, ← List.take_concat_get' _ _ inside, run_append]
  rfl

theorem everyStep_before {P : Table Memory.State → Word → Prop}
    (along : EveryStep create P k entryPoints) {c : ℕ} (inside : c < entryPoints.length) :
    P (before k entryPoints c) entryPoints[c] := by
  refine everyStep_iff_forall.mp along _ _ ?_
  rw [List.take_concat_get' _ _ inside]
  exact List.take_prefix _ _

variable (paging : Paging k.memory) (successful : EveryStep create Succeeds k entryPoints)
  (reached : EveryStep create (fun k _ => Reached k.memory (mappedAt k)) k entryPoints)

include paging successful reached

/-- Paging before each creation, and what the creation does. -/
theorem paging_before {c : ℕ} (inside : c ≤ entryPoints.length) :
    Paging (before k entryPoints c).memory := by
  induction c with
  | zero => exact paging
  | succ c ih =>
      have ready := ih (Nat.le_of_succ_le inside)
      obtain ⟨i, -, maps⟩ := create_mapsNew ready (everyStep_before reached inside)
        (everyStep_before successful inside)
      rw [before_succ inside]
      exact maps.paging ready

theorem mapsNew_before {c : ℕ} (inside : c < entryPoints.length) :
    ∃ i, firstFree (before k entryPoints c).memory = some i ∧
      MapsNew (before k entryPoints c).memory (mappedAt (before k entryPoints c)) i
        (before k entryPoints (c + 1)).memory := by
  rw [before_succ inside]
  exact create_mapsNew (paging_before paging successful reached inside.le)
    (everyStep_before reached inside) (everyStep_before successful inside)

/-- The address at which creation `a` maps is translated to its page exactly as long as no
later creation maps at the same page. -/
theorem translate_before {a i : ℕ} (found : firstFree (before k entryPoints a).memory = some i)
    {n : ℕ} (order : a < n) (inside : n ≤ entryPoints.length) :
    freePages (before k entryPoints n).memory ⊆
        (freePages (before k entryPoints a).memory).erase i ∧
    (Memory.translate (before k entryPoints n).memory (mappedAt (before k entryPoints a)) =
        some (frameOf (pageAddr i)) ↔
      ∀ c, a < c → c < n →
        pageIdx (mappedAt (before k entryPoints c)) ≠
          pageIdx (mappedAt (before k entryPoints a))) := by
  induction n, order using Nat.le_induction with
  | base =>
      obtain ⟨i', found', maps⟩ := mapsNew_before paging successful reached (c := a) inside
      obtain rfl : i = i' := Option.some.inj (found.symm.trans found')
      refine ⟨maps.freePages.le, iff_of_true ?_ fun c above below => absurd below (by omega)⟩
      rw [maps.translate, if_pos rfl]
  | succ n later ih =>
      obtain ⟨free, kept⟩ := ih (Nat.le_of_succ_le inside)
      obtain ⟨j, -, maps⟩ := mapsNew_before paging successful reached (c := n) inside
      refine ⟨?_, ?_⟩
      · rw [maps.freePages]
        exact (Finset.erase_subset _ _).trans free
      · rw [maps.translate]
        by_cases hit : pageIdx (mappedAt (before k entryPoints a)) =
            pageIdx (mappedAt (before k entryPoints n))
        · -- The new page is not page `i`, so it has another frame.
          obtain ⟨other, old⟩ := Finset.mem_erase.mp (free maps.least.1)
          have distinct := (paging_before paging successful reached (c := a) (by omega)).distinct
          have least := (firstFree_eq_some_iff.mp found).1
          refine iff_of_false ?_ fun all => all n later (Nat.lt_succ_self n) hit.symm
          rw [if_pos hit, Option.some_inj,
            frameOf_inj (pageAligned_pageAddr j) (pageAligned_pageAddr i)]
          exact fun same => other (distinct old least same)
        · rw [if_neg hit, kept]
          constructor
          · intro all c above below
            rcases Nat.lt_succ_iff_lt_or_eq.mp below with earlier | rfl
            · exact all c above earlier
            · exact fun same => hit same.symm
          · exact fun all c above below => all c above (below.trans (Nat.lt_succ_self n))

end Survive

/-- Two creations in a row at one virtual page. -/
theorem mapping_lost {k : Table Memory.State} {first second : Word} (paging : Paging k.memory)
    (successful : EveryStep create Succeeds k [first, second])
    (reached : EveryStep create (fun k _ => Reached k.memory (mappedAt k)) k [first, second])
    (same : pageIdx (mappedAt (create k first)) = pageIdx (mappedAt k)) :
    Memory.translate (create (create k first) second).memory (mappedAt k) ≠
      some (frameOf (allocatePage k.memory).1) := by
  obtain ⟨i, found, -⟩ := create_mapsNew paging reached.1 successful.1
  have survives := translate_before (a := 0) paging successful reached found
    (show 0 < 2 by decide) le_rfl
  rw [allocatePage_of_some found]
  intro kept
  exact survives.2.mp kept 1 (by decide) (by decide) same

theorem successful_bootTable : EveryStep create Succeeds (bootTable 2000) [0#32, 0#32] :=
  ⟨succeeds_bootTable (by decide) (by decide) 0#32,
    succeeds_create_bootTable (by decide) (by decide) 0#32 0#32, trivial⟩

theorem reached_bootTable :
    EveryStep create (fun k _ => Reached k.memory (mappedAt k)) (bootTable 2000)
      [0#32, 0#32] := by
  have booted := booted_bootTable (n := 2000) (by decide) (by decide)
  refine ⟨(tablesReachable_bootTable (by decide) (by decide)).reached booted.paging _, ?_, trivial⟩
  show Reached (create (bootTable 2000) 0#32).memory (mappedAt (create (bootTable 2000) 0#32))
  rw [mappedAt_create_bootTable]
  exact reached_create_bootTable (by decide) (by decide) 0#32

end ModernOS.ProcessTable
