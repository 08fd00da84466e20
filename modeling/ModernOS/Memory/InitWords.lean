import ModernOS.Memory.Init

/-!
The words of the directory and the tables that `Memory::init` builds.

The pages of the allocator are not cleared, and an entry is written field by field: `init` gives
a value to `present`, `rw`, `user` and `frame`, that is to bits 0 to 2 and 12 to 31. Bits 3 to 11
keep what memory held (`Entry.reserved`), and nothing clears them; the loop that clears the
directory writes bit 0. So the words are those of the identity mapping exactly when these bits
were clear before (`memoryIndependent_iff`).

Where pages share an address, they have to agree on its frame too (`FramesAgree`).
-/

namespace ModernOS.Memory

open FirstFit

/-! ### The bits that no assignment writes -/

namespace Entry

/-- The fields `accessed`, `dirty` and `unused`. -/
def reserved (e : Entry) : BitVec 9 := BitField.get 3 9 e

@[simp] theorem reserved_fill (f : BitVec 20) (e : Entry) : (fill f e).reserved = e.reserved := by
  rw [reserved, fill, BitField.get_set_of_disjoint _ _ _ _ (by decide) (by decide),
    BitField.get_set_of_disjoint _ _ _ _ (by decide) (by decide),
    BitField.get_set_of_disjoint _ _ _ _ (by decide) (by decide),
    BitField.get_set_of_disjoint _ _ _ _ (by decide) (by decide), reserved]

@[simp] theorem reserved_clear (e : Entry) : (clear e).reserved = e.reserved :=
  BitField.get_set_of_disjoint _ _ _ _ (by decide) (by decide)

/-- An entry is made of its fields. -/
theorem eq_append (e : Entry) : e = e.frame ++ e.reserved ++ e.user ++ e.rw ++ e.present := by
  apply BitVec.eq_of_getLsbD_eq
  intro i inside
  simp only [BitVec.getLsbD_append, frame, reserved, user, rw, present, BitField.get,
    BitVec.getLsbD_extractLsb']
  rcases (by omega : i = 0 ∨ i = 1 ∨ i = 2 ∨ (3 ≤ i ∧ i < 12) ∨ 12 ≤ i) with h | h | h | h | h
  · simp [h]
  · simp [h]
  · simp [h]
  · simp (disch := omega) only [if_neg, if_pos, decide_eq_true, Bool.true_and]
    exact congrArg _ (by omega)
  · simp (disch := omega) only [if_neg, decide_eq_true, Bool.true_and]
    exact congrArg _ (by omega)

/-- The word of an entry that maps frame `f`, with no other bit set. -/
def word (f : BitVec 20) : Entry := (f.setWidth 32 <<< 12) ||| 3#32

theorem word_eq (f : BitVec 20) : word f = f ++ 3#12 := by
  have inside := f.isLt
  have shifted : f.toNat <<< 12 < 2 ^ 32 := by
    rw [Nat.shiftLeft_eq]
    omega
  apply BitVec.eq_of_toNat_eq
  rw [word, BitVec.toNat_or, BitVec.toNat_shiftLeft, BitVec.toNat_setWidth, BitVec.toNat_append,
    Nat.mod_eq_of_lt (show f.toNat < 2 ^ 32 by omega), Nat.mod_eq_of_lt shifted]
  rfl

theorem get_word (lo len : ℕ) (f : BitVec 20) (low : lo + len ≤ 12) :
    BitField.get lo len (word f) = BitField.get lo len 3#12 := by
  rw [word_eq]
  exact BitVec.extractLsb'_append_eq_of_add_le low

theorem maps_word (f : BitVec 20) : Maps f (word f) where
  present := get_word 0 1 f (by decide)
  rw := get_word 1 1 f (by decide)
  user := get_word 2 1 f (by decide)
  frame := by
    rw [word_eq]
    exact BitVec.extractLsb'_append_eq_left

theorem reserved_word (f : BitVec 20) : (word f).reserved = 0#9 := get_word 3 9 f (by decide)

/-- The fields of an entry determine its word. -/
theorem eq_word_iff {e : Entry} {f : BitVec 20} : e = word f ↔ Maps f e ∧ e.reserved = 0#9 := by
  constructor
  · rintro rfl
    exact ⟨maps_word f, reserved_word f⟩
  · rintro ⟨maps, clear⟩
    have other := maps_word f
    rw [eq_append e, eq_append (word f), maps.frame, clear, maps.user, maps.rw, maps.present,
      other.frame, reserved_word, other.user, other.rw, other.present]

end Entry

/-- The reserved bits of every word are as before. -/
def KeepsReserved (s t : State) : Prop := ∀ a, Entry.reserved (t.mem a) = Entry.reserved (s.mem a)

theorem KeepsReserved.allocatePage {s t : State} (keeps : KeepsReserved s t) :
    KeepsReserved s (allocatePage t).2 := fun a => by rw [(allocatePage_frame t).1, keeps a]

theorem KeepsReserved.switch {s t : State} (keeps : KeepsReserved s t) (dir : Word) :
    KeepsReserved s (switchPageDirectory dir t) := keeps

theorem KeepsReserved.modify {s t : State} (keeps : KeepsReserved s t) (addr : Word)
    {f : Word → Word} (kept : ∀ e, Entry.reserved (f e) = Entry.reserved e) :
    KeepsReserved s (t.modify addr f) := by
  intro a
  by_cases same : a = addr
  · rw [same, State.modify_mem_self, kept, keeps]
  · rw [State.modify_mem_of_ne _ _ same, keeps]

theorem keepsReserved_init (s : State) : KeepsReserved s (init s) := by
  rw [init_eq]
  refine KeepsReserved.switch ?_ _
  refine CountedLoop.forRange_invariant (fun i t _ _ keeps => ?_) ?_
  · rw [initRound_eq]
    refine KeepsReserved.modify ?_ _ (Entry.reserved_fill _)
    exact CountedLoop.forRange_invariant (fun j _ _ _ keeps => keeps.modify _
      (Entry.reserved_fill _)) keeps.allocatePage
  · refine CountedLoop.forRange_invariant (fun j _ _ _ keeps => keeps.modify _
      Entry.reserved_clear) ?_
    exact KeepsReserved.allocatePage fun _ => rfl

/-! ### The words -/

/-- After `init` every word of the directory and of the 1024 tables is `(frame << 12) | 3`. -/
structure InitWords (s : State) : Prop where
  directory : ∀ j < 1024, (init s).mem (entryAt (init s).currentDirectory j) =
    Entry.word (frameOf (pageAt s (j + 1)))
  tables : ∀ i < 1024, ∀ j < 1024, (init s).mem (entryAt (pageAt s (i + 1)) j) =
    Entry.word (BitVec.ofNat 20 (i * 1024 + j))

/-- The words that become entries have their bits 3 to 11 clear. -/
def ReservedClear (s : State) : Prop :=
  ∀ n < 1025, ∀ j < 1024, Entry.reserved (s.mem (entryAt (pageAt s n) j)) = 0#9

section Words

variable {s : State} (room : 1025 ≤ (freePages s).card)

include room

/-- The directory and the tables as pages of one kind. -/
theorem initWords_iff_pages : InitWords s ↔ ∀ n < 1025, ∀ j < 1024,
    (init s).mem (entryAt (pageAt s n) j) = Entry.word (frameAt s n j) := by
  have current : (init s).currentDirectory = pageAt s 0 :=
    ((Taken.refl s).allocate (show 0 < _ by omega)).1
  constructor
  · rintro ⟨directory, tables⟩ n hn j hj
    cases n with
    | zero => exact current ▸ directory j hj
    | succ i => exact tables i (Nat.lt_of_succ_lt_succ hn) j hj
  · intro words
    refine ⟨fun j hj => ?_, fun i hi j hj => words (i + 1) (Nat.succ_lt_succ hi) j hj⟩
    rw [current]
    exact words 0 (Nat.succ_pos _) j hj

theorem initWords_iff_reservedClear : InitWords s ↔ ReservedClear s ∧ FramesAgree s := by
  rw [initWords_iff_pages room]
  constructor
  · intro words
    refine ⟨fun n hn j hj => ?_, fun m hm n hn same j hj => ?_⟩
    · rw [← keepsReserved_init s, words n hn j hj, Entry.reserved_word]
    · have word : Entry.word (frameAt s m j) = Entry.word (frameAt s n j) := by
        rw [← words m hm j hj, ← words n hn j hj, same]
      rw [← (Entry.maps_word (frameAt s m j)).frame, word, (Entry.maps_word _).frame]
  · rintro ⟨clear, agree⟩ n hn j hj
    refine Entry.eq_word_iff.mpr ⟨?_, ?_⟩
    · exact (filled_init room agree).entries n j ⟨hj, Nat.lt_succ_iff.mp hn, fun _ => hj⟩
    · rw [keepsReserved_init s, clear n hn j hj]

end Words

/-- Over the memories `m` and `m'`, `init` leaves the same words in the directory and the tables,
those of the identity mapping. -/
structure MemoryIndependent (s : State) (m m' : Word → Word) : Prop where
  first : InitWords { s with mem := m }
  second : InitWords { s with mem := m' }
  same : ∀ n < 1025, ∀ j < 1024, (init { s with mem := m }).mem (entryAt (pageAt s n) j) =
    (init { s with mem := m' }).mem (entryAt (pageAt s n) j)

/-- The pages, and the frames they are for, do not depend on what memory holds. -/
theorem pageAt_mem (s : State) (m : Word → Word) (n : ℕ) :
    pageAt { s with mem := m } n = pageAt s n := rfl

theorem frameAt_mem (s : State) (m : Word → Word) (n j : ℕ) :
    frameAt { s with mem := m } n j = frameAt s n j := by
  cases n with
  | zero => rw [frameAt, frameAt, pageAt_mem]
  | succ i => rw [frameAt, frameAt]

theorem framesAgree_mem (s : State) (m : Word → Word) :
    FramesAgree { s with mem := m } ↔ FramesAgree s := by
  simp only [FramesAgree, frameAt_mem, pageAt_mem]

/-- **The words of the page tables do not depend on what memory held** exactly when it held zero
in bits 3 to 11 of each, as long as pages at one address agree. -/
theorem memoryIndependent_iff {s : State} (room : 1025 ≤ (freePages s).card) (m m' : Word → Word) :
    MemoryIndependent s m m' ↔
      ReservedClear { s with mem := m } ∧ ReservedClear { s with mem := m' } ∧ FramesAgree s := by
  have words (m : Word → Word) : InitWords { s with mem := m } ↔
      ReservedClear { s with mem := m } ∧ FramesAgree s := by
    rw [@initWords_iff_reservedClear { s with mem := m } room, framesAgree_mem]
  constructor
  · rintro ⟨first, second, -⟩
    obtain ⟨clear, agree⟩ := (words m).mp first
    exact ⟨clear, ((words m').mp second).1, agree⟩
  · rintro ⟨clear, clear', agree⟩
    have first := (words m).mpr ⟨clear, agree⟩
    have second := (words m').mpr ⟨clear', agree⟩
    refine ⟨first, second, fun n hn j hj => ?_⟩
    rw [@initWords_iff_pages { s with mem := m } room] at first
    rw [@initWords_iff_pages { s with mem := m' } room] at second
    have here := first n hn j hj
    have there := second n hn j hj
    rw [pageAt_mem, frameAt_mem] at here there
    exact here.trans there.symm

/-- Memory that holds zero, and memory with bits 0 to 2 and 12 to 31 set. -/
theorem memoryIndependent_clear :
    MemoryIndependent (freeMemory 1025) (fun _ => 0#32) fun _ => 0xFFFFF007#32 := by
  have room : 1025 ≤ (freePages (freeMemory 1025)).card := room_freeMemory le_rfl
  refine (memoryIndependent_iff room _ _).mpr ⟨fun _ _ _ _ => ?_, fun _ _ _ _ => ?_, ?_⟩
  · show Entry.reserved 0#32 = 0#9
    decide
  · show Entry.reserved 0xFFFFF007#32 = 0#9
    decide
  · exact framesAgree_of_injOn room (injOn_pageAddr (by decide))

/-- With all bits set, bits 3 to 11 stay set. -/
theorem memoryIndependent_fails :
    ¬ ∀ s m m', 1025 ≤ (freePages s).card → MemoryIndependent s m m' := by
  intro independent
  have room : 1025 ≤ (freePages (freeMemory 1025)).card := room_freeMemory le_rfl
  have second := (independent (freeMemory 1025) (fun _ => 0#32) (fun _ => 0xFFFFFFFF#32)
    room).second
  have clear := ((@initWords_iff_reservedClear
    { freeMemory 1025 with mem := fun _ => 0xFFFFFFFF#32 } room).mp second).1 0
    (by decide) 0 (by decide)
  exact absurd (show Entry.reserved 0xFFFFFFFF#32 = 0#9 from clear) (by decide)

end ModernOS.Memory
