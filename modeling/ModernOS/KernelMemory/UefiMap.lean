import ModernOS.KernelMemory.Model

/-!
The conversion of the firmware's memory map.

The entries are described byte by byte in terms of the buffer (`Describes`), and the loop is
followed with the entries that it has made so far (`memoryEntries_described`). The stride is only
known to be at least the size of a descriptor; that the descriptors end inside of the buffer is
what `readDescriptor` needs.

An entry covers the pages of its descriptor unless they end at the top of the address space. There
`end_addr` is zero, and the entry contains no address at all (`contains_covers_iff`).
-/

namespace ModernOS.KernelMemory

open CountedLoop ByteBuffer Console

/-- An entry holds what the descriptor at an offset of the map says. -/
structure Describes (uefiMap : List Byte) (offset : ℕ) (entry : MemoryMapEntry) : Prop where
  start : WordAt (n := 8) uefiMap (offset + 8) entry.baseAddr
  length : ∃ pages : BitVec 64, WordAt (n := 8) uefiMap (offset + 24) pages ∧
    entry.length.toNat = pages.toNat * 4096 % 2 ^ 64
  attributes : WordAt (n := 8) uefiMap (offset + 32) entry.extendedAttributes.bits
  available : ∃ type : BitVec 32, WordAt (n := 4) uefiMap offset type ∧
    (entry.isAvailable ↔ type.toNat = 7)

theorem memoryType_eq_conventional_iff (type : BitVec 32) :
    memoryType type = .efiConventionalMemory ↔ type.toNat = 7 := by
  have seven : type.toNat = 7 ↔ type = 7#32 := (BitVec.toNat_inj (y := 7#32))
  rw [seven, memoryType]
  split
  · simp [*]
  split
  · simp [*]
  split <;> simp [*]

section

variable {uefiMap : List Byte} (small : uefiMap.length < 2 ^ 64)

include small

/-- A member of the descriptor is read where it is. -/
theorem load_member {desc : Size} (inside : desc.toNat + 40 ≤ uefiMap.length) (n k : ℕ)
    (member : k + n ≤ 40) : ∃ v, load uefiMap n (desc + BitVec.ofNat 64 k).toNat = some v ∧
      WordAt uefiMap (desc.toNat + k) v := by
  have offset : (desc + BitVec.ofNat 64 k).toNat = desc.toNat + k := by
    rw [BitVec.toNat_add, BitVec.toNat_ofNat]
    omega
  have room : desc.toNat + k + n ≤ uefiMap.length := by omega
  obtain ⟨v, loaded⟩ := exists_load room
  rw [offset]
  exact ⟨v, loaded, wordAt_of_load loaded⟩

/-- A descriptor that ends inside of the map is read. -/
theorem readDescriptor_describes {desc : Size} (inside : desc.toNat + 40 ≤ uefiMap.length) :
    ∃ d, readDescriptor uefiMap desc = some d ∧ Describes uefiMap desc.toNat (entryOf d) := by
  obtain ⟨physicalStart, start_eq, start⟩ := load_member small inside 8 8 (by decide)
  obtain ⟨numberOfPages, pages_eq, pages⟩ := load_member small inside 8 24 (by decide)
  obtain ⟨type, type_eq, type_at⟩ := load_member small inside 4 0 (by decide)
  obtain ⟨attributes, attributes_eq, attributes_at⟩ := load_member small inside 8 32 (by decide)
  rw [BitVec.add_zero] at type_eq
  refine ⟨⟨type, physicalStart, numberOfPages, attributes⟩, ?_, ?_⟩
  · simp only [readDescriptor, start_eq, pages_eq, type_eq, attributes_eq]
    rfl
  · refine ⟨start, ⟨numberOfPages, pages, ?_⟩, attributes_at, ⟨type, type_at, ?_⟩⟩
    · exact BitVec.toNat_mul numberOfPages 4096#64
    · rw [MemoryMapEntry.isAvailable, decide_eq_true_iff]
      exact memoryType_eq_conventional_iff type

/-- The loop makes an entry of each descriptor that ends inside of the map. -/
theorem memoryEntries_describe {descriptorSize entryCount : Size}
    (large : 40 ≤ descriptorSize.toNat)
    (inside : entryCount.toNat * descriptorSize.toNat ≤ uefiMap.length) :
    ∃ entries : List MemoryMapEntry,
      memoryEntries uefiMap descriptorSize entryCount = some entries ∧
      entries.length = entryCount.toNat ∧
      ∀ i (below : i < entries.length),
        Describes uefiMap (i * descriptorSize.toNat) entries[i] := by
  refine forRange_induction (I := fun n made => ∃ entries : List MemoryMapEntry,
    made = some entries ∧ entries.length = n ∧ ∀ i (below : i < entries.length),
      Describes uefiMap (i * descriptorSize.toNat) entries[i]) (Nat.zero_le _) ?_ ?_
  · rintro i made - below ⟨entries, rfl, rfl, described⟩
    have ends : entries.length * descriptorSize.toNat + descriptorSize.toNat ≤ uefiMap.length := by
      rw [← Nat.succ_mul]
      exact (Nat.mul_le_mul_right _ below).trans inside
    have offset : (BitVec.ofNat 64 entries.length * descriptorSize).toNat =
        entries.length * descriptorSize.toNat := by
      rw [BitVec.toNat_mul, BitVec.toNat_ofNat, Nat.mod_mul_mod, Nat.mod_eq_of_lt (by omega)]
    obtain ⟨d, read, describes⟩ := @readDescriptor_describes uefiMap small
      (BitVec.ofNat 64 entries.length * descriptorSize) (by omega)
    refine ⟨entries ++ [entryOf d], ?_, List.length_append, fun i below => ?_⟩
    · rw [Option.bind_some, pushEntry, read]
      rfl
    · rw [List.length_append, List.length_singleton] at below
      rw [List.getElem_append]
      split
      · exact described i _
      · obtain rfl : i = entries.length := by omega
        rw [List.getElem_singleton, ← offset]
        exact describes
  · exact ⟨[], rfl, rfl, fun i below => absurd below (Nat.not_lt_zero i)⟩

end

/-- **The memory map is converted completely**, and no byte outside of it is read. -/
theorem initializeFromUefi_converts (config : BootConfig)
    (sized : config.memoryMap.length = config.memoryMapSize.toNat)
    (large : 40 ≤ config.descriptorSize.toNat) :
    ∃ entries : List MemoryMapEntry,
      entries.length = config.memoryMapSize.toNat / config.descriptorSize.toNat ∧
      (∀ i (below : i < entries.length),
        Describes config.memoryMap (i * config.descriptorSize.toNat) entries[i]) ∧
      ∀ {ρ : Type} (init : List MemoryMapEntry → State → ρ) (s : State),
        ∃ s', initializeFromUefi init config s = some (init entries s') := by
  have count : (config.memoryMapSize / config.descriptorSize).toNat =
      config.memoryMapSize.toNat / config.descriptorSize.toNat := BitVec.toNat_udiv
  have inside : (config.memoryMapSize / config.descriptorSize).toNat *
      config.descriptorSize.toNat ≤ config.memoryMap.length := by
    rw [count, sized]
    exact Nat.div_mul_le_self _ _
  have nonzero : config.descriptorSize ≠ 0#64 := fun zero => by
    rw [zero] at large
    exact absurd large (by decide)
  obtain ⟨entries, made, length, described⟩ := memoryEntries_describe
    (sized ▸ config.memoryMapSize.isLt) large inside
  refine ⟨entries, length.trans count, described, fun init s => ?_⟩
  simp only [initializeFromUefi, guard, if_pos nonzero, made]
  exact ⟨_, rfl⟩

/-- Two descriptors of 48 bytes, the second one of two pages of conventional memory at 0x1000, and
four more bytes. -/
def twoDescriptors : BootConfig where
  memoryMap := List.replicate 48 0#8 ++ 7#8 :: List.replicate 8 0#8 ++
    0x10#8 :: List.replicate 14 0#8 ++ 2#8 :: List.replicate 27 0#8
  memoryMapSize := 100#64
  descriptorSize := 48#64

example : readDescriptor twoDescriptors.memoryMap 48#64 =
    some ⟨7#32, 0x1000#64, 2#64, 0#64⟩ := by decide

theorem initializeFromUefi_converts_two :
    ∃ entries : List MemoryMapEntry, entries.length = 2 ∧
      ∀ {ρ : Type} (init : List MemoryMapEntry → State → ρ) (s : State),
        ∃ s', initializeFromUefi init twoDescriptors s = some (init entries s') := by
  obtain ⟨entries, length, -, passed⟩ :=
    initializeFromUefi_converts twoDescriptors (by decide) (by decide)
  exact ⟨entries, length, passed⟩

/-! ### The addresses of an entry -/

namespace UEFIMemoryDescriptor

variable (desc : UEFIMemoryDescriptor)

/-- The address behind the last page. -/
def limit : ℕ := desc.physicalStart.toNat + desc.numberOfPages.toNat * 4096

/-- The address is in one of the pages. -/
def Covers (addr : BitVec 64) : Prop :=
  desc.physicalStart.toNat ≤ addr.toNat ∧ addr.toNat < desc.limit

instance : DecidablePred desc.Covers := fun _ => inferInstanceAs (Decidable (_ ∧ _))

end UEFIMemoryDescriptor

section

variable (desc : UEFIMemoryDescriptor) (addr : BitVec 64)

theorem toNat_endAddr : (entryOf desc).endAddr.toNat = desc.limit % 2 ^ 64 := by
  have length : (entryOf desc).length.toNat = desc.numberOfPages.toNat * 4096 % 2 ^ 64 :=
    BitVec.toNat_mul desc.numberOfPages 4096#64
  rw [MemoryMapEntry.endAddr, BitVec.toNat_add, length, Nat.add_mod_mod]
  rfl

theorem contains_iff : (entryOf desc).contains addr ↔
    desc.physicalStart.toNat ≤ addr.toNat ∧ addr.toNat < desc.limit % 2 ^ 64 := by
  rw [MemoryMapEntry.contains, decide_eq_true_iff, BitVec.le_def, BitVec.lt_def, toNat_endAddr]
  rfl

/-- **An entry contains exactly the addresses of its descriptor**, when these end below the top of
the address space; otherwise it is right about the addresses in front of them only. -/
theorem contains_covers_iff (fits : desc.limit ≤ 2 ^ 64) :
    ((entryOf desc).contains addr ↔ desc.Covers addr) ↔
      desc.limit < 2 ^ 64 ∨ addr < desc.physicalStart := by
  rw [contains_iff, UEFIMemoryDescriptor.Covers, BitVec.lt_def]
  rcases Nat.lt_or_eq_of_le fits with below | top
  · rw [Nat.mod_eq_of_lt below]
    exact iff_of_true Iff.rfl (Or.inl below)
  · have inside := addr.isLt
    rw [top, Nat.mod_self]
    omega

end

/-- The last page of the address space. -/
def lastPage : UEFIMemoryDescriptor := ⟨7#32, 0xFFFFFFFFFFFFF000#64, 1#64, 0#64⟩

/-- At a page at 0x1000 the law holds. -/
theorem contains_covers_low :
    (entryOf ⟨7#32, 0x1000#64, 1#64, 0#64⟩).contains 0x1FFF#64 ↔
      UEFIMemoryDescriptor.Covers ⟨7#32, 0x1000#64, 1#64, 0#64⟩ 0x1FFF#64 :=
  (contains_covers_iff _ _ (by decide)).mpr (Or.inl (by decide))

/-- The last page is not in its entry. -/
theorem contains_misses_last : ¬ ∀ (desc : UEFIMemoryDescriptor) (addr : BitVec 64),
    desc.limit ≤ 2 ^ 64 → ((entryOf desc).contains addr ↔ desc.Covers addr) := by
  intro all
  have last := (all lastPage lastPage.physicalStart (by decide)).mpr (by decide)
  exact absurd last (by decide)

end ModernOS.KernelMemory
