import ModernOS.Boot.Resources

/-!
The runs of `LoadKernel`.

There is one for each call that fails and one in which all succeed (`LoadKernelRun`). In all of them
the handles, the information buffer and the pages are released as they should be. Two things go
wrong: the length that `Read` returns is not compared with the size of the file, so that the image
may be short, and the size is stored in the configuration before the kernel is loaded, so that it
stays there after a late failure.
-/

namespace ModernOS.Boot

open Program

/-- The number of pages that `LoadKernel` asks for. -/
def kernelPages (kernelSize : Size) : Size := (kernelSize + EFI_PAGE_SIZE - 1#64) / EFI_PAGE_SIZE

/-- The calls that open the kernel's file. -/
def opening (filesystem : Pointer) (root file : Acquired) : Transcript uefi :=
  [⟨.openVolume filesystem, root⟩, ⟨.openFile root.pointer KERNEL_FILENAME, file⟩]

/-- The calls that ask for the size of the file. -/
def asking (file pool : Acquired) (info : Counted) : Transcript uefi :=
  [⟨.allocatePool (FILE_INFO_SIZE + 256#64), pool⟩,
    ⟨.getInfo file.pointer (FILE_INFO_SIZE + 256#64) pool.pointer, info⟩]

/-- The calls that close the files. -/
def closing (root file : Acquired) (fileClosed rootClosed : Completed) : Transcript uefi :=
  [⟨.close file.pointer, fileClosed⟩, ⟨.close root.pointer, rootClosed⟩]

/-- The runs of `LoadKernel`: one for each call that may fail, and one in which all succeed. -/
inductive LoadKernelRun (filesystem : Pointer) (config : BootConfig) :
    Transcript uefi → Status × BootConfig → Prop
  | noVolume {root : Acquired} (failed : efiError root.status) :
      LoadKernelRun filesystem config [⟨.openVolume filesystem, root⟩] (root.status, config)
  | noFile {root file : Acquired} {printed : Unit} {rootClosed : Completed}
      (volume : ¬ efiError root.status) (failed : efiError file.status) :
      LoadKernelRun filesystem config
        (opening filesystem root file ++
          [⟨.print "ERROR: Could not find kernel file: %s\r\n" [.text KERNEL_FILENAME], printed⟩,
            ⟨.close root.pointer, rootClosed⟩])
        (file.status, config)
  | noPool {root file pool : Acquired} {fileClosed rootClosed : Completed}
      (volume : ¬ efiError root.status) (opened : ¬ efiError file.status)
      (failed : efiError pool.status) :
      LoadKernelRun filesystem config
        (opening filesystem root file ++ ⟨.allocatePool (FILE_INFO_SIZE + 256#64), pool⟩ ::
          closing root file fileClosed rootClosed)
        (pool.status, config)
  | noInfo {root file pool : Acquired} {info : Counted} {freed fileClosed rootClosed : Completed}
      (volume : ¬ efiError root.status) (opened : ¬ efiError file.status)
      (allocated : ¬ efiError pool.status) (failed : efiError info.status) :
      LoadKernelRun filesystem config
        (opening filesystem root file ++ asking file pool info ++
          ⟨.freePool pool.pointer, freed⟩ :: closing root file fileClosed rootClosed)
        (info.status, config)
  | noPages {root file pool kernel : Acquired} {info : Counted} {printed : Unit}
      {freed fileClosed rootClosed : Completed}
      (volume : ¬ efiError root.status) (opened : ¬ efiError file.status)
      (allocated : ¬ efiError pool.status) (sized : ¬ efiError info.status)
      (failed : efiError kernel.status) :
      LoadKernelRun filesystem config
        (opening filesystem root file ++ asking file pool info ++
          [⟨.allocatePages (kernelPages info.size) config.kernelPhysicalBase, kernel⟩,
            ⟨.print "ERROR: Could not allocate memory for kernel at 0x%lx\r\n"
              [.number kernel.pointer], printed⟩] ++
          ⟨.freePool pool.pointer, freed⟩ :: closing root file fileClosed rootClosed)
        (kernel.status, { config with kernelSize := info.size })
  | unread {root file pool kernel : Acquired} {info done : Counted}
      {pagesFreed freed fileClosed rootClosed : Completed}
      (volume : ¬ efiError root.status) (opened : ¬ efiError file.status)
      (allocated : ¬ efiError pool.status) (sized : ¬ efiError info.status)
      (placed : ¬ efiError kernel.status) (failed : efiError done.status) :
      LoadKernelRun filesystem config
        (opening filesystem root file ++ asking file pool info ++
          [⟨.allocatePages (kernelPages info.size) config.kernelPhysicalBase, kernel⟩,
            ⟨.read file.pointer info.size kernel.pointer, done⟩,
            ⟨.freePages kernel.pointer (kernelPages info.size), pagesFreed⟩] ++
          ⟨.freePool pool.pointer, freed⟩ :: closing root file fileClosed rootClosed)
        (done.status, { config with kernelSize := info.size })
  | loaded {root file pool kernel : Acquired} {info done : Counted}
      {freed fileClosed rootClosed : Completed}
      (volume : ¬ efiError root.status) (opened : ¬ efiError file.status)
      (allocated : ¬ efiError pool.status) (sized : ¬ efiError info.status)
      (placed : ¬ efiError kernel.status) (read : ¬ efiError done.status) :
      LoadKernelRun filesystem config
        (opening filesystem root file ++ asking file pool info ++
          [⟨.allocatePages (kernelPages info.size) config.kernelPhysicalBase, kernel⟩,
            ⟨.read file.pointer info.size kernel.pointer, done⟩] ++
          ⟨.freePool pool.pointer, freed⟩ :: closing root file fileClosed rootClosed)
        (EFI_SUCCESS, { config with kernelSize := info.size })

theorem loadKernel_does_iff {filesystem : Pointer} {config : BootConfig} {t : Transcript uefi}
    {result : Status × BootConfig} :
    (loadKernel filesystem config).Does t result ↔ LoadKernelRun filesystem config t result := by
  simp only [loadKernel, ask_bind, print_bind, pure_eq, does_call, does_ite, does_ret]
  constructor
  · intro does
    obtain ⟨root, _, rfl, ⟨failed, rfl, rfl⟩ | ⟨volume, file, _, rfl, does⟩⟩ := does
    · exact .noVolume failed
    rcases does with ⟨failed, _, _, rfl, _, _, rfl, rfl, rfl⟩ | ⟨opened, pool, _, rfl, does⟩
    · exact .noFile volume failed
    rcases does with ⟨failed, _, _, rfl, _, _, rfl, rfl, rfl⟩ | ⟨allocated, info, _, rfl, does⟩
    · exact .noPool volume opened failed
    rcases does with ⟨failed, _, _, rfl, _, _, rfl, _, _, rfl, rfl, rfl⟩ |
      ⟨sized, kernel, _, rfl, does⟩
    · exact .noInfo volume opened allocated failed
    rcases does with ⟨failed, _, _, rfl, _, _, rfl, _, _, rfl, _, _, rfl, rfl, rfl⟩ |
      ⟨placed, done, _, rfl, does⟩
    · exact .noPages volume opened allocated sized failed
    rcases does with ⟨failed, _, _, rfl, _, _, rfl, _, _, rfl, _, _, rfl, rfl, rfl⟩ |
      ⟨read, _, _, rfl, _, _, rfl, _, _, rfl, rfl, rfl⟩
    · exact .unread volume opened allocated sized placed failed
    · exact .loaded volume opened allocated sized placed read
  · intro run
    cases run with
    | noVolume failed => exact ⟨_, _, rfl, .inl ⟨failed, rfl, rfl⟩⟩
    | noFile volume failed =>
        exact ⟨_, _, rfl, .inr ⟨volume, _, _, rfl, .inl ⟨failed, _, _, rfl, _, _, rfl, rfl, rfl⟩⟩⟩
    | noPool volume opened failed =>
        exact ⟨_, _, rfl, .inr ⟨volume, _, _, rfl, .inr ⟨opened, _, _, rfl,
          .inl ⟨failed, _, _, rfl, _, _, rfl, rfl, rfl⟩⟩⟩⟩
    | noInfo volume opened allocated failed =>
        exact ⟨_, _, rfl, .inr ⟨volume, _, _, rfl, .inr ⟨opened, _, _, rfl, .inr ⟨allocated, _, _,
          rfl, .inl ⟨failed, _, _, rfl, _, _, rfl, _, _, rfl, rfl, rfl⟩⟩⟩⟩⟩
    | noPages volume opened allocated sized failed =>
        exact ⟨_, _, rfl, .inr ⟨volume, _, _, rfl, .inr ⟨opened, _, _, rfl, .inr ⟨allocated, _, _,
          rfl, .inr ⟨sized, _, _, rfl, .inl ⟨failed, _, _, rfl, _, _, rfl, _, _, rfl, _, _, rfl,
          rfl, rfl⟩⟩⟩⟩⟩⟩
    | unread volume opened allocated sized placed failed =>
        exact ⟨_, _, rfl, .inr ⟨volume, _, _, rfl, .inr ⟨opened, _, _, rfl, .inr ⟨allocated, _, _,
          rfl, .inr ⟨sized, _, _, rfl, .inr ⟨placed, _, _, rfl, .inl ⟨failed, _, _, rfl, _, _, rfl,
          _, _, rfl, _, _, rfl, rfl, rfl⟩⟩⟩⟩⟩⟩⟩
    | loaded volume opened allocated sized placed read =>
        exact ⟨_, _, rfl, .inr ⟨volume, _, _, rfl, .inr ⟨opened, _, _, rfl, .inr ⟨allocated, _, _,
          rfl, .inr ⟨sized, _, _, rfl, .inr ⟨placed, _, _, rfl, .inr ⟨read, _, _, rfl, _, _, rfl,
          _, _, rfl, rfl, rfl⟩⟩⟩⟩⟩⟩⟩

/-! ### The image -/

/-- What is documented of the firmware: `AllocatePages` allocates at the address that it is asked
for, and `Read` reads at most what it is asked for. -/
def Documented : Exchange uefi → Prop
  | ⟨.allocatePages _ address, memory⟩ => ¬ efiError memory.status → memory.pointer = address
  | ⟨.read _ size _, done⟩ => ¬ efiError done.status → done.size ≤ size
  | _ => True

/-- The kernel's file is opened as `file`. -/
def OpensKernel (file : Pointer) : Exchange uefi → Prop
  | ⟨.openFile _ name, opened⟩ =>
      name = KERNEL_FILENAME ∧ ¬ efiError opened.status ∧ opened.pointer = file
  | _ => False

/-- A byte of `file` is read to the address. -/
def ReadsTo (file : Pointer) (address : ℕ) : Exchange uefi → Prop
  | ⟨.read file' _ buffer, done⟩ =>
      file' = file ∧ ¬ efiError done.status ∧
        buffer.toNat ≤ address ∧ address < buffer.toNat + done.size.toNat
  | _ => False

/-- The address is in pages that are allocated. -/
def Allocates (address : ℕ) : Exchange uefi → Prop
  | ⟨.allocatePages pages _, memory⟩ =>
      ¬ efiError memory.status ∧
        memory.pointer.toNat ≤ address ∧ address < memory.pointer.toNat + pages.toNat * 4096
  | _ => False

/-- All of the image has been read from the kernel's file, into pages that are allocated. -/
def CompleteImage (t : Transcript uefi) (config : BootConfig) : Prop :=
  ∀ k < config.kernelSize.toNat,
    (∃ file, (∃ e ∈ t, OpensKernel file e) ∧
      ∃ e ∈ t, ReadsTo file (config.kernelPhysicalBase.toNat + k) e) ∧
    ∃ e ∈ t, Allocates (config.kernelPhysicalBase.toNat + k) e

/-- The file has this size. -/
def Announces (fileSize : Size) : Exchange uefi → Prop
  | ⟨.getInfo .., info⟩ => ¬ efiError info.status ∧ info.size = fileSize
  | _ => False

/-- A read is of this size, and it can be rounded up to pages. -/
def ReadsWhole (fileSize : Size) : Exchange uefi → Prop
  | ⟨.read .., done⟩ =>
      ¬ efiError done.status → done.size = fileSize ∧ fileSize.toNat + 4095 < 2 ^ 64
  | _ => True

theorem toNat_kernelPages (kernelSize : Size) :
    (kernelPages kernelSize).toNat = (kernelSize.toNat + 4095) % 2 ^ 64 / 4096 := by
  have sum : kernelSize + EFI_PAGE_SIZE - 1#64 = kernelSize + 4095#64 := by
    rw [BitVec.sub_eq_add_neg, BitVec.add_assoc]
    rfl
  have page : EFI_PAGE_SIZE.toNat = 4096 := rfl
  rw [kernelPages, BitVec.toNat_udiv, sum, page, BitVec.toNat_add]
  rfl

/-- An error is not a success. -/
theorem ne_success {status : Status} (failed : efiError status) : status ≠ EFI_SUCCESS := by
  rintro rfl
  cases failed

section Image

variable {filesystem : Pointer} {config : BootConfig} {t : Transcript uefi}
  {result : Status × BootConfig}

/-- A run either fails, without a read that succeeds, or is the one in which all calls succeed. -/
theorem LoadKernelRun.failed_or_loaded (run : LoadKernelRun filesystem config t result) :
    efiError result.1 ∧ (∀ fileSize, ∀ e ∈ t, ReadsWhole fileSize e) ∨
      ∃ (root file pool kernel : Acquired) (info done : Counted)
        (freed fileClosed rootClosed : Completed),
        ¬ efiError file.status ∧ ¬ efiError info.status ∧ ¬ efiError kernel.status ∧
        ¬ efiError done.status ∧
        t = opening filesystem root file ++ asking file pool info ++
          [⟨.allocatePages (kernelPages info.size) config.kernelPhysicalBase, kernel⟩,
            ⟨.read file.pointer info.size kernel.pointer, done⟩] ++
          ⟨.freePool pool.pointer, freed⟩ :: closing root file fileClosed rootClosed ∧
        result = (EFI_SUCCESS, { config with kernelSize := info.size }) := by
  cases run with
  | loaded volume opened allocated sized placed read =>
      exact .inr ⟨_, _, _, _, _, _, _, _, _, opened, sized, placed, read, rfl, rfl⟩
  | noVolume failed | noFile _ failed | noPool _ _ failed | noInfo _ _ _ failed
  | noPages _ _ _ _ failed | unread _ _ _ _ _ failed =>
      refine .inl ⟨failed, fun fileSize => ?_⟩
      simp only [opening, asking, closing, List.cons_append, List.nil_append,
        List.forall_mem_cons, ReadsWhole, failed, not_true, false_imp_iff, true_and,
        List.not_mem_nil, implies_true]

/-- The bytes that were read are in the pages, and are all of the image, exactly when the read was
as long as the image and the number of pages did not wrap. -/
theorem image_iff {kernelSize size : Size} (short : size ≤ kernelSize) :
    (∀ k < kernelSize.toNat, k < size.toNat ∧ k < (kernelPages kernelSize).toNat * 4096) ↔
      size = kernelSize ∧ kernelSize.toNat + 4095 < 2 ^ 64 := by
  have bound := kernelSize.isLt
  rw [toNat_kernelPages, ← BitVec.toNat_inj]
  have short : size.toNat ≤ kernelSize.toNat := short
  constructor
  · intro all
    by_cases empty : kernelSize.toNat = 0
    · omega
    · have last := all (kernelSize.toNat - 1) (by omega)
      omega
  · rintro ⟨whole, fits⟩ k below
    rw [Nat.mod_eq_of_lt fits]
    omega

theorem loadKernel_completeImage_iff (does : (loadKernel filesystem config).Does t result)
    (documented : ∀ e ∈ t, Documented e) :
    (result.1 = EFI_SUCCESS → CompleteImage t result.2) ↔
      ∀ fileSize, (∃ e ∈ t, Announces fileSize e) → ∀ e ∈ t, ReadsWhole fileSize e := by
  rcases (loadKernel_does_iff.mp does).failed_or_loaded with ⟨failed, unread⟩ |
    ⟨root, file, pool, kernel, info, done, freed, fileClosed, rootClosed, opened, sized, placed,
      read, rfl, rfl⟩
  · exact iff_of_true (fun success => absurd success (ne_success failed))
      fun fileSize _ => unread fileSize
  simp only [opening, asking, closing, CompleteImage, List.cons_append, List.nil_append,
    List.forall_mem_cons, List.exists_mem_cons_iff, List.not_mem_nil, false_and, exists_false,
    or_false, false_imp_iff, implies_true, and_true] at documented ⊢
  simp only [Documented, Announces, ReadsWhole, OpensKernel, ReadsTo, Allocates, or_false, false_or,
    true_and, and_true, Bool.false_eq_true, not_false_eq_true, true_imp_iff, opened, sized, placed,
    read, exists_eq_left', forall_eq'] at documented ⊢
  obtain ⟨base, short⟩ := documented
  simpa [base] using image_iff short

/-- A run that loads a file of two bytes. -/
def twoBytes (readSize : Size) : Transcript uefi :=
  opening 2#64 ⟨EFI_SUCCESS, 2#64⟩ ⟨EFI_SUCCESS, 2#64⟩ ++
    asking ⟨EFI_SUCCESS, 2#64⟩ ⟨EFI_SUCCESS, 0x9000#64⟩ ⟨EFI_SUCCESS, 2#64⟩ ++
    [⟨.allocatePages 1#64 KERNEL_PHYSICAL_BASE, ⟨EFI_SUCCESS, KERNEL_PHYSICAL_BASE⟩⟩,
      ⟨.read 2#64 2#64 KERNEL_PHYSICAL_BASE, ⟨EFI_SUCCESS, readSize⟩⟩] ++
    ⟨.freePool 0x9000#64, ⟨EFI_SUCCESS⟩⟩ ::
      closing ⟨EFI_SUCCESS, 2#64⟩ ⟨EFI_SUCCESS, 2#64⟩ ⟨EFI_SUCCESS⟩ ⟨EFI_SUCCESS⟩

theorem twoBytes_does (readSize : Size) :
    (loadKernel 2#64 initialConfig).Does (twoBytes readSize)
      (EFI_SUCCESS, { initialConfig with kernelSize := 2#64 }) :=
  have success : ¬ efiError EFI_SUCCESS := by decide
  loadKernel_does_iff.mpr (.loaded success success success success success success)

theorem twoBytes_documented {readSize : Size} (short : readSize ≤ 2#64) :
    ∀ e ∈ twoBytes readSize, Documented e := by
  simp only [twoBytes, opening, asking, closing, List.cons_append, List.nil_append,
    List.forall_mem_cons, List.not_mem_nil, false_imp_iff, implies_true, and_true]
  exact ⟨trivial, trivial, trivial, trivial, fun _ => rfl, fun _ => short, trivial, trivial,
    trivial⟩

/-- A file of two bytes of which one has been read. -/
theorem loadKernel_completeImage_of_short_read :
    ¬ ∀ filesystem config t result, (loadKernel filesystem config).Does t result →
      (∀ e ∈ t, Documented e) → result.1 = EFI_SUCCESS → CompleteImage t result.2 := by
  intro always
  have complete := always _ _ _ _ (twoBytes_does 1#64) (twoBytes_documented (by decide)) rfl
  have last := (complete 1 (by decide)).1
  simp only [twoBytes, opening, asking, closing, List.cons_append, List.nil_append,
    List.exists_mem_cons_iff, List.not_mem_nil, false_and, exists_false, or_false] at last
  simp [OpensKernel, ReadsTo, initialConfig] at last

/-- Both bytes of the file have been read. -/
theorem loadKernel_completeImage_of_whole_read :
    CompleteImage (twoBytes 2#64) { initialConfig with kernelSize := 2#64 } := by
  have documented := twoBytes_documented (BitVec.le_refl 2#64)
  refine (loadKernel_completeImage_iff (twoBytes_does 2#64) documented).mpr ?_ rfl
  simp only [twoBytes, opening, asking, closing, List.cons_append, List.nil_append,
    List.exists_mem_cons_iff, List.forall_mem_cons, List.not_mem_nil, false_and, exists_false,
    or_false, false_imp_iff, implies_true, and_true]
  simp [Announces, ReadsWhole]

/-! ### What is released -/

/-- The pages cannot be allocated, or the file cannot be read. -/
def FailsLate : Exchange uefi → Prop
  | ⟨.allocatePages .., memory⟩ => efiError memory.status
  | ⟨.read .., done⟩ => efiError done.status
  | _ => False

/-- Nothing is used after its release, what has been acquired is released once, except for the
pages of a kernel that is loaded, and an error leaves the configuration as it is. -/
structure FailsCleanly (config : BootConfig) (t : Transcript uefi)
    (result : Status × BootConfig) : Prop where
  released : ∃ address, holdings.after t 0 =
    some (if result.1 = EFI_SUCCESS then {.pages address (kernelPages result.2.kernelSize)} else 0)
  unchanged : efiError result.1 → result.2 = config

section Released

variable {root file pool : Acquired} {info : Counted} {freed fileClosed rootClosed : Completed}
  (volume : ¬ efiError root.status) (opened : ¬ efiError file.status)
  (allocated : ¬ efiError pool.status)

include volume opened in
theorem after_opening : holdings.after (opening filesystem root file ++ t) 0 =
    holdings.after t (.file file.pointer ::ₘ {.file root.pointer}) := by
  simp (disch := simp) only [opening, List.cons_append, List.nil_append, after_openVolume,
    after_openFile, handedOver_of_success volume, handedOver_of_success opened, add_zero,
    Multiset.singleton_add]

include allocated in
theorem after_asking {held : Multiset Resource} :
    holdings.after (asking file pool info ++ t) (.file file.pointer ::ₘ held) =
      holdings.after t (.pool pool.pointer ::ₘ .file file.pointer ::ₘ held) := by
  simp (disch := simp) only [asking, List.cons_append, List.nil_append, after_allocatePool,
    after_getInfo, handedOver_of_success allocated, Multiset.singleton_add]

theorem after_closing :
    holdings.after (closing root file fileClosed rootClosed)
      (.file file.pointer ::ₘ {.file root.pointer}) = some 0 := by
  simp (disch := simp) only [closing, after_close, Multiset.erase_cons_head,
    Multiset.erase_singleton, Accounts.after_nil]

theorem after_releasing {held : Multiset Resource} :
    holdings.after (⟨.freePool pool.pointer, freed⟩ :: t) (.pool pool.pointer ::ₘ held) =
      holdings.after t held := by
  rw [after_freePool (Multiset.mem_cons_self ..), Multiset.erase_cons_head]

end Released

theorem loadKernel_released (run : LoadKernelRun filesystem config t result) :
    ∃ address, holdings.after t 0 =
      some (if result.1 = EFI_SUCCESS then {.pages address (kernelPages result.2.kernelSize)}
        else 0) := by
  cases run with
  | @loaded root file pool kernel info _ _ _ _ volume opened allocated sized placed read =>
      refine ⟨kernel.pointer, ?_⟩
      rw [List.append_assoc, List.append_assoc, after_opening volume opened,
        after_asking allocated, if_pos rfl]
      simp (disch := simp) only [List.cons_append, List.nil_append, after_allocatePages,
        handedOver_of_success placed, Multiset.singleton_add, after_read, after_freePool, closing,
        after_close, Multiset.erase_cons_tail, Multiset.erase_cons_head,
        Multiset.erase_singleton, Accounts.after_nil]
      rfl
  | noVolume failed =>
      refine ⟨0#64, ?_⟩
      rw [if_neg (ne_success failed), after_openVolume, handedOver_of_error failed]
      rfl
  | noFile volume failed =>
      refine ⟨0#64, ?_⟩
      rw [if_neg (ne_success failed)]
      simp (disch := simp) only [opening, List.cons_append, List.nil_append, after_openVolume,
        handedOver_of_success volume, after_openFile, handedOver_of_error failed, after_print,
        after_close, zero_add, add_zero, Multiset.erase_singleton, Accounts.after_nil]
  | noPool volume opened failed =>
      refine ⟨0#64, ?_⟩
      rw [if_neg (ne_success failed), after_opening volume opened, after_allocatePool,
        handedOver_of_error failed, zero_add, after_closing]
  | noInfo volume opened allocated failed =>
      refine ⟨0#64, ?_⟩
      rw [if_neg (ne_success failed), List.append_assoc, after_opening volume opened,
        after_asking allocated, after_releasing, after_closing]
  | noPages volume opened allocated sized failed =>
      refine ⟨0#64, ?_⟩
      rw [if_neg (ne_success failed), List.append_assoc, List.append_assoc,
        after_opening volume opened, after_asking allocated, List.cons_append, List.cons_append,
        after_allocatePages, handedOver_of_error failed, zero_add, after_print, List.nil_append,
        after_releasing, after_closing]
  | unread volume opened allocated sized placed failed =>
      refine ⟨0#64, ?_⟩
      rw [if_neg (ne_success failed), List.append_assoc, List.append_assoc,
        after_opening volume opened, after_asking allocated]
      simp (disch := simp) only [List.cons_append, List.nil_append, after_allocatePages,
        handedOver_of_success placed, Multiset.singleton_add, after_read, after_freePages,
        Multiset.erase_cons_head]
      rw [after_releasing, after_closing]

/-- What a run has acquired is what it has released, and the pages of a kernel that is loaded. -/
theorem loadKernel_taken (run : LoadKernelRun filesystem config t result) :
    ∃ address, holdings.taken t =
      (if result.1 = EFI_SUCCESS then {.pages address (kernelPages result.2.kernelSize)} else 0) +
        holdings.freed t := by
  obtain ⟨address, released⟩ := loadKernel_released run
  have balance := Accounts.balance released
  rw [zero_add] at balance
  exact ⟨address, balance.symm⟩

/-- The size that `GetInfo` announces stays in the configuration when a later call fails. -/
theorem LoadKernelRun.unchanged_iff (run : LoadKernelRun filesystem config t result) :
    (efiError result.1 → result.2 = config) ↔
      ((∃ e ∈ t, FailsLate e) →
        ∀ fileSize, (∃ e ∈ t, Announces fileSize e) → fileSize = config.kernelSize) := by
  have success : ¬ efiError EFI_SUCCESS := by decide
  have entered (size : Size) :
      { config with kernelSize := size } = config ↔ size = config.kernelSize := by
    cases config
    simp
  cases run with
  | loaded volume opened allocated sized placed read =>
      simp only [opening, asking, closing, List.cons_append, List.nil_append,
        List.exists_mem_cons_iff, List.not_mem_nil, false_and, exists_false, or_false]
      simp only [FailsLate, placed, read, success, or_false, Bool.false_eq_true, false_imp_iff]
  | noVolume failed | noFile _ failed | noPool _ _ failed | noInfo _ _ _ failed =>
      simp only [opening, asking, closing, List.cons_append, List.nil_append,
        List.exists_mem_cons_iff, List.not_mem_nil, false_and, exists_false, or_false]
      simp only [FailsLate, or_false, false_imp_iff, implies_true]
  | noPages volume opened allocated sized failed
  | unread volume opened allocated sized placed failed =>
      simp only [opening, asking, closing, List.cons_append, List.nil_append,
        List.exists_mem_cons_iff, List.not_mem_nil, false_and, exists_false, or_false]
      simp only [FailsLate, Announces, failed, sized, or_false, false_or, or_true,
        Bool.false_eq_true, not_false_eq_true, true_and, true_imp_iff, forall_eq', entered]

theorem loadKernel_failsCleanly_iff (does : (loadKernel filesystem config).Does t result) :
    FailsCleanly config t result ↔
      ((∃ e ∈ t, FailsLate e) →
        ∀ fileSize, (∃ e ∈ t, Announces fileSize e) → fileSize = config.kernelSize) := by
  have run := loadKernel_does_iff.mp does
  constructor
  · intro clean
    exact run.unchanged_iff.mp clean.unchanged
  · intro kept
    exact ⟨loadKernel_released run, run.unchanged_iff.mpr kept⟩

/-- The size of a kernel for which no pages are left stays in the configuration. -/
theorem loadKernel_failsCleanly_of_no_pages :
    ¬ ∀ filesystem config t result, (loadKernel filesystem config).Does t result →
      FailsCleanly config t result := by
  intro always
  have success : ¬ efiError EFI_SUCCESS := by decide
  -- `AllocatePages` fails with `EFI_OUT_OF_RESOURCES`.
  have run := @LoadKernelRun.noPages 2#64 initialConfig ⟨EFI_SUCCESS, 2#64⟩ ⟨EFI_SUCCESS, 2#64⟩
    ⟨EFI_SUCCESS, 0x9000#64⟩ ⟨0x8000000000000009#64, KERNEL_PHYSICAL_BASE⟩ ⟨EFI_SUCCESS, 2#64⟩ ()
    ⟨EFI_SUCCESS⟩ ⟨EFI_SUCCESS⟩ ⟨EFI_SUCCESS⟩ success success success success (by decide)
  have unchanged := (always _ _ _ _ (loadKernel_does_iff.mpr run)).unchanged (by decide)
  exact absurd (congrArg BootConfig.kernelSize unchanged) (by decide)

theorem loadKernel_failsCleanly_of_loaded :
    FailsCleanly initialConfig (twoBytes 2#64)
        (EFI_SUCCESS, { initialConfig with kernelSize := 2#64 }) ↔
      ((∃ e ∈ twoBytes 2#64, FailsLate e) →
        ∀ fileSize, (∃ e ∈ twoBytes 2#64, Announces fileSize e) →
          fileSize = initialConfig.kernelSize) :=
  loadKernel_failsCleanly_iff (twoBytes_does 2#64)

end Image

end ModernOS.Boot
