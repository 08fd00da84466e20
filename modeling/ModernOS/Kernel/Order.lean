import ModernOS.Kernel.Log

/-!
The order in which `kernel_main64` brings the system up.

The subsystems are initialised one after the other, each only when the one before has succeeded
(`Attempts`). Only when all have, the kernel is marked as initialised, its tests run and interrupts
are enabled; otherwise it disables them and calls no subsystem any more (`kernelMain64_boots`).
-/

namespace ModernOS.Kernel

open Console (Byte Line ascii)
open KernelMemory (MemoryMapEntry)
open Program

/-! ### Attempts -/

/-- What is initialised. -/
inductive Subsystem where
  | memory (entries : List MemoryMapEntry)
  | interrupts
  | fileSystem
  | processes
  deriving DecidableEq, Repr

/-- The call of `init` and whether its result has a value. -/
def Subsystem.tried (hasValue : Bool) : Subsystem → Exchange services
  | .memory entries => ⟨.memoryInit entries, hasValue⟩
  | .interrupts => ⟨.interruptInit, hasValue⟩
  | .fileSystem => ⟨.fileSystemInit, hasValue⟩
  | .processes => ⟨.processInit, hasValue⟩

/-- The subsystems in their order. -/
def order (entries : List MemoryMapEntry) : List Subsystem :=
  [.memory entries, .interrupts, .fileSystem, .processes]

/-- Each subsystem is tried when those before it have succeeded. -/
inductive Attempts : List Subsystem → Trace → Status → Prop where
  | nil : Attempts [] [] .succeeded
  | failed (s : Subsystem) (later : List Subsystem) :
      Attempts (s :: later) [s.tried false] .failed
  | next {s : Subsystem} {later : List Subsystem} {cs : Trace} {status : Status} :
      Attempts later cs status → Attempts (s :: later) (s.tried true :: cs) status

theorem Attempts.succeeded {ss : List Subsystem} {cs : Trace}
    (attempts : Attempts ss cs .succeeded) : cs = ss.map (Subsystem.tried true) := by
  generalize same : Status.succeeded = status at attempts
  induction attempts with
  | nil => rfl
  | failed => cases same
  | next _ ih => rw [ih same, List.map_cons]

theorem Attempts.exists_failed {ss : List Subsystem} {cs : Trace}
    (attempts : Attempts ss cs .failed) :
    ∃ (done : List Subsystem) (s : Subsystem) (later : List Subsystem), ss = done ++ s :: later ∧
      cs = done.map (Subsystem.tried true) ++ [s.tried false] := by
  generalize same : Status.failed = status at attempts
  induction attempts with
  | nil => cases same
  | failed s later => exact ⟨[], s, later, rfl, rfl⟩
  | @next s _ _ _ _ ih =>
      obtain ⟨done, s', later, rfl, rfl⟩ := ih same
      exact ⟨s :: done, s', later, rfl, rfl⟩

theorem Attempts.not_faulted {ss : List Subsystem} {cs : Trace} :
    ¬ Attempts ss cs .faulted := by
  intro attempts
  generalize same : Status.faulted = status at attempts
  induction attempts with
  | nil => cases same
  | failed => cases same
  | next _ ih => exact ih same

/-! ### The four steps -/

/-- The code tries the subsystems, and has printed `m` lines when they have all succeeded. -/
def Tries (p : Code Status) (ss : List Subsystem) (m : ℕ) : Prop :=
  ∀ t status, p.Does t status → ∃ n cs, Part t n [] cs ∧ Attempts ss cs status ∧
    (status = .succeeded → m ≤ n)

theorem tries_andThen {p q : Code Status} {s : Subsystem} {ss : List Subsystem} {m m' : ℕ}
    (first : Tries p [s] m) (second : Tries q ss m') : Tries (andThen p q) (s :: ss) (m + m') := by
  intro t status does
  obtain ⟨status₁, t₁, t₂, rfl, does₁, does₂⟩ := does_bind.mp does
  obtain ⟨n, cs, part, attempts, lines⟩ := first _ _ does₁
  rw [does_ite] at does₂
  rcases does₂ with ⟨rfl, does₂⟩ | ⟨stopped, rfl, rfl⟩
  · obtain ⟨n', cs', part', attempts', lines'⟩ := second _ _ does₂
    obtain rfl := attempts.succeeded
    refine ⟨n + n', _, part.append part', .next attempts', fun all => ?_⟩
    have := lines rfl
    have := lines' all
    omega
  · rw [List.append_nil]
    cases attempts with
    | failed => exact ⟨n, _, part, .failed s ss, fun all => absurd all stopped⟩
    | next rest =>
        cases rest with
        | nil => exact absurd rfl stopped

/-- What comes before the answer of `init`. -/
theorem tries_initializeStep {banner fatal done : List Char} {init : Code Status} {s : Subsystem}
    {m : ℕ} (bannerLine : countLines 0 banner = some 1) (fatalLine : countLines 0 fatal = some 1)
    (doneLine : countLines 0 done = some 1) (tries : Tries init [s] m) :
    Tries (initializeStep (.ofList banner) init (.ofList fatal) (.ofList done)) [s]
      (1 + m + 1) := by
  intro t status does
  obtain ⟨⟨⟩, t₁, t₂, rfl, does₁, does⟩ := does_bind.mp does
  obtain ⟨status', t₂, t₃, rfl, does₂, does₃⟩ := does_bind.mp does
  have said := tells_say bannerLine _ _ does₁
  obtain ⟨n, cs, part, attempts, lines⟩ := tries _ _ does₂
  cases status' with
  | succeeded =>
      obtain ⟨⟨⟩, t₄, t₅, rfl, does₄, rfl, rfl⟩ := does_bind.mp does₃
      have part := said.append (part.append (tells_say doneLine _ _ does₄))
      simp only [List.append_nil, List.nil_append] at part ⊢
      refine ⟨_, cs, part, attempts, fun _ => ?_⟩
      have := lines rfl
      omega
  | failed =>
      obtain ⟨⟨⟩, t₄, t₅, rfl, does₄, does₅⟩ := does_bind.mp does₃
      obtain ⟨⟨⟩, t₆, t₇, rfl, does₆, rfl, rfl⟩ := does_bind.mp does₅
      have part := said.append (part.append
        ((tells_setColor _ _ _ does₄).append (tells_say fatalLine _ _ does₆)))
      simp only [List.append_nil, List.nil_append] at part ⊢
      exact ⟨_, cs, part, attempts, fun all => by cases all⟩
  | faulted => exact absurd attempts Attempts.not_faulted

theorem tries_ask {c : Call} (hasValue : Result c → Bool) {s : Subsystem} (control : IsControl c)
    (tried : ∀ r, s.tried (hasValue r) = ⟨c, r⟩) :
    Tries ((fun r => Status.ofBool (hasValue r)) <$> ask c) [s] 0 := by
  rintro t status ⟨r, rest, rfl, rfl, rfl⟩
  refine ⟨0, _, part_control control, ?_, fun _ => Nat.le_refl 0⟩
  show Attempts [s] _ (Status.ofBool (hasValue r))
  rw [← tried]
  cases hasValue r with
  | true => exact .next .nil
  | false => exact .failed s []

theorem tries_initializeInterrupts : Tries initializeInterrupts [.interrupts] 2 :=
  tries_initializeStep rfl rfl rfl (@tries_ask .interruptInit id _ rfl fun _ => rfl)

theorem tries_initializeFileSystem : Tries initializeFileSystem [.fileSystem] 2 :=
  tries_initializeStep rfl rfl rfl (@tries_ask .fileSystemInit id _ rfl fun _ => rfl)

theorem tries_initializeProcesses : Tries initializeProcesses [.processes] 2 :=
  tries_initializeStep rfl rfl rfl (@tries_ask .processInit id _ rfl fun _ => rfl)

section

variable {config : BootConfig}

/-- The entries that the memory map is converted to. -/
def BootConfig.entries (config : BootConfig) : Option (List MemoryMapEntry) :=
  KernelMemory.memoryEntries config.memoryMap config.descriptorSize
    (config.memoryMapSize / config.descriptorSize)

theorem tries_initializeMemory (divides : config.descriptorSize ≠ 0#64)
    {entries : List MemoryMapEntry} (made : config.entries = some entries) :
    Tries (initializeMemory config) [.memory entries] 4 := by
  refine tries_initializeStep (m := 2) rfl rfl rfl fun t status does => ?_
  obtain ⟨⟨⟩, t₁, t₂, rfl, does₁, does⟩ := does_bind.mp does
  rw [if_neg divides] at does
  obtain ⟨⟨⟩, t₂, t₃, rfl, does₂, does₃⟩ := does_bind.mp does
  rw [← BootConfig.entries, made] at does₃
  have asked := @tries_ask (.memoryInit entries) id (.memory entries) rfl fun _ => rfl
  obtain ⟨n, cs, part, attempts, -⟩ := asked _ _ does₃
  have said := (tells_say rfl _ _ does₁).append ((tells_showDec rfl _ _ _ does₂).append part)
  exact ⟨_, cs, said, attempts, fun _ => show 2 ≤ 1 + (1 + n) by omega⟩

/-- The subsystems are tried in their order when the memory map can be converted. -/
theorem tries_initializeSubsystems (divides : config.descriptorSize ≠ 0#64)
    {entries : List MemoryMapEntry} (made : config.entries = some entries) :
    Tries (initializeSubsystems config) (order entries) 10 :=
  tries_andThen (tries_initializeMemory divides made) (tries_andThen tries_initializeInterrupts
    (tries_andThen tries_initializeFileSystem tries_initializeProcesses))

/-- Otherwise the first of them faults. -/
theorem initializeSubsystems_faults (divides : config.descriptorSize ≠ 0#64)
    (unmade : config.entries = none) {t : Trace} {status : Status}
    (does : (initializeSubsystems config).Does t status) :
    status = .faulted ∧ ∃ n, Part t n [] [] := by
  obtain ⟨_, t₁, _, rfl, memory, rest⟩ := does_bind.mp does
  obtain ⟨⟨⟩, t₁, t₂, rfl, banner, step⟩ := does_bind.mp memory
  obtain ⟨_, t₂, _, rfl, init, answer⟩ := does_bind.mp step
  obtain ⟨⟨⟩, t₂, t₃, rfl, parsing, made⟩ := does_bind.mp init
  rw [if_neg divides] at made
  obtain ⟨⟨⟩, t₃, t₄, rfl, found, made⟩ := does_bind.mp made
  rw [← BootConfig.entries, unmade] at made
  obtain ⟨rfl, rfl⟩ := made
  obtain ⟨rfl, rfl⟩ := answer
  obtain ⟨rfl, rfl⟩ := rest
  have said := (tells_say rfl _ _ banner).append
    ((tells_say rfl _ _ parsing).append (tells_showDec rfl _ _ _ found))
  simp only [List.append_nil] at said ⊢
  exact ⟨trivial, _, said⟩

/-! ### After the steps -/

/-- The calls of the tests. -/
def tested (page : Option (BitVec 64)) (freed created : Bool) : Trace :=
  ⟨.allocatePage, page⟩ :: page.toList.map (fun address => ⟨.freePage address, freed⟩) ++
    [⟨.createProcess ("test_process".toList.map ascii) .normal, created⟩]

theorem testMemoryAllocation_part {t : Trace} {u : Unit} (does : testMemoryAllocation.Does t u) :
    ∃ n page freed, Part t n [] (⟨.allocatePage, page⟩ ::
      page.toList.map fun address => ⟨.freePage address, freed⟩) := by
  obtain ⟨⟨⟩, t₁, _, rfl, testing, allocation⟩ := does_bind.mp does
  obtain ⟨page, t₂, rfl, used⟩ := does_ask_bind.mp allocation
  have asked := (tells_say rfl _ _ testing).append
    (part_control (e := ⟨.allocatePage, page⟩) rfl)
  cases page with
  | none =>
      have part := asked.append (tells_say rfl _ _ used)
      exact ⟨_, none, false, by simpa using part⟩
  | some address =>
      obtain ⟨⟨⟩, t₂, _, rfl, allocated, release⟩ := does_bind.mp used
      obtain ⟨(freed : Bool), t₃, rfl, result⟩ := does_ask_bind.mp release
      have part := asked.append ((tells_showHex rfl _ _ _ allocated).append
        ((part_control (e := ⟨.freePage address, freed⟩) rfl).append
          (tells_ite (tells_say rfl) (tells_say rfl) _ _ result)))
      exact ⟨_, some address, freed, by simpa using part⟩

theorem testProcessCreation_part {t : Trace} {u : Unit} (does : testProcessCreation.Does t u) :
    ∃ n created, Part t n []
      [⟨.createProcess ("test_process".toList.map ascii) .normal, created⟩] := by
  obtain ⟨⟨⟩, t₁, _, rfl, testing, creation⟩ := does_bind.mp does
  obtain ⟨(created : Bool), t₂, rfl, result⟩ := does_ask_bind.mp creation
  have part := (tells_say rfl _ _ testing).append ((part_control
    (e := ⟨.createProcess ("test_process".toList.map ascii) .normal, created⟩) rfl).append
    (tells_ite (tells_say rfl) (tells_say rfl) _ _ result))
  exact ⟨_, created, by simpa using part⟩

theorem runAllTests_part {t : Trace} {u : Unit} (does : runAllTests.Does t u) :
    ∃ n page freed created, Part t n [] (tested page freed created) := by
  obtain ⟨⟨⟩, t₁, _, rfl, header, rest₁⟩ := does_bind.mp does
  obtain ⟨⟨⟩, t₂, _, rfl, memory, rest₂⟩ := does_bind.mp rest₁
  obtain ⟨⟨⟩, t₃, t₄, rfl, process, footer⟩ := does_bind.mp rest₂
  obtain ⟨n, page, freed, allocation⟩ := testMemoryAllocation_part memory
  obtain ⟨m, created, creation⟩ := testProcessCreation_part process
  have part := (tells_say rfl _ _ header).append (allocation.append
    (creation.append (tells_say rfl _ _ footer)))
  exact ⟨_, page, freed, created, by simpa [tested] using part⟩

theorem start_part {t : Trace} {u : Unit} (does : start.Does t u) :
    ∃ n page freed created, Part t n []
      (⟨.setInitialized, ()⟩ :: tested page freed created ++ [⟨.sti, ()⟩]) := by
  obtain ⟨⟨⟩, t₁, rfl, rest₁⟩ := does_ask_bind.mp does
  obtain ⟨⟨⟩, t₁, _, rfl, color, rest₂⟩ := does_bind.mp rest₁
  obtain ⟨⟨⟩, t₂, _, rfl, complete, rest₃⟩ := does_bind.mp rest₂
  obtain ⟨⟨⟩, t₃, _, rfl, ran, rest₄⟩ := does_bind.mp rest₃
  obtain ⟨⟨⟩, t₄, _, rfl, enabling, rest₅⟩ := does_bind.mp rest₄
  obtain ⟨⟨⟩, t₅, rfl, rest₆⟩ := does_ask_bind.mp rest₅
  obtain ⟨⟨⟩, t₅, t₆, rfl, entering, running⟩ := does_bind.mp rest₆
  obtain ⟨n, page, freed, created, tests⟩ := runAllTests_part ran
  have part := (part_control (e := ⟨.setInitialized, ()⟩) rfl).append
    ((tells_setColor _ _ _ color).append ((tells_say rfl _ _ complete).append (tests.append
      ((tells_say rfl _ _ enabling).append ((part_control (e := ⟨.sti, ()⟩) rfl).append
        ((tells_say rfl _ _ entering).append (tells_say rfl _ _ running)))))))
  exact ⟨_, page, freed, created, by simpa using part⟩

/-- What `kernel_panic` prints. -/
def panicCalls : List Console.Call :=
  [.setColor 0x0C#8, .op (.print ("\n*** KERNEL PANIC ***\n".toList.map ascii)),
    .op (.print ("System initialization failed.\n".toList.map ascii)),
    .op (.print ("System halted.\n".toList.map ascii))]

theorem does_kernelPanic {t : Trace} {u : Unit} (does : kernelPanic.Does t u) :
    t = said panicCalls ++ [⟨.cli, ()⟩] := by
  simp only [kernelPanic, say, print, setColor, does_console_bind] at does
  obtain ⟨_, rfl, _, rfl, _, rfl, _, rfl, ⟨⟩, _, rfl, rfl, -⟩ := does
  rfl

theorem part_panicCalls : Part (said panicCalls) 4 [] [] :=
  ((tells_setColor 0x0C#8).bind (f := fun _ => say "\n*** KERNEL PANIC ***\n") (tells_say rfl)
    |>.bind (f := fun _ => say "System initialization failed.\n") (tells_say rfl)
    |>.bind (f := fun _ => say "System halted.\n") (tells_say rfl)) _ ()
    ⟨(), _, rfl, (), _, rfl, (), _, rfl, (), _, rfl, rfl, rfl⟩

/-! ### `kernel_main64` -/

/-- What the kernel does to its subsystems and to the processor, and how it ends. -/
inductive Boots (config : BootConfig) : Trace → Status → Prop where
  | faulted (unmade : config.descriptorSize = 0#64 ∨ config.entries = none) :
      Boots config [] .faulted
  | failed {entries : List MemoryMapEntry} (made : config.entries = some entries)
      {done later : List Subsystem} {s : Subsystem} (split : order entries = done ++ s :: later) :
      Boots config (done.map (Subsystem.tried true) ++ [s.tried false, ⟨.cli, ()⟩]) .failed
  | succeeded {entries : List MemoryMapEntry} (made : config.entries = some entries)
      (page : Option (BitVec 64)) (freed created : Bool) :
      Boots config ((order entries).map (Subsystem.tried true) ++
        ⟨.setInitialized, ()⟩ :: tested page freed created ++ [⟨.sti, ()⟩]) .succeeded

/-- Bringing the system up is what `Boots` says, when there is a memory map. -/
theorem bringUp_part (divides : config.descriptorSize ≠ 0#64) {t : Trace} {status : Status}
    (does : (bringUp config).Does t status) : ∃ n cs, Part t n [] cs ∧ Boots config cs status ∧
      (status = .succeeded → 11 ≤ n) := by
  obtain ⟨⟨⟩, t₁, _, rfl, color, rest₁⟩ := does_bind.mp does
  obtain ⟨⟨⟩, t₂, _, rfl, banner, rest₂⟩ := does_bind.mp rest₁
  obtain ⟨status', t₃, _, rfl, steps, rest₃⟩ := does_bind.mp rest₂
  obtain ⟨⟨⟩, t₄, _, rfl, approach, rfl, rfl⟩ := does_bind.mp rest₃
  have opening := (tells_setColor _ _ _ color).append (tells_say rfl _ _ banner)
  cases made : config.entries with
  | none =>
      obtain ⟨rfl, n, part⟩ := initializeSubsystems_faults divides made steps
      obtain ⟨rfl, -⟩ := approach
      exact ⟨_, [], by simpa using opening.append part, .faulted (.inr made),
        fun all => by cases all⟩
  | some entries =>
      obtain ⟨n, cs, part, attempts, lines⟩ := tries_initializeSubsystems divides made _ _ steps
      cases status with
      | succeeded =>
          obtain ⟨m, page, freed, created, started⟩ := start_part approach
          obtain rfl := attempts.succeeded
          have whole := opening.append (part.append started)
          have boots := Boots.succeeded made page freed created
          simp only [List.append_nil, List.nil_append, List.append_assoc] at whole boots ⊢
          refine ⟨_, _, whole, boots, fun _ => ?_⟩
          show 11 ≤ 0 + 1 + (n + m)
          have := lines rfl
          omega
      | failed =>
          obtain ⟨done, s, later, split, rfl⟩ := attempts.exists_failed
          have panicked := part_panicCalls.append (part_control (e := ⟨.cli, ()⟩) rfl)
          rw [← does_kernelPanic approach] at panicked
          have whole := opening.append (part.append panicked)
          simp only [List.append_nil, List.nil_append, List.append_assoc] at whole ⊢
          exact ⟨_, _, whole, .failed made split, fun all => by cases all⟩
      | faulted => exact absurd attempts Attempts.not_faulted

/-- `kernel_main64` clears the screen first. Its text fits, and it calls what `Boots` says. -/
theorem kernelMain64_part {t : Trace} {status : Status}
    (does : (kernelMain64 config).Does t status) :
    ∃ t' n last cs, t = ⟨.clearScreen, ()⟩ :: t' ∧ Part t' n last cs ∧ Boots config cs status ∧
      (status = .succeeded → 25 ≤ n ∧ last = []) := by
  obtain ⟨⟨⟩, t₀, rfl, rest₁⟩ := does_ask_bind.mp does
  obtain ⟨⟨⟩, t₁, _, rfl, color, rest₂⟩ := does_bind.mp rest₁
  obtain ⟨⟨⟩, t₂, _, rfl, welcomed, rest₃⟩ := does_bind.mp rest₂
  obtain ⟨⟨⟩, t₃, _, rfl, shown, rest₄⟩ := does_bind.mp rest₃
  have opening := (tells_setColor _ _ _ color).append ((tells_welcome _ _ welcomed).append
    (tells_displayKernel config _ _ shown))
  obtain ⟨⟨⟩, t₄, _, rfl, label, rest₅⟩ := does_bind.mp rest₄
  rw [does_ite] at rest₅
  rcases rest₅ with ⟨zero, rfl, rfl⟩ | ⟨divides, rest₆⟩
  · have whole := opening.append (part_start rfl (by decide) label)
    simp only [List.append_nil, List.append_assoc] at whole ⊢
    exact ⟨_, _, _, _, rfl, whole, .faulted (.inl zero), fun all => by cases all⟩
  · obtain ⟨⟨⟩, t₅, _, rfl, number, rest₇⟩ := does_bind.mp rest₆
    obtain ⟨⟨⟩, t₆, _, rfl, unit, rest₈⟩ := does_bind.mp rest₇
    obtain ⟨⟨⟩, t₇, t₈, rfl, framebuffer, up⟩ := does_bind.mp rest₈
    have mapLine := tells_showDec rfl _ _ () (does_bind.mpr
      ⟨(), t₄, _, rfl, label, does_bind.mpr ⟨(), t₅, t₆, rfl, number, unit⟩⟩)
    obtain ⟨k, some, tells⟩ := displayFramebuffer_tells config
    obtain ⟨n, cs, part, boots, lines⟩ := bringUp_part divides up
    have whole := opening.append (mapLine.append ((tells _ _ framebuffer).append part))
    simp only [List.append_nil, List.nil_append, List.append_assoc] at whole ⊢
    refine ⟨_, _, _, cs, rfl, whole, boots, fun all => ⟨?_, rfl⟩⟩
    have := lines all
    omega

/-- **The kernel brings its subsystems up in order**, whatever they answer. -/
theorem kernelMain64_boots (E : Environment services) (s : E.State) :
    Boots config (controls ((kernelMain64 config).transcript E s))
      ((kernelMain64 config).run E s).value := by
  obtain ⟨t, n, last, cs, same, part, boots, -⟩ := kernelMain64_part (does_transcript E _ s)
  rw [same]
  exact part.controls.symm ▸ boots

end

end ModernOS.Kernel
