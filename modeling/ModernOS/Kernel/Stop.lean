import ModernOS.Kernel.Order

/-!
How the kernel stops.

An exception, a call of `panic` and a failed start all end in the same way: a message in light red,
`cli`, and `hlt` for ever. The message starts with a line end, so that it can be read whatever was
on the screen and wherever the cursor was.
-/

namespace ModernOS.Kernel

open Console (Byte Line Reads ascii hexString)
open Program Transition

/-- A literal of the source. -/
def literal (str : String) : Line := str.toList.map ascii

theorem literal_ofList (cs : List Char) : literal (String.ofList cs) = cs.map ascii := by
  rw [literal, String.toList_ofList]

/-- The line end at the end of a literal. -/
theorem literal_ended {cs ds : List Char} (same : ds = cs ++ ['\n']) :
    literal (String.ofList ds) = literal (String.ofList cs) ++ [ascii '\n'] := by
  rw [same, literal_ofList, literal_ofList, List.map_append]
  rfl

/-- The line end at the start of a literal. -/
theorem literal_started {cs ds : List Char} (same : ds = '\n' :: cs) :
    literal (String.ofList ds) = ascii '\n' :: literal (String.ofList cs) := by
  rw [same, literal_ofList, literal_ofList, List.map_cons]

theorem literal_panic : literal "\n*** KERNEL PANIC ***\n" =
    ascii '\n' :: (literal "*** KERNEL PANIC ***" ++ [ascii '\n']) :=
  (literal_started rfl).trans (congrArg (ascii '\n' :: ·) (literal_ended rfl))

theorem literal_halted :
    literal "System halted.\n" = literal "System halted." ++ [ascii '\n'] := literal_ended rfl

theorem fits_label {cs : List Char} (plain : cs.all Plain) {l : List Byte}
    (printable : ∀ c ∈ l, Console.Printable c) (short : cs.length + l.length ≤ Console.VGA_WIDTH) :
    Line.Fits (literal (String.ofList cs) ++ l) := by
  rw [literal_ofList]
  refine ⟨fun c mem => ?_, by rwa [List.length_append, List.length_map]⟩
  rcases List.mem_append.mp mem with before | after
  · obtain ⟨c, here, rfl⟩ := List.mem_map.mp before
    exact printable_ascii (List.all_eq_true.mp plain c here)
  · exact printable c after

theorem fits_literal {cs : List Char} (plain : cs.all Plain)
    (short : cs.length ≤ Console.VGA_WIDTH) : Line.Fits (literal (String.ofList cs)) := by
  rw [← List.append_nil (literal _)]
  exact fits_label plain (by simp) short

/-- The end of the transcript is a message that is read on the screen, whatever the console has
done before, and then interrupts are off and the processor only halts. -/
def StopsWith (t : Trace) (message : List Line) : Prop :=
  ∃ before after halts, t = before ++ after ∧
    (∀ s, ∃ top, Reads (screen s after) 0x0C#8 top message) ∧
    controls after = ⟨.cli, ()⟩ :: List.replicate halts ⟨.hlt, ()⟩

theorem screen_append (s : Console.State) (t t' : Trace) :
    screen s (t ++ t') = screen (screen s t) t' := List.foldl_append

theorem screen_said (s : Console.State) (cs : List Console.Call) :
    screen s (said cs) = run Console.call s cs := List.foldl_map

/-- Calls that are none to the console leave the screen. -/
theorem screen_controls {t : Trace} (silent : ∀ e ∈ t, IsControl e.call) (s : Console.State) :
    screen s t = s := by
  induction t with
  | nil => rfl
  | cons e t ih =>
      obtain ⟨here, later⟩ := List.forall_mem_cons.mp silent
      have same : onConsole s e.call = s := by
        obtain ⟨call, answer⟩ := e
        cases call <;> first | rfl | exact absurd here Bool.false_ne_true
      show screen (onConsole s e.call) t = s
      rw [same]
      exact ih later

theorem run_call_ops (s : Console.State) (ops : List Console.Op) :
    run Console.call s (ops.map .op) = Console.print (ops.flatMap Console.Op.text) s := by
  induction ops generalizing s with
  | nil => rfl
  | cons op ops ih =>
      rw [List.map_cons, run_cons, ih, List.flatMap_cons, Console.call, Console.step_eq_print]
      exact List.foldl_append.symm

theorem does_halt {n : ℕ} {t : Trace} {u : Unit} (does : (halt n).Does t u) :
    t = List.replicate n ⟨.hlt, ()⟩ := by
  induction n generalizing t with
  | zero => exact does.1
  | succ n ih =>
      obtain ⟨⟨⟩, rest, rfl, halts⟩ := does_ask_bind.mp does
      rw [ih halts]
      rfl

/-- `cli`, and then the loop. -/
def haltsFor (n : ℕ) : Trace := ⟨.cli, ()⟩ :: List.replicate n ⟨.hlt, ()⟩

theorem haltsFor_control (n : ℕ) : ∀ e ∈ haltsFor n, IsControl e.call := by
  refine List.forall_mem_cons.mpr ⟨rfl, fun e mem => ?_⟩
  rw [List.eq_of_mem_replicate mem]
  rfl

/-- Calls that print the message in light red, and then the loop. -/
theorem stopsWith_of_message (before : Trace) {ops : List Console.Op} {message : List Line}
    (text : ops.flatMap Console.Op.text = Console.below message)
    (few : message.length ≤ Console.VGA_HEIGHT) (fits : ∀ l ∈ message, l.Fits) (n : ℕ) :
    StopsWith (before ++ (said (.setColor 0x0C#8 :: ops.map .op) ++ haltsFor n)) message := by
  refine ⟨before, _, n, rfl, fun s => ?_, ?_⟩
  · rw [screen_append, screen_controls (haltsFor_control n), screen_said, run_cons, run_call_ops,
      text]
    exact Console.message_visible (Console.setColor 0x0C#8 s) message few fits
  · rw [controls_append, controls_said, controls_eq (haltsFor_control n)]
    rfl

/-! ### The three ways -/

section

variable (E : Environment services) (s : E.State) (n : ℕ)

/-- The message of `handle_exception`. -/
def exceptionMessage (interruptFrame : BitVec 64) : List Line :=
  [literal "*** KERNEL PANIC ***", literal "Exception occurred at: " ++ hexString interruptFrame,
    literal "System halted.", []]

theorem exceptionMessage_fits (interruptFrame : BitVec 64) :
    ∀ l ∈ exceptionMessage interruptFrame, l.Fits := by
  have address : Line.Fits (literal "Exception occurred at: " ++ hexString interruptFrame) :=
    fits_label rfl (hexString_printable _) (by rw [length_hexString]; decide)
  simp only [exceptionMessage, List.forall_mem_cons]
  exact ⟨fits_literal rfl (by decide), address, fits_literal rfl (by decide), Line.Fits.nil,
    by simp⟩

/-- The message of `panic`. -/
def panicMessage (message : List Line) : List Line :=
  literal "*** KERNEL PANIC ***" :: message ++ [literal "System halted.", []]

/-- `Kernel::panic`, with a message of at most 22 lines that fit. -/
theorem panic_stops (message : List Byte)
    (fits : ∀ l ∈ message.splitOn (ascii '\n'), Line.Fits l)
    (few : (message.splitOn (ascii '\n')).length ≤ 22) :
    StopsWith ((panic message >>= fun _ => halt n).transcript E s)
      (panicMessage (message.splitOn (ascii '\n'))) := by
  obtain ⟨⟨⟩, t₁, t₂, same, stops, halts⟩ := does_bind.mp
    (does_transcript E (panic message >>= fun _ => halt n) s)
  simp only [panic, say, print, setColor, does_console_bind] at stops
  obtain ⟨_, rfl, _, rfl, _, rfl, _, rfl, ⟨⟩, _, rfl, rfl, -⟩ := stops
  rw [same, does_halt halts]
  obtain ⟨first, rest, split, lines⟩ := Console.exists_lines message
  have text : List.flatMap Console.Op.text
      [.print (literal "\n*** KERNEL PANIC ***\n"), .print message,
        .print (literal "\nSystem halted.\n")] =
      Console.below (panicMessage (message.splitOn (ascii '\n'))) := by
    have halted : literal "\nSystem halted.\n" =
        ascii '\n' :: (literal "System halted." ++ [ascii '\n']) :=
      (literal_started rfl).trans (congrArg (ascii '\n' :: ·) literal_halted)
    rw [split, lines]
    simp [panicMessage, Console.below, Console.Op.text, literal_panic, halted]
  refine stopsWith_of_message [] text ?_ ?_ n
  · simp only [panicMessage, List.length_append, List.length_cons, List.length_nil]
    show _ ≤ 25
    omega
  · simp only [panicMessage, List.cons_append, List.forall_mem_cons, List.forall_mem_append]
    exact ⟨fits_literal rfl (by decide), fits, fits_literal rfl (by decide), Line.Fits.nil,
      by simp⟩

theorem panic_stops_message : StopsWith
    ((panic [ascii 'a'] >>= fun _ => halt 3).transcript (.const (answers true)) ())
    (panicMessage ([ascii 'a'].splitOn (ascii '\n'))) :=
  panic_stops (.const (answers true)) () 3 [ascii 'a'] (by decide) (by decide)

/-- The message of a failed start. -/
def startMessage : List Line :=
  [literal "*** KERNEL PANIC ***", literal "System initialization failed.",
    literal "System halted.", []]

/-- A start that fails ends at `kernel_panic`. -/
theorem kernelMain64_failed {config : BootConfig} {t : Trace}
    (does : (kernelMain64 config).Does t .failed) :
    ∃ before, t = before ++ (said panicCalls ++ [⟨.cli, ()⟩]) := by
  have bringUp_failed {t : Trace} (does : (bringUp config).Does t .failed) :
      ∃ before, t = before ++ (said panicCalls ++ [⟨.cli, ()⟩]) := by
    obtain ⟨_, t₁, _, rfl, -, rest₁⟩ := does_bind.mp does
    obtain ⟨_, t₂, _, rfl, -, rest₂⟩ := does_bind.mp rest₁
    obtain ⟨status, t₃, _, rfl, -, rest₃⟩ := does_bind.mp rest₂
    obtain ⟨_, t₄, _, rfl, approach, rfl, rfl⟩ := does_bind.mp rest₃
    rw [does_kernelPanic approach]
    exact ⟨t₁ ++ (t₂ ++ t₃), by simp⟩
  obtain ⟨_, t₀, _, rfl, -, rest₁⟩ := does_bind.mp does
  obtain ⟨_, t₁, _, rfl, -, rest₂⟩ := does_bind.mp rest₁
  obtain ⟨_, t₂, _, rfl, -, rest₃⟩ := does_bind.mp rest₂
  obtain ⟨_, t₃, _, rfl, -, rest₄⟩ := does_bind.mp rest₃
  obtain ⟨_, t₄, _, rfl, -, rest₅⟩ := does_bind.mp rest₄
  rw [does_ite] at rest₅
  rcases rest₅ with ⟨-, -, stopped⟩ | ⟨-, rest₆⟩
  · cases stopped
  obtain ⟨_, t₅, _, rfl, -, rest₇⟩ := does_bind.mp rest₆
  obtain ⟨_, t₆, _, rfl, -, rest₈⟩ := does_bind.mp rest₇
  obtain ⟨_, t₇, _, rfl, -, up⟩ := does_bind.mp rest₈
  obtain ⟨before, rfl⟩ := bringUp_failed up
  exact ⟨t₀ ++ (t₁ ++ (t₂ ++ (t₃ ++ (t₄ ++ (t₅ ++ (t₆ ++ (t₇ ++ before))))))), by simp⟩

/-- A start that fails. -/
theorem kernel_stops (config : BootConfig)
    (failed : ((kernel config n).run E s).value = .failed) :
    StopsWith ((kernel config n).transcript E s) startMessage := by
  have does := does_transcript E (kernel config n) s
  rw [failed] at does
  obtain ⟨status, t₁, _, same, main, rest⟩ := does_bind.mp does
  obtain ⟨⟨⟩, t₂, t₃, rfl, halts, rfl, rfl⟩ := does_bind.mp rest
  obtain ⟨before, rfl⟩ := kernelMain64_failed main
  have fits : ∀ l ∈ startMessage, l.Fits := by
    simp only [startMessage, List.forall_mem_cons]
    exact ⟨fits_literal rfl (by decide), fits_literal rfl (by decide),
      fits_literal rfl (by decide), Line.Fits.nil, by simp⟩
  have text : List.flatMap Console.Op.text [.print (literal "\n*** KERNEL PANIC ***\n"),
      .print (literal "System initialization failed.\n"), .print (literal "System halted.\n")] =
      Console.below startMessage := by
    have failed : literal "System initialization failed.\n" =
        literal "System initialization failed." ++ [ascii '\n'] := literal_ended rfl
    simp [startMessage, Console.below, Console.Op.text, literal_panic, failed, literal_halted]
  have stops := stopsWith_of_message before text (show 4 ≤ 25 by decide) fits n
  rw [same, does_halt halts]
  simp only [List.append_assoc, List.cons_append, List.nil_append, List.append_nil]
  exact stops

/-- A map without descriptors, and a memory manager that refuses it. -/
theorem kernel_stops_unready : StopsWith
    ((kernel ⟨⟨[], 0#64, 48#64⟩, 0#64, 0#64, 0#64, 0#64⟩ 3).transcript
      (.const (answers false)) ()) startMessage :=
  kernel_stops (.const (answers false)) () 3 ⟨⟨[], 0#64, 48#64⟩, 0#64, 0#64, 0#64, 0#64⟩
    (by with_unfolding_all rfl)

end

end ModernOS.Kernel
