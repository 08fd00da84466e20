import ModernOS.Kernel.Stop

/-!
How long the kernel stays on its screen.

The log of a start fits into the width, whatever is in the boot configuration and whatever the
subsystems answer. The idle loop then prints a dot every million rounds and never ends the line.
The screen has been filled by then, so that the first dot that has to wrap is stored below its
last row (`kernel_onScreen_iff`). Nothing else is taken to print in the meantime.
-/

namespace ModernOS.Kernel

open Console (Byte Size Line OnScreen Overruns ascii)
open Program Transition CountedLoop

/-! ### The text on the screen -/

/-- The calls to the console but `clear_screen`. -/
def consoleCalls (t : Trace) : List Console.Call :=
  t.filterMap fun e => match e.call with
    | .console c => some c
    | _ => none

theorem text_eq (t : Trace) : text t = (consoleCalls t).flatMap Console.Call.text := by
  induction t with
  | nil => rfl
  | cons e t ih =>
      obtain ⟨call, answer⟩ := e
      cases call with
      | console c => exact congrArg (c.text ++ ·) ih
      | _ => exact ih

theorem screen_eq {t : Trace} (kept : ∀ e ∈ t, e.call ≠ .clearScreen) (s : Console.State) :
    screen s t = run Console.call s (consoleCalls t) := by
  induction t generalizing s with
  | nil => rfl
  | cons e t ih =>
      obtain ⟨here, later⟩ := List.forall_mem_cons.mp kept
      obtain ⟨call, answer⟩ := e
      cases call with
      | clearScreen => exact absurd rfl here
      | console c => exact ih later (Console.call s c)
      | _ => exact ih later s

theorem spacious_of_written {str : List Byte} {n : ℕ} {last : Line} (written : Written str n last) :
    Console.Spacious (.clear (ascii ' ')) str := by
  obtain ⟨ls, -, fits, split⟩ := written.splitOn
  obtain ⟨first, rest, split', rfl⟩ := Console.exists_lines str
  rw [← split, split'] at fits
  exact ⟨Console.everyStep_text fits (v := id) rfl Console.glyphAction_of_printable _ _ rfl,
    Console.plain_of_fits fits⟩

/-! ### Stores -/

theorem clearScreen_within {s : Console.State} (within : s.vga.Within OnScreen) :
    (Console.clearScreen s).vga.Within OnScreen := by
  unfold Console.clearScreen
  refine forRange_invariant (I := fun s : Console.State => s.vga.Within OnScreen)
    (fun i s _ inside within => ?_) within
  exact within.store (Console.onScreen_ofNat inside) _

/-- What has been stored stays stored. -/
theorem mem_stores_putchar {c : Byte} {s : Console.State} {i : Size} (mem : i ∈ s.vga.stores) :
    i ∈ (Console.putchar c s).vga.stores := by
  have advanced : i ∈ (Console.advance c s).vga.stores := by
    unfold Console.advance
    split
    · exact mem
    split
    · exact mem
    split
    · exact mem
    split
    · rw [Console.place_stores]
      exact List.mem_cons_of_mem _ mem
    · exact mem
  unfold Console.putchar
  dsimp only
  split
  · exact Console.scrollUp_mem_stores advanced
  · exact advanced

theorem mem_stores_onConsole {call : Call} {s : Console.State} {i : Size}
    (mem : i ∈ s.vga.stores) : i ∈ (onConsole s call).vga.stores := by
  cases call with
  | clearScreen =>
      show i ∈ (Console.clearScreen s).vga.stores
      unfold Console.clearScreen
      refine forRange_invariant (I := fun s : Console.State => i ∈ s.vga.stores)
        (fun _ _ _ _ mem => ?_) mem
      exact List.mem_cons_of_mem _ mem
  | console c =>
      cases c with
      | op o =>
          show i ∈ (Console.step s o).vga.stores
          rw [Console.step_eq_print]
          exact run_invariant (I := fun s : Console.State => i ∈ s.vga.stores)
            (fun _ _ mem => mem_stores_putchar mem) mem o.text
      | setColor color => exact mem
  | _ => exact mem

theorem mem_stores_screen {t : Trace} {s : Console.State} {i : Size} (mem : i ∈ s.vga.stores) :
    i ∈ (screen s t).vga.stores := by
  induction t generalizing s with
  | nil => exact mem
  | cons e t ih => exact ih (mem_stores_onConsole mem)

/-- A log whose lines fit is stored on the screen. -/
theorem screen_within {t : Trace} {n : ℕ} {last : Line} {cs : Trace} (part : Part t n last cs)
    {s : Console.State} (within : s.vga.Within OnScreen) :
    (screen s (⟨.clearScreen, ()⟩ :: t)).vga.Within OnScreen := by
  have spacious := spacious_of_written part.written
  rw [text_eq] at spacious
  have stays := ((Console.displays_clearScreen s).calls spacious).2
  show (screen (Console.clearScreen s) t).vga.Within OnScreen
  rw [screen_eq part.kept]
  exact stays (clearScreen_within within)

/-! ### The dots -/

/-- The dots that have been printed when the loop counter is `x`. -/
def dotsBelow (x : ℕ) : ℕ := (x + 999999) / 1000000

/-- The loop prints dots and does not clear the screen. -/
structure Dots (t : Trace) (k : ℕ) : Prop where
  text : text t = List.replicate k (ascii '.')
  kept : ∀ e ∈ t, e.call ≠ .clearScreen

theorem Dots.append {t t' : Trace} {j k : ℕ} (first : Dots t j) (second : Dots t' k) :
    Dots (t ++ t') (j + k) where
  text := by
    rw [Kernel.text, List.flatMap_append, List.replicate_add, ← first.text, ← second.text]
    rfl
  kept e mem := (List.mem_append.mp mem).elim (first.kept e) (second.kept e)

theorem idleRound_dots {loopCount : BitVec 64} {t : Trace} {next : BitVec 64}
    (does : (idleRound loopCount).Does t next) : next = loopCount + 1#64 ∧
      Dots t (if loopCount.toNat % 1000000 = 0 then 1 else 0) := by
  have zero : loopCount % 1000000#64 = 0#64 ↔ loopCount.toNat % 1000000 = 0 := by
    rw [← BitVec.toNat_inj, BitVec.toNat_umod]
    rfl
  have rest : Dots [⟨.yield, ()⟩, ⟨.hlt, ()⟩] 0 :=
    ⟨rfl, by simp⟩
  rw [idleRound, does_ite] at does
  rcases does with ⟨divides, does⟩ | ⟨other, does⟩
  · obtain ⟨t₁, rfl, ⟨⟩, t₂, rfl, ⟨⟩, t₃, rfl, rfl, rfl⟩ := does_console_bind.mp does
    rw [if_pos (zero.mp divides)]
    refine ⟨rfl, Dots.append (t := [_]) (j := 1) ⟨?_, ?_⟩ rest⟩
    · decide
    · simp
  · obtain ⟨⟨⟩, t₂, rfl, ⟨⟩, t₃, rfl, rfl, rfl⟩ := does
    rw [if_neg fun same => other (zero.mpr same)]
    exact ⟨rfl, rest⟩

theorem idle_dots {n : ℕ} {loopCount : BitVec 64} (room : loopCount.toNat + n < 2 ^ 64) {t : Trace}
    {u : Unit} (does : (idle n loopCount).Does t u) :
    Dots t (dotsBelow (loopCount.toNat + n) - dotsBelow loopCount.toNat) := by
  induction n generalizing loopCount t with
  | zero =>
      obtain ⟨rfl, -⟩ := does
      rw [Nat.add_zero, Nat.sub_self]
      exact ⟨rfl, by simp⟩
  | succ n ih =>
      obtain ⟨next, t₁, t₂, rfl, round, rest⟩ := does_bind.mp does
      obtain ⟨rfl, first⟩ := idleRound_dots round
      have count : (loopCount + 1#64).toNat = loopCount.toNat + 1 := by
        rw [BitVec.toNat_add, BitVec.toNat_ofNat]
        omega
      have later := ih (by omega) rest
      rw [count] at later
      have whole := first.append later
      convert whole using 1
      unfold dotsBelow
      split <;> omega

/-- The first rounds of the loop come before the others. -/
theorem does_idle_add {m k : ℕ} {loopCount : BitVec 64} {t : Trace} {u : Unit}
    (does : (idle (m + k) loopCount).Does t u) :
    ∃ t₁ t₂, t = t₁ ++ t₂ ∧ (idle m loopCount).Does t₁ () ∧
      (idle k (loopCount + BitVec.ofNat 64 m)).Does t₂ u := by
  induction m generalizing loopCount t with
  | zero =>
      rw [Nat.zero_add] at does
      exact ⟨[], t, rfl, ⟨rfl, rfl⟩, by rwa [BitVec.add_zero]⟩
  | succ m ih =>
      rw [Nat.add_right_comm] at does
      obtain ⟨next, t₁, t₂, rfl, round, rest⟩ := does_bind.mp does
      obtain ⟨t₃, t₄, rfl, first, last⟩ := ih rest
      have count : next + BitVec.ofNat 64 m = loopCount + BitVec.ofNat 64 (m + 1) := by
        rw [(idleRound_dots round).1, BitVec.add_assoc, Nat.add_comm m 1, BitVec.ofNat_add]
      exact ⟨t₁ ++ t₃, t₄, by simp, does_bind.mpr ⟨next, t₁, t₃, rfl, round, first⟩, count ▸ last⟩

/-- A line of dots. -/
theorem part_dots {t : Trace} {k : ℕ} (dots : Dots t k) (short : k ≤ Console.VGA_WIDTH) :
    Part t 0 (List.replicate k (ascii '.')) (controls t) where
  written := by
    rw [dots.text]
    refine written_start ⟨fun c mem => ?_, by rwa [List.length_replicate]⟩
    rw [List.eq_of_mem_replicate mem]
    decide
  controls := rfl
  kept := dots.kept

/-- Where the cursor is after a log. -/
theorem screen_cursor {t : Trace} {n : ℕ} {last : Line} {cs : Trace} (part : Part t n last cs)
    (s : Console.State) :
    (screen s (⟨.clearScreen, ()⟩ :: t)).cursorX.toNat = last.length ∧
      (screen s (⟨.clearScreen, ()⟩ :: t)).cursorY.toNat = min n 24 := by
  obtain ⟨ls, length, fits, split⟩ := part.written.splitOn
  show (screen (Console.clearScreen s) t).cursorX.toNat = _ ∧
    (screen (Console.clearScreen s) t).cursorY.toNat = _
  rw [text_eq] at split
  obtain ⟨-, row, column⟩ := Console.scrollback s (consoleCalls t) (by rwa [split])
  rw [screen_eq part.kept]
  rw [split] at row column
  refine ⟨column last (by simp), row.trans ?_⟩
  rw [List.length_append, length]
  rfl

/-- The dot that has to wrap is stored below the screen. -/
theorem screen_overruns {t : Trace} {n : ℕ} {last : Line} {cs : Trace} (part : Part t n last cs)
    (full : last.length = 80) (long : 24 ≤ n) (s : Console.State) (t' : Trace) :
    2000#64 ∈ (screen s (⟨.clearScreen, ()⟩ :: t ++
      ⟨.console (.op (.print (".".toList.map ascii))), ()⟩ :: t')).vga.stores := by
  have dot : ".".toList.map ascii = [ascii '.'] := by simp
  obtain ⟨column, row⟩ := screen_cursor part s
  rw [screen_append, dot]
  generalize screen s (⟨.clearScreen, ()⟩ :: t) = s' at column row
  have overruns : Overruns (ascii '.') s' :=
    ⟨by decide, (column.trans full).ge, row.trans (Nat.min_eq_right long)⟩
  show 2000#64 ∈ (screen (Console.putchar (ascii '.') s') t').vga.stores
  exact mem_stores_screen (Console.putchar_of_overruns overruns)

end ModernOS.Kernel
