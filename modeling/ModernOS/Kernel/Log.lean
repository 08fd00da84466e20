import ModernOS.Kernel.Model
import ModernOS.Console.Decimal

/-!
What the kernel prints, and what it does besides.

`Part` describes a piece of a transcript: the lines that it prints, the line that it leaves
unfinished, and its calls to the subsystems and to the processor. Every line fits into the width
of the screen, whatever the numbers in it are.
-/

namespace ModernOS.Kernel

open Console (Byte Line Printable ascii hexString decString)
open Program

/-! ### Text in lines -/

/-- The text is made of `n` lines that fit, and `last` follows them. -/
def Written (str : List Byte) (n : ℕ) (last : Line) : Prop :=
  ∃ ls : List Line, ls.length = n ∧ (∀ l ∈ ls ++ [last], l.Fits) ∧
    str = ls.flatMap (· ++ [ascii '\n']) ++ last

theorem Line.Fits.nil : Line.Fits [] := ⟨fun _ mem => absurd mem List.not_mem_nil, by decide⟩

theorem written_nil : Written [] 0 [] := ⟨[], rfl, by simp [Line.Fits.nil], rfl⟩

theorem written_start {last : Line} (fits : last.Fits) : Written last 0 last :=
  ⟨[], rfl, by simpa using fits, rfl⟩

theorem written_line {l : Line} (fits : l.Fits) : Written (l ++ [ascii '\n']) 1 [] :=
  ⟨[l], rfl, by simp [fits, Line.Fits.nil], by simp⟩

theorem Written.append {str str' : List Byte} {m n : ℕ} {last : Line} (first : Written str m [])
    (second : Written str' n last) : Written (str ++ str') (m + n) last := by
  obtain ⟨ls, rfl, fits, rfl⟩ := first
  obtain ⟨ls', rfl, fits', rfl⟩ := second
  refine ⟨ls ++ ls', List.length_append, fun l mem => ?_, by simp⟩
  rw [List.append_assoc] at mem
  rcases List.mem_append.mp mem with before | after
  · exact fits l (List.mem_append_left _ before)
  · exact fits' l after

theorem intercalate_concat (ls : List Line) (last : Line) :
    [ascii '\n'].intercalate (ls ++ [last]) = ls.flatMap (· ++ [ascii '\n']) ++ last := by
  induction ls with
  | nil => exact List.intercalate_singleton
  | cons l ls ih =>
      have nonempty : ls ++ [last] ≠ [] := by simp
      rw [List.cons_append, List.intercalate_cons_of_ne_nil nonempty, ih]
      simp

/-- The lines of a text. -/
theorem Written.splitOn {str : List Byte} {n : ℕ} {last : Line} (written : Written str n last) :
    ∃ ls : List Line, ls.length = n ∧ (∀ l ∈ ls ++ [last], l.Fits) ∧
      str.splitOn (ascii '\n') = ls ++ [last] := by
  obtain ⟨ls, length, fits, rfl⟩ := written
  refine ⟨ls, length, fits, ?_⟩
  rw [← intercalate_concat]
  refine List.splitOn_intercalate _ (fun l mem newline => ?_) (by simp)
  exact absurd ((fits l mem).printable _ newline) (by decide)

/-- A character of a line, in the source. -/
def Plain (c : Char) : Bool := 32 ≤ c.toNat && c.toNat ≤ 126

theorem printable_ascii {c : Char} (plain : Plain c) : Printable (ascii c) := by
  simp only [Plain, Bool.and_eq_true, decide_eq_true_eq] at plain
  have value : (ascii c).toNat = c.toNat := by
    rw [ascii, BitVec.toNat_ofNat]
    omega
  rw [Console.printable_iff, value]
  omega

/-- The number of the lines that a literal ends, when it starts in a column up to `column`. There
is none if it does not end with a line end or does not fit. -/
def countLines (column : ℕ) : List Char → Option ℕ
  | [] => if column = 0 then some 0 else none
  | c :: cs =>
      if c = '\n' then (countLines 0 cs).map (· + 1)
      else if Plain c && column < Console.VGA_WIDTH then countLines (column + 1) cs
      else none

theorem written_of_countLines {cs : List Char} {column n : ℕ}
    (counted : countLines column cs = some n) {l : Line} (printable : ∀ c ∈ l, Printable c)
    (narrow : l.length ≤ column)
    (inside : column ≤ Console.VGA_WIDTH) : Written (l ++ cs.map ascii) n [] := by
  induction cs generalizing column n l with
  | nil =>
      rw [countLines] at counted
      split at counted
      · obtain rfl : l = [] := List.eq_nil_of_length_eq_zero (by omega)
        obtain rfl := Option.some.inj counted
        exact written_nil
      · cases counted
  | cons c cs ih =>
      rw [countLines] at counted
      split at counted
      · obtain ⟨m, rest, rfl⟩ := Option.map_eq_some_iff.mp counted
        rename_i newline
        have tail := ih rest (l := []) (by simp) (Nat.le_refl 0) (Nat.zero_le _)
        have whole := (written_line (l := l) ⟨printable, narrow.trans inside⟩).append tail
        rw [Nat.add_comm] at whole
        subst newline
        simpa using whole
      split at counted
      · rename_i room
        simp only [Bool.and_eq_true, decide_eq_true_eq] at room
        have tail := ih counted (l := l ++ [ascii c]) (fun d mem => ?_) (by simpa using narrow)
          room.2
        · simpa using tail
        · rcases List.mem_append.mp mem with before | here
          · exact printable d before
          · rw [List.mem_singleton.mp here]
            exact printable_ascii room.1
      · cases counted

/-! ### Numbers in lines -/

theorem printable_digitChar {d : ℕ} (inside : d < 16) : Printable (Numeral.digitChar d) := by
  revert d
  decide

theorem hexString_printable (value : BitVec 64) : ∀ c ∈ hexString value, Printable c := by
  rw [Console.hexString_eq]
  refine List.forall_mem_cons.mpr ⟨by decide, List.forall_mem_cons.mpr ⟨by decide, fun c mem => ?_⟩⟩
  obtain ⟨d, digit, rfl⟩ := List.mem_map.mp mem
  exact printable_digitChar (Console.hexDigits_lt value digit)

theorem length_hexString (value : BitVec 64) : (hexString value).length = 18 := by
  rw [Console.hexString_eq, List.length_cons, List.length_cons, List.length_map,
    Console.length_hexDigits]

theorem decString_printable (value : BitVec 64) : ∀ c ∈ decString value, Printable c := by
  rw [Console.decString_eq_numeral, Numeral.numeral]
  split
  · decide
  · intro c mem
    obtain ⟨d, digit, rfl⟩ := List.mem_map.mp mem
    have small := Nat.digits_lt_base (by decide) (List.mem_reverse.mp digit)
    exact printable_digitChar (small.trans (by decide))

theorem length_decString_le (value : BitVec 64) : (decString value).length ≤ 20 := by
  rw [Console.decString_eq_numeral, Numeral.numeral]
  split
  · decide
  · rw [List.length_map, List.length_reverse]
    exact Console.length_digits_le value

/-- Literals around a number of at most `width` characters make a line with it. -/
def IsFrame (width : ℕ) (label rest : List Char) : Bool :=
  label.all Plain && label.length + width ≤ Console.VGA_WIDTH &&
    countLines (label.length + width) rest = some 1

theorem written_of_isFrame {label rest : List Char} {width : ℕ} (isFrame : IsFrame width label rest)
    {number : List Byte} (printable : ∀ c ∈ number, Printable c) (short : number.length ≤ width) :
    Written (label.map ascii ++ (number ++ rest.map ascii)) 1 [] := by
  simp only [IsFrame, Bool.and_eq_true, decide_eq_true_eq, List.all_eq_true] at isFrame
  obtain ⟨⟨plain, inside⟩, counted⟩ := isFrame
  rw [← List.append_assoc]
  refine written_of_countLines counted (fun c mem => ?_) ?_ inside
  · rcases List.mem_append.mp mem with before | digit
    · obtain ⟨c, literal, rfl⟩ := List.mem_map.mp before
      exact printable_ascii (plain c literal)
    · exact printable c digit
  · rw [List.length_append, List.length_map]
    omega

/-! ### Pieces of a transcript -/

/-- The piece prints `n` lines and starts `last`, and makes the calls `cs` besides. -/
structure Part (t : Trace) (n : ℕ) (last : Line) (cs : Trace) : Prop where
  written : Written (text t) n last
  controls : controls t = cs
  kept : ∀ e ∈ t, e.call ≠ .clearScreen

theorem controls_append (t t' : Trace) : Kernel.controls (t ++ t') =
    Kernel.controls t ++ Kernel.controls t' := List.filter_append ..

theorem controls_eq {t : Trace} (control : ∀ e ∈ t, IsControl e.call) : Kernel.controls t = t :=
  List.filter_eq_self.mpr control

theorem Part.append {t t' cs cs' : Trace} {m n : ℕ} {last : Line} (first : Part t m [] cs)
    (second : Part t' n last cs') : Part (t ++ t') (m + n) last (cs ++ cs') where
  written := by
    rw [text, List.flatMap_append]
    exact first.written.append second.written
  controls := by rw [controls_append, first.controls, second.controls]
  kept e mem := (List.mem_append.mp mem).elim (first.kept e) (second.kept e)

/-- Calls to the console. -/
def said (cs : List Console.Call) : Trace := cs.map fun c => ⟨.console c, ()⟩

theorem controls_said (cs : List Console.Call) : controls (said cs) = [] := by
  rw [controls, said, List.filter_map, List.map_eq_nil_iff, List.filter_eq_nil_iff]
  exact fun c _ => Bool.false_ne_true

theorem part_said {cs : List Console.Call} {n : ℕ} {last : Line}
    (written : Written (cs.flatMap Console.Call.text) n last) : Part (said cs) n last [] where
  written := by
    rw [text, said, List.flatMap_map]
    exact written
  controls := controls_said cs
  kept e mem := by
    obtain ⟨c, -, rfl⟩ := List.mem_map.mp mem
    exact Call.noConfusion

/-- A call that is not one to the console. -/
theorem part_control {e : Exchange services} (control : IsControl e.call) : Part [e] 0 [] [e] where
  written := by
    obtain ⟨call, answer⟩ := e
    cases call <;> first | exact written_nil | exact absurd control Bool.false_ne_true
  controls := List.filter_cons_of_pos control
  kept e' mem clear := by
    rw [List.mem_singleton.mp mem] at clear
    rw [clear] at control
    exact absurd control Bool.false_ne_true

section

variable {α : Type} {t : Trace} {a : α} {u : Unit}

theorem does_ask_bind {c : Call} {f : Result c → Code α} :
    (ask c >>= f).Does t a ↔ ∃ r rest, t = ⟨c, r⟩ :: rest ∧ (f r).Does rest a := Iff.rfl

theorem does_console_bind {c : Console.Call} {f : Unit → Code α} :
    (console c >>= f).Does t a ↔ ∃ rest, t = ⟨.console c, ()⟩ :: rest ∧ (f ()).Does rest a :=
  ⟨fun ⟨_, rest, same, does⟩ => ⟨rest, same, does⟩,
    fun ⟨rest, same, does⟩ => ⟨(), rest, same, does⟩⟩

theorem does_console {c : Console.Call} : (console c).Does t u ↔ t = said [c] := by
  constructor
  · rintro ⟨_, rest, rfl, rfl, -⟩
    rfl
  · rintro rfl
    exact ⟨(), [], rfl, rfl, rfl⟩

/-! ### Code that only prints -/

/-- The code prints `n` lines and does nothing else. -/
def Tells (p : Code Unit) (n : ℕ) : Prop := ∀ t u, p.Does t u → Part t n [] []

theorem Tells.bind {p : Code Unit} {f : Unit → Code Unit} {m n : ℕ} (first : Tells p m)
    (second : Tells (f ()) n) : Tells (p >>= f) (m + n) := by
  intro t u does
  obtain ⟨⟨⟩, t₁, t₂, rfl, does₁, does₂⟩ := does_bind.mp does
  exact (first _ _ does₁).append (second _ _ does₂)

theorem tells_ite {b : Prop} [Decidable b] {p q : Code Unit} {n : ℕ} (first : Tells p n)
    (second : Tells q n) : Tells (if b then p else q) n := by
  split
  · exact first
  · exact second

/-- A literal. -/
theorem tells_say {cs : List Char} {n : ℕ} (counted : countLines 0 cs = some n) :
    Tells (say (String.ofList cs)) n := by
  intro t u does
  rw [does_console.mp does, String.toList_ofList]
  refine part_said ?_
  rw [List.flatMap_singleton]
  exact written_of_countLines counted (l := []) (by simp) (Nat.le_refl 0) (Nat.zero_le _)

/-- A literal that starts a line. -/
theorem part_start {cs : List Char} (plain : cs.all Plain) (short : cs.length ≤ Console.VGA_WIDTH)
    (does : (say (String.ofList cs)).Does t u) : Part t 0 (cs.map ascii) [] := by
  rw [does_console.mp does, String.toList_ofList]
  refine part_said ?_
  rw [List.flatMap_singleton]
  refine written_start ⟨fun c mem => ?_, (List.length_map ascii).trans_le short⟩
  obtain ⟨c, literal, rfl⟩ := List.mem_map.mp mem
  exact printable_ascii (List.all_eq_true.mp plain c literal)

theorem tells_setColor (color : Byte) : Tells (setColor color) 0 := by
  intro t u does
  rw [does_console.mp does]
  exact part_said written_nil

theorem tells_showHex {label : List Char} (isFrame : IsFrame 18 label ['\n'])
    (value : BitVec 64) : Tells (showHex (String.ofList label) value) 1 := by
  intro t u does
  simp only [showHex, say, print, printHex, does_console_bind, does_console] at does
  obtain ⟨_, rfl, _, rfl, rfl⟩ := does
  refine @part_said [_, _, _] _ _ ?_
  have line := written_of_isFrame isFrame (hexString_printable value) (length_hexString value).le
  simpa [Console.Call.text, Console.Op.text] using line

theorem tells_showDec {label rest : List Char} (isFrame : IsFrame 20 label rest)
    (value : BitVec 64) : Tells (showDec (String.ofList label) value (String.ofList rest)) 1 := by
  intro t u does
  simp only [showDec, say, print, printDec, does_console_bind, does_console] at does
  obtain ⟨_, rfl, _, rfl, rfl⟩ := does
  refine @part_said [_, _, _] _ _ ?_
  have line := written_of_isFrame isFrame (decString_printable value) (length_decString_le value)
  simpa [Console.Call.text, Console.Op.text] using line

theorem tells_welcome : Tells welcome 8 := by
  show Tells welcome (1 + (1 + (1 + (1 + (1 + (1 + 2))))))
  unfold welcome
  iterate 6 refine Tells.bind (tells_say rfl) ?_
  exact tells_say rfl

theorem tells_displayKernel (config : BootConfig) : Tells (displayKernel config) 4 := by
  show Tells (displayKernel config) (1 + (1 + (1 + 1)))
  unfold displayKernel
  refine Tells.bind (tells_say rfl) ?_
  refine Tells.bind (tells_showHex rfl _) ?_
  exact Tells.bind (tells_showHex rfl _) (tells_showDec rfl _)

theorem displayFramebuffer_tells (config : BootConfig) :
    ∃ n, 1 ≤ n ∧ Tells (displayFramebuffer config) n := by
  unfold displayFramebuffer
  split
  · exact ⟨1 + 1, by decide,
      Tells.bind (tells_showHex rfl _) (tells_say rfl)⟩
  · exact ⟨1, le_rfl, tells_say rfl⟩

end

end ModernOS.Kernel
