import ModernOS.Lib.Interaction
import Mathlib.Data.List.Basic

/-!
Transcripts of programs.

A transcript lists the calls that a program has made, each with the answer that it got. `Does`
relates a program to its transcripts and to what it returns after them, without an environment: a
statement about every transcript is one about every sequence of answers. It goes through a program
by `does_bind` and its companions, and the transcript of a run is one of them (`does_transcript`).
-/

/-- A call and the answer to it. -/
structure Exchange (I : Interface) where
  call : I.Call
  answer : I.Result call

/-- What has been exchanged, in order. -/
abbrev Transcript (I : Interface) := List (Exchange I)

/-- The environment whose answer depends on the call only. -/
def Environment.const {I : Interface} (answer : (c : I.Call) → I.Result c) : Environment I where
  State := Unit
  answer _ c := (answer c, ())

namespace Program

variable {I : Interface} {α β : Type}

/-- The program makes the calls of the transcript, is given its answers and returns the value. -/
def Does : Program I α → Transcript I → α → Prop
  | ret a, t, b => t = [] ∧ b = a
  | call c next, t, b => ∃ r rest, t = ⟨c, r⟩ :: rest ∧ (next r).Does rest b

variable {t : Transcript I} {b : β}

theorem does_ret {a a' : α} : (ret a : Program I α).Does t a' ↔ t = [] ∧ a' = a := Iff.rfl

theorem does_call {c : I.Call} {next : I.Result c → Program I β} :
    (call c next).Does t b ↔ ∃ r rest, t = ⟨c, r⟩ :: rest ∧ (next r).Does rest b := Iff.rfl

theorem does_ite {cond : Prop} [Decidable cond] {p q : Program I β} :
    (if cond then p else q).Does t b ↔ cond ∧ p.Does t b ∨ ¬ cond ∧ q.Does t b := by
  by_cases holds : cond <;> simp [holds]

/-- The transcript of one program after the other. -/
theorem does_bind {p : Program I α} {f : α → Program I β} :
    (p >>= f).Does t b ↔ ∃ a t₁ t₂, t = t₁ ++ t₂ ∧ p.Does t₁ a ∧ (f a).Does t₂ b := by
  induction p generalizing t with
  | ret a =>
      constructor
      · intro does
        exact ⟨a, [], t, rfl, ⟨rfl, rfl⟩, does⟩
      · rintro ⟨a', t₁, t₂, rfl, ⟨rfl, rfl⟩, does⟩
        exact does
  | call c next ih =>
      rw [call_bind, does_call]
      constructor
      · rintro ⟨r, rest, rfl, does⟩
        obtain ⟨a, t₁, t₂, rfl, first, second⟩ := (ih r).mp does
        exact ⟨a, ⟨c, r⟩ :: t₁, t₂, rfl, ⟨r, t₁, rfl, first⟩, second⟩
      · rintro ⟨a, t₁, t₂, rfl, ⟨r, rest, rfl, first⟩, second⟩
        exact ⟨r, rest ++ t₂, rfl, (ih r).mpr ⟨a, rest, t₂, rfl, first, second⟩⟩

/-! ### Runs and judgements -/

variable (E : Environment I)

/-- The transcript of a run. -/
def transcript : Program I α → E.State → Transcript I
  | ret _, _ => []
  | call c next, s => ⟨c, (E.answer s c).1⟩ :: (next (E.answer s c).1).transcript (E.answer s c).2

theorem does_transcript (p : Program I α) (s : E.State) :
    p.Does (p.transcript E s) (p.run E s).value := by
  induction p generalizing s with
  | ret a => exact ⟨rfl, rfl⟩
  | call c next ih => exact ⟨_, _, rfl, ih _ _⟩

/-- What a judgement says about a transcript whose answers are allowed. -/
theorem Meets.does {A : (c : I.Call) → I.Result c → Prop} {P : I.Call → Prop} {Q : β → Prop}
    {p : Program I β} (meets : Meets A P Q p) (does : p.Does t b)
    (allowed : ∀ e ∈ t, A e.call e.answer) : Q b ∧ ∀ e ∈ t, P e.call := by
  induction p generalizing t with
  | ret a =>
      obtain ⟨rfl, rfl⟩ := does
      exact ⟨meets, fun e mem => absurd mem List.not_mem_nil⟩
  | call c next ih =>
      obtain ⟨r, rest, rfl, does⟩ := does
      obtain ⟨answered, later⟩ := List.forall_mem_cons.mp allowed
      obtain ⟨value, calls⟩ := ih r (meets.2 r answered) does later
      exact ⟨value, List.forall_mem_cons.mpr ⟨meets.1, calls⟩⟩

end Program
