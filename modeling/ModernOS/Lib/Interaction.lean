import Mathlib.Control.Basic

/-!
Programs that make calls to an environment.

A program is the tree of its calls: what it does after a call depends on the answer. An
environment answers a call from a state of its own, and `run` gives the value of a program, the
state it leaves and the calls it has made (`run_bind`).

`Meets A P Q` is the judgement that needs no environment: as long as the answers are allowed by
`A`, every call satisfies `P` and the value returned satisfies `Q`. It goes through a program by
`meets_bind`, and `Meets.run` is what it says about a run.
-/

/-- The calls of an interface, and the type of what each of them returns. -/
structure Interface where
  Call : Type
  Result : Call → Type

/-- A program over an interface. -/
inductive Program (I : Interface) (α : Type) where
  | ret (a : α)
  | call (c : I.Call) (next : I.Result c → Program I α)

/-- An environment that answers the calls of an interface. -/
structure Environment (I : Interface) where
  State : Type
  answer : State → (c : I.Call) → I.Result c × State

namespace Program

variable {I : Interface} {α β : Type}

def bind : Program I α → (α → Program I β) → Program I β
  | ret a, f => f a
  | call c next, f => call c fun r => (next r).bind f

instance : Monad (Program I) where
  pure := ret
  bind := bind

/-- Make a call and return its result. -/
def perform (c : I.Call) : Program I (I.Result c) := call c ret

@[simp] theorem call_bind (c : I.Call) (next : I.Result c → Program I α) (f : α → Program I β) :
    (call c next >>= f : Program I β) = call c fun r => next r >>= f := rfl

@[simp] theorem pure_eq (a : α) : (pure a : Program I α) = ret a := rfl

theorem bind_ret (p : Program I α) : (p >>= ret) = p := by
  induction p with
  | ret a => rfl
  | call c next ih => exact congrArg (call c) (funext ih)

theorem bind_assoc {γ : Type} (p : Program I α) (f : α → Program I β) (g : β → Program I γ) :
    (p >>= f >>= g) = p >>= fun a => f a >>= g := by
  induction p with
  | ret a => rfl
  | call c next ih => exact congrArg (call c) (funext ih)

instance : LawfulMonad (Program I) :=
  LawfulMonad.mk' (Program I) bind_ret (fun _ _ => rfl) bind_assoc

/-! ### Runs -/

/-- What a run of a program leads to. -/
structure Outcome (E : Environment I) (α : Type) where
  value : α
  state : E.State
  /-- The calls that were made, in order. -/
  calls : List I.Call

def run (E : Environment I) : Program I α → E.State → Outcome E α
  | ret a, s => ⟨a, s, []⟩
  | call c next, s =>
      let (r, s) := E.answer s c
      let o := (next r).run E s
      { o with calls := c :: o.calls }

variable {E : Environment I}

@[simp] theorem run_ret (a : α) (s : E.State) : (ret a : Program I α).run E s = ⟨a, s, []⟩ := rfl

theorem run_call (c : I.Call) (next : I.Result c → Program I α) (s : E.State) :
    (call c next).run E s =
      { (next (E.answer s c).1).run E (E.answer s c).2 with
        calls := c :: ((next (E.answer s c).1).run E (E.answer s c).2).calls } := rfl

/-- A run of one program after the other. -/
theorem run_bind (p : Program I α) (f : α → Program I β) (s : E.State) :
    (p >>= f).run E s =
      { (f (p.run E s).value).run E (p.run E s).state with
        calls := (p.run E s).calls ++ ((f (p.run E s).value).run E (p.run E s).state).calls } := by
  induction p generalizing s with
  | ret a => rfl
  | call c next ih => rw [call_bind, run_call, ih, run_call, List.cons_append]

/-! ### What holds whatever the answers are -/

/-- With answers that `A` allows, every call satisfies `P` and the value satisfies `Q`. -/
def Meets (A : (c : I.Call) → I.Result c → Prop) (P : I.Call → Prop) (Q : α → Prop) :
    Program I α → Prop
  | ret a => Q a
  | call c next => P c ∧ ∀ r, A c r → Meets A P Q (next r)

variable {A : (c : I.Call) → I.Result c → Prop} {P : I.Call → Prop} {Q : α → Prop}

theorem meets_ret {a : α} : Meets A P Q (ret a) ↔ Q a := Iff.rfl

theorem meets_call {c : I.Call} {next : I.Result c → Program I α} :
    Meets A P Q (call c next) ↔ P c ∧ ∀ r, A c r → Meets A P Q (next r) := Iff.rfl

theorem meets_ite {b : Prop} [Decidable b] {p q : Program I α} :
    Meets A P Q (if b then p else q) ↔ (b → Meets A P Q p) ∧ (¬ b → Meets A P Q q) := by
  by_cases holds : b <;> simp [holds]

theorem Meets.bind {R : β → Prop} {p : Program I α} {f : α → Program I β} (first : Meets A P Q p)
    (second : ∀ a, Q a → Meets A P R (f a)) : Meets A P R (p >>= f) := by
  induction p with
  | ret a => exact second a first
  | call c next ih => exact ⟨first.1, fun r allowed => ih r (first.2 r allowed)⟩

theorem Meets.mono {P' : I.Call → Prop} {Q' : α → Prop} {p : Program I α} (meets : Meets A P Q p)
    (calls : ∀ c, P c → P' c) (values : ∀ a, Q a → Q' a) : Meets A P' Q' p := by
  induction p with
  | ret a => exact values a meets
  | call c next ih => exact ⟨calls c meets.1, fun r allowed => ih r (meets.2 r allowed)⟩

/-- What a judgement says about a run in an environment whose answers are allowed. -/
theorem Meets.run {p : Program I α} (meets : Meets A P Q p)
    (allowed : ∀ s c, A c (E.answer s c).1) (s : E.State) :
    Q (p.run E s).value ∧ ∀ c ∈ (p.run E s).calls, P c := by
  induction p generalizing s with
  | ret a => exact ⟨meets, fun c mem => absurd mem List.not_mem_nil⟩
  | call c next ih =>
      obtain ⟨value, calls⟩ := ih _ (meets.2 _ (allowed s c)) (E.answer s c).2
      rw [run_call]
      refine ⟨value, fun c' mem => ?_⟩
      rcases List.mem_cons.mp mem with rfl | later
      · exact meets.1
      · exact calls c' later

end Program
