import Mathlib.Data.Multiset.AddSub
import Mathlib.Data.Multiset.ZeroCons
import Mathlib.Data.Multiset.MapFold
import Mathlib.Algebra.BigOperators.Group.Multiset.Defs
import Mathlib.Algebra.Order.Group.Multiset
import Mathlib.Algebra.Order.Sub.Basic
import Mathlib.Tactic.Abel

/-!
Ledgers of resources.

The events of a run take resources, give them back and use them in between. A ledger is the
multiset of what is held; `after` is the ledger after some events, and there is none (`none`) when
an event uses or gives back what is not held. What is given back has been taken and is not given
back again: `balance` is the conservation law, so a run that ends with an empty ledger has given
back exactly what it took. A run is the sum of its parts (`Keeps.append`), since what is held
besides stays (`after_frame`).
-/

/-- What the events of a kind do to the resources. -/
structure Accounts (ε ρ : Type*) where
  /-- For each of these the event needs a held resource that satisfies it. -/
  needs : ε → List (ρ → Bool)
  frees : ε → Multiset ρ
  takes : ε → Multiset ρ

namespace Accounts

variable {ε ρ : Type*} [DecidableEq ρ] (A : Accounts ε ρ)

/-- The event needs and gives back only what is held. -/
def Ready (e : ε) (held : Multiset ρ) : Prop :=
  (∀ need ∈ A.needs e, ∃ r ∈ held, need r) ∧ A.frees e ≤ held

instance (e : ε) (held : Multiset ρ) : Decidable (A.Ready e held) :=
  have (need : ρ → Bool) : Decidable (∃ r ∈ held, need r) := Multiset.decidableExistsMultiset
  inferInstanceAs (Decidable ((∀ need ∈ A.needs e, ∃ r ∈ held, need r) ∧ A.frees e ≤ held))

/-- The ledger after some events. -/
def after : List ε → Multiset ρ → Option (Multiset ρ)
  | [], held => some held
  | e :: es, held =>
      if A.Ready e held then after es (A.takes e + (held - A.frees e)) else none

/-- What the events take. -/
def taken (es : List ε) : Multiset ρ := (es.map A.takes).sum

/-- What the events give back. -/
def freed (es : List ε) : Multiset ρ := (es.map A.frees).sum

variable {A} {es : List ε} {held held' : Multiset ρ}

@[simp] theorem after_nil : A.after [] held = some held := rfl

theorem after_cons {e : ε} :
    A.after (e :: es) held =
      if A.Ready e held then A.after es (A.takes e + (held - A.frees e)) else none := rfl

/-- An event that gives nothing back. -/
theorem after_use {e : ε} (needs : ∀ need ∈ A.needs e, ∃ r ∈ held, need r) (frees : A.frees e = 0) :
    A.after (e :: es) held = A.after es (A.takes e + held) := by
  have ready : A.Ready e held := ⟨needs, frees ▸ Multiset.zero_le held⟩
  rw [after_cons, if_pos ready, frees, Multiset.sub_zero]

/-- An event that gives back one of the resources. -/
theorem after_free {e : ε} {r : ρ} (needs : A.needs e = []) (frees : A.frees e = {r})
    (takes : A.takes e = 0) (mem : r ∈ held) :
    A.after (e :: es) held = A.after es (held.erase r) := by
  have ready : A.Ready e held := by
    rw [Ready, needs, frees]
    exact ⟨fun need mem => absurd mem List.not_mem_nil, Multiset.singleton_le.mpr mem⟩
  rw [after_cons, if_pos ready, frees, takes, Multiset.sub_singleton, zero_add]

/-- What is held and what has been given back are what was held and what has been taken. -/
theorem balance (done : A.after es held = some held') :
    held' + A.freed es = held + A.taken es := by
  induction es generalizing held with
  | nil =>
      obtain rfl := Option.some.inj done
      rfl
  | cons e es ih =>
      rw [after_cons] at done
      split at done
      · rename_i ready
        obtain ⟨left, rfl⟩ := Multiset.le_iff_exists_add.mp ready.2
        rw [add_tsub_cancel_left] at done
        have rest := ih done
        simp only [freed, taken, List.map_cons, List.sum_cons] at rest ⊢
        calc held' + (A.frees e + (es.map A.frees).sum)
            = A.frees e + (held' + (es.map A.frees).sum) := by abel
          _ = A.frees e + (A.takes e + left + (es.map A.takes).sum) := by rw [rest]
          _ = A.frees e + left + (A.takes e + (es.map A.takes).sum) := by abel
      · cases done

/-! ### Runs in parts -/

/-- One part of a run after the other. -/
theorem after_append {es' : List ε} :
    A.after (es ++ es') held = (A.after es held).bind (A.after es') := by
  induction es generalizing held with
  | nil => rfl
  | cons e es ih =>
      rw [List.cons_append, after_cons, after_cons]
      split
      · exact ih
      · rfl

/-- The frame rule: what is held besides stays. -/
theorem after_frame (done : A.after es held = some held') (more : Multiset ρ) :
    A.after es (held + more) = some (held' + more) := by
  induction es generalizing held with
  | nil =>
      obtain rfl := Option.some.inj done
      rfl
  | cons e es ih =>
      rw [after_cons] at done
      split at done
      · rename_i ready
        have larger : A.Ready e (held + more) := by
          refine ⟨fun need mem => ?_, ready.2.trans (Multiset.le_add_right held more)⟩
          obtain ⟨r, here, works⟩ := ready.1 need mem
          exact ⟨r, Multiset.mem_add.mpr (.inl here), works⟩
        rw [after_cons, if_pos larger, ← tsub_add_eq_add_tsub ready.2, ← add_assoc]
        exact ih done
      · cases done

/-- From nothing, the events leave what is kept of each. -/
def Keeps (A : Accounts ε ρ) (kept : ε → Multiset ρ) (es : List ε) : Prop :=
  A.after es 0 = some (es.map kept).sum

variable {kept : ε → Multiset ρ}

theorem Keeps.nil : A.Keeps kept [] := rfl

theorem Keeps.append {es' : List ε} (first : A.Keeps kept es) (second : A.Keeps kept es') :
    A.Keeps kept (es ++ es') := by
  have framed := after_frame second (es.map kept).sum
  rw [zero_add, add_comm] at framed
  rw [Keeps, after_append, first, Option.bind_some, framed, List.map_append, List.sum_append]

/-- An event that does nothing keeps nothing. -/
theorem Keeps.cons_idle {e : ε} (needs : A.needs e = []) (frees : A.frees e = 0)
    (takes : A.takes e = 0) (none : kept e = 0) (rest : A.Keeps kept es) :
    A.Keeps kept (e :: es) := by
  have used : A.after (e :: es) 0 = A.after es (A.takes e + 0) := by
    refine after_use (fun need mem => ?_) frees
    rw [needs] at mem
    exact absurd mem List.not_mem_nil
  rw [Keeps, used, takes, add_zero, rest, List.map_cons, List.sum_cons, none, zero_add]

/-- What is left is what is kept when the rest of what was taken has been given back. -/
theorem Keeps.of_balance (done : A.after es 0 = some held)
    (taken : A.taken es = (es.map kept).sum + A.freed es) : A.Keeps kept es := by
  have law := balance done
  rw [zero_add, taken] at law
  rw [Keeps, done, add_right_cancel law]

end Accounts
