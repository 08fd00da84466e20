import ModernOS.Lib.Transition
import Mathlib.Logic.Function.Basic

/-!
Tables driven by a log of writes.

A table that starts as `f` and goes through the writes of a log holds, at each index, the
last value written there, or what `f` has when there is none (`run_update_apply`). A second
table that receives an image of every value keeps in step (`lastWrite_map`).
-/

namespace Transition

variable {ι α β : Type*} [DecidableEq ι]

/-- The last value that a log of writes has for an index. -/
def lastWrite (i : ι) : List (ι × α) → Option α
  | [] => none
  | w :: ws => (lastWrite i ws).or (if w.1 = i then some w.2 else none)

theorem run_update_apply (f : ι → α) (ws : List (ι × α)) (i : ι) :
    run (fun f w => Function.update f w.1 w.2) f ws i = (lastWrite i ws).getD (f i) := by
  induction ws generalizing f with
  | nil => rfl
  | cons w ws ih =>
      rw [run_cons, ih, lastWrite]
      cases lastWrite i ws with
      | some a => rfl
      | none =>
          by_cases same : w.1 = i
          · rw [if_pos same, ← same, Function.update_self]
            rfl
          · rw [if_neg same, Function.update_of_ne (Ne.symm same)]
            rfl

/-- The log of a table that receives `g a` where another receives `a`. -/
theorem lastWrite_map (g : α → β) (i : ι) (ws : List (ι × α)) :
    lastWrite i (ws.map fun w => (w.1, g w.2)) = (lastWrite i ws).map g := by
  induction ws with
  | nil => rfl
  | cons w ws ih =>
      rw [List.map_cons, lastWrite, lastWrite, ih]
      cases lastWrite i ws with
      | some a => rfl
      | none =>
          show (if w.1 = i then some (g w.2) else none) = Option.map g (if w.1 = i then _ else _)
          split <;> rfl

theorem lastWrite_concat (i : ι) (ws : List (ι × α)) (w : ι × α) :
    lastWrite i (ws ++ [w]) = if w.1 = i then some w.2 else lastWrite i ws := by
  induction ws with
  | nil => rfl
  | cons w' ws ih =>
      rw [List.cons_append, lastWrite, ih, lastWrite]
      split <;> rfl

/-- What the log has for an index was written there. -/
theorem mem_of_lastWrite {i : ι} {a : α} {ws : List (ι × α)} (last : lastWrite i ws = some a) :
    (i, a) ∈ ws := by
  induction ws with
  | nil => cases last
  | cons w ws ih =>
      rw [lastWrite] at last
      cases later : lastWrite i ws with
      | some b =>
          rw [later] at last
          exact List.mem_cons_of_mem w (ih (later.trans last))
      | none =>
          rw [later, Option.none_or] at last
          by_cases same : w.1 = i
          · rw [if_pos same] at last
            cases last
            exact same ▸ List.mem_cons_self
          · rw [if_neg same] at last
            cases last

end Transition
