import Mathlib.Logic.Function.Basic
import Mathlib.Logic.ExistsUnique
import Mathlib.Data.Set.Insert

/-!
Exclusive ownership of resources by objects.

Each object holds at most one resource, and no two objects hold the same one. A resource is given
to an object that holds nothing, moved to another object, or dropped; what each of them does to the
resources that have an owner is said by `owned_give`, `owned_move` and `owned_drop`. A move to an
object that holds something else leaves that without an owner.

`OwnsExactly` says of the holders of some state that they own the resources of a set, each of them
once. It is an invariant of programs that keep their resources in objects.
-/

/-- Who holds what. -/
structure Ownership (ι ρ : Type*) where
  holds : ι → Option ρ
  exclusive : ∀ i j r, holds i = some r → holds j = some r → i = j

namespace Ownership

variable {ι ρ : Type*} (o : Ownership ι ρ)

/-- The resource has an owner. -/
def Owned (r : ρ) : Prop := ∃ i, o.holds i = some r

/-- Nothing is held. -/
def empty : Ownership ι ρ := ⟨fun _ => none, fun _ _ _ held => by cases held⟩

theorem not_owned_empty (r : ρ) : ¬ (empty : Ownership ι ρ).Owned r := by
  rintro ⟨i, held⟩
  cases held

/-- A resource that has an owner has exactly one. -/
theorem existsUnique_of_owned {r : ρ} (owned : o.Owned r) : ∃! i, o.holds i = some r := by
  obtain ⟨i, held⟩ := owned
  exact ⟨i, held, fun j held' => o.exclusive j i r held' held⟩

variable [DecidableEq ι]

theorem update_eq_some_iff {f : ι → Option ρ} {i j : ι} {a : Option ρ} {r : ρ} :
    Function.update f i a j = some r ↔ j = i ∧ a = some r ∨ j ≠ i ∧ f j = some r := by
  rw [Function.update_apply]
  by_cases here : j = i <;> simp [here]

/-- An object gets a resource that has no owner. -/
def give (i : ι) (r : ρ) (free : ¬ o.Owned r) : Ownership ι ρ where
  holds := Function.update o.holds i (some r)
  exclusive := by
    intro j k r' heldJ heldK
    rw [update_eq_some_iff] at heldJ heldK
    rcases heldJ with ⟨rfl, sameJ⟩ | ⟨-, heldJ⟩ <;> rcases heldK with ⟨rfl, sameK⟩ | ⟨-, heldK⟩
    · rfl
    · exact absurd ⟨k, sameJ ▸ heldK⟩ free
    · exact absurd ⟨j, sameK ▸ heldJ⟩ free
    · exact o.exclusive j k r' heldJ heldK

/-- An object loses what it holds. -/
def drop (i : ι) : Ownership ι ρ where
  holds := Function.update o.holds i none
  exclusive := by
    intro j k r heldJ heldK
    rw [update_eq_some_iff] at heldJ heldK
    rcases heldJ with ⟨-, lost⟩ | ⟨-, heldJ⟩
    · cases lost
    rcases heldK with ⟨-, lost⟩ | ⟨-, heldK⟩
    · cases lost
    exact o.exclusive j k r heldJ heldK

/-- What `source` holds goes to `target`, which loses what it holds. -/
def move (target source : ι) : Ownership ι ρ where
  holds := Function.update (Function.update o.holds target (o.holds source)) source none
  exclusive := by
    intro j k r heldJ heldK
    simp only [update_eq_some_iff, reduceCtorEq, and_false, false_or] at heldJ heldK
    obtain ⟨goneJ, ⟨rfl, heldJ⟩ | ⟨-, heldJ⟩⟩ := heldJ <;>
      obtain ⟨goneK, ⟨rfl, heldK⟩ | ⟨-, heldK⟩⟩ := heldK
    · rfl
    · exact absurd (o.exclusive k source r heldK heldJ) goneK
    · exact absurd (o.exclusive j source r heldJ heldK) goneJ
    · exact o.exclusive j k r heldJ heldK

theorem give_holds (i : ι) (r : ρ) (free : ¬ o.Owned r) :
    (o.give i r free).holds = Function.update o.holds i (some r) := rfl

theorem drop_holds (i : ι) : (o.drop i).holds = Function.update o.holds i none := rfl

theorem move_holds (target source : ι) :
    (o.move target source).holds =
      Function.update (Function.update o.holds target (o.holds source)) source none := rfl

variable {o} {i : ι} {r r' : ρ}

theorem owned_give {free : ¬ o.Owned r} (vacant : o.holds i = none) :
    (o.give i r free).Owned r' ↔ o.Owned r' ∨ r' = r := by
  simp only [Owned, give, update_eq_some_iff]
  constructor
  · rintro ⟨j, ⟨-, same⟩ | ⟨-, held⟩⟩
    · exact .inr (Option.some.inj same).symm
    · exact .inl ⟨j, held⟩
  · rintro (⟨j, held⟩ | rfl)
    · refine ⟨j, .inr ⟨?_, held⟩⟩
      rintro rfl
      rw [vacant] at held
      cases held
    · exact ⟨i, .inl ⟨rfl, rfl⟩⟩

theorem owned_drop : (o.drop i).Owned r ↔ o.Owned r ∧ o.holds i ≠ some r := by
  simp only [Owned, drop, update_eq_some_iff]
  constructor
  · rintro ⟨j, ⟨-, lost⟩ | ⟨other, held⟩⟩
    · cases lost
    · exact ⟨⟨j, held⟩, fun here => other (o.exclusive j i r held here)⟩
  · rintro ⟨⟨j, held⟩, notHere⟩
    refine ⟨j, .inr ⟨?_, held⟩⟩
    rintro rfl
    exact notHere held

/-- What the target of a move has held has no owner afterwards. -/
theorem owned_move {target source : ι} (other : target ≠ source) :
    (o.move target source).Owned r ↔ o.Owned r ∧ o.holds target ≠ some r := by
  simp only [Owned, move, update_eq_some_iff, reduceCtorEq, and_false, false_or]
  constructor
  · rintro ⟨j, gone, ⟨rfl, held⟩ | ⟨elsewhere, held⟩⟩
    · exact ⟨⟨source, held⟩, fun here => other (o.exclusive j source r here held)⟩
    · exact ⟨⟨j, held⟩, fun here => elsewhere (o.exclusive j target r held here)⟩
  · rintro ⟨⟨j, held⟩, notHere⟩
    by_cases moved : j = source
    · exact ⟨target, other, .inl ⟨rfl, moved ▸ held⟩⟩
    · refine ⟨j, moved, .inr ⟨?_, held⟩⟩
      rintro rfl
      exact notHere held

omit [DecidableEq ι] in
/-- An object that does not exist is not one that does. -/
theorem ne_of_vacant {α : Type*} {objects : ι → Option α} {target source : ι}
    (vacant : objects target = none) (live : objects source ≠ none) : target ≠ source := by
  rintro rfl
  exact live vacant

/-! ### The resources of a set -/

/-- The resources that have an owner are those of `live`, and each has one owner. -/
def OwnsExactly (holds : ι → Option ρ) (live : Set ρ) : Prop :=
  ∃ o : Ownership ι ρ, o.holds = holds ∧ ∀ r, o.Owned r ↔ r ∈ live

variable {holds : ι → Option ρ} {live : Set ρ}

omit [DecidableEq ι] in
theorem ownsExactly_empty : OwnsExactly (fun _ : ι => none) (∅ : Set ρ) :=
  ⟨empty, rfl, fun r => iff_of_false (not_owned_empty r) (Set.notMem_empty r)⟩

omit [DecidableEq ι] in
theorem OwnsExactly.existsUnique (owns : OwnsExactly holds live) (alive : r ∈ live) :
    ∃! i, holds i = some r := by
  obtain ⟨o, rfl, owned⟩ := owns
  exact o.existsUnique_of_owned ((owned r).mpr alive)

omit [DecidableEq ι] in
theorem OwnsExactly.mem (owns : OwnsExactly holds live) (held : holds i = some r) : r ∈ live := by
  obtain ⟨o, rfl, owned⟩ := owns
  exact (owned r).mp ⟨i, held⟩

theorem OwnsExactly.give (owns : OwnsExactly holds live) (vacant : holds i = none)
    (new : r ∉ live) : OwnsExactly (Function.update holds i (some r)) (insert r live) := by
  obtain ⟨o, rfl, owned⟩ := owns
  have free : ¬ o.Owned r := fun held => new ((owned r).mp held)
  refine ⟨o.give i r free, o.give_holds i r free, fun r' => ?_⟩
  rw [owned_give vacant, owned r', or_comm]
  rfl

theorem OwnsExactly.drop (owns : OwnsExactly holds live) (i : ι) :
    OwnsExactly (Function.update holds i none) {r ∈ live | holds i ≠ some r} := by
  obtain ⟨o, rfl, owned⟩ := owns
  refine ⟨o.drop i, o.drop_holds i, fun r => ?_⟩
  rw [owned_drop, owned r]
  rfl

theorem OwnsExactly.move (owns : OwnsExactly holds live) {target source : ι}
    (other : target ≠ source) :
    OwnsExactly (Function.update (Function.update holds target (holds source)) source none)
      {r ∈ live | holds target ≠ some r} := by
  obtain ⟨o, rfl, owned⟩ := owns
  refine ⟨o.move target source, o.move_holds target source, fun r => ?_⟩
  rw [owned_move other, owned r]
  rfl

/-- A move to an object that holds nothing loses nothing. -/
theorem OwnsExactly.move_to_vacant (owns : OwnsExactly holds live) {target source : ι}
    (other : target ≠ source) (vacant : holds target = none) :
    OwnsExactly (Function.update (Function.update holds target (holds source)) source none)
      live := by
  have moved := owns.move other
  simpa [vacant] using moved

end Ownership
