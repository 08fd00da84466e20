import ModernOS.FileSystem.Inodes
import ModernOS.Lib.ByteMemory

/-!
The permissions that `create_file` stores.

Its argument has 16 bits, and it is read through a pointer to a word of 32. So the two bytes behind
the argument are stored too, as the upper half of the field: what is stored is the argument
exactly when they are zero (`permissionsStored_iff`).
-/

namespace ModernOS.FileSystem

open ByteMemory

/-- `FilePermissions` of `include/filesystem.h`: an enumeration over `uint16_t`, used as a set of
flags. -/
structure FilePermissions where
  bits : BitVec 16
  deriving DecidableEq, Repr

/-- The bytes from the address of the argument on: its own two, and those behind it. -/
def argumentBytes (permissions : FilePermissions) (after : ℕ → BitVec 8) (k : ℕ) : BitVec 8 :=
  if k < 2 then byte k permissions.bits else after (k - 2)

/-- `*reinterpret_cast<uint32_t*>`: four bytes, the lowest first. -/
def loadWord (bytes : ℕ → BitVec 8) : Word := bytes 3 ++ bytes 2 ++ bytes 1 ++ bytes 0

/-- `create_file`, with `after` behind its argument. -/
def createFileAt (path : CString) (type : FileType) (permissions : FilePermissions)
    (after : ℕ → BitVec 8) (s : State) : Bool × State :=
  createFile path type (loadWord (argumentBytes permissions after)) s

/-- A successful call stores the argument, with zeros above it. -/
def StoresArgument (path : CString) (type : FileType) (permissions : FilePermissions)
    (after : ℕ → BitVec 8) (s : State) : Prop :=
  (createFileAt path type permissions after s).1 = true →
    ((createFileAt path type permissions after s).2.inodes (findFreeInode s).toNat).permissions =
      permissions.bits.setWidth 32

/-! ### The word that is read -/

/-- The bytes of the word are the bytes that are read. -/
theorem byte_loadWord (bytes : ℕ → BitVec 8) {k : ℕ} (small : k < 4) :
    byte k (loadWord bytes) = bytes k := by
  have low : byte 0 (loadWord bytes) = bytes 0 := @byte_zero_append 3 _ (bytes 0)
  have second : byte 1 (loadWord bytes) = bytes 1 :=
    (@byte_succ_append 3 0 _ (bytes 0)).trans (@byte_zero_append 2 _ (bytes 1))
  have third : byte 2 (loadWord bytes) = bytes 2 :=
    (@byte_succ_append 3 1 _ (bytes 0)).trans
      ((@byte_succ_append 2 0 _ (bytes 1)).trans (@byte_zero_append 1 _ (bytes 2)))
  have high : byte 3 (loadWord bytes) = bytes 3 :=
    (@byte_succ_append 3 2 _ (bytes 0)).trans
      ((@byte_succ_append 2 1 _ (bytes 1)).trans
        ((@byte_succ_append 1 0 _ (bytes 2)).trans (BitVec.extractLsb'_eq_self ..)))
  rcases (by omega : k = 0 ∨ k = 1 ∨ k = 2 ∨ k = 3) with rfl | rfl | rfl | rfl
  · exact low
  · exact second
  · exact third
  · exact high

theorem loadWord_inj {bytes bytes' : ℕ → BitVec 8} :
    loadWord bytes = loadWord bytes' ↔ ∀ k < 4, bytes k = bytes' k := by
  constructor
  · intro same k small
    rw [← byte_loadWord bytes small, same, byte_loadWord bytes' small]
  · intro same
    refine eq_of_byte (n := 4) fun k small => ?_
    rw [byte_loadWord bytes small, byte_loadWord bytes' small, same k small]

/-- With zeros behind it, the word has the value of the argument. -/
theorem loadWord_zeros (permissions : FilePermissions) :
    loadWord (argumentBytes permissions fun _ => 0#8) = permissions.bits.setWidth 32 := by
  refine eq_of_byte (n := 4) fun k small => ?_
  rw [byte_loadWord _ small, argumentBytes]
  apply BitVec.eq_of_getLsbD_eq
  intro i inside
  rw [getLsbD_byte k i _ inside, BitVec.getLsbD_setWidth]
  split
  · rw [getLsbD_byte k i _ inside, decide_eq_true (by omega), Bool.true_and]
  · rw [BitVec.getLsbD_zero, BitVec.getLsbD_of_ge _ _ (by omega), Bool.and_false]

/-- The word depends on two of the bytes behind the argument. -/
theorem loadWord_argumentBytes_inj (permissions : FilePermissions) {after after' : ℕ → BitVec 8} :
    loadWord (argumentBytes permissions after) = loadWord (argumentBytes permissions after') ↔
      after 0 = after' 0 ∧ after 1 = after' 1 := by
  rw [loadWord_inj]
  constructor
  · intro same
    exact ⟨same 2 (by decide), same 3 (by decide)⟩
  · rintro ⟨low, high⟩ k small
    rw [argumentBytes, argumentBytes]
    split
    · rfl
    · rcases (by omega : k = 2 ∨ k = 3) with rfl | rfl
      · exact low
      · exact high

/-! ### The field -/

section

variable (path : CString) (type : FileType) (permissions : FilePermissions)
  (after : ℕ → BitVec 8) (s : State)

/-- **Stored permissions come only from the argument** exactly when no inode is free, or the two
bytes behind the argument are zero; and two calls leave the same inodes exactly when none is free,
or the same two bytes are behind their arguments. -/
theorem permissionsStored_iff :
    (StoresArgument path type permissions after s ↔
      freeInodes s = ∅ ∨ after 0 = 0#8 ∧ after 1 = 0#8) ∧
    ∀ after', (createFileAt path type permissions after s).2.inodes =
        (createFileAt path type permissions after' s).2.inodes ↔
      freeInodes s = ∅ ∨ after 0 = after' 0 ∧ after 1 = after' 1 := by
  rw [StoresArgument, ← loadWord_zeros permissions, ← firstFreeInode_eq_none]
  simp only [createFileAt]
  cases found : firstFreeInode s with
  | none =>
      have failed := createFile_of_none found path type
      refine ⟨iff_of_true (fun success => ?_) (Or.inl rfl), fun after' => ?_⟩
      · rw [failed] at success
        cases success
      · rw [failed, failed]
        exact iff_of_true rfl (Or.inl rfl)
  | some i =>
      have created := createFile_of_some found path type
      have index := (findFreeInode_of_some found).2
      constructor
      · rw [created, index, or_iff_right (Option.some_ne_none i)]
        dsimp only
        rw [Function.update_self, imp_iff_right rfl]
        exact loadWord_argumentBytes_inj permissions
      · intro after'
        rw [created, created, or_iff_right (Option.some_ne_none i),
          ← loadWord_argumentBytes_inj permissions]
        dsimp only
        constructor
        · intro same
          have inode := congrFun same i
          rw [Function.update_self, Function.update_self] at inode
          exact congrArg Inode.permissions inode
        · intro same
          rw [same]

end

/-- A byte of 1 behind the argument. -/
theorem permissionsStored_fails :
    ¬ ∀ path type permissions after s, StoresArgument path type permissions after s ∧
      ∀ after', (createFileAt path type permissions after s).2.inodes =
        (createFileAt path type permissions after' s).2.inodes := by
  intro stores
  have stored := (stores ⟨[], nofun⟩ .regular ⟨0o644#16⟩ (fun _ => 1#8) oneInode).1
    (by decide +kernel)
  exact absurd stored (by decide +kernel)

end ModernOS.FileSystem
