import Mathlib.Logic.Function.Basic
import Mathlib.Data.Nat.Basic

/-!
# Files with hard links

A name leads to an inode and an inode holds bytes. Names of one inode show the same bytes,
and writing through one of them shows through all of them.
-/
namespace CodeResearch

structure LinkedFiles (P B : Type*) where
  inode : P → Option ℕ
  bytes : ℕ → B
  /-- The next inode that a new file takes. -/
  fresh : ℕ
  inode_lt : ∀ p i, inode p = some i → i < fresh

namespace LinkedFiles

variable {P B : Type*}

def empty [Inhabited B] : LinkedFiles P B where
  inode _ := none
  bytes _ := default
  fresh := 0
  inode_lt _ _ h := nomatch h

variable (fs : LinkedFiles P B)

def read (p : P) : Option B := (fs.inode p).map fs.bytes

/-- The inode that opening `p` for writing finds or creates. -/
def target (p : P) : ℕ := (fs.inode p).getD fs.fresh

/-- No other name leads to the inode of `p`. -/
def Unshared (p : P) : Prop := ∀ q i, q ≠ p → fs.inode p = some i → fs.inode q ≠ some i

section Reading

variable {fs} {p q : P} {i : ℕ}

theorem read_eq_some (h : fs.inode p = some i) : fs.read p = some (fs.bytes i) := by
  rw [read, h, Option.map_some]

theorem read_eq_none_iff : fs.read p = none ↔ fs.inode p = none := Option.map_eq_none_iff

theorem target_eq (h : fs.inode p = some i) : fs.target p = i := by rw [target, h, Option.getD_some]

theorem inode_ne_fresh : fs.inode p ≠ some fs.fresh := fun h =>
  lt_irrefl _ (fs.inode_lt p _ h)

theorem inode_eq_of_target (h : fs.inode q = some (fs.target p)) : fs.inode p = fs.inode q := by
  cases hp : fs.inode p with
  | none =>
    rw [target, hp, Option.getD_none] at h
    exact absurd h inode_ne_fresh
  | some i => rw [h, target_eq hp]

end Reading

variable [DecidableEq P]

/-- Truncates the inode that `p` leads to, or creates one. -/
def write (p : P) (b : B) : LinkedFiles P B where
  inode := Function.update fs.inode p (some (fs.target p))
  bytes := Function.update fs.bytes (fs.target p) b
  fresh := max fs.fresh (fs.target p + 1)
  inode_lt q i h := by
    by_cases hq : q = p
    · subst hq
      rw [Function.update_self] at h
      cases h
      omega
    · rw [Function.update_of_ne hq] at h
      have := fs.inode_lt q i h
      omega

def unlink (p : P) : LinkedFiles P B where
  inode := Function.update fs.inode p none
  bytes := fs.bytes
  fresh := fs.fresh
  inode_lt q i h := by
    by_cases hq : q = p
    · subst hq
      simp at h
    · rw [Function.update_of_ne hq] at h
      exact fs.inode_lt q i h

/-- `q` becomes a name of what `p` leads to. -/
def rebind (p q : P) : LinkedFiles P B where
  inode := Function.update fs.inode q (fs.inode p)
  bytes := fs.bytes
  fresh := fs.fresh
  inode_lt r i h := by
    by_cases hr : r = q
    · subst hr
      rw [Function.update_self] at h
      exact fs.inode_lt p i h
    · rw [Function.update_of_ne hr] at h
      exact fs.inode_lt r i h

/-- `target.hardlink_to(source)` raises where there is no source or there is a target. -/
def hardlinkTo (target source : P) : Option (LinkedFiles P B) :=
  if fs.inode source = none ∨ fs.inode target ≠ none then none else some (fs.rebind source target)

/-- `shutil.copyfile` raises where there is no source or where both are one file. -/
def copyfile (source target : P) : Option (LinkedFiles P B) :=
  match fs.read source with
  | none => none
  | some b => if fs.inode source = fs.inode target then none else some (fs.write target b)

/-- `os.replace` of a name by another one. -/
def replace (p q : P) : LinkedFiles P B := (fs.rebind p q).unlink p

variable {fs} {p q r : P} {b c : B} {i : ℕ}

@[simp] theorem inode_write_self : (fs.write p b).inode p = some (fs.target p) :=
  Function.update_self ..

theorem inode_write_of_ne (h : q ≠ p) : (fs.write p b).inode q = fs.inode q :=
  Function.update_of_ne h ..

@[simp] theorem read_write_self : (fs.write p b).read p = some b := by
  rw [read_eq_some inode_write_self]
  exact congrArg some (Function.update_self ..)

theorem read_write_of_ne (hne : q ≠ p) (h : ∀ i, fs.inode p = some i → fs.inode q ≠ some i) :
    (fs.write p b).read q = fs.read q := by
  have hq : (fs.write p b).inode q = fs.inode q := inode_write_of_ne hne
  cases hi : fs.inode q with
  | none => rw [read_eq_none_iff.mpr hi, read_eq_none_iff, hq, hi]
  | some j =>
    have hj : j ≠ fs.target p := by
      rintro rfl
      exact h _ (inode_eq_of_target hi ▸ hi) hi
    rw [read_eq_some (hq.trans hi), read_eq_some hi]
    exact congrArg some (Function.update_of_ne hj ..)

theorem Unshared.read_write (h : fs.Unshared p) (hne : q ≠ p) :
    (fs.write p b).read q = fs.read q :=
  read_write_of_ne hne fun i hi => h q i hne hi

/-- Writing the bytes that are there changes nothing. -/
theorem read_write_same (h : fs.read p = some b) : (fs.write p b).read q = fs.read q := by
  obtain ⟨i, hi, hb⟩ := Option.map_eq_some_iff.mp h
  by_cases hq : fs.inode q = some i
  · have hw : (fs.write p b).inode q = some i := by
      by_cases hqp : q = p
      · rw [hqp, inode_write_self, target_eq hi]
      · rw [inode_write_of_ne hqp, hq]
    rw [read_eq_some hw, read_eq_some hq, hb]
    refine congrArg some ?_
    rw [← target_eq hi]
    exact Function.update_self ..
  · have hqp : q ≠ p := by
      rintro rfl
      exact hq hi
    refine read_write_of_ne hqp fun j hj => ?_
    cases hi.symm.trans hj
    exact hq

theorem Unshared.write (h : fs.Unshared p) : (fs.write p b).Unshared p := by
  intro q i hq hp hqi
  rw [inode_write_self] at hp
  rw [inode_write_of_ne hq, ← hp] at hqi
  have he := inode_eq_of_target hqi
  exact h q _ hq (he.trans hqi) hqi

omit [DecidableEq P] in
theorem unshared_of_none (h : fs.inode p = none) : fs.Unshared p := fun _ _ _ hi =>
  absurd (h.symm.trans hi) (by simp)

@[simp] theorem inode_unlink_self : (fs.unlink p).inode p = none := Function.update_self ..

theorem inode_unlink_of_ne (h : q ≠ p) : (fs.unlink p).inode q = fs.inode q :=
  Function.update_of_ne h ..

theorem read_unlink_of_ne (h : q ≠ p) : (fs.unlink p).read q = fs.read q := by
  rw [read, inode_unlink_of_ne h]
  rfl

@[simp] theorem inode_rebind_self : (fs.rebind p q).inode q = fs.inode p := Function.update_self ..

theorem inode_rebind_of_ne (h : r ≠ q) : (fs.rebind p q).inode r = fs.inode r :=
  Function.update_of_ne h ..

theorem read_rebind_of_ne (h : r ≠ q) : (fs.rebind p q).read r = fs.read r := by
  rw [read, inode_rebind_of_ne h]
  rfl

@[simp] theorem inode_replace_source : (fs.replace p q).inode p = none := inode_unlink_self

theorem inode_replace_target (h : q ≠ p) : (fs.replace p q).inode q = fs.inode p := by
  rw [replace, inode_unlink_of_ne h, inode_rebind_self]

theorem inode_replace_of_ne (hp : r ≠ p) (hq : r ≠ q) : (fs.replace p q).inode r = fs.inode r := by
  rw [replace, inode_unlink_of_ne hp, inode_rebind_of_ne hq]

theorem read_replace_of_ne (hp : r ≠ p) (hq : r ≠ q) : (fs.replace p q).read r = fs.read r := by
  rw [replace, read_unlink_of_ne hp, read_rebind_of_ne hq]

theorem hardlinkTo_eq_some {fs' : LinkedFiles P B} (h : fs.hardlinkTo q p = some fs') :
    fs.inode p ≠ none ∧ fs.inode q = none ∧ fs' = fs.rebind p q := by
  unfold hardlinkTo at h
  split_ifs at h with hg
  rw [not_or, not_not] at hg
  exact ⟨hg.1, hg.2, (Option.some.inj h).symm⟩

theorem copyfile_eq_some {fs' : LinkedFiles P B} (h : fs.copyfile p q = some fs') :
    ∃ b, fs.read p = some b ∧ fs.inode p ≠ fs.inode q ∧ fs' = fs.write q b := by
  unfold copyfile at h
  split at h
  · cases h
  · rename_i b hb
    split_ifs at h with hg
    exact ⟨b, hb, hg, (Option.some.inj h).symm⟩

end LinkedFiles
end CodeResearch
