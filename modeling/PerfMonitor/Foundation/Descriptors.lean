import Mathlib.Algebra.Group.Nat.Defs
import Mathlib.Data.List.Sort
import Mathlib.Data.List.Range

/-!
# Descriptor tables

The open descriptors of a process.  A new descriptor is the lowest free one below the
limit, `dup2` makes one descriptor refer to what another refers to, and `execv` closes the
descriptors that are marked for it.
-/

namespace PerfMonitor
namespace Foundation

/-- What a descriptor refers to, and whether `execv` closes it. -/
structure Descriptor (Φ : Type*) where
  file : Φ
  cloexec : Bool
deriving DecidableEq, Repr

/-- The descriptors, which are numbers of the type `int`. -/
structure FdTable (Φ : Type*) where
  get : Nat -> Option (Descriptor Φ)
  limit : Nat
  bounded : forall fd, limit ≤ fd -> get fd = none
  limit_le : limit ≤ 2 ^ 31

namespace FdTable

variable {Φ : Type*}

def lowestFree (t : FdTable Φ) : Option Nat :=
  (List.range t.limit).find? (fun fd => (t.get fd).isNone)

def set (t : FdTable Φ) (fd : Nat) (d : Option (Descriptor Φ)) : FdTable Φ where
  get := fun i => if i = fd ∧ fd < t.limit then d else t.get i
  limit := t.limit
  bounded := by
    intro i hi
    rw [if_neg (fun h => Nat.not_le.mpr h.right (h.left ▸ hi))]
    exact t.bounded i hi
  limit_le := t.limit_le

def close (t : FdTable Φ) (fd : Nat) : FdTable Φ :=
  t.set fd none

/-- `open` of a file that can be opened: the new descriptor, unless none is free. -/
def openFile (t : FdTable Φ) (d : Descriptor Φ) : Option (Nat × FdTable Φ) :=
  t.lowestFree.map (fun fd => (fd, t.set fd (some d)))

/-- `dup2`: a failing call changes nothing, and one of a descriptor onto itself neither. -/
def dup2 (t : FdTable Φ) (old new : Nat) : FdTable Φ :=
  match t.get old with
  | none => t
  | some d => if old = new then t else t.set new (some { d with cloexec := false })

/-- What a descriptor refers to after `execv`. -/
def inherited (t : FdTable Φ) (fd : Nat) : Option Φ :=
  match t.get fd with
  | none => none
  | some d => if d.cloexec = true then none else some d.file

def openFds (t : FdTable Φ) : List Nat :=
  (List.range t.limit).filter (fun fd => (t.get fd).isSome)

variable (t : FdTable Φ)

theorem lt_limit {fd : Nat} (h : t.get fd ≠ none) : fd < t.limit := by
  by_contra hle
  exact h (t.bounded fd (Nat.le_of_not_lt hle))

theorem limit_set (fd : Nat) (d : Option (Descriptor Φ)) : (t.set fd d).limit = t.limit :=
  rfl

theorem get_set_self {fd : Nat} (hfd : fd < t.limit) (d : Option (Descriptor Φ)) :
    (t.set fd d).get fd = d :=
  if_pos ⟨rfl, hfd⟩

theorem get_set_ne {i fd : Nat} (hne : i ≠ fd) (d : Option (Descriptor Φ)) :
    (t.set fd d).get i = t.get i :=
  if_neg (fun h => hne h.left)

theorem get_close (i fd : Nat) : (t.close fd).get i = if i = fd then none else t.get i := by
  by_cases hi : i = fd
  · rw [if_pos hi, hi]
    by_cases hfd : fd < t.limit
    · exact t.get_set_self hfd none
    · show (if fd = fd ∧ fd < t.limit then _ else _) = _
      rw [if_neg (fun h => hfd h.right)]
      exact t.bounded fd (Nat.le_of_not_lt hfd)
  · rw [if_neg hi]
    exact t.get_set_ne hi none

theorem lowestFree_eq_some_iff {fd : Nat} :
    t.lowestFree = some fd <->
      t.get fd = none ∧ fd < t.limit ∧ forall i, i < fd -> t.get i ≠ none := by
  unfold lowestFree
  rw [List.find?_range_eq_some]
  simp [Option.isSome_iff_ne_none]

theorem lowestFree_isSome_iff :
    t.lowestFree.isSome = true <-> exists fd, fd < t.limit ∧ t.get fd = none := by
  unfold lowestFree
  simp

theorem openFile_of_free {fd : Nat} (hfree : t.lowestFree = some fd) (d : Descriptor Φ) :
    t.openFile d = some (fd, t.set fd (some d)) := by
  unfold openFile
  rw [hfree]
  rfl

theorem openFile_of_full (hfull : t.lowestFree = none) (d : Descriptor Φ) :
    t.openFile d = none := by
  unfold openFile
  rw [hfull]
  rfl

theorem limit_dup2 (old new : Nat) : (t.dup2 old new).limit = t.limit := by
  unfold dup2
  split
  · rfl
  · split <;> rfl

theorem get_dup2 {old : Nat} {d : Descriptor Φ} (hold : t.get old = some d) (i new : Nat) :
    (t.dup2 old new).get i =
      if i = new ∧ new < t.limit ∧ old ≠ new then some { d with cloexec := false }
      else t.get i := by
  unfold dup2
  rw [hold]
  show (if old = new then t else _).get i = _
  by_cases hsame : old = new
  · rw [if_pos hsame, if_neg (fun h => h.right.right hsame)]
  · rw [if_neg hsame]
    simp only [and_iff_left hsame]
    rfl

theorem get_dup2_old {old : Nat} {d : Descriptor Φ} (hold : t.get old = some d) (new : Nat) :
    (t.dup2 old new).get old = some d := by
  rw [t.get_dup2 hold, if_neg (fun h => h.right.right h.left)]
  exact hold

theorem mem_openFds {fd : Nat} : fd ∈ t.openFds <-> t.get fd ≠ none := by
  unfold openFds
  rw [List.mem_filter, List.mem_range, Option.isSome_iff_ne_none]
  exact ⟨fun h => h.right, fun h => ⟨t.lt_limit h, h⟩⟩

theorem openFds_sorted : t.openFds.Pairwise (· < ·) :=
  List.Pairwise.filter _ (List.pairwise_lt_range)

end FdTable

end Foundation
end PerfMonitor
