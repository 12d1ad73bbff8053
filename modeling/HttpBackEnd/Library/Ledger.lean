import Mathlib.Data.List.Range
import Mathlib.Data.List.Perm.Basic

/-! # Ledgers of handles

A library that gives out handles and takes them back, seen as a ledger: handles are
numbered in the order in which they are issued, and the ledger lists those released.
Linear ownership is one law: the handles a program holds and the handles it has released
are, together, all handles ever issued, each once. From it follow that no handle is
released twice, that a held handle is live, and that nothing is lost.
-/

/-- The number of handles issued so far, and the handles released, in order. -/
structure Ledger where
  issued : Nat := 0
  released : List Nat := []
deriving DecidableEq, Repr

namespace Ledger

variable {ledger : Ledger} {handle : Nat} {held : List Nat}

/-- A fresh handle is given out; its number is the number of handles before it. -/
def issue (ledger : Ledger) : Ledger := { ledger with issued := ledger.issued + 1 }

/-- A handle is given back. -/
def release (handle : Nat) (ledger : Ledger) : Ledger :=
  { ledger with released := ledger.released ++ [handle] }

/-- The handle has been issued and has not been released. -/
def Live (ledger : Ledger) (handle : Nat) : Prop :=
  handle < ledger.issued ∧ handle ∉ ledger.released

/-- No handle has been released twice. -/
def NoDoubleRelease (ledger : Ledger) : Prop := ledger.released.Nodup

/-- Every handle issued has been released. -/
def AllReleased (ledger : Ledger) : Prop :=
  ∀ handle, handle < ledger.issued → handle ∈ ledger.released

/-- Linear ownership: what is held and what has been released is what was issued. -/
def Owns (ledger : Ledger) (held : List Nat) : Prop :=
  (held ++ ledger.released).Perm (List.range ledger.issued)

theorem owns_empty : Owns {} [] := List.Perm.refl _

/-- A fresh handle is held by whoever asked for it. -/
theorem Owns.issue (owns : ledger.Owns held) : ledger.issue.Owns (ledger.issued :: held) := by
  have more : (List.range (ledger.issued + 1)).Perm (ledger.issued :: List.range ledger.issued) := by
    rw [List.range_succ]
    exact List.perm_append_comm
  exact (owns.cons ledger.issued).trans more.symm

/-- A held handle may be given back. -/
theorem Owns.release (owns : ledger.Owns (handle :: held)) :
    (ledger.release handle).Owns held := by
  unfold Owns Ledger.release
  rw [← List.append_assoc]
  exact List.perm_append_comm.trans owns

/-- It does not matter in which order the handles are held. -/
theorem Owns.perm {other : List Nat} (owns : ledger.Owns held) (same : held.Perm other) :
    ledger.Owns other :=
  (same.symm.append_right _).trans owns

theorem Owns.nodup (owns : ledger.Owns held) : (held ++ ledger.released).Nodup :=
  owns.nodup_iff.mpr List.nodup_range

theorem Owns.noDoubleRelease (owns : ledger.Owns held) : ledger.NoDoubleRelease :=
  (List.nodup_append.mp owns.nodup).2.1

/-- What is held is live. -/
theorem Owns.live (owns : ledger.Owns held) (member : handle ∈ held) : ledger.Live handle := by
  constructor
  · exact List.mem_range.mp (owns.subset (List.mem_append_left _ member))
  · intro released
    exact (List.nodup_append.mp owns.nodup).2.2 handle member handle released rfl

/-- Who holds nothing has released everything. -/
theorem Owns.allReleased (owns : ledger.Owns []) : ledger.AllReleased := by
  intro handle issued
  exact owns.symm.subset (List.mem_range.mpr issued)

end Ledger
