import VoxLink.ProofKit.Runs

/-! Values that are made anew exactly when their dependencies have changed. `version` stands for the
identity of the value, so that it can itself be a dependency. -/

namespace ProofKit

variable {δ : Type} [DecidableEq δ]

/-- A memoised value: the dependencies it was made with, and how many were made before it. -/
structure Memo (δ : Type) where
  deps : δ
  version : Nat
deriving DecidableEq, Repr

/-- The value for the dependencies `deps`. -/
def Memo.next (deps : δ) (m : Memo δ) : Memo δ :=
  if deps = m.deps then m else ⟨deps, m.version + 1⟩

@[simp] theorem Memo.next_deps (deps : δ) (m : Memo δ) : (m.next deps).deps = deps := by
  unfold Memo.next
  split
  · exact Eq.symm ‹_›
  · rfl

theorem Memo.next_version_eq_iff (deps : δ) (m : Memo δ) :
    (m.next deps).version = m.version ↔ deps = m.deps := by
  unfold Memo.next
  split
  · exact iff_of_true rfl ‹_›
  · refine iff_of_false ?_ ‹_›
    show ¬m.version + 1 = m.version
    omega

end ProofKit
