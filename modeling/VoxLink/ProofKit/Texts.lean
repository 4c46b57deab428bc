import Mathlib.Tactic

/-! Texts as lists of characters. -/

namespace ProofKit

variable {α : Type} [DecidableEq α]

/-- `cs` without the first occurrence of `pattern`. -/
def removeFirst (pattern : List α) : List α → List α
  | [] => []
  | c :: cs =>
    if pattern <+: c :: cs then (c :: cs).drop pattern.length else c :: removeFirst pattern cs

/-- A pattern that begins with a character which does not come before is found where it stands. -/
theorem removeFirst_append {x : α} {xs cs rest : List α} (h : x ∉ cs) :
    removeFirst (x :: xs) (cs ++ (x :: xs ++ rest)) = cs ++ rest := by
  induction cs with
  | nil =>
    have hprefix : x :: xs <+: x :: (xs ++ rest) := List.prefix_append (x :: xs) rest
    rw [List.nil_append, List.cons_append, removeFirst, if_pos hprefix]
    exact List.drop_left
  | cons c cs ih =>
    have hne : ¬x :: xs <+: c :: (cs ++ (x :: xs ++ rest)) := by
      rw [List.cons_prefix_cons]
      exact fun hhead => h (hhead.1 ▸ List.mem_cons_self)
    rw [List.cons_append, removeFirst, if_neg hne, ih fun hmem => h (List.mem_cons_of_mem c hmem),
      List.cons_append]

end ProofKit
