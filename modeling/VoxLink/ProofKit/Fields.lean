import Mathlib.Data.Rat.Defs
import Mathlib.Tactic

/-! Fields of JSON bodies and how columns take them. A field of a body may be absent, `null` or a
value; an absent field leaves a column alone, and `null` is refused by a column that is not
nullable. -/

namespace ProofKit

/-- A field of a JSON body. -/
inductive BodyField (α : Type) where
  | absent
  | null
  | value (a : α)
deriving DecidableEq, Repr

namespace BodyField

variable {α : Type}

/-- The value a column that is not nullable takes, `old` being its default on insert and its value
before an update. -/
def required (old : α) : BodyField α → Option α
  | absent => some old
  | null => none
  | value a => some a

theorem ne_null_of_required {old a : α} {f : BodyField α} (h : f.required old = some a) :
    f ≠ null := by
  intro hnull
  rw [hnull] at h
  exact nomatch h

theorem eq_null_of_required {old : α} {f : BodyField α} (h : f.required old = none) : f = null := by
  cases f with
  | null => rfl
  | absent | value => exact nomatch h

/-- The value a nullable column takes. -/
def nullable (old : Option α) : BodyField α → Option α
  | absent => old
  | null => none
  | value a => some a

/-- The value of a field, when it has one. -/
def get? : BodyField α → Option α
  | value a => some a
  | _ => none

theorem getD_of_required {old a : α} {f : BodyField α} (h : f.required old = some a) :
    f.get?.getD old = a := by
  cases f with
  | null => exact nomatch h
  | absent | value => exact Option.some.inj h

theorem required_of_get? {old a : α} {f : BodyField α} (h : f.get? = some a) :
    f.required old = some a := by
  cases f with
  | value b => exact h
  | absent | null => exact nomatch h

theorem nullable_none (f : BodyField α) : f.nullable none = f.get? := by
  cases f <;> rfl

/-- A validation that an optional field passes when it is absent or `null`. -/
def optional (p : α → Bool) : BodyField α → Bool
  | value a => p a
  | _ => true

/-- A string field that JavaScript takes for true. -/
def truthy : BodyField String → Option String
  | value s => if s = "" then none else some s
  | _ => none

/-- The text of a string field in a JavaScript template. -/
def text : BodyField String → String
  | absent => "undefined"
  | null => "null"
  | value s => s

end BodyField

/-- A number as an integer column of `bits` bits takes it; a fraction or a number out of range is
refused. -/
def toInteger (bits : Nat) (q : ℚ) : Option Int :=
  if q.den = 1 ∧ -2 ^ (bits - 1) ≤ q.num ∧ q.num < 2 ^ (bits - 1) then some q.num else none

/-- The length of a string as JavaScript counts it, in units of 16 bits. -/
def utf16Length (s : String) : Nat :=
  (s.toList.map fun c => if c.toNat < 0x10000 then 1 else 2).sum

end ProofKit
