import Mathlib.Data.Nat.Digits.Defs
import Mathlib.Tactic

/-! Arithmetic codes over digits of any base. An encoder narrows a span of numbers and writes its
low end digit by digit, with carries that may still run through digits that are held back. A number
in the last span, read to fewer digits, is in every span before it. -/

namespace ProofKit

/-- The number that the digits `ds`, the highest first, stand for. -/
def number (b : Nat) (ds : List Nat) : Nat := Nat.ofDigits b ds.reverse

section Number

variable {b d n : Nat} {xs ys : List Nat}

@[simp] theorem number_nil : number b [] = 0 := rfl

theorem number_append : number b (xs ++ ys) = number b xs * b ^ ys.length + number b ys := by
  rw [number, List.reverse_append, Nat.ofDigits_append, List.length_reverse, number, number]
  ring

theorem number_concat : number b (xs ++ [d]) = number b xs * b + d := by
  rw [number_append, List.length_singleton, pow_one]
  congr 1

theorem number_lt (hb : 1 < b) (h : ∀ d ∈ xs, d < b) : number b xs < b ^ xs.length := by
  rw [number, ← List.length_reverse]
  exact Nat.ofDigits_lt_base_pow_length hb fun d hd => h d (List.mem_reverse.mp hd)

theorem number_replicate_zero : number b (List.replicate n 0) = 0 := by
  rw [number, List.reverse_replicate, Nat.ofDigits_replicate_zero]

/-- Digits that are all the highest one. -/
theorem number_replicate_top (hb : 0 < b) : number b (List.replicate n (b - 1)) + 1 = b ^ n := by
  induction n with
  | zero => rfl
  | succ n ih =>
    have hlast : number b (List.replicate (n + 1) (b - 1)) =
        number b (List.replicate n (b - 1)) * b + (b - 1) := by
      rw [List.replicate_succ', number_concat]
    rw [hlast, pow_succ, ← ih, add_mul]
    omega

end Number

/-! ### Carries -/

/-- Digits that have been written, one that is held back, and how many of the highest value come
after that. -/
structure Held where
  out : List Nat
  rem : Option Nat
  ext : Nat

namespace Held

/-- The number of the digits, as long as no carry comes. -/
def number (b : Nat) (h : Held) : Nat :=
  (ProofKit.number b (h.out ++ h.rem.toList) + 1) * b ^ h.ext - 1

/-- Writes what is held back before a digit with a carry, which is held back in turn. -/
def push (b : Nat) (h : Held) (c : Nat) : Held :=
  if c = b - 1 then { h with ext := h.ext + 1 }
  else
    { out := h.out ++ ((h.rem.map (· + c / b)).toList ++ List.replicate h.ext ((b - 1 + c / b) % b))
      rem := some (c % b), ext := 0 }

/-- A carry would run out of the digits that are held back. -/
def Full (b : Nat) (h : Held) : Prop := h.rem = none ∨ h.rem = some (b - 1)

variable {b c : Nat} {h : Held}

theorem number_succ (hb : 0 < b) : h.number b + 1 =
    (ProofKit.number b (h.out ++ h.rem.toList) + 1) * b ^ h.ext := by
  have hpos : 0 < (ProofKit.number b (h.out ++ h.rem.toList) + 1) * b ^ h.ext := by positivity
  rw [number]
  omega

/-- What is written in front of a digit other than the highest: what was held back, plus the
carry. -/
theorem number_written (hb : 1 < b) {carry : Nat} (hcarry : carry ≤ 1)
    (hfull : carry = 1 → h.rem ≠ none) :
    ProofKit.number b (h.out ++ ((h.rem.map (· + carry)).toList ++
      List.replicate h.ext ((b - 1 + carry) % b))) = h.number b + carry := by
  have hnumber := number_succ (h := h) (Nat.lt_of_succ_lt hb)
  rw [← List.append_assoc, number_append, List.length_replicate]
  rcases Nat.le_one_iff_eq_zero_or_eq_one.mp hcarry with rfl | rfl
  · have htop : (b - 1 + 0) % b = b - 1 := Nat.mod_eq_of_lt (by omega)
    have hext := number_replicate_top (n := h.ext) (Nat.lt_of_succ_lt hb)
    simp only [Nat.add_zero, Option.map_id_fun', id_eq] at htop ⊢
    rw [htop]
    rw [add_mul, one_mul, ← hext] at hnumber
    rw [← hext]
    omega
  · obtain ⟨r, hr⟩ := Option.ne_none_iff_exists'.mp (hfull rfl)
    have hzero : (b - 1 + 1) % b = 0 := by rw [Nat.sub_add_cancel (Nat.le_of_lt hb), Nat.mod_self]
    rw [hr, Option.toList_some, number_concat] at hnumber
    rw [hr, Option.map_some, Option.toList_some, number_concat, hzero,
      number_replicate_zero, hnumber]
    ring

/-- A digit with a carry is the next digit of the number. -/
theorem number_push (hb : 1 < b) (hc : c < 2 * b) (hfull : b ≤ c → h.rem ≠ none) :
    (h.push b c).number b = h.number b * b + c := by
  rw [push]
  split
  · rename_i htop
    have hnumber := number_succ (h := h) (Nat.lt_of_succ_lt hb)
    have hpushed := number_succ (h := { h with ext := h.ext + 1 }) (Nat.lt_of_succ_lt hb)
    rw [pow_succ, ← mul_assoc, ← hnumber, add_mul] at hpushed
    omega
  · have hcarry : c / b ≤ 1 := by
      have := Nat.div_lt_of_lt_mul (m := c) (n := b) (k := 2) (by rwa [mul_comm])
      omega
    have hsome : c / b = 1 → h.rem ≠ none := fun hone => hfull (by
      have := Nat.div_mul_le_self c b
      rw [hone] at this
      omega)
    have hwritten := number_written (h := h) hb hcarry hsome
    rw [number, pow_zero, Option.toList_some, number_concat, hwritten]
    have hsplit := Nat.div_add_mod c b
    rw [mul_comm] at hsplit
    rw [Nat.mul_one, Nat.add_sub_cancel, add_mul]
    omega

/-- The digits of a number stay below its base, unless a carry runs out of those held back. -/
theorem digits_push (hb : 1 < b) (hc : c < 2 * b) (hfull : b ≤ c → ¬h.Full b)
    (hout : ∀ d ∈ h.out, d < b) (hrem : ∀ d ∈ h.rem, d < b) :
    (∀ d ∈ (h.push b c).out, d < b) ∧ ∀ d ∈ (h.push b c).rem, d < b := by
  rw [push]
  split
  · exact ⟨hout, hrem⟩
  · refine ⟨fun d hd => ?_, fun d hd => ?_⟩
    · rcases List.mem_append.mp hd with hd | hd
      · exact hout d hd
      rcases List.mem_append.mp hd with hd | hd
      · obtain ⟨r, hr, rfl⟩ := Option.map_eq_some_iff.mp (Option.mem_toList.mp hd)
        have hlt := hrem r hr
        by_cases hcarry : b ≤ c
        · have htop : r ≠ b - 1 := by
            rintro rfl
            exact hfull hcarry (.inr hr)
          have hone : c / b < 2 := Nat.div_lt_of_lt_mul (by rwa [mul_comm])
          omega
        · rw [Nat.div_eq_of_lt (by omega)]
          exact hlt
      · rw [(List.mem_replicate.mp hd).2]
        exact Nat.mod_lt _ (by omega)
    · obtain rfl := Option.some.inj hd
      exact Nat.mod_lt _ (by omega)

/-- When the digits that are held back are all the highest. -/
theorem full_push (h' : (h.push b c).Full b) :
    c = b - 1 ∧ h.Full b ∨ c ≠ b - 1 ∧ c % b = b - 1 := by
  rw [push] at h'
  split at h'
  · exact .inl ⟨‹_›, h'⟩
  · rename_i hne
    rcases h' with hnone | htop
    · cases hnone
    · exact .inr ⟨hne, Option.some.inj htop⟩

/-- How many digits have been pushed. -/
def count (h : Held) : Nat := h.out.length + h.rem.toList.length + h.ext

theorem count_push : (h.push b c).count = h.count + 1 := by
  rw [push]
  split
  · simp only [count, Nat.add_assoc]
  · cases hrem : h.rem <;>
      simp only [count, hrem, List.length_append, List.length_replicate, Option.map_none,
        Option.map_some, Option.toList_none, Option.toList_some, List.length_cons,
        List.length_nil] <;>
      omega

end Held

/-! ### Spans -/

/-- The numbers of `depth` digits from `low` on. -/
structure Span where
  depth : Nat
  low : Nat
  width : Nat

namespace Span

/-- The number `c n` that is read to `n` digits lies in the span. -/
def Holds (c : Nat → Nat) (s : Span) : Prop := s.low ≤ c s.depth ∧ c s.depth < s.low + s.width

/-- The span lies in another, read to more digits. -/
def Within (b : Nat) (s' s : Span) : Prop :=
  ∃ k, s'.depth = s.depth + k ∧ s.low * b ^ k ≤ s'.low ∧
    s'.low + s'.width ≤ (s.low + s.width) * b ^ k

variable {b : Nat} {c : Nat → Nat} {s s' s'' : Span}

theorem Within.refl (s : Span) : Within b s s :=
  ⟨0, rfl, by rw [pow_zero, mul_one], by rw [pow_zero, mul_one]⟩

theorem Within.trans (h : Within b s'' s') (h' : Within b s' s) : Within b s'' s := by
  obtain ⟨k, hdepth, hlow, htop⟩ := h
  obtain ⟨k', hdepth', hlow', htop'⟩ := h'
  refine ⟨k' + k, by omega, ?_, ?_⟩
  · calc s.low * b ^ (k' + k) = s.low * b ^ k' * b ^ k := by rw [pow_add, mul_assoc]
      _ ≤ s'.low * b ^ k := Nat.mul_le_mul_right _ hlow'
      _ ≤ s''.low := hlow
  · calc s''.low + s''.width ≤ (s'.low + s'.width) * b ^ k := htop
      _ ≤ (s.low + s.width) * b ^ k' * b ^ k := Nat.mul_le_mul_right _ htop'
      _ = (s.low + s.width) * b ^ (k' + k) := by rw [pow_add, mul_assoc]

/-- A part of a span. -/
theorem within_narrow {low width : Nat} (hlow : s.low ≤ low)
    (htop : low + width ≤ s.low + s.width) :
    Within b ⟨s.depth, low, width⟩ s :=
  ⟨0, rfl, by rwa [pow_zero, mul_one], by rwa [pow_zero, mul_one]⟩

/-- A span read to one more digit. -/
theorem within_shift : Within b ⟨s.depth + 1, s.low * b, s.width * b⟩ s :=
  ⟨1, rfl, by rw [pow_one], by rw [pow_one, add_mul]⟩

theorem div_pow_of_prefix (hc : ∀ n, c (n + 1) / b = c n) (n k : Nat) :
    c (n + k) / b ^ k = c n := by
  induction k with
  | zero => rw [pow_zero, Nat.div_one, Nat.add_zero]
  | succ k ih => rw [← Nat.add_assoc, pow_succ', ← Nat.div_div_eq_div_mul, hc, ih]

/-- What lies in a span lies in those around it, read to as many digits as these. -/
theorem Within.holds (hb : 0 < b) (hc : ∀ n, c (n + 1) / b = c n) (h : Within b s' s)
    (hs : Holds c s') : Holds c s := by
  obtain ⟨k, hdepth, hlow, htop⟩ := h
  have hpow : 0 < b ^ k := Nat.pow_pos hb
  rw [Holds, ← div_pow_of_prefix hc s.depth k, ← hdepth]
  constructor
  · rw [Nat.le_div_iff_mul_le hpow]
    exact hlow.trans hs.1
  · rw [Nat.div_lt_iff_lt_mul hpow]
    exact hs.2.trans_le htop

end Span

/-! ### Bits from the lowest on -/

/-- The first `count` bits of a number. -/
structure LowBits where
  value : Nat
  count : Nat

namespace LowBits

/-- Bits that are put behind those there are. -/
def push (x : LowBits) (v n : Nat) : LowBits := ⟨x.value + v * 2 ^ x.count, x.count + n⟩

/-- The number `v` has these lowest bits. -/
def Of (v : Nat) (x : LowBits) : Prop := v % 2 ^ x.count = x.value

variable {x y z : LowBits} {v n : Nat}

theorem Of.trans {w : Nat} (h : Of w x) (hx : Of x.value y) (hle : y.count ≤ x.count) : Of w y := by
  rw [Of, ← hx, ← h, Nat.mod_mod_of_dvd _ (Nat.pow_dvd_pow 2 hle)]

theorem push_of (hx : x.value < 2 ^ x.count) : Of (x.push v n).value x := by
  rw [Of, push, Nat.add_mul_mod_self_right, Nat.mod_eq_of_lt hx]

theorem push_lt (hx : x.value < 2 ^ x.count) (hv : v < 2 ^ n) :
    (x.push v n).value < 2 ^ (x.push v n).count := by
  rw [push, pow_add]
  calc x.value + v * 2 ^ x.count < 2 ^ x.count + v * 2 ^ x.count := Nat.add_lt_add_right hx _
    _ = (v + 1) * 2 ^ x.count := by ring
    _ ≤ 2 ^ n * 2 ^ x.count := Nat.mul_le_mul_right _ hv
    _ = 2 ^ x.count * 2 ^ n := mul_comm _ _

/-- A number that has the bits of `x` and `v` behind them. -/
theorem Of.push {w : Nat} (h : Of w x) (hv : w / 2 ^ x.count % 2 ^ n = v) : Of w (x.push v n) := by
  show w % 2 ^ (x.count + n) = x.value + v * 2 ^ x.count
  rw [pow_add, Nat.mod_mul, hv, h, Nat.mul_comm]

/-- The bits that were put behind `x` are read behind `x`. -/
theorem Of.read {w : Nat} (h : Of w (x.push v n)) (hx : x.value < 2 ^ x.count) :
    w / 2 ^ x.count % 2 ^ n = v := by
  have hw : w % (2 ^ x.count * 2 ^ n) = x.value + v * 2 ^ x.count := by
    rw [← pow_add]
    exact h
  rw [← Nat.mod_mul_right_div_self, hw, Nat.add_mul_div_right _ _ (by positivity),
    Nat.div_eq_of_lt hx, Nat.zero_add]

end LowBits

end ProofKit
