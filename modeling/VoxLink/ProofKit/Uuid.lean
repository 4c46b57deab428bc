import Mathlib.Data.BitVec
import Mathlib.Tactic

/-! A uuid column of PostgreSQL: 128 bits, read from text by `parse` (braces, missing or extra
hyphens between pairs of bytes, and letters of either case are accepted) and written as text by
`toText` (lower case, hyphens after bytes 4, 6, 8 and 10). -/

/-- The value of a uuid column. -/
abbrev Uuid := BitVec 128

/-- For lists of uuids, whose membership is decided by comparing them. -/
instance : LawfulBEq Uuid := inferInstance

namespace Uuid

/-- The value of a hexadecimal digit. -/
def hexValue (c : Char) : Option Nat :=
  if '0' ≤ c ∧ c ≤ '9' then some (c.toNat - '0'.toNat)
  else if 'a' ≤ c ∧ c ≤ 'f' then some (c.toNat - 'a'.toNat + 10)
  else if 'A' ≤ c ∧ c ≤ 'F' then some (c.toNat - 'A'.toNat + 10)
  else none

/-- The digit of a value below 16, in lower case. -/
def hexChar (d : Nat) : Char :=
  if d < 10 then Char.ofNat ('0'.toNat + d) else Char.ofNat ('a'.toNat + (d - 10))

def dropHyphen : List Char → List Char
  | '-' :: cs => cs
  | cs => cs

/-- Reads `n` bytes of two digits each. A hyphen may follow every second byte of the sixteen,
except the last. -/
def readBytes : Nat → Nat → List Char → Option (Nat × List Char)
  | 0, acc, cs => some (acc, cs)
  | n + 1, acc, a :: b :: cs =>
    match hexValue a, hexValue b with
    | some x, some y =>
      readBytes n (acc * 256 + (x * 16 + y)) (if n % 2 = 0 ∧ 0 < n then dropHyphen cs else cs)
    | _, _ => none
  | _ + 1, _, _ => none

/-- The uuid that a text stands for, when it stands for one. -/
def parse (s : String) : Option Uuid :=
  match s.toList with
  | '{' :: cs =>
    match readBytes 16 0 cs with
    | some (v, ['}']) => some (BitVec.ofNat 128 v)
    | _ => none
  | cs =>
    match readBytes 16 0 cs with
    | some (v, []) => some (BitVec.ofNat 128 v)
    | _ => none

/-- The low `n` bytes of `v`, with the hyphens of the canonical form. -/
def writeBytes : Nat → Nat → List Char
  | 0, _ => []
  | n + 1, v =>
    hexChar (v / 256 ^ n % 256 / 16) :: hexChar (v / 256 ^ n % 256 % 16) ::
      if n = 12 ∨ n = 10 ∨ n = 8 ∨ n = 6 then '-' :: writeBytes n v else writeBytes n v

/-- The canonical text of a uuid. -/
def toText (u : Uuid) : String := String.ofList (writeBytes 16 u.toNat)

theorem hexValue_hexChar {d : Nat} (h : d < 16) : hexValue (hexChar d) = some d := by
  interval_cases d <;> decide

theorem hexChar_ne {d : Nat} (h : d < 16) : hexChar d ≠ '-' ∧ hexChar d ≠ '{' := by
  interval_cases d <;> decide

theorem dropHyphen_writeBytes {n : Nat} (hn : 0 < n) (v : Nat) (rest : List Char) :
    dropHyphen (writeBytes n v ++ rest) = writeBytes n v ++ rest := by
  obtain ⟨m, rfl⟩ : ∃ m, n = m + 1 := ⟨n - 1, by omega⟩
  have h : v / 256 ^ m % 256 / 16 < 16 := by omega
  have hne := (hexChar_ne h).1
  simp only [writeBytes, List.cons_append, dropHyphen]
  split
  · rename_i heq
    exact absurd (List.cons.inj heq).1 hne
  · rfl

/-- The reader gets back the bytes that the writer wrote, and leaves what follows them. -/
theorem readBytes_writeBytes (n acc v : Nat) (rest : List Char) :
    readBytes n acc (writeBytes n v ++ rest) = some (acc * 256 ^ n + v % 256 ^ n, rest) := by
  induction n generalizing acc with
  | zero => simp [readBytes, writeBytes, Nat.mod_one]
  | succ n ih =>
    have hx : v / 256 ^ n % 256 / 16 < 16 := by omega
    have hy : v / 256 ^ n % 256 % 16 < 16 := by omega
    have hb : v / 256 ^ n % 256 / 16 * 16 + v / 256 ^ n % 256 % 16 = v / 256 ^ n % 256 := by omega
    have hv : (acc * 256 + v / 256 ^ n % 256) * 256 ^ n + v % 256 ^ n =
        acc * 256 ^ (n + 1) + v % 256 ^ (n + 1) := by
      rw [pow_succ, Nat.mod_mul]
      ring
    simp only [writeBytes, List.cons_append, readBytes, hexValue_hexChar hx,
      hexValue_hexChar hy, hb]
    by_cases hyphen : n = 12 ∨ n = 10 ∨ n = 8 ∨ n = 6
    · -- the writer put a hyphen, which the reader drops here
      have hn : n % 2 = 0 ∧ 0 < n := by clear hv hb; omega
      rw [if_pos hyphen, if_pos hn, List.cons_append, dropHyphen, ih, hv]
    · rw [if_neg hyphen]
      split
      · rename_i hn
        rw [dropHyphen_writeBytes hn.2, ih, hv]
      · rw [ih, hv]

theorem readBytes_toNat (u : Uuid) (rest : List Char) :
    readBytes 16 0 (writeBytes 16 u.toNat ++ rest) = some (u.toNat, rest) := by
  have hmod : u.toNat % 256 ^ 16 = u.toNat := Nat.mod_eq_of_lt (by have := u.isLt; omega)
  rw [readBytes_writeBytes, hmod, Nat.zero_mul, Nat.zero_add]

/-- The canonical text of a uuid stands for it. -/
@[simp] theorem parse_toText (u : Uuid) : parse (toText u) = some u := by
  have hx : u.toNat / 256 ^ 15 % 256 / 16 < 16 := by omega
  have hread := readBytes_toNat u []
  rw [List.append_nil] at hread
  unfold parse toText
  rw [String.toList_ofList]
  split
  · -- a canonical text starts with a digit
    rename_i heq
    exact absurd (List.cons.inj heq).1 (hexChar_ne hx).2
  · rw [hread]
    simp

/-- Another text of a uuid. -/
def braced (u : Uuid) : String := String.ofList ('{' :: (writeBytes 16 u.toNat ++ ['}']))

theorem parse_braced (u : Uuid) : parse (braced u) = some u := by
  unfold parse braced
  rw [String.toList_ofList]
  simp [readBytes_toNat]

theorem braced_ne_toText (u v : Uuid) : braced u ≠ toText v := by
  intro h
  have hx : v.toNat / 256 ^ 15 % 256 / 16 < 16 := by omega
  have hhead := (List.cons.inj (String.ofList_injective h)).1
  exact (hexChar_ne hx).2 hhead.symm

theorem toText_injective : Function.Injective toText := by
  intro u v h
  have := congrArg parse h
  simpa using this

/-- A character that the text of a uuid may have. -/
def isTextChar (c : Char) : Bool := (hexValue c).isSome || c = '-' || c = '{' || c = '}'

theorem mem_dropHyphen {c : Char} {cs : List Char} (h : c ∈ cs) :
    c ∈ dropHyphen cs ∨ isTextChar c = true := by
  unfold dropHyphen
  split
  · rcases List.mem_cons.mp h with rfl | h
    · exact .inr (by decide)
    · exact .inl h
  · exact .inl h

/-- What the reader has read are characters of uuids. -/
theorem readBytes_chars {n acc v : Nat} {cs rest : List Char}
    (h : readBytes n acc cs = some (v, rest)) {c : Char} (hc : c ∈ cs) :
    c ∈ rest ∨ isTextChar c = true := by
  fun_induction readBytes n acc cs with
  | case1 acc cs =>
    obtain ⟨-, rfl⟩ := Prod.mk.inj (Option.some.inj h)
    exact .inl hc
  | case2 n acc a b cs x y hb ha ih =>
    rcases List.mem_cons.mp hc with rfl | hc
    · simp [isTextChar, ha]
    · rcases List.mem_cons.mp hc with rfl | hc
      · simp [isTextChar, hb]
      · split_ifs at h ih
        · rcases mem_dropHyphen hc with hc | hc
          · exact ih h hc
          · exact .inr hc
        · exact ih h hc
  | case3 => exact nomatch h
  | case4 => exact nomatch h

theorem isTextChar_of_parse {s : String} {u : Uuid} (h : parse s = some u) {c : Char}
    (hc : c ∈ s.toList) : isTextChar c = true := by
  unfold parse at h
  split at h
  · rename_i cs hs
    rw [hs] at hc
    split at h
    · rename_i v hread
      rcases List.mem_cons.mp hc with rfl | hc
      · decide
      · rcases readBytes_chars hread hc with hc | hc
        · rw [List.mem_singleton.mp hc]
          decide
        · exact hc
    · exact nomatch h
  · rename_i cs hs
    split at h
    · rename_i v hread
      rcases readBytes_chars hread hc with hc | hc
      · exact nomatch hc
      · exact hc
    · exact nomatch h

example : parse "{00000000-0000-0000-0000-0000000000Af}" = some 0xaf := by decide

end Uuid
