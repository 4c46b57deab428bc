import Mathlib.Data.List.GetD
import VoxLink.Opus.RangeCoder
import VoxLink.ProofKit.Runs

/-! What the encoder has written. The bytes in front, those held back and `val` are the low end of a
span of codes, and the bytes at the end with the window are the raw bits from the lowest on. -/

namespace VoxLink

namespace Opus

open ProofKit

/-! ### Machine integers -/

theorem u32_eq {n : Nat} (h : n < 2 ^ 32) : u32 n = n := Nat.mod_eq_of_lt h

theorem sub32_eq {a b : Nat} (h : b ≤ a) (ha : a < 2 ^ 32) : sub32 a b = a - b := by
  rw [sub32, u32]
  omega

theorem and_symMax (n : Nat) : n &&& symMax = n % 256 := Nat.and_two_pow_sub_one_eq_mod n 8

theorem and_codeTop (n : Nat) : n &&& (codeTop - 1) = n % 2 ^ 31 :=
  Nat.and_two_pow_sub_one_eq_mod n 31

theorem lt_ilog {v : Nat} (h : 0 < v) : 2 ^ (ilog v - 1) ≤ v ∧ v < 2 ^ ilog v ∧ 0 < ilog v := by
  rw [ilog, if_neg (by omega), Nat.add_sub_cancel]
  exact ⟨Nat.log2_self_le (by omega), Nat.lt_log2_self, Nat.succ_pos _⟩

namespace EcCtx

variable {c c' c'' : EcCtx}

/-! ### Errors stay -/

/-- No error has been undone from `c` to `c'`, and no bits have been taken off the count. -/
structure Later (c c' : EcCtx) : Prop where
  error : c'.error = false → c.error = false
  bits : c.nbitsTotal ≤ c'.nbitsTotal

theorem Later.refl (c : EcCtx) : Later c c := ⟨id, le_rfl⟩

theorem Later.trans (h : Later c c') (h' : Later c' c'') : Later c c'' :=
  ⟨fun hok => h.error (h'.error hok), h.bits.trans h'.bits⟩

/-- A change of other fields. -/
theorem Later.same (herror : c'.error = c.error) (hbits : c.nbitsTotal ≤ c'.nbitsTotal) :
    Later c c' :=
  ⟨fun hok => herror ▸ hok, hbits⟩

theorem later_writeByte {value : Nat} : Later c (c.writeByte value) := by
  rw [writeByte]
  split
  · exact ⟨fun hok => Bool.noConfusion hok, le_rfl⟩
  · exact .same rfl le_rfl

theorem later_writeByteAtEnd {value : Nat} : Later c (c.writeByteAtEnd value) := by
  rw [writeByteAtEnd]
  split
  · exact ⟨fun hok => Bool.noConfusion hok, le_rfl⟩
  · exact .same rfl le_rfl

theorem later_writeBytes {n value : Nat} : Later c (writeBytes n c value) := by
  induction n generalizing c with
  | zero => exact .refl c
  | succ n ih => exact later_writeByte.trans ih

theorem later_writeRem {carry : Nat} : Later c (c.writeRem carry) := by
  rw [writeRem]
  split
  · exact later_writeByte
  · exact .refl c

theorem later_carryOut {sym : Nat} : Later c (c.carryOut sym) := by
  rw [carryOut]
  split
  · exact .same rfl le_rfl
  · exact later_writeRem.trans ⟨later_writeBytes.error, later_writeBytes.bits⟩

theorem later_encShift : Later c c.encShift := by
  refine ⟨later_carryOut.error, ?_⟩
  exact Nat.le_add_right _ _

theorem later_encRounds {n : Nat} : Later c (encRounds n c) := by
  induction n generalizing c with
  | zero => exact .refl c
  | succ n ih =>
    rw [encRounds]
    split
    · exact later_encShift.trans ih
    · exact .refl c

theorem later_flushBits {n window used : Nat} : Later c (flushBits n c window used).1 := by
  induction n generalizing c window used with
  | zero => exact .refl c
  | succ n ih =>
    rw [flushBits]
    split
    · exact later_writeByteAtEnd.trans ih
    · exact .refl c

/-! ### Bytes in front -/

/-- `c'` has written the bytes in front. -/
structure Puts (c c' : EcCtx) (bytes : List UInt8) : Prop where
  eq : c' = { c with buf := Buffer.store c.buf c.offs bytes, offs := c.offs + bytes.length }
  room : c.offs + bytes.length + c.endOffs ≤ c.storage

theorem puts_writeByte {value : Nat} (hok : (c.writeByte value).error = false) :
    Puts c (c.writeByte value) [.ofNat value] := by
  rw [writeByte] at hok ⊢
  split at hok
  · exact Bool.noConfusion hok
  · rename_i hroom
    rw [if_neg hroom]
    refine ⟨rfl, ?_⟩
    rw [List.length_singleton]
    omega

theorem Puts.trans {xs ys : List UInt8} (h : Puts c c' xs) (h' : Puts c' c'' ys)
    (hbuffer : c.storage ≤ c.buf.length) : Puts c c'' (xs ++ ys) := by
  obtain ⟨rfl, hroom⟩ := h
  obtain ⟨rfl, hroom'⟩ := h'
  refine ⟨?_, ?_⟩
  · simp only [Buffer.store_store (show c.offs + xs.length ≤ c.buf.length by omega),
      List.length_append, Nat.add_assoc]
  · rw [List.length_append]
    simp only at hroom'
    omega

theorem puts_nil (hroom : c.offs + c.endOffs ≤ c.storage) : Puts c c [] := by
  refine ⟨?_, hroom⟩
  rw [Buffer.store_nil]
  rfl

theorem puts_writeBytes {n value : Nat} (hroom : c.offs + c.endOffs ≤ c.storage)
    (hbuffer : c.storage ≤ c.buf.length) (hok : (writeBytes n c value).error = false) :
    Puts c (writeBytes n c value) (List.replicate n (.ofNat value)) := by
  induction n generalizing c with
  | zero => exact puts_nil hroom
  | succ n ih =>
    have hfirst := puts_writeByte (later_writeBytes.error hok)
    have hrest : Puts (c.writeByte value) (writeBytes (n + 1) c value)
        (List.replicate n (.ofNat value)) := by
      refine ih ?_ ?_ hok
      · rw [hfirst.eq]
        exact hfirst.room
      · rw [hfirst.eq]
        show c.storage ≤ (Buffer.store c.buf c.offs _).length
        rw [Buffer.length_store]
        · exact hbuffer
        · have := hfirst.room
          omega
    exact hfirst.trans hrest hbuffer

theorem Puts.buffer {bytes : List UInt8} (h : Puts c c' bytes)
    (hbuffer : c.storage ≤ c.buf.length) :
    c'.storage ≤ c'.buf.length := by
  obtain ⟨rfl, hroom⟩ := h
  show c.storage ≤ (Buffer.store c.buf c.offs bytes).length
  rwa [Buffer.length_store]
  omega

/-- The bytes that a symbol other than the highest is written behind. -/
def released (c : EcCtx) (carry : Nat) : List UInt8 :=
  (c.rem.map fun rem => UInt8.ofNat (rem + carry)).toList ++
    List.replicate c.ext (.ofNat ((symMax + carry) &&& symMax))

theorem puts_writeRem {carry : Nat} (hroom : c.offs + c.endOffs ≤ c.storage)
    (hok : (c.writeRem carry).error = false) :
    Puts c (c.writeRem carry) (c.rem.map fun rem => UInt8.ofNat (rem + carry)).toList := by
  rw [writeRem] at hok ⊢
  cases hrem : c.rem with
  | none => exact puts_nil hroom
  | some rem =>
    rw [hrem] at hok
    exact puts_writeByte hok

theorem carryOut_puts {sym : Nat} (hne : sym ≠ symMax) (hroom : c.offs + c.endOffs ≤ c.storage)
    (hbuffer : c.storage ≤ c.buf.length) (hok : (c.carryOut sym).error = false) :
    ∃ c', Puts c c' (c.released (sym >>> symBits)) ∧
      c.carryOut sym = { c' with ext := 0, rem := some (sym &&& symMax) } := by
  rw [carryOut, if_neg hne] at hok ⊢
  refine ⟨_, ?_, rfl⟩
  have hfirst := puts_writeRem hroom (later_writeBytes.error hok)
  have hext : (c.writeRem (sym >>> symBits)).ext = c.ext := by rw [hfirst.eq]
  have hrest := puts_writeBytes (n := (c.writeRem (sym >>> symBits)).ext)
    (by rw [hfirst.eq]; exact hfirst.room) (hfirst.buffer hbuffer) hok
  rw [released, ← hext]
  exact hfirst.trans hrest hbuffer

/-! ### What has been written -/

def front (c : EcCtx) : List Nat := (c.buf.take c.offs).map UInt8.toNat

/-- The bytes at the end, the one written first in front. -/
def back (c : EcCtx) : List Nat :=
  (Buffer.piece c.buf (c.storage - c.endOffs) c.endOffs).reverse.map UInt8.toNat

def held (c : EcCtx) : Held := ⟨c.front, c.rem, c.ext⟩

/-- The codes for which the encoder can still decide. -/
def span (c : EcCtx) : Span := ⟨c.held.count, c.held.number 256 * 2 ^ 31 + c.val, c.rng⟩

def raw (c : EcCtx) : LowBits :=
  ⟨Nat.ofDigits 256 c.back + c.endWindow * 2 ^ (8 * c.endOffs), 8 * c.endOffs + c.nendBits⟩

theorem Puts.front {bytes : List UInt8} (h : Puts c c' bytes) (hbuffer : c.storage ≤ c.buf.length) :
    c'.front = c.front ++ bytes.map UInt8.toNat := by
  obtain ⟨rfl, hroom⟩ := h
  show ((Buffer.store c.buf c.offs bytes).take (c.offs + bytes.length)).map UInt8.toNat = _
  rw [Buffer.take_store_add (by omega), List.map_append]
  rfl

theorem Puts.back {bytes : List UInt8} (h : Puts c c' bytes) (hbuffer : c.storage ≤ c.buf.length) :
    c'.back = c.back := by
  obtain ⟨rfl, hroom⟩ := h
  show (Buffer.piece (Buffer.store c.buf c.offs bytes)
    (c.storage - c.endOffs) c.endOffs).reverse.map
    UInt8.toNat = _
  rw [Buffer.piece_store_of_le (by omega) (by omega)]
  rfl

/-- The invariant of an encoder without an error, whose range need not be normalized. -/
structure Coding (c : EcCtx) : Prop where
  room : c.offs + c.endOffs ≤ c.storage
  buffer : c.storage ≤ c.buf.length
  rem : ∀ d ∈ c.rem, d < 256
  top : c.val + c.rng < 2 ^ 32
  full : c.held.Full 256 → c.val + c.rng ≤ 2 ^ 31
  window : c.endWindow < 2 ^ c.nendBits
  bits : c.nendBits ≤ 32
  count : c.nbitsTotal = 33 + 8 * c.held.count + c.raw.count

/-- What a symbol makes of the bytes in front. -/
structure Emits (c c' : EcCtx) (sym : Nat) : Prop where
  held : c'.held = c.held.push 256 sym
  back : c'.back = c.back
  room : c'.offs + c'.endOffs ≤ c'.storage
  buffer : c'.storage ≤ c'.buf.length
  eq : c' = { c with buf := c'.buf, offs := c'.offs, ext := c'.ext, rem := c'.rem }

theorem map_toNat_ofNat {digits : List Nat} (h : ∀ d ∈ digits, d < 256) :
    (digits.map UInt8.ofNat).map UInt8.toNat = digits := by
  rw [List.map_map]
  refine (List.map_congr_left fun d hd => ?_).trans (List.map_id _)
  exact UInt8.toNat_ofNat_of_lt (h d hd)

theorem released_digits {sym : Nat} (hrem : ∀ d ∈ c.rem, d < 256) (hsym : sym < 512)
    (hfull : 256 ≤ sym → ¬c.held.Full 256) (hne : sym ≠ symMax) :
    (c.released (sym >>> symBits)).map UInt8.toNat =
      (c.rem.map (· + sym / 256)).toList ++ List.replicate c.ext ((255 + sym / 256) % 256) := by
  have hcarry : sym >>> symBits = sym / 256 := Nat.shiftRight_eq_div_pow sym 8
  have hreleased : c.released (sym >>> symBits) =
      ((c.rem.map (· + sym / 256)).toList ++
        List.replicate c.ext ((255 + sym / 256) % 256)).map UInt8.ofNat := by
    rw [released, hcarry, and_symMax, List.map_append, List.map_replicate]
    cases c.rem <;> rfl
  -- they are the digits that a push writes
  have hdigits := (Held.digits_push (h := ⟨[], c.rem, c.ext⟩) (b := 256) (by decide) hsym hfull
    (fun _ hd => absurd hd List.not_mem_nil) hrem).1
  rw [Held.push, if_neg (show ¬sym = 256 - 1 from hne)] at hdigits
  rw [hreleased]
  exact map_toNat_ofNat hdigits

theorem carryOut_emits {sym : Nat} (hroom : c.offs + c.endOffs ≤ c.storage)
    (hbuffer : c.storage ≤ c.buf.length) (hrem : ∀ d ∈ c.rem, d < 256) (hsym : sym < 512)
    (hfull : 256 ≤ sym → ¬c.held.Full 256) (hext : c.ext + 1 < 2 ^ 32)
    (hok : (c.carryOut sym).error = false) : Emits c (c.carryOut sym) sym := by
  by_cases htop : sym = symMax
  · rw [carryOut, if_pos htop, u32_eq hext]
    refine ⟨?_, rfl, hroom, hbuffer, rfl⟩
    rw [Held.push, if_pos (show sym = 256 - 1 from htop)]
    rfl
  · obtain ⟨c', hputs, heq⟩ := carryOut_puts htop hroom hbuffer hok
    rw [heq]
    refine ⟨?_, hputs.back hbuffer, ?_, hputs.buffer hbuffer, ?_⟩
    · rw [Held.push, if_neg (show ¬sym = 256 - 1 from htop)]
      show Held.mk c'.front _ _ = _
      rw [hputs.front hbuffer, released_digits hrem hsym hfull htop, and_symMax]
      rfl
    · rw [hputs.eq]
      exact hputs.room
    · rw [hputs.eq]

/-! ### Codes that are shifted -/

/-- The conditions for the highest symbol of `v` to be emitted, when `w` is the width of the
codes. -/
structure Shiftable (c : EcCtx) (v w : Nat) : Prop where
  room : c.offs + c.endOffs ≤ c.storage
  buffer : c.storage ≤ c.buf.length
  rem : ∀ d ∈ c.rem, d < 256
  top : v + w < 2 ^ 32
  full : c.held.Full 256 → v + w ≤ 2 ^ 31
  width : 0 < w

variable {v w : Nat}

theorem Shiftable.emits (h : Shiftable c v w) (hext : c.ext + 1 < 2 ^ 32)
    (hok : (c.carryOut (v >>> codeShift)).error = false) :
    Emits c (c.carryOut (v >>> codeShift)) (v / 2 ^ 23) := by
  have hsym : v >>> codeShift = v / 2 ^ 23 := Nat.shiftRight_eq_div_pow v 23
  have htop := h.top
  have hwidth := h.width
  rw [hsym] at hok ⊢
  refine carryOut_emits h.room h.buffer h.rem (by omega) (fun hcarry hfull => ?_) hext hok
  have := h.full hfull
  omega

/-- The low end of the codes has one more digit. -/
theorem Emits.low (h : Emits c c' (v / 2 ^ 23)) (hs : Shiftable c v w) :
    c'.held.number 256 * 2 ^ 31 + v * 256 % 2 ^ 31 = (c.held.number 256 * 2 ^ 31 + v) * 256 := by
  have htop := hs.top
  have hwidth := hs.width
  have hpush : (c.held.push 256 (v / 2 ^ 23)).number 256 =
      c.held.number 256 * 256 + v / 2 ^ 23 := by
    refine Held.number_push (by decide) (by omega) fun hcarry hnone => ?_
    have := hs.full (.inl hnone)
    omega
  rw [h.held, hpush]
  omega

theorem Emits.full (h : Emits c c' (v / 2 ^ 23)) (hs : Shiftable c v w) (hfull : c'.held.Full 256) :
    v * 256 % 2 ^ 31 + w * 256 ≤ 2 ^ 31 := by
  have htop := hs.top
  rw [h.held] at hfull
  rcases Held.full_push hfull with ⟨hsym, hfull⟩ | ⟨hne, hsym⟩
  · have := hs.full hfull
    omega
  · omega

theorem Emits.rem (h : Emits c c' (v / 2 ^ 23)) (hs : Shiftable c v w) : ∀ d ∈ c'.rem, d < 256 := by
  have htop := hs.top
  have hdigits := (Held.digits_push (h := c.held) (b := 256) (c := v / 2 ^ 23)
    (by decide) (by omega)
    (fun hcarry hfull => by have := hs.full hfull; have := hs.width; omega)
    (fun d hd => ?_) hs.rem).2
  · rw [← h.held] at hdigits
    exact hdigits
  · obtain ⟨x, -, rfl⟩ := List.mem_map.mp hd
    exact UInt8.toNat_lt x

theorem Emits.count (h : Emits c c' (v / 2 ^ 23)) : c'.held.count = c.held.count + 1 := by
  rw [h.held, Held.count_push]

theorem raw_eq (hback : c'.back = c.back) (hwindow : c'.endWindow = c.endWindow)
    (hoffs : c'.endOffs = c.endOffs) (hbits : c'.nendBits = c.nendBits) : c'.raw = c.raw := by
  rw [raw, raw, hback, hwindow, hoffs, hbits]

/-- The raw bits are left alone. -/
theorem Emits.same {sym : Nat} (h : Emits c c' sym) : c'.endWindow = c.endWindow ∧
    c'.endOffs = c.endOffs ∧ c'.nendBits = c.nendBits := by
  rw [h.eq]
  exact ⟨rfl, rfl, rfl⟩

theorem Emits.raw (h : Emits c c' (v / 2 ^ 23)) : c'.raw = c.raw :=
  raw_eq h.back h.same.1 h.same.2.1 h.same.2.2

/-- The counter of bits is within an `int`. -/
def Counted (c : EcCtx) : Prop := c.nbitsTotal < 2 ^ 31

theorem Coding.ext_lt (h : Coding c) (hbits : Counted c) : c.ext + 1 < 2 ^ 32 := by
  have hcount := h.count
  have hext : c.ext ≤ c.held.count := Nat.le_add_left _ _
  rw [Counted] at hbits
  omega

theorem Coding.shiftable (h : Coding c) (hrng : 0 < c.rng) : Shiftable c c.val c.rng :=
  ⟨h.room, h.buffer, h.rem, h.top, h.full, hrng⟩

theorem encShift_spec (h : Coding c) (hrng : 0 < c.rng) (hbot : c.rng ≤ codeBot) (hbits : Counted c)
    (hok : c.encShift.error = false) :
    Coding c.encShift ∧ c.encShift.rng = c.rng * 256 ∧ c.encShift.raw = c.raw ∧
      c.encShift.span = ⟨c.span.depth + 1, c.span.low * 256, c.span.width * 256⟩ := by
  have hs := h.shiftable hrng
  have hemits := hs.emits (h.ext_lt hbits) hok
  have hbot' : c.rng ≤ 2 ^ 23 := hbot
  have htop := h.top
  have hval : c.encShift.val = c.val * 256 % 2 ^ 31 := by
    show u32 (c.val <<< symBits) &&& (codeTop - 1) = _
    rw [and_codeTop, u32, show c.val <<< symBits = c.val * 256 from Nat.shiftLeft_eq c.val 8]
    omega
  have hrng' : c.encShift.rng = c.rng * 256 := by
    show u32 (c.rng <<< symBits) = _
    rw [show c.rng <<< symBits = c.rng * 256 from Nat.shiftLeft_eq c.rng 8]
    exact u32_eq (by omega)
  have hheld : c.encShift.held = (c.carryOut (c.val >>> codeShift)).held := rfl
  have hraw : c.encShift.raw = c.raw := hemits.raw
  have hcount : c.encShift.held.count = c.held.count + 1 := hemits.count
  have hwindow : c.encShift.endWindow = c.endWindow := hemits.same.1
  have hnend : c.encShift.nendBits = c.nendBits := hemits.same.2.2
  refine ⟨⟨hemits.room, hemits.buffer, hemits.rem hs, ?_, ?_, ?_, ?_, ?_⟩, hrng', hraw, ?_⟩
  · rw [hval, hrng']
    omega
  · intro hfull
    rw [hval, hrng']
    exact hemits.full hs hfull
  · rw [hwindow, hnend]
    exact h.window
  · rw [hnend]
    exact h.bits
  · have hcounted := h.count
    rw [hcount, hraw]
    show c.nbitsTotal + 8 = _
    omega
  · rw [span, hcount, hheld, hval, hrng', hemits.low hs]
    rfl

/-- A range that is not empty is normalized in the end. -/
theorem encRounds_spec {n : Nat} (h : Coding c) (hrng : 0 < c.rng) (htop : c.rng ≤ codeTop)
    (hn : codeBot < c.rng * 256 ^ n) (hbits : Counted (encRounds n c))
    (hok : (encRounds n c).error = false) :
    Coding (encRounds n c) ∧ codeBot < (encRounds n c).rng ∧ (encRounds n c).rng ≤ codeTop ∧
      (encRounds n c).raw = c.raw ∧ (encRounds n c).span.Within 256 c.span := by
  induction n generalizing c with
  | zero =>
    rw [pow_zero, Nat.mul_one] at hn
    exact ⟨h, hn, htop, rfl, .refl _⟩
  | succ n ih =>
    rw [encRounds] at hbits hok ⊢
    split
    · rename_i hbot
      rw [if_pos hbot] at hbits hok
      have hlater : Later c.encShift (encRounds n c.encShift) := later_encRounds
      have hcounted : Counted c := (later_encShift.bits.trans hlater.bits).trans_lt hbits
      obtain ⟨hcoding, hrng', hraw, hspan⟩ :=
        encShift_spec h hrng hbot hcounted (hlater.error hok)
      obtain ⟨hcoding', hlow, hhigh, hraw', hwithin⟩ := ih hcoding (by omega)
        (by rw [hrng']; exact Nat.mul_le_mul_right 256 hbot)
        (by rwa [hrng', Nat.mul_assoc, ← pow_succ']) hbits hok
      refine ⟨hcoding', hlow, hhigh, hraw'.trans hraw, hwithin.trans ?_⟩
      rw [hspan]
      exact Span.within_shift
    · rename_i hbot
      exact ⟨h, Nat.lt_of_not_le hbot, htop, rfl, .refl _⟩

/-! ### Symbols -/

/-- The invariant of an encoder without an error. -/
structure Ready (c : EcCtx) : Prop extends Coding c where
  rng_gt : codeBot < c.rng
  rng_le : c.rng ≤ codeTop

/-- The codes for a symbol: of the range, those that have at least `below` and less than `above`
codes above them. -/
def cut (c : EcCtx) (above below : Nat) : EcCtx :=
  { c with val := c.val + (c.rng - above), rng := above - below }

theorem cut_span {above below : Nat} (hbelow : below < above) (habove : above ≤ c.rng) :
    (c.cut above below).span.Within 256 c.span := by
  show Span.Within 256 ⟨c.span.depth, (c.cut above below).span.low, above - below⟩ c.span
  have hlow : (c.cut above below).span.low = c.span.low + (c.rng - above) := by
    have hheld : (c.cut above below).held = c.held := rfl
    rw [span, span, hheld]
    exact (Nat.add_assoc _ _ _).symm
  rw [hlow]
  refine Span.within_narrow (Nat.le_add_right _ _) ?_
  show c.span.low + (c.rng - above) + (above - below) ≤ c.span.low + c.rng
  omega

theorem Coding.cut {above below : Nat} (h : Coding c) (hbelow : below < above)
    (habove : above ≤ c.rng) : Coding (c.cut above below) := by
  have htop := h.top
  refine ⟨h.room, h.buffer, h.rem, ?_, fun hfull => ?_, h.window, h.bits, h.count⟩
  · show c.val + (c.rng - above) + (above - below) < 2 ^ 32
    omega
  · have := h.full hfull
    show c.val + (c.rng - above) + (above - below) ≤ 2 ^ 31
    omega

/-- The encoder after a symbol. -/
theorem Ready.encNormalize {above below : Nat} (h : Ready c) (hbelow : below < above)
    (habove : above ≤ c.rng) (hbits : Counted (c.cut above below).encNormalize)
    (hok : (c.cut above below).encNormalize.error = false) :
    Ready (c.cut above below).encNormalize ∧ (c.cut above below).encNormalize.raw = c.raw ∧
      (c.cut above below).encNormalize.span.Within 256 (c.cut above below).span := by
  have hrng : (c.cut above below).rng = above - below := rfl
  have hle : above - below ≤ codeTop := (by omega : above - below ≤ c.rng).trans h.rng_le
  obtain ⟨hcoding, hlow, hhigh, hraw, hwithin⟩ := encRounds_spec (n := 4)
    (h.toCoding.cut hbelow habove) (by rw [hrng]; omega) hle
    (by rw [hrng, codeBot]; omega) hbits hok
  exact ⟨⟨hcoding, hlow, hhigh⟩, hraw, hwithin⟩

/-! The functions of the encoder, each as a cut -/

/-- The codes that a symbol of a frequency table has above its first one. -/
def above (rng r ft fl : Nat) : Nat := if fl = 0 then rng else r * (ft - fl)

section Cuts

variable {fl fh ft bits logp : Nat}

theorem above_bounds (h : Ready c) (hfl : fl < fh) (hfh : fh ≤ ft) (hft : ft ≤ codeBot) :
    c.rng / ft * (ft - fh) < above c.rng (c.rng / ft) ft fl ∧
      above c.rng (c.rng / ft) ft fl ≤ c.rng := by
  have hpos : 0 < c.rng / ft := Nat.div_pos (hft.trans (Nat.le_of_lt h.rng_gt)) (by omega)
  have hle : c.rng / ft * ft ≤ c.rng := Nat.div_mul_le_self _ _
  have hless : c.rng / ft * (ft - fh) < c.rng / ft * (ft - fl) :=
    Nat.mul_lt_mul_of_pos_left (by omega) hpos
  have hmost : c.rng / ft * (ft - fl) ≤ c.rng / ft * ft := Nat.mul_le_mul_left _ (Nat.sub_le _ _)
  rw [above]
  split
  · omega
  · omega

theorem encode_cut (h : Ready c) (hfl : fl < fh) (hfh : fh ≤ ft) (hft : ft ≤ codeBot) :
    c.encode fl fh ft = (c.cut (above c.rng (c.rng / ft) ft fl)
      (c.rng / ft * (ft - fh))).encNormalize := by
  obtain ⟨hbelow, habove⟩ := above_bounds h hfl hfh hft
  have htop := h.top
  have hft' : ft < 2 ^ 32 := hft.trans_lt (by decide)
  have hdiff : c.rng / ft * (fh - fl) = c.rng / ft * (ft - fl) - c.rng / ft * (ft - fh) := by
    rw [← Nat.mul_sub]
    congr 1
    omega
  have hrng : c.rng < 2 ^ 32 := by omega
  rw [above] at hbelow habove
  rw [encode, above, cut]
  by_cases hzero : fl = 0
  · rw [if_pos hzero] at hbelow
    rw [if_pos hzero, if_neg (by omega), Nat.sub_self, Nat.add_zero, sub32_eq hfh hft',
      u32_eq (by omega), sub32_eq (by omega) hrng]
  · rw [if_neg hzero] at hbelow habove
    rw [if_neg hzero, if_pos (by omega), sub32_eq (by omega) hft', sub32_eq (by omega) (by omega),
      u32_eq (show _ * (ft - fl) < _ by omega), sub32_eq habove hrng, u32_eq (by omega), hdiff,
      u32_eq (by omega)]

theorem encodeBin_eq : c.encodeBin fl fh bits = c.encode fl fh (2 ^ bits) := by
  rw [encodeBin, encode, Nat.shiftRight_eq_div_pow, Nat.one_shiftLeft]

theorem encBitLogp_cut {val : Bool} (h : Ready c) :
    c.encBitLogp val logp = (c.cut (if val then c.rng / 2 ^ logp else c.rng)
      (if val then 0 else c.rng / 2 ^ logp)).encNormalize := by
  have htop := h.top
  have hs : c.rng / 2 ^ logp ≤ c.rng := Nat.div_le_self _ _
  rw [encBitLogp, Nat.shiftRight_eq_div_pow, cut]
  generalize c.rng / 2 ^ logp = s at hs
  cases val with
  | true =>
    simp only [if_true, Nat.sub_zero, sub32_eq hs (by omega)]
    rw [u32_eq (by omega)]
  | false =>
    simp only [Bool.false_eq_true, if_false, Nat.sub_self, Nat.add_zero, sub32_eq hs (by omega)]

theorem bit_bounds (val : Bool) (h : Ready c) (hlogp : 1 ≤ logp) (hmost : logp ≤ 23) :
    (if val then 0 else c.rng / 2 ^ logp) < (if val then c.rng / 2 ^ logp else c.rng) ∧
      (if val then c.rng / 2 ^ logp else c.rng) ≤ c.rng := by
  have hpow : 2 ^ logp ≤ c.rng :=
    (Nat.pow_le_pow_right (by decide) hmost).trans (Nat.le_of_lt h.rng_gt)
  have hpos : 0 < c.rng / 2 ^ logp := Nat.div_pos hpow (by positivity)
  have hless : c.rng / 2 ^ logp < c.rng :=
    Nat.div_lt_self (hpos.trans_le (Nat.div_le_self _ _)) (Nat.one_lt_two_pow (by omega))
  cases val with
  | true => exact ⟨hpos, Nat.le_of_lt hless⟩
  | false => exact ⟨hless, le_rfl⟩

/-- The codes that a symbol of an inverse table has above its first one. -/
def tableAbove (rng r : Nat) (icdf : List Nat) (s : Nat) : Nat :=
  if s = 0 then rng else r * icdf.getD (s - 1) 0

theorem tableAbove_bounds {s ftb : Nat} {icdf : List Nat} (h : Ready c) (hftb : ftb ≤ 23)
    (hfirst : s = 0 → icdf.getD 0 0 < 2 ^ ftb)
    (hlater : s ≠ 0 → icdf.getD s 0 < icdf.getD (s - 1) 0 ∧ icdf.getD (s - 1) 0 ≤ 2 ^ ftb) :
    c.rng / 2 ^ ftb * icdf.getD s 0 < tableAbove c.rng (c.rng / 2 ^ ftb) icdf s ∧
      tableAbove c.rng (c.rng / 2 ^ ftb) icdf s ≤ c.rng := by
  have hpow : 2 ^ ftb ≤ c.rng :=
    (Nat.pow_le_pow_right (by decide) hftb).trans (Nat.le_of_lt h.rng_gt)
  have hpos : 0 < c.rng / 2 ^ ftb := Nat.div_pos hpow (by positivity)
  have hle : c.rng / 2 ^ ftb * 2 ^ ftb ≤ c.rng := Nat.div_mul_le_self _ _
  rw [tableAbove]
  split
  · rename_i hzero
    rw [hzero]
    have hless := Nat.mul_lt_mul_of_pos_left (hfirst hzero) hpos
    omega
  · rename_i hne
    obtain ⟨hless, hmost⟩ := hlater hne
    exact ⟨Nat.mul_lt_mul_of_pos_left hless hpos, (Nat.mul_le_mul_left _ hmost).trans hle⟩

theorem encIcdf_cut {s ftb : Nat} {icdf : List Nat} (h : Ready c) (hftb : ftb ≤ 23)
    (hfirst : s = 0 → icdf.getD 0 0 < 2 ^ ftb)
    (hlater : s ≠ 0 → icdf.getD s 0 < icdf.getD (s - 1) 0 ∧ icdf.getD (s - 1) 0 ≤ 2 ^ ftb) :
    c.encIcdf s icdf ftb = (c.cut (tableAbove c.rng (c.rng / 2 ^ ftb) icdf s)
      (c.rng / 2 ^ ftb * icdf.getD s 0)).encNormalize := by
  obtain ⟨hbelow, habove⟩ := tableAbove_bounds h hftb hfirst hlater
  have htop := h.top
  have hrng : c.rng < 2 ^ 32 := by omega
  rw [tableAbove] at hbelow habove
  rw [encIcdf, Nat.shiftRight_eq_div_pow, tableAbove, cut]
  by_cases hzero : s = 0
  · rw [if_pos hzero] at hbelow
    rw [if_pos hzero, if_neg (by omega), Nat.sub_self, Nat.add_zero, u32_eq (by omega),
      sub32_eq (by omega) hrng]
  · rw [if_neg hzero] at hbelow habove
    obtain ⟨hless, hmost⟩ := hlater hzero
    have hsmall : icdf.getD (s - 1) 0 < 2 ^ 32 :=
      hmost.trans_lt ((Nat.pow_le_pow_right (by decide) hftb).trans_lt (by decide))
    rw [if_neg hzero, if_pos (by omega), sub32_eq (Nat.le_of_lt hless) hsmall, Nat.mul_sub,
      u32_eq (show _ * icdf.getD (s - 1) 0 < _ by omega), sub32_eq habove hrng, u32_eq (by omega),
      u32_eq (by omega)]

end Cuts

/-! ### Raw bits -/

/-- Raw bits of which the window holds the last ones. -/
def rawWith (c : EcCtx) (window used : Nat) : LowBits :=
  ⟨Nat.ofDigits 256 c.back + window * 2 ^ (8 * c.endOffs), 8 * c.endOffs + used⟩

/-- What the bytes at the end make of a context. -/
structure PutsEnd (c c' : EcCtx) : Prop where
  front : c'.front = c.front
  room : c'.offs + c'.endOffs ≤ c'.storage
  buffer : c'.storage ≤ c'.buf.length
  eq : c' = { c with buf := c'.buf, endOffs := c'.endOffs }

theorem length_back (hroom : c.offs + c.endOffs ≤ c.storage) (hbuffer : c.storage ≤ c.buf.length) :
    c.back.length = c.endOffs := by
  rw [back, List.length_map, List.length_reverse, Buffer.length_piece]
  omega

theorem writeByteAtEnd_spec {value : Nat} (hbuffer : c.storage ≤ c.buf.length)
    (hok : (c.writeByteAtEnd value).error = false) :
    PutsEnd c (c.writeByteAtEnd value) ∧ (c.writeByteAtEnd value).endOffs = c.endOffs + 1 ∧
      (c.writeByteAtEnd value).back = c.back ++ [value % 256] := by
  rw [writeByteAtEnd] at hok ⊢
  split at hok
  · exact Bool.noConfusion hok
  · rename_i hroom
    rw [if_neg hroom]
    have hdst : c.storage - (c.endOffs + 1) ≤ c.buf.length := by omega
    refine ⟨⟨?_, ?_, ?_, rfl⟩, rfl, ?_⟩
    · show ((Buffer.store c.buf _ _).take c.offs).map UInt8.toNat = _
      rw [Buffer.take_store_of_before (by omega) hdst]
      rfl
    · show c.offs + (c.endOffs + 1) ≤ c.storage
      omega
    · show c.storage ≤ (Buffer.store c.buf _ [UInt8.ofNat value]).length
      rwa [Buffer.length_store]
      rw [List.length_singleton]
      omega
    · have hpiece : Buffer.piece (Buffer.store c.buf (c.storage - (c.endOffs + 1))
        [UInt8.ofNat value])
          (c.storage - (c.endOffs + 1)) (c.endOffs + 1) =
            UInt8.ofNat value :: Buffer.piece c.buf (c.storage - c.endOffs) c.endOffs := by
        rw [Buffer.piece, Buffer.drop_store hdst, List.length_singleton,
          show c.storage - (c.endOffs + 1) + 1 = c.storage - c.endOffs by omega]
        rfl
      show (Buffer.piece _ _ _).reverse.map UInt8.toNat = _
      rw [hpiece, List.reverse_cons, List.map_append]
      rfl

theorem PutsEnd.trans (h : PutsEnd c c') (h' : PutsEnd c' c'') : PutsEnd c c'' := by
  refine ⟨h'.front.trans h.front, h'.room, h'.buffer, ?_⟩
  have heq := h'.eq
  rw [h.eq] at heq
  exact heq

theorem pow_256 (n : Nat) : 256 ^ n = 2 ^ (8 * n) := by
  show (2 ^ 8) ^ n = _
  rw [← pow_mul]

/-- A byte of the window that is written at the end stays a byte of the raw bits. -/
theorem rawWith_byte {window used : Nat} (hroom : c.offs + c.endOffs ≤ c.storage)
    (hbuffer : c.storage ≤ c.buf.length) (hbyte : 8 ≤ used)
    (hok : (c.writeByteAtEnd (window &&& symMax)).error = false) :
    (c.writeByteAtEnd (window &&& symMax)).rawWith (window / 256) (used - 8) =
      c.rawWith window used := by
  obtain ⟨-, hoffs, hback⟩ := writeByteAtEnd_spec hbuffer hok
  have hsplit := Nat.div_add_mod window 256
  have hexp : 8 * (c.endOffs + 1) = 8 * c.endOffs + 8 := rfl
  rw [rawWith, rawWith, hback, hoffs, and_symMax, Nat.mod_mod, Nat.ofDigits_append,
    length_back hroom hbuffer, Nat.ofDigits_singleton, pow_256, hexp, pow_add]
  congr 1
  · generalize 2 ^ (8 * c.endOffs) = q
    calc Nat.ofDigits 256 c.back + q * (window % 256) + window / 256 * (q * 2 ^ 8)
        = Nat.ofDigits 256 c.back + (256 * (window / 256) + window % 256) * q := by ring
      _ = Nat.ofDigits 256 c.back + window * q := by rw [hsplit]
  · omega

/-- Whole bytes that are written at the end stay raw bits. -/
theorem flushBits_spec {n window used : Nat} (hroom : c.offs + c.endOffs ≤ c.storage)
    (hbuffer : c.storage ≤ c.buf.length) (hwindow : window < 2 ^ used) (hn : used < 8 * (n + 1))
    (hok : (flushBits n c window used).1.error = false) :
    PutsEnd c (flushBits n c window used).1 ∧
      (flushBits n c window used).1.rawWith (flushBits n c window used).2.1
        (flushBits n c window used).2.2 = c.rawWith window used ∧
      (flushBits n c window used).2.1 < 2 ^ (flushBits n c window used).2.2 ∧
      (flushBits n c window used).2.2 < 8 := by
  induction n generalizing c window used with
  | zero => exact ⟨⟨rfl, hroom, hbuffer, rfl⟩, rfl, hwindow, hn⟩
  | succ n ih =>
    rw [flushBits] at hok ⊢
    split
    · rename_i hbyte
      rw [if_pos hbyte] at hok
      have hbyte' : 8 ≤ used := hbyte
      have hshift : window >>> symBits = window / 256 := Nat.shiftRight_eq_div_pow window 8
      have hpow : 2 ^ used = 2 ^ 8 * 2 ^ (used - 8) := by rw [← pow_add, Nat.add_sub_cancel' hbyte']
      have hsmall : window / 256 < 2 ^ (used - 8) := Nat.div_lt_of_lt_mul (hpow ▸ hwindow)
      have hbyteOk := later_flushBits.error hok
      obtain ⟨hputs, -, -⟩ := writeByteAtEnd_spec hbuffer hbyteOk
      rw [hshift] at hok ⊢
      obtain ⟨hputs', hraw, hwindow', hused⟩ := ih hputs.room hputs.buffer hsmall
        (show used - 8 < 8 * (n + 1) by omega) hok
      exact ⟨hputs.trans hputs', hraw.trans (rawWith_byte hroom hbuffer hbyte' hbyteOk),
        hwindow', hused⟩
    · rename_i hfew
      exact ⟨⟨rfl, hroom, hbuffer, rfl⟩, rfl, hwindow, Nat.lt_of_not_le hfew⟩

/-- Bits that are put over those that are there. -/
theorem or_shiftLeft {window fl used : Nat} (hwindow : window < 2 ^ used) :
    window ||| fl <<< used = window + fl * 2 ^ used := by
  rw [Nat.or_comm, ← Nat.shiftLeft_add_eq_or_of_lt hwindow, Nat.shiftLeft_eq, Nat.add_comm]

/-- The window with room for the bits. -/
def roomFor (c : EcCtx) (bits : Nat) : EcCtx × Nat × Nat :=
  if windowSize < c.nendBits + bits then flushBits 4 c c.endWindow c.nendBits
  else (c, c.endWindow, c.nendBits)

theorem encBits_eq {fl bits : Nat} : c.encBits fl bits = { (c.roomFor bits).1 with
    endWindow := (c.roomFor bits).2.1 ||| u32 (fl <<< (c.roomFor bits).2.2)
    nendBits := (c.roomFor bits).2.2 + bits
    nbitsTotal := (c.roomFor bits).1.nbitsTotal + bits } := rfl

theorem roomFor_spec {bits : Nat} (h : Coding c) (hmost : bits ≤ 25)
    (hok : (c.roomFor bits).1.error = false) :
    PutsEnd c (c.roomFor bits).1 ∧
      (c.roomFor bits).1.rawWith (c.roomFor bits).2.1 (c.roomFor bits).2.2 = c.raw ∧
      (c.roomFor bits).2.1 < 2 ^ (c.roomFor bits).2.2 ∧ (c.roomFor bits).2.2 + bits ≤ 32 := by
  have hbits := h.bits
  rw [roomFor] at hok ⊢
  split
  · rename_i hfull
    rw [if_pos hfull] at hok
    obtain ⟨hputs, hraw, hwindow, hused⟩ := flushBits_spec h.room h.buffer h.window
      (show c.nendBits < 8 * (4 + 1) by omega) hok
    exact ⟨hputs, hraw, hwindow, by omega⟩
  · rename_i hroom
    exact ⟨⟨rfl, h.room, h.buffer, rfl⟩, rfl, h.window, Nat.le_of_not_lt hroom⟩

theorem later_encBits {fl bits : Nat} : Later c (c.encBits fl bits) := by
  have hroom : Later c (c.roomFor bits).1 := by
    rw [roomFor]
    split
    · exact later_flushBits
    · exact .refl c
  rw [encBits_eq]
  exact ⟨hroom.error, hroom.bits.trans (Nat.le_add_right _ _)⟩

/-- The fields that bytes at the end leave alone. -/
theorem PutsEnd.same (h : PutsEnd c c') : c'.rem = c.rem ∧ c'.ext = c.ext ∧ c'.val = c.val ∧
    c'.rng = c.rng ∧ c'.nbitsTotal = c.nbitsTotal := by
  rw [h.eq]
  exact ⟨rfl, rfl, rfl, rfl, rfl⟩

theorem PutsEnd.held (h : PutsEnd c c') : c'.held = c.held := by
  rw [EcCtx.held, EcCtx.held, h.front, h.same.1, h.same.2.1]

theorem PutsEnd.span (h : PutsEnd c c') : c'.span = c.span := by
  rw [EcCtx.span, EcCtx.span, h.held, h.same.2.2.1, h.same.2.2.2.1]

theorem encBits_same {fl bits : Nat} (hok : (c.encBits fl bits).error = false) (h : Ready c)
    (hmost : bits ≤ 25) : (c.encBits fl bits).rng = c.rng ∧
      (c.encBits fl bits).nbitsTotal = c.nbitsTotal + bits := by
  obtain ⟨hputs, -⟩ := roomFor_spec h.toCoding hmost hok
  refine ⟨hputs.same.2.2.2.1, ?_⟩
  rw [← hputs.same.2.2.2.2]
  rfl

theorem encBits_spec {fl bits : Nat} (h : Ready c) (hfl : fl < 2 ^ bits) (hmost : bits ≤ 25)
    (hok : (c.encBits fl bits).error = false) :
    Ready (c.encBits fl bits) ∧ (c.encBits fl bits).raw = c.raw.push fl bits ∧
      (c.encBits fl bits).span = c.span := by
  obtain ⟨hputs, hraw, hwindow, hroom⟩ := roomFor_spec h.toCoding hmost hok
  have hheld : (c.encBits fl bits).held = c.held := hputs.held
  have hval : (c.encBits fl bits).val = c.val := hputs.same.2.2.1
  have hrem : (c.encBits fl bits).rem = c.rem := hputs.same.1
  obtain ⟨hrng, htotal⟩ := encBits_same hok h hmost
  have hfit : fl * 2 ^ (c.roomFor bits).2.2 < 2 ^ 32 := by
    calc fl * 2 ^ (c.roomFor bits).2.2 < 2 ^ bits * 2 ^ (c.roomFor bits).2.2 :=
          Nat.mul_lt_mul_of_pos_right hfl (by positivity)
      _ = 2 ^ (bits + (c.roomFor bits).2.2) := (pow_add _ _ _).symm
      _ ≤ 2 ^ 32 := Nat.pow_le_pow_right (by decide) (by omega)
  have hwindow' : (c.encBits fl bits).endWindow =
      (c.roomFor bits).2.1 + fl * 2 ^ (c.roomFor bits).2.2 := by
    show (c.roomFor bits).2.1 ||| u32 (fl <<< (c.roomFor bits).2.2) = _
    rw [u32_eq (by rwa [Nat.shiftLeft_eq]), or_shiftLeft hwindow]
  have hraw' : (c.encBits fl bits).raw = c.raw.push fl bits := by
    have hback : (c.encBits fl bits).back = (c.roomFor bits).1.back := rfl
    have hoffs : (c.encBits fl bits).endOffs = (c.roomFor bits).1.endOffs := rfl
    have hnend : (c.encBits fl bits).nendBits = (c.roomFor bits).2.2 + bits := rfl
    rw [← hraw, raw, hback, hwindow', hoffs, hnend, LowBits.push, rawWith]
    congr 1
    · rw [pow_add]
      ring
    · ring
  refine ⟨⟨⟨hputs.room, hputs.buffer, ?_, ?_, ?_, ?_, hroom, ?_⟩, ?_, ?_⟩, hraw', ?_⟩
  · rw [hrem]
    exact h.rem
  · rw [hval, hrng]
    exact h.top
  · rw [hval, hrng, hheld]
    exact h.full
  · rw [hwindow']
    exact LowBits.push_lt (x := ⟨(c.roomFor bits).2.1, (c.roomFor bits).2.2⟩) hwindow hfl
  · have hcount := h.count
    rw [htotal, hheld, hraw']
    show c.nbitsTotal + bits = 33 + 8 * c.held.count + (c.raw.count + bits)
    omega
  · rw [hrng]
    exact h.rng_gt
  · rw [hrng]
    exact h.rng_le
  · rw [span, span, hheld, hval, hrng]

theorem back_lt (hroom : c.offs + c.endOffs ≤ c.storage) (hbuffer : c.storage ≤ c.buf.length) :
    Nat.ofDigits 256 c.back < 2 ^ (8 * c.endOffs) := by
  rw [← pow_256, ← length_back hroom hbuffer]
  refine Nat.ofDigits_lt_base_pow_length (by decide) fun d hd => ?_
  obtain ⟨x, -, rfl⟩ := List.mem_map.mp hd
  exact UInt8.toNat_lt x

theorem Coding.raw_lt (h : Coding c) : c.raw.value < 2 ^ c.raw.count :=
  LowBits.push_lt (x := ⟨Nat.ofDigits 256 c.back, 8 * c.endOffs⟩) (back_lt h.room h.buffer) h.window

/-! ### What an encoder is told -/

end EcCtx

/-- What a function of the encoder is called with, but for `ec_enc_patch_initial_bits`. -/
inductive EcSymbol where
  | range (fl fh ft : Nat)
  | bin (fl fh bits : Nat)
  | bit (val : Bool) (logp : Nat)
  | icdf (s : Nat) (table : List Nat) (ftb : Nat)
  | uint (fl ft : Nat)
  | raw (fl bits : Nat)
deriving DecidableEq, Repr

/-- What the functions ask of their arguments: every symbol has a frequency that is not zero, and
the tables do not increase. -/
def EcSymbol.Valid : EcSymbol → Prop
  | .range fl fh ft => fl < fh ∧ fh ≤ ft ∧ ft ≤ codeBot
  | .bin fl fh bits => fl < fh ∧ fh ≤ 2 ^ bits ∧ bits ≤ 23
  | .bit _ logp => 1 ≤ logp ∧ logp ≤ 23
  | .icdf s table ftb => s < table.length ∧ table.Pairwise (· ≥ ·) ∧ (∀ x ∈ table, x ≤ 2 ^ ftb) ∧
      ftb ≤ 23 ∧ (s = 0 → table.getD 0 0 < 2 ^ ftb) ∧
      (s ≠ 0 → table.getD s 0 < table.getD (s - 1) 0)
  | .uint fl ft => fl < ft ∧ 2 ≤ ft ∧ ft < 2 ^ 32
  | .raw fl bits => fl < 2 ^ bits ∧ 1 ≤ bits ∧ bits ≤ 25

instance : ∀ s : EcSymbol, Decidable s.Valid
  | .range fl fh ft => inferInstanceAs (Decidable (fl < fh ∧ fh ≤ ft ∧ ft ≤ codeBot))
  | .bin fl fh bits => inferInstanceAs (Decidable (fl < fh ∧ fh ≤ 2 ^ bits ∧ bits ≤ 23))
  | .bit _ logp => inferInstanceAs (Decidable (1 ≤ logp ∧ logp ≤ 23))
  | .icdf s table ftb => inferInstanceAs (Decidable (s < table.length ∧ table.Pairwise (· ≥ ·) ∧
      (∀ x ∈ table, x ≤ 2 ^ ftb) ∧ ftb ≤ 23 ∧ (s = 0 → table.getD 0 0 < 2 ^ ftb) ∧
      (s ≠ 0 → table.getD s 0 < table.getD (s - 1) 0)))
  | .uint fl ft => inferInstanceAs (Decidable (fl < ft ∧ 2 ≤ ft ∧ ft < 2 ^ 32))
  | .raw fl bits => inferInstanceAs (Decidable (fl < 2 ^ bits ∧ 1 ≤ bits ∧ bits ≤ 25))

namespace EcCtx

variable {c c' c'' : EcCtx}

def enc (c : EcCtx) : EcSymbol → EcCtx
  | .range fl fh ft => c.encode fl fh ft
  | .bin fl fh bits => c.encodeBin fl fh bits
  | .bit val logp => c.encBitLogp val logp
  | .icdf s table ftb => c.encIcdf s table ftb
  | .uint fl ft => c.encUint fl ft
  | .raw fl bits => c.encBits fl bits

theorem later_encNormalize (herror : c'.error = c.error) (hbits : c'.nbitsTotal = c.nbitsTotal) :
    Later c c'.encNormalize :=
  Later.trans (.same herror (Nat.le_of_eq hbits.symm)) later_encRounds

theorem later_encode {fl fh ft : Nat} : Later c (c.encode fl fh ft) := by
  rw [encode]
  split <;> exact later_encNormalize rfl rfl

theorem later_enc (s : EcSymbol) : Later c (c.enc s) := by
  cases s with
  | range fl fh ft => exact later_encode
  | bin fl fh bits =>
    rw [enc, encodeBin_eq]
    exact later_encode
  | bit val logp => exact later_encNormalize rfl rfl
  | icdf s table ftb =>
    rw [enc, encIcdf]
    split <;> exact later_encNormalize rfl rfl
  | uint fl ft =>
    rw [enc, encUint]
    split
    · exact later_encode.trans later_encBits
    · exact later_encode
  | raw fl bits => exact later_encBits

/-- The encoder `c'` has coded on from `c`: it has narrowed the codes and added raw bits. -/
structure Codes (c c' : EcCtx) : Prop where
  ready : Ready c'
  span : c'.span.Within 256 c.span
  raw : LowBits.Of c'.raw.value c.raw
  count : c.raw.count ≤ c'.raw.count

theorem Codes.trans (h : Codes c c') (h' : Codes c' c'') : Codes c c'' :=
  ⟨h'.ready, h'.span.trans h.span, h'.raw.trans h.raw h.count, h.count.trans h'.count⟩

theorem Codes.refl (h : Ready c) : Codes c c :=
  ⟨h, .refl _, Nat.mod_eq_of_lt h.raw_lt, le_rfl⟩

/-- A symbol codes on as a cut of the range. -/
theorem codes_cut {above below : Nat} (h : Ready c) (hbelow : below < above)
    (habove : above ≤ c.rng)
    (hbits : Counted (c.cut above below).encNormalize)
    (hok : (c.cut above below).encNormalize.error = false) :
    Codes c (c.cut above below).encNormalize ∧
      (c.cut above below).encNormalize.span.Within 256 (c.cut above below).span := by
  obtain ⟨hready, hraw, hwithin⟩ := h.encNormalize hbelow habove hbits hok
  refine ⟨⟨hready, hwithin.trans (cut_span hbelow habove), ?_, ?_⟩, hwithin⟩
  · rw [hraw]
    exact Nat.mod_eq_of_lt h.raw_lt
  · rw [hraw]

theorem codes_bits {fl bits : Nat} (h : Ready c) (hfl : fl < 2 ^ bits) (hmost : bits ≤ 25)
    (hok : (c.encBits fl bits).error = false) : Codes c (c.encBits fl bits) := by
  obtain ⟨hready, hraw, hspan⟩ := encBits_spec h hfl hmost hok
  refine ⟨hready, hspan ▸ .refl _, ?_, ?_⟩
  · rw [hraw]
    exact LowBits.push_of h.raw_lt
  · rw [hraw]
    exact Nat.le_add_right _ _

theorem codes_encode {fl fh ft : Nat} (h : Ready c) (hfl : fl < fh) (hfh : fh ≤ ft)
    (hft : ft ≤ codeBot) (hbits : Counted (c.encode fl fh ft))
    (hok : (c.encode fl fh ft).error = false) : Codes c (c.encode fl fh ft) := by
  rw [encode_cut h hfl hfh hft] at hbits hok ⊢
  obtain ⟨hbelow, habove⟩ := above_bounds h hfl hfh hft
  exact (codes_cut h hbelow habove hbits hok).1

/-- The parts of `ec_enc_uint`: a symbol of at most eight bits, and raw bits. -/
theorem uint_parts {fl ft : Nat} (hfl : fl < ft) (hft : 2 ≤ ft) (hft' : ft < 2 ^ 32) :
    if uintBits < ilog (ft - 1) then
      fl >>> (ilog (ft - 1) - uintBits) < (ft - 1) >>> (ilog (ft - 1) - uintBits) + 1 ∧
        (ft - 1) >>> (ilog (ft - 1) - uintBits) + 1 ≤ codeBot ∧ ilog (ft - 1) - uintBits ≤ 24 ∧
        fl &&& (1 <<< (ilog (ft - 1) - uintBits) - 1) = fl % 2 ^ (ilog (ft - 1) - uintBits)
    else ft ≤ codeBot := by
  obtain ⟨hlow, hhigh, hpos⟩ := lt_ilog (show 0 < ft - 1 by omega)
  have hbits : ilog (ft - 1) ≤ 32 := by
    have hlt : 2 ^ (ilog (ft - 1) - 1) < 2 ^ 32 := hlow.trans_lt (by omega)
    have := (Nat.pow_lt_pow_iff_right (by decide)).mp hlt
    omega
  split
  · rename_i hmany
    have hmany' : 8 < ilog (ft - 1) := hmany
    have height : uintBits = 8 := rfl
    refine ⟨?_, ?_, by omega, ?_⟩
    · rw [Nat.shiftRight_eq_div_pow, Nat.shiftRight_eq_div_pow]
      exact Nat.lt_succ_of_le (Nat.div_le_div_right (by omega))
    · rw [Nat.shiftRight_eq_div_pow]
      have hsmall : (ft - 1) / 2 ^ (ilog (ft - 1) - uintBits) < 256 := by
        refine Nat.div_lt_of_lt_mul ?_
        rw [show (256 : Nat) = 2 ^ 8 from rfl, ← pow_add, height, Nat.sub_add_cancel (by omega)]
        exact hhigh
      rw [codeBot]
      omega
    · rw [Nat.one_shiftLeft, Nat.and_two_pow_sub_one_eq_mod]
  · rename_i hfew
    have hfew' : ilog (ft - 1) ≤ 8 := Nat.le_of_not_lt hfew
    have hsmall : ft - 1 < 2 ^ 8 := hhigh.trans_le (Nat.pow_le_pow_right (by decide) hfew')
    rw [codeBot]
    omega

theorem encUint_many {fl ft : Nat} (hmany : uintBits < ilog (ft - 1)) :
    c.encUint fl ft = (c.encode (fl >>> (ilog (ft - 1) - uintBits))
      (fl >>> (ilog (ft - 1) - uintBits) + 1) ((ft - 1) >>> (ilog (ft - 1) - uintBits) + 1)).encBits
        (fl &&& (1 <<< (ilog (ft - 1) - uintBits) - 1)) (ilog (ft - 1) - uintBits) := by
  rw [encUint, if_pos hmany]

theorem encUint_few {fl ft : Nat} (hfew : ¬uintBits < ilog (ft - 1)) :
    c.encUint fl ft = c.encode fl (fl + 1) ft := by
  rw [encUint, if_neg hfew]

theorem icdf_parts {s ftb : Nat} {table : List Nat} (hs : (EcSymbol.icdf s table ftb).Valid) :
    ftb ≤ 23 ∧ (s = 0 → table.getD 0 0 < 2 ^ ftb) ∧
      (s ≠ 0 → table.getD s 0 < table.getD (s - 1) 0 ∧ table.getD (s - 1) 0 ≤ 2 ^ ftb) := by
  obtain ⟨hlength, -, hmost, hftb, hfirst, hlater⟩ := hs
  refine ⟨hftb, hfirst, fun hne => ⟨hlater hne, hmost _ ?_⟩⟩
  have hbefore : s - 1 < table.length := by omega
  rw [List.getD_eq_getElem _ _ hbefore]
  exact List.getElem_mem hbefore

theorem codes_enc {s : EcSymbol} (h : Ready c) (hs : s.Valid) (hbits : Counted (c.enc s))
    (hok : (c.enc s).error = false) : Codes c (c.enc s) := by
  cases s with
  | range fl fh ft => exact codes_encode h hs.1 hs.2.1 hs.2.2 hbits hok
  | bin fl fh bits =>
    rw [enc, encodeBin_eq] at hbits hok ⊢
    exact codes_encode h hs.1 hs.2.1 (Nat.pow_le_pow_right (by decide) hs.2.2) hbits hok
  | bit val logp =>
    rw [enc, encBitLogp_cut h] at hbits hok ⊢
    obtain ⟨hbelow, habove⟩ := bit_bounds val h hs.1 hs.2
    exact (codes_cut h hbelow habove hbits hok).1
  | icdf s table ftb =>
    obtain ⟨hftb, hfirst, hlater⟩ := icdf_parts hs
    rw [enc, encIcdf_cut h hftb hfirst hlater] at hbits hok ⊢
    obtain ⟨hbelow, habove⟩ := tableAbove_bounds h hftb hfirst hlater
    exact (codes_cut h hbelow habove hbits hok).1
  | uint fl ft =>
    have hparts := uint_parts hs.1 hs.2.1 hs.2.2
    by_cases hmany : uintBits < ilog (ft - 1)
    · rw [if_pos hmany] at hparts
      rw [enc, encUint_many hmany] at hbits hok ⊢
      generalize ilog (ft - 1) - uintBits = k at hparts hbits hok ⊢
      obtain ⟨hhigh, hft, hmost, hlow⟩ := hparts
      have hfirst : Codes c (c.encode (fl >>> k) (fl >>> k + 1) ((ft - 1) >>> k + 1)) :=
        codes_encode h (Nat.lt_succ_self _) hhigh hft (later_encBits.bits.trans_lt hbits)
          (later_encBits.error hok)
      refine hfirst.trans (codes_bits hfirst.ready ?_ (hmost.trans (by decide)) hok)
      rw [hlow]
      exact Nat.mod_lt _ (by positivity)
    · rw [if_neg hmany] at hparts
      rw [enc, encUint_few hmany] at hbits hok ⊢
      exact codes_encode h (Nat.lt_succ_self _) hs.1 hparts hbits hok
  | raw fl bits => exact codes_bits h hs.1 hs.2.2 hok

theorem ready_encInit {buf : List UInt8} {size : Nat} (h : size ≤ buf.length) :
    Ready (encInit buf size) := by
  refine ⟨⟨Nat.zero_le _, h, ?_, ?_, ?_, Nat.one_pos, Nat.zero_le _, ?_⟩, ?_, le_rfl⟩
  · intro d hd
    cases hd
  · show 0 + codeTop < 2 ^ 32
    decide
  · intro _
    exact Nat.le_of_eq (Nat.zero_add _)
  · show codeBits + 1 = 33 + 8 * (encInit buf size).held.count + (8 * 0 + 0)
    rfl
  · show codeBot < codeTop
    decide

/-- The raw bits at the end are moved to the new end. -/
theorem encShrink_spec {size : Nat} (h : Ready c) (hroom : c.offs + c.endOffs ≤ size)
    (hsize : size ≤ c.storage) : Ready (c.encShrink size) ∧ (c.encShrink size).raw = c.raw ∧
      (c.encShrink size).span = c.span := by
  have hbuffer := h.buffer
  have hroom' := h.room
  have hlength : (Buffer.piece c.buf (c.storage - c.endOffs) c.endOffs).length = c.endOffs :=
    Buffer.length_piece (by omega)
  have hdst : size - c.endOffs ≤ c.buf.length := by omega
  have hfront : (c.encShrink size).front = c.front := by
    have hbefore : (Buffer.store c.buf (size - c.endOffs)
        (Buffer.piece c.buf (c.storage - c.endOffs) c.endOffs)).take c.offs = c.buf.take c.offs :=
      Buffer.take_store_of_before (by omega) hdst
    exact congrArg (List.map UInt8.toNat) hbefore
  have hback : (c.encShrink size).back = c.back := by
    have hmoved : Buffer.piece (c.encShrink size).buf (size - c.endOffs) c.endOffs =
        Buffer.piece c.buf (c.storage - c.endOffs) c.endOffs := by
      show Buffer.piece (Buffer.store c.buf _ _) _ _ = _
      rw [Buffer.piece, Buffer.drop_store hdst]
      exact List.take_left' hlength
    rw [back, back]
    exact congrArg (fun bytes => bytes.reverse.map UInt8.toNat) hmoved
  have hheld : (c.encShrink size).held = c.held := by
    rw [held, held, hfront]
    rfl
  have hraw : (c.encShrink size).raw = c.raw := raw_eq hback rfl rfl rfl
  refine ⟨⟨⟨hroom, ?_, h.rem, h.top, ?_, h.window, h.bits, ?_⟩, h.rng_gt, h.rng_le⟩, hraw, ?_⟩
  · show size ≤ (Buffer.store c.buf _ _).length
    rw [Buffer.length_store (by rw [hlength]; omega)]
    omega
  · rw [hheld]
    exact h.full
  · rw [hheld, hraw]
    exact h.count
  · rw [span, span, hheld]
    rfl

theorem codes_encShrink {size : Nat} (h : Ready c) (hroom : c.offs + c.endOffs ≤ size)
    (hsize : size ≤ c.storage) : Codes c (c.encShrink size) := by
  obtain ⟨hready, hraw, hspan⟩ := encShrink_spec h hroom hsize
  refine ⟨hready, hspan ▸ .refl _, ?_, ?_⟩
  · rw [hraw]
    exact Nat.mod_eq_of_lt h.raw_lt
  · rw [hraw]

end EcCtx

/-- A symbol that is coded, or a smaller size for the buffer. -/
inductive EcAction where
  | code (s : EcSymbol)
  | shrink (size : Nat)
deriving DecidableEq, Repr

namespace EcCtx

def encStep (c : EcCtx) : EcAction → Unit × EcCtx
  | .code s => ((), c.enc s)
  | .shrink size => ((), c.encShrink size)

/-- What has been written fits the new size. -/
def Allows (c : EcCtx) : EcAction → Prop
  | .code s => s.Valid
  | .shrink size => c.offs + c.endOffs ≤ size ∧ size ≤ c.storage

instance (c : EcCtx) : ∀ a : EcAction, Decidable (c.Allows a)
  | .code s => inferInstanceAs (Decidable s.Valid)
  | .shrink size => inferInstanceAs (Decidable (c.offs + c.endOffs ≤ size ∧ size ≤ c.storage))

variable {as : List EcAction}

theorem later_step (a : EcAction) : Later c (c.encStep a).2 := by
  cases a with
  | code s => exact later_enc s
  | shrink size => exact .same rfl le_rfl

theorem later_run : Later c (run encStep c as) := by
  induction as generalizing c with
  | nil => exact .refl c
  | cons a as ih => exact (later_step a).trans ih

theorem codes_step {a : EcAction} (h : Ready c) (ha : c.Allows a) (hbits : Counted (c.encStep a).2)
    (hok : (c.encStep a).2.error = false) : Codes c (c.encStep a).2 := by
  cases a with
  | code s => exact codes_enc h ha hbits hok
  | shrink size => exact codes_encShrink h ha.1 ha.2

theorem codes_run (h : Ready c) (hall : Along encStep Allows c as)
    (hbits : Counted (run encStep c as))
    (hok : (run encStep c as).error = false) : Codes c (run encStep c as) := by
  induction as generalizing c with
  | nil => exact .refl h
  | cons a as ih =>
    have hlater : Later (c.encStep a).2 (run encStep (c.encStep a).2 as) := later_run
    have hstep := codes_step h hall.1 (hlater.bits.trans_lt hbits) (hlater.error hok)
    exact hstep.trans (ih hstep.ready hall.2 hbits hok)

end EcCtx

end Opus

end VoxLink
