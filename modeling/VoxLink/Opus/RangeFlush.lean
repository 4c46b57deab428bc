import VoxLink.Opus.RangeEncoder

/-! The end of the encoder. It writes the fewest bits after which every code is in the last span,
and then the raw bits that are left, into the spare bits of the last byte when the buffer is
full. -/

namespace VoxLink

namespace Opus

open ProofKit

theorem andNot_ones {n m : Nat} : andNot n (2 ^ m - 1) = n - n % 2 ^ m := by
  rw [andNot, Nat.and_two_pow_sub_one_eq_mod]

/-- `v` rounded up to a multiple of `2 ^ m`. -/
theorem roundUp_spec {v m : Nat} (h : v + (2 ^ m - 1) < 2 ^ 32) :
    2 ^ m ∣ andNot (u32 (v + (2 ^ m - 1))) (2 ^ m - 1) ∧
      v ≤ andNot (u32 (v + (2 ^ m - 1))) (2 ^ m - 1) ∧
      andNot (u32 (v + (2 ^ m - 1))) (2 ^ m - 1) < v + 2 ^ m := by
  have hpos : 0 < 2 ^ m := by positivity
  have hmod := Nat.mod_lt (v + (2 ^ m - 1)) hpos
  have hle := Nat.mod_le (v + (2 ^ m - 1)) (2 ^ m)
  rw [u32_eq h, andNot_ones]
  exact ⟨Nat.dvd_sub_mod _, by omega, by omega⟩

/-- The bits below the multiple, all set. -/
theorem or_ones {v m : Nat} (h : 2 ^ m ∣ v) : v ||| (2 ^ m - 1) = v + (2 ^ m - 1) := by
  have hones : 2 ^ m - 1 < 2 ^ m := Nat.sub_lt (by positivity) Nat.one_pos
  obtain ⟨k, rfl⟩ := h
  rw [Nat.or_comm, Nat.mul_comm, ← Nat.shiftLeft_eq, EcCtx.or_shiftLeft hones, Nat.shiftLeft_eq,
    Nat.add_comm]

namespace EcCtx

variable {c c' : EcCtx}

theorem endMask {l m : Nat} (h : l + m = 31) : (codeTop - 1) >>> l = 2 ^ m - 1 := by
  have hm : m = 31 - l := by omega
  have hl : l ≤ 31 := by omega
  rw [hm]
  interval_cases l <;> rfl

/-- The bits that `ec_enc_done` writes: whatever follows them, the code is in the range. -/
theorem endCode_spec (h : Ready c) : ∃ m, (endCode c).1 + m = 31 ∧ 22 ≤ m ∧ 2 ^ m ∣ (endCode c).2 ∧
    c.val ≤ (endCode c).2 ∧ (endCode c).2 + 2 ^ m ≤ c.val + c.rng := by
  have hgt : 2 ^ 23 < c.rng := h.rng_gt
  have hle : c.rng ≤ 2 ^ 31 := h.rng_le
  have htop := h.top
  obtain ⟨hlow, hhigh, hpos⟩ := lt_ilog (show 0 < c.rng by omega)
  have hlarge : 23 < ilog c.rng := (Nat.pow_lt_pow_iff_right (by decide)).mp (hgt.trans hhigh)
  have hsmall : ilog c.rng - 1 ≤ 31 := (Nat.pow_le_pow_iff_right (by decide)).mp (hlow.trans hle)
  have hbits : codeBits = 32 := rfl
  have hsum : codeBits - ilog c.rng + (ilog c.rng - 1) = 31 := by omega
  -- `m` is the number of bits below the highest one of the range
  generalize hm : ilog c.rng - 1 = m at hsum hlow hsmall
  have hm' : 23 ≤ m := by omega
  have hmask := endMask hsum
  rw [endCode]
  generalize codeBits - ilog c.rng = l at hsum hmask
  rw [hmask]
  obtain ⟨hdvd, hfrom, hbelow⟩ := roundUp_spec (v := c.val) (m := m) (by omega)
  rw [or_ones hdvd, u32_eq htop]
  simp only
  split
  · rename_i hover
    have hhalf : (2 ^ m - 1) >>> 1 = 2 ^ (m - 1) - 1 := by
      rw [← hmask, ← Nat.shiftRight_add]
      exact endMask (by omega)
    have hpow : 2 ^ m = 2 ^ (m - 1) + 2 ^ (m - 1) := by
      rw [← Nat.two_mul, ← pow_succ', Nat.sub_add_cancel (by omega)]
    rw [hhalf]
    obtain ⟨hdvd', hfrom', hbelow'⟩ := roundUp_spec (v := c.val) (m := m - 1) (by omega)
    exact ⟨m - 1, by omega, by omega, hdvd', hfrom', by omega⟩
  · rename_i hfits
    exact ⟨m, hsum, by omega, hdvd, hfrom, by omega⟩

/-! ### The last bytes in front -/

/-- What the bits of `last` make of a context, when they are `k` bytes with the spare ones. -/
structure Ends (c c' : EcCtx) (last k : Nat) : Prop where
  number : c'.held.number 256 * 2 ^ 31 = (c.held.number 256 * 2 ^ 31 + last) * 256 ^ k
  count : c'.held.count = c.held.count + k
  back : c'.back = c.back
  rem : ∀ d ∈ c'.rem, d < 256
  room : c'.offs + c'.endOffs ≤ c'.storage
  buffer : c'.storage ≤ c'.buf.length
  eq : c' = { c with buf := c'.buf, offs := c'.offs, ext := c'.ext, rem := c'.rem }

theorem later_endRounds {n last : Nat} {l : Int} : Later c (endRounds n c l last).1 := by
  induction n generalizing c l last with
  | zero => exact .refl c
  | succ n ih =>
    rw [endRounds]
    split
    · exact later_carryOut.trans ih
    · exact .refl c

/-- The bits that are left when the highest ones have been written. -/
theorem nextBits_dvd {last m : Nat} (h : 2 ^ m ∣ last) :
    2 ^ (m + 8) ∣ last * 256 % 2 ^ 31 ∧ (31 ≤ m + 8 → last * 256 % 2 ^ 31 = 0) := by
  have hdvd : 2 ^ (m + 8) ∣ last * 256 := by
    rw [pow_add]
    exact Nat.mul_dvd_mul_right h 256
  have hzero : 31 ≤ m + 8 → last * 256 % 2 ^ 31 = 0 := fun hm =>
    Nat.mod_eq_zero_of_dvd ((Nat.pow_dvd_pow 2 hm).trans hdvd)
  refine ⟨?_, hzero⟩
  by_cases hm : 31 ≤ m + 8
  · rw [hzero hm]
    exact Nat.dvd_zero _
  · exact (Nat.dvd_mod_iff (Nat.pow_dvd_pow 2 (by omega))).mpr hdvd

theorem ends_nil {last : Nat} (hroom : c.offs + c.endOffs ≤ c.storage)
    (hbuffer : c.storage ≤ c.buf.length) (hrem : ∀ d ∈ c.rem, d < 256) (hlast : last = 0) :
    Ends c c last 0 := by
  refine ⟨?_, rfl, rfl, hrem, hroom, hbuffer, rfl⟩
  rw [hlast, pow_zero, Nat.add_zero, Nat.mul_one]

theorem Ends.trans_emits {c'' : EcCtx} {last k m : Nat} (hemits : Emits c c' (last / 2 ^ 23))
    (hs : Shiftable c last (2 ^ m)) (h : Ends c' c'' (last * 256 % 2 ^ 31) k) :
    Ends c c'' last (k + 1) := by
  refine ⟨?_, ?_, h.back.trans hemits.back, h.rem, h.room, h.buffer, ?_⟩
  · rw [h.number, hemits.low hs, pow_succ']
    ring
  · rw [h.count, hemits.count]
    omega
  · have heq := h.eq
    rw [hemits.eq] at heq
    exact heq

/-- The rounds write all the bits of `last`; fewer than eight bits of the last byte are spare. -/
theorem endRounds_spec {n m last : Nat} {l : Int} (hroom : c.offs + c.endOffs ≤ c.storage)
    (hbuffer : c.storage ≤ c.buf.length) (hrem : ∀ d ∈ c.rem, d < 256) (hlm : l + m = 31)
    (hn : l ≤ 8 * n) (hspare : -8 < l) (hlast : 2 ^ m ∣ last) (hnone : 31 ≤ m → last = 0)
    (hs : m < 31 → Shiftable c last (2 ^ m)) (hcount : c.held.count + n < 2 ^ 32)
    (hok : (endRounds n c l last).1.error = false) :
    ∃ k : Nat, (endRounds n c l last).2 = l - 8 * k ∧ -8 < (endRounds n c l last).2 ∧
      (endRounds n c l last).2 ≤ 0 ∧ Ends c (endRounds n c l last).1 last k := by
  induction n generalizing c l m last with
  | zero =>
    have hl : l ≤ 0 := by omega
    exact ⟨0, (Int.sub_zero l).symm, hspare, hl, ends_nil hroom hbuffer hrem (hnone (by omega))⟩
  | succ n ih =>
    rw [endRounds] at hok ⊢
    split
    · rename_i hl
      rw [if_pos hl] at hok
      have hs := hs (by omega)
      have hext : c.ext ≤ c.held.count := Nat.le_add_left _ _
      have hemits := hs.emits (by omega) (later_endRounds.error hok)
      have hnext : u32 (last <<< symBits) &&& (codeTop - 1) = last * 256 % 2 ^ 31 := by
        rw [and_codeTop, u32, show last <<< symBits = last * 256 from Nat.shiftLeft_eq last 8]
        omega
      obtain ⟨hdvd, hzero⟩ := nextBits_dvd hlast
      have hbits : l - symBits = l - 8 := rfl
      rw [hnext, hbits] at hok ⊢
      have hs' (hm : m + 8 < 31) : Shiftable (c.carryOut (last >>> codeShift)) (last * 256 % 2 ^ 31)
          (2 ^ (m + 8)) := by
        have hwidth : 2 ^ (m + 8) ≤ 2 ^ 30 := Nat.pow_le_pow_right (by decide) (by omega)
        refine ⟨hemits.room, hemits.buffer, hemits.rem hs, by omega, fun hfull => ?_, by positivity⟩
        have := hemits.full hs hfull
        rwa [pow_add]
      obtain ⟨k, hk, hspare', hnonpos, hends⟩ := ih hemits.room hemits.buffer (hemits.rem hs)
        (show l - 8 + (m + 8 : Nat) = 31 by omega) (by omega) (by omega) hdvd hzero hs'
        (by rw [hemits.count]; omega) hok
      exact ⟨k + 1, by omega, hspare', hnonpos, hends.trans_emits hemits hs⟩
    · rename_i hl
      have hl' : l ≤ 0 := by omega
      exact ⟨0, (Int.sub_zero l).symm, hspare, hl', ends_nil hroom hbuffer hrem (hnone (by omega))⟩

/-- Writes what is held back. -/
def lastHeld (c : EcCtx) : EcCtx := if c.rem.isSome || 0 < c.ext then c.carryOut 0 else c

/-- The buffer with nothing between both ends. -/
def cleared (c : EcCtx) : List UInt8 :=
  Buffer.store c.buf c.offs (List.replicate (c.storage - c.offs - c.endOffs) 0)

/-- The raw bits that are left do not fit the spare bits of the last byte. -/
def busted (c : EcCtx) (spare used : Nat) : Bool := c.storage ≤ c.offs + c.endOffs && spare < used

/-- Clears the space between both ends, and puts the raw bits that are left into the last byte. -/
def lastBits (c : EcCtx) (spare window used : Nat) : EcCtx :=
  if c.error then c
  else if 0 < used then
    if c.storage ≤ c.endOffs then { c with buf := c.cleared, error := true }
    else
      let window := if c.busted spare used then window &&& (1 <<< spare - 1) else window
      let lastByte := c.storage - c.endOffs - 1
      { c with
        buf := Buffer.store c.cleared lastByte [c.cleared.getD lastByte 0 ||| .ofNat window]
        error := c.busted spare used }
  else { c with buf := c.cleared }

theorem encDone_eq : c.encDone =
    let ended := endRounds 5 c (endCode c).1 (endCode c).2
    let flushed := flushBits 4 ended.1.lastHeld ended.1.lastHeld.endWindow ended.1.lastHeld.nendBits
    flushed.1.lastBits (-ended.2).toNat flushed.2.1 flushed.2.2 := rfl

/-- Nothing is held back any more. -/
structure Released (c c' : EcCtx) : Prop where
  number : ProofKit.number 256 c'.front = c.held.number 256
  count : c'.front.length = c.held.count
  back : c'.back = c.back
  room : c'.offs + c'.endOffs ≤ c'.storage
  buffer : c'.storage ≤ c'.buf.length
  eq : c' = { c with buf := c'.buf, offs := c'.offs, ext := c'.ext, rem := c'.rem }

theorem later_lastHeld : Later c c.lastHeld := by
  rw [lastHeld]
  split
  · exact later_carryOut
  · exact .refl c

theorem lastHeld_spec (hroom : c.offs + c.endOffs ≤ c.storage) (hbuffer : c.storage ≤ c.buf.length)
    (hrem : ∀ d ∈ c.rem, d < 256) (hok : c.lastHeld.error = false) : Released c c.lastHeld := by
  rw [lastHeld] at hok ⊢
  split
  · rename_i hheld
    rw [if_pos hheld] at hok
    obtain ⟨c', hputs, heq⟩ := carryOut_puts (by decide) hroom hbuffer hok
    have hdigits : (c.released (0 >>> symBits)).map UInt8.toNat =
        (c.rem.map (· + 0 / 256)).toList ++ List.replicate c.ext ((255 + 0 / 256) % 256) :=
      released_digits hrem (by decide) (fun hcarry => absurd hcarry (Nat.not_succ_le_zero _))
        (by decide)
    have hfront : (c.carryOut 0).front =
        c.front ++ (c.rem.toList ++ List.replicate c.ext ((256 - 1 + 0) % 256)) := by
      rw [heq]
      show c'.front = _
      rw [hputs.front hbuffer, hdigits, Nat.zero_div]
      simp only [Nat.add_zero, Option.map_id_fun', id_eq]
    have hwritten := Held.number_written (h := c.held) (b := 256) (by decide) (Nat.zero_le 1)
      (fun hcarry => absurd hcarry (by decide))
    simp only [Nat.add_zero, Option.map_id_fun', id_eq] at hwritten
    refine ⟨?_, ?_, ?_, ?_, ?_, ?_⟩
    · rw [hfront]
      exact hwritten
    · rw [hfront, List.length_append, List.length_append, List.length_replicate]
      exact (Nat.add_assoc _ _ _).symm
    · rw [heq]
      exact hputs.back hbuffer
    · rw [heq, hputs.eq]
      exact hputs.room
    · rw [heq]
      exact hputs.buffer hbuffer
    · rw [heq, hputs.eq]
  · rename_i hnone
    rw [Bool.or_eq_true, not_or, Bool.not_eq_true, Option.isSome_eq_false_iff,
      Option.isNone_iff_eq_none, decide_eq_true_eq, Nat.not_lt, Nat.le_zero] at hnone
    obtain ⟨hrem, hext⟩ := hnone
    have hheld : c.held = ⟨c.front, none, 0⟩ := by rw [held, hrem, hext]
    refine ⟨?_, ?_, rfl, hroom, hbuffer, rfl⟩
    · rw [hheld, Held.number, Option.toList_none, List.append_nil, pow_zero, Nat.mul_one,
        Nat.add_sub_cancel]
    · rw [hheld]
      rfl

/-! ### The last byte -/

/-- The number that the bytes stand for, the highest first. -/
def bytesNumber (bytes : List UInt8) : Nat := number 256 (bytes.map UInt8.toNat)

theorem bytesNumber_lt (bytes : List UInt8) : bytesNumber bytes < 256 ^ bytes.length := by
  rw [bytesNumber, ← List.length_map UInt8.toNat]
  refine number_lt (by decide) fun d hd => ?_
  obtain ⟨x, -, rfl⟩ := List.mem_map.mp hd
  exact UInt8.toNat_lt x

theorem bytesNumber_append {xs ys : List UInt8} :
    bytesNumber (xs ++ ys) = bytesNumber xs * 256 ^ ys.length + bytesNumber ys := by
  rw [bytesNumber, List.map_append, number_append, List.length_map, bytesNumber, bytesNumber]

theorem bytesNumber_concat {xs : List UInt8} {b : UInt8} :
    bytesNumber (xs ++ [b]) = bytesNumber xs * 256 + b.toNat := by
  rw [bytesNumber, List.map_append]
  exact number_concat

/-- Bits that are put where the last byte has none. -/
theorem bytesNumber_or {xs : List UInt8} {b : UInt8} {window used : Nat} (hused : used ≤ 8)
    (hwindow : window < 2 ^ used) (hdvd : 2 ^ used ∣ bytesNumber (xs ++ [b])) :
    bytesNumber (xs ++ [b ||| .ofNat window]) = bytesNumber (xs ++ [b]) + window := by
  rw [bytesNumber_concat] at hdvd ⊢
  have hbyte : 2 ^ used ∣ (256 : Nat) := Nat.pow_dvd_pow 2 hused
  obtain ⟨k, hk⟩ := (Nat.dvd_add_right (Dvd.dvd.mul_left hbyte (bytesNumber xs))).mp hdvd
  have hsmall : window < 256 := hwindow.trans_le (Nat.pow_le_pow_right (by decide) hused)
  have hnat : (UInt8.ofNat window).toNat = window := UInt8.toNat_ofNat_of_lt hsmall
  have hor : (b ||| UInt8.ofNat window).toNat = b.toNat + window := by
    rw [UInt8.toNat_or, hnat, hk, Nat.or_comm, Nat.mul_comm,
      ← Nat.shiftLeft_eq, or_shiftLeft hwindow, Nat.shiftLeft_eq, Nat.add_comm]
  rw [hor, bytesNumber_concat]
  omega

section LastBits

variable {spare window used : Nat}

/-- What `lastBits` does when it makes no error: raw bits that are left go into the last byte in
front of the raw bytes, where they find room. -/
theorem lastBits_cases (hok : (c.lastBits spare window used).error = false) :
    used = 0 ∧ c.lastBits spare window used = { c with buf := c.cleared } ∨
      0 < used ∧ c.endOffs < c.storage ∧ (c.storage ≤ c.offs + c.endOffs → used ≤ spare) ∧
        c.lastBits spare window used = { c with
          buf := Buffer.store c.cleared (c.storage - c.endOffs - 1)
            [c.cleared.getD (c.storage - c.endOffs - 1) 0 ||| .ofNat window]
          error := false } := by
  rw [lastBits] at hok ⊢
  split at hok
  · rename_i herror
    rw [herror] at hok
    cases hok
  · rename_i herror
    rw [if_neg herror]
    split at hok
    · rename_i hused
      rw [if_pos hused]
      split at hok
      · cases hok
      · rename_i hspace
        have hbusted : c.busted spare used = false := hok
        rw [if_neg hspace, hbusted]
        refine .inr ⟨hused, Nat.lt_of_not_le hspace, fun hfull => ?_, rfl⟩
        rw [busted, decide_eq_true hfull, Bool.true_and, decide_eq_false_iff_not] at hbusted
        exact Nat.le_of_not_lt hbusted
    · rename_i hused
      rw [if_neg hused]
      exact .inl ⟨Nat.eq_zero_of_not_pos hused, rfl⟩

theorem error_of_lastBits (hok : (c.lastBits spare window used).error = false) :
    c.error = false := by
  rw [lastBits] at hok
  split at hok
  · exact hok
  · exact Bool.eq_false_iff.mpr ‹_›

theorem length_zeros (hroom : c.offs + c.endOffs ≤ c.storage) (hbuffer : c.storage ≤ c.buf.length) :
    c.offs + (List.replicate (c.storage - c.offs - c.endOffs) (0 : UInt8)).length =
        c.storage - c.endOffs ∧ c.cleared.length = c.buf.length := by
  have hsum : c.offs + (List.replicate (c.storage - c.offs - c.endOffs) (0 : UInt8)).length =
      c.storage - c.endOffs := by
    rw [List.length_replicate]
    omega
  exact ⟨hsum, Buffer.length_store (by omega)⟩

theorem take_cleared (hroom : c.offs + c.endOffs ≤ c.storage) (hbuffer : c.storage ≤ c.buf.length) :
    c.cleared.take (c.storage - c.endOffs) =
      c.buf.take c.offs ++ List.replicate (c.storage - c.offs - c.endOffs) 0 := by
  rw [← (length_zeros hroom hbuffer).1]
  exact Buffer.take_store_add (by omega)

theorem piece_cleared (hroom : c.offs + c.endOffs ≤ c.storage)
    (hbuffer : c.storage ≤ c.buf.length) :
    Buffer.piece c.cleared (c.storage - c.endOffs) c.endOffs =
      Buffer.piece c.buf (c.storage - c.endOffs) c.endOffs :=
  Buffer.piece_store_of_le (by omega) (Nat.le_of_eq (length_zeros hroom hbuffer).1)

theorem bytesNumber_cleared (hroom : c.offs + c.endOffs ≤ c.storage)
    (hbuffer : c.storage ≤ c.buf.length) : bytesNumber (c.cleared.take (c.storage - c.endOffs)) =
      number 256 c.front * 256 ^ (c.storage - c.offs - c.endOffs) := by
  have hzero {n : Nat} : bytesNumber (List.replicate n 0) = 0 := by
    rw [bytesNumber, List.map_replicate]
    exact number_replicate_zero
  rw [take_cleared hroom hbuffer, bytesNumber_append, hzero, Nat.add_zero, List.length_replicate]
  rfl

/-- The finished buffer: in front of the raw bytes are the bytes in front, zeros, and the raw bits
that are left in the last byte. -/
structure Finished (c c' : EcCtx) (spare window used : Nat) : Prop where
  storage : c'.storage = c.storage
  buffer : c.storage ≤ c'.buf.length
  tail : Buffer.piece c'.buf (c.storage - c.endOffs) c.endOffs =
    Buffer.piece c.buf (c.storage - c.endOffs) c.endOffs
  digits : bytesNumber (c'.buf.take (c.storage - c.endOffs)) =
    number 256 c.front * 256 ^ (c.storage - c.offs - c.endOffs) + window
  dvd : 2 ^ used ∣ number 256 c.front * 256 ^ (c.storage - c.offs - c.endOffs)
  fits : c.storage ≤ c.offs + c.endOffs → window < 2 ^ spare

theorem lastBits_spec (hroom : c.offs + c.endOffs ≤ c.storage)
    (hbuffer : c.storage ≤ c.buf.length) (hwindow : window < 2 ^ used) (hused : used < 8)
    (hspare : 2 ^ spare ∣ number 256 c.front) (hok : (c.lastBits spare window used).error = false) :
    Finished c (c.lastBits spare window used) spare window used := by
  have hlength := (length_zeros hroom hbuffer).2
  have htail := piece_cleared hroom hbuffer
  have hnumber := bytesNumber_cleared hroom hbuffer
  rcases lastBits_cases hok with ⟨hnone, heq⟩ | ⟨hsome, hspace, hfits, heq⟩
  · rw [hnone, pow_zero, Nat.lt_one_iff] at hwindow
    rw [heq, hwindow, hnone]
    exact ⟨rfl, hlength ▸ hbuffer, htail, hnumber, one_dvd _, fun _ => by positivity⟩
  · have hdvd : 2 ^ used ∣ number 256 c.front * 256 ^ (c.storage - c.offs - c.endOffs) := by
      by_cases hfull : c.storage ≤ c.offs + c.endOffs
      · exact ((Nat.pow_dvd_pow 2 (hfits hfull)).trans hspare).mul_right _
      · have hbyte : 2 ^ used ∣ (256 : Nat) := Nat.pow_dvd_pow 2 (Nat.le_of_lt hused)
        exact (hbyte.trans (dvd_pow_self 256 (by omega))).mul_left _
    have hlast : c.storage - c.endOffs = c.storage - c.endOffs - 1 + 1 := by omega
    generalize hbyte : c.storage - c.endOffs - 1 = lastByte at heq hlast
    have hinside : lastByte < c.cleared.length := by omega
    have hsplit : c.cleared.take (c.storage - c.endOffs) =
        c.cleared.take lastByte ++ [c.cleared.getD lastByte 0] := by
      rw [hlast, List.take_add_one, List.getElem?_eq_getElem hinside,
        List.getD_eq_getElem _ _ hinside, Option.toList_some]
    rw [heq]
    refine ⟨rfl, ?_, ?_, ?_, hdvd, fun hfull =>
      hwindow.trans_le (Nat.pow_le_pow_right (by decide) (hfits hfull))⟩
    · show c.storage ≤ (Buffer.store c.cleared lastByte [_]).length
      rw [Buffer.length_store]
      · omega
      · rw [List.length_singleton]
        omega
    · rw [← htail]
      refine Buffer.piece_store_of_le (Nat.le_of_lt hinside) ?_
      rw [List.length_singleton, ← hlast]
    · show bytesNumber ((Buffer.store c.cleared lastByte [_]).take _) = _
      rw [hsplit] at hnumber
      rw [hlast]
      have htake : (Buffer.store c.cleared lastByte
          [c.cleared.getD lastByte 0 ||| .ofNat window]).take (lastByte + 1) =
            c.cleared.take lastByte ++ [c.cleared.getD lastByte 0 ||| .ofNat window] :=
        @Buffer.take_store_add _ c.cleared [_] lastByte (Nat.le_of_lt hinside)
      rw [htake, bytesNumber_or (Nat.le_of_lt hused) hwindow (hnumber ▸ hdvd), hnumber]

/-- The bytes in front are those written, but for bits in the spare ones of the last of them. -/
theorem Finished.front (h : Finished c c' spare window used)
    (hroom : c.offs + c.endOffs ≤ c.storage) (hwindow : window < 2 ^ used) (hused : used < 8) :
    number 256 c.front ≤ bytesNumber (c'.buf.take c.offs) ∧
      bytesNumber (c'.buf.take c.offs) < number 256 c.front + 2 ^ spare := by
  have hbuffer := h.buffer
  have hnumber := h.digits
  have hrest := bytesNumber_lt (Buffer.piece c'.buf c.offs (c.storage - c.offs - c.endOffs))
  have hlength : (Buffer.piece c'.buf c.offs (c.storage - c.offs - c.endOffs)).length =
      c.storage - c.offs - c.endOffs := Buffer.length_piece (by omega)
  rw [show c.storage - c.endOffs = c.offs + (c.storage - c.offs - c.endOffs) by omega,
    List.take_add, ← Buffer.piece, bytesNumber_append, hlength] at hnumber
  rw [hlength] at hrest
  have hfits := h.fits
  have hpos : 0 < 2 ^ spare := by positivity
  generalize bytesNumber (Buffer.piece c'.buf c.offs (c.storage - c.offs - c.endOffs)) = r
    at hnumber hrest
  generalize bytesNumber (c'.buf.take c.offs) = x at hnumber
  generalize number 256 c.front = f at hnumber
  by_cases hfull : c.storage ≤ c.offs + c.endOffs
  · have hnone : c.storage - c.offs - c.endOffs = 0 := by omega
    have := hfits hfull
    rw [hnone, pow_zero] at hnumber hrest
    omega
  · have hsmall : window < 256 ^ (c.storage - c.offs - c.endOffs) := by
      calc window < 2 ^ used := hwindow
        _ ≤ 256 ^ 1 := Nat.pow_le_pow_right (by decide) (Nat.le_of_lt hused)
        _ ≤ 256 ^ (c.storage - c.offs - c.endOffs) := Nat.pow_le_pow_right (by decide) (by omega)
    have hsame : x = f := by
      have hdiv := congrArg (· / 256 ^ (c.storage - c.offs - c.endOffs)) hnumber
      simp only [Nat.add_comm _ r, Nat.add_comm _ window] at hdiv
      rwa [Nat.add_mul_div_right _ _ (by positivity), Nat.add_mul_div_right _ _ (by positivity),
        Nat.div_eq_of_lt hrest, Nat.div_eq_of_lt hsmall, Nat.zero_add, Nat.zero_add] at hdiv
    omega

/-- The number whose lowest bits are those at the end of the buffer. -/
def tailNumber (buf : List UInt8) (storage : Nat) : Nat := bytesNumber (buf.take storage)

/-- The raw bits stand at the end of the buffer. -/
theorem Finished.raw (h : Finished c c' spare window used)
    (hroom : c.offs + c.endOffs ≤ c.storage) (hbuffer : c.storage ≤ c.buf.length)
    (hwindow : window < 2 ^ used) :
    LowBits.Of (tailNumber c'.buf c.storage) (c.rawWith window used) := by
  have hback : bytesNumber (Buffer.piece c.buf (c.storage - c.endOffs) c.endOffs) =
      Nat.ofDigits 256 c.back := by rw [bytesNumber, number, back, List.map_reverse]
  have hlength : (Buffer.piece c'.buf (c.storage - c.endOffs) c.endOffs).length = c.endOffs :=
    Buffer.length_piece (by have := h.buffer; omega)
  have hnumber : tailNumber c'.buf c.storage =
      (number 256 c.front * 256 ^ (c.storage - c.offs - c.endOffs) + window) * 2 ^ (8 * c.endOffs) +
        Nat.ofDigits 256 c.back := by
    rw [tailNumber, show c.storage = c.storage - c.endOffs + c.endOffs by omega, List.take_add,
      show c.storage - c.endOffs + c.endOffs = c.storage by omega, ← Buffer.piece,
      bytesNumber_append, h.digits, hlength, h.tail, hback, pow_256 c.endOffs]
  have hsmall : Nat.ofDigits 256 c.back < 2 ^ (8 * c.endOffs) := back_lt hroom hbuffer
  have hbytes : LowBits.Of (tailNumber c'.buf c.storage)
      ⟨Nat.ofDigits 256 c.back, 8 * c.endOffs⟩ := by
    show _ % 2 ^ (8 * c.endOffs) = _
    rw [hnumber, Nat.mul_add_mod', Nat.mod_eq_of_lt hsmall]
  refine hbytes.push (n := used) (v := window) ?_
  rw [hnumber, Nat.add_comm, Nat.add_mul_div_right _ _ (by positivity), Nat.div_eq_of_lt hsmall,
    Nat.zero_add]
  obtain ⟨q, hq⟩ := h.dvd
  rw [hq, Nat.mul_add_mod, Nat.mod_eq_of_lt hwindow]

end LastBits

/-! ### What a decoder makes of the bytes -/

/-- Behind the buffer there are zeros. -/
def streamByte (buf : List UInt8) (storage i : Nat) : Nat :=
  if i < storage then (buf.getD i 0).toNat else 0

/-- The number of the first `n` bytes. -/
def streamNumber (buf : List UInt8) (storage n : Nat) : Nat :=
  number 256 ((List.range n).map (streamByte buf storage))

/-- The code that a decoder which has read `n` bytes compares with: its last bit is not used yet. -/
def codeAt (buf : List UInt8) (storage n : Nat) : Nat := streamNumber buf storage n / 2

/-- The code that `n` bytes are behind. A decoder is four bytes ahead. -/
def code (buf : List UInt8) (storage n : Nat) : Nat := codeAt buf storage (n + 4)

section Stream

variable {buf : List UInt8} {storage n k : Nat}

theorem streamByte_lt {i : Nat} : streamByte buf storage i < 256 := by
  rw [streamByte]
  split
  · exact UInt8.toNat_lt _
  · decide

theorem streamNumber_succ : streamNumber buf storage (n + 1) =
    streamNumber buf storage n * 256 + streamByte buf storage n := by
  rw [streamNumber, List.range_succ, List.map_append]
  exact number_concat

/-- Bytes that are read behind others fill the lowest places. -/
theorem streamNumber_add (buf : List UInt8) (storage n k : Nat) :
    streamNumber buf storage n * 256 ^ k ≤ streamNumber buf storage (n + k) ∧
      streamNumber buf storage (n + k) < (streamNumber buf storage n + 1) * 256 ^ k := by
  induction k with
  | zero =>
    refine ⟨Nat.le_of_eq (Nat.mul_one _), ?_⟩
    rw [pow_zero, Nat.mul_one]
    exact Nat.lt_succ_self _
  | succ k ih =>
    have hbyte : streamByte buf storage (n + k) < 256 := streamByte_lt
    rw [← Nat.add_assoc, streamNumber_succ, pow_succ, ← Nat.mul_assoc, ← Nat.mul_assoc]
    omega

theorem streamNumber_eq (hn : n ≤ storage) (hbuffer : storage ≤ buf.length) :
    streamNumber buf storage n = bytesNumber (buf.take n) := by
  have hbytes : (List.range n).map (streamByte buf storage) = (buf.take n).map UInt8.toNat := by
    refine List.ext_getElem ?_ fun i hi hi' => ?_
    · rw [List.length_map, List.length_range, List.length_map, List.length_take]
      omega
    · rw [List.length_map, List.length_range] at hi
      rw [List.getElem_map, List.getElem_map, List.getElem_range, List.getElem_take, streamByte,
        if_pos (by omega), List.getD_eq_getElem _ _ (by omega)]
  rw [streamNumber, hbytes, bytesNumber]

theorem codeAt_succ : codeAt buf storage (n + 1) / 256 = codeAt buf storage n := by
  have hbyte : streamByte buf storage n < 256 := streamByte_lt
  rw [codeAt, codeAt, streamNumber_succ]
  omega

theorem code_succ : code buf storage (n + 1) / 256 = code buf storage n := codeAt_succ

end Stream

/-- The last span, in which every code that begins with the bytes in front is. -/
theorem Ends.holds {last k m spare : Nat} {buf : List UInt8} {storage : Nat} (h : Ends c c' last k)
    (hfrom : c.val ≤ last) (hto : last + 2 ^ m ≤ c.val + c.rng) (hspare : spare + 31 = 8 * k + m)
    (hlow : c'.held.number 256 ≤ streamNumber buf storage c'.held.count)
    (hhigh : streamNumber buf storage c'.held.count < c'.held.number 256 + 2 ^ spare) :
    Span.Holds (code buf storage) c.span := by
  have hpow : 2 ^ spare * 2 ^ 31 = 2 ^ m * 256 ^ k := by
    rw [pow_256, ← pow_add, ← pow_add, hspare, Nat.add_comm]
  have hwithin : Span.Within 256 ⟨c.held.count + k, (c.held.number 256 * 2 ^ 31 + last) * 256 ^ k,
      2 ^ m * 256 ^ k⟩ c.span := by
    refine ⟨k, rfl, Nat.mul_le_mul_right _ (Nat.add_le_add_left hfrom _), ?_⟩
    show _ + _ ≤ (c.held.number 256 * 2 ^ 31 + c.val + c.rng) * 256 ^ k
    rw [← Nat.add_mul]
    exact Nat.mul_le_mul_right _ (by omega)
  refine hwithin.holds (by decide) (fun n => code_succ) ?_
  have hnumber := h.number
  rw [h.count] at hlow hhigh
  obtain ⟨hfirst, hnext⟩ := streamNumber_add buf storage (c.held.count + k) 4
  rw [← hnumber, ← hpow]
  show c'.held.number 256 * 2 ^ 31 ≤ codeAt buf storage (c.held.count + k + 4) ∧
    codeAt buf storage (c.held.count + k + 4) < c'.held.number 256 * 2 ^ 31 + 2 ^ spare * 2 ^ 31
  rw [codeAt]
  omega

/-- The bytes in front end where the spare bits begin. -/
theorem Ends.dvd {last k m spare : Nat} (h : Ends c c' last k) (hlast : 2 ^ m ∣ last) (hm : m ≤ 31)
    (hspare : spare + 31 = 8 * k + m) : 2 ^ spare ∣ c'.held.number 256 := by
  refine Nat.dvd_of_mul_dvd_mul_right (k := 2 ^ 31) (by decide) ?_
  have hpow : 2 ^ spare * 2 ^ 31 = 2 ^ m * 256 ^ k := by
    rw [pow_256, ← pow_add, ← pow_add, hspare, Nat.add_comm]
  rw [h.number, hpow]
  exact Nat.mul_dvd_mul_right (((Nat.pow_dvd_pow 2 hm).mul_left _).add hlast) _

theorem length_front (hroom : c.offs + c.endOffs ≤ c.storage) (hbuffer : c.storage ≤ c.buf.length) :
    c.front.length = c.offs := by
  rw [front, List.length_map, List.length_take]
  omega

/-- The rounds that `ec_enc_done` makes. -/
theorem ended_spec (h : Ready c) (hbits : Counted c)
    (hok : (endRounds 5 c (endCode c).1 (endCode c).2).1.error = false) :
    ∃ m k, m ≤ 31 ∧ 2 ^ m ∣ (endCode c).2 ∧ c.val ≤ (endCode c).2 ∧
      (endCode c).2 + 2 ^ m ≤ c.val + c.rng ∧
      (-(endRounds 5 c (endCode c).1 (endCode c).2).2).toNat + 31 = 8 * k + m ∧
      Ends c (endRounds 5 c (endCode c).1 (endCode c).2).1 (endCode c).2 k := by
  obtain ⟨m, hlm, hmin, hlast, hfrom, hto⟩ := endCode_spec h
  have hcount := h.count
  have htop := h.top
  have hle : c.rng ≤ 2 ^ 31 := h.rng_le
  rw [Counted] at hbits
  have hnone : 31 ≤ m → (endCode c).2 = 0 := by
    intro hm
    have hm' : m = 31 := by omega
    rw [hm'] at hlast hto
    exact Nat.eq_zero_of_dvd_of_lt hlast (by omega)
  have hs : m < 31 → Shiftable c (endCode c).2 (2 ^ m) := by
    intro _
    refine ⟨h.room, h.buffer, h.rem, by omega, fun hfull => ?_, by positivity⟩
    have := h.full hfull
    omega
  obtain ⟨k, hk, hspare, hnonpos, hends⟩ := endRounds_spec h.room h.buffer h.rem
    (show ((endCode c).1 : Int) + m = 31 by omega)
    (show ((endCode c).1 : Int) ≤ 8 * (5 : Nat) by omega)
    (by omega) hlast hnone hs (by omega) hok
  exact ⟨m, k, by omega, hlast, hfrom, hto, by omega, hends⟩

theorem error_of_encDone (hok : c.encDone.error = false) : c.error = false := by
  rw [encDone_eq] at hok
  exact later_endRounds.error (later_lastHeld.error (later_flushBits.error (error_of_lastBits hok)))

/-- The finished buffer is in the last span, and ends with the raw bits. -/
theorem encDone_spec (h : Ready c) (hbits : Counted c) (hok : c.encDone.error = false) :
    c.encDone.storage = c.storage ∧ c.storage ≤ c.encDone.buf.length ∧
      Span.Holds (code c.encDone.buf c.storage) c.span ∧
      LowBits.Of (tailNumber c.encDone.buf c.storage) c.raw := by
  rw [encDone_eq] at hok ⊢
  simp only at hok ⊢
  have hflushOk := error_of_lastBits hok
  have hheldOk := later_flushBits.error hflushOk
  obtain ⟨m, k, hm, hlast, hfrom, hto, hspare, hends⟩ :=
    ended_spec h hbits (later_lastHeld.error hheldOk)
  generalize endRounds 5 c (endCode c).1 (endCode c).2 = ended at *
  generalize (-ended.2).toNat = spare at *
  -- what is held back is written
  have hheld := lastHeld_spec hends.room hends.buffer hends.rem hheldOk
  have hsame : ended.1.lastHeld.storage = c.storage ∧ ended.1.lastHeld.endOffs = c.endOffs ∧
      ended.1.lastHeld.endWindow = c.endWindow ∧ ended.1.lastHeld.nendBits = c.nendBits := by
    rw [hheld.eq, hends.eq]
    exact ⟨rfl, rfl, rfl, rfl⟩
  obtain ⟨hstorage, hendOffs, hendWindow, hnendBits⟩ := hsame
  have hback : ended.1.lastHeld.back = c.back := hheld.back.trans hends.back
  generalize ended.1.lastHeld = held at *
  -- whole bytes of the raw bits are written
  rw [hendWindow, hnendBits] at hok hflushOk ⊢
  obtain ⟨hputs, hraw, hwindow, hused⟩ := flushBits_spec hheld.room hheld.buffer h.window
    (by have := h.bits; omega) hflushOk
  generalize flushBits 4 held c.endWindow c.nendBits = flushed at *
  have hstorage' : flushed.1.storage = c.storage := by rw [hputs.eq, hstorage]
  have hfront : number 256 flushed.1.front = ended.1.held.number 256 := by
    rw [hputs.front, hheld.number]
  have hoffs : flushed.1.offs = ended.1.held.count := by
    rw [← length_front hputs.room hputs.buffer, hputs.front, hheld.count]
  have hfinished := lastBits_spec hputs.room hputs.buffer hwindow hused
    (hfront ▸ hends.dvd hlast hm hspare) hok
  generalize flushed.1.lastBits spare flushed.2.1 flushed.2.2 = done at *
  have hroom := hputs.room
  have hbuffer := hfinished.buffer
  rw [← hstorage']
  refine ⟨hfinished.storage, hbuffer, ?_, ?_⟩
  · obtain ⟨hlow, hhigh⟩ := hfinished.front hputs.room hwindow hused
    rw [← streamNumber_eq (by omega) hbuffer, hoffs, hfront] at hlow hhigh
    exact hends.holds hfrom hto hspare hlow hhigh
  · have hwith : flushed.1.rawWith flushed.2.1 flushed.2.2 = c.raw := by
      rw [hraw, rawWith, hback, hendOffs, raw]
    rw [← hwith]
    exact hfinished.raw hputs.room hputs.buffer hwindow

end EcCtx

end Opus

end VoxLink
