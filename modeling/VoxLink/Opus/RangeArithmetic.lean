import VoxLink.Opus.RangeEncoder

/-! The arithmetic under the entropy coder, in the forms that are faster than the plain ones:
division by a small number through a table of inverses, the number of bits without branches, and the
number of bits used, in eighths, with one look at a table. -/

namespace VoxLink

namespace Opus

/-! ### Division -/

/-- `2^32 / (2 * i + 1)`, except for `i = 0`. -/
def smallDivTable : List Nat :=
  [0xFFFFFFFF, 0x55555555, 0x33333333, 0x24924924,
    0x1C71C71C, 0x1745D174, 0x13B13B13, 0x11111111,
    0x0F0F0F0F, 0x0D79435E, 0x0C30C30C, 0x0B21642C,
    0x0A3D70A3, 0x097B425E, 0x08D3DCB0, 0x08421084,
    0x07C1F07C, 0x07507507, 0x06EB3E45, 0x06906906,
    0x063E7063, 0x05F417D0, 0x05B05B05, 0x0572620A,
    0x05397829, 0x05050505, 0x04D4873E, 0x04A7904A,
    0x047DC11F, 0x0456C797, 0x04325C53, 0x04104104,
    0x03F03F03, 0x03D22635, 0x03B5CC0E, 0x039B0AD1,
    0x0381C0E0, 0x0369D036, 0x03531DEC, 0x033D91D2,
    0x0329161F, 0x03159721, 0x03030303, 0x02F14990,
    0x02E05C0B, 0x02D02D02, 0x02C0B02C, 0x02B1DA46,
    0x02A3A0FD, 0x0295FAD4, 0x0288DF0C, 0x027C4597,
    0x02702702, 0x02647C69, 0x02593F69, 0x024E6A17,
    0x0243F6F0, 0x0239E0D5, 0x02302302, 0x0226B902,
    0x021D9EAD, 0x0214D021, 0x020C49BA, 0x02040810,
    0x01FC07F0, 0x01F44659, 0x01ECC07B, 0x01E573AC,
    0x01DE5D6E, 0x01D77B65, 0x01D0CB58, 0x01CA4B30,
    0x01C3F8F0, 0x01BDD2B8, 0x01B7D6C3, 0x01B20364,
    0x01AC5701, 0x01A6D01A, 0x01A16D3F, 0x019C2D14,
    0x01970E4F, 0x01920FB4, 0x018D3018, 0x01886E5F,
    0x0183C977, 0x017F405F, 0x017AD220, 0x01767DCE,
    0x01724287, 0x016E1F76, 0x016A13CD, 0x01661EC6,
    0x01623FA7, 0x015E75BB, 0x015AC056, 0x01571ED3,
    0x01539094, 0x01501501, 0x014CAB88, 0x0149539E,
    0x01460CBC, 0x0142D662, 0x013FB013, 0x013C995A,
    0x013991C2, 0x013698DF, 0x0133AE45, 0x0130D190,
    0x012E025C, 0x012B404A, 0x01288B01, 0x0125E227,
    0x01234567, 0x0120B470, 0x011E2EF3, 0x011BB4A4,
    0x01194538, 0x0116E068, 0x011485F0, 0x0112358E,
    0x010FEF01, 0x010DB20A, 0x010B7E6E, 0x010953F3,
    0x01073260, 0x0105197F, 0x0103091B, 0x01010101]

/-- `celt_udiv` with `USE_SMALL_DIV_TABLE`. -/
def celtUdiv (n d : Nat) : Nat :=
  if 256 < d then n / d
  else
    let t := ilog (d &&& sub32 0 d)
    let q := u32 ((smallDivTable.getD (d >>> t) 0 * (n >>> (t - 1))) >>> 32)
    u32 (q + if d ≤ sub32 n (u32 (q * d)) then 1 else 0)

/-- A quotient from an inverse `s` of `d` that is rounded down is one too small at most. -/
theorem div_by_inverse {m n d s : Nat} (hn : n ≤ m) (hd : 0 < d) (hlow : s * d ≤ m)
    (hhigh : m ≤ (s + 1) * d) : s * n / m ≤ n / d ∧ n / d ≤ s * n / m + 1 := by
  rcases Nat.eq_zero_or_pos m with rfl | hm
  · rw [Nat.le_zero.mp hn, Nat.zero_div]
    exact ⟨Nat.le_of_eq (Nat.div_zero _), Nat.zero_le _⟩
  constructor
  · rw [Nat.le_div_iff_mul_le hd]
    refine Nat.le_of_mul_le_mul_right (c := m) ?_ hm
    calc s * n / m * d * m = s * n / m * m * d := by ring
      _ ≤ s * n * d := Nat.mul_le_mul_right _ (Nat.div_mul_le_self _ _)
      _ = s * d * n := by ring
      _ ≤ m * n := Nat.mul_le_mul_right _ hlow
      _ = n * m := Nat.mul_comm _ _
  · -- what is lost by rounding the inverse is less than one
    have hexact : n / d * m ≤ s * n + n := by
      refine Nat.le_of_mul_le_mul_right (c := d) ?_ hd
      calc n / d * m * d = n / d * d * m := by ring
        _ ≤ n * m := Nat.mul_le_mul_right _ (Nat.div_mul_le_self _ _)
        _ ≤ n * ((s + 1) * d) := Nat.mul_le_mul_left _ hhigh
        _ = (s * n + n) * d := by ring
    have hrest := Nat.lt_div_mul_add (a := s * n) hm
    have hless : n / d * m < (s * n / m + 2) * m := by
      calc n / d * m ≤ s * n + n := hexact
        _ < s * n / m * m + m + m := by omega
        _ = (s * n / m + 2) * m := by ring
    exact Nat.lt_succ_iff.mp (Nat.lt_of_mul_lt_mul_right hless)

/-- A divisor is a power of two times an odd number, and the table has the inverse of that one. -/
theorem smallDivTable_inverse : ∀ d < 257, 0 < d →
    let t := ilog (d &&& sub32 0 d)
    let s := smallDivTable.getD (d >>> t) 0
    0 < t ∧ (2 * (d >>> t) + 1) * 2 ^ (t - 1) = d ∧ s < 2 ^ 32 ∧
      s * (2 * (d >>> t) + 1) ≤ 2 ^ 32 ∧ 2 ^ 32 ≤ (s + 1) * (2 * (d >>> t) + 1) := by
  decide +kernel

/-- The division of a whole range: the table is as good as the operator. -/
theorem celtUdiv_eq {n d : Nat} (hn : n < 2 ^ 32) (hd : 0 < d) : celtUdiv n d = n / d := by
  rw [celtUdiv]
  split
  · rfl
  · rename_i hsmall
    obtain ⟨ht, hodd, hs, hlow, hhigh⟩ := smallDivTable_inverse d (by omega) hd
    dsimp only
    generalize ilog (d &&& sub32 0 d) = t at *
    generalize smallDivTable.getD (d >>> t) 0 = s at *
    generalize 2 * (d >>> t) + 1 = o at *
    have hpos : 0 < o := Nat.pos_of_ne_zero fun hzero => by
      rw [hzero, Nat.zero_mul] at hodd
      omega
    have hless : n >>> (t - 1) < 2 ^ 32 := (Nat.shiftRight_le n _).trans_lt hn
    have hquot : n >>> (t - 1) / o = n / d := by
      rw [Nat.shiftRight_eq_div_pow, Nat.div_div_eq_div_mul, Nat.mul_comm, hodd]
    obtain ⟨hmost, hleast⟩ := div_by_inverse (Nat.le_of_lt hless) hpos hlow hhigh
    rw [hquot] at hmost hleast
    have hq : (s * (n >>> (t - 1))) >>> 32 = s * (n >>> (t - 1)) / 2 ^ 32 :=
      Nat.shiftRight_eq_div_pow _ _
    rw [hq]
    generalize s * (n >>> (t - 1)) / 2 ^ 32 = q at *
    -- the remainder tells whether it is
    have hle : n / d ≤ n := Nat.div_le_self n d
    have hmul : q * d ≤ n / d * d := Nat.mul_le_mul_right d hmost
    have hmul' : n / d * d ≤ n := Nat.div_mul_le_self n d
    rw [u32_eq (show q < 2 ^ 32 by omega), u32_eq (show q * d < 2 ^ 32 by omega),
      sub32_eq (by omega) hn]
    have hnext : n < (n / d + 1) * d := by
      rw [← Nat.div_lt_iff_lt_mul hd]
      exact Nat.lt_succ_self _
    rcases Nat.eq_or_lt_of_le hmost with heq | hlt
    · rw [if_neg, heq, Nat.add_zero, u32_eq (by omega)]
      rw [heq]
      rw [Nat.add_mul] at hnext
      omega
    · have hone : n / d = q + 1 := by omega
      rw [if_pos, u32_eq (by omega), hone]
      rw [hone, Nat.add_mul] at hmul'
      omega

theorem celtUdiv_of_tables : celtUdiv 4294967295 252 = 4294967295 / 252 :=
  celtUdiv_eq (by decide) (by decide)

/-! ### The number of bits -/

/-- `!!v`. -/
def nonzero (v : Nat) : Nat := if v = 0 then 0 else 1

/-- `ec_ilog`, for systems without an instruction for it. -/
def ecIlog (v : Nat) : Nat :=
  let ret := nonzero v
  let m := nonzero (v &&& 0xFFFF0000) <<< 4
  let v := v >>> m
  let ret := ret ||| m
  let m := nonzero (v &&& 0xFF00) <<< 3
  let v := v >>> m
  let ret := ret ||| m
  let m := nonzero (v &&& 0xF0) <<< 2
  let v := v >>> m
  let ret := ret ||| m
  let m := nonzero (v &&& 0xC) <<< 1
  let v := v >>> m
  let ret := ret ||| m
  ret + nonzero (v &&& 0x2)

/-- A mask of the upper half tells whether it has bits. -/
theorem and_upper {v k : Nat} (h : v < 2 ^ k * 2 ^ k) :
    nonzero (v &&& (2 ^ k - 1) * 2 ^ k) = if v < 2 ^ k then 0 else 1 := by
  have hpos : 0 < 2 ^ k := by positivity
  have hupper : v / 2 ^ k < 2 ^ k := Nat.div_lt_of_lt_mul h
  have hand : v &&& (2 ^ k - 1) * 2 ^ k = v / 2 ^ k * 2 ^ k := by
    apply Nat.eq_of_testBit_eq
    intro i
    rw [← Nat.shiftLeft_eq, ← Nat.shiftLeft_eq, Nat.testBit_and, Nat.testBit_shiftLeft,
      Nat.testBit_shiftLeft, Nat.testBit_two_pow_sub_one, Nat.testBit_div_two_pow]
    by_cases hi : k ≤ i
    · rw [Nat.sub_add_cancel hi]
      by_cases hbit : i - k < k
      · simp [hi, hbit]
      · have hout : v.testBit i = false := Nat.testBit_lt_two_pow (by
          calc v < 2 ^ k * 2 ^ k := h
            _ = 2 ^ (k + k) := (pow_add _ _ _).symm
            _ ≤ 2 ^ i := Nat.pow_le_pow_right (by decide) (by omega))
        simp [hout]
    · simp [hi]
  rw [hand, nonzero]
  by_cases hv : v < 2 ^ k
  · rw [if_pos hv, Nat.div_eq_of_lt hv, Nat.zero_mul, if_pos rfl]
  · have hquot : 0 < v / 2 ^ k := Nat.div_pos (Nat.le_of_not_lt hv) hpos
    rw [if_neg hv, if_neg (Nat.mul_pos hquot hpos).ne']

/-- A step of the search: the upper half if it has bits, and the lower half otherwise. -/
theorem half_step (mask j k : Nat) {v : Nat} (hk : 2 ^ j = k) (hmask : mask = (2 ^ k - 1) * 2 ^ k)
    (hv : 0 < v) (h : v < 2 ^ k * 2 ^ k) :
    ∃ b v', b < 2 ∧ nonzero (v &&& mask) <<< j = k * b ∧ v >>> (k * b) = v' ∧ 0 < v' ∧ v' < 2 ^ k ∧
      Nat.log2 v = k * b + Nat.log2 v' := by
  have hupper := and_upper h
  rw [← hmask] at hupper
  rw [hupper, Nat.shiftLeft_eq, hk]
  by_cases hless : v < 2 ^ k
  · refine ⟨0, v, by decide, ?_, rfl, hv, hless, (Nat.zero_add _).symm⟩
    rw [if_pos hless, Nat.zero_mul, Nat.mul_zero]
  · have hle : 2 ^ k ≤ v := Nat.le_of_not_lt hless
    refine ⟨1, v / 2 ^ k, by decide, ?_, ?_, Nat.div_pos hle (by positivity),
      Nat.div_lt_of_lt_mul h, ?_⟩
    · rw [if_neg hless, Nat.one_mul, Nat.mul_one]
    · rw [Nat.mul_one, Nat.shiftRight_eq_div_pow]
    · have hlog : k ≤ Nat.log2 v := (Nat.le_log2 hv.ne').mpr hle
      rw [Nat.log2_eq_log_two, Nat.log2_eq_log_two, Nat.log_div_base_pow, ← Nat.log2_eq_log_two]
      omega

theorem or_bits : ∀ a < 2, ∀ b < 2, ∀ c < 2, ∀ d < 2,
    (((1 ||| 16 * a) ||| 8 * b) ||| 4 * c) ||| 2 * d = 1 + 16 * a + 8 * b + 4 * c + 2 * d := by
  decide

/-- The search for the highest bit finds it. -/
theorem ecIlog_eq {v : Nat} (h : v < 2 ^ 32) : ecIlog v = ilog v := by
  rcases Nat.eq_zero_or_pos v with rfl | hv
  · rfl
  obtain ⟨a, v₁, ha, hm₁, hv₁, hpos₁, hless₁, hlog₁⟩ :=
    half_step 0xFFFF0000 4 16 rfl (by norm_num) hv h
  obtain ⟨b, v₂, hb, hm₂, hv₂, hpos₂, hless₂, hlog₂⟩ :=
    half_step 0xFF00 3 8 rfl (by norm_num) hpos₁ hless₁
  obtain ⟨c, v₃, hc, hm₃, hv₃, hpos₃, hless₃, hlog₃⟩ :=
    half_step 0xF0 2 4 rfl (by norm_num) hpos₂ hless₂
  obtain ⟨d, v₄, hd, hm₄, hv₄, hpos₄, hless₄, hlog₄⟩ :=
    half_step 0xC 1 2 rfl (by norm_num) hpos₃ hless₃
  obtain ⟨e, v₅, he, hm₅, hv₅, hpos₅, hless₅, hlog₅⟩ :=
    half_step 0x2 0 1 rfl (by norm_num) hpos₄ hless₄
  have hlast : v₅ = 1 := by omega
  have hone : Nat.log2 1 = 0 := rfl
  rw [Nat.shiftLeft_zero, Nat.one_mul] at hm₅
  rw [ilog, if_neg hv.ne', ecIlog]
  simp only [hm₁, hv₁, hm₂, hv₂, hm₃, hv₃, hm₄, hv₄, hm₅]
  rw [show nonzero v = 1 from if_neg hv.ne', or_bits a ha b hb c hc d hd, hlog₁, hlog₂,
    hlog₃, hlog₄, hlog₅, hlast, hone]
  omega

theorem ecIlog_of_range : ecIlog 0x00800001 = ilog 0x00800001 := ecIlog_eq (by decide)

/-! ### The bits used, in eighths -/

def bitRes : Nat := 3

def correction : List Nat := [35733, 38967, 42495, 46340, 50535, 55109, 60097, 65535]

namespace EcCtx

/-- The part of the last bit that is used, from the sixteen highest bits of the range. -/
def lastEighths (r : Nat) : Nat :=
  let b := r >>> 12 - 8
  b + if correction.getD b 0 < r then 1 else 0

/-- `ec_tell_frac`. -/
def tellFrac (c : EcCtx) : Nat :=
  let nbits := u32 (c.nbitsTotal <<< bitRes)
  let l := ilog c.rng
  let r := c.rng >>> (l - 16)
  sub32 nbits (l <<< 3 + lastEighths r)

/-- The rounds of the plain `ec_tell_frac`: a bit of the logarithm from each square. -/
def logRounds : Nat → Nat → Nat → Nat
  | 0, l, _ => l
  | i + 1, l, r =>
    let r := u32 (r * r) >>> 15
    let b := r >>> 16
    logRounds i (l <<< 1 ||| b) (r >>> b)

/-- The plain `ec_tell_frac`. -/
def tellFracPlain (c : EcCtx) : Nat :=
  let nbits := u32 (c.nbitsTotal <<< bitRes)
  let l := ilog c.rng
  let r := c.rng >>> (l - 16)
  sub32 nbits (logRounds bitRes l r)

end EcCtx

/-- The first `n` bits of the logarithm of `r` to the base two, behind its fifteen. -/
def logBits : Nat → Nat → Nat
  | 0, _ => 0
  | n + 1, r =>
    let square := r * r / 2 ^ 15
    square / 2 ^ 16 * 2 ^ n + logBits n (square / 2 ^ (square / 2 ^ 16))

section LogBits

variable {n r s l : Nat}

/-- A number of sixteen bits. -/
def Sixteen (r : Nat) : Prop := 2 ^ 15 ≤ r ∧ r < 2 ^ 16

/-- The square has sixteen or seventeen bits, and is halved then. -/
theorem square_spec (hr : Sixteen r) : r * r / 2 ^ 15 / 2 ^ 16 < 2 ∧
    Sixteen (r * r / 2 ^ 15 / 2 ^ (r * r / 2 ^ 15 / 2 ^ 16)) := by
  obtain ⟨hlow, hhigh⟩ := hr
  have hleast : 2 ^ 15 * 2 ^ 15 ≤ r * r := Nat.mul_le_mul hlow hlow
  have hmost : r * r < 2 ^ 16 * 2 ^ 16 := Nat.mul_lt_mul'' hhigh hhigh
  generalize r * r = square at *
  by_cases hbit : square / 2 ^ 15 < 2 ^ 16
  · rw [Nat.div_eq_of_lt hbit, Sixteen, pow_zero, Nat.div_one]
    omega
  · have hone : square / 2 ^ 15 / 2 ^ 16 = 1 := by omega
    rw [hone, Sixteen, pow_one]
    omega

theorem logBits_lt (hr : Sixteen r) : logBits n r < 2 ^ n := by
  induction n generalizing r with
  | zero => exact Nat.one_pos
  | succ n ih =>
    obtain ⟨hbit, hnext⟩ := square_spec hr
    have hrest := ih hnext
    have hpow : 2 ^ (n + 1) = 1 * 2 ^ n + 2 ^ n := by ring
    rw [logBits, hpow]
    have hle : r * r / 2 ^ 15 / 2 ^ 16 * 2 ^ n ≤ 1 * 2 ^ n :=
      Nat.mul_le_mul_right _ (Nat.lt_succ_iff.mp hbit)
    omega

theorem logBits_mono (hr : Sixteen r) (hs : Sixteen s) (hle : r ≤ s) :
    logBits n r ≤ logBits n s := by
  induction n generalizing r s with
  | zero => exact le_rfl
  | succ n ih =>
    obtain ⟨-, hnext⟩ := square_spec hr
    obtain ⟨-, hnext'⟩ := square_spec hs
    have hsquare : r * r / 2 ^ 15 ≤ s * s / 2 ^ 15 := Nat.div_le_div_right (Nat.mul_le_mul hle hle)
    rw [logBits, logBits]
    generalize r * r / 2 ^ 15 = x at *
    generalize s * s / 2 ^ 15 = y at *
    rcases Nat.eq_or_lt_of_le (Nat.div_le_div_right (c := 2 ^ 16) hsquare) with hsame | hless
    · rw [hsame] at hnext ⊢
      exact Nat.add_le_add_left (ih hnext hnext' (Nat.div_le_div_right hsquare)) _
    · calc x / 2 ^ 16 * 2 ^ n + logBits n (x / 2 ^ (x / 2 ^ 16))
          ≤ x / 2 ^ 16 * 2 ^ n + 2 ^ n := Nat.add_le_add_left (Nat.le_of_lt (logBits_lt hnext)) _
        _ = (x / 2 ^ 16 + 1) * 2 ^ n := by ring
        _ ≤ y / 2 ^ 16 * 2 ^ n := Nat.mul_le_mul_right _ hless
        _ ≤ _ := Nat.le_add_right _ _

/-- The bits are not more than those of the logarithm. -/
theorem pow_logBits_le (hr : Sixteen r) : 2 ^ (15 * 2 ^ n + logBits n r) ≤ r ^ 2 ^ n := by
  induction n generalizing r with
  | zero =>
    show 2 ^ (15 * 2 ^ 0 + 0) ≤ r ^ 2 ^ 0
    rw [pow_zero, pow_one]
    exact hr.1
  | succ n ih =>
    obtain ⟨-, hnext⟩ := square_spec hr
    have hsquare : r * r / 2 ^ 15 * 2 ^ 15 ≤ r * r := Nat.div_mul_le_self _ _
    rw [logBits]
    generalize r * r / 2 ^ 15 = x at *
    generalize x / 2 ^ 16 = b at *
    have hhalf : x / 2 ^ b * 2 ^ b ≤ x := Nat.div_mul_le_self _ _
    calc 2 ^ (15 * 2 ^ (n + 1) + (b * 2 ^ n + logBits n (x / 2 ^ b)))
        = 2 ^ (15 * 2 ^ n + logBits n (x / 2 ^ b)) * (2 ^ b * 2 ^ 15) ^ 2 ^ n := by
          rw [← pow_add, ← pow_mul, ← pow_add, pow_succ]
          ring
      _ ≤ (x / 2 ^ b) ^ 2 ^ n * (2 ^ b * 2 ^ 15) ^ 2 ^ n := Nat.mul_le_mul_right _ (ih hnext)
      _ = (x / 2 ^ b * 2 ^ b * 2 ^ 15) ^ 2 ^ n := by rw [← Nat.mul_pow, Nat.mul_assoc]
      _ ≤ (r * r) ^ 2 ^ n :=
          Nat.pow_le_pow_left ((Nat.mul_le_mul_right _ hhalf).trans hsquare) _
      _ = r ^ 2 ^ (n + 1) := by rw [← pow_two, ← pow_mul, pow_succ']

/-- The rounds put the bits behind the number they begin with. -/
theorem logRounds_eq (hr : Sixteen r) : EcCtx.logRounds n l r = l * 2 ^ n + logBits n r := by
  induction n generalizing l r with
  | zero =>
    rw [pow_zero, Nat.mul_one]
    rfl
  | succ n ih =>
    obtain ⟨hbit, hnext⟩ := square_spec hr
    have hmost : r * r < 2 ^ 16 * 2 ^ 16 := Nat.mul_lt_mul'' hr.2 hr.2
    have hfits : r * r < 2 ^ 32 := hmost.trans_eq (by norm_num)
    have hor : l <<< 1 ||| r * r / 2 ^ 15 / 2 ^ 16 = l * 2 + r * r / 2 ^ 15 / 2 ^ 16 := by
      rw [Nat.or_comm, EcCtx.or_shiftLeft hbit, Nat.add_comm, pow_one]
    rw [EcCtx.logRounds, logBits]
    simp only [u32_eq hfits, Nat.shiftRight_eq_div_pow]
    rw [hor, ih hnext, pow_succ]
    ring

/-- Where the sixteen highest values of four bits begin and end, and what the corrections part. -/
theorem correction_logBits : ∀ b < 8, logBits 3 ((8 + b) * 2 ^ 12) = b ∧
    (8 + b) * 2 ^ 12 ≤ correction.getD b 0 ∧ correction.getD b 0 < (9 + b) * 2 ^ 12 ∧
    logBits 3 (correction.getD b 0) = b ∧ (b = 7 → correction.getD b 0 + 1 = 2 ^ 16) ∧
    (b ≠ 7 → logBits 3 (correction.getD b 0 + 1) = b + 1 ∧
      logBits 3 ((9 + b) * 2 ^ 12 - 1) = b + 1) := by
  decide +kernel

/-- The table gives the same eighths as the squares. -/
theorem lastEighths_eq (hr : Sixteen r) : EcCtx.lastEighths r = logBits 3 r := by
  obtain ⟨hlow, hhigh⟩ := hr
  have hb : r >>> 12 - 8 < 8 := by
    rw [Nat.shiftRight_eq_div_pow]
    omega
  have hfrom : (8 + (r >>> 12 - 8)) * 2 ^ 12 ≤ r ∧ r < (9 + (r >>> 12 - 8)) * 2 ^ 12 := by
    rw [Nat.shiftRight_eq_div_pow]
    omega
  rw [EcCtx.lastEighths]
  generalize r >>> 12 - 8 = b at *
  obtain ⟨hfirst, hin, hin', hmost, hlast, hnext⟩ := correction_logBits b hb
  generalize correction.getD b 0 = x at *
  split
  · rename_i hover
    obtain ⟨hleast, hend⟩ := hnext (by omega)
    have hle : logBits 3 (x + 1) ≤ logBits 3 r :=
      logBits_mono ⟨by omega, by omega⟩ ⟨hlow, hhigh⟩ hover
    have hge : logBits 3 r ≤ logBits 3 ((9 + b) * 2 ^ 12 - 1) :=
      logBits_mono ⟨hlow, hhigh⟩ ⟨by omega, by omega⟩ (by omega)
    omega
  · rename_i hunder
    have hle : logBits 3 ((8 + b) * 2 ^ 12) ≤ logBits 3 r :=
      logBits_mono ⟨by omega, by omega⟩ ⟨hlow, hhigh⟩ hfrom.1
    have hge : logBits 3 r ≤ logBits 3 x :=
      logBits_mono ⟨hlow, hhigh⟩ ⟨by omega, by omega⟩ (by omega)
    omega

end LogBits

namespace EcCtx

variable {c : EcCtx}

/-- The sixteen highest bits of the range. -/
theorem highest_bits (hlow : 2 ^ 15 ≤ c.rng) : Sixteen (c.rng >>> (ilog c.rng - 16)) ∧
    c.rng >>> (ilog c.rng - 16) * 2 ^ (ilog c.rng - 16) ≤ c.rng ∧ 16 ≤ ilog c.rng := by
  obtain ⟨hfrom, hto, hpos⟩ := lt_ilog (show 0 < c.rng by omega)
  have hlarge : 15 < ilog c.rng := (Nat.pow_lt_pow_iff_right (by decide)).mp (hlow.trans_lt hto)
  rw [Nat.shiftRight_eq_div_pow]
  refine ⟨⟨?_, ?_⟩, Nat.div_mul_le_self _ _, hlarge⟩
  · rw [Nat.le_div_iff_mul_le (by positivity), ← pow_add,
      show 15 + (ilog c.rng - 16) = ilog c.rng - 1 by omega]
    exact hfrom
  · refine Nat.div_lt_of_lt_mul ?_
    rw [← pow_add, Nat.sub_add_cancel hlarge]
    exact hto

/-- `ec_tell_frac` agrees with the plain loop, `ec_tell` is the same rounded up to whole bits, and
both are at least the exact number of bits. -/
theorem tellFrac_spec (hlow : 2 ^ 15 ≤ c.rng) (hhigh : c.rng < 2 ^ 32) (hbits : 33 ≤ c.nbitsTotal)
    (hmost : c.nbitsTotal < 2 ^ 29) : c.tellFrac = c.tellFracPlain ∧ c.tellFrac ≤ 8 * c.tell ∧
      8 * c.tell < c.tellFrac + 8 ∧ 2 ^ (8 * (c.nbitsTotal - 1)) ≤ c.rng ^ 8 * 2 ^ c.tellFrac := by
  obtain ⟨hsixteen, hpart, hlarge⟩ := highest_bits hlow
  have hsmall : ilog c.rng ≤ 32 := by
    have hfrom := (lt_ilog (show 0 < c.rng by omega)).1
    have := (Nat.pow_lt_pow_iff_right (by decide)).mp (hfrom.trans_lt hhigh)
    omega
  have hless : logBits 3 (c.rng >>> (ilog c.rng - 16)) < 2 ^ 3 := logBits_lt hsixteen
  have hpow : 2 ^ (15 * 2 ^ 3 + logBits 3 (c.rng >>> (ilog c.rng - 16))) ≤
      (c.rng >>> (ilog c.rng - 16)) ^ 2 ^ 3 := pow_logBits_le hsixteen
  have hshift (v : Nat) : v <<< 3 = v * 8 := Nat.shiftLeft_eq v 3
  have htell : c.tellFrac =
      c.nbitsTotal * 8 - (ilog c.rng * 8 + logBits 3 (c.rng >>> (ilog c.rng - 16))) := by
    rw [tellFrac, lastEighths_eq hsixteen, show bitRes = 3 from rfl]
    simp only [hshift]
    rw [u32_eq (by omega), sub32_eq (by omega) (by omega)]
  have hplain : c.tellFracPlain =
      c.nbitsTotal * 8 - (ilog c.rng * 8 + logBits 3 (c.rng >>> (ilog c.rng - 16))) := by
    rw [tellFracPlain, logRounds_eq hsixteen, show bitRes = 3 from rfl]
    simp only [hshift]
    rw [u32_eq (by omega), sub32_eq (by omega) (by omega)]
    rfl
  rw [htell, hplain, tell]
  generalize logBits 3 (c.rng >>> (ilog c.rng - 16)) = b at *
  refine ⟨rfl, by omega, by omega, ?_⟩
  have hexp : 8 * (c.nbitsTotal - 1) = 15 * 2 ^ 3 + b + (ilog c.rng - 16) * 8 +
      (c.nbitsTotal * 8 - (ilog c.rng * 8 + b)) := by omega
  rw [hexp, pow_add]
  refine Nat.mul_le_mul_right _ ?_
  calc 2 ^ (15 * 2 ^ 3 + b + (ilog c.rng - 16) * 8)
      = 2 ^ (15 * 2 ^ 3 + b) * (2 ^ (ilog c.rng - 16)) ^ 8 := by rw [pow_add, ← pow_mul]
    _ ≤ (c.rng >>> (ilog c.rng - 16)) ^ 8 * (2 ^ (ilog c.rng - 16)) ^ 8 :=
      Nat.mul_le_mul_right _ hpow
    _ = (c.rng >>> (ilog c.rng - 16) * 2 ^ (ilog c.rng - 16)) ^ 8 := (Nat.mul_pow _ _ _).symm
    _ ≤ c.rng ^ 8 := Nat.pow_le_pow_left hpart 8

/-- After two symbols. -/
def twoSymbols : EcCtx := ((encInit (List.replicate 4 0) 4).encBitLogp true 15).encode 2 3 7

theorem twoSymbols_tellFrac : twoSymbols.tellFrac = twoSymbols.tellFracPlain ∧
    twoSymbols.tellFrac ≤ 8 * twoSymbols.tell ∧ 8 * twoSymbols.tell < twoSymbols.tellFrac + 8 ∧
    2 ^ (8 * (twoSymbols.nbitsTotal - 1)) ≤ twoSymbols.rng ^ 8 * 2 ^ twoSymbols.tellFrac :=
  tellFrac_spec (by decide +kernel) (by decide +kernel) (by decide +kernel) (by decide +kernel)

end EcCtx

end Opus

end VoxLink
