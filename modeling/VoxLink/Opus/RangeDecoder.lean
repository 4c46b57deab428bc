import VoxLink.Opus.RangeFlush

/-! The decoder keeps in step with the encoder: it has read four bytes more, and its `val` counts
the codes of the span that are above its own. So it reads every symbol that was written. -/

namespace VoxLink

namespace Opus

open ProofKit

namespace EcCtx

variable {bytes : List UInt8} {size n low count : Nat} {d e e' : EcCtx}

/-! ### Bytes in front -/

/-- A decoder that has read the byte `n` as its last one, for a span of codes that begins at
`low`. -/
structure Reads (bytes : List UInt8) (size : Nat) (d : EcCtx) (n low : Nat) : Prop where
  buf : d.buf = bytes
  storage : d.storage = size
  offs : d.offs = min (n + 1) size
  rem : d.rem = some (streamByte bytes size n)
  val : d.val + codeAt bytes size (n + 1) + 1 = low + d.rng
  from_low : low ≤ codeAt bytes size (n + 1)

theorem Reads.val_lt (h : Reads bytes size d n low) : d.val < d.rng := by
  have := h.val
  have := h.from_low
  omega

theorem readByte_eq (hbuf : d.buf = bytes) (hstorage : d.storage = size)
    (hoffs : d.offs = min n size) :
    d.readByte = (streamByte bytes size n, { d with offs := min (n + 1) size }) := by
  rw [readByte, streamByte]
  by_cases hn : n < size
  · have hoffs' : d.offs = n := by omega
    rw [if_pos (by omega), if_pos hn, hoffs', hbuf, Nat.min_eq_left hn]
  · have hoffs' : d.offs = size := by omega
    rw [if_neg (by omega), if_neg hn, Nat.min_eq_right (by omega), ← hoffs']

theorem decShift_eq (h : Reads bytes size d n low) (hbot : d.rng ≤ codeBot) : d.decShift = { d with
    offs := min (n + 2) size
    nbitsTotal := d.nbitsTotal + 8
    rng := d.rng * 256
    rem := some (streamByte bytes size (n + 1))
    val := d.val * 256 + (255 -
      (streamByte bytes size n * 256 + streamByte bytes size (n + 1)) / 2 % 256) } := by
  have hval := h.val_lt
  have hbot' : d.rng ≤ 2 ^ 23 := hbot
  have hbyte : streamByte bytes size (n + 1) < 2 ^ 8 := streamByte_lt
  have hsym : (streamByte bytes size n <<< symBits ||| streamByte bytes size (n + 1)) >>>
      (symBits - codeExtra) =
        (streamByte bytes size n * 256 + streamByte bytes size (n + 1)) / 2 := by
    rw [Nat.or_comm, show symBits = 8 from rfl, or_shiftLeft hbyte, Nat.add_comm,
      Nat.shiftRight_eq_div_pow]
    rfl
  have hnot : andNot symMax ((streamByte bytes size n * 256 + streamByte bytes size (n + 1)) / 2) =
      255 - (streamByte bytes size n * 256 + streamByte bytes size (n + 1)) / 2 % 256 := by
    rw [andNot, Nat.and_comm, and_symMax]
    rfl
  have hshift (v : Nat) : v <<< symBits = v * 256 := Nat.shiftLeft_eq v 8
  rw [decShift, readByte_eq h.buf h.storage h.offs, h.rem]
  simp only [Option.getD_some, hsym, hnot]
  simp only [hshift, and_codeTop]
  congr 1
  · exact u32_eq (by omega)
  · rw [u32_eq (show d.val * 256 < 2 ^ 32 by omega), u32_eq (by omega), Nat.mod_eq_of_lt (by omega)]

theorem decShift_reads (h : Reads bytes size d n low) (hbot : d.rng ≤ codeBot) :
    Reads bytes size d.decShift (n + 1) (low * 256) := by
  have hval := h.val
  have hlow := h.from_low
  have hbyte : streamByte bytes size (n + 1) < 256 := streamByte_lt
  rw [codeAt, streamNumber_succ] at hval hlow
  rw [decShift_eq h hbot]
  refine ⟨h.buf, h.storage, rfl, rfl, ?_, ?_⟩
  · show _ + codeAt bytes size (n + 1 + 1) + 1 = low * 256 + d.rng * 256
    rw [codeAt, streamNumber_succ, streamNumber_succ]
    dsimp only
    omega
  · rw [codeAt, streamNumber_succ, streamNumber_succ]
    omega

/-! ### Raw bits -/

/-- A decoder that has used `count` raw bits: its window has those behind them. -/
structure Window (bytes : List UInt8) (size : Nat) (d : EcCtx) (count : Nat) : Prop where
  offs : ∃ i, d.endOffs = min i size ∧ 8 * i = count + d.nendBits
  window : d.endWindow = tailNumber bytes size / 2 ^ count % 2 ^ d.nendBits
  bits : d.nendBits ≤ 32

/-- The byte `i` from the end. -/
theorem tailNumber_byte {i : Nat} (hbuffer : size ≤ bytes.length) :
    tailNumber bytes size / 256 ^ i % 256 =
    if i < size then (bytes.getD (size - (i + 1)) 0).toNat else 0 := by
  have hsmall : tailNumber bytes size < 256 ^ size := by
    have hlt := bytesNumber_lt (bytes.take size)
    rwa [List.length_take, Nat.min_eq_left hbuffer] at hlt
  split
  · rename_i hi
    have hlast : size - i = size - (i + 1) + 1 := by omega
    have hinside : size - (i + 1) < bytes.length := by omega
    have hlength : (Buffer.piece bytes (size - i) i).length = i := Buffer.length_piece (by omega)
    have hrest : bytesNumber (Buffer.piece bytes (size - i) i) < 256 ^ i := by
      have hlt := bytesNumber_lt (Buffer.piece bytes (size - i) i)
      rwa [hlength] at hlt
    have hsplit : tailNumber bytes size = bytesNumber (bytes.take (size - i)) * 256 ^ i +
        bytesNumber (Buffer.piece bytes (size - i) i) := by
      have htake : bytes.take size = bytes.take (size - i) ++ Buffer.piece bytes (size - i) i := by
        rw [Buffer.piece, ← List.take_add, Nat.sub_add_cancel (Nat.le_of_lt hi)]
      rw [tailNumber, htake, bytesNumber_append, hlength]
    rw [hsplit, Nat.add_comm, Nat.add_mul_div_right _ _ (by positivity), Nat.div_eq_of_lt hrest,
      Nat.zero_add, hlast, List.take_add_one, List.getElem?_eq_getElem hinside, Option.toList_some,
      bytesNumber_concat, List.getD_eq_getElem _ _ hinside, Nat.mul_add_mod', Nat.mod_eq_of_lt]
    exact UInt8.toNat_lt _
  · rename_i hi
    rw [Nat.div_eq_of_lt (hsmall.trans_le (Nat.pow_le_pow_right (by decide) (Nat.le_of_not_lt hi)))]

/-- The rounds read bytes until the window has no room for more. -/
theorem fillWindow_spec {m window available : Nat} (hbuffer : size ≤ bytes.length)
    (hbuf : d.buf = bytes) (hstorage : d.storage = size)
    (hoffs : ∃ i, d.endOffs = min i size ∧ 8 * i = count + available)
    (hwindow : window = tailNumber bytes size / 2 ^ count % 2 ^ available) (hmost : available ≤ 32)
    (hm : 24 < available + 8 * m) :
    ∃ d' window' available', fillWindow m d window available = (d', window', available') ∧
      d' = { d with endOffs := d'.endOffs } ∧
      (∃ i, d'.endOffs = min i size ∧ 8 * i = count + available') ∧
      window' = tailNumber bytes size / 2 ^ count % 2 ^ available' ∧ 24 < available' ∧
      available' ≤ 32 := by
  induction m generalizing d window available with
  | zero => exact ⟨d, window, available, rfl, rfl, hoffs, hwindow, hm, hmost⟩
  | succ m ih =>
    rw [fillWindow]
    split
    · rename_i hroom
      have hroom' : available ≤ 24 := hroom
      obtain ⟨i, hi, hcount⟩ := hoffs
      have hbyte := tailNumber_byte (i := i) hbuffer
      have hread : d.readByteFromEnd =
          (tailNumber bytes size / 256 ^ i % 256, { d with endOffs := min (i + 1) size }) := by
        rw [hbyte, readByteFromEnd]
        by_cases hin : i < size
        · have hi' : d.endOffs = i := by omega
          rw [if_pos (by omega), if_pos hin, hi', hbuf, hstorage, Nat.min_eq_left hin]
        · have hi' : d.endOffs = size := by omega
          rw [if_neg (by omega), if_neg hin, Nat.min_eq_right (by omega), ← hi']
      have hpow : (256 : Nat) ^ i = 2 ^ count * 2 ^ available := by rw [pow_256, hcount, pow_add]
      have hfill : window ||| u32 ((tailNumber bytes size / 256 ^ i % 256) <<< available) =
          tailNumber bytes size / 2 ^ count % 2 ^ (available + 8) := by
        have hsmall : tailNumber bytes size / 256 ^ i % 256 * 2 ^ available < 2 ^ 32 := by
          calc tailNumber bytes size / 256 ^ i % 256 * 2 ^ available < 256 * 2 ^ available :=
                Nat.mul_lt_mul_of_pos_right (Nat.mod_lt _ (by decide)) (by positivity)
            _ ≤ 256 * 2 ^ 24 := Nat.mul_le_mul_left _ (Nat.pow_le_pow_right (by decide) hroom')
        have hwindow' : window < 2 ^ available := hwindow ▸ Nat.mod_lt _ (by positivity)
        rw [u32_eq (by rwa [Nat.shiftLeft_eq]), or_shiftLeft hwindow', hwindow, hpow,
          ← Nat.div_div_eq_div_mul, pow_add, Nat.mod_mul]
        exact congrArg (_ + ·) (Nat.mul_comm _ _)
      rw [hread]
      exact ih hbuf hstorage ⟨i + 1, rfl, show _ = count + (available + 8) by omega⟩ hfill
        (show available + 8 ≤ 32 by omega) (show 24 < available + 8 + 8 * m by omega)
    · rename_i hfull
      have hfull' : 24 < available := Nat.lt_of_not_le hfull
      exact ⟨d, window, available, rfl, rfl, hoffs, hwindow, hfull', hmost⟩

/-- The window with enough bits. -/
def enoughFor (d : EcCtx) (bits : Nat) : EcCtx × Nat × Nat :=
  if d.nendBits < bits then fillWindow 4 d d.endWindow d.nendBits
  else (d, d.endWindow, d.nendBits)

theorem decBits_eq {bits : Nat} : d.decBits bits =
    ((d.enoughFor bits).2.1 &&& (1 <<< bits - 1), { (d.enoughFor bits).1 with
      endWindow := (d.enoughFor bits).2.1 >>> bits
      nendBits := (d.enoughFor bits).2.2 - bits
      nbitsTotal := (d.enoughFor bits).1.nbitsTotal + bits }) := rfl

theorem enoughFor_spec {bits : Nat} (hbuffer : size ≤ bytes.length) (hbuf : d.buf = bytes)
    (hstorage : d.storage = size) (hmost : bits ≤ 25) (h : Window bytes size d count) :
    ∃ d' window' available', d.enoughFor bits = (d', window', available') ∧
      d' = { d with endOffs := d'.endOffs } ∧
      (∃ i, d'.endOffs = min i size ∧ 8 * i = count + available') ∧
      window' = tailNumber bytes size / 2 ^ count % 2 ^ available' ∧ bits ≤ available' ∧
      available' ≤ 32 := by
  rw [enoughFor]
  split
  · obtain ⟨d', window', available', heq, hsame, hoffs, hwindow, hlow, hhigh⟩ :=
      fillWindow_spec (m := 4) hbuffer hbuf hstorage h.offs h.window h.bits (by omega)
    exact ⟨d', window', available', heq, hsame, hoffs, hwindow, by omega, hhigh⟩
  · rename_i henough
    exact ⟨d, d.endWindow, d.nendBits, rfl, rfl, h.offs, h.window, Nat.le_of_not_lt henough, h.bits⟩

/-- The raw bits that are read are those that come next. -/
theorem decBits_spec {bits : Nat} (hbuffer : size ≤ bytes.length) (hbuf : d.buf = bytes)
    (hstorage : d.storage = size) (hmost : bits ≤ 25) (h : Window bytes size d count) :
    (d.decBits bits).1 = tailNumber bytes size / 2 ^ count % 2 ^ bits ∧
      Window bytes size (d.decBits bits).2 (count + bits) ∧
      (d.decBits bits).2 = { d with
        endOffs := (d.decBits bits).2.endOffs
        endWindow := (d.decBits bits).2.endWindow
        nendBits := (d.decBits bits).2.nendBits
        nbitsTotal := d.nbitsTotal + bits } := by
  obtain ⟨d', window', available', heq, hsame, ⟨i, hi, hcount⟩, hwindow, henough, hmost'⟩ :=
    enoughFor_spec hbuffer hbuf hstorage hmost h
  have hdvd : 2 ^ bits ∣ 2 ^ available' := Nat.pow_dvd_pow 2 henough
  have hsplit : 2 ^ available' = 2 ^ bits * 2 ^ (available' - bits) := by
    rw [← pow_add, Nat.add_sub_cancel' henough]
  rw [decBits_eq, heq]
  refine ⟨?_, ⟨⟨i, hi, show 8 * i = count + bits + (available' - bits) by omega⟩, ?_,
    (Nat.sub_le _ _).trans hmost'⟩, ?_⟩
  · rw [Nat.one_shiftLeft, Nat.and_two_pow_sub_one_eq_mod, hwindow, Nat.mod_mod_of_dvd _ hdvd]
  · show window' >>> bits = _ / 2 ^ (count + bits) % 2 ^ (available' - bits)
    rw [Nat.shiftRight_eq_div_pow, hwindow, hsplit, Nat.mod_mul_right_div_self,
      Nat.div_div_eq_div_mul, ← pow_add]
  · show { d' with endWindow := _, nendBits := _, nbitsTotal := d'.nbitsTotal + bits } = _
    rw [hsame]

/-! ### In step -/

/-- The decoder has read what the encoder has written. -/
structure Synced (bytes : List UInt8) (size : Nat) (e d : EcCtx) : Prop where
  reads : Reads bytes size d (e.span.depth + 3) e.span.low
  rng : d.rng = e.rng
  bits : d.nbitsTotal = e.nbitsTotal
  error : d.error = false
  window : Window bytes size d e.raw.count

/-- A change of what the decoder does not look at. -/
theorem Synced.same (h : Synced bytes size e d) (hspan : e'.span = e.span) (hraw : e'.raw = e.raw)
    (hrng : e'.rng = e.rng) (hbits : e'.nbitsTotal = e.nbitsTotal) : Synced bytes size e' d := by
  refine ⟨?_, h.rng.trans hrng.symm, h.bits.trans hbits.symm, h.error, ?_⟩
  · rw [hspan]
    exact h.reads
  · rw [hraw]
    exact h.window

theorem Synced.ext (h : Synced bytes size e d) {ext : Nat} : Synced bytes size e { d with ext } :=
  ⟨⟨h.reads.buf, h.reads.storage, h.reads.offs, h.reads.rem, h.reads.val, h.reads.from_low⟩, h.rng,
    h.bits, h.error, ⟨h.window.offs, h.window.window, h.window.bits⟩⟩

theorem Synced.shift (h : Synced bytes size e d) (he : Coding e) (hrng : 0 < e.rng)
    (hbot : e.rng ≤ codeBot) (hbits : Counted e) (hok : e.encShift.error = false) :
    Synced bytes size e.encShift d.decShift := by
  obtain ⟨-, hrng', hraw, hspan⟩ := encShift_spec he hrng hbot hbits hok
  have hbot' : d.rng ≤ codeBot := h.rng ▸ hbot
  have hreads := decShift_reads h.reads hbot'
  have heq := decShift_eq h.reads hbot'
  refine ⟨?_, ?_, ?_, ?_, ?_⟩
  · rw [hspan]
    exact hreads
  · rw [heq, hrng', ← h.rng]
  · rw [heq]
    exact congrArg (· + 8) h.bits
  · rw [heq]
    exact h.error
  · rw [heq, hraw]
    exact ⟨h.window.offs, h.window.window, h.window.bits⟩

theorem Synced.rounds {m : Nat} (h : Synced bytes size e d) (he : Coding e) (hrng : 0 < e.rng)
    (hbits : Counted (encRounds m e)) (hok : (encRounds m e).error = false) :
    Synced bytes size (encRounds m e) (decRounds m d) := by
  induction m generalizing e d with
  | zero => exact h
  | succ m ih =>
    rw [encRounds] at hbits hok ⊢
    rw [decRounds, h.rng]
    split
    · rename_i hbot
      rw [if_pos hbot] at hbits hok
      have hlater : Later e.encShift (encRounds m e.encShift) := later_encRounds
      have hcounted : Counted e := (later_encShift.bits.trans hlater.bits).trans_lt hbits
      have hshift := hlater.error hok
      obtain ⟨hcoding, hrng', -, -⟩ := encShift_spec he hrng hbot hcounted hshift
      exact ih (h.shift he hrng hbot hcounted hshift) hcoding (by omega) hbits hok
    · exact h

/-- The part of the range that `val` is in. -/
def decCut (d : EcCtx) (above below : Nat) : EcCtx :=
  { d with val := d.val - below, rng := above - below }

/-- The code lies in what the encoder cuts out, so the decoder can tell, and cuts out the same. -/
theorem Synced.cut {above below : Nat} (h : Synced bytes size e d) (he : Ready e)
    (hbelow : below < above) (habove : above ≤ e.rng)
    (hbits : Counted (e.cut above below).encNormalize)
    (hok : (e.cut above below).encNormalize.error = false)
    (hholds : Span.Holds (code bytes size) (e.cut above below).encNormalize.span) :
    below ≤ d.val ∧ d.val < above ∧
      Synced bytes size (e.cut above below).encNormalize (d.decCut above below).decNormalize := by
  have hwithin := (codes_cut he hbelow habove hbits hok).2
  have hcode : Span.Holds (code bytes size) (e.cut above below).span :=
    hwithin.holds (by decide) (fun n => code_succ) hholds
  have hlow : (e.cut above below).span.low ≤ codeAt bytes size (e.held.count + 4) := hcode.1
  have hhigh : codeAt bytes size (e.held.count + 4) <
      (e.cut above below).span.low + (above - below) := hcode.2
  have hval := h.reads.val
  have hrng := h.rng
  have hfrom := h.reads.from_low
  have hspan : (e.cut above below).span.low = e.span.low + (e.rng - above) :=
    (Nat.add_assoc _ _ _).symm
  have hrng' : (e.cut above below).rng = above - below := rfl
  have hdepth : e.span.depth + 3 + 1 = e.held.count + 4 := rfl
  rw [hdepth] at hval hfrom
  rw [hspan] at hlow hhigh
  have hin : below ≤ d.val ∧ d.val < above := by omega
  have hcut : Synced bytes size (e.cut above below) (d.decCut above below) := by
    refine ⟨⟨h.reads.buf, h.reads.storage, h.reads.offs, h.reads.rem, ?_, ?_⟩, rfl, h.bits, h.error,
      ⟨h.window.offs, h.window.window, h.window.bits⟩⟩
    · rw [hspan]
      show d.val - below + codeAt bytes size (e.held.count + 4) + 1 =
        e.span.low + (e.rng - above) + (above - below)
      omega
    · rw [hspan]
      exact hlow
  exact ⟨hin.1, hin.2, hcut.rounds (he.toCoding.cut hbelow habove) (by rw [hrng']; omega) hbits hok⟩

/-! ### Symbols -/

/-- The value of `ec_decode` is one of the symbol's. -/
theorem decode_mem {fl fh ft : Nat} (hpos : 0 < d.rng / ft) (hfl : fl < fh) (hfh : fh ≤ ft)
    (hbelow : d.rng / ft * (ft - fh) ≤ d.val) (habove : d.val < above d.rng (d.rng / ft) ft fl) :
    fl ≤ (d.decode ft).1 ∧ (d.decode ft).1 < fh := by
  have hlow : ft - fh ≤ d.val / (d.rng / ft) := by
    rw [Nat.le_div_iff_mul_le hpos, Nat.mul_comm]
    exact hbelow
  have hhigh : fl ≠ 0 → d.val / (d.rng / ft) < ft - fl := by
    intro hne
    rw [above, if_neg hne] at habove
    rw [Nat.div_lt_iff_lt_mul hpos, Nat.mul_comm]
    exact habove
  show fl ≤ ft - min (d.val / (d.rng / ft) + 1) ft ∧ ft - min (d.val / (d.rng / ft) + 1) ft < fh
  omega

theorem decUpdate_cut {fl fh ft : Nat} (hext : d.ext = d.rng / ft) (hrng : d.rng < 2 ^ 32)
    (hval : d.val < d.rng) (hfl : fl < fh) (hfh : fh ≤ ft) (hft : ft < 2 ^ 32)
    (hbelow : d.rng / ft * (ft - fh) ≤ d.val) (habove : above d.rng (d.rng / ft) ft fl ≤ d.rng) :
    d.decUpdate fl fh ft = (d.decCut (above d.rng (d.rng / ft) ft fl)
      (d.rng / ft * (ft - fh))).decNormalize := by
  have hdiff : d.rng / ft * (fh - fl) = d.rng / ft * (ft - fl) - d.rng / ft * (ft - fh) := by
    rw [← Nat.mul_sub]
    congr 1
    omega
  rw [decUpdate, decCut, hext, sub32_eq hfh hft, u32_eq (show _ * (ft - fh) < _ by omega),
    sub32_eq hbelow (by omega), sub32_eq (by omega) hrng, sub32_eq (Nat.le_of_lt hfl) (by omega)]
  rw [above] at habove ⊢
  by_cases hzero : fl = 0
  · rw [if_pos hzero, if_neg (by omega)]
  · rw [if_neg hzero] at habove
    rw [if_neg hzero, if_pos (by omega), hdiff, u32_eq (by omega)]

/-- The loop of `ec_dec_icdf` stops at the symbol that `v` is in. -/
theorem searchIcdf_eq (ret t : Nat) {r v s : Nat} {icdf : List Nat} (hs : s < icdf.length)
    (hsorted : icdf.Pairwise (· ≥ ·)) (hsmall : ∀ x ∈ icdf, r * x < 2 ^ 32)
    (hbelow : r * icdf.getD s 0 ≤ v) (habove : s ≠ 0 → v < r * icdf.getD (s - 1) 0) :
    searchIcdf r v ret t icdf =
      some (ret + s, r * icdf.getD s 0, if s = 0 then t else r * icdf.getD (s - 1) 0) := by
  induction icdf generalizing ret t s with
  | nil => exact absurd hs (Nat.not_lt_zero s)
  | cons x icdf ih =>
    rw [searchIcdf, u32_eq (hsmall x (List.mem_cons_self ..))]
    cases s with
    | zero => exact if_neg (Nat.not_lt.mpr hbelow)
    | succ s =>
      have hs' : s < icdf.length := Nat.lt_of_succ_lt_succ hs
      have hmost : (x :: icdf).getD s 0 ≤ x := by
        cases s with
        | zero => exact le_rfl
        | succ s =>
          have hin : s < icdf.length := Nat.lt_of_succ_lt hs'
          rw [List.getD_cons_succ, List.getD_eq_getElem _ _ hin]
          exact List.rel_of_pairwise_cons hsorted (List.getElem_mem hin)
      have hless : v < r * x :=
        (habove (Nat.succ_ne_zero s)).trans_le (Nat.mul_le_mul_left r hmost)
      rw [if_pos hless, ih (ret + 1) (r * x) hs' (List.Pairwise.of_cons hsorted)
        (fun y hy => hsmall y (List.mem_cons_of_mem x hy)) hbelow ?_]
      · cases s with
        | zero => rfl
        | succ s => rw [Nat.add_assoc, Nat.add_comm 1]; rfl
      · intro hne
        obtain ⟨s, rfl⟩ := Nat.exists_eq_succ_of_ne_zero hne
        exact habove (Nat.succ_ne_zero _)

/-- Reads a symbol. None if it is another one. -/
def dec (d : EcCtx) : EcSymbol → Option EcCtx
  | .range fl fh ft =>
    let (s, d) := d.decode ft
    if fl ≤ s ∧ s < fh then some (d.decUpdate fl fh ft) else none
  | .bin fl fh bits =>
    let (s, d) := d.decodeBin bits
    if fl ≤ s ∧ s < fh then some (d.decUpdate fl fh (1 <<< bits)) else none
  | .bit val logp =>
    let (ret, d) := d.decBitLogp logp
    if ret = val then some d else none
  | .icdf s table ftb => do
    let (ret, d) ← d.decIcdf table ftb
    if ret = s then some d else none
  | .uint fl ft =>
    let (t, d) := d.decUint ft
    if t = fl then some d else none
  | .raw fl bits =>
    let (value, d) := d.decBits bits
    if value = fl then some d else none

/-- A symbol of a frequency table. -/
theorem Synced.decode {fl fh ft : Nat} (h : Synced bytes size e d) (he : Ready e) (hfl : fl < fh)
    (hfh : fh ≤ ft) (hft : ft ≤ codeBot) (hbits : Counted (e.encode fl fh ft))
    (hok : (e.encode fl fh ft).error = false)
    (hholds : Span.Holds (code bytes size) (e.encode fl fh ft).span) :
    fl ≤ (d.decode ft).1 ∧ (d.decode ft).1 < fh ∧
      Synced bytes size (e.encode fl fh ft) ((d.decode ft).2.decUpdate fl fh ft) := by
  have htop := he.top
  have hft' : ft < 2 ^ 32 := hft.trans_lt (by decide)
  obtain ⟨hbelow, habove⟩ := above_bounds he hfl hfh hft
  rw [encode_cut he hfl hfh hft] at hbits hok hholds ⊢
  have hpos : 0 < e.rng / ft := Nat.div_pos (hft.trans (Nat.le_of_lt he.rng_gt)) (by omega)
  have hsynced : Synced bytes size e (d.decode ft).2 := h.ext
  have hrng := hsynced.rng
  obtain ⟨hlow, hhigh, hcut⟩ := hsynced.cut he hbelow habove hbits hok hholds
  rw [← hrng] at hbelow habove hlow hhigh hcut hpos htop ⊢
  obtain ⟨hmin, hmax⟩ := decode_mem hpos hfl hfh hlow hhigh
  refine ⟨hmin, hmax, ?_⟩
  rw [decUpdate_cut rfl (by omega) hsynced.reads.val_lt hfl hfh hft' hlow habove]
  exact hcut

theorem Synced.bits_spec {fl bits : Nat} (h : Synced bytes size e d) (he : Ready e)
    (hbuffer : size ≤ bytes.length) (hfl : fl < 2 ^ bits) (hmost : bits ≤ 25)
    (hok : (e.encBits fl bits).error = false)
    (hraw : LowBits.Of (tailNumber bytes size) (e.encBits fl bits).raw) :
    (d.decBits bits).1 = fl ∧ Synced bytes size (e.encBits fl bits) (d.decBits bits).2 := by
  obtain ⟨-, hpush, hspan⟩ := encBits_spec he hfl hmost hok
  obtain ⟨hvalue, hwindow, heq⟩ :=
    decBits_spec hbuffer h.reads.buf h.reads.storage hmost h.window
  have hsame : (e.encBits fl bits).rng = e.rng ∧
      (e.encBits fl bits).nbitsTotal = e.nbitsTotal + bits :=
    encBits_same hok he hmost
  rw [hpush] at hraw
  refine ⟨?_, ⟨?_, ?_, ?_, ?_, ?_⟩⟩
  · rw [hvalue]
    exact hraw.read he.raw_lt
  · rw [hspan, heq]
    exact ⟨h.reads.buf, h.reads.storage, h.reads.offs, h.reads.rem, h.reads.val, h.reads.from_low⟩
  · rw [heq, hsame.1]
    exact h.rng
  · rw [heq, hsame.2]
    exact congrArg (· + bits) h.bits
  · rw [heq]
    exact h.error
  · rw [hpush]
    exact hwindow

theorem Synced.bitLogp {val : Bool} {logp : Nat} (h : Synced bytes size e d) (he : Ready e)
    (hlogp : 1 ≤ logp) (hmost : logp ≤ 23) (hbits : Counted (e.encBitLogp val logp))
    (hok : (e.encBitLogp val logp).error = false)
    (hholds : Span.Holds (code bytes size) (e.encBitLogp val logp).span) :
    (d.decBitLogp logp).1 = val ∧
      Synced bytes size (e.encBitLogp val logp) (d.decBitLogp logp).2 := by
  obtain ⟨hbelow, habove⟩ := bit_bounds val he hlogp hmost
  rw [encBitLogp_cut he] at hbits hok hholds ⊢
  obtain ⟨hlow, hhigh, hcut⟩ := h.cut he hbelow habove hbits hok hholds
  rw [← h.rng] at hlow hhigh hcut ⊢
  rw [decBitLogp, Nat.shiftRight_eq_div_pow]
  cases val with
  | true =>
    have hret : d.val < d.rng / 2 ^ logp := hhigh
    rw [decide_eq_true hret]
    exact ⟨rfl, hcut⟩
  | false =>
    have hret : ¬d.val < d.rng / 2 ^ logp := Nat.not_lt.mpr hlow
    rw [decide_eq_false hret]
    exact ⟨rfl, hcut⟩

theorem Synced.icdf {s ftb : Nat} {table : List Nat} (h : Synced bytes size e d) (he : Ready e)
    (hs : (EcSymbol.icdf s table ftb).Valid) (hbits : Counted (e.encIcdf s table ftb))
    (hok : (e.encIcdf s table ftb).error = false)
    (hholds : Span.Holds (code bytes size) (e.encIcdf s table ftb).span) :
    ∃ d', d.decIcdf table ftb = some (s, d') ∧ Synced bytes size (e.encIcdf s table ftb) d' := by
  obtain ⟨hftb, hfirst, hlater⟩ := icdf_parts hs
  obtain ⟨hlength, hsorted, hmost, -⟩ := hs
  obtain ⟨hbelow, habove⟩ := tableAbove_bounds he hftb hfirst hlater
  rw [encIcdf_cut he hftb hfirst hlater] at hbits hok hholds ⊢
  obtain ⟨hlow, hhigh, hcut⟩ := h.cut he hbelow habove hbits hok hholds
  have htop := he.top
  rw [← h.rng] at hbelow habove hlow hhigh hcut htop ⊢
  have hsmall : ∀ x ∈ table, d.rng / 2 ^ ftb * x < 2 ^ 32 := by
    intro x hx
    have hle : d.rng / 2 ^ ftb * x ≤ d.rng / 2 ^ ftb * 2 ^ ftb := Nat.mul_le_mul_left _ (hmost x hx)
    have := Nat.div_mul_le_self d.rng (2 ^ ftb)
    omega
  have hsearch := searchIcdf_eq 0 d.rng hlength hsorted hsmall hlow fun hne => by
    rwa [tableAbove, if_neg hne] at hhigh
  rw [Nat.zero_add] at hsearch
  rw [← tableAbove] at hsearch
  refine ⟨_, ?_, hcut⟩
  rw [decIcdf, Nat.shiftRight_eq_div_pow, hsearch]
  show some _ = some _
  rw [sub32_eq hlow (by omega), sub32_eq (Nat.le_of_lt hbelow) (by omega)]
  rfl

theorem Synced.uint {fl ft : Nat} (h : Synced bytes size e d) (he : Ready e)
    (hbuffer : size ≤ bytes.length) (hfl : fl < ft) (hft : 2 ≤ ft) (hft' : ft < 2 ^ 32)
    (hbits : Counted (e.encUint fl ft)) (hok : (e.encUint fl ft).error = false)
    (hholds : Span.Holds (code bytes size) (e.encUint fl ft).span)
    (hraw : LowBits.Of (tailNumber bytes size) (e.encUint fl ft).raw) :
    (d.decUint ft).1 = fl ∧ Synced bytes size (e.encUint fl ft) (d.decUint ft).2 := by
  have hparts := uint_parts hfl hft hft'
  by_cases hmany : uintBits < ilog (ft - 1)
  · rw [if_pos hmany] at hparts
    rw [encUint_many hmany] at hbits hok hholds hraw ⊢
    rw [decUint, if_pos hmany]
    generalize ilog (ft - 1) - uintBits = k at hparts hbits hok hholds hraw ⊢
    obtain ⟨hhigh, hsmall, hmost, hlow⟩ := hparts
    have hmost' : k ≤ 25 := hmost.trans (by decide)
    have hlowBits : fl &&& (1 <<< k - 1) < 2 ^ k := by
      rw [hlow]
      exact Nat.mod_lt _ (by positivity)
    have hfirstBits := later_encBits.bits.trans_lt hbits
    have hfirstOk := later_encBits.error hok
    have hfirst := codes_encode he (Nat.lt_succ_self _) hhigh hsmall hfirstBits hfirstOk
    have hspan := (encBits_spec hfirst.ready hlowBits hmost' hok).2.2
    obtain ⟨hmin, hmax, hsynced⟩ := h.decode he (Nat.lt_succ_self _) hhigh hsmall
      hfirstBits hfirstOk
      (hspan ▸ hholds)
    have hs : (d.decode ((ft - 1) >>> k + 1)).1 = fl >>> k := by omega
    obtain ⟨hvalue, hsynced'⟩ := hsynced.bits_spec hfirst.ready hbuffer hlowBits hmost' hok hraw
    have hwhole : u32 ((fl >>> k) <<< k) ||| (fl &&& (1 <<< k - 1)) = fl := by
      have hsplit := Nat.div_add_mod' fl (2 ^ k)
      rw [u32_eq, Nat.or_comm, or_shiftLeft hlowBits, hlow, Nat.shiftRight_eq_div_pow]
      · omega
      · rw [Nat.shiftLeft_eq, Nat.shiftRight_eq_div_pow]
        omega
    simp only [hs, hvalue, hwhole]
    rw [if_pos (show fl ≤ ft - 1 by omega)]
    exact ⟨rfl, hsynced'⟩
  · rw [if_neg hmany] at hparts
    rw [encUint_few hmany] at hbits hok hholds ⊢
    rw [decUint, if_neg hmany]
    obtain ⟨hmin, hmax, hsynced⟩ := h.decode he (Nat.lt_succ_self _) hfl hparts hbits hok hholds
    have hs : (d.decode ft).1 = fl := by omega
    simp only [hs]
    exact ⟨trivial, hsynced⟩

/-- The decoder reads the symbol that the encoder writes. -/
theorem Synced.symbol {s : EcSymbol} (h : Synced bytes size e d) (he : Ready e)
    (hbuffer : size ≤ bytes.length) (hs : s.Valid) (hbits : Counted (e.enc s))
    (hok : (e.enc s).error = false) (hholds : Span.Holds (code bytes size) (e.enc s).span)
    (hraw : LowBits.Of (tailNumber bytes size) (e.enc s).raw) :
    ∃ d', d.dec s = some d' ∧ Synced bytes size (e.enc s) d' := by
  cases s with
  | range fl fh ft =>
    obtain ⟨hmin, hmax, hsynced⟩ := h.decode he hs.1 hs.2.1 hs.2.2 hbits hok hholds
    exact ⟨_, if_pos ⟨hmin, hmax⟩, hsynced⟩
  | bin fl fh bits =>
    have hft : 2 ^ bits ≤ codeBot := Nat.pow_le_pow_right (by decide) hs.2.2
    rw [enc, encodeBin_eq] at hbits hok hholds ⊢
    obtain ⟨hmin, hmax, hsynced⟩ := h.decode he hs.1 hs.2.1 hft hbits hok hholds
    have hbin : d.decodeBin bits = d.decode (2 ^ bits) := by
      rw [decodeBin, EcCtx.decode, Nat.shiftRight_eq_div_pow, Nat.one_shiftLeft]
    refine ⟨_, ?_, hsynced⟩
    rw [dec, hbin, Nat.one_shiftLeft]
    exact if_pos ⟨hmin, hmax⟩
  | bit val logp =>
    obtain ⟨hval, hsynced⟩ := h.bitLogp he hs.1 hs.2 hbits hok hholds
    exact ⟨_, if_pos hval, hsynced⟩
  | icdf s table ftb =>
    obtain ⟨d', hread, hsynced⟩ := h.icdf he hs hbits hok hholds
    refine ⟨d', ?_, hsynced⟩
    rw [dec, hread]
    exact if_pos rfl
  | uint fl ft =>
    obtain ⟨hval, hsynced⟩ := h.uint he hbuffer hs.1 hs.2.1 hs.2.2 hbits hok hholds hraw
    exact ⟨_, if_pos hval, hsynced⟩
  | raw fl bits =>
    obtain ⟨hval, hsynced⟩ := h.bits_spec he hbuffer hs.1 hs.2.2 hok hraw
    exact ⟨_, if_pos hval, hsynced⟩

/-! ### Runs -/

/-- The symbols that were written, without the changes of the size. -/
def symbols (as : List EcAction) : List EcSymbol :=
  as.filterMap fun
    | .code s => some s
    | .shrink _ => none

/-- Reads the symbols one after another. -/
def decAll (d : EcCtx) (ss : List EcSymbol) : Option EcCtx := ss.foldlM dec d

theorem Synced.step {a : EcAction} (h : Synced bytes size e d) (he : Ready e)
    (hbuffer : size ≤ bytes.length) (ha : e.Allows a) (hbits : Counted (e.encStep a).2)
    (hok : (e.encStep a).2.error = false)
    (hholds : Span.Holds (code bytes size) (e.encStep a).2.span)
    (hraw : LowBits.Of (tailNumber bytes size) (e.encStep a).2.raw) :
    ∃ d', d.decAll (symbols [a]) = some d' ∧ Synced bytes size (e.encStep a).2 d' := by
  cases a with
  | code s =>
    obtain ⟨d', hread, hsynced⟩ := h.symbol he hbuffer ha hbits hok hholds hraw
    refine ⟨d', ?_, hsynced⟩
    show (d.dec s >>= fun d => some d) = some d'
    rw [hread]
    rfl
  | shrink size' =>
    obtain ⟨-, hraw', hspan⟩ := encShrink_spec he ha.1 ha.2
    exact ⟨d, rfl, h.same hspan hraw' rfl rfl⟩

/-- What the whole run leaves holds of the encoder after each of its steps. -/
theorem Codes.holds (h : Codes e e') (hholds : Span.Holds (code bytes size) e'.span)
    (hraw : LowBits.Of (tailNumber bytes size) e'.raw) :
    Span.Holds (code bytes size) e.span ∧ LowBits.Of (tailNumber bytes size) e.raw :=
  ⟨h.span.holds (by decide) (fun _ => code_succ) hholds, hraw.trans h.raw h.count⟩

theorem Synced.run {as : List EcAction} (h : Synced bytes size e d) (he : Ready e)
    (hbuffer : size ≤ bytes.length) (hall : Along encStep Allows e as)
    (hbits : Counted (ProofKit.run encStep e as)) (hok : (ProofKit.run encStep e as).error = false)
    (hholds : Span.Holds (code bytes size) (ProofKit.run encStep e as).span)
    (hraw : LowBits.Of (tailNumber bytes size) (ProofKit.run encStep e as).raw) :
    ∃ d', d.decAll (symbols as) = some d' ∧ Synced bytes size (ProofKit.run encStep e as) d' := by
  induction as generalizing e d with
  | nil => exact ⟨d, rfl, h⟩
  | cons a as ih =>
    have hlater : Later (e.encStep a).2 (ProofKit.run encStep (e.encStep a).2 as) := later_run
    have hstepBits := hlater.bits.trans_lt hbits
    have hstepOk := hlater.error hok
    have hready := (codes_step he hall.1 hstepBits hstepOk).ready
    obtain ⟨hholds', hraw'⟩ := (codes_run hready hall.2 hbits hok).holds hholds hraw
    obtain ⟨d₁, hread, hsynced⟩ := h.step he hbuffer hall.1 hstepBits hstepOk hholds' hraw'
    obtain ⟨d₂, hrest, hsynced'⟩ := ih hsynced hready hall.2 hbits hok hholds hraw
    refine ⟨d₂, ?_, hsynced'⟩
    have hsplit : symbols (a :: as) = symbols [a] ++ symbols as := by
      rw [← List.singleton_append, symbols, List.filterMap_append]
      rfl
    rw [decAll] at hread hrest ⊢
    rw [hsplit, List.foldlM_append, hread]
    exact hrest

/-- The context of `ec_dec_init` before it reads a byte. -/
def decStart (bytes : List UInt8) (size : Nat) : EcCtx :=
  { buf := bytes, storage := size, endOffs := 0, endWindow := 0, nendBits := 0, nbitsTotal := 9
    offs := 0, rng := 128, val := 0, ext := 0, rem := none, error := false }

/-- And before its first round. -/
def decFirst (bytes : List UInt8) (size : Nat) : EcCtx :=
  { decStart bytes size with
    offs := min 1 size, rem := some (streamByte bytes size 0),
    val := 127 - streamByte bytes size 0 / 2 }

theorem decInit_eq : decInit bytes size = decRounds 4 (decFirst bytes size) := by
  have hread : (decStart bytes size).readByte =
      (streamByte bytes size 0, { decStart bytes size with offs := min 1 size }) :=
    readByte_eq rfl rfl (Nat.zero_min size).symm
  show decRounds 4 { (decStart bytes size).readByte.2 with
    rem := some (decStart bytes size).readByte.1,
    val := 127 - (decStart bytes size).readByte.1 >>> 1 } = _
  rw [hread, Nat.shiftRight_eq_div_pow]
  rfl

theorem decFirst_reads : Reads bytes size (decFirst bytes size) 0 0 := by
  have hbyte : streamByte bytes size 0 < 256 := streamByte_lt
  have hcode : codeAt bytes size 1 = streamByte bytes size 0 / 2 := by
    rw [codeAt, streamNumber_succ]
    show (0 * 256 + _) / 2 = _
    rw [Nat.zero_mul, Nat.zero_add]
  refine ⟨rfl, rfl, rfl, rfl, ?_, Nat.zero_le _⟩
  show 127 - streamByte bytes size 0 / 2 + codeAt bytes size 1 + 1 = 0 + 128
  rw [hcode]
  omega

theorem decRounds_succ {m : Nat} (hbot : d.rng ≤ codeBot) :
    decRounds (m + 1) d = decRounds m d.decShift := by
  rw [decRounds, if_pos hbot]

/-- What a round changes. -/
theorem decShift_fields (h : Reads bytes size d n low) (hbot : d.rng ≤ codeBot) :
    d.decShift.rng = d.rng * 256 ∧ d.decShift.nbitsTotal = d.nbitsTotal + 8 ∧
      d.decShift.error = d.error ∧ d.decShift.endOffs = d.endOffs ∧
      d.decShift.endWindow = d.endWindow ∧ d.decShift.nendBits = d.nendBits := by
  rw [decShift_eq h hbot]
  exact ⟨rfl, rfl, rfl, rfl, rfl, rfl⟩

theorem span_encInit {buf : List UInt8} : (encInit buf size).span = ⟨0, 0, codeTop⟩ := by
  have hheld : (encInit buf size).held = ⟨[], none, 0⟩ := rfl
  have hnumber : (Held.mk [] none 0).number 256 = 0 := rfl
  rw [span, hheld, hnumber, Nat.zero_mul]
  rfl

/-- A decoder starts with the four bytes that it is ahead. -/
theorem synced_init {buf : List UInt8} {size' : Nat} :
    Synced bytes size (encInit buf size') (decInit bytes size) := by
  have hbot : codeBot = 2 ^ 23 := rfl
  have hreads₀ : Reads bytes size (decFirst bytes size) 0 0 := decFirst_reads
  have hrng₀ : (decFirst bytes size).rng = 2 ^ 7 := rfl
  have hkept₀ : (decFirst bytes size).nbitsTotal = 9 ∧ (decFirst bytes size).error = false ∧
      (decFirst bytes size).endOffs = 0 ∧ (decFirst bytes size).endWindow = 0 ∧
      (decFirst bytes size).nendBits = 0 := ⟨rfl, rfl, rfl, rfl, rfl⟩
  rw [decInit_eq]
  generalize decFirst bytes size = d₀ at *
  -- three rounds: from 7 bits to 31
  obtain ⟨hrng₁, hbits₁, herror₁, hoffs₁, hwindow₁, hnend₁⟩ := decShift_fields hreads₀ (by omega)
  have hreads₁ := decShift_reads hreads₀ (by omega)
  rw [decRounds_succ (by omega)]
  generalize d₀.decShift = d₁ at *
  obtain ⟨hrng₂, hbits₂, herror₂, hoffs₂, hwindow₂, hnend₂⟩ := decShift_fields hreads₁ (by omega)
  have hreads₂ := decShift_reads hreads₁ (by omega)
  rw [decRounds_succ (by omega)]
  generalize d₁.decShift = d₂ at *
  obtain ⟨hrng₃, hbits₃, herror₃, hoffs₃, hwindow₃, hnend₃⟩ := decShift_fields hreads₂ (by omega)
  have hreads₃ := decShift_reads hreads₂ (by omega)
  rw [decRounds_succ (by omega)]
  generalize d₂.decShift = d₃ at *
  obtain ⟨hbits₀, herror₀, hoffs₀, hwindow₀, hnend₀⟩ := hkept₀
  have hrng : d₃.rng = 2 ^ 31 := by omega
  have hnend : d₃.nendBits = 0 := by rw [hnend₃, hnend₂, hnend₁, hnend₀]
  rw [decRounds, if_neg (by omega)]
  refine ⟨?_, hrng, ?_, ?_, ⟨⟨0, ?_, ?_⟩, ?_, ?_⟩⟩
  · rw [span_encInit]
    simpa only [Nat.zero_mul] using hreads₃
  · show d₃.nbitsTotal = 33
    omega
  · rw [herror₃, herror₂, herror₁, herror₀]
  · rw [hoffs₃, hoffs₂, hoffs₁, hoffs₀, Nat.zero_min]
  · rw [hnend]
    rfl
  · rw [hwindow₃, hwindow₂, hwindow₁, hwindow₀, hnend, pow_zero, Nat.mod_one]
  · rw [hnend]
    exact Nat.zero_le _

/-- What an encoder writes without an error, a decoder reads: after any number of the symbols it has
read these, and is where the encoder was. -/
theorem reads_back {buf : List UInt8} {as bs : List EcAction} (hsize : size ≤ buf.length)
    (hall : Along encStep Allows (encInit buf size) (as ++ bs))
    (hbits : Counted (ProofKit.run encStep (encInit buf size) (as ++ bs)))
    (hok : (ProofKit.run encStep (encInit buf size) (as ++ bs)).encDone.error = false) :
    let done := (ProofKit.run encStep (encInit buf size) (as ++ bs)).encDone
    ∃ d, (decInit done.buf done.storage).decAll (symbols as) = some d ∧ d.error = false ∧
      d.rng = (ProofKit.run encStep (encInit buf size) as).rng ∧
      d.nbitsTotal = (ProofKit.run encStep (encInit buf size) as).nbitsTotal := by
  intro done
  have hinit := ready_encInit hsize
  have hrunOk := error_of_encDone hok
  have hready := (codes_run hinit hall hbits hrunOk).ready
  obtain ⟨hstorage, hbuffer, hholds, hraw⟩ := encDone_spec hready hbits hok
  rw [← hstorage] at hbuffer hholds hraw
  -- the symbols of `bs` come behind
  obtain ⟨hfirst, hrest⟩ := along_append.mp hall
  have hend : ProofKit.run encStep (encInit buf size) (as ++ bs) =
      ProofKit.run encStep (ProofKit.run encStep (encInit buf size) as) bs := run_append
  have hlater : Later (ProofKit.run encStep (encInit buf size) as)
      (ProofKit.run encStep (encInit buf size) (as ++ bs)) := hend ▸ later_run
  have hfirstBits := hlater.bits.trans_lt hbits
  have hfirstOk := hlater.error hrunOk
  have hready' := (codes_run hinit hfirst hfirstBits hfirstOk).ready
  have hcodes : Codes (ProofKit.run encStep (encInit buf size) as)
      (ProofKit.run encStep (encInit buf size) (as ++ bs)) :=
    hend ▸ codes_run hready' hrest (hend ▸ hbits) (hend ▸ hrunOk)
  obtain ⟨hholds', hraw'⟩ := hcodes.holds hholds hraw
  obtain ⟨d, hread, hsynced⟩ :=
    synced_init.run hinit hbuffer hfirst hfirstBits hfirstOk hholds' hraw'
  exact ⟨d, hread, hsynced.error, hsynced.rng, hsynced.bits⟩

/-- Symbols of each kind, and a smaller buffer in between. -/
def firstSymbols : List EcAction :=
  [.code (.bit true 15), .code (.icdf 1 [25, 23, 2, 0] 5), .code (.raw 5 3), .shrink 8,
    .code (.uint 1000 2000)]

def otherSymbols : List EcAction := [.code (.range 2 3 7), .code (.bin 4 8 4)]

theorem symbols_read_back :
    let done := (ProofKit.run encStep (encInit (List.replicate 10 0) 10)
      (firstSymbols ++ otherSymbols)).encDone
    ∃ d, (decInit done.buf done.storage).decAll (symbols firstSymbols) = some d ∧ d.error = false ∧
      d.rng = (ProofKit.run encStep (encInit (List.replicate 10 0) 10) firstSymbols).rng ∧
      d.nbitsTotal =
        (ProofKit.run encStep (encInit (List.replicate 10 0) 10) firstSymbols).nbitsTotal :=
  reads_back (by decide) (by decide +kernel) (show _ < 2 ^ 31 by decide +kernel) (by decide +kernel)

end EcCtx

end Opus

end VoxLink
