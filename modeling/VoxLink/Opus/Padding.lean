import VoxLink.Opus.Repacketizer
import VoxLink.ProofKit.Buffers

/-! Packets that are padded, and packets that are rid of their padding, which are written over the
packets that they come from. -/

namespace VoxLink

namespace Opus

open Buffer

/-! ### Unpadding in place -/

/-- Where the frames of a packet at `data` lie. -/
def Packet.places (p : Packet) (data : Nat) : List (Nat × Nat) :=
  placesFrom (data + p.payloadOffset) (p.sizes.map Int.toNat)

/-- `opus_repacketizer_out_range_impl` without padding or extensions, into the memory that the
frames lie in themselves. -/
def outAt (mem : List UInt8) (dst : Nat) (toc : UInt8) (places : List (Nat × Nat)) (maxlen : Nat)
    (selfDelimited : Bool) : Except OpusError (List UInt8 × Nat) := do
  let lens := places.map Prod.snd
  let (header, size) ← outHeader toc lens maxlen selfDelimited false
  let written := header ++ delimiter selfDelimited lens
  pure (moveAll (store mem dst written) (dst + written.length) places, size)

/-- A repacketizer with the packet at `data` alone is put out at `dst`. -/
def unpadAt (selfDelimited : Bool) (mem : List UInt8) (dst data len maxlen : Nat) :
    Except OpusError (List UInt8 × Nat) := do
  let rp ← Repacketizer.init.cat selfDelimited (mem.drop data) len
  let packet ← parse selfDelimited (mem.drop data) len
  outAt mem dst rp.toc (packet.places data) maxlen selfDelimited

/-- `opus_packet_unpad` -/
def unpad (data : List UInt8) (len : Nat) : Except OpusError (List UInt8 × Nat) :=
  if len < 1 then throw .badArg else unpadAt false data 0 0 len len

/-- The streams of a packet, all but the last of which are self-delimited. -/
def unpadStreams : Nat → List UInt8 → Nat → Nat → Int → Except OpusError (List UInt8 × Nat)
  | 0, mem, dst, _, _ => pure (mem, dst)
  | n + 1, mem, dst, data, len =>
    if len ≤ 0 then throw .invalidPacket
    else do
      let packet ← parse (n ≠ 0) (mem.drop data) len
      let offset := packet.packetOffset
      let (mem, size) ← unpadAt (n ≠ 0) mem dst data offset.toNat len.toNat
      unpadStreams n mem (dst + size) (data + offset.toNat) (len - offset)

/-- `opus_multistream_packet_unpad` -/
def multistreamUnpad (data : List UInt8) (len : Nat) (nbStreams : Nat) :
    Except OpusError (List UInt8 × Nat) :=
  if len < 1 then throw .badArg else unpadStreams nbStreams data 0 0 len

/-- `opus_packet_pad`: the packet is put out from a copy, and what stands behind it stays. -/
def padTo (X : Extensions) (data : List UInt8) (len newLen : Nat) : Except OpusError (List UInt8) :=
  if len < 1 then throw .badArg
  else if len = newLen then pure data
  else if newLen < len then throw .badArg
  else do
    let rp ← Repacketizer.init.cat false (data.take len) len
    let (packet, _) ← rp.outRange X 0 rp.frames.length newLen false true
    pure (store data 0 packet)

/-! ### One packet -/

variable {data mem : List UInt8} {len dst src maxlen size : Nat} {sd : Bool} {toc : UInt8}
  {frames : List (List UInt8)} {packet : List UInt8} {p : Packet}

/-- The frames are moved down to where the packet has them, behind its header. -/
theorem outAt_eq (hout : outPacket toc frames maxlen sd false = .ok (packet, size))
    (hframes : piece mem src frames.flatten.length = frames.flatten)
    (hdown : dst + packet.length ≤ src + frames.flatten.length)
    (hmem : src + frames.flatten.length ≤ mem.length) :
    outAt mem dst toc (placesFrom src (frames.map List.length)) maxlen sd =
      .ok (store mem dst packet, size) := by
  unfold outPacket at hout
  unfold outAt
  rw [map_snd_placesFrom]
  cases hheader : outHeader toc (frames.map List.length) maxlen sd false with
  | error e =>
    simp only [hheader] at hout
    cases hout
  | ok x =>
    obtain ⟨header, size'⟩ := x
    simp only [hheader, bind, Except.bind, pure, Except.pure, Bool.false_eq_true, if_false,
      List.replicate_zero, List.append_nil, Except.ok.injEq, Prod.mk.injEq] at hout ⊢
    obtain ⟨rfl, rfl⟩ := hout
    generalize header ++ delimiter sd (frames.map List.length) = written at hdown ⊢
    rw [List.length_append] at hdown
    have hsum : (frames.map List.length).sum = frames.flatten.length := List.length_flatten.symm
    have hlength : (store mem dst written).length = mem.length := length_store (by omega)
    refine ⟨?_, rfl⟩
    rw [moveAll_placesFrom (by omega) (by omega), hsum,
      piece_store_of_le (by omega) (by omega), hframes, store_store (by omega)]

/-- A packet that is accepted is accepted by a repacketizer without frames. -/
theorem cat_fresh (hlen : len ≤ data.length) (hp : parse sd data len = .ok p) :
    ∃ rp, Repacketizer.init.cat sd data len = .ok rp ∧ rp.toc = p.toc ∧ rp.frames = p.frames ∧
      rp.paddings = p.paddings := by
  have hframes : p.HasFrames sd data len := (parse_hasFrames hlen).of_ok hp
  have hpos : 1 ≤ p.frames.length := List.length_pos_of_ne_nil hframes.nonempty
  have hlenPos : 1 ≤ len := by
    have := hframes.fits
    have hheader := hframes.header
    rw [headerLength] at hheader
    omega
  have hduration := hframes.duration
  rw [samplesPerFrame_ratio] at hduration
  have hratio : p.frames.length * samplesPerFrame p.toc 8000 ≤ 960 := by nlinarith
  have htoc := hframes.toc
  have hcount := hframes.count
  unfold Repacketizer.cat
  rw [if_neg (by omega)]
  cases data with
  | nil => cases htoc
  | cons toc rest =>
    obtain rfl : toc = p.toc := Option.some.inj htoc
    simp only [Repacketizer.init, ne_eq, not_true_eq_false, false_and, if_false, Repacketizer.start,
      if_true, Repacketizer.add, hcount, bind, Except.bind, hp]
    rw [if_neg (by omega), if_neg (by simpa using hratio)]
    exact ⟨_, rfl, rfl, rfl, rfl⟩

/-- A packet is written over memory that it may itself lie in, further on. -/
theorem unpadAt_eq (hdst : dst ≤ src) (hmem : src + len ≤ mem.length) (hmax : len ≤ maxlen)
    (hp : parse sd (mem.drop src) len = .ok p) :
    ∃ packet, unpadAt sd mem dst src len maxlen = .ok (store mem dst packet, packet.length) ∧
      outPacket p.toc p.frames maxlen sd false = .ok (packet, packet.length) ∧
      packet.length = headerLength sd (p.frames.map List.length) + p.frames.flatten.length ∧
      packet.length + p.pad ≤ len ∧ Holds sd p.toc p.frames packet := by
  have hlen : len ≤ (mem.drop src).length := by
    rw [List.length_drop]
    omega
  have hframes : p.HasFrames sd (mem.drop src) len := (parse_hasFrames hlen).of_ok hp
  obtain ⟨rp, hcat, htoc, -, -⟩ := cat_fresh hlen hp
  have hholds := outPacket_holds p.toc maxlen sd false hframes.nonempty hframes.small
    hframes.duration
  have hheader := hframes.header
  have hfits := hframes.fits
  rw [if_neg (by omega)] at hholds
  obtain ⟨packet, hout, hlength, hholds⟩ := hholds
  rw [if_neg Bool.false_ne_true] at hlength
  have hsizes : p.sizes.map Int.toNat = p.frames.map List.length := by
    obtain ⟨_, _, hparsed⟩ := (parse_parsed hlen).of_ok hp
    obtain ⟨sizes, hwell⟩ := hparsed.wellFormed
    have hroom : sizes.sum ≤ p.payload.length := by
      have := hwell.fits
      rw [hwell.payload, List.length_drop]
      omega
    rw [Packet.frames, hwell.sizes_eq, frames_lengths hroom, List.map_map]
    simp [Function.comp_def]
  have hpiece : piece mem (src + p.payloadOffset) p.frames.flatten.length = p.frames.flatten := by
    rw [piece, ← List.drop_drop]
    exact hframes.lies
  refine ⟨packet, ?_, hout, hlength, by omega, hholds⟩
  unfold unpadAt
  simp only [hcat, hp, bind, Except.bind, Packet.places, hsizes, htoc]
  exact outAt_eq hout hpiece (by omega) (by omega)

theorem Holds.length_pos (h : Holds sd toc frames packet) : 1 ≤ packet.length := by
  by_contra hnone
  have hempty : packet.length = 0 := by omega
  obtain ⟨p, hp, -⟩ := h [] 0 (by omega) fun _ => hempty.symm
  cases hp

/-- A packet without its padding fits into the place of the packet, and is read back with the same
frames: the assertion at the end of `opus_packet_unpad` never fails. -/
theorem unpad_holds (h : len ≤ data.length) (hp : parse false data len = .ok p) :
    ∃ packet, unpad data len = .ok (packet ++ data.drop packet.length, packet.length) ∧
      1 ≤ packet.length ∧ packet.length + p.pad ≤ len ∧
      packet.length = headerLength false (p.frames.map List.length) + p.frames.flatten.length ∧
      Holds false p.toc p.frames packet := by
  have hlenPos : 1 ≤ len := by
    by_contra hnone
    obtain rfl : len = 0 := by omega
    cases hp
  have hat : parse false (data.drop 0) len = .ok p := hp
  obtain ⟨packet, hout, -, hleast, hlength, hholds⟩ :=
    unpadAt_eq (le_refl 0) (by omega) (le_refl len) hat
  refine ⟨packet, ?_, hholds.length_pos, hlength, hleast, hholds⟩
  rw [unpad, if_neg (by omega), hout, store, List.take_zero, List.nil_append, Nat.zero_add]

theorem paddedFrame_unpads : ∃ packet, unpad [11, 65, 1, 3, 0] 5 =
    .ok (packet ++ [11, 65, 1, 3, 0].drop packet.length, packet.length) ∧ packet.length = 2 ∧
      Holds false 11 [[3]] packet := by
  have hp : parse false [11, 65, 1, 3, 0] (5 : Nat) = .ok ⟨11, [1], 3, [3, 0], 1⟩ := by
    decide +kernel
  obtain ⟨packet, hout, -, -, hleast, hholds⟩ := unpad_holds (by decide) hp
  exact ⟨packet, hout, hleast.trans (by decide +kernel), hholds⟩

/-! ### The place of a self-delimited packet -/

section

variable {rest : List UInt8} {n k left pad pads : Nat} {ch : UInt8} {l : Layout} {last : Int}
  {sizes : List Int}

theorem takeSize_shrink (h : len + k ≤ data.length) (hfits : size ≤ n)
    (ht : takeSize data (len + k) = .ok (size, rest, n + k)) :
    takeSize data len = .ok (size, rest, n) := by
  obtain ⟨hsize, hdata, hlen, -⟩ := (takeSize_inBounds h).of_ok ht
  dsimp only at hsize hdata hlen
  rw [hdata]
  exact takeSize_encode hsize (by omega) hfits

theorem takeSizes_shrink {last' : Int} (h : len + k ≤ data.length) (hfits : sizes.sum ≤ left)
    (ht : takeSizes n data (len + k) (last + k) = .ok (sizes, rest, left + k, last' + k)) :
    takeSizes n data len last = .ok (sizes, rest, left, last') := by
  obtain ⟨ns, hsizes, rfl, hall, hdata, hlen, hlast⟩ := (takeSizes_inBounds h).of_ok ht
  dsimp only at hsizes hdata hlen hlast
  have hsum : sizes.sum = (ns.sum : Nat) := by
    rw [hsizes, Nat.cast_list_sum]
  rw [hdata, takeSizes_encode hall (n := left) (by omega) (by omega), hsizes]
  have hleft : last - ((encodeSizes ns).length + ns.sum) = last' := by omega
  rw [hleft]

theorem takePadding_shrink {len left : Int} (hleft : 0 ≤ left)
    (ht : takePadding data (len + k) pad = .ok (rest, left + k, pads)) :
    takePadding data len pad = .ok (rest, left, pads) ∧ left < len := by
  induction data generalizing len pad with
  | nil =>
    rw [takePadding] at ht
    split_ifs at ht
  | cons p data ih =>
    rw [takePadding] at ht ⊢
    split_ifs at ht with hnone hmore
    · have hless : len + k - 1 - 254 = len - 1 - 254 + k := by omega
      rw [hless] at ht
      obtain ⟨hrest, hlt⟩ := ih ht
      rw [if_neg (by omega), if_pos hmore]
      exact ⟨hrest, by omega⟩
    · simp only [Except.ok.injEq, Prod.mk.injEq] at ht
      obtain ⟨rfl, hlen, rfl⟩ := ht
      rw [if_neg (by omega), if_neg hmore]
      refine ⟨?_, by omega⟩
      rw [Except.ok.injEq, Prod.mk.injEq, Prod.mk.injEq]
      exact ⟨rfl, by omega, rfl⟩

theorem padding_shrink {left : Int} (hleft : 0 ≤ left)
    (ht : padding ch data (len + k) = .ok (rest, left + k, pads)) :
    padding ch data len = .ok (rest, left, pads) := by
  unfold padding at ht ⊢
  split_ifs at ht ⊢
  · push_cast at ht
    exact (takePadding_shrink hleft ht).1
  · simp only [pure, Except.pure, Except.ok.injEq, Prod.mk.injEq] at ht ⊢
    exact ⟨ht.1, by omega, ht.2.2⟩

/-- A layout of a shorter packet. -/
def Layout.shrink (l : Layout) (k : Nat) : Layout :=
  { l with len := l.len - k, lastSize := l.lastSize - k }

theorem severalSizes_shrink (h : len + k ≤ data.length)
    (ht : severalSizes true ch data (len + k) pad = .ok l) (hk : k ≤ l.len)
    (hvbr : l.cbr = false → k ≤ l.lastSize ∧ l.sizes.sum + k ≤ l.len) :
    severalSizes true ch data len pad = .ok (l.shrink k) := by
  unfold severalSizes at ht ⊢
  by_cases hch : 128 ≤ ch.toNat
  · simp only [if_pos hch] at ht ⊢
    cases htaken : takeSizes (ch.toNat % 64 - 1) data (len + k) (len + k : Nat) with
    | error e =>
      rw [htaken] at ht
      cases ht
    | ok x =>
      obtain ⟨sizes, rest, left, last⟩ := x
      simp only [htaken, bind, Except.bind, throw, throwThe, MonadExceptOf.throw, pure,
        Except.pure] at ht
      split_ifs at ht with hneg
      cases ht
      obtain ⟨hlast, hfits⟩ := hvbr rfl
      dsimp only at hk hlast hfits
      have hshrunk : takeSizes (ch.toNat % 64 - 1) data len len =
          .ok (sizes, rest, left - k, last - k) := by
        refine takeSizes_shrink (k := k) h (by omega) ?_
        rw [Nat.sub_add_cancel hk, Int.sub_add_cancel, ← htaken]
        push_cast
        rfl
      simp only [hshrunk, bind, Except.bind, throw, throwThe, MonadExceptOf.throw, pure,
        Except.pure]
      rw [if_neg (by omega)]
      rfl
  · simp only [if_neg hch, if_true, pure, Except.pure, Except.ok.injEq] at ht ⊢
    subst ht
    simp only [Layout.shrink, Nat.add_sub_cancel]
    congr 1
    push_cast
    omega

theorem severalSizes_len (h : len ≤ data.length) :
    InBounds (severalSizes sd ch data len pad) fun l => l.len ≤ len := by
  unfold severalSizes
  dsimp only
  split_ifs
  · refine (takeSizes_inBounds h).bind ?_
    rintro ⟨sizes, rest, left, last⟩ ⟨ns, -, -, -, -, hlen, -⟩
    dsimp only at hlen ⊢
    split_ifs
    · exact inBounds_invalid
    · exact inBounds_ok (by dsimp only; omega)
  · exact inBounds_ok le_rfl
  · exact inBounds_invalid
  · exact inBounds_ok le_rfl

theorem severalFrames_shrink (h : len + k ≤ data.length)
    (ht : severalFrames true ch data (len + k) = .ok l) (hk : k ≤ l.len)
    (hvbr : l.cbr = false → k ≤ l.lastSize ∧ l.sizes.sum + k ≤ l.len) :
    severalFrames true ch data len = .ok (l.shrink k) := by
  unfold severalFrames at ht ⊢
  cases hpad : padding ch data (len + k) with
  | error e =>
    rw [hpad] at ht
    cases ht
  | ok x =>
    obtain ⟨rest, left, pads⟩ := x
    obtain ⟨header, hdata, hlength⟩ := (padding_inBounds h).of_ok hpad
    dsimp only at hdata hlength
    simp only [hpad, bind, Except.bind, throw, throwThe, MonadExceptOf.throw] at ht
    split_ifs at ht with hneg
    have hrest : left.toNat ≤ rest.length := by
      rw [hdata, List.length_append] at h
      omega
    have hleft : l.len ≤ left.toNat := (severalSizes_len hrest).of_ok ht
    have hshrunk : padding ch data len = .ok (rest, left - k, pads) := by
      refine padding_shrink (k := k) (by omega) ?_
      rw [Int.sub_add_cancel, hpad]
    have hnat : left.toNat = (left - k).toNat + k := by omega
    rw [hnat] at ht hrest
    simp only [hshrunk, bind, Except.bind]
    rw [if_neg (by omega)]
    exact severalSizes_shrink hrest ht hk hvbr

theorem layout_shrink (h : len + k ≤ rest.length) (hroom : 1 ≤ len)
    (ht : layout true toc rest (len + k) = .ok l)
    (hk : k ≤ l.len) (hvbr : l.cbr = false → k ≤ l.lastSize ∧ l.sizes.sum + k ≤ l.len) :
    layout true toc rest len = .ok (l.shrink k) := by
  unfold layout at ht ⊢
  have hcodes : toc.toNat % 4 = 0 ∨ toc.toNat % 4 = 1 ∨ toc.toNat % 4 = 2 ∨
    toc.toNat % 4 = 3 := by omega
  rcases hcodes with hcode | hcode | hcode | hcode
  · simp only [hcode, pure, Except.pure, Except.ok.injEq] at ht ⊢
    subst ht
    simp [Layout.shrink]
  · simp only [hcode, if_true, pure, Except.pure, Except.ok.injEq] at ht ⊢
    subst ht
    simp [Layout.shrink]
  · simp only [hcode] at ht ⊢
    cases htaken : takeSize rest (len + k) with
    | error e =>
      rw [htaken] at ht
      cases ht
    | ok x =>
      obtain ⟨size, rest', left⟩ := x
      simp only [htaken, bind, Except.bind, pure, Except.pure, Except.ok.injEq] at ht
      subst ht
      obtain ⟨hlast, hfits⟩ := hvbr rfl
      simp only [List.sum_singleton] at hk hlast hfits
      have hshrunk : takeSize rest len = .ok (size, rest', left - k) := by
        refine takeSize_shrink (k := k) h (by omega) ?_
        rw [Nat.sub_add_cancel hk, htaken]
      simp only [hshrunk, bind, Except.bind, pure, Except.pure, Except.ok.injEq, Layout.shrink]
      congr 1
      omega
  · simp only [hcode] at ht ⊢
    split_ifs at ht with hnone
    cases rest with
    | nil => cases ht
    | cons ch rest =>
      dsimp only at ht ⊢
      split_ifs at ht with hcount
      have hless : len + k - 1 = len - 1 + k := by omega
      rw [List.length_cons] at h
      rw [hless] at ht
      rw [if_neg (by omega), if_neg hcount]
      exact severalFrames_shrink (by omega) ht hk hvbr

/-- What the last size of a self-delimited packet leaves, and what its frames leave of that. -/
theorem finish_shrink (hfits : l.Fits true toc rest len) (h : len ≤ rest.length)
    {payload : List UInt8}
    (ht : finish true l = .ok (sizes, payload)) :
    ∃ k, k ≤ l.len ∧ (l.cbr = false → k ≤ l.lastSize ∧ l.sizes.sum + k ≤ l.len) ∧
      finish true (l.shrink k) = .ok (sizes, payload) ∧
      l.data.length + sizes.sum = payload.length + (l.len - k : Nat) ∧ 1 ≤ l.len - k ∧
      payload.length ≤ l.data.length := by
  obtain ⟨header, hrest, hlen, -⟩ := hfits.header
  have hdata : l.len ≤ l.data.length := by
    rw [hrest, List.length_append] at h
    omega
  unfold finish at ht ⊢
  rw [if_pos rfl] at ht
  cases htaken : takeSize l.data l.len with
  | error e =>
    rw [htaken] at ht
    cases ht
  | ok x =>
    obtain ⟨size, data, left⟩ := x
    obtain ⟨hsize, htook, hleft, hle⟩ := (takeSize_inBounds hdata).of_ok htaken
    dsimp only at hsize htook hleft hle
    have hbytes : 1 ≤ (encodeSize size).length := by
      rw [length_encodeSize]
      split_ifs <;> omega
    have hlength := congrArg List.length htook
    rw [List.length_append] at hlength
    simp only [htaken, bind, Except.bind, pure, Except.pure, throw, throwThe,
      MonadExceptOf.throw] at ht
    have hshrunk : ∀ k, size ≤ left - k → k ≤ left →
        takeSize l.data (l.len - k) = .ok (size, data, left - k) := by
      intro k hroom hk
      refine takeSize_shrink (k := k) (by omega) hroom ?_
      rw [Nat.sub_add_cancel (by omega), Nat.sub_add_cancel hk, htaken]
    cases hcbr : l.cbr with
    | true =>
      rw [hcbr, if_pos rfl] at ht
      split_ifs at ht with hmany
      cases ht
      have hcount := hfits.count.1
      have hreplicate : List.replicate (l.count - 1) (size : Int) ++ [(size : Int)] =
          List.replicate l.count (size : Int) := by
        rw [← List.replicate_succ', Nat.sub_add_cancel hcount]
      have hsum : (List.replicate l.count (size : Int)).sum = (size * l.count : Nat) := by
        rw [List.sum_replicate, nsmul_eq_mul, Nat.cast_mul, Int.mul_comm]
      have hone : size ≤ size * l.count := Nat.le_mul_of_pos_right _ hcount
      refine ⟨left - size * l.count, by omega, fun hfalse => ?_, ?_, ?_, by omega, by omega⟩
      · cases hfalse
      · simp only [if_true, Layout.shrink, hshrunk (left - size * l.count) (by omega)
          (by omega), bind, Except.bind, hcbr]
        rw [if_neg (by omega)]
        rfl
      · rw [hreplicate, hsum]
        omega
    | false =>
      rw [hcbr, if_neg Bool.false_ne_true] at ht
      split_ifs at ht with hlast
      cases ht
      obtain ⟨ns, hsizes, hns, -, hall, hpos, -⟩ := hfits.vbr hcbr
      have hsum : l.sizes.sum = (ns.sum : Nat) := by
        rw [hsizes, Nat.cast_list_sum]
      have hroom : ns.sum + size ≤ left := by omega
      refine ⟨left - (ns.sum + size), by omega, fun _ => ⟨by omega, by omega⟩, ?_,
        ?_, by omega, by omega⟩
      · simp only [if_true, Layout.shrink, hshrunk (left - (ns.sum + size)) (by omega)
          (by omega), bind, Except.bind, hcbr]
        rw [if_neg Bool.false_ne_true, if_neg (by omega)]
        rfl
      · rw [List.sum_append, List.sum_singleton, hsum]
        omega

/-- A self-delimited packet is read alike when no more than its own bytes are given. -/
theorem parse_shrink (h : len ≤ data.length) (hp : parse true data len = .ok p) :
    parse true data p.packetOffset = .ok p := by
  unfold parse at hp
  split_ifs at hp with hneg hzero
  cases data with
  | nil => cases hp
  | cons toc rest =>
    rw [List.length_cons] at h
    have hrest : (len : Int).toNat - 1 ≤ rest.length := by omega
    cases hl : layout true toc rest ((len : Int).toNat - 1) with
    | error e =>
      simp only [hl] at hp
      cases hp
    | ok l =>
      have hfits := (layout_inBounds hrest).of_ok hl
      cases hf : finish true l with
      | error e =>
        simp only [hl, bind, Except.bind, hf] at hp
        cases hp
      | ok x =>
        obtain ⟨sizes, payload⟩ := x
        simp only [hl, bind, Except.bind, hf, pure, Except.pure, Except.ok.injEq] at hp
        subst hp
        obtain ⟨header, hheader, hlen, -⟩ := hfits.header
        obtain ⟨k, hk, hvbr, hfinish, hplace, hone, hbehind⟩ := finish_shrink hfits hrest hf
        have hlength := congrArg List.length hheader
        rw [List.length_append] at hlength
        have hoffset : (Packet.packetOffset
          ⟨toc, sizes, (toc :: rest).length - payload.length, payload,
            l.pad⟩) = ((len : Int).toNat - k : Nat) := by
          simp only [Packet.packetOffset, List.length_cons]
          omega
        rw [hoffset]
        unfold parse
        rw [if_neg (by omega), if_neg (by omega)]
        have hnat : (((len : Int).toNat - k : Nat) : Int).toNat - 1 = len - 1 - k := by omega
        have hshrunk : layout true toc rest (len - 1 - k) = .ok (l.shrink k) := by
          refine layout_shrink (k := k) (by omega) (by omega) ?_ hk hvbr
          rw [← hl]
          congr 1
          omega
        simp only [hnat, hshrunk, bind, Except.bind, hfinish]
        rfl

end

/-! ### The packets of several streams -/

/-- The packets of the streams, as the decoder reads them one after another. -/
def parseStreams : Nat → List UInt8 → Int → Except OpusError (List Packet)
  | 0, _, _ => pure []
  | n + 1, data, len =>
    if len ≤ 0 then throw .invalidPacket
    else do
      let packet ← parse (n ≠ 0) data len
      let packets ← parseStreams n (data.drop packet.packetOffset.toNat) (len - packet.packetOffset)
      pure (packet :: packets)

/-- What stays of a packet: its kind and its frames. -/
def Packet.content (p : Packet) : Nat × List (List UInt8) := (p.toc.toNat / 4, p.frames)

theorem packetOffset_bounds (h : len ≤ data.length) (hp : parse sd data len = .ok p) :
    ∃ n : Nat, p.packetOffset = n ∧ 1 ≤ n ∧ n ≤ len ∧ (sd = false → n = len) := by
  obtain ⟨_, _, hparsed⟩ := (parse_parsed h).of_ok hp
  obtain ⟨sizes, hwell⟩ := hparsed.wellFormed
  have hheader := hwell.header
  rw [headerLength] at hheader
  refine ⟨p.payloadOffset + sizes.sum + p.pad, ?_, by omega, hwell.fits, hwell.exact⟩
  rw [Packet.packetOffset, hwell.sizes_eq, ← Nat.cast_list_sum]
  push_cast
  omega

/-- The packet of one stream, when the next start behind it. -/
theorem unpadAt_offset {n : Nat} (hdst : dst ≤ src) (hmem : src + len ≤ mem.length)
    (hp : parse sd (mem.drop src) len = .ok p) (hn : p.packetOffset = n) :
    ∃ packet, unpadAt sd mem dst src n len = .ok (store mem dst packet, packet.length) ∧
      packet.length ≤ n ∧ Holds sd p.toc p.frames packet := by
  have hlen : len ≤ (mem.drop src).length := by
    rw [List.length_drop]
    omega
  obtain ⟨m, hm, -, hle, hexact⟩ := packetOffset_bounds hlen hp
  obtain rfl : n = m := by omega
  have hagain : parse sd (mem.drop src) n = .ok p := by
    cases sd with
    | true =>
      rw [← hn]
      exact parse_shrink hlen hp
    | false => rw [hexact rfl, hp]
  obtain ⟨packet, hout, -, -, hlength, hholds⟩ := unpadAt_eq hdst (by omega) hle hagain
  exact ⟨packet, hout, by omega, hholds⟩

/-- Every stream is unpadded into the place of itself and the streams before it. -/
theorem unpadStreams_holds {n : Nat} (hdst : dst ≤ src) (hmem : src + len ≤ mem.length) :
    (∀ e, parseStreams n (mem.drop src) len = .error e →
      unpadStreams n mem dst src len = .error e) ∧
    ∀ ps, parseStreams n (mem.drop src) len = .ok ps →
      ∃ packet, unpadStreams n mem dst src len = .ok (store mem dst packet, dst + packet.length) ∧
        packet.length ≤ len ∧ ∃ ps', parseStreams n packet packet.length = .ok ps' ∧
          ps'.map Packet.content = ps.map Packet.content := by
  induction n generalizing mem dst src len with
  | zero =>
    constructor
    · intro e he
      cases he
    · intro ps hps
      cases hps
      exact ⟨[], by rw [store_nil]; rfl, Nat.zero_le _, [], rfl, rfl⟩
  | succ n ih =>
    by_cases hnone : (len : Int) ≤ 0
    · simp only [parseStreams, unpadStreams, if_pos hnone]
      constructor
      · intro e he
        cases he
        rfl
      · intro ps hps
        cases hps
    simp only [parseStreams, unpadStreams, if_neg hnone]
    cases hp : parse (n ≠ 0) (mem.drop src) len with
    | error e =>
      constructor
      · intro e' he
        cases he
        rfl
      · intro ps hps
        cases hps
    | ok p =>
      obtain ⟨offset, hoffset, hpos, hle, hexact⟩ := packetOffset_bounds
        (show len ≤ (mem.drop src).length by rw [List.length_drop]; omega) hp
      obtain ⟨packet, hout, hlength, hholds⟩ := unpadAt_offset hdst hmem hp hoffset
      have hmemLength : (store mem dst packet).length = mem.length := length_store (by omega)
      have hrest : (store mem dst packet).drop (src + offset) = (mem.drop src).drop offset := by
        rw [drop_store_of_le (by omega) (by omega), List.drop_drop]
      have hleft : (len : Int) - offset = (len - offset : Nat) := by omega
      have hdown : dst + packet.length ≤ src + offset := by omega
      have hroom : src + offset + (len - offset) ≤ (store mem dst packet).length := by omega
      obtain ⟨hfails, hpasses⟩ := ih hdown hroom
      rw [hrest] at hfails hpasses
      simp only [hoffset, Int.toNat_natCast, hout, bind, Except.bind, hleft]
      constructor
      · intro e he
        cases hps : parseStreams n ((mem.drop src).drop offset) (len - offset : Nat) with
        | error e' =>
          rw [hps] at he
          cases he
          exact hfails _ hps
        | ok ps =>
          rw [hps] at he
          cases he
      · intro ps hps
        cases hrests : parseStreams n ((mem.drop src).drop offset) (len - offset : Nat) with
        | error e =>
          rw [hrests] at hps
          cases hps
        | ok rests =>
          rw [hrests] at hps
          cases hps
          obtain ⟨packets, hwritten, hshort, ps', hread, hcontent⟩ := hpasses rests hrests
          rw [hwritten, store_store (by omega), Nat.add_assoc, ← List.length_append]
          refine ⟨packet ++ packets, rfl, by rw [List.length_append]; omega, ?_⟩
          have hlast : decide (n ≠ 0) = false → (packet ++ packets).length = packet.length := by
            intro hzero
            have := hexact hzero
            rw [List.length_append]
            omega
          obtain ⟨p', hp', htoc, hframes, hend⟩ := hholds packets (packet ++ packets).length
            (by rw [List.length_append]; omega) hlast
          have hpositive := hholds.length_pos
          have hbehind : ((packet ++ packets).length : Int) - packet.length = packets.length := by
            rw [List.length_append]
            push_cast
            omega
          refine ⟨p' :: ps', ?_, ?_⟩
          · rw [if_neg (by rw [List.length_append]; omega), hp']
            simp only [hend, Int.toNat_natCast, List.drop_left, hbehind, hread]
            rfl
          · rw [List.map_cons, List.map_cons, hcontent, Packet.content, Packet.content,
              htoc, hframes]

/-- A packet of several streams is rid of all padding in place: it does not grow, and its streams
are read back with the same frames. It is refused just when one of its streams is. -/
theorem multistreamUnpad_holds (nbStreams : Nat) (h : len ≤ data.length) (hlen : 1 ≤ len) :
    (∀ e, parseStreams nbStreams data len = .error e →
      multistreamUnpad data len nbStreams = .error e) ∧
    ∀ ps, parseStreams nbStreams data len = .ok ps →
      ∃ packet, multistreamUnpad data len nbStreams =
          .ok (packet ++ data.drop packet.length, packet.length) ∧
        packet.length ≤ len ∧ ∃ ps', parseStreams nbStreams packet packet.length = .ok ps' ∧
          ps'.map Packet.content = ps.map Packet.content := by
  have hroom : 0 + len ≤ data.length := by omega
  obtain ⟨hfails, hpasses⟩ := unpadStreams_holds (n := nbStreams) (le_refl 0) hroom
  rw [List.drop_zero] at hfails hpasses
  rw [multistreamUnpad, if_neg (by omega)]
  refine ⟨hfails, fun ps hps => ?_⟩
  obtain ⟨packet, hout, hshort, hread⟩ := hpasses ps hps
  refine ⟨packet, ?_, hshort, hread⟩
  rw [hout, store, List.take_zero, List.nil_append, Nat.zero_add]

theorem twoStreams_unpad : ∃ packet, multistreamUnpad [8, 1, 7, 11, 65, 1, 3, 0] 8 2 =
    .ok (packet ++ [8, 1, 7, 11, 65, 1, 3, 0].drop packet.length, packet.length) ∧
      ∃ ps, parseStreams 2 packet packet.length = .ok ps ∧
        ps.map Packet.content = [(2, [[7]]), (2, [[3]])] := by
  have hps : parseStreams 2 [8, 1, 7, 11, 65, 1, 3, 0] (8 : Nat) =
      .ok [⟨8, [1], 2, [7, 11, 65, 1, 3, 0], 0⟩, ⟨11, [1], 3, [3, 0], 1⟩] := by decide +kernel
  obtain ⟨packet, hout, -, ps, hread, hcontent⟩ :=
    (multistreamUnpad_holds 2 (by decide) (by decide)).2 _ hps
  exact ⟨packet, hout, ps, hread, hcontent⟩

/-! ### Padding and unpadding -/

theorem withCode_congr {toc' : UInt8} (h : toc'.toNat / 4 = toc.toNat / 4) (code : Nat) :
    withCode toc' code = withCode toc code := by
  rw [withCode, h, withCode]

/-- The header of an unpadded packet does not depend on the size of the buffer. -/
theorem outHeader_congr {toc' : UInt8} {lens : List Nat} {maxlen' : Nat} {x x' : List UInt8 × Nat}
    (htoc : toc'.toNat / 4 = toc.toNat / 4) (hne : lens ≠ [])
    (h : outHeader toc lens maxlen sd false = .ok x)
    (h' : outHeader toc' lens maxlen' sd false = .ok x') : x' = x := by
  unfold outHeader at h h'
  simp only [longHeader_eq hne, shortHeader, withCode_congr htoc, Bool.false_eq_true, false_and,
    or_false, if_false] at h h'
  by_cases hmany : 2 < lens.length
  · simp only [hmany, if_true] at h h'
    split_ifs at h h'
    · cases h
      cases h'
      rfl
    · cases h
      cases h'
      rfl
  · simp only [hmany, if_false] at h h'
    split_ifs at h h'
    cases h
    cases h'
    rfl

theorem outPacket_congr {toc' : UInt8} {maxlen' : Nat} {x x' : List UInt8 × Nat}
    (htoc : toc'.toNat / 4 = toc.toNat / 4) (hne : frames ≠ [])
    (h : outPacket toc frames maxlen sd false = .ok x)
    (h' : outPacket toc' frames maxlen' sd false = .ok x') : x' = x := by
  unfold outPacket at h h'
  cases hheader : outHeader toc (frames.map List.length) maxlen sd false with
  | error e =>
    simp only [hheader] at h
    cases h
  | ok y =>
    cases hheader' : outHeader toc' (frames.map List.length) maxlen' sd false with
    | error e =>
      simp only [hheader'] at h'
      cases h'
    | ok y' =>
      have hne' : frames.map List.length ≠ [] := by simpa using hne
      obtain rfl : y' = y := outHeader_congr htoc hne' hheader hheader'
      simp only [hheader, hheader', Bool.false_eq_true, if_false] at h h'
      cases h
      cases h'
      rfl

/-- What `opus_packet_unpad` leaves of a packet. -/
def unpadded (data : List UInt8) : Except OpusError (List UInt8) :=
  (fun x => x.1.take x.2) <$> unpad data data.length

theorem unpadded_eq (hp : parse false data data.length = .ok p) :
    ∃ packet, unpadded data = .ok packet ∧
      outPacket p.toc p.frames data.length false false = .ok (packet, packet.length) ∧
      p.frames ≠ [] := by
  have hframes : p.HasFrames false data data.length := (parse_hasFrames le_rfl).of_ok hp
  have hat : parse false (data.drop 0) data.length = .ok p := hp
  obtain ⟨packet, hout, hsame, -, hfits, hholds⟩ := unpadAt_eq (le_refl 0) (by omega)
    (le_refl _) hat
  have hpos := hholds.length_pos
  refine ⟨packet, ?_, hsame, hframes.nonempty⟩
  rw [unpadded, unpad, if_neg (by omega), hout, store, List.take_zero, List.nil_append]
  exact congrArg Except.ok List.take_left

/-- A packet whose padding can be read is padded to a greater length, is read back then with the
same frames, and is unpadded to what it would have been unpadded to at once. -/
theorem padTo_holds (X : Extensions) {newLen : Nat} (h : newLen ≤ data.length) (hlen : len ≤ newLen)
    (hp : parse false (data.take len) len = .ok p)
    (hplain : ∀ padding ∈ p.paddings, X.count padding = 0)
    (hparses : ∀ padding ∈ p.paddings, X.parses padding = true) :
    ∃ padded, padTo X data len newLen = .ok (padded ++ data.drop newLen) ∧ padded.length = newLen ∧
      (∃ p', parse false padded newLen = .ok p' ∧ p'.content = p.content) ∧
      unpadded padded = unpadded (data.take len) := by
  have hcopy : (data.take len).length = len := by
    rw [List.length_take]
    omega
  have hframes : p.HasFrames false (data.take len) len := (parse_hasFrames hcopy.ge).of_ok hp
  have hfits := hframes.fits
  have hheader := hframes.header
  have hlenPos : 1 ≤ len := by
    rw [headerLength] at hheader
    omega
  rcases Nat.eq_or_lt_of_le hlen with rfl | hlonger
  · refine ⟨data.take len, ?_, hcopy, ⟨p, hp, rfl⟩, rfl⟩
    rw [padTo, if_neg (by omega), if_pos rfl, List.take_append_drop]
    rfl
  · obtain ⟨rp, hcat, htoc, hrp, hpaddings⟩ := cat_fresh hcopy.ge hp
    have hpos : 1 ≤ p.frames.length := List.length_pos_of_ne_nil hframes.nonempty
    have hall : ((rp.paddings.take rp.frames.length).drop 0).all X.parses = true := by
      rw [List.all_eq_true, hpaddings]
      intro padding hmem
      exact hparses padding (List.mem_of_mem_take (List.mem_of_mem_drop hmem))
    have hout : rp.outRange X 0 rp.frames.length newLen false true =
        outPacket p.toc p.frames newLen false true := by
      rw [Repacketizer.outRange_plain X (hrp ▸ hpos) (le_refl _) (hpaddings ▸ hplain), if_pos hall,
        htoc, hrp, List.take_length, List.drop_zero]
    have hpadded := outPacket_holds p.toc newLen false true hframes.nonempty hframes.small
      hframes.duration
    rw [if_neg (by omega)] at hpadded
    obtain ⟨padded, hwritten, hlength, hholds⟩ := hpadded
    rw [if_pos rfl] at hlength
    obtain ⟨p', hp', hkind, hsame, -⟩ := hholds [] newLen (by omega) fun _ => hlength.symm
    rw [List.append_nil] at hp'
    refine ⟨padded, ?_, hlength, ⟨p', hp', by rw [Packet.content, hkind, hsame]; rfl⟩, ?_⟩
    · rw [padTo, if_neg (by omega), if_neg (by omega), if_neg (by omega), hcat]
      simp only [hout, hwritten, store, List.take_zero, List.nil_append, Nat.zero_add,
        hlength, bind, Except.bind]
      rfl
    · rw [← hlength] at hp'
      obtain ⟨packet', hunpadded', hleast', -⟩ := unpadded_eq hp'
      have hown : parse false (data.take len) (data.take len).length = .ok p := by rwa [hcopy]
      obtain ⟨packet, hunpadded, hleast, hne⟩ := unpadded_eq hown
      rw [hsame] at hleast'
      rw [hunpadded', hunpadded, (Prod.mk.inj (outPacket_congr hkind hne hleast hleast')).1]

theorem frame_pads : ∃ padded,
    padTo Repacketizer.zeroPaddings [8, 1, 2, 0, 0, 0, 0] 3 6 = .ok (padded ++ [0]) ∧
      padded.length = 6 ∧ unpadded padded = unpadded [8, 1, 2] := by
  have hp : parse false ([8, 1, 2, 0, 0, 0, 0].take 3) (3 : Nat) = .ok ⟨8, [2], 1, [1, 2], 0⟩ := by
    decide +kernel
  obtain ⟨padded, hout, hlength, -, hsame⟩ := padTo_holds Repacketizer.zeroPaddings
    (show 6 ≤ 7 by decide) (by decide) hp (fun _ _ => rfl) fun _ _ => rfl
  exact ⟨padded, hout, hlength, hsame⟩

end Opus

end VoxLink
