import VoxLink.Opus.Headers

/-! The repacketizer, which puts the frames of packets together into others. -/

namespace VoxLink

namespace Opus

/-! ### The repacketizer -/

/-- The padding of a packet, which is kept with the first of its frames; `data` goes on behind
it. -/
structure Padding where
  data : List UInt8
  len : Nat
  nbFrames : Nat
deriving DecidableEq, Repr

/-- `paddings` has an entry for each frame. -/
structure Repacketizer where
  toc : UInt8
  framesize : Nat
  frames : List (List UInt8)
  paddings : List Padding
deriving DecidableEq, Repr

/-- The extensions that a padding may carry: how many there are before it ends or cannot be read any
further, whether it is read to its end, and what is put out with them. -/
structure Extensions where
  count : Padding → Nat
  parses : Padding → Bool
  outRange : Repacketizer → Nat → Nat → Nat → Bool → Bool → Except OpusError (List UInt8 × Nat)

namespace Packet

/-- The padding, for each frame. -/
def paddings (p : Packet) : List Padding :=
  ⟨p.payload.drop p.sizes.sum.toNat, p.pad, p.sizes.length⟩ ::
    List.replicate (p.sizes.length - 1) ⟨[], 0, 0⟩

end Packet

namespace Repacketizer

def init : Repacketizer := ⟨0, 0, [], []⟩

end Repacketizer

/-- `opus_packet_get_nb_frames` -/
def nbFrames (data : List UInt8) (len : Nat) : Except OpusError Nat :=
  if len < 1 then .error .badArg
  else
    match data with
    | [] => .error .outOfBounds
    | toc :: data =>
      if toc.toNat % 4 = 0 then .ok 1
      else if toc.toNat % 4 ≠ 3 then .ok 2
      else if len < 2 then .error .invalidPacket
      else
        match data with
        | [] => .error .outOfBounds
        | ch :: _ => .ok (ch.toNat % 64)

namespace Repacketizer

/-- The first packet decides on the kind of all. -/
def start (rp : Repacketizer) (toc : UInt8) : Repacketizer :=
  if rp.frames = [] then { rp with toc, framesize := samplesPerFrame toc 8000 } else rp

/-- The frames of a packet, when they fit in. -/
def add (selfDelimited : Bool) (rp : Repacketizer) (data : List UInt8) (len : Nat) :
    Except OpusError Repacketizer := do
  let count ← nbFrames data len
  if count < 1 then throw .invalidPacket
  else if 960 < (count + rp.frames.length) * rp.framesize then throw .invalidPacket
  else do
    let packet ← parse selfDelimited data len
    pure
      { rp with
        frames := rp.frames ++ packet.frames, paddings := rp.paddings ++ packet.paddings }

/-- `opus_repacketizer_cat_impl` -/
def cat (selfDelimited : Bool) (rp : Repacketizer) (data : List UInt8) (len : Nat) :
    Except OpusError Repacketizer :=
  if len < 1 then .error .invalidPacket
  else
    match data with
    | [] => .error .outOfBounds
    | toc :: _ =>
      if rp.frames ≠ [] ∧ rp.toc.toNat / 4 ≠ toc.toNat / 4 then .error .invalidPacket
      else (rp.start toc).add selfDelimited data len

/-- Packets are added one after another. -/
def catAll (rp : Repacketizer) (packets : List (List UInt8)) : Except OpusError Repacketizer :=
  packets.foldlM (fun rp data => rp.cat false data data.length) rp

/-- `opus_repacketizer_out_range_impl` -/
def outRange (X : Extensions) (rp : Repacketizer) (first last maxlen : Nat)
    (selfDelimited pad : Bool) : Except OpusError (List UInt8 × Nat) :=
  let paddings := (rp.paddings.take last).drop first
  if last ≤ first ∨ rp.frames.length < last then .error .badArg
  else if !paddings.all X.parses then .error .internalError
  else if paddings.all fun padding => X.count padding = 0 then
    outPacket rp.toc ((rp.frames.take last).drop first) maxlen selfDelimited pad
  else X.outRange rp first last maxlen selfDelimited pad

/-- `opus_repacketizer_out` -/
def out (X : Extensions) (rp : Repacketizer) (maxlen : Nat) : Except OpusError (List UInt8 × Nat) :=
  rp.outRange X 0 rp.frames.length maxlen false false

end Repacketizer

variable {data rest : List UInt8} {len : Nat} {sd pad : Bool} {toc : UInt8}

/-! ### The frames of a packet -/

theorem severalSizes_count {ch : UInt8} {pad : Nat} (h : len ≤ data.length) :
    InBounds (severalSizes sd ch data len pad) fun l => l.count = ch.toNat % 64 := by
  unfold severalSizes
  dsimp only
  split_ifs
  · refine (takeSizes_inBounds h).bind fun x _ => ?_
    split_ifs
    · exact inBounds_invalid
    · exact inBounds_ok rfl
  · exact inBounds_ok rfl
  · exact inBounds_invalid
  · exact inBounds_ok rfl

theorem severalFrames_count {ch : UInt8} (h : len ≤ rest.length) :
    InBounds (severalFrames sd ch rest len) fun l => l.count = ch.toNat % 64 := by
  unfold severalFrames
  refine (padding_inBounds h).bind ?_
  rintro ⟨data, left, pad⟩ ⟨header, hrest, hleft⟩
  dsimp only at hrest hleft ⊢
  split_ifs
  · exact inBounds_invalid
  · refine severalSizes_count ?_
    rw [hrest, List.length_append] at h
    omega

/-- The number of frames is what `opus_packet_get_nb_frames` reads off the first two bytes. -/
theorem layout_count (h : len ≤ rest.length) :
    InBounds (layout sd toc rest len) fun l => nbFrames (toc :: rest) (len + 1) = .ok l.count := by
  unfold layout
  split
  · rename_i hcode
    exact inBounds_ok (by simp [nbFrames, hcode])
  · rename_i hcode
    have hcount : nbFrames (toc :: rest) (len + 1) = .ok 2 := by simp [nbFrames, hcode]
    split_ifs
    · exact inBounds_ok hcount
    · exact inBounds_invalid
    · exact inBounds_ok hcount
  · rename_i hcode
    exact (takeSize_inBounds h).bind fun x _ => inBounds_ok (by simp [nbFrames, hcode])
  · rename_i hnotZero hnotOne hnotTwo
    have hzero : toc.toNat % 4 ≠ 0 := hnotZero
    have hone : toc.toNat % 4 ≠ 1 := hnotOne
    have htwo : toc.toNat % 4 ≠ 2 := hnotTwo
    have hcode : toc.toNat % 4 = 3 := by omega
    split_ifs with hnone
    · exact inBounds_invalid
    · cases rest with
      | nil => exact absurd h (by simpa using hnone)
      | cons ch rest =>
        dsimp only
        split_ifs
        · exact inBounds_invalid
        · have hrest : len - 1 ≤ rest.length := by
            rw [List.length_cons] at h
            omega
          refine (severalFrames_count hrest).mono fun l hl => ?_
          rw [hl]
          simp [nbFrames, hcode]
          omega

theorem frames_lengths {payload : List UInt8} {sizes : List Nat} (h : sizes.sum ≤ payload.length) :
    (cut payload (sizes.map Nat.cast)).map List.length = sizes := by
  induction sizes generalizing payload with
  | nil => rfl
  | cons size sizes ih =>
    rw [List.sum_cons] at h
    rw [List.map_cons, cut, List.map_cons, Int.toNat_natCast, List.length_take, ih, Nat.min_eq_left]
    · omega
    · rw [List.length_drop]
      omega

/-- The frames of a packet that was accepted. -/
structure Packet.HasFrames (sd : Bool) (data : List UInt8) (len : Nat) (p : Packet) : Prop where
  nonempty : p.frames ≠ []
  small : ∀ frame ∈ p.frames, frame.length ≤ 1275
  duration : samplesPerFrame p.toc 48000 * p.frames.length ≤ 5760
  toc : data.head? = some p.toc
  count : nbFrames data len = .ok p.frames.length
  lies : (data.drop p.payloadOffset).take p.frames.flatten.length = p.frames.flatten
  header : headerLength sd (p.frames.map List.length) ≤ p.payloadOffset
  fits : p.payloadOffset + p.frames.flatten.length + p.pad ≤ len
  exact : sd = false → p.payloadOffset + p.frames.flatten.length + p.pad = len

theorem Packet.Parsed.count {p : Packet} {l : Layout} (h : p.Parsed sd data len rest l) :
    nbFrames data len = .ok p.sizes.length := by
  have hl := (layout_inBounds h.room).of_ok h.laidOut
  obtain ⟨sizes, header, hsizes, hcount, -⟩ := (finish_inBounds hl h.room).of_ok h.finished
  have hframes := (layout_count h.room).of_ok h.laidOut
  rw [Nat.sub_add_cancel h.pos, ← h.data_eq] at hframes
  dsimp only at hsizes
  rw [hframes, hsizes, List.length_map, hcount]

theorem cut_flatten_take {payload : List UInt8} {sizes : List Nat} :
    (cut payload (sizes.map Nat.cast)).flatten = payload.take sizes.sum := by
  induction sizes generalizing payload with
  | nil => simp [cut]
  | cons size sizes ih =>
    rw [List.map_cons, cut, List.flatten_cons, ih, Int.toNat_natCast, List.sum_cons, List.take_add]

theorem parse_hasFrames (h : len ≤ data.length) :
    InBounds (parse sd data len) fun p => p.HasFrames sd data len := by
  refine (parse_parsed h).mono ?_
  rintro p ⟨rest, l, hp⟩
  obtain ⟨sizes, hwell⟩ := hp.wellFormed
  have hcount := hp.count
  have hroom : sizes.sum ≤ p.payload.length := by
    have := hwell.fits
    rw [hwell.payload, List.length_drop]
    omega
  have hlens : p.frames.map List.length = sizes := by
    rw [Packet.frames, hwell.sizes_eq]
    exact frames_lengths hroom
  have hlength : p.frames.length = sizes.length := by rw [← hlens, List.length_map]
  have hflat : p.frames.flatten.length = sizes.sum := by rw [List.length_flatten, hlens]
  refine ⟨?_, ?_, ?_, hwell.toc, ?_, ?_, ?_, ?_, ?_⟩
  · rw [← List.length_pos_iff, hlength]
    exact List.length_pos_of_ne_nil hwell.nonempty
  · intro frame hframe
    refine hwell.small _ ?_
    rw [← hlens]
    exact List.mem_map_of_mem hframe
  · rw [hlength]
    exact hwell.duration
  · rw [hcount, hlength, hwell.sizes_eq, List.length_map]
  · rw [hflat, Packet.frames, hwell.sizes_eq, cut_flatten_take, hwell.payload]
  · rw [hlens]
    exact hwell.header
  · rw [hflat]
    exact hwell.fits
  · rw [hflat]
    exact hwell.exact

/-! ### Packets that are put together -/

namespace Repacketizer

/-- The frames that a repacketizer has fit into one packet. -/
structure Valid (rp : Repacketizer) : Prop where
  small : ∀ frame ∈ rp.frames, frame.length ≤ 1275
  duration : samplesPerFrame rp.toc 48000 * rp.frames.length ≤ 5760
  framesize : rp.frames ≠ [] → rp.framesize = samplesPerFrame rp.toc 8000

end Repacketizer

theorem samplesPerFrame_ratio (toc : UInt8) :
    samplesPerFrame toc 48000 = 6 * samplesPerFrame toc 8000 := by
  have haudio : toc.toNat / 8 % 4 < 4 := Nat.mod_lt _ (by decide)
  simp only [samplesPerFrame]
  generalize toc.toNat / 8 % 4 = audiosize at haudio ⊢
  split_ifs
  · interval_cases audiosize <;> rfl
  · rfl
  · rfl
  · rfl
  · interval_cases audiosize <;> rfl

theorem samplesPerFrame_congr {toc' : UInt8} (h : toc'.toNat / 4 = toc.toNat / 4) (fs : Nat) :
    samplesPerFrame toc' fs = samplesPerFrame toc fs := by
  have haudio : toc'.toNat / 8 % 4 = toc.toNat / 8 % 4 := by omega
  have hmode : toc'.toNat / 32 % 4 = toc.toNat / 32 % 4 := by omega
  have hbit : toc'.toNat / 8 % 2 = toc.toNat / 8 % 2 := by omega
  have hcelt : 128 ≤ toc'.toNat ↔ 128 ≤ toc.toNat := by omega
  simp only [samplesPerFrame, haudio, hmode, hbit, hcelt]

namespace Repacketizer

variable {rp rp' : Repacketizer}

theorem init_valid : init.Valid :=
  ⟨List.forall_mem_nil _, by simp [init], fun h => absurd rfl h⟩

theorem start_frames (toc : UInt8) : (rp.start toc).frames = rp.frames := by
  unfold start
  split_ifs <;> rfl

/-- What is added are the frames of a packet, and they are not too long. -/
theorem add_ok (hlen : len ≤ data.length) (hadd : rp.add sd data len = .ok rp') :
    ∃ p, parse sd data len = .ok p ∧ p.HasFrames sd data len ∧
      (p.frames.length + rp.frames.length) * rp.framesize ≤ 960 ∧
      rp' = { rp with frames := rp.frames ++ p.frames, paddings := rp.paddings ++ p.paddings } := by
  unfold add at hadd
  simp only [bind, Except.bind, pure, Except.pure, throw, throwThe, MonadExceptOf.throw] at hadd
  cases hp : parse sd data len with
  | error e =>
    rw [hp] at hadd
    cases hcount : nbFrames data len with
    | error e =>
      rw [hcount] at hadd
      cases hadd
    | ok count =>
      rw [hcount] at hadd
      dsimp only at hadd
      split_ifs at hadd
  | ok p =>
    have hframes : p.HasFrames sd data len := (parse_hasFrames hlen).of_ok hp
    rw [hp, hframes.count] at hadd
    dsimp only at hadd
    split_ifs at hadd with hnone hlong
    exact ⟨p, rfl, hframes, by omega, (Except.ok.inj hadd).symm⟩

theorem cat_ok (hlen : len ≤ data.length) (hcat : rp.cat sd data len = .ok rp') :
    ∃ toc, data.head? = some toc ∧ (rp.frames ≠ [] → rp.toc.toNat / 4 = toc.toNat / 4) ∧
      (rp.start toc).add sd data len = .ok rp' := by
  unfold cat at hcat
  split_ifs at hcat with hnone
  cases data with
  | nil => cases hcat
  | cons toc rest =>
    dsimp only at hcat
    split_ifs at hcat with hkind
    exact ⟨toc, rfl, fun hsome => not_not.mp (not_and.mp hkind hsome), hcat⟩

/-- The frames of a packet that is added. -/
theorem cat_adds (h : rp.Valid) (hlen : len ≤ data.length) (hcat : rp.cat sd data len = .ok rp') :
    rp'.Valid ∧ rp'.frames ≠ [] ∧ ∃ p, parse sd data len = .ok p ∧
      rp'.frames = rp.frames ++ p.frames ∧ p.toc.toNat / 4 = rp'.toc.toNat / 4 ∧
      (rp.frames ≠ [] → rp'.toc = rp.toc) := by
  obtain ⟨toc, htoc, hkind, hadd⟩ := cat_ok hlen hcat
  obtain ⟨p, hp, hframes, hduration, rfl⟩ := add_ok hlen hadd
  rw [start_frames] at hduration
  have hptoc : p.toc = toc := Option.some.inj (hframes.toc.symm.trans htoc)
  have hstart : (rp.start toc).toc.toNat / 4 = toc.toNat / 4 ∧
      (rp.start toc).framesize = samplesPerFrame toc 8000 := by
    unfold start
    split_ifs with hempty
    · exact ⟨rfl, rfl⟩
    · exact ⟨hkind hempty, (h.framesize hempty).trans (samplesPerFrame_congr (hkind hempty) 8000)⟩
  have hsome : (rp.start toc).frames ++ p.frames ≠ [] := by simp [hframes.nonempty]
  refine ⟨⟨?_, ?_, ?_⟩, hsome, p, hp, ?_, ?_, ?_⟩
  · rw [start_frames]
    exact List.forall_mem_append.mpr ⟨h.small, hframes.small⟩
  · rw [hstart.2] at hduration
    rw [samplesPerFrame_congr hstart.1, samplesPerFrame_ratio, start_frames, List.length_append]
    nlinarith
  · exact fun _ => hstart.2.trans (samplesPerFrame_congr hstart.1 8000).symm
  · rw [start_frames]
  · rw [hptoc, hstart.1]
  · intro hrp
    rw [start, if_neg hrp]

theorem catAll_adds {packets : List (List UInt8)} (h : rp.Valid)
    (hcat : rp.catAll packets = .ok rp') :
    rp'.Valid ∧ (rp.frames ≠ [] → rp'.toc = rp.toc) ∧ ∃ ps : List Packet,
      packets.Forall₂ (fun data p => parse false data data.length = .ok p ∧
        p.toc.toNat / 4 = rp'.toc.toNat / 4) ps ∧
      rp'.frames = rp.frames ++ ps.flatMap Packet.frames := by
  induction packets generalizing rp with
  | nil =>
    cases hcat
    exact ⟨h, fun _ => rfl, [], .nil, by simp⟩
  | cons data packets ih =>
    rw [catAll, List.foldlM_cons] at hcat
    cases hone : rp.cat false data data.length with
    | error e =>
      rw [hone] at hcat
      cases hcat
    | ok mid =>
      rw [hone] at hcat
      obtain ⟨hmid, hsome, p, hp, hframes, hkind, hstays⟩ := cat_adds h le_rfl hone
      obtain ⟨hvalid, htoc, ps, hps, hall⟩ := ih hmid hcat
      refine ⟨hvalid, fun hrp => (htoc hsome).trans (hstays hrp), p :: ps, .cons ⟨hp, ?_⟩ hps, ?_⟩
      · rw [htoc hsome, hkind]
      · rw [hall, hframes, List.flatMap_cons, List.append_assoc]

/-- A range of frames whose paddings have no extensions. -/
theorem outRange_plain (X : Extensions) {first last maxlen : Nat} (hrange : first < last)
    (hlast : last ≤ rp.frames.length) (hplain : ∀ padding ∈ rp.paddings, X.count padding = 0) :
    rp.outRange X first last maxlen sd pad =
      if ((rp.paddings.take last).drop first).all X.parses then
        outPacket rp.toc ((rp.frames.take last).drop first) maxlen sd pad
      else .error .internalError := by
  have hall : ((rp.paddings.take last).drop first).all (X.count · = 0) = true := by
    rw [List.all_eq_true]
    intro padding hmem
    exact decide_eq_true (hplain padding (List.mem_of_mem_take (List.mem_of_mem_drop hmem)))
  rw [outRange, if_neg (by omega), if_pos hall]
  cases ((rp.paddings.take last).drop first).all X.parses with
  | true => rfl
  | false => rfl

/-- Packets that are put together hold the frames of all, one after another. A range of these is
refused when one of its paddings cannot be read, and otherwise it is put out to be read back as it
is: in a packet that fills the buffer when it is padded, and in the smallest if not. It is refused
then just when this is larger than the buffer. -/
theorem repacketized (X : Extensions) (packets : List (List UInt8)) (rp : Repacketizer)
    (hcat : init.catAll packets = .ok rp) (hplain : ∀ padding ∈ rp.paddings, X.count padding = 0) :
    rp.frames.length ≤ 48 ∧
    (∃ ps : List Packet, packets.Forall₂ (fun data p => parse false data data.length = .ok p ∧
        p.toc.toNat / 4 = rp.toc.toNat / 4) ps ∧ rp.frames = ps.flatMap Packet.frames) ∧
    ∀ first last maxlen sd pad, first < last → last ≤ rp.frames.length →
      let frames := (rp.frames.take last).drop first
      let least := headerLength sd (frames.map List.length) + frames.flatten.length
      if !((rp.paddings.take last).drop first).all X.parses then
        rp.outRange X first last maxlen sd pad = .error .internalError
      else if maxlen < least then rp.outRange X first last maxlen sd pad = .error .bufferTooSmall
      else ∃ packet, rp.outRange X first last maxlen sd pad = .ok (packet, packet.length) ∧
        packet.length = (if pad then maxlen else least) ∧ Holds sd rp.toc frames packet := by
  obtain ⟨hvalid, -, ps, hps, hframes⟩ := catAll_adds init_valid hcat
  refine ⟨length_le_of_duration hvalid.duration, ⟨ps, hps, hframes⟩,
    fun first last maxlen sd pad hrange hlast => ?_⟩
  intro frames least
  have hsub : frames.Sublist rp.frames := (List.drop_sublist _ _).trans (List.take_sublist _ _)
  have hlength : frames.length = last - first := by
    rw [List.length_drop, List.length_take, Nat.min_eq_left hlast]
  have hne : frames ≠ [] := by
    rw [← List.length_pos_iff, hlength]
    omega
  have hduration : samplesPerFrame rp.toc 48000 * frames.length ≤ 5760 :=
    (Nat.mul_le_mul_left _ hsub.length_le).trans hvalid.duration
  rw [outRange_plain X hrange hlast hplain]
  cases ((rp.paddings.take last).drop first).all X.parses with
  | false => rfl
  | true =>
    exact outPacket_holds rp.toc maxlen sd pad hne
      (fun frame hf => hvalid.small frame (hsub.mem hf)) hduration

/-- The extensions of paddings of zeros, which have none. -/
def zeroPaddings : Extensions := ⟨fun _ => 0, fun _ => true, fun _ _ _ _ _ _ => .error .badArg⟩

/-- Two packets with a frame each, of which the second has a padding without extensions. -/
theorem twoPackets_repacketized :
    ∃ rp : Repacketizer, init.catAll [[8, 1, 2], [11, 65, 1, 3, 0]] = .ok rp ∧
      rp.frames = [[1, 2], [3]] ∧ ∃ packet, rp.out zeroPaddings 6 = .ok (packet, 5) ∧
        Holds false 8 [[1, 2], [3]] packet := by
  have hcat : init.catAll [[8, 1, 2], [11, 65, 1, 3, 0]] = .ok ⟨8, 160, [[1, 2], [3]],
      [⟨[], 0, 1⟩, ⟨[0], 1, 1⟩]⟩ := by decide +kernel
  have hall := (repacketized zeroPaddings _ _ hcat fun _ _ => rfl).2.2 0 2 6 false false
    (by decide) (by decide)
  obtain ⟨packet, hout, hlength, hholds⟩ := hall
  have hfive : packet.length = 5 := hlength.trans (by decide +kernel)
  rw [hfive] at hout
  exact ⟨_, hcat, rfl, packet, hout, hholds⟩

end Repacketizer

end Opus

end VoxLink
