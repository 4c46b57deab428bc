import Mathlib.Tactic

/-! The framing of Opus packets: `opus_packet_parse_impl` with the sizes of frames. A pointer into a
packet is the list of the bytes from there on. -/

namespace VoxLink

namespace Opus

/-- The errors of the library, and a read beyond the buffer. -/
inductive OpusError where
  | badArg
  | bufferTooSmall
  | internalError
  | invalidPacket
  | outOfBounds
deriving DecidableEq, Repr

/-! ### Sizes of frames -/

def encodeSize (size : Nat) : List UInt8 :=
  if size < 252 then [.ofNat size]
  else [.ofNat (252 + size % 4), .ofNat ((size - (252 + size % 4)) / 4)]

/-- The bytes that a size takes, and the size; none where the C code returns -1. -/
def parseSize (data : List UInt8) (len : Nat) : Except OpusError (Option (Nat × Nat)) :=
  if len < 1 then .ok none
  else
    match data with
    | [] => .error .outOfBounds
    | first :: data =>
      if first.toNat < 252 then .ok (some (1, first.toNat))
      else if len < 2 then .ok none
      else
        match data with
        | [] => .error .outOfBounds
        | second :: _ => .ok (some (2, 4 * second.toNat + first.toNat))

/-- Reads the size of a frame, which may not exceed what is left. -/
def takeSize (data : List UInt8) (len : Nat) : Except OpusError (Nat × List UInt8 × Nat) := do
  match ← parseSize data len with
  | none => throw .invalidPacket
  | some (bytes, size) =>
    if len - bytes < size then throw .invalidPacket
    else pure (size, data.drop bytes, len - bytes)

/-- A conversion to `opus_int16`. -/
def int16 (n : Nat) : Int := Int.bmod n 65536

/-! ### The layout of a packet -/

def samplesPerFrame (toc : UInt8) (fs : Nat) : Nat :=
  let audiosize := toc.toNat / 8 % 4
  if 128 ≤ toc.toNat then fs * 2 ^ audiosize / 400
  else if toc.toNat / 32 % 4 = 3 then if toc.toNat / 8 % 2 = 1 then fs / 50 else fs / 100
  else if audiosize = 3 then fs * 60 / 1000
  else fs * 2 ^ audiosize / 100

/-- What is known of a packet before the size of its last frame: `sizes` are those of the frames
before it, unless the packet is self-delimited and these have the size of the last. `data` and `len`
are what is left, without the padding. -/
structure Layout where
  count : Nat
  cbr : Bool
  sizes : List Int
  lastSize : Int
  data : List UInt8
  len : Nat
  pad : Nat
deriving DecidableEq, Repr

/-- The lengths of the padding, a byte of 255 standing for 254 and more to come. -/
def takePadding : List UInt8 → Int → Nat → Except OpusError (List UInt8 × Int × Nat)
  | data, len, pad =>
    if len ≤ 0 then .error .invalidPacket
    else
      match data with
      | [] => .error .outOfBounds
      | p :: data =>
        if p.toNat = 255 then takePadding data (len - 1 - 254) (pad + 254)
        else .ok (data, len - 1 - p.toNat, pad + p.toNat)

/-- The sizes of `n` frames, and what they leave of `lastSize`. -/
def takeSizes : Nat → List UInt8 → Nat → Int → Except OpusError (List Int × List UInt8 × Nat × Int)
  | 0, data, len, lastSize => pure ([], data, len, lastSize)
  | n + 1, data, len, lastSize => do
    let (size, data', len') ← takeSize data len
    let (sizes, data'', len'', lastSize) ← takeSizes n data' len' (lastSize - ((len - len') + size))
    pure (size :: sizes, data'', len'', lastSize)

/-- The padding of a packet with the byte `ch`. -/
def padding (ch : UInt8) (data : List UInt8) (len : Nat) :
    Except OpusError (List UInt8 × Int × Nat) :=
  if ch.toNat / 64 % 2 = 1 then takePadding data len 0 else pure (data, len, 0)

/-- The sizes of any number of frames. -/
def severalSizes (selfDelimited : Bool) (ch : UInt8) (data : List UInt8) (len pad : Nat) :
    Except OpusError Layout :=
  let count := ch.toNat % 64
  if 128 ≤ ch.toNat then do
    let (sizes, data, len, lastSize) ← takeSizes (count - 1) data len len
    if lastSize < 0 then throw .invalidPacket
    else pure ⟨count, false, sizes, lastSize, data, len, pad⟩
  else if selfDelimited then pure ⟨count, true, [], len, data, len, pad⟩
  else
    let lastSize := len / count
    if lastSize * count ≠ len then throw .invalidPacket
    else pure ⟨count, true, List.replicate (count - 1) (int16 lastSize), lastSize, data, len, pad⟩

/-- A packet with any number of frames, after its byte of the count. -/
def severalFrames (selfDelimited : Bool) (ch : UInt8) (data : List UInt8) (len : Nat) :
    Except OpusError Layout := do
  let (data, len, pad) ← padding ch data len
  if len < 0 then throw .invalidPacket
  else severalSizes selfDelimited ch data len.toNat pad

/-- The layout by the code in the first byte, which has been read. -/
def layout (selfDelimited : Bool) (toc : UInt8) (data : List UInt8) (len : Nat) :
    Except OpusError Layout :=
  match toc.toNat % 4 with
  | 0 => pure ⟨1, false, [], len, data, len, 0⟩
  | 1 =>
    if selfDelimited then pure ⟨2, true, [], len, data, len, 0⟩
    else if len % 2 = 1 then throw .invalidPacket
    else pure ⟨2, true, [int16 (len / 2)], ↑(len / 2), data, len, 0⟩
  | 2 => do
    let (size, data, len) ← takeSize data len
    pure ⟨2, false, [↑size], ↑(len - size), data, len, 0⟩
  | _ =>
    if len < 1 then throw .invalidPacket
    else
      match data with
      | [] => throw .outOfBounds
      | ch :: data =>
        if ch.toNat % 64 = 0 ∨ 5760 < samplesPerFrame toc 48000 * (ch.toNat % 64) then
          throw .invalidPacket
        else severalFrames selfDelimited ch data (len - 1)

/-! ### Packets -/

/-- A packet that was parsed; `payload` points to its first frame. -/
structure Packet where
  toc : UInt8
  sizes : List Int
  payloadOffset : Nat
  payload : List UInt8
  pad : Nat
deriving DecidableEq, Repr

/-- The frames of the sizes, one after another. -/
def cut : List UInt8 → List Int → List (List UInt8)
  | _, [] => []
  | data, size :: sizes => data.take size.toNat :: cut (data.drop size.toNat) sizes

namespace Packet

variable (p : Packet)

def frames : List (List UInt8) := cut p.payload p.sizes

/-- Where the packet ends. -/
def packetOffset : Int := p.pad + (p.payloadOffset + p.sizes.sum)

end Packet

/-- The sizes of all frames, once the last is known, and what is left behind the header. -/
def finish (selfDelimited : Bool) (l : Layout) : Except OpusError (List Int × List UInt8) :=
  if selfDelimited then do
    let (size, data, len) ← takeSize l.data l.len
    if l.cbr then
      if len < size * l.count then throw .invalidPacket
      else pure (List.replicate (l.count - 1) ↑size ++ [↑size], data)
    else if l.lastSize < (l.len - len) + size then throw .invalidPacket
    else pure (l.sizes ++ [↑size], data)
  else if 1275 < l.lastSize then throw .invalidPacket
  else pure (l.sizes ++ [int16 l.lastSize.toNat], l.data)

/-- `opus_packet_parse_impl` -/
def parse (selfDelimited : Bool) (data : List UInt8) (len : Int) : Except OpusError Packet :=
  if len < 0 then throw .badArg
  else if len = 0 then throw .invalidPacket
  else
    match data with
    | [] => throw .outOfBounds
    | toc :: rest => do
      let l ← layout selfDelimited toc rest (len.toNat - 1)
      let (sizes, payload) ← finish selfDelimited l
      pure ⟨toc, sizes, data.length - payload.length, payload, l.pad⟩

/-! ### What the parser accepts -/

/-- The parser does not read beyond the buffer, and what it returns is in `Q`. -/
def InBounds {α : Type} (m : Except OpusError α) (Q : α → Prop) : Prop :=
  match m with
  | .ok a => Q a
  | .error e => e ≠ .outOfBounds

section Rules

variable {α β : Type} {m : Except OpusError α} {f : α → Except OpusError β} {Q Q' : α → Prop}
  {R : β → Prop}

theorem InBounds.mono (h : InBounds m Q) (hQ : ∀ a, Q a → Q' a) : InBounds m Q' := by
  cases m with
  | ok a => exact hQ a h
  | error e => exact h

theorem InBounds.bind (h : InBounds m Q) (hf : ∀ a, Q a → InBounds (f a) R) :
    InBounds (m >>= f) R := by
  cases m with
  | ok a => exact hf a h
  | error e => exact h

theorem inBounds_ok {a : α} (h : Q a) : InBounds (.ok a) Q := h

theorem inBounds_invalid : InBounds (.error .invalidPacket : Except OpusError α) Q :=
  OpusError.noConfusion

theorem InBounds.of_ok {a : α} (h : InBounds m Q) (hm : m = .ok a) : Q a := by
  rw [hm] at h
  exact h

/-- A result that is named in what follows. -/
theorem InBounds.eq_ok (h : InBounds m Q) : InBounds m fun a => m = .ok a := by
  cases m with
  | ok a => exact rfl
  | error e => exact h

theorem InBounds.ne (h : InBounds m Q) : m ≠ .error .outOfBounds := by
  rintro rfl
  exact h rfl

end Rules

variable {data rest : List UInt8} {len n : Nat} {sd : Bool} {toc : UInt8}

theorem length_encodeSize (size : Nat) :
    (encodeSize size).length = if size < 252 then 1 else 2 := by
  rw [encodeSize]
  split_ifs <;> rfl

/-- A size stands in the packet as it is encoded. -/
theorem parseSize_inBounds (h : len ≤ data.length) : InBounds (parseSize data len) fun x =>
    ∀ bytes size, x = some (bytes, size) →
      size ≤ 1275 ∧ bytes = (encodeSize size).length ∧ bytes ≤ len ∧
        data.take bytes = encodeSize size := by
  unfold parseSize
  by_cases hlen : len < 1
  · rw [if_pos hlen]
    exact fun _ _ hx => by cases hx
  rw [if_neg hlen]
  cases data with
  | nil => exact absurd h (by simpa using hlen)
  | cons first data =>
    have hfirst : first.toNat < 256 := first.toNat_lt
    dsimp only
    split_ifs with hshort hone
    · rintro _ _ ⟨⟩
      refine ⟨by omega, by rw [length_encodeSize, if_pos hshort], by omega, ?_⟩
      simp [encodeSize, hshort]
    · exact fun _ _ hx => by cases hx
    · cases data with
      | nil => exact absurd h (by simpa using hone)
      | cons second data =>
        have hsecond : second.toNat < 256 := second.toNat_lt
        rintro _ _ ⟨⟩
        have hlong : ¬4 * second.toNat + first.toNat < 252 := by omega
        have hrest : (4 * second.toNat + first.toNat) % 4 = first.toNat - 252 := by omega
        refine ⟨by omega, by rw [length_encodeSize, if_neg hlong], by omega, ?_⟩
        rw [encodeSize, if_neg hlong, hrest]
        have hleast : 252 + (first.toNat - 252) = first.toNat := by omega
        have hmost : (4 * second.toNat + first.toNat - first.toNat) / 4 = second.toNat := by omega
        rw [hleast, hmost]
        simp

/-- A size and what stands behind it. -/
structure Took (data : List UInt8) (len size : Nat) (data' : List UInt8) (len' : Nat) : Prop where
  size_le : size ≤ 1275
  data_eq : data = encodeSize size ++ data'
  len_eq : len = (encodeSize size).length + len'
  fits : size ≤ len'

theorem takeSize_inBounds (h : len ≤ data.length) :
    InBounds (takeSize data len) fun x => Took data len x.1 x.2.1 x.2.2 := by
  unfold takeSize
  refine (parseSize_inBounds h).bind fun x hx => ?_
  cases x with
  | none => exact inBounds_invalid
  | some x =>
    obtain ⟨bytes, size⟩ := x
    obtain ⟨hsize, hbytes, hle, hdata⟩ := hx bytes size rfl
    dsimp only
    split_ifs with hfits
    · exact inBounds_invalid
    · have htook : Took data len size (data.drop bytes) (len - bytes) := by
        refine ⟨hsize, ?_, by omega, by omega⟩
        rw [← hdata, List.take_append_drop]
      exact inBounds_ok htook

/-- The lengths of the padding with what they leave. -/
theorem takePadding_inBounds {len : Int} {pad : Nat} (h : len ≤ data.length) :
    InBounds (takePadding data len pad) fun x => ∃ header, data = header ++ x.1 ∧
      header.length + x.2.1 + x.2.2 = len + pad := by
  induction data generalizing len pad with
  | nil =>
    have hlen : len ≤ 0 := by simpa using h
    rw [takePadding, if_pos hlen]
    exact inBounds_invalid
  | cons p data ih =>
    rw [takePadding]
    split_ifs with hlen hmore
    · exact inBounds_invalid
    · have hrest : len - 1 - 254 ≤ data.length := by
        rw [List.length_cons] at h
        omega
      refine (ih hrest).mono ?_
      rintro x ⟨header, hdata, hsum⟩
      refine ⟨p :: header, by rw [hdata]; rfl, ?_⟩
      rw [List.length_cons]
      push_cast at hsum ⊢
      omega
    · refine inBounds_ok ⟨[p], rfl, ?_⟩
      push_cast
      simp only [List.length_singleton]
      omega

/-- The sizes of frames, as a packet has them one after another. -/
def encodeSizes (ns : List Nat) : List UInt8 := ns.flatMap encodeSize

theorem takeSizes_inBounds {lastSize : Int} (h : len ≤ data.length) :
    InBounds (takeSizes n data len lastSize) fun x => ∃ ns : List Nat, x.1 = ns.map Nat.cast ∧
      ns.length = n ∧ (∀ size ∈ ns, size ≤ 1275) ∧ data = encodeSizes ns ++ x.2.1 ∧
      len = (encodeSizes ns).length + x.2.2.1 ∧
      lastSize = (encodeSizes ns).length + ns.sum + x.2.2.2 := by
  induction n generalizing data len lastSize with
  | zero =>
    refine inBounds_ok ⟨[], rfl, rfl, List.forall_mem_nil _, rfl, ?_, ?_⟩
    · simp [encodeSizes]
    · simp [encodeSizes]
  | succ n ih =>
    refine (takeSize_inBounds h).bind ?_
    rintro ⟨size, data', len'⟩ ⟨hsize, hdata, hlen, -⟩
    dsimp only at hdata hlen ⊢
    have hrest : len' ≤ data'.length := by
      have hlength := congrArg List.length hdata
      rw [List.length_append] at hlength
      omega
    refine (ih hrest).bind ?_
    rintro ⟨sizes, data'', len'', last⟩ ⟨ns, hsizes, hcount, hall, hdata', hlen', hlast⟩
    dsimp only at hsizes hdata' hlen' hlast
    refine inBounds_ok ⟨size :: ns, by rw [hsizes]; rfl, by rw [List.length_cons, hcount],
      ?_, ?_, ?_, ?_⟩
    · exact List.forall_mem_cons.mpr ⟨hsize, hall⟩
    · rw [hdata, hdata', encodeSizes, encodeSizes, List.flatMap_cons, List.append_assoc]
    · rw [hlen, hlen', encodeSizes, encodeSizes, List.flatMap_cons, List.length_append,
        Nat.add_assoc]
    · have hcons : (encodeSizes (size :: ns)).length =
          (encodeSize size).length + (encodeSizes ns).length := by
        rw [encodeSizes, encodeSizes, List.flatMap_cons, List.length_append]
      rw [hcons, List.sum_cons]
      dsimp only
      omega

/-- What a layout says of the bytes `rest` behind the first, `len` of which belong to the packet. -/
structure Layout.Fits (sd : Bool) (toc : UInt8) (rest : List UInt8) (len : Nat)
    (l : Layout) : Prop where
  count : 1 ≤ l.count ∧ samplesPerFrame toc 48000 * l.count ≤ 5760
  header : ∃ header, rest = header ++ l.data ∧ header.length + l.len + l.pad = len ∧
    (if 2 < l.count then 1 else 0) ≤ header.length
  vbr : l.cbr = false → ∃ ns : List Nat, l.sizes = ns.map Nat.cast ∧ ns.length + 1 = l.count ∧
    (∀ size ∈ ns, size ≤ 1275) ∧ l.lastSize + ns.sum = l.len ∧ 0 ≤ l.lastSize ∧
    (encodeSizes ns).length + (if 2 < l.count then 1 else 0) + l.len + l.pad ≤ len
  cbr : l.cbr = true → sd = false → ∃ m : Nat, l.lastSize = m ∧
    l.sizes = List.replicate (l.count - 1) (int16 m) ∧ m * l.count = l.len

/-- A frame has at least 2.5 and at most 60 milliseconds. -/
theorem samplesPerFrame_bounds (toc : UInt8) :
    120 ≤ samplesPerFrame toc 48000 ∧ samplesPerFrame toc 48000 ≤ 2880 := by
  have haudio : toc.toNat / 8 % 4 < 4 := Nat.mod_lt _ (by decide)
  simp only [samplesPerFrame]
  generalize toc.toNat / 8 % 4 = audiosize at haudio ⊢
  split_ifs
  · interval_cases audiosize <;> decide
  · decide
  · decide
  · decide
  · interval_cases audiosize <;> first | decide | contradiction

theorem padding_inBounds {ch : UInt8} (h : len ≤ rest.length) :
    InBounds (padding ch rest len) fun x => ∃ header, rest = header ++ x.1 ∧
      header.length + x.2.1 + x.2.2 = len := by
  unfold padding
  split_ifs
  · exact (takePadding_inBounds (by exact_mod_cast h)).mono fun x hx => by simpa using hx
  · exact inBounds_ok ⟨[], rfl, by simp⟩

theorem severalSizes_inBounds {ch : UInt8} {header : List UInt8} {pad total : Nat}
    (h : len ≤ data.length) (hch : ch.toNat % 64 ≠ 0)
    (hduration : samplesPerFrame toc 48000 * (ch.toNat % 64) ≤ 5760)
    (hrest : rest = header ++ data) (htotal : header.length + len + pad = total)
    (hheader : 1 ≤ header.length) :
    InBounds (severalSizes sd ch data len pad) fun l => l.Fits sd toc rest total := by
  have hcount : 1 ≤ ch.toNat % 64 := Nat.one_le_iff_ne_zero.mpr hch
  unfold severalSizes
  dsimp only
  split_ifs with hvbr hsd hexact
  · refine (takeSizes_inBounds h).bind ?_
    rintro ⟨sizes, data', len', last⟩ ⟨ns, hsizes, hns, hall, hdata, hlen, hlast⟩
    dsimp only at hsizes hdata hlen hlast ⊢
    split_ifs with hneg
    · exact inBounds_invalid
    refine inBounds_ok ⟨⟨hcount, hduration⟩, ⟨header ++ encodeSizes ns, ?_, ?_, ?_⟩, ?_, ?_⟩
    · rw [hrest, hdata, List.append_assoc]
    · rw [List.length_append]
      dsimp only
      omega
    · rw [List.length_append]
      split_ifs <;> omega
    · refine fun _ => ⟨ns, hsizes, ?_, hall, ?_, ?_, ?_⟩
      · dsimp only
        omega
      · dsimp only
        omega
      · dsimp only
        omega
      · dsimp only
        split_ifs <;> omega
    · exact fun hcbr => by cases hcbr
  · refine inBounds_ok ⟨⟨hcount, hduration⟩, ⟨header, hrest, htotal, ?_⟩, ?_, ?_⟩
    · split_ifs <;> omega
    · exact fun hcbr => by cases hcbr
    · exact fun _ hnot => by simp [hsd] at hnot
  · exact inBounds_invalid
  · refine inBounds_ok ⟨⟨hcount, hduration⟩, ⟨header, hrest, htotal, ?_⟩, ?_, ?_⟩
    · split_ifs <;> omega
    · exact fun hcbr => by cases hcbr
    · exact fun _ _ => ⟨_, rfl, rfl, not_not.mp hexact⟩

theorem severalFrames_inBounds {ch : UInt8} (h : len ≤ rest.length) (hch : ch.toNat % 64 ≠ 0)
    (hduration : samplesPerFrame toc 48000 * (ch.toNat % 64) ≤ 5760) :
    InBounds (severalFrames sd ch rest len) fun l => l.Fits sd toc (ch :: rest) (len + 1) := by
  unfold severalFrames
  refine (padding_inBounds h).bind ?_
  rintro ⟨data, len', pad⟩ ⟨header, hrest, hlen⟩
  dsimp only at hrest hlen ⊢
  split_ifs with hneg
  · exact inBounds_invalid
  · have hdata : len'.toNat ≤ data.length := by
      rw [hrest, List.length_append] at h
      omega
    have hcons : ch :: rest = (ch :: header) ++ data := by rw [hrest]; rfl
    refine severalSizes_inBounds hdata hch hduration hcons ?_ ?_
    · rw [List.length_cons]
      omega
    · rw [List.length_cons]
      omega

theorem layout_inBounds (h : len ≤ rest.length) :
    InBounds (layout sd toc rest len) fun l => l.Fits sd toc rest len := by
  have hframe := samplesPerFrame_bounds toc
  unfold layout
  split
  · refine inBounds_ok ⟨⟨Nat.le_refl 1, by dsimp only; omega⟩, ⟨[], rfl, by simp, by simp⟩, ?_, ?_⟩
    · exact fun _ => ⟨[], rfl, rfl, List.forall_mem_nil _, by simp, by simp, by simp [encodeSizes]⟩
    · exact fun hcbr => by cases hcbr
  · split_ifs with hsd hodd
    · refine inBounds_ok ⟨⟨one_le_two, by dsimp only; omega⟩, ⟨[], rfl, by simp, by simp⟩, ?_, ?_⟩
      · exact fun hcbr => by cases hcbr
      · exact fun _ hnot => by simp [hsd] at hnot
    · exact inBounds_invalid
    · refine inBounds_ok ⟨⟨one_le_two, by dsimp only; omega⟩, ⟨[], rfl, by simp, by simp⟩, ?_, ?_⟩
      · exact fun hcbr => by cases hcbr
      · exact fun _ _ => ⟨len / 2, rfl, rfl, by dsimp only; omega⟩
  · refine (takeSize_inBounds h).bind ?_
    rintro ⟨size, data, len'⟩ ⟨hsize, hdata, hlen, hfits⟩
    dsimp only at hdata hlen hfits ⊢
    refine inBounds_ok ⟨⟨one_le_two, by dsimp only; omega⟩,
      ⟨encodeSize size, hdata, ?_, by simp⟩, ?_, ?_⟩
    · dsimp only
      omega
    · refine fun _ => ⟨[size], rfl, rfl, by simpa using hsize, ?_, ?_, ?_⟩
      · rw [List.sum_singleton]
        dsimp only
        omega
      · dsimp only
        omega
      · rw [encodeSizes, List.flatMap_singleton, if_neg (lt_irrefl 2)]
        dsimp only
        omega
    · exact fun hcbr => by cases hcbr
  · split_ifs with hlen
    · exact inBounds_invalid
    · cases rest with
      | nil => exact absurd h (by simpa using hlen)
      | cons ch rest =>
        dsimp only
        split_ifs with hcount
        · exact inBounds_invalid
        · rw [not_or, not_lt] at hcount
          have hrest : len - 1 ≤ rest.length := by
            rw [List.length_cons] at h
            omega
          have hfits : InBounds (severalFrames sd ch rest (len - 1)) fun l =>
              l.Fits sd toc (ch :: rest) (len - 1 + 1) :=
            severalFrames_inBounds hrest hcount.1 hcount.2
          rwa [Nat.sub_add_cancel (by omega)] at hfits

theorem int16_of_le {n : Nat} (h : n ≤ 1275) : int16 n = n := by
  unfold int16
  exact Int.bmod_eq_of_le (by norm_num) (by norm_num; omega)

/-- The bytes that a packet without padding has before its first frame. -/
def headerLength (sd : Bool) (sizes : List Nat) : Nat :=
  1 + (if 2 < sizes.length then 1 else 0) +
    (if sizes.all (· = sizes.headD 0) then 0 else (encodeSizes sizes.dropLast).length) +
    if sd then (encodeSize (sizes.getLastD 0)).length else 0

/-- The frames of a packet lie in it one after another, behind a header that is long enough and
before the padding. -/
structure Packet.WellFormed (sd : Bool) (data : List UInt8) (len : Nat) (p : Packet)
    (sizes : List Nat) :
    Prop where
  sizes_eq : p.sizes = sizes.map Nat.cast
  nonempty : sizes ≠ []
  duration : samplesPerFrame p.toc 48000 * sizes.length ≤ 5760
  small : ∀ size ∈ sizes, size ≤ 1275
  toc : data.head? = some p.toc
  payload : p.payload = data.drop p.payloadOffset
  header : headerLength sd sizes ≤ p.payloadOffset
  fits : p.payloadOffset + sizes.sum + p.pad ≤ len
  exact : sd = false → p.payloadOffset + sizes.sum + p.pad = len

theorem headerLength_concat (sd : Bool) (ns : List Nat) (size : Nat) :
    headerLength sd (ns ++ [size]) ≤
    1 + (if 2 < ns.length + 1 then 1 else 0) + (encodeSizes ns).length +
      if sd then (encodeSize size).length else 0 := by
  rw [headerLength, List.length_append, List.length_singleton, List.dropLast_concat,
    List.getLastD_concat]
  split_ifs <;> omega

theorem headerLength_replicate (sd : Bool) (count size : Nat) (h : 1 ≤ count) :
    headerLength sd (List.replicate count size) = 1 + (if 2 < count then 1 else 0) +
      if sd then (encodeSize size).length else 0 := by
  obtain ⟨n, rfl⟩ := Nat.exists_eq_add_of_le' h
  have hall : (List.replicate (n + 1) size).all (· = (List.replicate (n + 1) size).headD 0) =
      true := by
    simp [List.replicate_succ]
  have hlast : (List.replicate (n + 1) size).getLastD 0 = size := by
    rw [List.replicate_succ', List.getLastD_concat]
  rw [headerLength, List.length_replicate, if_pos hall, hlast, Nat.add_zero]

/-- The sizes of all frames with what the header leaves of the packet. -/
theorem finish_inBounds {l : Layout} (hfits : l.Fits sd toc rest len) (h : len ≤ rest.length) :
    InBounds (finish sd l) fun x => ∃ sizes : List Nat, ∃ header, x.1 = sizes.map Nat.cast ∧
      sizes.length = l.count ∧ (∀ size ∈ sizes, size ≤ 1275) ∧ rest = header ++ x.2 ∧
      headerLength sd sizes ≤ 1 + header.length ∧ header.length + sizes.sum + l.pad ≤ len ∧
      (sd = false → header.length + sizes.sum + l.pad = len) := by
  obtain ⟨header, hrest, hlen, hshort⟩ := hfits.header
  have hcount := hfits.count.1
  have hdata : l.len ≤ l.data.length := by
    rw [hrest, List.length_append] at h
    omega
  have hreplicate : ∀ size : Int, List.replicate (l.count - 1) size ++ [size] =
      List.replicate l.count size := by
    intro size
    rw [← List.replicate_succ', Nat.sub_add_cancel hcount]
  unfold finish
  cases sd with
  | true =>
    rw [if_pos rfl]
    refine (takeSize_inBounds hdata).bind ?_
    rintro ⟨size, data, len'⟩ ⟨hsize, htook, hlen', hle⟩
    dsimp only at htook hlen' hle ⊢
    have hbehind : rest = (header ++ encodeSize size) ++ data := by
      rw [hrest, htook, List.append_assoc]
    split_ifs with hcbr hmany hlast
    · exact inBounds_invalid
    · refine inBounds_ok ⟨List.replicate l.count size, header ++ encodeSize size, ?_,
        List.length_replicate, ?_, hbehind, ?_, ?_, fun hnot => by cases hnot⟩
      · rw [hreplicate, List.map_replicate]
      · exact fun s hs => (List.eq_of_mem_replicate hs) ▸ hsize
      · rw [headerLength_replicate _ _ _ hcount, List.length_append, if_pos rfl]
        omega
      · rw [List.length_append, List.sum_replicate, smul_eq_mul, Nat.mul_comm]
        omega
    · exact inBounds_invalid
    · obtain ⟨ns, hsizes, hns, hall, hsum, -, hheader⟩ := hfits.vbr (by simpa using hcbr)
      refine inBounds_ok ⟨ns ++ [size], header ++ encodeSize size, ?_, ?_, ?_, hbehind, ?_, ?_,
        fun hnot => by cases hnot⟩
      · rw [hsizes, List.map_append, List.map_singleton]
      · rw [List.length_append, List.length_singleton, hns]
      · exact List.forall_mem_append.mpr ⟨hall, by simpa using hsize⟩
      · have hheaders := headerLength_concat true ns size
        rw [if_pos rfl] at hheaders
        rw [List.length_append]
        rw [hns] at hheaders
        omega
      · rw [List.length_append, List.sum_append, List.sum_singleton]
        omega
  | false =>
    rw [if_neg Bool.false_ne_true]
    split_ifs with hbig
    · exact inBounds_invalid
    cases hcbr : l.cbr with
    | true =>
      obtain ⟨m, hlast, hsizes, hproduct⟩ := hfits.cbr hcbr rfl
      rw [hlast] at hbig ⊢
      have hm : m ≤ 1275 := by omega
      have hsum : (List.replicate l.count m).sum = l.len := by
        rw [List.sum_replicate, smul_eq_mul, Nat.mul_comm, hproduct]
      refine inBounds_ok ⟨List.replicate l.count m, header, ?_, List.length_replicate, ?_,
        hrest, ?_, ?_, ?_⟩
      · rw [hsizes, Int.toNat_natCast, int16_of_le hm, hreplicate, List.map_replicate]
      · exact fun s hs => (List.eq_of_mem_replicate hs) ▸ hm
      · rw [headerLength_replicate _ _ _ hcount, if_neg Bool.false_ne_true]
        omega
      · rw [hsum, hlen]
      · exact fun _ => by rw [hsum, hlen]
    | false =>
      obtain ⟨ns, hsizes, hns, hall, hsum, hnonneg, hheader⟩ := hfits.vbr hcbr
      have hlast : l.lastSize.toNat ≤ 1275 := by omega
      refine inBounds_ok ⟨ns ++ [l.lastSize.toNat], header, ?_, ?_, ?_, hrest, ?_, ?_, ?_⟩
      · rw [hsizes, int16_of_le hlast, List.map_append, List.map_singleton]
      · rw [List.length_append, List.length_singleton, hns]
      · exact List.forall_mem_append.mpr ⟨hall, by simpa using hlast⟩
      · have hheaders := headerLength_concat false ns l.lastSize.toNat
        rw [if_neg Bool.false_ne_true, hns] at hheaders
        omega
      · rw [List.sum_append, List.sum_singleton]
        omega
      · rw [List.sum_append, List.sum_singleton]
        omega

/-- A packet that was accepted, with the bytes behind its first one and how they are laid out. -/
structure Packet.Parsed (sd : Bool) (data : List UInt8) (len : Nat) (p : Packet)
    (rest : List UInt8) (l : Layout) : Prop where
  data_eq : data = p.toc :: rest
  pos : 1 ≤ len
  room : len - 1 ≤ rest.length
  laidOut : layout sd p.toc rest (len - 1) = .ok l
  finished : finish sd l = .ok (p.sizes, p.payload)
  payloadOffset : p.payloadOffset = data.length - p.payload.length
  pad : p.pad = l.pad

/-- Every step of the parser reads inside the buffer. -/
theorem parse_parsed (h : len ≤ data.length) :
    InBounds (parse sd data len) fun p => ∃ rest l, p.Parsed sd data len rest l := by
  unfold parse
  split_ifs with hneg hzero
  · exact fun hout => by cases hout
  · exact inBounds_invalid
  · cases data with
    | nil =>
      rw [List.length_nil] at h
      omega
    | cons toc rest =>
      have hrest : (len : Int).toNat - 1 ≤ rest.length := by
        rw [List.length_cons] at h
        omega
      refine (layout_inBounds hrest).eq_ok.bind fun l hl => ?_
      have hfits := (layout_inBounds hrest).of_ok hl
      refine (finish_inBounds hfits hrest).eq_ok.bind ?_
      rintro ⟨sizes, payload⟩ hfinish
      exact inBounds_ok ⟨rest, l, rfl, by omega, hrest, hl, hfinish, rfl, rfl⟩

theorem Packet.Parsed.wellFormed {p : Packet} {l : Layout} (h : p.Parsed sd data len rest l) :
    ∃ sizes, p.WellFormed sd data len sizes := by
  have hl := (layout_inBounds h.room).of_ok h.laidOut
  obtain ⟨sizes, header, hsizes, hcount, hsmall, hdata, hheader, hfits, hexact⟩ :=
    (finish_inBounds hl h.room).of_ok h.finished
  dsimp only at hsizes hdata
  have hpos := h.pos
  have hoffset : p.payloadOffset = 1 + header.length := by
    rw [h.payloadOffset, h.data_eq, hdata, List.length_cons, List.length_append]
    omega
  refine ⟨sizes, hsizes, ?_, ?_, hsmall, ?_, ?_, ?_, ?_, ?_⟩
  · rintro rfl
    have := hl.count.1
    rw [← hcount, List.length_nil] at this
    omega
  · rw [hcount]
    exact hl.count.2
  · rw [h.data_eq, List.head?_cons]
  · rw [hoffset, h.data_eq, Nat.add_comm, List.drop_succ_cons, hdata, List.drop_left]
  · rwa [hoffset]
  · rw [hoffset, h.pad]
    omega
  · intro hsd
    have := hexact hsd
    rw [hoffset, h.pad]
    omega

/-- The parser reads inside the buffer, whatever the buffer holds. A packet that it accepts has at
least one frame, at most 120 milliseconds and no frame of more than 1275 bytes, and its frames lie
in the buffer one after another, behind the header and before the padding. -/
theorem parse_inBounds (h : len ≤ data.length) :
    InBounds (parse sd data len) fun p => ∃ sizes, p.WellFormed sd data len sizes := by
  refine (parse_parsed h).mono ?_
  rintro p ⟨rest, l, hp⟩
  exact hp.wellFormed

/-- A packet with the sizes of its frames, and what is left when its last byte is missing. -/
theorem vbr_inBounds : parse false [3, 131, 1, 2, 7, 8, 9] 7 = .ok ⟨3, [1, 2, 0], 4, [7, 8, 9], 0⟩ ∧
    InBounds (parse false [3, 131, 1, 2, 7, 8, 9] (7 : Nat)) fun p => ∃ sizes,
      p.WellFormed false [3, 131, 1, 2, 7, 8, 9] 7 sizes :=
  ⟨by decide +kernel, parse_inBounds (by decide)⟩

end Opus

end VoxLink
