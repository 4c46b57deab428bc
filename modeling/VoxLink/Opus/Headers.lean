import VoxLink.Opus.Packet

/-! The packets that are written: the headers of `opus_repacketizer_out_range_impl`, and that the
parser reads them back. -/

namespace VoxLink

namespace Opus

/-! ### Headers -/

/-- The first byte with another code. -/
def withCode (toc : UInt8) (code : Nat) : UInt8 := .ofNat (toc.toNat / 4 * 4 + code)

/-- The size of the last frame, which a self-delimited packet has in front of its frames. -/
def delimiter (selfDelimited : Bool) (lens : List Nat) : List UInt8 :=
  if selfDelimited then encodeSize (lens.getLastD 0) else []

/-- The bytes that a size takes. -/
def sizeBytes (n : Nat) : Nat := 1 + if 252 ≤ n then 1 else 0

/-- What `tot_size` starts with. -/
def startSize (selfDelimited : Bool) (lens : List Nat) : Nat :=
  if selfDelimited then sizeBytes (lens.getLastD 0) else 0

/-- The codes for at most two frames, with the size of the packet. -/
def shortHeader (toc : UInt8) (lens : List Nat) (selfDelimited : Bool) : List UInt8 × Nat :=
  let size := startSize selfDelimited lens
  match lens with
  | [n] => ([withCode toc 0], size + (n + 1))
  | [m, n] =>
    if n = m then ([withCode toc 1], size + (2 * m + 1))
    else (withCode toc 2 :: encodeSize m, size + (m + n + 2 + if 252 ≤ m then 1 else 0))
  | _ => ([], size)

/-- The lengths of a padding that takes `amount` bytes with them. -/
def encodePadding (amount : Nat) : List UInt8 :=
  if amount = 0 then []
  else
    let nb255s := (amount - 1) / 255
    List.replicate nb255s 255 ++ [.ofNat (amount - 255 * nb255s - 1)]

/-- The second byte of a packet with any number of frames. -/
def countByte (count : Nat) (vbr padded : Bool) : UInt8 :=
  .ofNat (count + (if vbr then 128 else 0) + if padded then 64 else 0)

/-- The code for any number of frames. -/
def longHeader (toc : UInt8) (lens : List Nat) (maxlen : Nat) (selfDelimited pad : Bool) :
    Except OpusError (List UInt8 × Nat) :=
  let count := lens.length
  let vbr := lens.any (· ≠ lens.headD 0)
  let size := startSize selfDelimited lens +
    if vbr then 2 + ((lens.dropLast.map fun n => sizeBytes n + n).sum + lens.getLastD 0)
    else count * lens.headD 0 + 2
  if maxlen < size then .error .bufferTooSmall
  else
    let amount := if pad then maxlen - size else 0
    if amount ≠ 0 ∧ maxlen < size + (amount - 1) / 255 + 1 then .error .bufferTooSmall
    else
      let sizes := if vbr then encodeSizes lens.dropLast else []
      .ok (withCode toc 3 :: countByte count vbr (amount ≠ 0) :: (encodePadding amount ++ sizes),
        size + amount)

/-- The header of a packet with its size, which is returned. -/
def outHeader (toc : UInt8) (lens : List Nat) (maxlen : Nat) (selfDelimited pad : Bool) :
    Except OpusError (List UInt8 × Nat) :=
  let (header, size) := shortHeader toc lens selfDelimited
  if lens.length ≤ 2 ∧ maxlen < size then .error .bufferTooSmall
  else if 2 < lens.length ∨ pad ∧ size < maxlen then longHeader toc lens maxlen selfDelimited pad
  else .ok (header, size)

/-- A packet with the frames, and the size that is returned. -/
def outPacket (toc : UInt8) (frames : List (List UInt8)) (maxlen : Nat) (selfDelimited pad : Bool) :
    Except OpusError (List UInt8 × Nat) := do
  let lens := frames.map List.length
  let (header, size) ← outHeader toc lens maxlen selfDelimited pad
  let written := header ++ delimiter selfDelimited lens ++ frames.flatten
  pure (written ++ List.replicate (if pad then maxlen - written.length else 0) 0, size)

/-! ### What is read back -/

variable {data rest : List UInt8} {len n size maxlen : Nat} {sd pad : Bool} {toc : UInt8}
  {ns : List Nat}
  {frames : List (List UInt8)}

theorem encodeSize_sizeBytes (n : Nat) : (encodeSize n).length = sizeBytes n := by
  rw [length_encodeSize, sizeBytes]
  split_ifs <;> omega

theorem parseSize_encode (h : size ≤ 1275) (hlen : (encodeSize size).length ≤ len) :
    parseSize (encodeSize size ++ rest) len = .ok (some ((encodeSize size).length, size)) := by
  rw [length_encodeSize] at hlen ⊢
  unfold parseSize encodeSize
  by_cases hshort : size < 252
  · rw [if_pos hshort] at hlen
    have hfirst : (UInt8.ofNat size).toNat = size := by
      rw [UInt8.toNat_ofNat']
      omega
    simp only [if_pos hshort, if_neg (show ¬len < 1 by omega), List.singleton_append, hfirst]
  · rw [if_neg hshort] at hlen
    have hfirst : (UInt8.ofNat (252 + size % 4)).toNat = 252 + size % 4 := by
      rw [UInt8.toNat_ofNat']
      omega
    have hsecond : (UInt8.ofNat ((size - (252 + size % 4)) / 4)).toNat =
        (size - (252 + size % 4)) / 4 := by
      rw [UInt8.toNat_ofNat']
      omega
    have hvalue : 4 * ((size - (252 + size % 4)) / 4) + (252 + size % 4) = size := by omega
    simp only [if_neg hshort, if_neg (show ¬len < 1 by omega), if_neg (show ¬len < 2 by omega),
      List.cons_append, List.nil_append, hfirst, hsecond, hvalue,
      if_neg (show ¬252 + size % 4 < 252 by omega)]

/-- A size is read back from where it was written. -/
theorem takeSize_encode (h : size ≤ 1275) (hlen : len = (encodeSize size).length + n)
    (hfits : size ≤ n) : takeSize (encodeSize size ++ rest) len = .ok (size, rest, n) := by
  unfold takeSize
  rw [parseSize_encode h (by omega)]
  have hleft : len - (encodeSize size).length = n := by omega
  simp only [bind, Except.bind, hleft, if_neg (show ¬n < size by omega), List.drop_left, pure,
    Except.pure]

theorem encodeSizes_cons : encodeSizes (size :: ns) = encodeSize size ++ encodeSizes ns :=
  List.flatMap_cons

theorem takeSizes_encode {last : Int} (hall : ∀ size ∈ ns, size ≤ 1275)
    (hlen : len = (encodeSizes ns).length + n) (hfits : ns.sum ≤ n) :
    takeSizes ns.length (encodeSizes ns ++ rest) len last =
      .ok (ns.map Nat.cast, rest, n, last - ((encodeSizes ns).length + ns.sum)) := by
  induction ns generalizing len last with
  | nil => simp_all [takeSizes, encodeSizes, pure, Except.pure]
  | cons size ns ih =>
    rw [List.forall_mem_cons] at hall
    rw [List.sum_cons] at hfits
    rw [encodeSizes_cons, List.length_append] at hlen ⊢
    rw [List.sum_cons]
    have hsize : takeSize (encodeSize size ++ (encodeSizes ns ++ rest)) len =
        .ok (size, encodeSizes ns ++ rest, (encodeSizes ns).length + n) :=
      takeSize_encode hall.1 (by omega) (by omega)
    simp only [takeSizes, List.length_cons, List.append_assoc, hsize, bind, Except.bind,
      ih hall.2 rfl (by omega), pure, Except.pure]
    rw [Except.ok.injEq, Prod.mk.injEq, Prod.mk.injEq, Prod.mk.injEq]
    refine ⟨rfl, rfl, rfl, ?_⟩
    omega

/-- The lengths of a padding are read back. -/
theorem takePadding_encode {v pad : Nat} {left : Int} (k : Nat) (hv : v < 255)
    (hleft : k * 255 + 1 + v ≤ left) :
    takePadding (List.replicate k 255 ++ .ofNat v :: rest) left pad =
      .ok (rest, left - (k * 255 + 1 + v), pad + (k * 254 + v)) := by
  induction k generalizing left pad with
  | zero =>
    have hbyte : (UInt8.ofNat v).toNat = v := by
      rw [UInt8.toNat_ofNat']
      omega
    rw [List.replicate_zero, List.nil_append, takePadding, if_neg (by omega), hbyte,
      if_neg (by omega), Except.ok.injEq, Prod.mk.injEq, Prod.mk.injEq]
    refine ⟨rfl, ?_, ?_⟩
    · push_cast
      omega
    · omega
  | succ k ih =>
    have hmore : (255 : UInt8).toNat = 255 := rfl
    rw [List.replicate_succ, List.cons_append, takePadding, if_neg (by omega), if_pos hmore,
      ih (by push_cast at hleft; omega), Except.ok.injEq, Prod.mk.injEq, Prod.mk.injEq]
    refine ⟨rfl, ?_, ?_⟩
    · push_cast
      omega
    · omega

theorem encodePadding_of_ne {amount : Nat} (h : amount ≠ 0) : encodePadding amount =
    List.replicate ((amount - 1) / 255) 255 ++
      [.ofNat (amount - 255 * ((amount - 1) / 255) - 1)] := by
  rw [encodePadding, if_neg h]

theorem length_encodePadding (amount : Nat) : (encodePadding amount).length ≤ amount := by
  by_cases h : amount = 0
  · rw [h]
    exact Nat.le_refl 0
  · rw [encodePadding_of_ne h, List.length_append, List.length_replicate, List.length_singleton]
    omega

theorem padding_encode {ch : UInt8} {amount : Nat} (hch : ch.toNat / 64 % 2 = 1 ↔ amount ≠ 0)
    (hlen : len = amount + n) : padding ch (encodePadding amount ++ rest) len =
      .ok (rest, n, amount - (encodePadding amount).length) := by
  unfold padding
  by_cases h : amount = 0
  · subst h
    rw [if_neg (by rw [hch]; exact not_not.mpr rfl), hlen, Nat.zero_add]
    rfl
  · rw [if_pos (hch.mpr h), encodePadding_of_ne h, List.append_assoc, List.singleton_append,
      takePadding_encode _ (by omega) (by omega), List.length_append, List.length_replicate,
      List.length_singleton, Except.ok.injEq, Prod.mk.injEq, Prod.mk.injEq]
    refine ⟨rfl, ?_, ?_⟩
    · rw [hlen]
      omega
    · omega

/-! ### Headers are read back -/

/-- What a header of a packet with frames of the sizes `lens` tells: `payload` stands behind it and
behind the size of the last frame. -/
structure Layout.Tells (sd : Bool) (lens : List Nat) (payload : List UInt8) (pads : Nat)
    (l : Layout) :
    Prop where
  count : l.count = lens.length
  same : l.cbr = true → ∀ size ∈ lens, size = lens.getLastD 0
  data : l.data = delimiter sd lens ++ payload
  sizes : l.cbr = false ∨ sd = false → l.sizes = lens.dropLast.map Nat.cast
  last : sd = false → l.lastSize = lens.getLastD 0
  fits : sd = true → (delimiter sd lens).length + lens.sum ≤ l.len ∧
    (l.cbr = false → ((delimiter sd lens).length + lens.getLastD 0 : Nat) ≤ l.lastSize)
  pad : l.pad = pads

theorem finish_tells {l : Layout} {lens : List Nat} {payload : List UInt8} {pads : Nat}
    (h : l.Tells sd lens payload pads) (hne : lens ≠ []) (hsmall : ∀ size ∈ lens, size ≤ 1275) :
    finish sd l = .ok (lens.map Nat.cast, payload) := by
  obtain ⟨ns, last, rfl⟩ := (List.eq_nil_or_concat lens).resolve_left hne
  rw [List.concat_eq_append] at h hsmall ⊢
  obtain ⟨hcount, hsame, hdata, hsizes, hlast, hfits, -⟩ := h
  rw [List.getLastD_concat] at hsame hlast hfits
  rw [List.dropLast_concat] at hsizes
  have hlastSmall : last ≤ 1275 := hsmall last (by simp)
  have hmap : ns.map (Nat.cast : Nat → Int) ++ [(last : Int)] =
    (ns ++ [last]).map Nat.cast := by simp
  unfold finish
  cases sd with
  | false =>
    rw [if_neg Bool.false_ne_true, hlast rfl, if_neg (by omega), hsizes (.inr rfl),
      Int.toNat_natCast, int16_of_le hlastSmall, hmap, hdata]
    rfl
  | true =>
    have hsize : delimiter true (ns ++ [last]) = encodeSize last := by simp [delimiter]
    obtain ⟨hlen, hvbr⟩ := hfits rfl
    rw [hsize] at hdata hlen hvbr
    rw [List.sum_append, List.sum_singleton] at hlen
    have htake : takeSize l.data l.len = .ok (last, payload, l.len - (encodeSize last).length) := by
      rw [hdata]
      exact takeSize_encode hlastSmall (by omega) (by omega)
    rw [if_pos rfl]
    simp only [htake, bind, Except.bind]
    cases hcbr : l.cbr with
    | false =>
      have hleast := hvbr hcbr
      rw [if_neg Bool.false_ne_true, if_neg (by omega), hsizes (.inl hcbr), hmap]
      rfl
    | true =>
      have hreplicate : ns ++ [last] = List.replicate l.count last := by
        rw [hcount]
        exact List.eq_replicate_of_mem (hsame hcbr)
      have hall : (ns ++ [last]).sum = last * l.count := by
        rw [hreplicate, List.sum_replicate, smul_eq_mul, Nat.mul_comm]
      have hcast : List.replicate (l.count - 1) (last : Int) ++ [(last : Int)] =
          List.replicate l.count (last : Int) := by
        rw [← List.replicate_succ', Nat.sub_add_cancel]
        rw [hcount, List.length_append]
        exact Nat.le_add_left _ _
      rw [List.sum_append, List.sum_singleton] at hall
      rw [if_pos rfl, if_neg (by omega), hcast, hreplicate, List.map_replicate]
      rfl

/-- A header that is read as it was written, in a packet of `size` bytes. -/
def Reads (sd : Bool) (toc : UInt8) (lens : List Nat) (header : List UInt8)
    (pads size : Nat) : Prop :=
  ∃ code rest, code < 4 ∧ header = withCode toc code :: rest ∧
    header.length + (delimiter sd lens).length + lens.sum + pads = size ∧
    ∀ payload len, size ≤ len → (sd = false → len = size) →
      ∃ l, layout sd (withCode toc code) (rest ++ (delimiter sd lens ++ payload))
        (len - 1) = .ok l ∧
        l.Tells sd lens payload pads

theorem toNat_withCode (toc : UInt8) {code : Nat} (h : code < 4) :
    (withCode toc code).toNat = toc.toNat / 4 * 4 + code := by
  have := toc.toNat_lt
  rw [withCode, UInt8.toNat_ofNat']
  omega

theorem withCode_mod {code : Nat} (h : code < 4) : (withCode toc code).toNat % 4 = code := by
  rw [toNat_withCode toc h]
  omega

theorem startSize_eq (sd : Bool) (lens : List Nat) :
    startSize sd lens = (delimiter sd lens).length := by
  rw [startSize, delimiter]
  split_ifs
  · rw [encodeSize_sizeBytes]
  · rfl

/-- One frame. -/
theorem reads_one (n : Nat) : Reads sd toc [n] [withCode toc 0] 0 (startSize sd [n] + (n + 1)) := by
  refine ⟨0, [], by decide, rfl, ?_, ?_⟩
  · rw [startSize_eq, List.length_singleton, List.sum_singleton]
    omega
  · intro payload len hlen hexact
    have hmod : (withCode toc 0).toNat % 4 = 0 := withCode_mod (by decide)
    refine ⟨⟨1, false, [], ↑(len - 1), delimiter sd [n] ++ payload, len - 1, 0⟩, ?_, ?_⟩
    · unfold layout
      rw [hmod]
      rfl
    · rw [startSize_eq] at hlen hexact
      refine ⟨rfl, fun hcbr => Bool.noConfusion hcbr, rfl, fun _ => rfl, ?_, ?_, rfl⟩
      · rintro rfl
        have := hexact rfl
        simp only [delimiter, Bool.false_eq_true, if_false, List.length_nil] at this
        simp only [List.getLastD_cons, List.getLastD_nil]
        omega
      · intro hsd
        simp only [List.sum_singleton, List.getLastD_cons, List.getLastD_nil]
        omega

/-- Two frames of one size. -/
theorem reads_two_same (n : Nat) (hn : n ≤ 1275) :
    Reads sd toc [n, n] [withCode toc 1] 0 (startSize sd [n, n] + (2 * n + 1)) := by
  refine ⟨1, [], by decide, rfl, ?_, ?_⟩
  · rw [startSize_eq, List.length_singleton, List.sum_cons, List.sum_singleton]
    omega
  · intro payload len hlen hexact
    have hmod : (withCode toc 1).toNat % 4 = 1 := withCode_mod (by decide)
    rw [startSize_eq] at hlen hexact
    cases sd with
    | true =>
      refine ⟨⟨2, true, [], ↑(len - 1), delimiter true [n, n] ++ payload, len - 1, 0⟩, ?_, ?_⟩
      · unfold layout
        rw [hmod]
        rfl
      · refine ⟨rfl, fun _ => by simp, rfl, ?_, fun hsd => Bool.noConfusion hsd,
          fun _ => ⟨?_, fun hcbr => Bool.noConfusion hcbr⟩, rfl⟩
        · rintro (hcbr | hsd)
          · cases hcbr
          · cases hsd
        · simp only [List.sum_cons, List.sum_nil]
          omega
    | false =>
      have htotal := hexact rfl
      have hnone : (delimiter false [n, n]).length = 0 := rfl
      have hhalf : (len - 1) / 2 = n := by omega
      refine ⟨⟨2, true, [int16 n], n, payload, len - 1, 0⟩, ?_, ?_⟩
      · unfold layout
        rw [hmod]
        simp only [Bool.false_eq_true, if_false, if_neg (show ¬(len - 1) % 2 = 1 by omega), hhalf]
        rfl
      · refine ⟨rfl, fun _ => by simp, rfl, fun _ => ?_, fun _ => by simp,
          fun hsd => Bool.noConfusion hsd, rfl⟩
        rw [int16_of_le hn]
        rfl

/-- Two frames. -/
theorem reads_two (m n : Nat) (hm : m ≤ 1275) :
    Reads sd toc [m, n] (withCode toc 2 :: encodeSize m) 0
      (startSize sd [m, n] + (m + n + 2 + if 252 ≤ m then 1 else 0)) := by
  have hbytes : (encodeSize m).length = 1 + if 252 ≤ m then 1 else 0 := encodeSize_sizeBytes m
  refine ⟨2, encodeSize m, by decide, rfl, ?_, ?_⟩
  · rw [startSize_eq, List.length_cons, hbytes, List.sum_cons, List.sum_singleton]
    omega
  · intro payload len hlen hexact
    have hmod : (withCode toc 2).toNat % 4 = 2 := withCode_mod (by decide)
    rw [startSize_eq] at hlen hexact
    have htake : takeSize (encodeSize m ++ (delimiter sd [m, n] ++ payload)) (len - 1) =
        .ok (m, delimiter sd [m, n] ++ payload, len - 1 - (encodeSize m).length) :=
      takeSize_encode hm (by omega) (by omega)
    refine ⟨⟨2, false, [m], ↑(len - 1 - (encodeSize m).length - m), delimiter sd [m, n] ++ payload,
      len - 1 - (encodeSize m).length, 0⟩, ?_, ?_⟩
    · unfold layout
      rw [hmod]
      simp only [htake]
      rfl
    · refine ⟨rfl, fun hcbr => Bool.noConfusion hcbr, rfl, fun _ => rfl, ?_, ?_, rfl⟩
      · rintro rfl
        have htotal := hexact rfl
        simp only [delimiter, Bool.false_eq_true, if_false, List.length_nil] at htotal
        simp only [List.getLastD_cons, List.getLastD_nil]
        omega
      · intro hsd
        simp only [List.sum_cons, List.sum_nil, List.getLastD_cons, List.getLastD_nil]
        omega

section

variable {lens : List Nat} {vbr : Bool} {payload : List UInt8} {pads amount : Nat} {ch : UInt8}

/-- The sizes of any number of frames. -/
theorem severalSizes_tells (hcount : ch.toNat % 64 = lens.length)
    (hch : 128 ≤ ch.toNat ↔ vbr = true) (hne : lens ≠ []) (hsmall : ∀ size ∈ lens, size ≤ 1275)
    (hsame : vbr = false → ∀ size ∈ lens, size = lens.getLastD 0)
    (hlen : (if vbr then (encodeSizes lens.dropLast).length else 0) + (delimiter sd lens).length +
      lens.sum ≤ len)
    (hexact : sd = false →
      (if vbr then (encodeSizes lens.dropLast).length else 0) + lens.sum = len) :
    ∃ l, severalSizes sd ch ((if vbr then encodeSizes lens.dropLast else []) ++
      (delimiter sd lens ++ payload)) len pads = .ok l ∧ l.Tells sd lens payload pads := by
  obtain ⟨ns, last, rfl⟩ := (List.eq_nil_or_concat lens).resolve_left hne
  rw [List.concat_eq_append] at *
  rw [List.dropLast_concat] at hlen hexact ⊢
  rw [List.getLastD_concat] at hsame
  rw [List.sum_append, List.sum_singleton] at hlen hexact
  have hlength : (ns ++ [last]).length = ns.length + 1 := by simp
  unfold severalSizes
  cases vbr with
  | true =>
    simp only [if_true] at hlen hexact
    have hread : takeSizes (ch.toNat % 64 - 1) (encodeSizes ns ++
      (delimiter sd (ns ++ [last]) ++ payload))
        len len = .ok (ns.map Nat.cast, delimiter sd (ns ++ [last]) ++ payload,
          len - (encodeSizes ns).length, ↑len - ((encodeSizes ns).length + ns.sum)) := by
      rw [hcount, hlength, Nat.add_sub_cancel]
      exact takeSizes_encode (fun size hs => hsmall size (List.mem_append_left _ hs)) (by omega)
        (by omega)
    simp only [if_pos (hch.mpr rfl), if_true, hread, bind, Except.bind]
    rw [if_neg (by omega)]
    refine ⟨_, rfl, hcount, fun hcbr => Bool.noConfusion hcbr, rfl, fun _ => by simp, ?_, ?_, rfl⟩
    · intro hsd
      have := hexact hsd
      rw [List.getLastD_concat]
      dsimp only
      omega
    · intro hsd
      rw [List.getLastD_concat, List.sum_append, List.sum_singleton]
      dsimp only
      omega
  | false =>
    have hreplicate : ns ++ [last] = List.replicate (ns.length + 1) last := by
      rw [← hlength]
      exact List.eq_replicate_of_mem (hsame rfl)
    have hcbr : ¬128 ≤ ch.toNat := by
      rw [hch]
      exact Bool.false_ne_true
    have hsum : ns.sum + last = last * (ns.length + 1) := by
      have := congrArg List.sum hreplicate
      rwa [List.sum_append, List.sum_singleton, List.sum_replicate, smul_eq_mul,
        Nat.mul_comm] at this
    simp only [Bool.false_eq_true, if_false, Nat.zero_add] at hlen hexact
    simp only [if_neg hcbr, Bool.false_eq_true, if_false, List.nil_append, hcount, hlength]
    cases sd with
    | true =>
      rw [if_pos rfl]
      refine ⟨_, rfl, hlength.symm, fun _ => ?_, rfl, ?_, fun hsd => Bool.noConfusion hsd, ?_, rfl⟩
      · rw [List.getLastD_concat]
        exact hsame rfl
      · rintro (hfalse | hfalse)
        · exact Bool.noConfusion hfalse
        · exact Bool.noConfusion hfalse
      · refine fun _ => ⟨?_, fun hfalse => Bool.noConfusion hfalse⟩
        rw [List.sum_append, List.sum_singleton]
        exact hlen
    | false =>
      have htotal : last * (ns.length + 1) = len := by rw [← hsum, hexact rfl]
      have hlast : len / (ns.length + 1) = last := by
        rw [← htotal, Nat.mul_div_cancel _ (Nat.succ_pos _)]
      have hsmallLast : last ≤ 1275 := hsmall last (by simp)
      rw [if_neg Bool.false_ne_true, hlast, if_neg (not_not.mpr htotal), Nat.add_sub_cancel]
      have hns : ns = List.replicate ns.length last := by
        have hdrop := congrArg List.dropLast hreplicate
        rwa [List.dropLast_concat, List.replicate_succ', List.dropLast_concat] at hdrop
      refine ⟨_, rfl, hlength.symm, fun _ => ?_, rfl, fun _ => ?_, fun _ => ?_,
        fun hsd => Bool.noConfusion hsd, rfl⟩
      · rw [List.getLastD_concat]
        exact hsame rfl
      · rw [List.dropLast_concat, int16_of_le hsmallLast, hns, List.map_replicate,
          List.length_replicate]
      · rw [List.getLastD_concat]

theorem samplesPerFrame_withCode {code : Nat} (h : code < 4) (fs : Nat) :
    samplesPerFrame (withCode toc code) fs = samplesPerFrame toc fs := by
  have hword := toNat_withCode toc h
  have haudio : (withCode toc code).toNat / 8 % 4 = toc.toNat / 8 % 4 := by omega
  have hmode : (withCode toc code).toNat / 32 % 4 = toc.toNat / 32 % 4 := by omega
  have hbit : (withCode toc code).toNat / 8 % 2 = toc.toNat / 8 % 2 := by omega
  have hcelt : 128 ≤ (withCode toc code).toNat ↔ 128 ≤ toc.toNat := by omega
  simp only [samplesPerFrame, haudio, hmode, hbit, hcelt]

theorem toNat_countByte {count : Nat} (vbr padded : Bool) (h : count < 64) :
    (countByte count vbr padded).toNat =
      count + (if vbr then 128 else 0) + if padded then 64 else 0 := by
  rw [countByte, UInt8.toNat_ofNat']
  split_ifs <;> omega

theorem length_le_of_duration {count : Nat} (h : samplesPerFrame toc 48000 * count ≤ 5760) :
    count ≤ 48 := by
  have hframe := (samplesPerFrame_bounds toc).1
  nlinarith

/-- Any number of frames, with a padding of `amount` bytes. -/
theorem reads_several (hne : lens ≠ []) (hsmall : ∀ size ∈ lens, size ≤ 1275)
    (hduration : samplesPerFrame toc 48000 * lens.length ≤ 5760)
    (hsame : vbr = false → ∀ size ∈ lens, size = lens.getLastD 0) :
    Reads sd toc lens (withCode toc 3 :: countByte lens.length vbr (amount ≠ 0) ::
        (encodePadding amount ++ if vbr then encodeSizes lens.dropLast else []))
      (amount - (encodePadding amount).length)
      (2 + (if vbr then (encodeSizes lens.dropLast).length else 0) + (delimiter sd lens).length +
        lens.sum + amount) := by
  have hpads := length_encodePadding amount
  have hcount : lens.length ≤ 48 := length_le_of_duration hduration
  have hpos : 1 ≤ lens.length := List.length_pos_of_ne_nil hne
  have hsizes : (if vbr then encodeSizes lens.dropLast else []).length =
      if vbr then (encodeSizes lens.dropLast).length else 0 := by
    cases vbr <;> rfl
  have hbyte := toNat_countByte vbr (decide (amount ≠ 0)) (show lens.length < 64 by omega)
  simp only [decide_eq_true_eq] at hbyte
  generalize countByte lens.length vbr (amount ≠ 0) = ch at hbyte
  refine ⟨3, _, by decide, rfl, ?_, ?_⟩
  · rw [List.length_cons, List.length_cons, List.length_append, hsizes]
    omega
  · intro payload len hlen hexact
    have hmod : (withCode toc 3).toNat % 4 = 3 := withCode_mod (by decide)
    have hframes : ch.toNat % 64 = lens.length := by
      rw [hbyte]
      split_ifs <;> omega
    have hvbr : 128 ≤ ch.toNat ↔ vbr = true := by
      rw [hbyte]
      cases vbr
      · simp only [Bool.false_eq_true, if_false, iff_false]
        split_ifs <;> omega
      · simp only [if_true, iff_true]
        omega
    have hpad : ch.toNat / 64 % 2 = 1 ↔ amount ≠ 0 := by
      rw [hbyte]
      split_ifs <;> omega
    have hleft : sd = false → (if vbr then (encodeSizes lens.dropLast).length else 0) + lens.sum =
        len - 2 - amount := by
      rintro rfl
      have htotal := hexact rfl
      simp only [delimiter, Bool.false_eq_true, if_false, List.length_nil] at htotal
      omega
    obtain ⟨l, hl, htells⟩ : ∃ l, severalSizes sd ch
        ((if vbr then encodeSizes lens.dropLast else []) ++ (delimiter sd lens ++ payload))
        (len - 2 - amount) (amount - (encodePadding amount).length) =
          .ok l ∧ l.Tells sd lens payload (amount - (encodePadding amount).length) :=
      severalSizes_tells hframes hvbr hne hsmall hsame (by omega) hleft
    refine ⟨l, ?_, htells⟩
    have hread : padding ch (encodePadding amount ++
        ((if vbr then encodeSizes lens.dropLast else []) ++ (delimiter sd lens ++ payload)))
        (len - 1 - 1) = .ok (_, ((len - 2 - amount : Nat) : Int), _) :=
      padding_encode hpad (by omega)
    unfold layout
    rw [hmod]
    simp only [if_neg (show ¬len - 1 < 1 by omega), List.cons_append, List.append_assoc]
    rw [if_neg (by rw [hframes, samplesPerFrame_withCode (by decide)]; omega)]
    unfold severalFrames
    rw [hread]
    simp only [bind, Except.bind]
    rw [if_neg (by omega), Int.toNat_natCast]
    exact hl

/-- A packet without the padding. -/
def longSize (sd : Bool) (lens : List Nat) : Nat :=
  2 + (if lens.any (· ≠ lens.headD 0) then (encodeSizes lens.dropLast).length else 0) +
    (delimiter sd lens).length + lens.sum

theorem length_encodeSizes (ns : List Nat) : (encodeSizes ns).length = (ns.map sizeBytes).sum := by
  rw [encodeSizes, List.length_flatMap]
  exact congrArg List.sum (List.map_congr_left fun n _ => encodeSize_sizeBytes n)

theorem all_eq_head_of_any (h : lens.any (· ≠ lens.headD 0) = false) :
    ∀ size ∈ lens, size = lens.headD 0 := by
  simpa [List.any_eq_false] using h

theorem sum_of_any (h : lens.any (· ≠ lens.headD 0) = false) :
    lens.sum = lens.length * lens.headD 0 := by
  have hreplicate := List.eq_replicate_of_mem (all_eq_head_of_any h)
  generalize lens.headD 0 = m at hreplicate
  rw [hreplicate, List.sum_replicate, List.length_replicate, smul_eq_mul]

theorem longHeader_eq (hne : lens ≠ []) : longHeader toc lens maxlen sd pad =
    if maxlen < longSize sd lens then .error .bufferTooSmall
    else .ok (withCode toc 3 :: countByte lens.length (lens.any (· ≠ lens.headD 0))
        ((if pad then maxlen - longSize sd lens else 0) ≠ 0) ::
        (encodePadding (if pad then maxlen - longSize sd lens else 0) ++
          if lens.any (· ≠ lens.headD 0) then encodeSizes lens.dropLast else []),
      longSize sd lens + if pad then maxlen - longSize sd lens else 0) := by
  have hsize : startSize sd lens + (if lens.any (· ≠ lens.headD 0) then
      2 + ((lens.dropLast.map fun n => sizeBytes n + n).sum + lens.getLastD 0)
      else lens.length * lens.headD 0 + 2) = longSize sd lens := by
    rw [startSize_eq, longSize]
    by_cases hvbr : lens.any (· ≠ lens.headD 0) = true
    · obtain ⟨ns, last, rfl⟩ := (List.eq_nil_or_concat lens).resolve_left hne
      rw [List.concat_eq_append] at *
      rw [if_pos hvbr, if_pos hvbr, List.dropLast_concat, List.getLastD_concat, List.sum_append,
        List.sum_singleton, length_encodeSizes, List.sum_map_add, List.map_id']
      omega
    · rw [if_neg hvbr, if_neg hvbr, sum_of_any (by simpa using hvbr)]
      omega
  unfold longHeader
  simp only [hsize]
  split_ifs <;> first | rfl | omega

theorem all_eq_not_any (lens : List Nat) :
    lens.all (· = lens.headD 0) = !lens.any (· ≠ lens.headD 0) := by
  rw [List.all_eq_not_any_not]
  simp

theorem length_delimiter (sd : Bool) (lens : List Nat) : (delimiter sd lens).length =
    if sd then (encodeSize (lens.getLastD 0)).length else 0 := by
  cases sd <;> rfl

/-- The longer header takes a byte more than the one for at most two frames. -/
theorem longSize_eq (sd : Bool) (lens : List Nat) : longSize sd lens =
    headerLength sd lens + lens.sum + if lens.length ≤ 2 then 1 else 0 := by
  rw [longSize, headerLength, all_eq_not_any, length_delimiter]
  cases lens.any (· ≠ lens.headD 0) with
  | true =>
    simp only [Bool.not_true, if_true, Bool.false_eq_true, if_false]
    split_ifs <;> omega
  | false =>
    simp only [Bool.not_false, if_true, Bool.false_eq_true, if_false]
    split_ifs <;> omega

theorem shortHeader_reads (toc : UInt8) (sd : Bool) (hne : lens ≠ []) (hfew : lens.length ≤ 2)
    (hsmall : ∀ size ∈ lens, size ≤ 1275) :
    (shortHeader toc lens sd).2 = headerLength sd lens + lens.sum ∧
      Reads sd toc lens (shortHeader toc lens sd).1 0 (shortHeader toc lens sd).2 := by
  rcases lens with _ | ⟨m, _ | ⟨n, _ | ⟨k, lens⟩⟩⟩
  · exact absurd rfl hne
  · refine ⟨?_, reads_one m⟩
    simp only [shortHeader, startSize_eq, headerLength, length_delimiter]
    simp
    omega
  · have hm : m ≤ 1275 := hsmall m (by simp)
    by_cases hsame : n = m
    · subst hsame
      have hshort : shortHeader toc [n, n] sd =
          ([withCode toc 1], startSize sd [n, n] + (2 * n + 1)) := by
        simp [shortHeader]
      rw [hshort]
      refine ⟨?_, reads_two_same n hm⟩
      simp only [startSize_eq, headerLength, length_delimiter]
      simp
      omega
    · have hshort : shortHeader toc [m, n] sd = (withCode toc 2 :: encodeSize m,
          startSize sd [m, n] + (m + n + 2 + if 252 ≤ m then 1 else 0)) := by
        simp [shortHeader, hsame]
      rw [hshort]
      refine ⟨?_, reads_two m n hm⟩
      have hbytes : (encodeSize m).length = 1 + if 252 ≤ m then 1 else 0 := encodeSize_sizeBytes m
      simp only [startSize_eq, headerLength, length_delimiter]
      simp [hsame, encodeSizes, hbytes]
      omega
  · simp only [List.length_cons] at hfew
    omega

/-- The header of a packet fits just when the shortest does; with padding the packet fills the
buffer. -/
theorem outHeader_reads (lens : List Nat) (toc : UInt8) (maxlen : Nat) (sd pad : Bool)
    (hne : lens ≠ [])
    (hsmall : ∀ size ∈ lens, size ≤ 1275)
    (hduration : samplesPerFrame toc 48000 * lens.length ≤ 5760) :
    if maxlen < headerLength sd lens + lens.sum then
      outHeader toc lens maxlen sd pad = .error .bufferTooSmall
    else ∃ header pads size, outHeader toc lens maxlen sd pad = .ok (header, size) ∧
      size = (if pad then maxlen else headerLength sd lens + lens.sum) ∧
      (pad = false → pads = 0) ∧ Reads sd toc lens header pads size := by
  have hlong := longSize_eq sd lens
  have hsame : lens.any (· ≠ lens.headD 0) = false → ∀ size ∈ lens, size = lens.getLastD 0 := by
    intro hany size hs
    have hall := all_eq_head_of_any hany
    have hlast : lens.getLastD 0 ∈ lens := by
      rw [List.getLastD_eq_getLast?, List.getLast?_eq_getLast_of_ne_nil hne]
      exact List.getLast_mem hne
    rw [hall size hs, ← hall _ hlast]
  have hwithout : ∀ amount, pad = false → amount = (if pad then maxlen - longSize sd lens else 0) →
      amount - (encodePadding amount).length = 0 := by
    rintro amount rfl hamount
    rw [hamount]
    rfl
  unfold outHeader
  simp only [longHeader_eq hne]
  by_cases hfew : lens.length ≤ 2
  · obtain ⟨hsize, hreads⟩ := shortHeader_reads toc sd hne hfew hsmall
    rw [if_pos hfew] at hlong
    rw [hsize] at hreads
    simp only [hsize, hfew, true_and, Nat.not_lt.mpr hfew, false_or]
    by_cases hbig : maxlen < headerLength sd lens + lens.sum
    · rw [if_pos hbig, if_pos hbig]
    · rw [if_neg hbig, if_neg hbig]
      by_cases hpad : pad = true ∧ headerLength sd lens + lens.sum < maxlen
      · rw [if_pos hpad, if_neg (by omega), if_pos hpad.1]
        exact ⟨_, _, _, rfl, by rw [if_pos hpad.1]; omega,
          fun hfalse => hwithout _ hfalse (if_pos hpad.1).symm,
          reads_several hne hsmall hduration hsame⟩
      · rw [if_neg hpad]
        refine ⟨_, 0, _, rfl, ?_, fun _ => rfl, hreads⟩
        rw [not_and] at hpad
        split_ifs with htrue
        · have := hpad htrue
          omega
        · rfl
  · rw [if_neg hfew, Nat.add_zero] at hlong
    simp only [hfew, false_and, if_false, if_pos (Or.inl (not_le.mp hfew) : 2 < lens.length ∨ _),
      hlong]
    by_cases hbig : maxlen < headerLength sd lens + lens.sum
    · rw [if_pos hbig, if_pos hbig]
    · rw [if_neg hbig, if_neg hbig]
      refine ⟨_, _, _, rfl, ?_, fun hfalse => hwithout _ hfalse (by rw [hlong]), ?_⟩
      · split_ifs <;> omega
      · rw [← hlong]
        exact reads_several hne hsmall hduration hsame

end

/-! ### Packets are read back -/

theorem cut_flatten (frames : List (List UInt8)) (rest : List UInt8) :
    cut (frames.flatten ++ rest) (frames.map fun frame => (frame.length : Int)) = frames := by
  induction frames with
  | nil => rfl
  | cons frame frames ih =>
    rw [List.map_cons, cut, List.flatten_cons, List.append_assoc, Int.toNat_natCast, List.take_left,
      List.drop_left, ih]

/-- `packet` is one with the frames, whatever stands behind it when it is self-delimited. -/
def Holds (sd : Bool) (toc : UInt8) (frames : List (List UInt8)) (packet : List UInt8) : Prop :=
  ∀ tail len, packet.length ≤ len → (sd = false → len = packet.length) →
    ∃ p, parse sd (packet ++ tail) len = .ok p ∧ p.toc.toNat / 4 = toc.toNat / 4 ∧
      p.frames = frames ∧
      p.packetOffset = packet.length

theorem holds_of_reads {header : List UInt8} {pads : Nat} (hne : frames ≠ [])
    (hsmall : ∀ frame ∈ frames, frame.length ≤ 1275)
    (hreads : Reads sd toc (frames.map List.length) header pads size) :
    Holds sd toc frames (header ++ delimiter sd (frames.map List.length) ++ frames.flatten ++
      List.replicate pads 0) := by
  intro tail len hlen hexact
  obtain ⟨code, rest, hcode, rfl, hsize, hread⟩ := hreads
  have hsizes : ∀ size ∈ frames.map List.length, size ≤ 1275 := by simpa using hsmall
  have hlens : frames.map List.length ≠ [] := by simpa using hne
  have hflat : frames.flatten.length = (frames.map List.length).sum := List.length_flatten
  generalize hdelimiter : delimiter sd (frames.map List.length) = last at *
  have hlength : (withCode toc code :: rest ++ last ++ frames.flatten ++
      List.replicate pads (0 : UInt8)).length = size := by
    simp only [List.length_append, List.length_cons, List.length_replicate, hflat]
    simp only [List.length_cons] at hsize
    omega
  have hpositive : 1 ≤ size := by
    rw [← hlength]
    simp
  rw [hlength] at hlen hexact ⊢
  obtain ⟨l, hl, htells⟩ := hread (frames.flatten ++ (List.replicate pads 0 ++ tail))
    len hlen hexact
  have hfinish := finish_tells htells hlens hsizes
  have hpad := htells.pad
  generalize hpayload : frames.flatten ++ (List.replicate pads (0 : UInt8) ++ tail) = payload at *
  refine ⟨⟨withCode toc code, (frames.map List.length).map Nat.cast,
    (withCode toc code :: (rest ++ (last ++ payload))).length - payload.length, payload, l.pad⟩,
    ?_, ?_, ?_, ?_⟩
  · unfold parse
    rw [if_neg (by omega), if_neg (by omega)]
    have hnat : (len : Int).toNat - 1 = len - 1 := by omega
    simp only [List.cons_append, List.append_assoc, hpayload, hnat, hl, bind, Except.bind, hfinish]
    rfl
  · dsimp only
    rw [toNat_withCode toc hcode]
    omega
  · rw [Packet.frames, List.map_map, ← hpayload]
    exact cut_flatten frames _
  · rw [Packet.packetOffset, hpad]
    have hsum : (((frames.map List.length).map Nat.cast).sum : Int) =
        ((frames.map List.length).sum : Nat) := by
      rw [Nat.cast_list_sum]
    simp only [hsum, List.length_append, List.length_cons]
    simp only [List.length_cons] at hsize
    omega

/-- A packet that is written is read back, and the size that is returned is its own. -/
theorem outPacket_holds (toc : UInt8) (maxlen : Nat) (sd pad : Bool) (hne : frames ≠ [])
    (hsmall : ∀ frame ∈ frames, frame.length ≤ 1275)
    (hduration : samplesPerFrame toc 48000 * frames.length ≤ 5760) :
    if maxlen < headerLength sd (frames.map List.length) + frames.flatten.length then
      outPacket toc frames maxlen sd pad = .error .bufferTooSmall
    else ∃ packet, outPacket toc frames maxlen sd pad = .ok (packet, packet.length) ∧
      packet.length = (if pad then maxlen
        else headerLength sd (frames.map List.length) + frames.flatten.length) ∧
      Holds sd toc frames packet := by
  have hheader := outHeader_reads (frames.map List.length) toc maxlen sd pad
    (by simpa using hne) (by simpa using hsmall) (by simpa using hduration)
  rw [← List.length_flatten] at hheader
  unfold outPacket
  by_cases hbig : maxlen < headerLength sd (frames.map List.length) + frames.flatten.length
  · rw [if_pos hbig] at hheader ⊢
    simp only [hheader]
    rfl
  · rw [if_neg hbig] at hheader ⊢
    obtain ⟨header, pads, size, hout, hsize, hpads, hreads⟩ := hheader
    have hholds := holds_of_reads hne hsmall hreads
    obtain ⟨code, rest, -, -, hlength, -⟩ := hreads
    rw [← List.length_flatten] at hlength
    have hzeros : (if pad then maxlen - (header ++ delimiter sd (frames.map List.length) ++
        frames.flatten).length else 0) = pads := by
      simp only [List.length_append]
      cases pad with
      | true =>
        rw [if_pos rfl] at hsize ⊢
        omega
      | false => exact (hpads rfl).symm
    simp only [hout, bind, Except.bind, hzeros]
    have htotal : (header ++ delimiter sd (frames.map List.length) ++ frames.flatten ++
        List.replicate pads (0 : UInt8)).length = size := by
      simp only [List.length_append, List.length_replicate]
      omega
    exact ⟨_, by rw [htotal]; rfl, htotal.trans hsize, hholds⟩

end Opus

end VoxLink
