import VoxLink.ProofKit.Buffers
import VoxLink.ProofKit.RangeCoding

/-! The entropy coder: a range coder that writes from the front of a buffer, and raw bits that are
written from its end. Both sides share one context. -/

namespace VoxLink

namespace Opus

/-! ### Machine integers -/

def u32 (n : Nat) : Nat := n % 2 ^ 32

/-- The subtraction of `opus_uint32`s. -/
def sub32 (a b : Nat) : Nat := u32 (a + (2 ^ 32 - b))

/-- `a & ~b`. -/
def andNot (a b : Nat) : Nat := a - (a &&& b)

/-- `EC_ILOG`, the number of bits of `v`. -/
def ilog (v : Nat) : Nat := if v = 0 then 0 else Nat.log2 v + 1

def symBits : Nat := 8

def symMax : Nat := 255

def codeBits : Nat := 32

def codeShift : Nat := 23

def codeTop : Nat := 2 ^ 31

def codeBot : Nat := 2 ^ 23

def codeExtra : Nat := 7

def windowSize : Nat := 32

def uintBits : Nat := 8

/-- `ec_ctx`. A symbol that is not there, -1 in the C code, is `none`. -/
structure EcCtx where
  buf : List UInt8
  storage : Nat
  endOffs : Nat
  endWindow : Nat
  nendBits : Nat
  nbitsTotal : Nat
  offs : Nat
  rng : Nat
  val : Nat
  ext : Nat
  rem : Option Nat
  error : Bool
deriving DecidableEq, Repr

namespace EcCtx

def tell (c : EcCtx) : Nat := c.nbitsTotal - ilog c.rng

/-! ### The encoder -/

def writeByte (c : EcCtx) (value : Nat) : EcCtx :=
  if c.storage ≤ c.offs + c.endOffs then { c with error := true }
  else { c with buf := Buffer.store c.buf c.offs [.ofNat value], offs := c.offs + 1 }

def writeByteAtEnd (c : EcCtx) (value : Nat) : EcCtx :=
  if c.storage ≤ c.offs + c.endOffs then { c with error := true }
  else
    { c with
      buf := Buffer.store c.buf (c.storage - (c.endOffs + 1)) [.ofNat value]
      endOffs := c.endOffs + 1 }

def writeBytes : Nat → EcCtx → Nat → EcCtx
  | 0, c, _ => c
  | n + 1, c, value => writeBytes n (c.writeByte value) value

/-- Writes the symbol that awaits the carry, if there is one. -/
def writeRem (c : EcCtx) (carry : Nat) : EcCtx :=
  match c.rem with
  | some rem => c.writeByte (rem + carry)
  | none => c

def carryOut (c : EcCtx) (sym : Nat) : EcCtx :=
  if sym = symMax then { c with ext := u32 (c.ext + 1) }
  else
    let carry := sym >>> symBits
    let c := c.writeRem carry
    let c := writeBytes c.ext c ((symMax + carry) &&& symMax)
    { c with ext := 0, rem := some (sym &&& symMax) }

/-- The body of the loop of `ec_enc_normalize`. -/
def encShift (c : EcCtx) : EcCtx :=
  let c' := c.carryOut (c.val >>> codeShift)
  { c' with
    val := u32 (c.val <<< symBits) &&& (codeTop - 1)
    rng := u32 (c.rng <<< symBits)
    nbitsTotal := c.nbitsTotal + symBits }

/-- At most `n` rounds of the loop. -/
def encRounds : Nat → EcCtx → EcCtx
  | 0, c => c
  | n + 1, c => if c.rng ≤ codeBot then encRounds n c.encShift else c

/-- A range that is not empty needs three rounds at most. -/
def encNormalize (c : EcCtx) : EcCtx := encRounds 4 c

def encInit (buf : List UInt8) (size : Nat) : EcCtx :=
  { buf, storage := size, endOffs := 0, endWindow := 0, nendBits := 0, nbitsTotal := codeBits + 1
    offs := 0, rng := codeTop, val := 0, ext := 0, rem := none, error := false }

def encode (c : EcCtx) (fl fh ft : Nat) : EcCtx :=
  let r := c.rng / ft
  encNormalize
    (if 0 < fl then
      { c with
        val := u32 (c.val + sub32 c.rng (u32 (r * sub32 ft fl)))
        rng := u32 (r * sub32 fh fl) }
    else { c with rng := sub32 c.rng (u32 (r * sub32 ft fh)) })

def encodeBin (c : EcCtx) (fl fh bits : Nat) : EcCtx :=
  let r := c.rng >>> bits
  encNormalize
    (if 0 < fl then
      { c with
        val := u32 (c.val + sub32 c.rng (u32 (r * sub32 (1 <<< bits) fl)))
        rng := u32 (r * sub32 fh fl) }
    else { c with rng := sub32 c.rng (u32 (r * sub32 (1 <<< bits) fh)) })

def encBitLogp (c : EcCtx) (val : Bool) (logp : Nat) : EcCtx :=
  let s := c.rng >>> logp
  let r := sub32 c.rng s
  encNormalize { c with val := if val then u32 (c.val + r) else c.val, rng := if val then s else r }

/-- `ec_enc_icdf` and `ec_enc_icdf16`, which differ in the type of the table only. -/
def encIcdf (c : EcCtx) (s : Nat) (icdf : List Nat) (ftb : Nat) : EcCtx :=
  let r := c.rng >>> ftb
  encNormalize
    (if 0 < s then
      { c with
        val := u32 (c.val + sub32 c.rng (u32 (r * icdf.getD (s - 1) 0)))
        rng := u32 (r * sub32 (icdf.getD (s - 1) 0) (icdf.getD s 0)) }
    else { c with rng := sub32 c.rng (u32 (r * icdf.getD s 0)) })

/-- At most `n` rounds of the loop that writes whole bytes of the raw bits. -/
def flushBits : Nat → EcCtx → Nat → Nat → EcCtx × Nat × Nat
  | 0, c, window, used => (c, window, used)
  | n + 1, c, window, used =>
    if symBits ≤ used then
      flushBits n (c.writeByteAtEnd (window &&& symMax)) (window >>> symBits) (used - symBits)
    else (c, window, used)

def encBits (c : EcCtx) (fl bits : Nat) : EcCtx :=
  let (c, window, used) :=
    -- there is a byte to write then, since `bits` is at most 25
    if windowSize < c.nendBits + bits then flushBits 4 c c.endWindow c.nendBits
    else (c, c.endWindow, c.nendBits)
  { c with
    endWindow := window ||| u32 (fl <<< used)
    nendBits := used + bits
    nbitsTotal := c.nbitsTotal + bits }

def encUint (c : EcCtx) (fl ft : Nat) : EcCtx :=
  let ftb := ilog (ft - 1)
  if uintBits < ftb then
    let ftb := ftb - uintBits
    let high := fl >>> ftb
    (c.encode high (high + 1) ((ft - 1) >>> ftb + 1)).encBits (fl &&& (1 <<< ftb - 1)) ftb
  else c.encode fl (fl + 1) ft

def encShrink (c : EcCtx) (size : Nat) : EcCtx :=
  { c with
    buf := Buffer.store c.buf (size - c.endOffs)
      (Buffer.piece c.buf (c.storage - c.endOffs) c.endOffs)
    storage := size }

/-- The number of bits that `ec_enc_done` writes, and the number that has them. -/
def endCode (c : EcCtx) : Nat × Nat :=
  let l := codeBits - ilog c.rng
  let msk := (codeTop - 1) >>> l
  let last := andNot (u32 (c.val + msk)) msk
  if u32 (c.val + c.rng) ≤ last ||| msk then
    let msk := msk >>> 1
    (l + 1, andNot (u32 (c.val + msk)) msk)
  else (l, last)

/-- At most `n` rounds of the loop that writes these bits, with the bits that are left: when the
loop has ended, `-l` bits of the last byte are not used. -/
def endRounds : Nat → EcCtx → Int → Nat → EcCtx × Int
  | 0, c, l, _ => (c, l)
  | n + 1, c, l, last =>
    if 0 < l then
      endRounds n (c.carryOut (last >>> codeShift)) (l - symBits)
        (u32 (last <<< symBits) &&& (codeTop - 1))
    else (c, l)

def encDone (c : EcCtx) : EcCtx :=
  let (bits, last) := endCode c
  let (c, l) := endRounds 5 c bits last
  let c := if c.rem.isSome || 0 < c.ext then c.carryOut 0 else c
  let (c, window, used) := flushBits 4 c c.endWindow c.nendBits
  if c.error then c
  else
    let c := { c with
      buf := Buffer.store c.buf c.offs (List.replicate (c.storage - c.offs - c.endOffs) 0) }
    if 0 < used then
      if c.storage ≤ c.endOffs then { c with error := true }
      else
        let spare := (-l).toNat
        let busted := c.storage ≤ c.offs + c.endOffs && spare < used
        let window := if busted then window &&& (1 <<< spare - 1) else window
        let lastByte := c.storage - c.endOffs - 1
        { c with
          buf := Buffer.store c.buf lastByte [c.buf.getD lastByte 0 ||| .ofNat window]
          error := busted }
    else c

/-! ### The decoder -/

def readByte (c : EcCtx) : Nat × EcCtx :=
  if c.offs < c.storage then ((c.buf.getD c.offs 0).toNat, { c with offs := c.offs + 1 })
  else (0, c)

def readByteFromEnd (c : EcCtx) : Nat × EcCtx :=
  if c.endOffs < c.storage then
    ((c.buf.getD (c.storage - (c.endOffs + 1)) 0).toNat, { c with endOffs := c.endOffs + 1 })
  else (0, c)

/-- The body of the loop of `ec_dec_normalize`. -/
def decShift (c : EcCtx) : EcCtx :=
  let (rem, c') := c.readByte
  let sym := ((c.rem.getD 0) <<< symBits ||| rem) >>> (symBits - codeExtra)
  { c' with
    nbitsTotal := c.nbitsTotal + symBits
    rng := u32 (c.rng <<< symBits)
    rem := some rem
    val := u32 (u32 (c.val <<< symBits) + andNot symMax sym) &&& (codeTop - 1) }

def decRounds : Nat → EcCtx → EcCtx
  | 0, c => c
  | n + 1, c => if c.rng ≤ codeBot then decRounds n c.decShift else c

def decNormalize (c : EcCtx) : EcCtx := decRounds 4 c

def decInit (buf : List UInt8) (storage : Nat) : EcCtx :=
  let rng := 1 <<< codeExtra
  let c : EcCtx :=
    { buf, storage, endOffs := 0, endWindow := 0, nendBits := 0
      nbitsTotal := codeBits + 1 - (codeBits - codeExtra) / symBits * symBits
      offs := 0, rng, val := 0, ext := 0, rem := none, error := false }
  let (rem, c) := c.readByte
  decNormalize { c with rem := some rem, val := rng - 1 - rem >>> (symBits - codeExtra) }

def decode (c : EcCtx) (ft : Nat) : Nat × EcCtx :=
  let ext := c.rng / ft
  let s := c.val / ext
  (ft - min (s + 1) ft, { c with ext })

def decodeBin (c : EcCtx) (bits : Nat) : Nat × EcCtx :=
  let ext := c.rng >>> bits
  let s := c.val / ext
  (1 <<< bits - min (s + 1) (1 <<< bits), { c with ext })

def decUpdate (c : EcCtx) (fl fh ft : Nat) : EcCtx :=
  let s := u32 (c.ext * sub32 ft fh)
  decNormalize { c with
    val := sub32 c.val s
    rng := if 0 < fl then u32 (c.ext * sub32 fh fl) else sub32 c.rng s }

def decBitLogp (c : EcCtx) (logp : Nat) : Bool × EcCtx :=
  let s := c.rng >>> logp
  let ret := decide (c.val < s)
  (ret, decNormalize { c with
    val := if ret then c.val else c.val - s
    rng := if ret then s else c.rng - s })

/-- The loop of `ec_dec_icdf` from symbol `ret` on: the symbol, with `s` and `t`. None where it
reads beyond the table. -/
def searchIcdf (r d : Nat) : Nat → Nat → List Nat → Option (Nat × Nat × Nat)
  | _, _, [] => none
  | ret, t, x :: icdf =>
    let s := u32 (r * x)
    if d < s then searchIcdf r d (ret + 1) s icdf else some (ret, s, t)

def decIcdf (c : EcCtx) (icdf : List Nat) (ftb : Nat) : Option (Nat × EcCtx) := do
  let (ret, s, t) ← searchIcdf (c.rng >>> ftb) c.val 0 c.rng icdf
  pure (ret, decNormalize { c with val := sub32 c.val s, rng := sub32 t s })

/-- At most `n` rounds of the loop that reads bytes of the raw bits. -/
def fillWindow : Nat → EcCtx → Nat → Nat → EcCtx × Nat × Nat
  | 0, c, window, available => (c, window, available)
  | n + 1, c, window, available =>
    if available ≤ windowSize - symBits then
      let (byte, c) := c.readByteFromEnd
      fillWindow n c (window ||| u32 (byte <<< available)) (available + symBits)
    else (c, window, available)

def decBits (c : EcCtx) (bits : Nat) : Nat × EcCtx :=
  let (c, window, available) :=
    -- there is room for a byte then, since `bits` is at most 25
    if c.nendBits < bits then fillWindow 4 c c.endWindow c.nendBits
    else (c, c.endWindow, c.nendBits)
  (window &&& (1 <<< bits - 1), { c with
    endWindow := window >>> bits
    nendBits := available - bits
    nbitsTotal := c.nbitsTotal + bits })

def decUint (c : EcCtx) (ft : Nat) : Nat × EcCtx :=
  let ftb := ilog (ft - 1)
  if uintBits < ftb then
    let ftb := ftb - uintBits
    let high := (ft - 1) >>> ftb + 1
    let (s, c) := c.decode high
    let (low, c) := (c.decUpdate s (s + 1) high).decBits ftb
    let t := u32 (s <<< ftb) ||| low
    if t ≤ ft - 1 then (t, c) else (ft - 1, { c with error := true })
  else
    let (s, c) := c.decode ft
    (s, c.decUpdate s (s + 1) ft)

end EcCtx

end Opus

end VoxLink
