import Rw612.Ir.SamsungAc

/-!
The infrared decoder of `ir_decode.c`. A received frame is a list of symbols;
every duration is compared with its nominal value within 25 percent. The three
protocol branches are tried in the order of the source: Samsung, LG, NEC.
-/

namespace Rw612.Ir

/-- `in_range`: `v` within 25 percent of `ref`, in integer arithmetic. -/
def inRange (v : UInt16) (ref : Nat) : Bool :=
  decide (ref * 3 / 4 ≤ v.toNat) && decide (v.toNat ≤ ref * 5 / 4)

theorem inRange_iff {v : UInt16} {ref : Nat} :
    inRange v ref = true ↔ ref * 3 / 4 ≤ v.toNat ∧ v.toNat ≤ ref * 5 / 4 := by
  simp [inRange]

/-- `decode_space_bits`, from the symbol after the header on: `n` bits have been
read into `bits` so far. -/
def decodeSpaceBits (bitMark zeroSpace oneSpace maxBits : Nat) :
    List Symbol → (n : Nat) → (bits : UInt32) → Nat × UInt32
  | [], n, bits => (n, bits)
  | s :: syms, n, bits =>
      if n < maxBits then
        if !inRange s.markUs bitMark then (n, bits)
        -- the stop bit, whose space was not measured
        else if s.spaceUs = 0 then (n + 1, bits)
        else if inRange s.spaceUs zeroSpace then
          decodeSpaceBits bitMark zeroSpace oneSpace maxBits syms (n + 1) bits
        else if inRange s.spaceUs oneSpace then
          decodeSpaceBits bitMark zeroSpace oneSpace maxBits syms (n + 1)
            (bits ||| (1 <<< UInt32.ofNat n))
        else (n, bits)
      else (n, bits)

def SAC_BIT_MARK : Nat := 586
def SAC_ZERO_SPACE : Nat := 436
def SAC_ONE_SPACE : Nat := 1432
def SAC_SEC_MARK : Nat := 3086
def SAC_SEC_SPACE : Nat := 8864

def secHeader (s : Symbol) : Bool :=
  inRange s.markUs SAC_SEC_MARK && inRange s.spaceUs SAC_SEC_SPACE

def globalHeader (s : Symbol) : Bool :=
  inRange s.markUs 690 && inRange s.spaceUs 17844

/-- The value of one data symbol, as both Samsung decoders read it. -/
def sacBit (s : Symbol) : Option UInt8 :=
  if !inRange s.markUs SAC_BIT_MARK then none
  else if inRange s.spaceUs SAC_ONE_SPACE then some 1
  else if inRange s.spaceUs SAC_ZERO_SPACE || s.spaceUs == 0 then some 0
  else none

/-- The bit loop of `decode_samsung_ac_bytes`: the symbols left and the bytes
written so far. -/
def sacBits (cap : Nat) : (bitsLeft : Nat) → List Symbol → (curByte : UInt8) →
    (bitPos : Nat) → List UInt8 → List Symbol × List UInt8
  | 0, syms, _, _, out => (syms, out)
  | _ + 1, [], _, _, out => ([], out)
  | n + 1, s :: syms, cur, bitPos, out =>
      match sacBit s with
      | none => (s :: syms, out)
      | some bit =>
          let cur := cur ||| (bit <<< UInt8.ofNat bitPos)
          if bitPos + 1 = 8 then
            sacBits cap n syms 0 0 (if out.length < cap then out ++ [cur] else out)
          else sacBits cap n syms cur (bitPos + 1) out

/-- The section footer is a bit mark. -/
def skipFoot : List Symbol → List Symbol
  | [] => []
  | s :: syms => if inRange s.markUs SAC_BIT_MARK then syms else s :: syms

theorem sacBits_length_le (cap n : Nat) (syms : List Symbol) (cur : UInt8)
    (bitPos : Nat) (out : List UInt8) :
    (sacBits cap n syms cur bitPos out).1.length ≤ syms.length := by
  induction n generalizing syms cur bitPos out with
  | zero => exact Nat.le_refl _
  | succ n ih =>
      cases syms with
      | nil => exact Nat.le_refl _
      | cons s syms =>
          simp only [sacBits]
          split
          · exact Nat.le_refl _
          · split
            · exact Nat.le_succ_of_le (ih syms 0 0 _)
            · exact Nat.le_succ_of_le (ih syms _ _ _)

theorem skipFoot_length_le (syms : List Symbol) :
    (skipFoot syms).length ≤ syms.length := by
  cases syms with
  | nil => exact Nat.le_refl _
  | cons s syms =>
      simp only [skipFoot]
      split
      · exact Nat.le_succ _
      · exact Nat.le_refl _

/-- `decode_samsung_ac_bytes`: the bytes after those already in `out`. -/
def decodeSamsungAcBytes (cap : Nat) (syms : List Symbol) (out : List UInt8) :
    List UInt8 :=
  match syms with
  | [] => out
  | hdr :: syms =>
      if out.length < cap ∧ secHeader hdr = true then
        decodeSamsungAcBytes cap (skipFoot (sacBits cap 56 syms 0 0 out).1)
          (sacBits cap 56 syms 0 0 out).2
      else out
  termination_by syms.length
  decreasing_by
    have hskip := skipFoot_length_le (sacBits cap 56 syms 0 0 out).1
    have hbits := sacBits_length_le cap 56 syms 0 0 out
    simp only [List.length_cons]
    omega

/-- The bit loop of `ir_decode_samsung_ac_section`. -/
def sacSectionBits : (k : Nat) → List Symbol → (cur : UInt8) → (bp : Nat) →
    List UInt8 → Int × List UInt8
  | 0, _, _, _, out => (1, out)
  | _ + 1, [], _, _, out => (0, out)
  | k + 1, s :: syms, cur, bp, out =>
      match sacBit s with
      | none => (0, out)
      | some bit =>
          let cur := cur ||| (bit <<< UInt8.ofNat bp)
          if bp + 1 = 8 then sacSectionBits k syms 0 0 (out ++ [cur])
          else sacSectionBits k syms cur (bp + 1) out

/-- `ir_decode_samsung_ac_section`; the second component is the part of `out`
that has been written. -/
def irDecodeSamsungAcSection (syms : List Symbol) (secIndex : UInt8) :
    Int × List UInt8 :=
  let hdr := secIndex.toNat * 58
  if syms.length ≤ hdr + 57 then (-1, [])
  else
    match syms.drop hdr with
    | [] => (-1, [])
    | s :: bits => if secHeader s then sacSectionBits 56 bits 0 0 [] else (-1, [])

/-- `ir_proto_t` -/
inductive Proto where
  | unknown
  | nec
  | necExt
  | necRepeat
  | lgAc
  | samsungAc
  deriving DecidableEq, Repr

def IR_DECODE_MAX_RAW_BYTES : Nat := 24

/-- `ir_decoded_t` -/
structure Decoded where
  proto : Proto
  address : UInt16
  command : UInt8
  rawBytes : List UInt8
  byteCount : UInt8
  rawBits : UInt32
  bitCount : UInt8
  repeated : Bool
  deriving DecidableEq, Repr

def Decoded.zero : Decoded where
  proto := .unknown
  address := 0
  command := 0
  rawBytes := List.replicate IR_DECODE_MAX_RAW_BYTES 0
  byteCount := 0
  rawBits := 0
  bitCount := 0
  repeated := false

/-- `(uint8_t)((bits >> shift) & 0xFF)` -/
def byteAt (bits : UInt32) (shift : UInt32) : UInt8 :=
  ((bits >>> shift) &&& 0xFF).toUInt8

/-- The Samsung branch; `bytes` starts with the first section header. -/
def decodeSamsung (syms : List Symbol) : Int × Decoded :=
  let bytes := decodeSamsungAcBytes IR_DECODE_MAX_RAW_BYTES syms []
  (if 0 < bytes.length then 0 else -2,
    {Decoded.zero with
      proto := .samsungAc
      rawBytes := bytes ++
        List.replicate (IR_DECODE_MAX_RAW_BYTES - bytes.length) 0
      byteCount := UInt8.ofNat bytes.length})

/-- The LG branch: header, at least 28 more symbols, 28 bits, and a command that
is followed by its complement. -/
def decodeLg (hdr : Symbol) (syms : List Symbol) : Option Decoded :=
  if inRange hdr.markUs 8500 && inRange hdr.spaceUs 4250 &&
      decide (29 ≤ syms.length + 1) then
    let (nbits, bits) := decodeSpaceBits 560 560 1600 28 syms 0 0
    if nbits = 28 then
      let addr := byteAt bits 0
      let cmd := byteAt bits 8
      let cmdInv := byteAt bits 16
      if cmd ^^^ cmdInv = 0xFF then
        some {Decoded.zero with
          proto := .lgAc
          address := addr.toUInt16
          command := cmd
          rawBits := bits
          bitCount := UInt8.ofNat nbits}
      else none
    else none
  else none

/-- The NEC branch: hold-key repeat, or a full frame of 32 bits. -/
def decodeNec (hdr : Symbol) (syms : List Symbol) : Int × Decoded :=
  if !inRange hdr.markUs 9000 then (-2, .zero)
  else if inRange hdr.spaceUs 2250 then
    (0, {Decoded.zero with proto := .necRepeat, repeated := true})
  else if inRange hdr.spaceUs 4500 && decide (33 ≤ syms.length + 1) then
    let (nbits, bits) := decodeSpaceBits 562 562 1687 32 syms 0 0
    if nbits = 32 then
      let addrLo := byteAt bits 0
      let addrHi := byteAt bits 8
      let cmd := byteAt bits 16
      let cmdInv := byteAt bits 24
      if cmd ^^^ cmdInv ≠ 0xFF then (-2, .zero)
      else
        let out := {Decoded.zero with
          rawBits := bits
          bitCount := UInt8.ofNat nbits
          command := cmd}
        if addrLo ^^^ addrHi = 0xFF then
          (0, {out with proto := .nec, address := addrLo.toUInt16})
        else
          (0, {out with
            proto := .necExt
            address := (addrHi.toUInt16 <<< 8) ||| addrLo.toUInt16})
    else (-2, .zero)
  else (-2, .zero)

/-- `ir_decode`. With no symbols `out` is left as it was. -/
def irDecode (syms : List Symbol) (out : Decoded) : Int × Decoded :=
  match syms with
  | [] => (-1, out)
  | hdr :: rest =>
      if globalHeader hdr then decodeSamsung rest
      else if secHeader hdr then decodeSamsung (hdr :: rest)
      else
        match decodeLg hdr rest with
        | some dec => (0, dec)
        | none => decodeNec hdr rest

end Rw612.Ir
