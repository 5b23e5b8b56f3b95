import Mathlib.Data.List.Forall2
import Rw612.Lib.Bits
import Rw612.Ir.Decode

/-!
Frames of the NEC and of the LG layout at their nominal durations. The windows
of the two protocols overlap, so a NEC frame also reads as 28 LG bits, and the LG
branch, which comes first, takes it whenever its second and third byte are
complements.
-/

namespace Rw612.Ir

open Lib

/-- The bits of some bytes in the order in which they are sent. -/
def wireBits (bytes : List UInt8) : List Bool :=
  bytes.flatMap (fun b => toBits 8 b.toNat)

def dataSymbol (mark zero one : UInt16) (bit : Bool) : Symbol :=
  ⟨mark, if bit then one else zero⟩

def necBits (addrLo addrHi cmd : UInt8) : List Bool :=
  wireBits [addrLo, addrHi, cmd, ~~~cmd]

/-- A full NEC frame; the space after the stop mark is not part of it. -/
def necFrame (addrLo addrHi cmd : UInt8) (stopSpace : UInt16) : List Symbol :=
  ⟨9000, 4500⟩ ::
    ((necBits addrLo addrHi cmd).map (dataSymbol 562 562 1687) ++
      [⟨562, stopSpace⟩])

def lgBits (addr cmd : UInt8) (chk : BitVec 4) : List Bool :=
  wireBits [addr, cmd, ~~~cmd] ++ toBits 4 chk.toNat

def lgFrame (addr cmd : UInt8) (chk : BitVec 4) (stopSpace : UInt16) :
    List Symbol :=
  ⟨8500, 4250⟩ ::
    ((lgBits addr cmd chk).map (dataSymbol 560 560 1600) ++ [⟨560, stopSpace⟩])

/-- The symbol reads as this bit under the given timings. -/
def Carries (bitMark zeroSpace oneSpace : Nat) (bit : Bool) (s : Symbol) : Prop :=
  inRange s.markUs bitMark = true ∧ s.spaceUs ≠ 0 ∧
    inRange s.spaceUs zeroSpace = !bit ∧
    (bit = true → inRange s.spaceUs oneSpace = true)

theorem nec_carries_lg (bit : Bool) :
    Carries 560 560 1600 bit (dataSymbol 562 562 1687 bit) := by
  cases bit <;> unfold Carries <;> decide

theorem nec_carries_nec (bit : Bool) :
    Carries 562 562 1687 bit (dataSymbol 562 562 1687 bit) := by
  cases bit <;> unfold Carries <;> decide

theorem lg_carries_lg (bit : Bool) :
    Carries 560 560 1600 bit (dataSymbol 560 560 1600 bit) := by
  cases bit <;> unfold Carries <;> decide

theorem UInt32.toNat_lor_one_shiftLeft (acc : UInt32) {n : Nat} (hn : n < 32) :
    (acc ||| (1 <<< UInt32.ofNat n)).toNat = acc.toNat ||| (1 <<< n) := by
  have hpos : (UInt32.ofNat n).toNat = n :=
    UInt32.toNat_ofNat_of_lt' (by show n < 2 ^ 32; omega)
  have hbit : 1 <<< n < 2 ^ 32 := by
    rw [Nat.shiftLeft_eq, Nat.one_mul]
    exact Nat.pow_lt_pow_right (by omega) hn
  rw [UInt32.toNat_or, UInt32.toNat_shiftLeft, hpos, Nat.mod_eq_of_lt hn]
  simp only [UInt32.toNat_one, Nat.mod_eq_of_lt hbit]

/-- `decode_space_bits` shifts in the bits that the symbols carry and stops when
it has `maxBits` of them. -/
theorem decodeSpaceBits_reads {bitMark zeroSpace oneSpace maxBits : Nat}
    (hmax : maxBits ≤ 32) (bits : List Bool) (syms rest : List Symbol)
    (hcarry : List.Forall₂ (Carries bitMark zeroSpace oneSpace) bits syms)
    (n : Nat) (acc : UInt32) (hn : n + bits.length = maxBits) :
    ∃ word, decodeSpaceBits bitMark zeroSpace oneSpace maxBits (syms ++ rest)
        n acc = (maxBits, word) ∧
      word.toNat = collect acc.toNat n bits := by
  induction hcarry generalizing n acc with
  | nil =>
      have hfull : n = maxBits := by simpa using hn
      subst hfull
      refine ⟨acc, ?_, rfl⟩
      cases rest with
      | nil => rfl
      | cons s rest => simp [decodeSpaceBits]
  | @cons bit s bits syms hbit htail ih =>
      obtain ⟨hmark, hspace, hzero, hone⟩ := hbit
      have hlt : n < maxBits := by
        simp only [List.length_cons] at hn
        omega
      have hrest : n + 1 + bits.length = maxBits := by
        simp only [List.length_cons] at hn
        omega
      cases bit with
      | false =>
          obtain ⟨word, hword, hvalue⟩ := ih (n + 1) acc hrest
          refine ⟨word, ?_, ?_⟩
          · simpa [decodeSpaceBits, hlt, hmark, hspace, hzero] using hword
          · simpa [collect] using hvalue
      | true =>
          obtain ⟨word, hword, hvalue⟩ :=
            ih (n + 1) (acc ||| (1 <<< UInt32.ofNat n)) hrest
          refine ⟨word, ?_, ?_⟩
          · simpa [decodeSpaceBits, hlt, hmark, hspace, hzero, hone rfl]
              using hword
          · rw [hvalue, UInt32.toNat_lor_one_shiftLeft acc (by omega)]
            rfl

/-- The word read from a frame's symbols is the number its bits spell. -/
theorem decodeSpaceBits_word {bitMark zeroSpace oneSpace : Nat}
    {mark zero one : UInt16}
    (hcarry : ∀ bit, Carries bitMark zeroSpace oneSpace bit
      (dataSymbol mark zero one bit))
    (bits : List Bool) (hlen : bits.length ≤ 32) (rest : List Symbol) :
    ∃ word, decodeSpaceBits bitMark zeroSpace oneSpace bits.length
        (bits.map (dataSymbol mark zero one) ++ rest) 0 0 =
          (bits.length, word) ∧
      word.toNat = ofBits bits := by
  have hall : List.Forall₂ (Carries bitMark zeroSpace oneSpace) bits
      (bits.map (dataSymbol mark zero one)) :=
    List.forall₂_map_right_iff.mpr (List.forall₂_same.mpr fun bit _ => hcarry bit)
  obtain ⟨word, hword, hvalue⟩ :=
    decodeSpaceBits_reads hlen bits _ rest hall 0 0 (by simp)
  refine ⟨word, hword, ?_⟩
  rw [hvalue, UInt32.toNat_zero, collect_eq 0 0 bits (by decide)]
  simp

theorem byteAt_toNat (word shift : UInt32) (h : shift.toNat < 32) :
    (byteAt word shift).toNat = word.toNat / 2 ^ shift.toNat % 256 := by
  have hmask : (0xFF : UInt32).toNat = 2 ^ 8 - 1 := rfl
  simp only [byteAt, UInt32.toNat_toUInt8, UInt32.toNat_and,
    UInt32.toNat_shiftRight, Nat.mod_eq_of_lt h, hmask,
    Nat.and_two_pow_sub_one_eq_mod, Nat.shiftRight_eq_div_pow]
  omega

theorem xor_eq_ff_iff (a b : UInt8) : a ^^^ b = 0xFF ↔ b = ~~~a := by
  have hnot : ~~~a = a ^^^ 0xFF := by
    rw [← UInt8.toBitVec_inj]
    exact (BitVec.xor_allOnes (x := a.toBitVec)).symm
  constructor
  · intro h
    rw [hnot, ← h, ← UInt8.xor_assoc, UInt8.xor_self, UInt8.zero_xor]
  · rintro rfl
    rw [hnot, ← UInt8.xor_assoc, UInt8.xor_self, UInt8.zero_xor]

theorem wireBits_length (bytes : List UInt8) :
    (wireBits bytes).length = 8 * bytes.length := by
  induction bytes with
  | nil => rfl
  | cons b bytes ih =>
      simp only [wireBits, List.flatMap_cons, List.length_append] at ih ⊢
      rw [toBits_length, ih, List.length_cons]
      omega

/-- Byte `i` of a word that spells some bytes. -/
theorem byteAt_ofBits {word shift : UInt32} (front : List UInt8) (b : UInt8)
    (back : List Bool) (hshift : shift.toNat = 8 * front.length)
    (hlt : shift.toNat < 32)
    (hword : word.toNat = ofBits (wireBits front ++ (toBits 8 b.toNat ++ back))) :
    byteAt word shift = b := by
  have hfront := ofBits_lt (wireBits front)
  have hb := b.toNat_lt
  apply UInt8.toNat_inj.mp
  rw [byteAt_toNat word shift hlt, hword, ofBits_append, ofBits_append,
    ofBits_toBits (by simpa using hb), toBits_length, hshift]
  rw [wireBits_length] at hfront ⊢
  rw [Nat.add_mul_div_left _ _ (Nat.two_pow_pos _), Nat.div_eq_of_lt hfront]
  omega

/-- The LG branch on three bytes and four more bits, under any durations that
fall into its windows. -/
theorem decodeLg_reads (hdr : Symbol) {mark zero one : UInt16}
    (hhdr : inRange hdr.markUs 8500 && inRange hdr.spaceUs 4250)
    (hcarry : ∀ bit, Carries 560 560 1600 bit (dataSymbol mark zero one bit))
    (b₀ b₁ b₂ : UInt8) (chk : List Bool) (hchk : chk.length = 4)
    (rest : List Symbol) :
    ∃ word, decodeLg hdr ((wireBits [b₀, b₁, b₂] ++ chk).map
        (dataSymbol mark zero one) ++ rest) =
      if b₁ ^^^ b₂ = 0xFF then
        some {Decoded.zero with
          proto := .lgAc
          address := b₀.toUInt16
          command := b₁
          rawBits := word
          bitCount := 28}
      else none := by
  have hlen : (wireBits [b₀, b₁, b₂] ++ chk).length = 28 := by
    rw [List.length_append, wireBits_length, hchk]
    rfl
  obtain ⟨word, hread, hvalue⟩ := decodeSpaceBits_word hcarry
    (wireBits [b₀, b₁, b₂] ++ chk) (by omega) rest
  rw [hlen] at hread
  have h₀ : byteAt word 0 = b₀ := by
    apply byteAt_ofBits [] b₀ (wireBits [b₁, b₂] ++ chk) rfl (by decide)
    simpa [wireBits] using hvalue
  have h₁ : byteAt word 8 = b₁ := by
    apply byteAt_ofBits [b₀] b₁ (wireBits [b₂] ++ chk) rfl (by decide)
    simpa [wireBits] using hvalue
  have h₂ : byteAt word 16 = b₂ := by
    apply byteAt_ofBits [b₀, b₁] b₂ chk rfl (by decide)
    simpa [wireBits] using hvalue
  refine ⟨word, ?_⟩
  have hcount : 29 ≤ ((wireBits [b₀, b₁, b₂] ++ chk).map
      (dataSymbol mark zero one) ++ rest).length + 1 := by
    rw [List.length_append, List.length_map, hlen]
    omega
  simp only [decodeLg, hhdr, hcount, decide_true, Bool.and_true, if_true, hread,
    h₀, h₁, h₂]
  rfl

/-- The NEC branch on a NEC frame. -/
theorem decodeNec_reads (addrLo addrHi cmd : UInt8) (rest : List Symbol) :
    ∃ word, decodeNec ⟨9000, 4500⟩ ((necBits addrLo addrHi cmd).map
        (dataSymbol 562 562 1687) ++ rest) =
      (0, if addrLo ^^^ addrHi = 0xFF then
        {Decoded.zero with
          proto := .nec
          address := addrLo.toUInt16
          command := cmd
          rawBits := word
          bitCount := 32}
      else
        {Decoded.zero with
          proto := .necExt
          address := (addrHi.toUInt16 <<< 8) ||| addrLo.toUInt16
          command := cmd
          rawBits := word
          bitCount := 32}) := by
  have hlen : (necBits addrLo addrHi cmd).length = 32 := by
    rw [necBits, wireBits_length]
    rfl
  obtain ⟨word, hread, hvalue⟩ := decodeSpaceBits_word nec_carries_nec
    (necBits addrLo addrHi cmd) (by omega) rest
  rw [hlen] at hread
  have h₀ : byteAt word 0 = addrLo := by
    apply byteAt_ofBits [] addrLo (wireBits [addrHi, cmd, ~~~cmd]) rfl (by decide)
    simpa [necBits, wireBits] using hvalue
  have h₁ : byteAt word 8 = addrHi := by
    apply byteAt_ofBits [addrLo] addrHi (wireBits [cmd, ~~~cmd]) rfl (by decide)
    simpa [necBits, wireBits] using hvalue
  have h₂ : byteAt word 16 = cmd := by
    apply byteAt_ofBits [addrLo, addrHi] cmd (wireBits [~~~cmd]) rfl (by decide)
    simpa [necBits, wireBits] using hvalue
  have h₃ : byteAt word 24 = ~~~cmd := by
    apply byteAt_ofBits [addrLo, addrHi, cmd] (~~~cmd) [] rfl (by decide)
    simpa [necBits, wireBits] using hvalue
  refine ⟨word, ?_⟩
  have hmark : inRange 9000 9000 = true := by decide
  have hrepeat : inRange 4500 2250 = false := by decide
  have hspace : inRange 4500 4500 = true := by decide
  have hcount : 33 ≤ ((necBits addrLo addrHi cmd).map
      (dataSymbol 562 562 1687) ++ rest).length + 1 := by
    rw [List.length_append, List.length_map, hlen]
    omega
  have hinv : cmd ^^^ ~~~cmd = 0xFF := (xor_eq_ff_iff cmd _).mpr rfl
  simp only [decodeNec, hmark, hrepeat, hspace, hcount, hread, h₀, h₁, h₂, h₃,
    hinv]
  by_cases hstd : addrLo ^^^ addrHi = 0xFF <;> simp [hstd]

/-- The report that the NEC layout calls for. -/
def NecReported (addrLo addrHi cmd : UInt8) (r : Int × Decoded) : Prop :=
  r.1 = 0 ∧ r.2.command = cmd ∧
    if addrHi = ~~~addrLo then
      r.2.proto = .nec ∧ r.2.address = addrLo.toUInt16
    else
      r.2.proto = .necExt ∧
        r.2.address.toNat = addrLo.toNat + 256 * addrHi.toNat

/-- The report that the LG layout calls for. -/
def LgReported (addr cmd : UInt8) (r : Int × Decoded) : Prop :=
  r.1 = 0 ∧ r.2.proto = .lgAc ∧ r.2.address = addr.toUInt16 ∧
    r.2.command = cmd

/-- A header of neither Samsung form goes to the LG branch and then to NEC. -/
theorem irDecode_of_not_samsung {hdr : Symbol} (syms : List Symbol)
    (out : Decoded) (hglobal : globalHeader hdr = false)
    (hsection : secHeader hdr = false) :
    irDecode (hdr :: syms) out =
      match decodeLg hdr syms with
      | some dec => (0, dec)
      | none => decodeNec hdr syms := by
  cases hlg : decodeLg hdr syms <;>
    simp only [irDecode, hglobal, hsection, hlg, Bool.false_eq_true, if_false]

theorem lgFrame_reported (addr cmd : UInt8) (chk : BitVec 4)
    (stopSpace : UInt16) (out : Decoded) :
    LgReported addr cmd (irDecode (lgFrame addr cmd chk stopSpace) out) := by
  obtain ⟨word, hlg⟩ := decodeLg_reads ⟨8500, 4250⟩ (by decide)
    lg_carries_lg addr cmd (~~~cmd) (toBits 4 chk.toNat) (toBits_length 4 _)
    [⟨560, stopSpace⟩]
  rw [if_pos ((xor_eq_ff_iff cmd _).mpr rfl)] at hlg
  unfold lgFrame lgBits
  rw [irDecode_of_not_samsung _ _ (by decide) (by decide), hlg]
  exact ⟨rfl, rfl, rfl, rfl⟩

theorem necExt_address (addrLo addrHi : UInt8) :
    ((addrHi.toUInt16 <<< 8) ||| addrLo.toUInt16).toNat =
      addrLo.toNat + 256 * addrHi.toNat := by
  have hlo := addrLo.toNat_lt
  have hhi := addrHi.toNat_lt
  have hshift : (addrHi.toUInt16 <<< 8).toNat = 2 ^ 8 * addrHi.toNat := by
    rw [UInt16.toNat_shiftLeft, UInt8.toNat_toUInt16, Nat.shiftLeft_eq]
    have h8 : (8 : UInt16).toNat % 16 = 8 := rfl
    rw [h8]
    omega
  rw [UInt16.toNat_or, hshift, UInt8.toNat_toUInt16,
    ← Nat.two_pow_add_eq_or_of_lt hlo]
  omega

/-- NEC frames are reported as such exactly if the command is not the complement
of the high address byte; otherwise the LG branch takes them. LG frames always
are. -/
theorem nec_lg_reported_iff (stopSpace : UInt16) (out : Decoded) :
    (∀ addrLo addrHi cmd,
      NecReported addrLo addrHi cmd
          (irDecode (necFrame addrLo addrHi cmd stopSpace) out) ↔
        cmd ≠ ~~~addrHi) ∧
    ∀ addr cmd chk,
      LgReported addr cmd (irDecode (lgFrame addr cmd chk stopSpace) out) := by
  refine ⟨fun addrLo addrHi cmd => ?_,
    fun addr cmd chk => lgFrame_reported addr cmd chk stopSpace out⟩
  obtain ⟨lgWord, hlg⟩ := decodeLg_reads ⟨9000, 4500⟩ (by decide)
    nec_carries_lg addrLo addrHi cmd (toBits 4 (~~~cmd).toNat)
    (toBits_length 4 _)
    ((toBits 4 ((~~~cmd).toNat / 2 ^ 4)).map (dataSymbol 562 562 1687) ++
      [⟨562, stopSpace⟩])
  obtain ⟨necWord, hnec⟩ :=
    decodeNec_reads addrLo addrHi cmd [⟨562, stopSpace⟩]
  have hbits : necBits addrLo addrHi cmd =
      (wireBits [addrLo, addrHi, cmd] ++ toBits 4 (~~~cmd).toNat) ++
        toBits 4 ((~~~cmd).toNat / 2 ^ 4) := by
    simp only [necBits, wireBits, List.flatMap_cons, List.flatMap_nil,
      List.append_nil, List.append_assoc]
    rw [← toBits_add]
  rw [← List.append_assoc, ← List.map_append, ← hbits] at hlg
  unfold necFrame
  rw [irDecode_of_not_samsung _ _ (by decide) (by decide), hlg]
  constructor
  · intro hreport hcmd
    rw [if_pos ((xor_eq_ff_iff addrHi cmd).mpr hcmd)] at hreport
    obtain ⟨_, _, hproto⟩ := hreport
    split at hproto
    · cases hproto.1
    · cases hproto.1
  · intro hcmd
    rw [if_neg (fun h => hcmd ((xor_eq_ff_iff addrHi cmd).mp h))]
    simp only [hnec]
    by_cases hstd : addrHi = ~~~addrLo
    · rw [if_pos ((xor_eq_ff_iff addrLo addrHi).mpr hstd)]
      exact ⟨rfl, rfl, by rw [if_pos hstd]; exact ⟨rfl, rfl⟩⟩
    · rw [if_neg (fun h => hstd ((xor_eq_ff_iff addrLo addrHi).mp h))]
      refine ⟨rfl, rfl, ?_⟩
      rw [if_neg hstd]
      exact ⟨rfl, necExt_address addrLo addrHi⟩

/-- A standard NEC frame for device 0, command 0, is reported as LG. -/
theorem nec_frame_taken_for_lg :
    ¬ ∀ addrLo addrHi cmd stopSpace out, NecReported addrLo addrHi cmd
      (irDecode (necFrame addrLo addrHi cmd stopSpace) out) := by
  intro h
  have hreport := h 0x00 0xFF 0x00 0 .zero
  have hproto : (irDecode (necFrame 0x00 0xFF 0x00 0) .zero).2.proto = .lgAc := by
    decide +kernel
  obtain ⟨_, _, hnec⟩ := hreport
  rw [if_pos (by decide), hproto] at hnec
  exact absurd hnec.1 (by decide)

end Rw612.Ir
