import Rw612.Ir.SamsungAc
import Rw612.Lib.Bits

/-!
The section checksums of `ir_codec_samsung_ac.c`. A section is told by the bytes
from its first one on. Its checksum is kept in two nibbles, the high one of byte
1 and the low one of byte 2, which the sum leaves out.
-/

namespace Rw612.Ir

open Lib

/-- The loop of `popcount_u8`, for at most so many rounds. -/
def popcountLoop : (rounds : Nat) → (v n : UInt8) → UInt8
  | 0, _, n => n
  | k + 1, v, n => if v ≠ 0 then popcountLoop k (v >>> 1) (n + (v &&& 1)) else n

/-- `popcount_u8`: eight shifts leave nothing of a byte. -/
def popcountU8 (v : UInt8) : UInt8 := popcountLoop 8 v 0

/-- `popcount_buf` -/
def popcountBuf (p : List UInt8) (len : Nat) : UInt8 :=
  ((p.take len).foldl (fun (t : UInt16) b => t + (popcountU8 b).toUInt16) 0).toUInt8

/-- `sec_checksum` -/
def secChecksum (s : List UInt8) : UInt8 :=
  let sum : UInt16 := (popcountU8 (s.getD 0 0)).toUInt16
  let sum := sum + (popcountU8 (lowNibble (s.getD 1 0))).toUInt16
  let sum := sum + (popcountU8 (highNibble (s.getD 2 0))).toUInt16
  let sum := sum + (popcountBuf (s.drop 3) 4).toUInt16
  sum.toUInt8 ^^^ 0xFF

/-- `ir_codec_samsung_ac_fix_checksum` on the section that begins at `start`. -/
def irCodecSamsungAcFixChecksum (data : List UInt8) (start : Nat) : List UInt8 :=
  let cs := secChecksum (data.drop start)
  (data.modify (start + 1) (setHighNibble · cs)).modify (start + 2)
    (setLowNibble · (cs >>> 4))

/-- `ir_codec_samsung_ac_fix_checksums_14` -/
def irCodecSamsungAcFixChecksums14 (state14 : List UInt8) : List UInt8 :=
  irCodecSamsungAcFixChecksum (irCodecSamsungAcFixChecksum state14 0) 7

/-- `ir_codec_samsung_ac_verify` -/
def irCodecSamsungAcVerify (section' : List UInt8) : Bool :=
  secChecksum section' == joinNibbles (section'.getD 2 0) (highNibble (section'.getD 1 0))

/-- `ir_codec_samsung_ac_verify_all` -/
def irCodecSamsungAcVerifyAll (data : List UInt8) : Bool :=
  if data.length = 0 ∨ data.length % IR_SAC_SECTION_BYTES ≠ 0 then false
  else (List.range (data.length / IR_SAC_SECTION_BYTES)).all fun s =>
    irCodecSamsungAcVerify (data.drop (s * IR_SAC_SECTION_BYTES))

/-- The loop of `popcount_u8` ends before its rounds do. -/
theorem popcountLoop_enough (r k : Nat) {v : UInt8} (hv : v.toNat < 2 ^ r) (n : UInt8) :
    popcountLoop (r + k) v n = popcountLoop r v n := by
  induction r generalizing v n with
  | zero =>
      have hzero : v = 0 := UInt8.toNat_inj.mp (by simpa using hv)
      cases k <;> simp [popcountLoop, hzero]
  | succ r ih =>
      rw [Nat.succ_add, popcountLoop, popcountLoop]
      split
      · apply ih
        rw [UInt8.toNat_shiftRight]
        have hhalf : v.toNat >>> 1 = v.toNat / 2 := Nat.shiftRight_one v.toNat
        have hone : (1 : UInt8).toNat % 8 = 1 := rfl
        rw [hone, hhalf]
        omega
      · rfl

/-- The checksum does not depend on the nibbles that hold it. -/
theorem secChecksum_cons (b₀ b₁ b₂ : UInt8) (rest : List UInt8) (m n : UInt8) :
    secChecksum (b₀ :: setHighNibble b₁ m :: setLowNibble b₂ n :: rest) =
      secChecksum (b₀ :: b₁ :: b₂ :: rest) := by
  simp [secChecksum]

theorem joinNibbles_stored (b₁ b₂ cs : UInt8) :
    joinNibbles (setLowNibble b₂ (cs >>> 4)) (highNibble (setHighNibble b₁ cs)) = cs := by
  apply byte_ext
  intro i hi
  interval_cases i <;> simp [joinNibbles, setLowNibble, setHighNibble, highNibble]

/-- A checksum looks at seven bytes. -/
theorem secChecksum_append {sec : List UInt8} (h : sec.length = 7) (rest : List UInt8) :
    secChecksum (sec ++ rest) = secChecksum sec := by
  match sec, h with
  | [b₀, b₁, b₂, b₃, b₄, b₅, b₆], _ => simp [secChecksum, popcountBuf]

theorem irCodecSamsungAcVerify_append {sec : List UInt8} (h : sec.length = 7)
    (rest : List UInt8) :
    irCodecSamsungAcVerify (sec ++ rest) = irCodecSamsungAcVerify sec := by
  rw [irCodecSamsungAcVerify, secChecksum_append h]
  match sec, h with
  | [b₀, b₁, b₂, b₃, b₄, b₅, b₆], _ => simp [irCodecSamsungAcVerify]

@[simp] theorem irCodecSamsungAcFixChecksum_length (data : List UInt8) (start : Nat) :
    (irCodecSamsungAcFixChecksum data start).length = data.length := by
  simp [irCodecSamsungAcFixChecksum]

/-- Only the section itself is written to. -/
theorem irCodecSamsungAcFixChecksum_append (front : List UInt8) {sec : List UInt8}
    (h : sec.length = 7) (rest : List UInt8) :
    irCodecSamsungAcFixChecksum (front ++ sec ++ rest) front.length =
      front ++ irCodecSamsungAcFixChecksum sec 0 ++ rest := by
  have hcs : secChecksum ((front ++ sec ++ rest).drop front.length) = secChecksum sec := by
    rw [List.append_assoc, List.drop_left, secChecksum_append h]
  unfold irCodecSamsungAcFixChecksum
  rw [hcs, List.drop_zero, List.append_assoc]
  clear hcs
  generalize secChecksum sec = cs
  match sec, h with
  | [b₀, b₁, b₂, b₃, b₄, b₅, b₆], _ =>
      simp only [List.modify, List.modifyTailIdx_add, List.append_assoc]
      rfl

/-- A section whose checksum has just been written verifies. -/
theorem irCodecSamsungAcVerify_fix {sec : List UInt8} (h : sec.length = 7) :
    irCodecSamsungAcVerify (irCodecSamsungAcFixChecksum sec 0) = true := by
  match sec, h with
  | [b₀, b₁, b₂, b₃, b₄, b₅, b₆], _ =>
      have hfix : irCodecSamsungAcFixChecksum [b₀, b₁, b₂, b₃, b₄, b₅, b₆] 0 =
          b₀ :: setHighNibble b₁ (secChecksum [b₀, b₁, b₂, b₃, b₄, b₅, b₆]) ::
            setLowNibble b₂ (secChecksum [b₀, b₁, b₂, b₃, b₄, b₅, b₆] >>> 4) ::
            [b₃, b₄, b₅, b₆] := rfl
      rw [hfix, irCodecSamsungAcVerify, secChecksum_cons, beq_iff_eq]
      exact (joinNibbles_stored b₁ b₂ _).symm

theorem irCodecSamsungAcFixChecksums14_append {sec₀ sec₁ : List UInt8}
    (h₀ : sec₀.length = 7) (h₁ : sec₁.length = 7) :
    irCodecSamsungAcFixChecksums14 (sec₀ ++ sec₁) =
      irCodecSamsungAcFixChecksum sec₀ 0 ++ irCodecSamsungAcFixChecksum sec₁ 0 := by
  have hfirst := irCodecSamsungAcFixChecksum_append [] h₀ sec₁
  have hsecond := irCodecSamsungAcFixChecksum_append (irCodecSamsungAcFixChecksum sec₀ 0) h₁ []
  rw [irCodecSamsungAcFixChecksum_length, h₀] at hsecond
  simp only [List.nil_append, List.length_nil, List.append_nil] at hfirst hsecond
  rw [irCodecSamsungAcFixChecksums14, hfirst, hsecond]

theorem irCodecSamsungAcVerifyAll_append {sec₀ sec₁ : List UInt8}
    (h₀ : sec₀.length = 7) (h₁ : sec₁.length = 7) :
    irCodecSamsungAcVerifyAll (sec₀ ++ sec₁) =
      (irCodecSamsungAcVerify sec₀ && irCodecSamsungAcVerify sec₁) := by
  have hdrop : (sec₀ ++ sec₁).drop 7 = sec₁ := by
    rw [← h₀, List.drop_left]
  simp [irCodecSamsungAcVerifyAll, IR_SAC_SECTION_BYTES, h₀, h₁, List.range_succ, hdrop,
    irCodecSamsungAcVerify_append h₀]

/-- Writing both checksums of fourteen bytes makes both sections verify. -/
theorem irCodecSamsungAcVerifyAll_fix {data : List UInt8} (h : data.length = 14) :
    irCodecSamsungAcVerifyAll (irCodecSamsungAcFixChecksums14 data) = true := by
  have h₀ : (data.take 7).length = 7 := by simp [h]
  have h₁ : (data.drop 7).length = 7 := by simp [h]
  rw [← List.take_append_drop 7 data, irCodecSamsungAcFixChecksums14_append h₀ h₁,
    irCodecSamsungAcVerifyAll_append (by simp [h]) (by simp [h]), irCodecSamsungAcVerify_fix h₀,
    irCodecSamsungAcVerify_fix h₁]
  rfl

end Rw612.Ir
