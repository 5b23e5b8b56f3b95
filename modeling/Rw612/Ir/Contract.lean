import Rw612.Ir.NecLg
import Rw612.Ir.Visits

/-!
The contract of `ir_decode` in `ir_decode.h`: 0 with a protocol and its fields,
or -2 with an unknown protocol. The functions are embedded a second time, over
an array that is read by index and answers `none` beyond its end; they read
nothing there and compute what the decoder on lists computes.
-/

namespace Rw612.Ir

open Lib

/-! The decoder on an array. -/

section Reads

variable (read : Nat → Option Symbol) (count : Nat)

/-- `decode_space_bits`, with the loop at index `i`. -/
def decodeSpaceBitsAt (bitMark zeroSpace oneSpace maxBits : Nat) :
    (rounds i n : Nat) → (bits : UInt32) → Option (Nat × UInt32)
  | 0, _, _, _ => none
  | rounds + 1, i, n, bits =>
      if i < count ∧ n < maxBits then do
        let s ← read i
        if !inRange s.markUs bitMark then some (n, bits)
        else if s.spaceUs = 0 then some (n + 1, bits)
        else if inRange s.spaceUs zeroSpace then
          decodeSpaceBitsAt bitMark zeroSpace oneSpace maxBits rounds (i + 1) (n + 1) bits
        else if inRange s.spaceUs oneSpace then
          decodeSpaceBitsAt bitMark zeroSpace oneSpace maxBits rounds (i + 1) (n + 1)
            (bits ||| (1 <<< UInt32.ofNat n))
        else some (n, bits)
      else some (n, bits)

/-- The bit loop of `decode_samsung_ac_bytes`: the index behind it and the bytes. -/
def sacBitsAt (cap : Nat) : (bitsLeft i : Nat) → (curByte : UInt8) → (bitPos : Nat) →
    List UInt8 → Option (Nat × List UInt8)
  | 0, i, _, _, out => some (i, out)
  | n + 1, i, cur, bitPos, out =>
      if i < count then do
        let s ← read i
        match sacBit s with
        | none => some (i, out)
        | some bit =>
            let cur := cur ||| (bit <<< UInt8.ofNat bitPos)
            if bitPos + 1 = 8 then
              sacBitsAt cap n (i + 1) 0 0 (if out.length < cap then out ++ [cur] else out)
            else sacBitsAt cap n (i + 1) cur (bitPos + 1) out
      else some (i, out)

def skipFootAt (i : Nat) : Option Nat :=
  if i < count then do
    let s ← read i
    some (if inRange s.markUs SAC_BIT_MARK then i + 1 else i)
  else some i

/-- `decode_samsung_ac_bytes`, for at most so many sections. -/
def decodeSamsungAcBytesAt (cap : Nat) : (rounds i : Nat) → List UInt8 → Option (List UInt8)
  | 0, _, _ => none
  | rounds + 1, i, out =>
      if i < count ∧ out.length < cap then do
        let hdr ← read i
        if !secHeader hdr then some out
        else
          let (i, out) ← sacBitsAt read count cap 56 (i + 1) 0 0 out
          let i ← skipFootAt read count i
          decodeSamsungAcBytesAt cap rounds i out
      else some out

/-- The LG branch of `ir_decode`. -/
def decodeLgAt (hdr : Symbol) : Option (Option Decoded) :=
  if inRange hdr.markUs 8500 && inRange hdr.spaceUs 4250 && decide (29 ≤ count) then do
    let (nbits, bits) ← decodeSpaceBitsAt read count 560 560 1600 28 count 1 0 0
    if nbits = 28 then
      let addr := byteAt bits 0
      let cmd := byteAt bits 8
      let cmdInv := byteAt bits 16
      if cmd ^^^ cmdInv = 0xFF then
        some (some {Decoded.zero with
          proto := .lgAc
          address := addr.toUInt16
          command := cmd
          rawBits := bits
          bitCount := UInt8.ofNat nbits})
      else some none
    else some none
  else some none

/-- The NEC branch of `ir_decode`. -/
def decodeNecAt (hdr : Symbol) : Option (Int × Decoded) :=
  if !inRange hdr.markUs 9000 then some (-2, .zero)
  else if inRange hdr.spaceUs 2250 then
    some (0, {Decoded.zero with proto := .necRepeat, repeated := true})
  else if inRange hdr.spaceUs 4500 && decide (33 ≤ count) then do
    let (nbits, bits) ← decodeSpaceBitsAt read count 562 562 1687 32 count 1 0 0
    if nbits = 32 then
      let addrLo := byteAt bits 0
      let addrHi := byteAt bits 8
      let cmd := byteAt bits 16
      let cmdInv := byteAt bits 24
      if cmd ^^^ cmdInv ≠ 0xFF then some (-2, .zero)
      else
        let out := {Decoded.zero with
          rawBits := bits
          bitCount := UInt8.ofNat nbits
          command := cmd}
        if addrLo ^^^ addrHi = 0xFF then
          some (0, {out with proto := .nec, address := addrLo.toUInt16})
        else
          some (0, {out with
            proto := .necExt
            address := (addrHi.toUInt16 <<< 8) ||| addrLo.toUInt16})
    else some (-2, .zero)
  else some (-2, .zero)

end Reads

/-- `ir_decode` on an array of `count` symbols. -/
def irDecodeAt (read : Nat → Option Symbol) (count : Nat) (out : Decoded) :
    Option (Int × Decoded) :=
  if count = 0 then some (-1, out)
  else do
    let hdr ← read 0
    if globalHeader hdr || secHeader hdr then
      -- the pointer to the first section header, and the symbols from there on
      let first := if globalHeader hdr then 1 else 0
      let count := if globalHeader hdr then count - 1 else count
      let bytes ← decodeSamsungAcBytesAt (fun i => read (first + i)) count
        IR_DECODE_MAX_RAW_BYTES (count + 1) 0 []
      some (if 0 < bytes.length then 0 else -2,
        {Decoded.zero with
          proto := .samsungAc
          rawBytes := bytes ++ List.replicate (IR_DECODE_MAX_RAW_BYTES - bytes.length) 0
          byteCount := UInt8.ofNat bytes.length})
    else do
      match ← decodeLgAt read count hdr with
      | some dec => some (0, dec)
      | none => decodeNecAt read count hdr

/-! Reading the array is reading the list. -/

theorem drop_cases (syms : List Symbol) (i : Nat) :
    (¬i < syms.length ∧ syms.drop i = []) ∨
      ∃ s, i < syms.length ∧ syms[i]? = some s ∧ syms.drop i = s :: syms.drop (i + 1) := by
  rcases Nat.lt_or_ge i syms.length with hlt | hge
  · exact Or.inr ⟨syms[i], hlt, List.getElem?_eq_getElem hlt, List.drop_eq_getElem_cons hlt⟩
  · exact Or.inl ⟨Nat.not_lt.mpr hge, List.drop_eq_nil_iff.mpr hge⟩

theorem decodeSpaceBitsAt_eq (syms : List Symbol) (bitMark zeroSpace oneSpace maxBits : Nat)
    {rounds i : Nat} (h : (syms.drop i).length < rounds) (n : Nat) (bits : UInt32) :
    decodeSpaceBitsAt (syms[·]?) syms.length bitMark zeroSpace oneSpace maxBits rounds i n bits =
      some (decodeSpaceBits bitMark zeroSpace oneSpace maxBits (syms.drop i) n bits) := by
  induction rounds generalizing i n bits with
  | zero => cases h
  | succ rounds ih =>
      rw [decodeSpaceBitsAt]
      rcases drop_cases syms i with ⟨hend, hdrop⟩ | ⟨s, hlt, hread, hdrop⟩
      · rw [if_neg fun hc => hend hc.1, hdrop, decodeSpaceBits]
      · rw [hdrop, List.length_cons, Nat.succ_lt_succ_iff] at h
        rw [hdrop, decodeSpaceBits]
        by_cases hmax : n < maxBits
        · simp only [hlt, hmax, and_self, if_true, hread, Option.bind_eq_bind, Option.bind_some,
            ih h]
          split_ifs <;> rfl
        · rw [if_neg fun hc => hmax hc.2, if_neg hmax]

theorem sacBitsAt_eq (syms : List Symbol) (cap n i : Nat) (cur : UInt8) (bitPos : Nat)
    (out : List UInt8) :
    ∃ j, sacBitsAt (syms[·]?) syms.length cap n i cur bitPos out =
        some (j, (sacBits cap n (syms.drop i) cur bitPos out).2) ∧
      syms.drop j = (sacBits cap n (syms.drop i) cur bitPos out).1 := by
  induction n generalizing i cur bitPos out with
  | zero => exact ⟨i, rfl, rfl⟩
  | succ n ih =>
      rw [sacBitsAt]
      rcases drop_cases syms i with ⟨hend, hdrop⟩ | ⟨s, hlt, hread, hdrop⟩
      · rw [if_neg hend, hdrop, sacBits]
        exact ⟨i, rfl, hdrop⟩
      · rw [hdrop, sacBits]
        simp only [hlt, if_true, hread, Option.bind_eq_bind, Option.bind_some]
        cases sacBit s with
        | none => exact ⟨i, rfl, hdrop⟩
        | some bit =>
            dsimp only
            split_ifs
            · exact ih (i + 1) 0 0 _
            · exact ih (i + 1) 0 0 _
            · exact ih (i + 1) _ (bitPos + 1) out

theorem skipFootAt_eq (syms : List Symbol) (i : Nat) :
    ∃ j, skipFootAt (syms[·]?) syms.length i = some j ∧ syms.drop j = skipFoot (syms.drop i) := by
  rw [skipFootAt]
  rcases drop_cases syms i with ⟨hend, hdrop⟩ | ⟨s, hlt, hread, hdrop⟩
  · rw [if_neg hend, hdrop, skipFoot]
    exact ⟨i, rfl, hdrop⟩
  · rw [hdrop, skipFoot]
    simp only [hlt, if_true, hread, Option.bind_eq_bind, Option.bind_some]
    split_ifs
    · exact ⟨i + 1, rfl, rfl⟩
    · exact ⟨i, rfl, hdrop⟩

theorem decodeSamsungAcBytesAt_eq (syms : List Symbol) (cap : Nat) {rounds i : Nat}
    (h : (syms.drop i).length < rounds) (out : List UInt8) :
    decodeSamsungAcBytesAt (syms[·]?) syms.length cap rounds i out =
      some (decodeSamsungAcBytes cap (syms.drop i) out) := by
  induction rounds generalizing i out with
  | zero => cases h
  | succ rounds ih =>
      rw [decodeSamsungAcBytesAt]
      rcases drop_cases syms i with ⟨hend, hdrop⟩ | ⟨s, hlt, hread, hdrop⟩
      · rw [if_neg fun hc => hend hc.1, hdrop, decodeSamsungAcBytes]
      · rw [hdrop, List.length_cons, Nat.succ_lt_succ_iff] at h
        rw [hdrop, decodeSamsungAcBytes]
        by_cases hroom : out.length < cap
        · obtain ⟨j, hbits, hj⟩ := sacBitsAt_eq syms cap 56 (i + 1) 0 0 out
          obtain ⟨k, hfoot, hk⟩ := skipFootAt_eq syms j
          rw [hj] at hk
          have hsuffix := skipFoot_sacBits_suffix cap (syms.drop (i + 1)) out
          rw [← hk] at hsuffix
          have hrounds : (syms.drop k).length < rounds :=
            Nat.lt_of_le_of_lt hsuffix.length_le h
          simp only [hlt, hroom, and_self, if_true, true_and, hread, Option.bind_eq_bind,
            Option.bind_some, hbits, hfoot, ih hrounds, hk]
          cases secHeader s <;> rfl
        · rw [if_neg fun hc => hroom hc.2, if_neg fun hc => hroom hc.1]

theorem decodeLgAt_eq (hdr : Symbol) (rest : List Symbol) :
    decodeLgAt ((hdr :: rest)[·]?) (rest.length + 1) hdr = some (decodeLg hdr rest) := by
  have hbits := @decodeSpaceBitsAt_eq (hdr :: rest) 560 560 1600 28 (rest.length + 1) 1
    (Nat.lt_succ_self _) 0 0
  rw [List.length_cons] at hbits
  rw [decodeLgAt, decodeLg]
  simp only [hbits, List.drop_succ_cons, List.drop_zero, Option.bind_eq_bind, Option.bind_some]
  split_ifs <;> rfl

theorem decodeNecAt_eq (hdr : Symbol) (rest : List Symbol) :
    decodeNecAt ((hdr :: rest)[·]?) (rest.length + 1) hdr = some (decodeNec hdr rest) := by
  have hbits := @decodeSpaceBitsAt_eq (hdr :: rest) 562 562 1687 32 (rest.length + 1) 1
    (Nat.lt_succ_self _) 0 0
  rw [List.length_cons] at hbits
  rw [decodeNecAt, decodeNec]
  simp only [hbits, List.drop_succ_cons, List.drop_zero, Option.bind_eq_bind, Option.bind_some]
  split_ifs <;> rfl

/-- Nothing is read outside the array, and the result is that of the list. -/
theorem irDecodeAt_eq (hdr : Symbol) (rest : List Symbol) (out : Decoded) :
    irDecodeAt ((hdr :: rest)[·]?) (rest.length + 1) out = some (irDecode (hdr :: rest) out) := by
  have hrest : (fun i => (hdr :: rest)[1 + i]?) = (rest[·]?) := by
    funext i
    rw [Nat.add_comm, List.getElem?_cons_succ]
  have hall : (fun i => (hdr :: rest)[0 + i]?) = ((hdr :: rest)[·]?) := by
    funext i
    rw [Nat.zero_add]
  have hsections := @decodeSamsungAcBytesAt_eq rest IR_DECODE_MAX_RAW_BYTES (rest.length + 1) 0
    (Nat.lt_succ_self _) []
  have hsections' := @decodeSamsungAcBytesAt_eq (hdr :: rest) IR_DECODE_MAX_RAW_BYTES
    (rest.length + 2) 0 (Nat.lt_succ_self _) []
  rw [List.length_cons] at hsections'
  rw [List.drop_zero] at hsections hsections'
  rw [irDecodeAt, irDecode, if_neg (Nat.succ_ne_zero _)]
  simp only [List.getElem?_cons_zero, Option.bind_eq_bind, Option.bind_some]
  cases hglobal : globalHeader hdr with
  | true =>
      simp only [Bool.true_or, if_true, hrest, Nat.add_sub_cancel, hsections, Option.bind_some]
      rfl
  | false =>
      cases hsection : secHeader hdr with
      | true =>
          simp only [Bool.false_or, if_true, Bool.false_eq_true, if_false, hall, hsections',
            Option.bind_some]
          rfl
      | false =>
          simp only [Bool.false_or, Bool.false_eq_true, if_false, decodeLgAt_eq, decodeNecAt_eq,
            Option.bind_some]
          cases decodeLg hdr rest <;> rfl

/-! What the symbols spell. -/

/-- The bits of some symbols: 1 where the space is within the tolerance of `oneSpace`. -/
def spaceBits (oneSpace : Nat) (syms : List Symbol) : List Bool :=
  syms.map fun s => inRange s.spaceUs oneSpace

/-- The bytes of Samsung data symbols, eight each. -/
def sacBytes : List Symbol → List UInt8
  | s₀ :: s₁ :: s₂ :: s₃ :: s₄ :: s₅ :: s₆ :: s₇ :: syms =>
      UInt8.ofNat (ofBits (spaceBits SAC_ONE_SPACE [s₀, s₁, s₂, s₃, s₄, s₅, s₆, s₇])) ::
        sacBytes syms
  | _ => []

/-- The bytes behind one section header after the other. -/
def sacPayload (syms : List Symbol) : List UInt8 :=
  match syms with
  | [] => []
  | hdr :: syms =>
      if secHeader hdr then
        sacBytes (syms.take (bitRun 56 syms)) ++
          sacPayload (skipFoot (syms.drop (bitRun 56 syms)))
      else []
  termination_by syms.length
  decreasing_by
    have hskip := skipFoot_length_le (syms.drop (bitRun 56 syms))
    rw [List.length_drop] at hskip
    simp only [List.length_cons]
    omega

/-- The bytes of a capture, behind its global header if it has one. -/
def samsungPayload : List Symbol → List UInt8
  | [] => []
  | hdr :: rest => if globalHeader hdr then sacPayload rest else sacPayload (hdr :: rest)

/-- The word that the `n` symbols behind the header spell, first bit lowest. -/
def frameWord (oneSpace n : Nat) (syms : List Symbol) : Nat :=
  ofBits (spaceBits oneSpace ((syms.drop 1).take n))

theorem sacBit_of_isSome {s : Symbol} (h : (sacBit s).isSome = true) :
    sacBit s = some (if inRange s.spaceUs SAC_ONE_SPACE then 1 else 0) := by
  unfold sacBit at h ⊢
  split_ifs at h ⊢ <;> first | rfl | cases h

theorem bitRun_uncons {k n : Nat} {syms : List Symbol} (h : k + 1 ≤ bitRun (n + 1) syms) :
    ∃ s rest, syms = s :: rest ∧ (sacBit s).isSome = true ∧ k ≤ bitRun n rest ∧
      bitRun (n + 1) syms = bitRun n rest + 1 := by
  cases syms with
  | nil => cases h
  | cons s rest =>
      rw [bitRun] at h ⊢
      split at h
      · rename_i hsome
        rw [if_pos hsome]
        exact ⟨s, rest, rfl, hsome, Nat.le_of_succ_le_succ h, rfl⟩
      · cases h

theorem bitRun_add_eight {n : Nat} {syms : List Symbol} (h : 8 ≤ bitRun (n + 8) syms) :
    ∃ s₀ s₁ s₂ s₃ s₄ s₅ s₆ s₇ rest,
      syms = s₀ :: s₁ :: s₂ :: s₃ :: s₄ :: s₅ :: s₆ :: s₇ :: rest ∧
      (∀ s ∈ [s₀, s₁, s₂, s₃, s₄, s₅, s₆, s₇], (sacBit s).isSome = true) ∧
      bitRun (n + 8) syms = bitRun n rest + 8 := by
  obtain ⟨s₀, l₀, rfl, h₀, hl₀, e₀⟩ := bitRun_uncons h
  obtain ⟨s₁, l₁, rfl, h₁, hl₁, e₁⟩ := bitRun_uncons hl₀
  obtain ⟨s₂, l₂, rfl, h₂, hl₂, e₂⟩ := bitRun_uncons hl₁
  obtain ⟨s₃, l₃, rfl, h₃, hl₃, e₃⟩ := bitRun_uncons hl₂
  obtain ⟨s₄, l₄, rfl, h₄, hl₄, e₄⟩ := bitRun_uncons hl₃
  obtain ⟨s₅, l₅, rfl, h₅, hl₅, e₅⟩ := bitRun_uncons hl₄
  obtain ⟨s₆, l₆, rfl, h₆, hl₆, e₆⟩ := bitRun_uncons hl₅
  obtain ⟨s₇, l₇, rfl, h₇, -, e₇⟩ := bitRun_uncons hl₆
  refine ⟨s₀, s₁, s₂, s₃, s₄, s₅, s₆, s₇, l₇, rfl, by simp [h₀, h₁, h₂, h₃, h₄, h₅, h₆, h₇], ?_⟩
  -- each step names its own number of symbols to come
  have hlast := e₆.trans (congrArg (· + 1) e₇)
  have hback := e₃.trans (congrArg (· + 1) (e₄.trans (congrArg (· + 1)
    (e₅.trans (congrArg (· + 1) hlast)))))
  exact e₀.trans (congrArg (· + 1) (e₁.trans (congrArg (· + 1)
    (e₂.trans (congrArg (· + 1) hback)))))

/-- The byte register after eight bits, lowest first. -/
theorem byteRegister_eq (x₀ x₁ x₂ x₃ x₄ x₅ x₆ x₇ : Bool) :
    [x₀, x₁, x₂, x₃, x₄, x₅, x₆, x₇].zipIdx.foldl
      (fun (cur : UInt8) b => cur ||| ((if b.1 then 1 else 0) <<< UInt8.ofNat b.2)) 0 =
      UInt8.ofNat (ofBits [x₀, x₁, x₂, x₃, x₄, x₅, x₆, x₇]) := by
  revert x₀ x₁ x₂ x₃ x₄ x₅ x₆ x₇
  decide +kernel

theorem sacBytes_short {syms : List Symbol} (h : syms.length < 8) : sacBytes syms = [] := by
  unfold sacBytes
  split
  · simp only [List.length_cons] at h
    omega
  · rfl

/-- The bit loop stops behind the data symbols, and appends the bytes they spell as
far as these fit. -/
theorem sacBits_spells (cap k : Nat) (syms : List Symbol) (out : List UInt8) :
    sacBits cap (8 * k) syms 0 0 out =
      (syms.drop (bitRun (8 * k) syms),
        out ++ (sacBytes (syms.take (bitRun (8 * k) syms))).take (cap - out.length)) := by
  induction k generalizing syms out with
  | zero => simp [sacBits, bitRun, sacBytes]
  | succ k ih =>
      rw [Nat.mul_succ]
      by_cases hbyte : 8 ≤ bitRun (8 * k + 8) syms
      · obtain ⟨s₀, s₁, s₂, s₃, s₄, s₅, s₆, s₇, rest, rfl, hdata, hrun⟩ := bitRun_add_eight hbyte
        have hregister := byteRegister_eq (inRange s₀.spaceUs SAC_ONE_SPACE)
          (inRange s₁.spaceUs SAC_ONE_SPACE) (inRange s₂.spaceUs SAC_ONE_SPACE)
          (inRange s₃.spaceUs SAC_ONE_SPACE) (inRange s₄.spaceUs SAC_ONE_SPACE)
          (inRange s₅.spaceUs SAC_ONE_SPACE) (inRange s₆.spaceUs SAC_ONE_SPACE)
          (inRange s₇.spaceUs SAC_ONE_SPACE)
        simp only [List.zipIdx_cons, List.zipIdx_nil, List.foldl_cons, List.foldl_nil,
          Nat.zero_add, Nat.reduceAdd] at hregister
        simp only [List.forall_mem_cons] at hdata
        obtain ⟨h₀, h₁, h₂, h₃, h₄, h₅, h₆, h₇, -⟩ := hdata
        rw [hrun]
        simp only [sacBits, sacBit_of_isSome h₀, sacBit_of_isSome h₁, sacBit_of_isSome h₂,
          sacBit_of_isSome h₃, sacBit_of_isSome h₄, sacBit_of_isSome h₅, sacBit_of_isSome h₆,
          sacBit_of_isSome h₇, Nat.reduceAdd, Nat.reduceEqDiff, if_false, if_true, hregister,
          List.drop_succ_cons, List.take_succ_cons, sacBytes, ih]
        by_cases hroom : out.length < cap
        · have hleft : cap - out.length = cap - (out.length + 1) + 1 := by omega
          rw [if_pos hroom, List.length_append, List.length_singleton, List.append_assoc, hleft,
            List.take_succ_cons]
          rfl
        · have hnone : cap - out.length = 0 := by omega
          rw [if_neg hroom, hnone, List.take_zero, List.take_zero]
      · obtain ⟨hrest, new, hnew, hlen⟩ :=
          sacBits_run cap (8 * k + 8) syms 0 (Nat.zero_lt_succ 7) out
        have hnil : new = [] := by
          apply List.length_eq_zero_iff.mp
          omega
        rw [hnil] at hnew
        rw [sacBytes_short (by rw [List.length_take]; omega), List.take_nil, ← hnew, ← hrest]

/-- The decoder appends the bytes behind the headers as far as these fit. -/
theorem decodeSamsungAcBytes_eq (cap : Nat) (syms : List Symbol) (out : List UInt8) :
    decodeSamsungAcBytes cap syms out = out ++ (sacPayload syms).take (cap - out.length) := by
  induction syms, out using decodeSamsungAcBytes.induct cap with
  | case1 out => simp [decodeSamsungAcBytes, sacPayload]
  | case2 out hdr syms hcond ih =>
      have hloop : sacBits cap 56 syms 0 0 out = (syms.drop (bitRun 56 syms),
          out ++ (sacBytes (syms.take (bitRun 56 syms))).take (cap - out.length)) :=
        sacBits_spells cap 7 syms out
      rw [hloop] at ih
      rw [decodeSamsungAcBytes, if_pos hcond, hloop, ih, sacPayload, if_pos hcond.2,
        List.take_append, List.append_assoc]
      congr 3
      rw [List.length_append, List.length_take]
      omega
  | case3 out hdr syms hcond =>
      rw [decodeSamsungAcBytes, if_neg hcond, sacPayload]
      by_cases hhdr : secHeader hdr = true
      · have hfull : cap - out.length = 0 := by
          have hroom : ¬out.length < cap := fun hlt => hcond ⟨hlt, hhdr⟩
          omega
        rw [hfull, List.take_zero, List.append_nil]
      · rw [if_neg hhdr, List.take_nil, List.append_nil]

/-- A word that `decode_space_bits` completes is the one its symbols spell. -/
theorem decodeSpaceBits_spells {bitMark zeroSpace oneSpace maxBits : Nat} (hmax : maxBits ≤ 32)
    (hone : zeroSpace * 5 / 4 < oneSpace * 3 / 4) {syms : List Symbol} {n : Nat}
    {acc word : UInt32} (hn : n ≤ maxBits)
    (h : decodeSpaceBits bitMark zeroSpace oneSpace maxBits syms n acc = (maxBits, word)) :
    word.toNat = collect acc.toNat n (spaceBits oneSpace (syms.take (maxBits - n))) := by
  have hdone : ∀ {n : Nat} {acc : UInt32} {syms : List Symbol}, (n, acc) = (maxBits, word) →
      word.toNat = collect acc.toNat n (spaceBits oneSpace (syms.take (maxBits - n))) := by
    intro n acc syms h
    obtain ⟨rfl, rfl⟩ := Prod.mk.inj h
    simp [spaceBits, collect]
  have hzero_not : ∀ v : UInt16, v.toNat ≤ zeroSpace * 5 / 4 → inRange v oneSpace = false := by
    intro v hv
    rw [Bool.eq_false_iff, ne_eq, inRange_iff]
    omega
  induction syms generalizing n acc with
  | nil => exact hdone h
  | cons s syms ih =>
      rw [decodeSpaceBits] at h
      by_cases hlt : n < maxBits
      · have hcount : maxBits - n = maxBits - (n + 1) + 1 := by omega
        rw [if_pos hlt] at h
        rw [hcount, List.take_succ_cons]
        split_ifs at h with hmark hstop hzero hones
        · obtain ⟨rfl, -⟩ := Prod.mk.inj h
          exact absurd hlt (Nat.lt_irrefl _)
        · have hbit : inRange s.spaceUs oneSpace = false :=
            hzero_not s.spaceUs (by rw [hstop]; exact Nat.zero_le _)
          have hlast := @hdone (n + 1) acc syms h
          simpa [spaceBits, collect, hbit] using hlast
        · have hbit := hzero_not s.spaceUs (inRange_iff.mp hzero).2
          have hnext := ih (by omega) h
          simpa [spaceBits, collect, hbit] using hnext
        · have hnext := ih (by omega) h
          rw [UInt32.toNat_lor_one_shiftLeft acc (by omega)] at hnext
          simpa [spaceBits, collect, hones] using hnext
        · obtain ⟨rfl, -⟩ := Prod.mk.inj h
          exact absurd hlt (Nat.lt_irrefl _)
      · rw [if_neg hlt] at h
        exact hdone h

/-- The word behind a header, where it is complete. -/
theorem frameWord_of_complete {bitMark zeroSpace oneSpace maxBits : Nat} (hmax : maxBits ≤ 32)
    (hone : zeroSpace * 5 / 4 < oneSpace * 3 / 4) (hdr : Symbol) {syms : List Symbol}
    (h : (decodeSpaceBits bitMark zeroSpace oneSpace maxBits syms 0 0).1 = maxBits) :
    (decodeSpaceBits bitMark zeroSpace oneSpace maxBits syms 0 0).2.toNat =
      frameWord oneSpace maxBits (hdr :: syms) := by
  rw [decodeSpaceBits_spells hmax hone (Nat.zero_le _) (Prod.ext h rfl), UInt32.toNat_zero,
    collect_eq 0 0 _ (by decide), Nat.zero_add, Nat.pow_zero, Nat.one_mul]
  rfl

/-! The contract. -/

/-- What the comments of `ir_decoded_t` say about the fields of each protocol, and
nothing in the others. -/
def Decoded.Filled (syms : List Symbol) (dec : Decoded) : Prop :=
  match dec.proto with
  | .unknown => False
  | .nec =>
      dec.rawBits.toNat = frameWord 1687 32 syms ∧
        byteAt dec.rawBits 0 ^^^ byteAt dec.rawBits 8 = 0xFF ∧
        byteAt dec.rawBits 16 ^^^ byteAt dec.rawBits 24 = 0xFF ∧
        dec = {Decoded.zero with
          proto := .nec
          address := (byteAt dec.rawBits 0).toUInt16
          command := byteAt dec.rawBits 16
          rawBits := dec.rawBits
          bitCount := 32}
  | .necExt =>
      dec.rawBits.toNat = frameWord 1687 32 syms ∧
        byteAt dec.rawBits 0 ^^^ byteAt dec.rawBits 8 ≠ 0xFF ∧
        byteAt dec.rawBits 16 ^^^ byteAt dec.rawBits 24 = 0xFF ∧
        dec = {Decoded.zero with
          proto := .necExt
          address := ((byteAt dec.rawBits 8).toUInt16 <<< 8) |||
            (byteAt dec.rawBits 0).toUInt16
          command := byteAt dec.rawBits 16
          rawBits := dec.rawBits
          bitCount := 32}
  | .necRepeat => dec = {Decoded.zero with proto := .necRepeat, repeated := true}
  | .lgAc =>
      dec.rawBits.toNat = frameWord 1600 28 syms ∧
        byteAt dec.rawBits 8 ^^^ byteAt dec.rawBits 16 = 0xFF ∧
        dec = {Decoded.zero with
          proto := .lgAc
          address := (byteAt dec.rawBits 0).toUInt16
          command := byteAt dec.rawBits 8
          rawBits := dec.rawBits
          bitCount := 28}
  | .samsungAc =>
      0 < dec.byteCount.toNat ∧
        dec.byteCount.toNat = min IR_DECODE_MAX_RAW_BYTES (samsungPayload syms).length ∧
        dec = {Decoded.zero with
          proto := .samsungAc
          rawBytes := (samsungPayload syms).take IR_DECODE_MAX_RAW_BYTES ++
            List.replicate (IR_DECODE_MAX_RAW_BYTES - dec.byteCount.toNat) 0
          byteCount := dec.byteCount}

/-- Success with a known protocol and its fields as the symbols spell them, or -2 and
nothing at all. -/
def MeetsContract (syms : List Symbol) (r : Int × Decoded) : Prop :=
  (r.1 = 0 ∧ r.2.proto ≠ .unknown ∧ r.2.Filled syms) ∨ (r.1 = -2 ∧ r.2 = .zero)

/-- One of the section headers met is followed by eight data symbols. -/
def HasByte (syms : List Symbol) : Prop :=
  match syms with
  | [] => False
  | hdr :: syms =>
      secHeader hdr = true ∧
        (8 ≤ bitRun 56 syms ∨ HasByte (skipFoot (syms.drop (bitRun 56 syms))))
  termination_by syms.length
  decreasing_by
    have hskip := skipFoot_length_le (syms.drop (bitRun 56 syms))
    rw [List.length_drop] at hskip
    simp only [List.length_cons]
    omega

/-- A capture with a Samsung header has a byte in one of its sections. -/
def SamsungHasByte : List Symbol → Prop
  | [] => True
  | hdr :: rest =>
      if globalHeader hdr then HasByte rest
      else if secHeader hdr then HasByte (hdr :: rest)
      else True

theorem hasByte_iff (syms : List Symbol) :
    HasByte syms ↔ 0 < (decodeSamsungAcBytes IR_DECODE_MAX_RAW_BYTES syms []).length := by
  generalize hout : ([] : List UInt8) = out
  induction syms, out using decodeSamsungAcBytes.induct IR_DECODE_MAX_RAW_BYTES with
  | case1 out => simp [HasByte, decodeSamsungAcBytes, ← hout]
  | case2 out hdr syms hcond ih =>
      obtain ⟨hrest, new, hnew, hlen⟩ :=
        sacBits_run IR_DECODE_MAX_RAW_BYTES 56 syms 0 (Nat.zero_lt_succ 7) out
      subst hout
      rw [List.length_nil, IR_DECODE_MAX_RAW_BYTES, Nat.zero_add] at hlen
      rw [HasByte, decodeSamsungAcBytes, if_pos hcond]
      by_cases hbyte : 8 ≤ bitRun 56 syms
      · apply iff_of_true ⟨hcond.2, Or.inl hbyte⟩
        rw [sacVisits_bytes _ 0, hnew, List.length_append, List.length_append, hlen]
        omega
      · have hnil : new = [] := by
          apply List.length_eq_zero_iff.mp
          omega
        rw [hnil] at hnew
        rw [← ih hnew.symm, hrest]
        simp [hcond.2, hbyte]
  | case3 out hdr syms hcond =>
      subst hout
      have hno : ¬secHeader hdr = true := fun hhdr => hcond ⟨by decide, hhdr⟩
      rw [HasByte, decodeSamsungAcBytes, if_neg hcond]
      simp [hno]

theorem decodeSamsung_contract {syms first : List Symbol}
    (hfirst : samsungPayload syms = sacPayload first) :
    MeetsContract syms (decodeSamsung first) ↔ HasByte first := by
  have hbytes : decodeSamsungAcBytes IR_DECODE_MAX_RAW_BYTES first [] =
      (samsungPayload syms).take IR_DECODE_MAX_RAW_BYTES := by
    rw [decodeSamsungAcBytes_eq, hfirst]
    rfl
  rw [hasByte_iff]
  constructor
  · rintro (⟨hrc, -⟩ | ⟨-, hzero⟩)
    · by_contra hno
      rw [decodeSamsung] at hrc
      dsimp only at hrc
      rw [if_neg hno] at hrc
      cases hrc
    · have hproto := congrArg Decoded.proto hzero
      cases hproto
  · intro hpos
    left
    have hlen : (decodeSamsungAcBytes IR_DECODE_MAX_RAW_BYTES first []).length =
        min IR_DECODE_MAX_RAW_BYTES (samsungPayload syms).length := by
      rw [hbytes, List.length_take]
    have hcount : (decodeSamsung first).2.byteCount.toNat =
        (decodeSamsungAcBytes IR_DECODE_MAX_RAW_BYTES first []).length := by
      have hlt : (decodeSamsungAcBytes IR_DECODE_MAX_RAW_BYTES first []).length < 256 := by
        rw [hlen]
        exact Nat.lt_of_le_of_lt (Nat.min_le_left _ _) (by decide)
      exact (UInt8.toNat_ofNat').trans (Nat.mod_eq_of_lt hlt)
    refine ⟨if_pos hpos, by simp [decodeSamsung], ?_⟩
    change 0 < (decodeSamsung first).2.byteCount.toNat ∧
      (decodeSamsung first).2.byteCount.toNat = _ ∧ (decodeSamsung first).2 = _
    rw [hcount, ← hbytes]
    exact ⟨hpos, hlen, rfl⟩

theorem decodeLg_filled {hdr : Symbol} {syms : List Symbol} {dec : Decoded}
    (h : decodeLg hdr syms = some dec) : dec.Filled (hdr :: syms) := by
  unfold decodeLg at h
  dsimp only at h
  split_ifs at h with _ hbits hcmd
  have hword := frameWord_of_complete (by decide) (by decide) hdr hbits
  rw [← Option.some.inj h, hbits]
  exact ⟨hword, hcmd, rfl⟩

theorem decodeNec_contract (hdr : Symbol) (syms : List Symbol) :
    MeetsContract (hdr :: syms) (decodeNec hdr syms) := by
  unfold decodeNec
  dsimp only
  split_ifs with hmark hrepeat hfull hbits hcmd haddr
  · exact Or.inr ⟨rfl, rfl⟩
  · exact Or.inl ⟨rfl, by simp, rfl⟩
  · exact Or.inr ⟨rfl, rfl⟩
  · have hword := frameWord_of_complete (by decide) (by decide) hdr hbits
    rw [hbits]
    exact Or.inl ⟨rfl, by simp, hword, haddr, not_not.mp hcmd, rfl⟩
  · have hword := frameWord_of_complete (by decide) (by decide) hdr hbits
    rw [hbits]
    exact Or.inl ⟨rfl, by simp, hword, haddr, not_not.mp hcmd, rfl⟩
  · exact Or.inr ⟨rfl, rfl⟩
  · exact Or.inr ⟨rfl, rfl⟩

/-- For every array that is not empty: nothing is read beyond its end, and the
result meets the contract if and only if a Samsung capture has a byte in it. -/
theorem decode_contract_iff (hdr : Symbol) (rest : List Symbol) (out : Decoded) :
    irDecodeAt ((hdr :: rest)[·]?) (rest.length + 1) out = some (irDecode (hdr :: rest) out) ∧
      (MeetsContract (hdr :: rest) (irDecode (hdr :: rest) out) ↔
        SamsungHasByte (hdr :: rest)) := by
  refine ⟨irDecodeAt_eq hdr rest out, ?_⟩
  rw [irDecode, SamsungHasByte]
  split_ifs with hglobal
  · exact decodeSamsung_contract (if_pos hglobal)
  · exact decodeSamsung_contract (if_neg hglobal)
  · rw [iff_true]
    cases hlg : decodeLg hdr rest with
    | some dec =>
        left
        refine ⟨rfl, ?_, decodeLg_filled hlg⟩
        rw [decodeLg_proto hlg]
        simp
    | none => exact decodeNec_contract hdr rest

/-- A section header alone is refused, and called a Samsung frame. -/
theorem lone_header_contract :
    (irDecode [⟨3086, 8864⟩] .zero).1 = -2 ∧
      (irDecode [⟨3086, 8864⟩] .zero).2.proto = .samsungAc ∧
      ¬MeetsContract [⟨3086, 8864⟩] (irDecode [⟨3086, 8864⟩] .zero) := by
  have hbytes : decodeSamsungAcBytes IR_DECODE_MAX_RAW_BYTES [⟨3086, 8864⟩] [] = [] := by
    have hloop : sacBits IR_DECODE_MAX_RAW_BYTES 56 [] 0 0 [] = ([], []) := rfl
    have hhdr : ([] : List UInt8).length < IR_DECODE_MAX_RAW_BYTES ∧
        secHeader ⟨3086, 8864⟩ = true := by
      decide
    rw [decodeSamsungAcBytes, if_pos hhdr, hloop, skipFoot, decodeSamsungAcBytes]
  have hdecode : irDecode [⟨3086, 8864⟩] .zero = decodeSamsung [⟨3086, 8864⟩] := by
    have hglobal : globalHeader ⟨3086, 8864⟩ = false := by decide
    have hsection : secHeader ⟨3086, 8864⟩ = true := by decide
    simp only [irDecode, hglobal, hsection, Bool.false_eq_true, if_false, if_true]
  have hrc : (decodeSamsung [⟨3086, 8864⟩]).1 = -2 := by
    rw [decodeSamsung, hbytes]
    rfl
  rw [hdecode]
  refine ⟨hrc, rfl, ?_⟩
  rintro (⟨hok, -⟩ | ⟨-, hzero⟩)
  · rw [hrc] at hok
    cases hok
  · have hproto := congrArg Decoded.proto hzero
    cases hproto

end Rw612.Ir
