import Mathlib.Data.List.Forall2
import Rw612.Ir.Decode

/-!
The Samsung encoder and the two Samsung decoders agree. A received array may
differ from the encoded one in every duration, as long as each stays within the
decoder's window around its nominal value; the space of a section foot may be
anything. Both decoders then recover the payload, section by section.
-/

namespace Rw612.Ir

/-- The foot of a section, told by its nominal space. -/
def isFoot (s : Symbol) : Bool :=
  s.spaceUs == IR_SAC_GAP_US || s.spaceUs == IR_SAC_FINAL_GAP_US

/-- `got` is a reception of the nominal symbol within the tolerance. -/
def Tolerated (nominal got : Symbol) : Prop :=
  inRange got.markUs nominal.markUs.toNat = true ∧
    (isFoot nominal = true ∨
      inRange got.spaceUs nominal.spaceUs.toNat = true)

theorem inRange_self (v : UInt16) : inRange v v.toNat = true := by
  rw [inRange_iff]
  omega

theorem tolerated_self (s : Symbol) : Tolerated s s :=
  ⟨inRange_self s.markUs, Or.inr (inRange_self s.spaceUs)⟩

/-- The windows of the two data spaces are disjoint. -/
theorem not_one_of_zero {v : UInt16} (h : inRange v SAC_ZERO_SPACE = true) :
    inRange v SAC_ONE_SPACE = false := by
  rw [Bool.eq_false_iff, ne_eq, inRange_iff]
  rw [inRange_iff] at h
  simp only [SAC_ZERO_SPACE, SAC_ONE_SPACE] at h ⊢
  omega

/-- The windows of the global header and of a section header are disjoint. -/
theorem not_global_of_section {s : Symbol} (h : secHeader s = true) :
    globalHeader s = false := by
  rw [Bool.eq_false_iff, ne_eq]
  simp only [secHeader, globalHeader, SAC_SEC_MARK, SAC_SEC_SPACE,
    Bool.and_eq_true, inRange_iff] at h ⊢
  omega

theorem sacBit_of_tolerated {bit : UInt8} (hbit : bit = 0 ∨ bit = 1)
    {got : Symbol} (h : Tolerated (bitSymbol bit) got) :
    sacBit got = some bit := by
  obtain ⟨hmark, hspace⟩ := h
  have hmark' : inRange got.markUs SAC_BIT_MARK = true := hmark
  rcases hbit with rfl | rfl
  · have hzero : inRange got.spaceUs SAC_ZERO_SPACE = true :=
      hspace.resolve_left (by decide)
    simp [sacBit, hmark', hzero, not_one_of_zero hzero]
  · have hone : inRange got.spaceUs SAC_ONE_SPACE = true :=
      hspace.resolve_left (by decide)
    simp [sacBit, hmark', hone]

/-- The symbols carry these bits, one each. -/
def ReadsBits : List UInt8 → List Symbol → Prop :=
  List.Forall₂ (fun bit s => sacBit s = some bit)

/-- The eight symbols of one byte, taken off the front. -/
theorem ReadsBits.byte {b : UInt8} {bits : List UInt8} {syms : List Symbol}
    (h : ReadsBits (byteBits b ++ bits) syms) :
    ∃ s₀ s₁ s₂ s₃ s₄ s₅ s₆ s₇ rest,
      syms = s₀ :: s₁ :: s₂ :: s₃ :: s₄ :: s₅ :: s₆ :: s₇ :: rest ∧
      sacBit s₀ = some (bitAt b 0) ∧ sacBit s₁ = some (bitAt b 1) ∧
      sacBit s₂ = some (bitAt b 2) ∧ sacBit s₃ = some (bitAt b 3) ∧
      sacBit s₄ = some (bitAt b 4) ∧ sacBit s₅ = some (bitAt b 5) ∧
      sacBit s₆ = some (bitAt b 6) ∧ sacBit s₇ = some (bitAt b 7) ∧
      ReadsBits bits rest := by
  rcases h with _ | ⟨h₀, _ | ⟨h₁, _ | ⟨h₂, _ | ⟨h₃, _ | ⟨h₄, _ | ⟨h₅,
    _ | ⟨h₆, _ | ⟨h₇, hrest⟩⟩⟩⟩⟩⟩⟩⟩
  exact ⟨_, _, _, _, _, _, _, _, _, rfl, h₀, h₁, h₂, h₃, h₄, h₅, h₆, h₇, hrest⟩

/-- The bit loop reads a list of bytes that fits below `cap`. -/
theorem sacBits_reads (cap : Nat) (bytes : List UInt8) (bits rest : List Symbol)
    (out : List UInt8) (hbits : ReadsBits (bytes.flatMap byteBits) bits)
    (hcap : out.length + bytes.length ≤ cap) :
    sacBits cap (8 * bytes.length) (bits ++ rest) 0 0 out =
      (rest, out ++ bytes) := by
  induction bytes generalizing bits out with
  | nil =>
      obtain rfl : bits = [] := List.forall₂_nil_left_iff.mp hbits
      simp [sacBits]
  | cons b bytes ih =>
      obtain ⟨s₀, s₁, s₂, s₃, s₄, s₅, s₆, s₇, tail, rfl, h₀, h₁, h₂, h₃, h₄, h₅,
        h₆, h₇, htail⟩ := hbits.byte
      have hlength : 8 * (b :: bytes).length = 8 * bytes.length + 8 := by
        simp [Nat.mul_add]
      have hroom : out.length < cap := by
        simp only [List.length_cons] at hcap
        omega
      have hbyte := byte_of_bits b
      simp only [List.range, List.range.loop, List.foldl_cons, List.foldl_nil]
        at hbyte
      rw [hlength]
      simp only [List.cons_append, sacBits, h₀, h₁, h₂, h₃, h₄, h₅, h₆, h₇,
        hbyte, if_pos hroom, Nat.reduceAdd, Nat.reduceEqDiff, if_false, if_true]
      rw [ih tail (out ++ [b]) htail (by simp at hcap ⊢; omega)]
      simp

/-- So does the bit loop of the section decoder. -/
theorem sacSectionBits_reads (bytes : List UInt8) (bits rest : List Symbol)
    (out : List UInt8) (hbits : ReadsBits (bytes.flatMap byteBits) bits) :
    sacSectionBits (8 * bytes.length) (bits ++ rest) 0 0 out =
      (1, out ++ bytes) := by
  induction bytes generalizing bits out with
  | nil => simp [sacSectionBits]
  | cons b bytes ih =>
      obtain ⟨s₀, s₁, s₂, s₃, s₄, s₅, s₆, s₇, tail, rfl, h₀, h₁, h₂, h₃, h₄, h₅,
        h₆, h₇, htail⟩ := hbits.byte
      have hlength : 8 * (b :: bytes).length = 8 * bytes.length + 8 := by
        simp [Nat.mul_add]
      have hbyte := byte_of_bits b
      simp only [List.range, List.range.loop, List.foldl_cons, List.foldl_nil]
        at hbyte
      rw [hlength]
      simp only [List.cons_append, sacSectionBits, h₀, h₁, h₂, h₃, h₄, h₅, h₆,
        h₇, hbyte, Nat.reduceAdd, Nat.reduceEqDiff, if_false, if_true]
      rw [ih tail (out ++ [b]) htail]
      simp

/-- A well-formed reception of sections: header, 56 data symbols and foot of
each, one after the other. -/
inductive ReadsSections : List (List UInt8) → List Symbol → Prop
  | nil : ReadsSections [] []
  | cons {sec : List UInt8} {secs : List (List UInt8)} {hdr foot : Symbol}
      {bits rest : List Symbol} (hlength : sec.length = 7)
      (hhdr : secHeader hdr = true)
      (hbits : ReadsBits (sec.flatMap byteBits) bits)
      (hfoot : inRange foot.markUs SAC_BIT_MARK = true)
      (hrest : ReadsSections secs rest) :
      ReadsSections (sec :: secs) (hdr :: (bits ++ foot :: rest))

theorem ReadsBits.length_eq {bits : List UInt8} {syms : List Symbol}
    (h : ReadsBits bits syms) : syms.length = bits.length :=
  (List.Forall₂.length_eq h).symm

theorem flatMap_byteBits_length (sec : List UInt8) :
    (sec.flatMap byteBits).length = 8 * sec.length := by
  induction sec with
  | nil => rfl
  | cons b sec ih =>
      simp only [List.flatMap_cons, List.length_append, ih, List.length_cons,
        byteBits, List.length_map, List.length_range]
      omega

/-- The frame decoder yields all sections in order, as far as they fit. -/
theorem decodeSamsungAcBytes_reads {cap : Nat} {secs : List (List UInt8)}
    {syms : List Symbol} (h : ReadsSections secs syms) (out : List UInt8)
    (hcap : out.length + 7 * secs.length ≤ cap) :
    decodeSamsungAcBytes cap syms out = out ++ secs.flatten := by
  induction h generalizing out with
  | nil => simp [decodeSamsungAcBytes]
  | @cons sec secs hdr foot bits rest hlength hhdr hbits hfoot hrest ih =>
      have hroom : out.length + sec.length ≤ cap := by
        simp only [List.length_cons] at hcap
        omega
      have hbit := sacBits_reads cap sec bits (foot :: rest) out hbits hroom
      rw [hlength] at hbit
      have hskip : skipFoot (foot :: rest) = rest := by simp [skipFoot, hfoot]
      have hlt : out.length < cap := by omega
      rw [decodeSamsungAcBytes, if_pos ⟨hlt, hhdr⟩, hbit, hskip]
      rw [ih (out ++ sec) (by simp at hcap ⊢; omega)]
      simp

/-- The section decoder finds section `k` at its own offset. -/
theorem irDecodeSamsungAcSection_reads {secs : List (List UInt8)}
    {syms : List Symbol} (h : ReadsSections secs syms) (k : Nat)
    (hk : k < secs.length) :
    ∃ hdr bits foot rest, syms.drop (k * 58) = hdr :: (bits ++ foot :: rest) ∧
      secHeader hdr = true ∧ (secs[k]).length = 7 ∧
      ReadsBits ((secs[k]).flatMap byteBits) bits := by
  induction h generalizing k with
  | nil => simp at hk
  | @cons sec secs hdr foot bits rest hlength hhdr hbits hfoot hrest ih =>
      cases k with
      | zero => exact ⟨hdr, bits, foot, rest, by simp, hhdr, hlength, hbits⟩
      | succ k =>
          have hlen : bits.length = 56 := by
            rw [hbits.length_eq, flatMap_byteBits_length, hlength]
          have hsplit : hdr :: (bits ++ foot :: rest) =
              (hdr :: bits ++ [foot]) ++ rest := by simp
          have hfront : (hdr :: bits ++ [foot]).length = 58 := by simp [hlen]
          have hdrop : (hdr :: (bits ++ foot :: rest)).drop ((k + 1) * 58) =
              rest.drop (k * 58) := by
            rw [hsplit, show (k + 1) * 58 = 58 + k * 58 by omega,
              ← List.drop_drop, ← hfront, List.drop_left]
          rw [hdrop]
          simpa using ih k (by simpa using hk)

theorem sectionDecode_reads {secs : List (List UInt8)} {syms : List Symbol}
    (h : ReadsSections secs syms) (k : UInt8) (hk : k.toNat < secs.length) :
    irDecodeSamsungAcSection syms k = (1, secs[k.toNat]) := by
  obtain ⟨hdr, bits, foot, rest, hdrop, hhdr, hlength, hbits⟩ :=
    irDecodeSamsungAcSection_reads h k.toNat hk
  have hbitsLen : bits.length = 56 := by
    rw [hbits.length_eq, flatMap_byteBits_length, hlength]
  have hlong : ¬ syms.length ≤ k.toNat * 58 + 57 := by
    have hlen := congrArg List.length hdrop
    simp only [List.length_drop, List.length_cons, List.length_append,
      hbitsLen] at hlen
    omega
  have hread := sacSectionBits_reads secs[k.toNat] bits (foot :: rest) [] hbits
  rw [hlength] at hread
  unfold irDecodeSamsungAcSection
  rw [if_neg hlong, hdrop]
  simp only [hhdr, if_true]
  exact hread

/-- Splitting a pairwise relation along an append on its left. -/
theorem forall₂_append_left {α β : Type*} {R : α → β → Prop}
    {front back : List α} {all : List β}
    (h : List.Forall₂ R (front ++ back) all) :
    ∃ front' back', all = front' ++ back' ∧ List.Forall₂ R front front' ∧
      List.Forall₂ R back back' := by
  induction front generalizing all with
  | nil => exact ⟨[], all, rfl, List.Forall₂.nil, h⟩
  | cons a front ih =>
      obtain ⟨b, rest, hab, hrest, rfl⟩ := List.forall₂_cons_left_iff.mp h
      obtain ⟨front', back', rfl, hfront, hback⟩ := ih hrest
      exact ⟨b :: front', back', rfl, List.Forall₂.cons hab hfront, hback⟩

/-- Section `s` of a payload. -/
def sectionOf (data : List UInt8) (s : Nat) : List UInt8 :=
  (data.drop (s * IR_SAC_SECTION_BYTES)).take 7

theorem sectionOf_length {data : List UInt8} {s : Nat}
    (h : s * 7 + 7 ≤ data.length) : (sectionOf data s).length = 7 := by
  simp only [sectionOf, IR_SAC_SECTION_BYTES, List.length_take,
    List.length_drop]
  omega

/-- The data symbols the encoder emits for a section are its bytes' bits. -/
theorem encodeSection_bits {data : List UInt8} {s : Nat}
    (h : s * 7 + 7 ≤ data.length) :
    (List.range 56).map (bitLsbf (data.drop (s * IR_SAC_SECTION_BYTES))) =
      (sectionOf data s).flatMap byteBits := by
  have hlen : 7 ≤ (data.drop (s * IR_SAC_SECTION_BYTES)).length := by
    simp only [IR_SAC_SECTION_BYTES, List.length_drop]
    omega
  unfold sectionOf
  generalize data.drop (s * IR_SAC_SECTION_BYTES) = sec at hlen ⊢
  match sec, hlen with
  | b₀ :: b₁ :: b₂ :: b₃ :: b₄ :: b₅ :: b₆ :: rest, _ =>
      exact bitLsbf_section b₀ b₁ b₂ b₃ b₄ b₅ b₆ rest

theorem readsBits_of_tolerated {bits : List UInt8} {got : List Symbol}
    (hbits : ∀ bit ∈ bits, bit = 0 ∨ bit = 1)
    (h : List.Forall₂ Tolerated (bits.map bitSymbol) got) :
    ReadsBits bits got := by
  induction bits generalizing got with
  | nil =>
      obtain rfl : got = [] := List.forall₂_nil_left_iff.mp h
      exact List.Forall₂.nil
  | cons bit bits ih =>
      obtain ⟨s, rest, hs, hrest, rfl⟩ := List.forall₂_cons_left_iff.mp h
      refine List.Forall₂.cons ?_ (ih (fun b hb => hbits b (by simp [hb])) hrest)
      exact sacBit_of_tolerated (hbits bit (by simp)) hs

theorem tolerated_global {got : Symbol}
    (h : Tolerated ⟨IR_SAC_HDR_MARK_US, IR_SAC_HDR_SPACE_US⟩ got) :
    globalHeader got = true := by
  obtain ⟨hmark, hspace⟩ := h
  have hmark' : inRange got.markUs 690 = true := hmark
  have hspace' : inRange got.spaceUs 17844 = true :=
    hspace.resolve_left (by decide)
  simp [globalHeader, hmark', hspace']

theorem tolerated_header {got : Symbol}
    (h : Tolerated ⟨IR_SAC_SEC_MARK_US, IR_SAC_SEC_SPACE_US⟩ got) :
    secHeader got = true := by
  obtain ⟨hmark, hspace⟩ := h
  have hmark' : inRange got.markUs SAC_SEC_MARK = true := hmark
  have hspace' : inRange got.spaceUs SAC_SEC_SPACE = true :=
    hspace.resolve_left (by decide)
  simp [secHeader, hmark', hspace']

/-- Every tolerated reception of encoded sections is well formed and carries
the payload's sections. -/
theorem readsSections_of_tolerated {data : List UInt8} (nsec m s : Nat)
    (hdata : (s + m) * 7 ≤ data.length) {got : List Symbol}
    (h : List.Forall₂ Tolerated
      ((List.range' s m).flatMap (encodeSection data nsec)) got) :
    ReadsSections ((List.range' s m).map (sectionOf data)) got := by
  induction m generalizing s got with
  | zero =>
      have hgot : got = [] := by simpa using h
      subst hgot
      exact ReadsSections.nil
  | succ m ih =>
      have hfits : s * 7 + 7 ≤ data.length := by omega
      rw [List.range'_succ, List.flatMap_cons] at h
      obtain ⟨section', rest, rfl, hsection, hrest⟩ := forall₂_append_left h
      unfold encodeSection at hsection
      obtain ⟨headed, feet, rfl, hheaded, hfeet⟩ := forall₂_append_left hsection
      obtain ⟨heads, bits, rfl, hheads, hbits⟩ := forall₂_append_left hheaded
      obtain ⟨hdr, tail, hhdr, htail, rfl⟩ := List.forall₂_cons_left_iff.mp hheads
      obtain rfl : tail = [] := List.forall₂_nil_left_iff.mp htail
      obtain ⟨foot, tail, hfoot, htail, rfl⟩ := List.forall₂_cons_left_iff.mp hfeet
      obtain rfl : tail = [] := List.forall₂_nil_left_iff.mp htail
      have hmap : (List.range 56).map (fun k =>
          bitSymbol (bitLsbf (data.drop (s * IR_SAC_SECTION_BYTES)) k)) =
          ((sectionOf data s).flatMap byteBits).map bitSymbol := by
        rw [← encodeSection_bits hfits, List.map_map]
        rfl
      rw [hmap] at hbits
      have hbit : ∀ bit ∈ (sectionOf data s).flatMap byteBits,
          bit = 0 ∨ bit = 1 := by
        intro bit member
        obtain ⟨b, _, hb⟩ := List.mem_flatMap.mp member
        obtain ⟨k, _, rfl⟩ := List.mem_map.mp hb
        exact bitAt_eq b k
      have hreads := ReadsSections.cons (sectionOf_length hfits)
        (tolerated_header hhdr) (readsBits_of_tolerated hbit hbits) hfoot.1
        (ih (s + 1) (by omega) hrest)
      rw [List.range'_succ, List.map_cons]
      simpa using hreads

/-- The sections of a payload, joined, are the payload. -/
theorem sections_flatten (data : List UInt8) (m s : Nat)
    (h : data.length = (s + m) * 7) :
    ((List.range' s m).map (sectionOf data)).flatten = data.drop (s * 7) := by
  induction m generalizing s with
  | zero => simp [h]
  | succ m ih =>
      rw [List.range'_succ, List.map_cons, List.flatten_cons,
        ih (s + 1) (by omega), sectionOf, IR_SAC_SECTION_BYTES,
        show (s + 1) * 7 = s * 7 + 7 by omega, ← List.drop_drop,
        List.take_append_drop]

theorem ReadsSections.head {sec : List UInt8} {secs : List (List UInt8)}
    {syms : List Symbol} (h : ReadsSections (sec :: secs) syms) :
    ∃ hdr rest, syms = hdr :: rest ∧ secHeader hdr = true := by
  cases h with
  | @cons _ _ hdr foot bits rest hlength hhdr hbits hfoot hrest =>
      exact ⟨hdr, bits ++ foot :: rest, rfl, hhdr⟩

/-- What `ir_decode` reports once it has recognised one of the two headers. -/
theorem decodeSamsung_reads {secs : List (List UInt8)} {syms : List Symbol}
    {payload : List UInt8} (h : ReadsSections secs syms)
    (hpayload : secs.flatten = payload) (hpos : 0 < payload.length)
    (hfits : 7 * secs.length ≤ IR_DECODE_MAX_RAW_BYTES)
    (hbound : payload.length ≤ IR_DECODE_MAX_RAW_BYTES) :
    ∃ dec, decodeSamsung syms = (0, dec) ∧ dec.proto = .samsungAc ∧
      dec.byteCount.toNat = payload.length ∧
      dec.rawBytes.take payload.length = payload := by
  have hbytes : decodeSamsungAcBytes IR_DECODE_MAX_RAW_BYTES syms [] = payload := by
    rw [decodeSamsungAcBytes_reads h [] (by simpa using hfits), hpayload]
    rfl
  unfold decodeSamsung
  simp only [hbytes, if_pos hpos]
  refine ⟨_, rfl, rfl, ?_, by simp⟩
  simp only [IR_DECODE_MAX_RAW_BYTES] at hbound
  exact UInt8.toNat_ofNat_of_lt' (by show payload.length < 2 ^ 8; omega)

/-- What the encoder makes of whole sections. -/
theorem irCodecSamsungAcEncode_eq {payload : List UInt8} {nsec : Nat}
    (hlen : payload.length = nsec * 7) (hpos : 1 ≤ nsec) (hmax : nsec ≤ 3) (outCap : Nat) :
    irCodecSamsungAcEncode payload outCap =
      if outCap < 1 + 58 * nsec then .error (-4)
      else .ok (⟨IR_SAC_HDR_MARK_US, IR_SAC_HDR_SPACE_US⟩ ::
        (List.range' 0 nsec).flatMap (encodeSection payload nsec)) := by
  have hdiv : payload.length / 7 = nsec := by omega
  simp only [irCodecSamsungAcEncode, IR_SAC_SECTION_BYTES, IR_SAC_MAX_BYTES, hdiv]
  rw [if_neg (by omega), if_neg (by omega), List.range_eq_range']

theorem decodeSamsung_tolerated {payload : List UInt8} {nsec : Nat}
    (hlen : payload.length = nsec * 7) (hpos : 1 ≤ nsec) (hmax : nsec ≤ 3)
    {syms : List Symbol} (hsyms : List.Forall₂ Tolerated
      ((List.range' 0 nsec).flatMap (encodeSection payload nsec)) syms) :
    ∃ dec, decodeSamsung syms = (0, dec) ∧ dec.proto = .samsungAc ∧
      dec.byteCount.toNat = payload.length ∧
      dec.rawBytes.take payload.length = payload := by
  have hreads := readsSections_of_tolerated nsec nsec 0 (by omega) hsyms
  have hflat : ((List.range' 0 nsec).map (sectionOf payload)).flatten = payload := by
    rw [sections_flatten payload nsec 0 (by omega)]
    rfl
  exact decodeSamsung_reads hreads hflat (by omega)
    (by simp [IR_DECODE_MAX_RAW_BYTES]; omega)
    (by simp only [IR_DECODE_MAX_RAW_BYTES]; omega)

/-- The frame decoder takes an encoded array back to its payload. -/
theorem irDecode_encode {payload : List UInt8} {nsec : Nat}
    (hlen : payload.length = nsec * 7) (hpos : 1 ≤ nsec) (hmax : nsec ≤ 3) {outCap : Nat}
    {syms : List Symbol} (henc : irCodecSamsungAcEncode payload outCap = .ok syms)
    (out : Decoded) :
    ∃ dec, irDecode syms out = (0, dec) ∧ dec.proto = .samsungAc ∧
      dec.byteCount.toNat = payload.length ∧
      dec.rawBytes.take payload.length = payload := by
  rw [irCodecSamsungAcEncode_eq hlen hpos hmax] at henc
  split at henc
  · cases henc
  obtain rfl := Except.ok.inj henc
  have hdecode := decodeSamsung_tolerated hlen hpos hmax
    (List.forall₂_same.mpr fun s _ => tolerated_self s)
  rw [irDecode, tolerated_global (tolerated_self _)]
  exact hdecode

/-- The waveform round trip. Any reception of an encoded payload within the
tolerance, with or without its global header, decodes to the payload, and each
section decodes on its own. -/
theorem samsung_round_trip (payload : List UInt8)
    (hlen : payload.length = 7 ∨ payload.length = 14 ∨ payload.length = 21)
    (outCap : Nat) (nominal : List Symbol)
    (henc : irCodecSamsungAcEncode payload outCap = .ok nominal)
    (got : List Symbol) (hgot : List.Forall₂ Tolerated nominal got)
    (out : Decoded) :
    (∀ syms, syms = got ∨ syms = got.tail →
      ∃ dec, irDecode syms out = (0, dec) ∧ dec.proto = .samsungAc ∧
        dec.byteCount.toNat = payload.length ∧
        dec.rawBytes.take payload.length = payload) ∧
    ∀ k : UInt8, k.toNat < payload.length / 7 →
      irDecodeSamsungAcSection got.tail k = (1, sectionOf payload k.toNat) := by
  obtain ⟨nsec, hnsec, hbounds⟩ : ∃ nsec, payload.length = nsec * 7 ∧
      1 ≤ nsec ∧ nsec ≤ 3 := by
    rcases hlen with h | h | h
    · exact ⟨1, by omega, by omega⟩
    · exact ⟨2, by omega, by omega⟩
    · exact ⟨3, by omega, by omega⟩
  rw [irCodecSamsungAcEncode_eq hnsec hbounds.1 hbounds.2] at henc
  split at henc
  · cases henc
  obtain rfl := Except.ok.inj henc
  obtain ⟨hdr, syms, hhdr, hsyms, rfl⟩ := List.forall₂_cons_left_iff.mp hgot
  have hreads := readsSections_of_tolerated nsec nsec 0 (by omega) hsyms
  have hdecode := decodeSamsung_tolerated hnsec hbounds.1 hbounds.2 hsyms
  refine ⟨fun got' hgot' => ?_, fun k hk => ?_⟩
  · rcases hgot' with rfl | rfl
    · simpa [irDecode, tolerated_global hhdr] using hdecode
    · obtain ⟨m, rfl⟩ := Nat.exists_eq_add_of_le' hbounds.1
      rw [List.range'_succ, List.map_cons] at hreads
      obtain ⟨first, rest, rfl, hfirst⟩ := hreads.head
      simpa [irDecode, hfirst, not_global_of_section hfirst] using hdecode
  · rw [List.tail_cons, sectionDecode_reads hreads k (by simp; omega)]
    simp

/-- `k_samsung_ac_on_21` -/
def kSamsungAcOn21 : List UInt8 :=
  [0x02, 0x92, 0x0F, 0x00, 0x00, 0x00, 0xF0,
    0x01, 0xD2, 0x0F, 0x00, 0x00, 0x00, 0x00,
    0x01, 0x52, 0x0F, 0x00, 0x20, 0x11, 0xF8]

/-- A reception with long marks and short spaces, whose section feet run into silence. -/
def jittered (s : Symbol) : Symbol where
  markUs := s.markUs + 100
  spaceUs := if isFoot s then 0 else s.spaceUs - 100

theorem samsung_round_trip_jittered :
    ∃ nominal, irCodecSamsungAcEncode kSamsungAcOn21 175 = .ok nominal ∧
      (∀ syms, syms = nominal.map jittered ∨ syms = (nominal.map jittered).tail →
        ∃ dec, irDecode syms .zero = (0, dec) ∧ dec.byteCount.toNat = 21 ∧
          dec.rawBytes.take 21 = kSamsungAcOn21) ∧
      irDecodeSamsungAcSection (nominal.map jittered).tail 2 =
        (1, sectionOf kSamsungAcOn21 2) := by
  obtain ⟨nominal, henc, hnear⟩ : ∃ nominal,
      irCodecSamsungAcEncode kSamsungAcOn21 175 = .ok nominal ∧
      nominal.all (fun s => inRange (jittered s).markUs s.markUs.toNat &&
        (isFoot s || inRange (jittered s).spaceUs s.spaceUs.toNat)) = true :=
    ⟨_, rfl, by decide +kernel⟩
  have hgot : List.Forall₂ Tolerated nominal (nominal.map jittered) := by
    rw [List.forall₂_map_right_iff, List.forall₂_same]
    intro s hs
    have htolerated := List.all_eq_true.mp hnear s hs
    simpa [Tolerated] using htolerated
  have hround := samsung_round_trip kSamsungAcOn21 (Or.inr (Or.inr rfl)) 175 nominal henc _
    hgot .zero
  refine ⟨nominal, henc, fun syms hsyms => ?_, hround.2 2 (by decide)⟩
  obtain ⟨dec, hdecode, -, hcount, hbytes⟩ := hround.1 syms hsyms
  exact ⟨dec, hdecode, hcount, hbytes⟩

end Rw612.Ir
