import Rw612.Ir.Aircon

/-!
What the section checksums are good for: the writer and the verifier agree, and
a single wrong bit is always noticed. The checksum tells how many of the bits it
covers are set, so a wrong bit that is covered changes it, and a wrong bit that
is not covered is one of the stored checksum.
-/

namespace Rw612.Ir

open Lib

abbrev SacSection := Vector UInt8 IR_SAC_SECTION_BYTES

/-- A frame of whole sections. -/
def frameBytes (sections : List SacSection) : List UInt8 := sections.flatMap Vector.toList

/-- The data differ in exactly one bit. -/
def OneBitError (data data' : List UInt8) : Prop :=
  ∃ i k, i < data.length ∧ k < 8 ∧ data' = data.modify i (invertBit k)

/-- The bits of byte `i` that are not those of the checksum. -/
def coveredMask (i : Nat) : UInt8 :=
  match i with
  | 1 => 0x0F
  | 2 => 0xF0
  | _ => 0xFF

structure SectionLaws (s : List UInt8) : Prop where
  verify_iff : irCodecSamsungAcVerify s = true ↔ irCodecSamsungAcFixChecksum s 0 = s
  idempotent : irCodecSamsungAcFixChecksum (irCodecSamsungAcFixChecksum s 0) 0 =
    irCodecSamsungAcFixChecksum s 0
  verifies : irCodecSamsungAcVerify (irCodecSamsungAcFixChecksum s 0) = true
  length : (irCodecSamsungAcFixChecksum s 0).length = s.length
  covered : ∀ i, (irCodecSamsungAcFixChecksum s 0).getD i 0 &&& coveredMask i =
    s.getD i 0 &&& coveredMask i
  detects : irCodecSamsungAcVerify s = true →
    ∀ s', OneBitError s s' → irCodecSamsungAcVerify s' = false

structure FrameLaws (data : List UInt8) : Prop where
  verifies : irCodecSamsungAcVerifyAll (fixAllChecksums data) = true
  detects : ∀ data', OneBitError (fixAllChecksums data) data' →
    irCodecSamsungAcVerifyAll data' = false

/-! The bits that are covered. -/

theorem popcountU8_eq : ∀ b, (popcountU8 b).toNat =
    bitOf b 0 + bitOf b 1 + bitOf b 2 + bitOf b 3 + bitOf b 4 + bitOf b 5 + bitOf b 6 +
      bitOf b 7 :=
  byte_forall (by decide +kernel)

theorem popcountU8_le (b : UInt8) : (popcountU8 b).toNat ≤ 8 := by
  have h (i : Nat) := bitOf_le b i
  have h₀ := h 0
  have h₁ := h 1
  have h₂ := h 2
  have h₃ := h 3
  have h₄ := h 4
  have h₅ := h 5
  have h₆ := h 6
  have h₇ := h 7
  rw [popcountU8_eq]
  omega

theorem popcountU8_invertBit (b : UInt8) {k : Nat} (hk : k < 8) :
    (popcountU8 (invertBit k b)).toNat ≠ (popcountU8 b).toNat := by
  have hbit (i : Nat) (hi : i < 8) := bitOf_invertBit b hi hk
  have h (i : Nat) := bitOf_le b i
  have h₀ := h 0
  have h₁ := h 1
  have h₂ := h 2
  have h₃ := h 3
  have h₄ := h 4
  have h₅ := h 5
  have h₆ := h 6
  have h₇ := h 7
  rw [popcountU8_eq, popcountU8_eq, hbit 0 (by decide), hbit 1 (by decide), hbit 2 (by decide),
    hbit 3 (by decide), hbit 4 (by decide), hbit 5 (by decide), hbit 6 (by decide),
    hbit 7 (by decide)]
  interval_cases k <;> simp <;> omega

/-- How many of the covered bits are set. -/
def coveredBits : List UInt8 → Nat
  | [b₀, b₁, b₂, b₃, b₄, b₅, b₆] =>
      (popcountU8 b₀).toNat + (popcountU8 (lowNibble b₁)).toNat +
        (popcountU8 (highNibble b₂)).toNat + (popcountU8 b₃).toNat + (popcountU8 b₄).toNat +
        (popcountU8 b₅).toNat + (popcountU8 b₆).toNat
  | _ => 0

theorem coveredBits_le (s : List UInt8) : coveredBits s ≤ 56 := by
  unfold coveredBits
  split
  case h_1 b₀ b₁ b₂ b₃ b₄ b₅ b₆ =>
      have h₀ := popcountU8_le b₀
      have h₁ := popcountU8_le (lowNibble b₁)
      have h₂ := popcountU8_le (highNibble b₂)
      have h₃ := popcountU8_le b₃
      have h₄ := popcountU8_le b₄
      have h₅ := popcountU8_le b₅
      have h₆ := popcountU8_le b₆
      omega
  case h_2 => omega

theorem secChecksum_eq {s : List UInt8} (h : s.length = 7) :
    secChecksum s = UInt8.ofNat (coveredBits s) ^^^ 0xFF := by
  match s, h with
  | [b₀, b₁, b₂, b₃, b₄, b₅, b₆], _ =>
      have h₃ := popcountU8_le b₃
      have h₄ := popcountU8_le b₄
      have h₅ := popcountU8_le b₅
      have h₆ := popcountU8_le b₆
      simp only [secChecksum, popcountBuf, coveredBits]
      congr 1
      apply UInt8.toNat_inj.mp
      simp only [List.getD_cons_zero, List.getD_cons_succ, List.drop_succ_cons, List.drop_zero,
        List.take_succ_cons, List.take_zero, List.foldl_cons, List.foldl_nil,
        UInt16.toNat_toUInt8, UInt16.toNat_add, UInt8.toNat_toUInt16, UInt8.toNat_ofNat',
        UInt16.toNat_zero]
      omega

/-- The checksum tells the number of these bits. -/
theorem coveredBits_of_secChecksum {s s' : List UInt8} (h : s.length = 7) (h' : s'.length = 7)
    (heq : secChecksum s' = secChecksum s) : coveredBits s' = coveredBits s := by
  rw [secChecksum_eq h, secChecksum_eq h'] at heq
  have hsame := congrArg (· ^^^ 0xFF) heq
  simp only [UInt8.xor_assoc, UInt8.xor_self, UInt8.xor_zero] at hsame
  have hnat := congrArg UInt8.toNat hsame
  have hle := coveredBits_le s
  have hle' := coveredBits_le s'
  rw [UInt8.toNat_ofNat', UInt8.toNat_ofNat'] at hnat
  omega

/-! One section. -/

/-- The checksum that is stored in a section. -/
def storedChecksum (s : List UInt8) : UInt8 :=
  joinNibbles (s.getD 2 0) (highNibble (s.getD 1 0))

theorem irCodecSamsungAcVerify_iff (s : List UInt8) :
    irCodecSamsungAcVerify s = true ↔ secChecksum s = storedChecksum s := beq_iff_eq

theorem storedChecksum_nibbles {s s' : List UInt8} (h : storedChecksum s' = storedChecksum s) :
    lowNibble (s'.getD 2 0) = lowNibble (s.getD 2 0) ∧
      highNibble (s'.getD 1 0) = highNibble (s.getD 1 0) := by
  have hhigh := congrArg highNibble h
  have hlow := congrArg lowNibble h
  simp only [storedChecksum, highNibble_joinNibbles, lowNibble_joinNibbles,
    lowNibble_highNibble] at hhigh hlow
  exact ⟨hhigh, hlow⟩

/-- In byte 1 the low nibble is covered. -/
theorem byte1_invertBit (b : UInt8) {k : Nat} (hk : k < 8) :
    ((popcountU8 (lowNibble (invertBit k b))).toNat ≠ (popcountU8 (lowNibble b)).toNat ∧
      highNibble (invertBit k b) = highNibble b) ∨
    (lowNibble (invertBit k b) = lowNibble b ∧ highNibble (invertBit k b) ≠ highNibble b) := by
  rw [lowNibble_invertBit b hk, highNibble_invertBit b hk]
  by_cases hlow : k < 4
  · rw [if_pos hlow, if_pos hlow]
    exact .inl ⟨popcountU8_invertBit _ hk, rfl⟩
  · rw [if_neg hlow, if_neg hlow]
    exact .inr ⟨rfl, invertBit_ne _ (by omega)⟩

/-- In byte 2 the high nibble is covered. -/
theorem byte2_invertBit (b : UInt8) {k : Nat} (hk : k < 8) :
    ((popcountU8 (highNibble (invertBit k b))).toNat ≠ (popcountU8 (highNibble b)).toNat ∧
      lowNibble (invertBit k b) = lowNibble b) ∨
    (highNibble (invertBit k b) = highNibble b ∧ lowNibble (invertBit k b) ≠ lowNibble b) := by
  rw [lowNibble_invertBit b hk, highNibble_invertBit b hk]
  by_cases hlow : k < 4
  · rw [if_pos hlow, if_pos hlow]
    exact .inr ⟨rfl, invertBit_ne _ hk⟩
  · rw [if_neg hlow, if_neg hlow]
    exact .inl ⟨popcountU8_invertBit _ (by omega), rfl⟩

/-- A wrong bit is covered, or one of the stored checksum, but not both. -/
theorem section_invertBit {s : List UInt8} (hs : s.length = 7) {i k : Nat} (hi : i < 7)
    (hk : k < 8) :
    (coveredBits (s.modify i (invertBit k)) ≠ coveredBits s ∧
      storedChecksum (s.modify i (invertBit k)) = storedChecksum s) ∨
    (coveredBits (s.modify i (invertBit k)) = coveredBits s ∧
      storedChecksum (s.modify i (invertBit k)) ≠ storedChecksum s) := by
  match s, hs with
  | [b₀, b₁, b₂, b₃, b₄, b₅, b₆], _ =>
      have hpop (b : UInt8) := popcountU8_invertBit b hk
      interval_cases i
      · left
        have hbit := hpop b₀
        simp only [List.modify_zero_cons, coveredBits]
        exact ⟨by omega, rfl⟩
      · rcases byte1_invertBit b₁ hk with ⟨hcovered, hstored⟩ | ⟨hcovered, hstored⟩
        · left
          constructor
          · simp only [List.modify_succ_cons, List.modify_zero_cons, coveredBits]
            omega
          · simp [storedChecksum, hstored]
        · right
          constructor
          · simp only [List.modify_succ_cons, List.modify_zero_cons, coveredBits, hcovered]
          · exact fun heq => hstored (storedChecksum_nibbles heq).2
      · rcases byte2_invertBit b₂ hk with ⟨hcovered, hstored⟩ | ⟨hcovered, hstored⟩
        · left
          constructor
          · simp only [List.modify_succ_cons, List.modify_zero_cons, coveredBits]
            omega
          · simp [storedChecksum, joinNibbles_congr hstored]
        · right
          constructor
          · simp only [List.modify_succ_cons, List.modify_zero_cons, coveredBits, hcovered]
          · exact fun heq => hstored (storedChecksum_nibbles heq).1
      · left
        have hbit := hpop b₃
        simp only [List.modify_succ_cons, List.modify_zero_cons, coveredBits]
        exact ⟨by omega, rfl⟩
      · left
        have hbit := hpop b₄
        simp only [List.modify_succ_cons, List.modify_zero_cons, coveredBits]
        exact ⟨by omega, rfl⟩
      · left
        have hbit := hpop b₅
        simp only [List.modify_succ_cons, List.modify_zero_cons, coveredBits]
        exact ⟨by omega, rfl⟩
      · left
        have hbit := hpop b₆
        simp only [List.modify_succ_cons, List.modify_zero_cons, coveredBits]
        exact ⟨by omega, rfl⟩

/-- A section that verifies does not do so with one wrong bit. -/
theorem irCodecSamsungAcVerify_invertBit {s s' : List UInt8} (hs : s.length = 7)
    (hverify : irCodecSamsungAcVerify s = true) (herror : OneBitError s s') :
    irCodecSamsungAcVerify s' = false := by
  obtain ⟨i, k, hi, hk, rfl⟩ := herror
  rw [hs] at hi
  rw [irCodecSamsungAcVerify_iff] at hverify
  rw [← Bool.not_eq_true, irCodecSamsungAcVerify_iff]
  intro hverify'
  have hs' : (s.modify i (invertBit k)).length = 7 := by rw [List.length_modify, hs]
  rcases section_invertBit hs hi hk with ⟨hcovered, hstored⟩ | ⟨hcovered, hstored⟩
  · rw [hstored, ← hverify] at hverify'
    exact hcovered (coveredBits_of_secChecksum hs hs' hverify')
  · rw [secChecksum_eq hs', hcovered, ← secChecksum_eq hs, hverify] at hverify'
    exact hstored hverify'.symm

theorem modify_eq_self {l : List UInt8} {i : Nat} {f : UInt8 → UInt8}
    (h : f (l.getD i 0) = l.getD i 0) : l.modify i f = l := by
  apply List.ext_getElem?
  intro j
  rw [List.getElem?_modify]
  split
  case isTrue hij =>
      subst hij
      cases hbyte : l[i]? with
      | none => rfl
      | some b =>
          rw [List.getD_eq_getElem?_getD, hbyte, Option.getD_some] at h
          exact congrArg some h
  case isFalse => exact id_map l[j]?

theorem irCodecSamsungAcFixChecksum_eq_self {s : List UInt8}
    (hlow : lowNibble (secChecksum s) = highNibble (s.getD 1 0))
    (hhigh : lowNibble (secChecksum s >>> 4) = lowNibble (s.getD 2 0)) :
    irCodecSamsungAcFixChecksum s 0 = s := by
  have hfirst : s.modify 1 (setHighNibble · (secChecksum s)) = s :=
    modify_eq_self (setHighNibble_eq_self _ _ hlow)
  have hsecond : s.modify 2 (setLowNibble · (secChecksum s >>> 4)) = s :=
    modify_eq_self (setLowNibble_eq_self _ _ hhigh)
  rw [irCodecSamsungAcFixChecksum]
  simp only [List.drop_zero, Nat.zero_add]
  rw [hfirst, hsecond]

/-- The writer leaves alone what the verifier accepts. -/
theorem irCodecSamsungAcVerify_iff_fix {s : List UInt8} (hs : s.length = 7) :
    irCodecSamsungAcVerify s = true ↔ irCodecSamsungAcFixChecksum s 0 = s := by
  constructor
  · rw [irCodecSamsungAcVerify_iff]
    intro hverify
    have hlow : lowNibble (secChecksum s) = highNibble (s.getD 1 0) := by
      rw [hverify, storedChecksum, lowNibble_joinNibbles, lowNibble_highNibble]
    have hhigh : lowNibble (secChecksum s >>> 4) = lowNibble (s.getD 2 0) := by
      have hjoin := congrArg highNibble hverify
      rwa [storedChecksum, highNibble_joinNibbles] at hjoin
    exact irCodecSamsungAcFixChecksum_eq_self hlow hhigh
  · intro hfix
    rw [← hfix]
    exact irCodecSamsungAcVerify_fix hs

theorem irCodecSamsungAcFixChecksum_covered {s : List UInt8} (hs : s.length = 7) (i : Nat) :
    (irCodecSamsungAcFixChecksum s 0).getD i 0 &&& coveredMask i =
      s.getD i 0 &&& coveredMask i := by
  match s, hs with
  | [b₀, b₁, b₂, b₃, b₄, b₅, b₆], _ =>
      match i with
      | 0 => rfl
      | 1 => exact setHighNibble_low b₁ _
      | 2 => exact setLowNibble_high b₂ _
      | i + 3 => rfl

theorem sectionLaws {s : List UInt8} (hs : s.length = 7) : SectionLaws s := by
  have hfixed : (irCodecSamsungAcFixChecksum s 0).length = 7 := by
    rw [irCodecSamsungAcFixChecksum_length, hs]
  constructor
  · exact irCodecSamsungAcVerify_iff_fix hs
  · exact (irCodecSamsungAcVerify_iff_fix hfixed).mp (irCodecSamsungAcVerify_fix hs)
  · exact irCodecSamsungAcVerify_fix hs
  · exact irCodecSamsungAcFixChecksum_length s 0
  · exact irCodecSamsungAcFixChecksum_covered hs
  · exact fun hverify s' => irCodecSamsungAcVerify_invertBit hs hverify

/-! Frames. -/

theorem modify_append_left {α : Type*} {l : List α} {i : Nat} (h : i < l.length) (l' : List α)
    (f : α → α) : (l ++ l').modify i f = l.modify i f ++ l' := by
  induction l generalizing i with
  | nil => cases h
  | cons a l ih =>
      cases i with
      | zero => rfl
      | succ i =>
          rw [List.cons_append, List.modify_succ_cons, List.modify_succ_cons,
            ih (Nat.lt_of_succ_lt_succ h), List.cons_append]

section Frames

variable {sections : List (List UInt8)} (hall : ∀ s ∈ sections, s.length = 7)

include hall

theorem length_flatten_sections : sections.flatten.length = sections.length * 7 := by
  induction sections with
  | nil => rfl
  | cons s sections ih =>
      obtain ⟨hs, hrest⟩ := List.forall_mem_cons.mp hall
      rw [List.flatten_cons, List.length_append, hs, ih hrest, List.length_cons]
      omega

theorem irCodecSamsungAcVerifyAll_sections (hne : sections ≠ []) :
    irCodecSamsungAcVerifyAll sections.flatten = sections.all irCodecSamsungAcVerify := by
  have hlen := length_flatten_sections hall
  have hpos := List.length_pos_iff.mpr hne
  have hloop : ((List.range sections.length).all fun i =>
      irCodecSamsungAcVerify (sections.flatten.drop (i * 7))) =
        sections.all irCodecSamsungAcVerify := by
    clear hne hlen hpos
    induction sections with
    | nil => rfl
    | cons s sections ih =>
        obtain ⟨hs, hrest⟩ := List.forall_mem_cons.mp hall
        have hnext (i : Nat) :
            (s ++ sections.flatten).drop ((i + 1) * 7) = sections.flatten.drop (i * 7) := by
          have hsplit : (i + 1) * 7 = s.length + i * 7 := by
            rw [hs]
            omega
          rw [hsplit, ← List.drop_drop, List.drop_left]
        rw [List.length_cons, List.range_succ_eq_map, List.all_cons, List.all_map, List.all_cons,
          Nat.zero_mul, List.drop_zero, List.flatten_cons, irCodecSamsungAcVerify_append hs,
          ← ih hrest]
        simp only [Function.comp_def, Nat.succ_eq_add_one, hnext]
  rw [irCodecSamsungAcVerifyAll, hlen, IR_SAC_SECTION_BYTES, if_neg (by omega),
    Nat.mul_div_cancel _ (by decide), hloop]

theorem fixAllChecksums_sections :
    fixAllChecksums sections.flatten =
      (sections.map (irCodecSamsungAcFixChecksum · 0)).flatten := by
  have hloop (m : Nat) (front : List UInt8) (hfront : front.length = m * 7) :
      (List.range' m sections.length).foldl
        (fun data s => irCodecSamsungAcFixChecksum data (s * 7)) (front ++ sections.flatten) =
        front ++ (sections.map (irCodecSamsungAcFixChecksum · 0)).flatten := by
    induction sections generalizing m front with
    | nil => rfl
    | cons s sections ih =>
        obtain ⟨hs, hrest⟩ := List.forall_mem_cons.mp hall
        rw [List.length_cons, List.range'_succ, List.foldl_cons, List.flatten_cons, ← hfront,
          ← List.append_assoc, irCodecSamsungAcFixChecksum_append front hs,
          ih hrest (m + 1) _ (by simp [hfront, hs]; omega), List.map_cons, List.flatten_cons,
          List.append_assoc]
  have hstart := hloop 0 [] rfl
  rwa [List.nil_append, List.nil_append, ← List.range_eq_range', ← Nat.mul_div_cancel
    sections.length (show 0 < 7 by decide), ← length_flatten_sections hall] at hstart

/-- A wrong bit is in one of the sections. -/
theorem OneBitError.in_section {data' : List UInt8}
    (herror : OneBitError sections.flatten data') :
    ∃ front s s' back, sections = front ++ s :: back ∧ OneBitError s s' ∧
      data' = (front ++ s' :: back).flatten := by
  obtain ⟨i, k, hi, hk, rfl⟩ := herror
  induction sections generalizing i with
  | nil => cases hi
  | cons s sections ih =>
      obtain ⟨hs, hrest⟩ := List.forall_mem_cons.mp hall
      rw [List.flatten_cons] at hi ⊢
      by_cases hfirst : i < s.length
      · refine ⟨[], s, s.modify i (invertBit k), sections, rfl, ⟨i, k, hfirst, hk, rfl⟩, ?_⟩
        rw [modify_append_left hfirst]
        rfl
      · obtain ⟨j, rfl⟩ := Nat.exists_eq_add_of_le (Nat.le_of_not_lt hfirst)
        rw [List.length_append] at hi
        obtain ⟨front, t, t', back, rfl, herror, hdata⟩ := ih hrest j (by omega)
        refine ⟨s :: front, t, t', back, rfl, herror, ?_⟩
        rw [List.modify, List.modifyTailIdx_add, ← List.modify, hdata]
        rfl

theorem frameLaws (hne : sections ≠ []) : FrameLaws sections.flatten := by
  have hfixed : ∀ s ∈ sections.map (irCodecSamsungAcFixChecksum · 0), s.length = 7 := by
    intro s hs
    obtain ⟨s₀, hin, rfl⟩ := List.mem_map.mp hs
    rw [irCodecSamsungAcFixChecksum_length, hall s₀ hin]
  have hverify : ∀ s ∈ sections.map (irCodecSamsungAcFixChecksum · 0),
      irCodecSamsungAcVerify s = true := by
    intro s hs
    obtain ⟨s₀, hin, rfl⟩ := List.mem_map.mp hs
    exact irCodecSamsungAcVerify_fix (hall s₀ hin)
  have hne' : sections.map (irCodecSamsungAcFixChecksum · 0) ≠ [] := by simpa using hne
  constructor
  · rw [fixAllChecksums_sections hall, irCodecSamsungAcVerifyAll_sections hfixed hne',
      List.all_eq_true]
    exact hverify
  · intro data' herror
    rw [fixAllChecksums_sections hall] at herror
    obtain ⟨front, s, s', back, heq, herror', rfl⟩ := herror.in_section hfixed
    rw [heq] at hfixed hverify
    have hin : s ∈ front ++ s :: back := by simp
    have hwrong := irCodecSamsungAcVerify_invertBit (hfixed s hin) (hverify s hin) herror'
    have hlengths : ∀ t ∈ front ++ s' :: back, t.length = 7 := by
      obtain ⟨i, k, -, -, rfl⟩ := herror'
      intro t ht
      rcases List.mem_append.mp ht with hfront | hback
      · exact hfixed t (List.mem_append_left _ hfront)
      · rcases List.mem_cons.mp hback with rfl | hback
        · rw [List.length_modify, hfixed s hin]
        · exact hfixed t (List.mem_append_right _ (List.mem_cons_of_mem _ hback))
    rw [irCodecSamsungAcVerifyAll_sections hlengths (by simp), List.all_append, List.all_cons,
      hwrong, Bool.false_and, Bool.and_false]

end Frames

/-- The laws of every section, and of every frame of one or more of them. -/
theorem checksum_laws (s : SacSection) (more : List SacSection) :
    SectionLaws s.toList ∧ FrameLaws (frameBytes (s :: more)) := by
  have hall : ∀ t ∈ (s :: more).map Vector.toList, t.length = 7 := by
    intro t ht
    obtain ⟨t₀, -, rfl⟩ := List.mem_map.mp ht
    exact t₀.length_toList
  constructor
  · exact sectionLaws s.length_toList
  · rw [frameBytes, List.flatMap_def]
    exact frameLaws hall (by simp)

end Rw612.Ir
