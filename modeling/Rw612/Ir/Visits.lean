import Rw612.Ir.RoundTrip

/-!
Where the bytes of a Samsung capture come from. The extraction loop visits one
section header after the other and appends what it can read behind each; a
visit is whole when 56 data symbols follow the header. The loop also keeps the
full bytes of a section that breaks off, takes a symbol whose space was not
measured for a 0, and of a fourth section keeps what still fits into the 24 bytes.
-/

namespace Rw612.Ir

/-- One round of the loop of `decode_samsung_ac_bytes`: the index of the section
header, and the bytes appended. -/
structure Visit where
  header : Nat
  bytes : List UInt8
  deriving DecidableEq, Repr

/-- The rounds of the loop from the symbol at `pos` on, after the bytes in `out`. -/
def sacVisits (cap pos : Nat) (syms : List Symbol) (out : List UInt8) : List Visit :=
  match syms with
  | [] => []
  | hdr :: syms =>
      if out.length < cap ∧ secHeader hdr = true then
        ⟨pos, (sacBits cap 56 syms 0 0 out).2.drop out.length⟩ ::
        sacVisits cap
          (pos + 1 + (syms.length - (skipFoot (sacBits cap 56 syms 0 0 out).1).length))
          (skipFoot (sacBits cap 56 syms 0 0 out).1) (sacBits cap 56 syms 0 0 out).2
      else []
  termination_by syms.length
  decreasing_by
    have hskip := skipFoot_length_le (sacBits cap 56 syms 0 0 out).1
    have hbits := sacBits_length_le cap 56 syms 0 0 out
    simp only [List.length_cons]
    omega

/-- The rounds that `ir_decode` makes. -/
def samsungVisits (syms : List Symbol) : List Visit :=
  match syms with
  | [] => []
  | hdr :: rest =>
      if globalHeader hdr then sacVisits IR_DECODE_MAX_RAW_BYTES 1 rest []
      else if secHeader hdr then sacVisits IR_DECODE_MAX_RAW_BYTES 0 (hdr :: rest) []
      else []

/-- The mark and the space of a data bit, both within the tolerance. -/
def sacDataSymbol (s : Symbol) : Bool :=
  inRange s.markUs SAC_BIT_MARK &&
    (inRange s.spaceUs SAC_ZERO_SPACE || inRange s.spaceUs SAC_ONE_SPACE)

/-- Seven bytes, read from the 56 data symbols behind the section header. -/
def Visit.Whole (syms : List Symbol) (v : Visit) : Prop :=
  ∃ hdr bits rest, syms.drop v.header = hdr :: (bits ++ rest) ∧ secHeader hdr = true ∧
    v.bytes.length = 7 ∧ ReadsBits (v.bytes.flatMap byteBits) bits ∧
    ∀ s ∈ bits, sacDataSymbol s = true

/-- The payload is one to three whole sections in the order of the symbols. -/
structure WholeSections (syms : List Symbol) (dec : Decoded) : Prop where
  count : dec.byteCount = 7 ∨ dec.byteCount = 14 ∨ dec.byteCount = 21
  rawBytes : dec.rawBytes = (samsungVisits syms).flatMap Visit.bytes ++
    List.replicate (IR_DECODE_MAX_RAW_BYTES - dec.byteCount.toNat) 0
  whole : ∀ v ∈ samsungVisits syms, v.bytes ≠ [] → v.Whole syms
  order : (samsungVisits syms).Pairwise (·.header < ·.header)

/-- What a successful Samsung result is to be. -/
def YieldsWhole (syms : List Symbol) (out : Decoded) : Prop :=
  ∀ dec, irDecode syms out = (0, dec) → dec.proto = .samsungAc → WholeSections syms dec

/-- The number of symbols at the front that the loop takes for data, `n` at most. -/
def bitRun : Nat → List Symbol → Nat
  | 0, _ => 0
  | _ + 1, [] => 0
  | n + 1, s :: syms => if (sacBit s).isSome then bitRun n syms + 1 else 0

/-- Every section header met is followed by 56 data symbols or by fewer than 8 that
the loop takes for data, and no more than three by 56; `whole` of them have gone
before. -/
def EachWhole (whole : Nat) (syms : List Symbol) : Prop :=
  match syms with
  | [] => True
  | hdr :: syms =>
      if secHeader hdr then
        (bitRun 56 syms < 8 ∧ EachWhole whole (skipFoot (syms.drop (bitRun 56 syms)))) ∨
        (56 ≤ syms.length ∧ (∀ s ∈ syms.take 56, sacDataSymbol s = true) ∧ whole < 3 ∧
          EachWhole (whole + 1) (skipFoot (syms.drop 56)))
      else True
  termination_by syms.length
  decreasing_by
    all_goals
      have hskip (l : List Symbol) := skipFoot_length_le l
      simp only [List.length_cons]
    · have h := hskip (syms.drop (bitRun 56 syms))
      rw [List.length_drop] at h
      omega
    · have h := hskip (syms.drop 56)
      rw [List.length_drop] at h
      omega

/-- The sections of a capture with a Samsung header. -/
def UndamagedSections : List Symbol → Prop
  | [] => True
  | hdr :: rest =>
      if globalHeader hdr then EachWhole 0 rest
      else if secHeader hdr then EachWhole 0 (hdr :: rest)
      else True

/-! The bit loop. -/

theorem bitRun_le (n : Nat) (syms : List Symbol) : bitRun n syms ≤ n := by
  induction n generalizing syms with
  | zero => exact Nat.le_refl 0
  | succ n ih =>
      cases syms with
      | nil => exact Nat.zero_le _
      | cons s syms =>
          rw [bitRun]
          split
          · exact Nat.succ_le_succ (ih syms)
          · exact Nat.zero_le _

/-- The loop stops behind the data symbols, and appends their full bytes as far
as these fit. -/
theorem sacBits_run (cap n : Nat) (syms : List Symbol) (cur : UInt8) {bitPos : Nat}
    (hpos : bitPos < 8) (out : List UInt8) :
    (sacBits cap n syms cur bitPos out).1 = syms.drop (bitRun n syms) ∧
      ∃ new, (sacBits cap n syms cur bitPos out).2 = out ++ new ∧
        new.length = min ((bitPos + bitRun n syms) / 8) (cap - out.length) := by
  induction n generalizing syms cur bitPos out with
  | zero => exact ⟨rfl, [], (List.append_nil out).symm, by simp [bitRun]; omega⟩
  | succ n ih =>
      cases syms with
      | nil => exact ⟨rfl, [], (List.append_nil out).symm, by simp [bitRun]; omega⟩
      | cons s syms =>
          rw [sacBits, bitRun]
          cases hbit : sacBit s with
          | none => exact ⟨rfl, [], (List.append_nil out).symm, by simp; omega⟩
          | some bit =>
              simp only [Option.isSome_some, if_true, List.drop_succ_cons]
              by_cases hfull : bitPos + 1 = 8
              · rw [if_pos hfull]
                by_cases hroom : out.length < cap
                · rw [if_pos hroom]
                  obtain ⟨hrest, new, hout, hlen⟩ := ih syms 0 (Nat.zero_lt_succ 7)
                    (out ++ [cur ||| bit <<< UInt8.ofNat bitPos])
                  refine ⟨hrest, (cur ||| bit <<< UInt8.ofNat bitPos) :: new, ?_, ?_⟩
                  · rw [hout, List.append_assoc, List.singleton_append]
                  · rw [List.length_cons, hlen, List.length_append, List.length_singleton]
                    omega
                · rw [if_neg hroom]
                  obtain ⟨hrest, new, hout, hlen⟩ := ih syms 0 (Nat.zero_lt_succ 7) out
                  refine ⟨hrest, new, hout, ?_⟩
                  rw [hlen]
                  omega
              · rw [if_neg hfull]
                have hnext : bitPos + 1 < 8 := by omega
                obtain ⟨hrest, new, hout, hlen⟩ :=
                  ih syms (cur ||| bit <<< UInt8.ofNat bitPos) hnext out
                refine ⟨hrest, new, hout, ?_⟩
                rw [hlen]
                congr 2
                omega

theorem sacBit_eq {s : Symbol} {bit : UInt8} (h : sacBit s = some bit) : bit = 0 ∨ bit = 1 := by
  unfold sacBit at h
  split_ifs at h
  · exact Or.inr (Option.some.inj h).symm
  · exact Or.inl (Option.some.inj h).symm

theorem sacBit_of_data {s : Symbol} (h : sacDataSymbol s = true) :
    (sacBit s).isSome = true := by
  simp only [sacDataSymbol, Bool.and_eq_true, Bool.or_eq_true] at h
  obtain ⟨hmark, hspace⟩ := h
  unfold sacBit
  rw [if_neg (by simp [hmark])]
  rcases hspace with hzero | hone
  · split <;> simp [hzero]
  · simp [hone]

/-- Data symbols are taken for such. -/
theorem bitRun_of_data {n : Nat} {syms : List Symbol} (hlen : n ≤ syms.length)
    (h : ∀ s ∈ syms.take n, sacDataSymbol s = true) : bitRun n syms = n := by
  induction n generalizing syms with
  | zero => rfl
  | succ n ih =>
      cases syms with
      | nil => cases hlen
      | cons s syms =>
          rw [List.take_succ_cons, List.forall_mem_cons] at h
          rw [bitRun, if_pos (sacBit_of_data h.1),
            ih (Nat.le_of_succ_le_succ hlen) h.2]

theorem bitRun_succ {n : Nat} {syms : List Symbol} (h : bitRun (n + 1) syms = n + 1) :
    ∃ s rest bit, syms = s :: rest ∧ sacBit s = some bit ∧ bitRun n rest = n := by
  cases syms with
  | nil => cases h
  | cons s rest =>
      rw [bitRun] at h
      split at h
      · rename_i hsome
        obtain ⟨bit, hbit⟩ := Option.isSome_iff_exists.mp hsome
        exact ⟨s, rest, bit, rfl, hbit, Nat.succ.inj h⟩
      · cases h

/-- Any eight bits are those of a byte. -/
theorem byteBits_surjective (x₀ x₁ x₂ x₃ x₄ x₅ x₆ x₇ : Bool) :
    ∃ b, byteBits b = [x₀, x₁, x₂, x₃, x₄, x₅, x₆, x₇].map (if · then 1 else 0) := by
  refine ⟨UInt8.ofNat (x₀.toNat + 2 * x₁.toNat + 4 * x₂.toNat + 8 * x₃.toNat + 16 * x₄.toNat +
    32 * x₅.toNat + 64 * x₆.toNat + 128 * x₇.toNat), ?_⟩
  revert x₀ x₁ x₂ x₃ x₄ x₅ x₆ x₇
  decide +kernel

/-- Data symbols, with the bits they carry. -/
theorem bitRun_reads {n : Nat} {syms : List Symbol} (h : bitRun n syms = n) :
    ∃ (values : List Bool) (bits rest : List Symbol), syms = bits ++ rest ∧ values.length = n ∧
      ReadsBits (values.map (if · then 1 else 0)) bits := by
  induction n generalizing syms with
  | zero => exact ⟨[], [], syms, rfl, rfl, List.Forall₂.nil⟩
  | succ n ih =>
      obtain ⟨s, rest, bit, rfl, hbit, hrun⟩ := bitRun_succ h
      obtain ⟨values, bits, tail, rfl, hlen, hreads⟩ := ih hrun
      rcases sacBit_eq hbit with rfl | rfl
      · exact ⟨false :: values, s :: bits, tail, rfl, congrArg Nat.succ hlen,
          List.Forall₂.cons hbit hreads⟩
      · exact ⟨true :: values, s :: bits, tail, rfl, congrArg Nat.succ hlen,
          List.Forall₂.cons hbit hreads⟩

theorem exists_bytes (m : Nat) {values : List Bool} (h : values.length = 8 * m) :
    ∃ bytes : List UInt8, bytes.length = m ∧
      bytes.flatMap byteBits = values.map (if · then 1 else 0) := by
  induction m generalizing values with
  | zero =>
      obtain rfl := List.length_eq_zero_iff.mp h
      exact ⟨[], rfl, rfl⟩
  | succ m ih =>
      match values, h with
      | x₀ :: x₁ :: x₂ :: x₃ :: x₄ :: x₅ :: x₆ :: x₇ :: values, h =>
          have hlen : values.length = 8 * m := by
            simp only [List.length_cons] at h
            omega
          obtain ⟨bytes, hbytes, hmap⟩ := ih hlen
          obtain ⟨b, hb⟩ := byteBits_surjective x₀ x₁ x₂ x₃ x₄ x₅ x₆ x₇
          refine ⟨b :: bytes, congrArg Nat.succ hbytes, ?_⟩
          rw [List.flatMap_cons, hb, hmap]
          rfl

/-- A whole section is taken as its seven bytes, where these fit. -/
theorem sacBits_whole {cap : Nat} {syms : List Symbol} (h : bitRun 56 syms = 56)
    {out : List UInt8} (hcap : out.length + 7 ≤ cap) :
    ∃ bytes bits rest, syms = bits ++ rest ∧ bytes.length = 7 ∧
      ReadsBits (bytes.flatMap byteBits) bits ∧
      sacBits cap 56 syms 0 0 out = (rest, out ++ bytes) := by
  obtain ⟨values, bits, rest, rfl, hlen, hreads⟩ := bitRun_reads h
  obtain ⟨bytes, hbytes, hmap⟩ := exists_bytes 7 hlen
  rw [← hmap] at hreads
  have hloop := sacBits_reads cap bytes bits rest out hreads (by rw [hbytes]; exact hcap)
  rw [hbytes] at hloop
  exact ⟨bytes, bits, rest, rfl, hbytes, hreads, hloop⟩

/-! The visits. -/

/-- The visits append all that the loop returns. -/
theorem sacVisits_bytes (cap pos : Nat) (syms : List Symbol) (out : List UInt8) :
    decodeSamsungAcBytes cap syms out =
      out ++ (sacVisits cap pos syms out).flatMap Visit.bytes := by
  induction syms, out using decodeSamsungAcBytes.induct cap generalizing pos with
  | case1 out => simp [decodeSamsungAcBytes, sacVisits]
  | case2 out hdr syms hcond ih =>
      obtain ⟨-, new, hnew, -⟩ := sacBits_run cap 56 syms 0 (Nat.zero_lt_succ 7) out
      rw [decodeSamsungAcBytes, sacVisits, if_pos hcond, if_pos hcond, List.flatMap_cons,
        ih (pos + 1 + (syms.length - (skipFoot (sacBits cap 56 syms 0 0 out).1).length)),
        ← List.append_assoc]
      congr 1
      rw [hnew, List.drop_left]
  | case3 out hdr syms hcond =>
      rw [decodeSamsungAcBytes, sacVisits, if_neg hcond, if_neg hcond]
      simp

theorem sacVisits_header_le (cap pos : Nat) (syms : List Symbol) (out : List UInt8) :
    ∀ v ∈ sacVisits cap pos syms out, pos ≤ v.header := by
  induction syms, out using decodeSamsungAcBytes.induct cap generalizing pos with
  | case1 out => simp [sacVisits]
  | case2 out hdr syms hcond ih =>
      rw [sacVisits, if_pos hcond, List.forall_mem_cons]
      refine ⟨Nat.le_refl pos, fun v hv => ?_⟩
      have hle := ih _ v hv
      omega
  | case3 out hdr syms hcond =>
      rw [sacVisits, if_neg hcond]
      simp

theorem sacVisits_order (cap pos : Nat) (syms : List Symbol) (out : List UInt8) :
    (sacVisits cap pos syms out).Pairwise (·.header < ·.header) := by
  induction syms, out using decodeSamsungAcBytes.induct cap generalizing pos with
  | case1 out => simp [sacVisits]
  | case2 out hdr syms hcond ih =>
      rw [sacVisits, if_pos hcond, List.pairwise_cons]
      refine ⟨fun v hv => ?_, ih _⟩
      have hle := sacVisits_header_le _ _ _ _ v hv
      dsimp only
      omega
  | case3 out hdr syms hcond =>
      rw [sacVisits, if_neg hcond]
      exact List.Pairwise.nil

theorem EachWhole.cons_iff {hdr : Symbol} (hhdr : secHeader hdr = true) (whole : Nat)
    (syms : List Symbol) :
    EachWhole whole (hdr :: syms) ↔
      (bitRun 56 syms < 8 ∧ EachWhole whole (skipFoot (syms.drop (bitRun 56 syms)))) ∨
        (56 ≤ syms.length ∧ (∀ s ∈ syms.take 56, sacDataSymbol s = true) ∧ whole < 3 ∧
          EachWhole (whole + 1) (skipFoot (syms.drop 56))) := by
  rw [EachWhole, if_pos hhdr]

theorem skipFoot_suffix (syms : List Symbol) : skipFoot syms <:+ syms := by
  cases syms with
  | nil => exact List.suffix_rfl
  | cons s syms =>
      rw [skipFoot]
      split
      · exact List.suffix_cons s syms
      · exact List.suffix_rfl

theorem skipFoot_sacBits_suffix (cap : Nat) (syms : List Symbol) (out : List UInt8) :
    skipFoot (sacBits cap 56 syms 0 0 out).1 <:+ syms := by
  obtain ⟨hrest, -⟩ := sacBits_run cap 56 syms 0 (Nat.zero_lt_succ 7) out
  rw [hrest]
  exact (skipFoot_suffix _).trans (List.drop_suffix _ syms)

/-- Where the next round of the loop begins. -/
theorem drop_next {syms₀ syms rest : List Symbol} {hdr : Symbol} {pos : Nat}
    (h : syms₀.drop pos = hdr :: syms) (hrest : rest <:+ syms) :
    syms₀.drop (pos + 1 + (syms.length - rest.length)) = rest := by
  rw [Nat.add_assoc, ← List.drop_drop, h, Nat.add_comm, List.drop_succ_cons]
  exact (List.suffix_iff_eq_drop.mp hrest).symm

theorem flatMap_byteBits_seven {bytes : List UInt8} (h : bytes.length = 7) :
    (bytes.flatMap byteBits).length = 56 := by
  rw [flatMap_byteBits_length, h]

/-- The symbols behind the header of a whole section. -/
theorem Visit.Whole.data {syms₀ syms : List Symbol} {hdr : Symbol} {v : Visit}
    (h : v.Whole syms₀) (hsyms : syms₀.drop v.header = hdr :: syms) :
    v.bytes.length = 7 ∧ 56 ≤ syms.length ∧ ∀ s ∈ syms.take 56, sacDataSymbol s = true := by
  obtain ⟨hdr', bits, rest, hsplit, -, hseven, hreads, hdata⟩ := h
  obtain ⟨-, hbits⟩ := List.cons.inj (hsyms.symm.trans hsplit)
  have hcount : bits.length = 56 := hreads.length_eq.trans (flatMap_byteBits_seven hseven)
  refine ⟨hseven, ?_, ?_⟩
  · rw [hbits, List.length_append]
    omega
  · rw [hbits, ← hcount, List.take_left]
    exact hdata

/-- Where every visit that appends bytes is whole, so is every section that is not
without a full byte. -/
theorem eachWhole_of_whole {syms₀ : List Symbol} (pos : Nat) (syms : List Symbol)
    {whole : Nat} (hsyms : syms₀.drop pos = syms) (hwhole : whole ≤ 3) (out : List UInt8)
    (hout : out.length = 7 * whole)
    (h : ∀ v ∈ sacVisits IR_DECODE_MAX_RAW_BYTES pos syms out, v.bytes ≠ [] →
      v.Whole syms₀) : EachWhole whole syms := by
  induction syms, out using decodeSamsungAcBytes.induct IR_DECODE_MAX_RAW_BYTES
    generalizing pos whole with
  | case1 out =>
      rw [EachWhole]
      trivial
  | case2 out hdr syms hcond ih =>
      obtain ⟨hrest, new, hnew, hlen⟩ :=
        sacBits_run IR_DECODE_MAX_RAW_BYTES 56 syms 0 (Nat.zero_lt_succ 7) out
      have hnextPos := drop_next hsyms
        (skipFoot_sacBits_suffix IR_DECODE_MAX_RAW_BYTES syms out)
      rw [sacVisits, if_pos hcond, List.forall_mem_cons] at h
      obtain ⟨hfirst, htail⟩ := h
      have hle := bitRun_le 56 syms
      rw [hnew, List.drop_left] at hfirst
      rw [hout, IR_DECODE_MAX_RAW_BYTES, Nat.zero_add] at hlen
      rw [EachWhole.cons_iff hcond.2]
      by_cases hshort : bitRun 56 syms < 8
      · left
        have hnext : (sacBits IR_DECODE_MAX_RAW_BYTES 56 syms 0 0 out).2.length = 7 * whole := by
          rw [hnew, List.length_append, hlen, hout]
          omega
        have htail' := ih _ hnextPos hwhole hnext htail
        rw [hrest] at htail'
        exact ⟨hshort, htail'⟩
      · right
        have hne : new ≠ [] := by
          intro hnil
          rw [hnil, List.length_nil] at hlen
          omega
        obtain ⟨hseven, hfull, hall⟩ := (hfirst hne).data hsyms
        have hrun := bitRun_of_data hfull hall
        dsimp only at hseven
        have hlast : whole < 3 := by omega
        have hnext : (sacBits IR_DECODE_MAX_RAW_BYTES 56 syms 0 0 out).2.length =
            7 * (whole + 1) := by
          rw [hnew, List.length_append, hseven, hout]
          omega
        have htail' := ih _ hnextPos hlast hnext htail
        rw [hrest, hrun] at htail'
        exact ⟨hfull, hall, hlast, htail'⟩
  | case3 out hdr syms hcond =>
      have hroom : out.length < IR_DECODE_MAX_RAW_BYTES := by
        rw [hout, IR_DECODE_MAX_RAW_BYTES]
        omega
      have hno : ¬secHeader hdr = true := fun hhdr => hcond ⟨hroom, hhdr⟩
      rw [EachWhole, if_neg hno]
      trivial

/-- Conversely, each visit of such sections is whole or appends nothing, and the
bytes are those of three sections at most. -/
theorem eachWhole_visits {syms₀ : List Symbol} (pos : Nat) (syms : List Symbol) {whole : Nat}
    (hsyms : syms₀.drop pos = syms) (out : List UInt8) (hout : out.length = 7 * whole)
    (hwhole : whole ≤ 3) (h : EachWhole whole syms) :
    (∀ v ∈ sacVisits IR_DECODE_MAX_RAW_BYTES pos syms out, v.bytes ≠ [] → v.Whole syms₀) ∧
      ∃ m ≤ 3, (decodeSamsungAcBytes IR_DECODE_MAX_RAW_BYTES syms out).length = 7 * m := by
  induction syms, out using decodeSamsungAcBytes.induct IR_DECODE_MAX_RAW_BYTES
    generalizing pos whole with
  | case1 out =>
      rw [sacVisits, decodeSamsungAcBytes]
      exact ⟨by simp, whole, hwhole, hout⟩
  | case2 out hdr syms hcond ih =>
      obtain ⟨hrest, new, hnew, hlen⟩ :=
        sacBits_run IR_DECODE_MAX_RAW_BYTES 56 syms 0 (Nat.zero_lt_succ 7) out
      have hnext := drop_next hsyms
        (skipFoot_sacBits_suffix IR_DECODE_MAX_RAW_BYTES syms out)
      rw [sacVisits, if_pos hcond, decodeSamsungAcBytes, if_pos hcond, List.forall_mem_cons]
      rcases (EachWhole.cons_iff hcond.2 whole syms).mp h with
        ⟨hshort, htail⟩ | ⟨hfull, hall, hlast, htail⟩
      · have hnil : new = [] := by
          apply List.length_eq_zero_iff.mp
          omega
        rw [hnil, List.append_nil] at hnew
        rw [← hrest] at htail
        obtain ⟨hvisits, hbytes⟩ := ih _ hnext (by rw [hnew]; exact hout) hwhole htail
        refine ⟨⟨fun hne => ?_, hvisits⟩, hbytes⟩
        rw [hnew, List.drop_length] at hne
        exact absurd rfl hne
      · have hcap : out.length + 7 ≤ IR_DECODE_MAX_RAW_BYTES := by
          rw [hout, IR_DECODE_MAX_RAW_BYTES]
          omega
        have hrun := bitRun_of_data hfull hall
        obtain ⟨bytes, bits, rest, hsplit, hseven, hreads, hloop⟩ := sacBits_whole hrun hcap
        have hcount : bits.length = 56 :=
          hreads.length_eq.trans (flatMap_byteBits_seven hseven)
        have hdata : ∀ s ∈ bits, sacDataSymbol s = true := by
          rw [hsplit, ← hcount, List.take_left] at hall
          exact hall
        have hgrown : (sacBits IR_DECODE_MAX_RAW_BYTES 56 syms 0 0 out).2.length =
            7 * (whole + 1) := by
          rw [hloop, List.length_append, hseven, hout]
          omega
        rw [← hrun, ← hrest] at htail
        obtain ⟨hvisits, hbytes⟩ := ih _ hnext hgrown hlast htail
        refine ⟨⟨fun _ => ?_, hvisits⟩, hbytes⟩
        rw [hloop, List.drop_left]
        exact ⟨hdr, bits, rest, by rw [hsyms, hsplit], hcond.2, hseven, hreads, hdata⟩
  | case3 out hdr syms hcond =>
      rw [sacVisits, if_neg hcond, decodeSamsungAcBytes, if_neg hcond]
      exact ⟨by simp, whole, hwhole, hout⟩

/-! The decoder. -/

theorem decodeLg_proto {hdr : Symbol} {syms : List Symbol} {dec : Decoded}
    (h : decodeLg hdr syms = some dec) : dec.proto = .lgAc := by
  unfold decodeLg at h
  dsimp only at h
  split_ifs at h
  rw [← Option.some.inj h]

theorem decodeNec_proto (hdr : Symbol) (syms : List Symbol) :
    (decodeNec hdr syms).2.proto ≠ .samsungAc := by
  unfold decodeNec
  dsimp only
  split_ifs <;> simp [Decoded.zero]

section Samsung

variable {syms₀ syms : List Symbol} {pos : Nat} (hsyms : syms₀.drop pos = syms)
  (hvisits : samsungVisits syms₀ = sacVisits IR_DECODE_MAX_RAW_BYTES pos syms [])

include hsyms hvisits

theorem eachWhole_of_wholeSections
    (h : ∀ dec, decodeSamsung syms = (0, dec) → dec.proto = .samsungAc →
      WholeSections syms₀ dec) : EachWhole 0 syms := by
  apply eachWhole_of_whole pos syms hsyms (Nat.zero_le 3) [] rfl
  intro v hv hne
  have hbytes := sacVisits_bytes IR_DECODE_MAX_RAW_BYTES pos syms []
  have hpos : 0 < (decodeSamsungAcBytes IR_DECODE_MAX_RAW_BYTES syms []).length := by
    rw [hbytes, List.nil_append, List.length_pos_iff, ne_eq, List.flatMap_eq_nil_iff]
    exact fun hnil => hne (hnil v hv)
  have hdec : decodeSamsung syms = (0, (decodeSamsung syms).2) := by
    rw [decodeSamsung]
    dsimp only
    rw [if_pos hpos]
  rw [← hvisits] at hv
  exact (h _ hdec rfl).whole v hv hne

theorem wholeSections_of_eachWhole (h : EachWhole 0 syms) {dec : Decoded}
    (hdec : decodeSamsung syms = (0, dec)) : WholeSections syms₀ dec := by
  obtain ⟨hwhole, m, hm, hlen⟩ := eachWhole_visits pos syms hsyms [] rfl (Nat.zero_le 3) h
  have hbytes := sacVisits_bytes IR_DECODE_MAX_RAW_BYTES pos syms []
  rw [List.nil_append, ← hvisits] at hbytes
  rw [← hvisits] at hwhole
  obtain rfl : (decodeSamsung syms).2 = dec := congrArg Prod.snd hdec
  have hpos : 0 < (decodeSamsungAcBytes IR_DECODE_MAX_RAW_BYTES syms []).length := by
    by_contra hzero
    have hrc : (decodeSamsung syms).1 = 0 := congrArg Prod.fst hdec
    rw [decodeSamsung] at hrc
    dsimp only at hrc
    rw [if_neg hzero] at hrc
    cases hrc
  have hcount : (decodeSamsung syms).2.byteCount = UInt8.ofNat (7 * m) := by
    rw [← hlen]
    rfl
  constructor
  · have hcases : m = 1 ∨ m = 2 ∨ m = 3 := by omega
    rw [hcount]
    rcases hcases with rfl | rfl | rfl
    · exact Or.inl rfl
    · exact Or.inr (Or.inl rfl)
    · exact Or.inr (Or.inr rfl)
  · have htoNat : (decodeSamsung syms).2.byteCount.toNat =
        (decodeSamsungAcBytes IR_DECODE_MAX_RAW_BYTES syms []).length := by
      rw [hcount, hlen, UInt8.toNat_ofNat']
      omega
    rw [htoNat, ← hbytes]
    rfl
  · exact hwhole
  · rw [hvisits]
    exact sacVisits_order _ _ _ _

end Samsung

/-- A Samsung result is made of whole sections if and only if every section met
is whole or without a full byte, and there are no more than three whole ones. -/
theorem yieldsWhole_iff (syms : List Symbol) (out : Decoded) :
    YieldsWhole syms out ↔ UndamagedSections syms := by
  cases syms with
  | nil =>
      apply iff_of_true
      · intro dec hdec
        cases hdec
      · trivial
  | cons hdr rest =>
      rw [YieldsWhole, UndamagedSections]
      by_cases hglobal : globalHeader hdr = true
      · have hvisits : samsungVisits (hdr :: rest) =
            sacVisits IR_DECODE_MAX_RAW_BYTES 1 rest [] := if_pos hglobal
        simp only [irDecode, hglobal, if_true]
        constructor
        · exact eachWhole_of_wholeSections rfl hvisits
        · exact fun h dec hdec _ => wholeSections_of_eachWhole rfl hvisits h hdec
      by_cases hsection : secHeader hdr = true
      · have hvisits : samsungVisits (hdr :: rest) =
            sacVisits IR_DECODE_MAX_RAW_BYTES 0 (hdr :: rest) [] := by
          rw [samsungVisits, if_neg hglobal, if_pos hsection]
        simp only [irDecode, hglobal, hsection, Bool.false_eq_true, if_true, if_false]
        constructor
        · exact eachWhole_of_wholeSections rfl hvisits
        · exact fun h dec hdec _ => wholeSections_of_eachWhole rfl hvisits h hdec
      · simp only [irDecode, hglobal, hsection, Bool.false_eq_true, if_false, iff_true]
        intro dec hdec hproto
        cases hlg : decodeLg hdr rest with
        | some lg =>
            rw [hlg] at hdec
            cases hdec
            rw [decodeLg_proto hlg] at hproto
            cases hproto
        | none =>
            rw [hlg] at hdec
            have hnec := decodeNec_proto hdr rest
            rw [show decodeNec hdr rest = (0, dec) from hdec] at hnec
            exact absurd hproto hnec

/-- A section that breaks off after its first byte. -/
def brokenOff : List Symbol := ⟨3086, 8864⟩ :: List.replicate 8 ⟨586, 436⟩

theorem decodeSamsungAcBytes_brokenOff :
    decodeSamsungAcBytes IR_DECODE_MAX_RAW_BYTES brokenOff [] = [0] := by
  have hloop : sacBits IR_DECODE_MAX_RAW_BYTES 56 (List.replicate 8 ⟨586, 436⟩) 0 0 [] =
      ([], [0]) := by
    decide +kernel
  have hhdr : ([] : List UInt8).length < IR_DECODE_MAX_RAW_BYTES ∧
      secHeader ⟨3086, 8864⟩ = true := by
    decide
  rw [brokenOff, decodeSamsungAcBytes, if_pos hhdr, hloop, skipFoot, decodeSamsungAcBytes]

/-- It is reported as a Samsung frame of one byte. -/
theorem partial_section_reported :
    ∃ dec, irDecode brokenOff .zero = (0, dec) ∧ dec.proto = .samsungAc ∧ dec.byteCount = 1 ∧
      ¬YieldsWhole brokenOff .zero := by
  have hdecode : irDecode brokenOff .zero = decodeSamsung brokenOff := by
    have hglobal : globalHeader ⟨3086, 8864⟩ = false := by decide
    have hsection : secHeader ⟨3086, 8864⟩ = true := by decide
    rw [brokenOff]
    simp only [irDecode, hglobal, hsection, Bool.false_eq_true, if_false, if_true]
  have hrc : decodeSamsung brokenOff = (0, (decodeSamsung brokenOff).2) := by
    rw [decodeSamsung, decodeSamsungAcBytes_brokenOff]
    rfl
  have hcount : (decodeSamsung brokenOff).2.byteCount = 1 := by
    rw [decodeSamsung, decodeSamsungAcBytes_brokenOff]
    rfl
  refine ⟨_, hdecode.trans hrc, rfl, hcount, fun h => ?_⟩
  have hwhole := h _ (hdecode.trans hrc) rfl
  rcases hwhole.count with h7 | h14 | h21
  · rw [hcount] at h7
    cases h7
  · rw [hcount] at h14
    cases h14
  · rw [hcount] at h21
    cases h21

end Rw612.Ir
