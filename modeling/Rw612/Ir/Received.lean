import Rw612.Ir.Carrier
import Rw612.Ir.ChecksumLaws
import Rw612.Ir.Collect
import Rw612.Ir.Waveform

/-!
From one board's `ir_aircon_samsung_send_raw` to another's `ir_rx_frame_cb`. The
space of the global header is longer than `APP_IR_RX_GAP_WORK_MS`, so the
receiver ends a frame after the first mark, which is too short to be passed on;
the three sections that follow are a frame of their own.
-/

namespace Rw612.Ir

open Lib

/-- The edges of an emission: each mark and space is measured within the
tolerance, and the last mark is followed by silence. -/
inductive Measures (cpu : UInt32) : List Symbol → List UInt32 → Prop
  | last {x : Symbol} {m : UInt32}
      (hmark : inRange (clampUs (cycToUs cpu m)) x.markUs.toNat = true) : Measures cpu [x] [m]
  | cons {x : Symbol} {m sp : UInt32} {syms : List Symbol} {cycles : List UInt32}
      (hx : Tolerated x ⟨clampUs (cycToUs cpu m), clampUs (cycToUs cpu sp)⟩)
      (hrest : Measures cpu syms cycles) : Measures cpu (x :: syms) (m :: sp :: cycles)

/-- A code that is sent, and when its edges arrive: `start` and `body` are the
cycle counts of the first edge of the header and of the sections. -/
structure Emission where
  frame : List UInt8
  fixCs : Bool
  tx : TxAnswer
  start : UInt32
  headerMark : UInt32
  body : UInt32
  cycles : List UInt32

/-- The bytes that are sent. -/
def Emission.code (e : Emission) : List UInt8 :=
  if e.fixCs then fixAllChecksums e.frame else e.frame

/-- What the receiver does: the frame of the header, and that of the sections. -/
def Emission.acts (e : Emission) : List RxAct :=
  captureActs e.start [e.headerMark] ++ captureActs e.body e.cycles ++ [.finish]

/-- A code of three sections is sent, with right checksums, and measured by a
receiver of `cpu` cycles to the microsecond. -/
structure Emission.Faithful (cpu : UInt32) (e : Emission) : Prop where
  length : e.frame.length = 21
  ready : e.tx.ready = true
  checked : e.fixCs = false → irCodecSamsungAcVerifyAll e.frame = true
  measures : ∀ header sections,
    (irAirconSamsungSendRaw (some e.frame) e.fixCs e.tx).frame = some (header :: sections) →
      Measures cpu sections e.cycles

/-- What the callback prints of the frames that it is given. -/
def printed (c : Collector) : List (List Symbol) → List (Option RxReport)
  | [] => []
  | syms :: frames => (irRxFrameCb c syms).2 :: printed (irRxFrameCb c syms).1 frames

/-! The receiver assembles what is emitted. -/

theorem Measures.marks_length {cpu : UInt32} {syms : List Symbol} {cycles : List UInt32}
    (h : Measures cpu syms cycles) : (marks cycles).length = syms.length := by
  induction h with
  | last => rfl
  | cons _ _ ih => rw [marks, List.length_cons, List.length_cons, ih]

/-- The last symbol is a foot, so it does not matter that its space is not measured. -/
theorem Measures.assemble {cpu : UInt32} {syms : List Symbol} {cycles : List UInt32}
    (h : Measures cpu syms cycles) (hfoot : ∀ x, syms.getLast? = some x → isFoot x = true)
    {front : List Symbol} (hroom : front.length + syms.length ≤ APP_IR_RX_MAX_SYMBOLS) :
    ∃ got, Ir.assemble front (cycles.map (cycToUs cpu)) = front ++ got ∧
      List.Forall₂ Tolerated syms got := by
  induction h generalizing front with
  | @last x m hmark =>
      refine ⟨[⟨clampUs (cycToUs cpu m), 0⟩], ?_, ?_⟩
      · rw [List.length_singleton] at hroom
        rw [List.map_cons, List.map_nil, Ir.assemble, pushMark, if_pos (by omega)]
      · exact .cons ⟨hmark, Or.inl (hfoot x rfl)⟩ .nil
  | @cons x m sp syms cycles hx hrest ih =>
      rw [List.length_cons] at hroom
      have hlast : ∀ y, syms.getLast? = some y → isFoot y = true := by
        intro y hy
        apply hfoot
        rw [List.getLast?_cons, hy]
        rfl
      have hpush := @patchSpace_pushMark_of_room front (by omega) (cycToUs cpu m)
        (cycToUs cpu sp)
      let x' : Symbol := ⟨clampUs (cycToUs cpu m), clampUs (cycToUs cpu sp)⟩
      have hfits : (front ++ [x']).length + syms.length ≤ APP_IR_RX_MAX_SYMBOLS := by
        rw [List.length_append, List.length_singleton]
        omega
      obtain ⟨got, hgot, htolerated⟩ := ih hlast hfits
      refine ⟨_, ?_, .cons hx htolerated⟩
      rw [List.map_cons, List.map_cons, Ir.assemble, hpush, hgot, List.append_assoc,
        List.singleton_append]

/-- The receiver waits for a frame. -/
structure Rx.Listening (s : Rx) : Prop where
  inv : s.Inv
  active : s.active = true
  idle : s.phase = .idle
  cb : s.cb = true
  gap : s.gap = .out

/-- The edges of a frame, and the locked section that ends it. -/
theorem Rx.Listening.edges {s : Rx} (h : s.Listening) (now : UInt32) (cycles : List UInt32) :
    ∃ s' half len, rxSystem.exec s (.edge now 0 :: edgesFrom now 1 cycles ++ [.flip]) = some s' ∧
      s'.Inv ∧ s'.active = true ∧ s'.phase = .idle ∧ s'.cb = true ∧ s'.gap = .test half len ∧
      s'.frame half len = assemble [] (cycles.map (cycToUs s.cycPerUs)) ∧
      s'.cycPerUs = s.cycPerUs ∧ s'.delivered = s.delivered := by
  have hfirst : rxSystem.step s (.edge now 0) = some {s with lastCyc := now, phase := .mark} := by
    simp [rxSystem, gpioEdgeCb, Rx.fall, h.active, h.idle]
  have hat : Rx.At {s with lastCyc := now, phase := .mark} .mark now [] := by
    refine ⟨h.active, rfl, rfl, h.inv.len, ?_⟩
    change s.frame s.wrIdx s.wrLen = []
    rw [h.inv.idle h.idle]
    rfl
  obtain ⟨s', phase, last, hexec, hkept, hat'⟩ := hat.edges cycles
  have hinited : s'.inited = true := hkept.inited.trans (h.inv.active h.active)
  have hflip : rxSystem.step s' .flip = some s'.flip := by
    simp [rxSystem, hinited, hkept.gap, h.gap]
  have hrun : rxSystem.exec s (.edge now 0 :: edgesFrom now 1 cycles ++ [.flip]) =
      some s'.flip := by
    rw [List.cons_append, System.exec_cons_of_step hfirst, System.exec_append, hexec,
      Option.bind_some, System.exec_cons_of_step hflip, System.exec_nil]
  refine ⟨s'.flip, s'.wrIdx, s'.wrLen, hrun, ?_, hat'.active, rfl, hkept.cb.trans h.cb, rfl,
    hat'.frame, hkept.cycPerUs, hkept.delivered⟩
  exact System.exec_invariant (fun _ _ _ h hstep => Rx.Inv.step h hstep) h.inv hrun

theorem exec_captureActs {s s' : Rx} {now : UInt32} {cycles : List UInt32}
    (h : rxSystem.exec s (.edge now 0 :: edgesFrom now 1 cycles ++ [.flip]) = some s') :
    rxSystem.exec s (captureActs now cycles) = rxSystem.step s' .deliver := by
  have hacts : captureActs now cycles =
      (.edge now 0 :: edgesFrom now 1 cycles ++ [.flip]) ++ [.deliver] := by
    simp [captureActs]
  rw [hacts, System.exec_append, h, Option.bind_some, System.exec_cons]
  cases rxSystem.step s' .deliver <;> rfl

/-- A frame that is too short is dropped. -/
theorem Rx.Listening.dropped {s : Rx} (h : s.Listening) (now : UInt32) {cycles : List UInt32}
    (hshort : (marks cycles).length < APP_IR_RX_MIN_SYMBOLS) :
    ∃ s', rxSystem.exec s (captureActs now cycles) = some s' ∧ s'.Listening ∧
      s'.cycPerUs = s.cycPerUs ∧ s'.delivered = s.delivered := by
  obtain ⟨s₁, half, len, hexec, hinv, hactive, hidle, hcb, hgap, hframe, hcyc, hdelivered⟩ :=
    h.edges now cycles
  have hlen : ¬APP_IR_RX_MIN_SYMBOLS ≤ len := by
    have hlength := congrArg List.length hframe
    rw [Rx.frame, List.length_map, List.length_range, assemble_length _ (Nat.zero_le _),
      marks_map, List.length_map, List.length_nil] at hlength
    omega
  have hdeliver : rxSystem.step s₁ .deliver = some {s₁ with gap := .out} := by
    simp [rxSystem, hgap, Rx.deliver, hlen]
  refine ⟨{s₁ with gap := .out}, (exec_captureActs hexec).trans hdeliver, ?_, hcyc, hdelivered⟩
  exact ⟨hinv.step hdeliver, hactive, hidle, hcb, rfl⟩

/-- Any other is passed on, and then the receiver waits again. -/
theorem Rx.Listening.passedOn {s : Rx} (h : s.Listening) (now : UInt32) {cycles : List UInt32}
    (hmin : APP_IR_RX_MIN_SYMBOLS ≤ (marks cycles).length) :
    ∃ s', rxSystem.exec s (captureActs now cycles ++ [.finish]) = some s' ∧ s'.Listening ∧
      s'.cycPerUs = s.cycPerUs ∧
      s'.delivered = s.delivered ++ [assemble [] (cycles.map (cycToUs s.cycPerUs))] := by
  obtain ⟨s₁, half, len, hexec, hinv, hactive, hidle, hcb, hgap, hframe, hcyc, hdelivered⟩ :=
    h.edges now cycles
  have hlen : APP_IR_RX_MIN_SYMBOLS ≤ len := by
    have hlength := congrArg List.length hframe
    rw [Rx.frame, List.length_map, List.length_range, assemble_length _ (Nat.zero_le _),
      marks_map, List.length_map, List.length_nil] at hlength
    rw [APP_IR_RX_MIN_SYMBOLS] at hmin ⊢
    rw [APP_IR_RX_MAX_SYMBOLS] at hlength
    omega
  let s₂ : Rx := {s₁ with
    gap := .callback half len
    delivered := s₁.delivered ++ [s₁.frame half len]}
  have hdeliver : rxSystem.step s₁ .deliver = some s₂ := by
    simp [rxSystem, hgap, Rx.deliver, hlen, hcb, s₂]
  have hfinish : rxSystem.step s₂ .finish = some {s₂ with gap := .out} := rfl
  refine ⟨{s₂ with gap := .out}, ?_, ⟨(hinv.step hdeliver).step hfinish, hactive, hidle, hcb, rfl⟩,
    hcyc, ?_⟩
  · rw [System.exec_append, exec_captureActs hexec, hdeliver, Option.bind_some,
      System.exec_cons_of_step hfinish, System.exec_nil]
  · rw [← hframe, ← hdelivered]

/-! The callback collects what is received. -/

/-- The symbols are a reception of the three sections of `code`. -/
structure Receives (syms : List Symbol) (code : List UInt8) : Prop where
  length : code.length = 21
  reads : ReadsSections ((List.range' 0 3).map (sectionOf code)) syms
  verifies : irCodecSamsungAcVerifyAll code = true

theorem Receives.section_eq {syms : List Symbol} {code : List UInt8} (h : Receives syms code)
    {k : Nat} (hk : k < 3) :
    irDecodeSamsungAcSection syms (UInt8.ofNat k) = (1, sectionOf code k) := by
  have hnat : (UInt8.ofNat k).toNat = k := UInt8.toNat_ofNat_of_lt' (by show k < 2 ^ 8; omega)
  have hread := sectionDecode_reads h.reads (UInt8.ofNat k) (by simp [hnat]; omega)
  rw [hread, List.getElem_map, List.getElem_range', hnat]
  simp

theorem Receives.passes {syms : List Symbol} {code : List UInt8} (h : Receives syms code)
    {k : Nat} (hk : k < 3) : Ir.passes syms k = true := by
  have hverify := h.verifies
  simp only [irCodecSamsungAcVerifyAll, h.length, IR_SAC_SECTION_BYTES] at hverify
  rw [if_neg (by decide), List.all_eq_true] at hverify
  have hsection := hverify k (by rw [List.mem_range]; exact hk)
  have hsplit : code.drop (k * 7) = sectionOf code k ++ code.drop (k * 7 + 7) := by
    rw [sectionOf, IR_SAC_SECTION_BYTES, ← List.drop_drop, List.take_append_drop]
  have hlen : (sectionOf code k).length = 7 := by
    apply sectionOf_length
    have hlength := h.length
    omega
  rw [hsplit, irCodecSamsungAcVerify_append hlen] at hsection
  simp [Ir.passes, sectionRead, h.section_eq hk, hsection]

theorem collectSection_holds {syms : List Symbol} {k : Nat} (hpass : passes syms k = true)
    (c : Collector) : (collectSection syms c k).held k = true := by
  simp [collectSection, hpass]

/-- Whatever was held before, the code is reported and nothing is held after it. -/
theorem Receives.reported {syms : List Symbol} {code : List UInt8} (h : Receives syms code)
    (c : Collector) : (irRxFrameCb c syms).2 = some (.samsungAc code) := by
  have hall : ∀ k < 3, (collectSections syms c).held k = true := by
    intro k hk
    simp only [collectSections, List.foldl_cons, List.foldl_nil]
    interval_cases k
    · rw [collectSection_held (by decide) (by decide),
        collectSection_held (by decide) (by decide)]
      exact collectSection_holds (h.passes (by decide)) _
    · rw [collectSection_held (by decide) (by decide)]
      exact collectSection_holds (h.passes (by decide)) _
    · exact collectSection_holds (h.passes (by decide)) _
  have hof : (collectSections syms c).Of code := by
    intro k hk _
    rw [collectSections_sec syms c hk, if_pos (h.passes hk), sectionRead, h.section_eq hk]
  have hreport := hof.report h.length (hall 0 (by decide)) (hall 1 (by decide))
    (hall 2 (by decide))
  have hheader : ¬(irDecodeSamsungAcSection syms 0).1 < 0 := by
    have hfirst := h.section_eq (show 0 < 3 by decide)
    rw [show UInt8.ofNat 0 = 0 from rfl] at hfirst
    rw [hfirst]
    exact Int.not_lt.mpr Int.one_nonneg
  simp [irRxFrameCb, hheader, hall, hreport]

/-! From the sender to the callback. -/

theorem verifyAll_fixAllChecksums {frame : List UInt8} (h : frame.length = 21) :
    irCodecSamsungAcVerifyAll (fixAllChecksums frame) = true := by
  have hall : ∀ s ∈ (List.range' 0 3).map (sectionOf frame), s.length = 7 := by
    intro s hs
    obtain ⟨k, hk, rfl⟩ := List.mem_map.mp hs
    rw [List.mem_range'_1] at hk
    apply sectionOf_length
    omega
  have hflat := sections_flatten frame 3 0 (by omega)
  have hlaws := frameLaws hall (by simp [List.range'])
  rw [hflat] at hlaws
  exact hlaws.verifies

theorem Emission.code_length {e : Emission} (h : e.frame.length = 21) : e.code.length = 21 := by
  unfold Emission.code
  split
  · rw [fixAllChecksums_length, h]
  · exact h

theorem Emission.Faithful.verifies {cpu : UInt32} {e : Emission} (h : e.Faithful cpu) :
    irCodecSamsungAcVerifyAll e.code = true := by
  unfold Emission.code
  split
  · exact verifyAll_fixAllChecksums h.length
  · rename_i hkept
    exact h.checked (Bool.eq_false_iff.mpr hkept)

/-- The symbols of the three sections. -/
def Emission.sections (e : Emission) : List Symbol :=
  (List.range' 0 3).flatMap (encodeSection e.code 3)

theorem Emission.sends {e : Emission} (hlen : e.frame.length = 21) (hready : e.tx.ready = true) :
    (irAirconSamsungSendRaw (some e.frame) e.fixCs e.tx).frame =
      some (⟨IR_SAC_HDR_MARK_US, IR_SAC_HDR_SPACE_US⟩ :: e.sections) := by
  have hgood : badLength e.frame.length = false := by
    rw [hlen]
    rfl
  have hcode : e.code.length = 3 * 7 := e.code_length hlen
  have henc := irCodecSamsungAcEncode_eq hcode (by decide) (by decide) IR_SAC_MAX_SYMBOLS
  rw [if_neg (by decide)] at henc
  have hsend : irAirconSamsungSendRaw (some e.frame) e.fixCs e.tx =
      sendSymbolFrame e.code e.tx := by
    simp [irAirconSamsungSendRaw, hready, hgood, Emission.code]
  rw [hsend, sendSymbolFrame, henc]
  rfl

theorem encodeSection_length (data : List UInt8) (nsec s : Nat) :
    (encodeSection data nsec s).length = 58 := by
  simp [encodeSection]

theorem Emission.sections_length (e : Emission) : e.sections.length = 174 := by
  simp [Emission.sections, List.range', encodeSection_length]

theorem Emission.sections_foot {e : Emission} {x : Symbol} (hx : e.sections.getLast? = some x) :
    isFoot x = true := by
  have hsplit : List.range' 0 3 = [0, 1] ++ [2] := rfl
  obtain ⟨front, hfront⟩ : ∃ front, e.sections =
      front ++ [⟨IR_SAC_BIT_MARK_US, IR_SAC_FINAL_GAP_US⟩] := by
    rw [Emission.sections, hsplit, List.flatMap_append, List.flatMap_singleton]
    exact ⟨_, (List.append_assoc _ _ _).symm⟩
  rw [hfront, List.getLast?_concat] at hx
  obtain rfl := Option.some.inj hx
  rfl

/-- The sections are received as they were sent. -/
theorem Emission.Faithful.receives {cpu : UInt32} {e : Emission} (h : e.Faithful cpu) :
    APP_IR_RX_MIN_SYMBOLS ≤ (marks e.cycles).length ∧
      Receives (assemble [] (e.cycles.map (cycToUs cpu))) e.code := by
  have hmeasures := h.measures _ _ (Emission.sends h.length h.ready)
  constructor
  · rw [hmeasures.marks_length, e.sections_length]
    decide
  · have hroom : ([] : List Symbol).length + e.sections.length ≤ APP_IR_RX_MAX_SYMBOLS := by
      rw [e.sections_length]
      decide
    obtain ⟨got, hgot, htolerated⟩ := hmeasures.assemble (fun _ => Emission.sections_foot) hroom
    have hlen := Emission.code_length h.length
    rw [hgot, List.nil_append]
    exact ⟨hlen, readsSections_of_tolerated 3 3 0 (by rw [hlen]) htolerated, h.verifies⟩

/-- One emission, heard by a receiver that waits for it. -/
theorem Rx.Listening.hears {s : Rx} (h : s.Listening) {e : Emission}
    (he : e.Faithful s.cycPerUs) :
    ∃ s' syms, rxSystem.exec s e.acts = some s' ∧ s'.Listening ∧ s'.cycPerUs = s.cycPerUs ∧
      s'.delivered = s.delivered ++ [syms] ∧ Receives syms e.code := by
  obtain ⟨s₁, hexec₁, h₁, hcyc₁, hdelivered₁⟩ :=
    @Rx.Listening.dropped s h e.start [e.headerMark] (show 1 < APP_IR_RX_MIN_SYMBOLS by decide)
  obtain ⟨hmin, hreceives⟩ := he.receives
  obtain ⟨s₂, hexec₂, h₂, hcyc₂, hdelivered₂⟩ := h₁.passedOn e.body hmin
  refine ⟨s₂, _, ?_, h₂, hcyc₂.trans hcyc₁, ?_, hreceives⟩
  · rw [Emission.acts, List.append_assoc, System.exec_append, hexec₁, Option.bind_some, hexec₂]
  · rw [hdelivered₂, hdelivered₁, hcyc₁]

/-- Codes that are sent one after the other to a receiver that is started are
reported one after the other, with the checksums that were sent, and whatever
sections earlier frames have left with the callback. -/
theorem sent_codes_reported {acts : List RxAct} {s : Rx}
    (hreach : rxSystem.exec .powerUp acts = some s) (hactive : s.active = true)
    (hidle : s.phase = .idle) (hcb : s.cb = true) (hgap : s.gap = .out) (c : Collector)
    (es : List Emission) (hes : ∀ e ∈ es, e.Faithful s.cycPerUs) :
    ∃ s' frames, rxSystem.exec s (es.flatMap Emission.acts) = some s' ∧
      s'.delivered = s.delivered ++ frames ∧
      printed c frames = es.map fun e => some (.samsungAc e.code) := by
  have hinv := System.exec_invariant (fun _ _ _ h hstep => Rx.Inv.step h hstep)
    Rx.inv_powerUp hreach
  have hlistening : s.Listening := ⟨hinv, hactive, hidle, hcb, hgap⟩
  clear hreach hactive hidle hcb hgap hinv
  induction es generalizing s c with
  | nil => exact ⟨s, [], rfl, (List.append_nil _).symm, rfl⟩
  | cons e es ih =>
      obtain ⟨he, hrest⟩ := List.forall_mem_cons.mp hes
      obtain ⟨s₁, syms, hexec₁, h₁, hcyc, hdelivered₁, hreceives⟩ := hlistening.hears he
      rw [← hcyc] at hrest
      obtain ⟨s', frames, hexec, hdelivered, hprinted⟩ := ih (irRxFrameCb c syms).1 hrest h₁
      refine ⟨s', syms :: frames, ?_, ?_, ?_⟩
      · rw [List.flatMap_cons, System.exec_append, hexec₁, Option.bind_some, hexec]
      · rw [hdelivered, hdelivered₁, List.append_assoc, List.singleton_append]
      · rw [printed, hprinted, hreceives.reported, List.map_cons]

/-! An emission that is measured to the microsecond. -/

def exactCycles (cpu : UInt32) : List Symbol → List UInt32
  | [] => []
  | [x] => [x.markUs.toUInt32 * cpu]
  | x :: syms => x.markUs.toUInt32 * cpu :: x.spaceUs.toUInt32 * cpu :: exactCycles cpu syms

theorem clampUs_exact {cpu : UInt32} (hpos : 0 < cpu) (hfast : cpu.toNat < 2 ^ 16)
    (us : UInt16) : clampUs (cycToUs cpu (us.toUInt32 * cpu)) = us := by
  have hus := us.toNat_lt
  have hcpu : 0 < cpu.toNat := UInt32.lt_iff_toNat_lt.mp hpos
  have hmul : us.toNat * cpu.toNat < 2 ^ 16 * 2 ^ 16 := Nat.mul_lt_mul'' hus hfast
  rw [← Nat.pow_add] at hmul
  apply UInt16.toNat_inj.mp
  rw [clampUs_toNat, cycToUs, if_pos hpos, UInt32.toNat_div, UInt32.toNat_mul,
    UInt16.toNat_toUInt32, Nat.mod_eq_of_lt hmul, Nat.mul_div_cancel _ hcpu]
  omega

theorem Measures.exact {cpu : UInt32} (hpos : 0 < cpu) (hfast : cpu.toNat < 2 ^ 16)
    {syms : List Symbol} (hne : syms ≠ []) : Measures cpu syms (exactCycles cpu syms) := by
  have hclamp := clampUs_exact hpos hfast
  induction syms with
  | nil => exact absurd rfl hne
  | cons x syms ih =>
      cases syms with
      | nil =>
          apply Measures.last
          rw [hclamp]
          exact inRange_self x.markUs
      | cons y syms =>
          apply Measures.cons
          · rw [hclamp, hclamp]
            exact tolerated_self x
          · exact ih (List.cons_ne_nil y syms)

def exactEmission (cpu : UInt32) (frame : List UInt8) (fixCs : Bool) : Emission :=
  let e : Emission := ⟨frame, fixCs, ⟨true, 0, 0⟩, 0, 690 * cpu, 20000 * cpu, []⟩
  {e with cycles := exactCycles cpu e.sections}

theorem exactEmission_faithful {cpu : UInt32} (hpos : 0 < cpu) (hfast : cpu.toNat < 2 ^ 16)
    {frame : List UInt8} (hlen : frame.length = 21) {fixCs : Bool}
    (hchecked : fixCs = false → irCodecSamsungAcVerifyAll frame = true) :
    (exactEmission cpu frame fixCs).Faithful cpu := by
  refine ⟨hlen, rfl, hchecked, ?_⟩
  intro header sections hsent
  rw [Emission.sends hlen rfl] at hsent
  obtain ⟨-, rfl⟩ := List.cons.inj (Option.some.inj hsent)
  apply Measures.exact hpos hfast
  rw [← List.length_pos_iff, Emission.sections_length]
  decide

/-- POWER_ON as it is, and POWER_OFF with its checksums left to the sender. -/
theorem sent_codes_reported_on_off :
    ∃ s' frames, rxSystem.exec .listening
        ([exactEmission 260 kSamsungAcOn21 false,
          exactEmission 260 (kSamsungAcOff21.set 1 0x02) true].flatMap Emission.acts) = some s' ∧
      s'.delivered = frames ∧
      printed .empty frames =
        [some (.samsungAc kSamsungAcOn21), some (.samsungAc kSamsungAcOff21)] := by
  have hfix : fixAllChecksums (kSamsungAcOff21.set 1 0x02) = kSamsungAcOff21 := by decide +kernel
  obtain ⟨s', frames, hexec, hdelivered, hprinted⟩ := sent_codes_reported Rx.exec_listening rfl
    rfl rfl rfl .empty [exactEmission 260 kSamsungAcOn21 false,
      exactEmission 260 (kSamsungAcOff21.set 1 0x02) true] (by
      rintro e (_ | ⟨_, _ | ⟨_, ⟨⟩⟩⟩)
      · exact exactEmission_faithful (by decide) (by decide) rfl (fun _ => by decide +kernel)
      · exact exactEmission_faithful (by decide) (by decide) rfl (fun h => by cases h))
  refine ⟨s', frames, hexec, hdelivered, ?_⟩
  rw [hprinted, ← hfix]
  rfl

end Rw612.Ir
