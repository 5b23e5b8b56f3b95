import Mathlib.Logic.Function.Basic
import Rw612.Ir.Checksum
import Rw612.Ir.RoundTrip
import Rw612.Lib.Transition

/-!
The frame callback `ir_rx_frame_cb` of `app_main_zephyr.c`. A long Samsung code
has three sections; those that pass their checksum are held by index, over any
number of frames, until all three are there. Another section 0 drops the two
after it, and that is the only thing that tells one button from the next.
-/

namespace Rw612.Ir

open Lib

/-- `s_sec` and `s_have` -/
structure Collector where
  sec : Nat → List UInt8
  held : Nat → Bool

def Collector.empty : Collector where
  sec _ := List.replicate 7 0
  held _ := false

/-- What the callback prints. -/
inductive RxReport where
  | samsungAc (code : List UInt8)
  | other (dec : Decoded)
  deriving DecidableEq

/-- What `ir_decode_samsung_ac_section` writes to `tmp`. -/
def sectionRead (syms : List Symbol) (s : Nat) : List UInt8 :=
  (irDecodeSamsungAcSection syms (UInt8.ofNat s)).2

/-- Section `s` decodes and passes its checksum. -/
def passes (syms : List Symbol) (s : Nat) : Bool :=
  (irDecodeSamsungAcSection syms (UInt8.ofNat s)).1 == 1 &&
    irCodecSamsungAcVerify (sectionRead syms s)

/-- The body of the section loop. -/
def collectSection (syms : List Symbol) (c : Collector) (s : Nat) : Collector :=
  if !passes syms s then c
  else
    let other := s = 0 ∧ c.held 0 = true ∧ sectionRead syms s ≠ c.sec 0
    let held := if other then fun i => c.held i && i != 1 && i != 2 else c.held
    ⟨Function.update c.sec s (sectionRead syms s), Function.update held s true⟩

def collectSections (syms : List Symbol) (c : Collector) : Collector :=
  [0, 1, 2].foldl (collectSection syms) c

def irRxFrameCb (c : Collector) (syms : List Symbol) : Collector × Option RxReport :=
  if (irDecodeSamsungAcSection syms 0).1 < 0 then
    let (rc, dec) := irDecode syms .zero
    (c, if rc = 0 ∧ dec.proto ≠ .samsungAc then some (.other dec) else none)
  else
    let c := collectSections syms c
    if c.held 0 && c.held 1 && c.held 2 then
      ({c with held := fun i => c.held i && i != 0 && i != 1 && i != 2},
        some (.samsungAc (c.sec 0 ++ c.sec 1 ++ c.sec 2)))
    else (c, none)

/-- A frame, and the code it is a reception of: a section that passes is the
section of that code. -/
structure Captured where
  syms : List Symbol
  code : List UInt8
  length : code.length = 21
  reception : ∀ s, s < 3 → passes syms s = true → sectionRead syms s = sectionOf code s

/-- The callback, with the codes transmitted and reported so far. -/
structure Receiver where
  collector : Collector
  transmitted : List (List UInt8)
  reported : List (List UInt8)

def Receiver.start : Receiver := ⟨.empty, [], []⟩

def RxReport.codes : Option RxReport → List (List UInt8)
  | some (.samsungAc code) => [code]
  | _ => []

def receiverSystem : System Receiver Captured where
  step r f := some
    ⟨(irRxFrameCb r.collector f.syms).1, r.transmitted ++ [f.code],
      r.reported ++ RxReport.codes (irRxFrameCb r.collector f.syms).2⟩

/-- Another section 0 than the one held drops the two after it. -/
def Collector.drops (c : Collector) (syms : List Symbol) : Prop :=
  passes syms 0 = true ∧ c.held 0 = true ∧ sectionRead syms 0 ≠ c.sec 0

/-- A frame that adds a section leaves none held of another code: each held one
is of the same code, or is received again, or is dropped. -/
def KeepsOne (r : Receiver) (f : Captured) : Prop :=
  0 ≤ (irDecodeSamsungAcSection f.syms 0).1 → (∃ s < 3, passes f.syms s = true) →
    ∀ s < 3, r.collector.held s = true →
      r.collector.sec s = sectionOf f.code s ∨ passes f.syms s = true ∨
        s ≠ 0 ∧ r.collector.drops f.syms

/-- Every code that was reported is one that was transmitted. -/
def Receiver.Unmixed (r : Receiver) : Prop :=
  ∀ code ∈ r.reported, code ∈ r.transmitted

/-! What one frame leaves held. -/

theorem collectSection_sec (syms : List Symbol) (c : Collector) (s i : Nat) :
    (collectSection syms c s).sec i =
      if i = s ∧ passes syms s = true then sectionRead syms s else c.sec i := by
  unfold collectSection
  cases hpass : passes syms s
  · simp
  · by_cases hi : i = s
    · simp [hi]
    · simp [hi]

theorem collectSections_sec (syms : List Symbol) (c : Collector) {s : Nat} (hs : s < 3) :
    (collectSections syms c).sec s =
      if passes syms s = true then sectionRead syms s else c.sec s := by
  simp only [collectSections, List.foldl_cons, List.foldl_nil, collectSection_sec]
  interval_cases s <;> simp

theorem collectSection_fail {syms : List Symbol} {s : Nat} (hpass : passes syms s = false)
    (c : Collector) : collectSection syms c s = c := by
  simp [collectSection, hpass]

/-- A later section drops nothing. -/
theorem collectSection_held {syms : List Symbol} {c : Collector} {s i : Nat} (hs : s ≠ 0)
    (hi : i ≠ s) : (collectSection syms c s).held i = c.held i := by
  cases hpass : passes syms s <;> simp [collectSection, hpass, hs, hi]

theorem collectSection_drops {syms : List Symbol} {c : Collector} {i : Nat} (hi : i ≠ 0)
    (hlt : i < 3) (hheld : (collectSection syms c 0).held i = true) :
    c.held i = true ∧ ¬c.drops syms := by
  cases hpass : passes syms 0
  · rw [collectSection_fail hpass] at hheld
    exact ⟨hheld, fun hdrops => absurd hdrops.1 (by simp [hpass])⟩
  · simp only [collectSection, hpass, Bool.not_true, Bool.false_eq_true, if_false, true_and,
      Function.update_of_ne hi] at hheld
    split at hheld
    · interval_cases i <;> simp at hheld hi
    · rename_i hother
      exact ⟨hheld, fun hdrops => hother hdrops.2⟩

/-- A section that is held and was not received has been held before. -/
theorem collectSections_held {syms : List Symbol} {c : Collector} {s : Nat} (hs : s < 3)
    (hheld : (collectSections syms c).held s = true) (hpass : passes syms s = false) :
    c.held s = true ∧ (s ≠ 0 → ¬c.drops syms) := by
  simp only [collectSections, List.foldl_cons, List.foldl_nil] at hheld
  interval_cases s
  · rw [collectSection_held (by decide) (by decide),
      collectSection_held (by decide) (by decide), collectSection_fail hpass] at hheld
    exact ⟨hheld, fun h => absurd rfl h⟩
  · rw [collectSection_held (by decide) (by decide), collectSection_fail hpass] at hheld
    obtain ⟨hc, hdrops⟩ := collectSection_drops (by decide) (by decide) hheld
    exact ⟨hc, fun _ => hdrops⟩
  · rw [collectSection_fail hpass, collectSection_held (by decide) (by decide)] at hheld
    obtain ⟨hc, hdrops⟩ := collectSection_drops (by decide) (by decide) hheld
    exact ⟨hc, fun _ => hdrops⟩

theorem collectSections_fail {syms : List Symbol}
    (hpass : ∀ s < 3, passes syms s = false) (c : Collector) : collectSections syms c = c := by
  simp only [collectSections, List.foldl_cons, List.foldl_nil]
  rw [collectSection_fail (hpass 0 (by decide)), collectSection_fail (hpass 1 (by decide)),
    collectSection_fail (hpass 2 (by decide))]

/-! One code at a time. -/

/-- All sections held are sections of `code`. -/
def Collector.Of (c : Collector) (code : List UInt8) : Prop :=
  ∀ s < 3, c.held s = true → c.sec s = sectionOf code s

/-- The sections held belong to one code that was transmitted, if there are any. -/
structure Receiver.Inv (r : Receiver) : Prop where
  one : (∀ s < 3, r.collector.held s = false) ∨
    ∃ code ∈ r.transmitted, code.length = 21 ∧ r.collector.Of code
  unmixed : r.Unmixed

theorem Receiver.inv_start : Receiver.start.Inv :=
  ⟨Or.inl fun _ _ => rfl, by simp [Receiver.Unmixed, Receiver.start]⟩

/-- After a frame that adds a section, all that is held is of its code. -/
theorem KeepsOne.of {r : Receiver} {f : Captured} (h : KeepsOne r f)
    (hdecode : 0 ≤ (irDecodeSamsungAcSection f.syms 0).1)
    (hadds : ∃ s < 3, passes f.syms s = true) :
    (collectSections f.syms r.collector).Of f.code := by
  intro s hs hheld
  rw [collectSections_sec f.syms r.collector hs]
  cases hpass : passes f.syms s
  · obtain ⟨hold, hkept⟩ := collectSections_held hs hheld hpass
    rcases h hdecode hadds s hs hold with hcode | hpass' | ⟨hne, hdrops⟩
    · simpa using hcode
    · rw [hpass] at hpass'
      cases hpass'
    · exact absurd hdrops (hkept hne)
  · simpa using f.reception s hs hpass

/-- Three sections of one code are the code. -/
theorem Collector.Of.report {c : Collector} {code : List UInt8} (h : c.Of code)
    (hlen : code.length = 21) (h₀ : c.held 0 = true) (h₁ : c.held 1 = true)
    (h₂ : c.held 2 = true) : c.sec 0 ++ c.sec 1 ++ c.sec 2 = code := by
  rw [h 0 (by decide) h₀, h 1 (by decide) h₁, h 2 (by decide) h₂]
  have hflat := sections_flatten code 3 0 (by omega)
  simpa [List.range'] using hflat

/-- The collector after a frame, before the report. -/
theorem Receiver.Inv.collect {r : Receiver} (h : r.Inv) {f : Captured}
    (hone : KeepsOne r f) (hdecode : 0 ≤ (irDecodeSamsungAcSection f.syms 0).1) :
    (∀ s < 3, (collectSections f.syms r.collector).held s = false) ∨
      ∃ code ∈ r.transmitted ++ [f.code], code.length = 21 ∧
        (collectSections f.syms r.collector).Of code := by
  by_cases hadds : ∃ s < 3, passes f.syms s = true
  · exact Or.inr ⟨f.code, by simp, f.length, hone.of hdecode hadds⟩
  · have hfail : ∀ s < 3, passes f.syms s = false := by
      intro s hs
      rw [← Bool.not_eq_true]
      exact fun hpass => hadds ⟨s, hs, hpass⟩
    rw [collectSections_fail hfail]
    rcases h.one with hnone | ⟨code, hmem, hlen, hof⟩
    · exact Or.inl hnone
    · exact Or.inr ⟨code, by simp [hmem], hlen, hof⟩

theorem Receiver.Inv.step {r r' : Receiver} {f : Captured} (h : r.Inv)
    (hone : KeepsOne r f) (hstep : receiverSystem.step r f = some r') : r'.Inv := by
  obtain rfl := Option.some.inj hstep
  have hmono : ∀ code ∈ r.reported, code ∈ r.transmitted ++ [f.code] := by
    intro code hcode
    simp [h.unmixed code hcode]
  unfold irRxFrameCb
  split
  · -- the frame has no header of a section 0, and nothing is collected
    constructor
    · rcases h.one with hnone | ⟨code, hmem, hlen, hof⟩
      · exact Or.inl hnone
      · exact Or.inr ⟨code, by simp [hmem], hlen, hof⟩
    · intro code hcode
      apply hmono
      dsimp only at hcode
      split at hcode <;> simpa [RxReport.codes] using hcode
  · rename_i hdecode
    have hcollect := h.collect hone (Int.not_lt.mp hdecode)
    dsimp only
    split
    · rename_i hall
      simp only [Bool.and_eq_true] at hall
      obtain ⟨⟨h₀, h₁⟩, h₂⟩ := hall
      refine ⟨Or.inl ?_, ?_⟩
      · intro s hs
        interval_cases s <;> simp
      · rcases hcollect with hnone | ⟨code, hmem, hlen, hof⟩
        · rw [hnone 0 (by decide)] at h₀
          cases h₀
        · intro code' hcode'
          simp only [RxReport.codes, hof.report hlen h₀ h₁ h₂, List.mem_append,
            List.mem_singleton] at hcode'
          rcases hcode' with hold | rfl
          · exact hmono code' hold
          · exact hmem
    · refine ⟨hcollect, ?_⟩
      intro code hcode
      apply hmono
      simpa [RxReport.codes] using hcode

/-- If every frame that adds a section leaves none held of another code, every
reported code is one of the transmitted ones. -/
theorem no_mixed_codes (frames : List Captured)
    (hone : receiverSystem.Meets KeepsOne .start frames) :
    receiverSystem.Always Receiver.Unmixed .start frames := by
  have hinv := System.always_of_meets (fun _ _ _ h hone hs => Receiver.Inv.step h hone hs)
    Receiver.inv_start hone
  exact hinv.mono fun _ h => h.unmixed

/-! The codes of `k_samsung_ac_on_21` and `k_samsung_ac_off_21`, as received. -/

def kSamsungAcOff21 : List UInt8 :=
  [0x02, 0xB2, 0x0F, 0x00, 0x00, 0x00, 0xC0,
    0x01, 0xD2, 0x0F, 0x00, 0x00, 0x00, 0x00,
    0x01, 0x72, 0x0F, 0x00, 0x20, 0x11, 0xC8]

/-- The symbols of a code from its first section header on. -/
def receivedSyms (code : List UInt8) : List Symbol :=
  (List.range 3).flatMap (encodeSection code 3)

/-- A reception of a code in which one data symbol of each of these sections is damaged
in place: its mark has come out too long. -/
def damagedSyms (code : List UInt8) (damaged : List Nat) : List Symbol :=
  damaged.foldl (fun syms s => syms.set (s * 58 + 5) ⟨1200, 436⟩) (receivedSyms code)

def Captured.ofSyms (syms : List Symbol) (code : List UInt8) (length : code.length = 21)
    (check : ∀ s : Fin 3, passes syms s = true → sectionRead syms s = sectionOf code s) :
    Captured :=
  ⟨syms, code, length, fun s hs => check ⟨s, hs⟩⟩

/-- POWER_ON with its last section damaged, and POWER_OFF with its first one. -/
def damagedOn : Captured :=
  .ofSyms (damagedSyms kSamsungAcOn21 [2]) kSamsungAcOn21 rfl (by decide +kernel)

def damagedOff : Captured :=
  .ofSyms (damagedSyms kSamsungAcOff21 [0]) kSamsungAcOff21 rfl (by decide +kernel)

/-- POWER_OFF without its last section, and POWER_ON in two parts. -/
def startOff : Captured :=
  .ofSyms (damagedSyms kSamsungAcOff21 [2]) kSamsungAcOff21 rfl (by decide +kernel)

def firstOn : Captured :=
  .ofSyms (damagedSyms kSamsungAcOn21 [1, 2]) kSamsungAcOn21 rfl (by decide +kernel)

def restOn : Captured :=
  .ofSyms (damagedSyms kSamsungAcOn21 [0]) kSamsungAcOn21 rfl (by decide +kernel)

/-- The first section of POWER_ON drops what is held of POWER_OFF, and the code is put
together from this frame and the next. -/
theorem no_mixed_codes_collected :
    (∃ r, receiverSystem.exec .start [startOff, firstOn, restOn] = some r ∧
      r.reported = [kSamsungAcOn21]) ∧
      receiverSystem.Always Receiver.Unmixed .start [startOff, firstOn, restOn] := by
  refine ⟨⟨_, rfl, by decide +kernel⟩, no_mixed_codes _ ?_⟩
  intro r₁ hstep₁
  obtain rfl := Option.some.inj hstep₁
  refine ⟨?_, ?_⟩
  · intro _ _ s _ hheld
    cases hheld
  intro r₂ hstep₂
  obtain rfl := Option.some.inj hstep₂
  refine ⟨?_, ?_⟩
  · intro _ _ s hs hheld
    interval_cases s
    · exact Or.inr (Or.inl (by decide +kernel))
    · exact Or.inr (Or.inr ⟨by decide, by decide +kernel, by decide +kernel, by decide +kernel⟩)
    · exact absurd hheld (by decide +kernel)
  intro r₃ _
  refine ⟨?_, trivial⟩
  intro _ _ s hs hheld
  interval_cases s
  · exact Or.inl (by decide +kernel)
  · exact absurd hheld (by decide +kernel)
  · exact absurd hheld (by decide +kernel)

/-- The two sections of POWER_ON and the last one of POWER_OFF are reported. -/
theorem mixed_code_reported :
    ∃ r, receiverSystem.exec .start [damagedOn, damagedOff] = some r ∧
      r.transmitted = [kSamsungAcOn21, kSamsungAcOff21] ∧
      r.reported = [kSamsungAcOn21.take 14 ++ kSamsungAcOff21.drop 14] ∧ ¬r.Unmixed := by
  refine ⟨_, rfl, rfl, by decide +kernel, ?_⟩
  intro h
  have hmem := h (kSamsungAcOn21.take 14 ++ kSamsungAcOff21.drop 14) (by decide +kernel)
  exact absurd hmem (by decide +kernel)

end Rw612.Ir
