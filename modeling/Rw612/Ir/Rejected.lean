import Rw612.Ir.ChecksumLaws
import Rw612.Ir.Transmit

/-!
What a call of `ir_aircon.c` that fails leaves of the cache. The learned frames
commit after the transmission; a new temperature is written into the cache
before it, and stays there when the transmitter refuses the frame.
-/

namespace Rw612.Ir

open Lib

/-- The cache, and what is reported of it. -/
structure Aircon.Same (s s' : Aircon) : Prop where
  samPower : s'.samPower = s.samPower
  sam14 : s'.sam14 = s.sam14
  powered (brand : Brand) : irAirconIsPowered s' brand = irAirconIsPowered s brand
  tempC (brand : Brand) : irAirconGetTempC s' brand = irAirconGetTempC s brand

theorem Aircon.Same.refl (s : Aircon) : s.Same s := by
  constructor
  · rfl
  · rfl
  · exact fun _ => rfl
  · exact fun _ => rfl

/-- A call of `ir_aircon_send` or `ir_aircon_set_temp_c` that returns an error
changes nothing. -/
def FailureKeeps (s : Aircon) (e : AirconOp × TxAnswer) : Prop :=
  match e.1 with
  | .send _ _ | .setTempC _ _ =>
      (e.1.apply s e.2).2.rc ≠ IR_AIRCON_OK → s.Same (e.1.apply s e.2).1
  | .init | .sendRaw _ _ => True

/-- A temperature whose frame is refused is the cached one. -/
def RefusedIsCached (s : Aircon) (e : AirconOp × TxAnswer) : Prop :=
  match e.1 with
  | .setTempC .samsung t =>
      s.samPower = true → e.2.ready = true → e.2.sendRc ≠ 0 →
        clampTempC t = samsungGetTempC s.sam14
  | _ => True

/-! Writing the cached temperature once more. -/

theorem Sam14.ext {a b : Sam14} (h : a.bytes = b.bytes) : a = b := by
  obtain ⟨bytes, hlen⟩ := a
  obtain rfl : bytes = b.bytes := h
  rfl

theorem Sam14.fixChecksums_of_verify {sam14 : Sam14}
    (h : irCodecSamsungAcVerifyAll sam14.bytes = true) : sam14.fixChecksums = sam14 := by
  have hlen := sam14.length
  have h₀ : (sam14.bytes.take 7).length = 7 := by simp [hlen]
  have h₁ : (sam14.bytes.drop 7).length = 7 := by simp [hlen]
  rw [← List.take_append_drop 7 sam14.bytes, irCodecSamsungAcVerifyAll_append h₀ h₁,
    Bool.and_eq_true, irCodecSamsungAcVerify_iff_fix h₀, irCodecSamsungAcVerify_iff_fix h₁] at h
  apply Sam14.ext
  change irCodecSamsungAcFixChecksums14 sam14.bytes = sam14.bytes
  rw [← List.take_append_drop 7 sam14.bytes, irCodecSamsungAcFixChecksums14_append h₀ h₁, h.1,
    h.2]

theorem samsungSetTempC_of_tempC {sam14 : Sam14} {t : UInt8}
    (h : clampTempC t = samsungGetTempC sam14) : samsungSetTempC sam14 t = sam14 := by
  have hindex : IR_SAC_TEMP_BYTE_INDEX < sam14.bytes.length := by
    rw [sam14.length]
    decide
  have hnibble : clampTempC t - IR_AIRCON_SAMSUNG_TEMP_MIN_C =
      highNibble (sam14.bytes.getD IR_SAC_TEMP_BYTE_INDEX 0) := by
    rw [h, samsungGetTempC, UInt8.add_sub_cancel]
  have hbyte : sam14.bytes.getD IR_SAC_TEMP_BYTE_INDEX 0 = sam14.bytes[IR_SAC_TEMP_BYTE_INDEX] := by
    simp [List.getD_eq_getElem?_getD, List.getElem?_eq_getElem hindex]
  apply Sam14.ext
  change sam14.bytes.modify _ _ = sam14.bytes
  rw [List.modify_eq_set_getElem?, List.getElem?_eq_getElem hindex]
  have hself : setHighNibble sam14.bytes[IR_SAC_TEMP_BYTE_INDEX]
      (clampTempC t - IR_AIRCON_SAMSUNG_TEMP_MIN_C) = sam14.bytes[IR_SAC_TEMP_BYTE_INDEX] := by
    apply setHighNibble_eq_self
    rw [hnibble, hbyte, lowNibble_highNibble]
  simp [hself]

/-- The edit of a cache that verifies stands still at its own temperature only. -/
theorem Sam14.withTempC_eq_self_iff {sam14 : Sam14}
    (h : irCodecSamsungAcVerifyAll sam14.bytes = true) (t : UInt8) :
    sam14.withTempC t = sam14 ↔ clampTempC t = samsungGetTempC sam14 := by
  constructor
  · intro hsame
    have htemp := sam14.withTempC_tempC t
    rw [hsame] at htemp
    exact htemp.symm
  · intro htemp
    rw [withTempC, samsungSetTempC_of_tempC htemp, fixChecksums_of_verify h]

/-! The calls. -/

theorem execSamsungLearned_failure (s : Aircon) (action : AirconAction) (tx : TxAnswer)
    (h : (execSamsungLearned s action tx).2.rc ≠ IR_AIRCON_OK) :
    (execSamsungLearned s action tx).1 = s := by
  cases action with
  | powerOn | powerOff => exact if_neg h
  | tempUp | tempDown | other => rfl

theorem irAirconSend_failure (s : Aircon) (brand : Brand) (action : AirconAction) (tx : TxAnswer)
    (h : (irAirconSend s brand action tx).2.rc ≠ IR_AIRCON_OK) :
    (irAirconSend s brand action tx).1 = s := by
  unfold irAirconSend at h ⊢
  split
  · rfl
  · rename_i hready
    rw [if_neg hready] at h
    cases action with
    | other => rfl
    | powerOn | powerOff | tempUp | tempDown =>
        cases brand with
        | samsung => exact execSamsungLearned_failure s _ tx h
        | lg | carrierKr | winia | paseco | hisense | other => rfl

theorem irAirconSetTempC_brand {s : Aircon} {brand : Brand} (hbrand : brand ≠ .samsung)
    (t : UInt8) (tx : TxAnswer) : (irAirconSetTempC s brand t tx).1 = s := by
  rcases irAirconSetTempC_cases s brand t tx with ⟨rc, -, heq⟩ | ⟨-, -, hsamsung, -⟩
  · rw [heq]
  · exact absurd hsamsung hbrand

theorem failureKeeps_setTempC {s : Aircon} (hinv : s.Inv) (t : UInt8) (tx : TxAnswer) :
    FailureKeeps s (.setTempC .samsung t, tx) ↔
      RefusedIsCached s (.setTempC .samsung t, tx) := by
  simp only [FailureKeeps, RefusedIsCached, AirconOp.apply]
  constructor
  · intro hkeeps hpower hready hsend
    have hcache := hinv.verifies hpower
    rcases irAirconSetTempC_cases s .samsung t tx with
      ⟨rc, hrc, heq⟩ | ⟨-, -, -, -, syms, -, heq⟩
    · -- a powered cache and a ready transmitter: nothing refuses the call
      have hinited := hinv.inited hpower
      have hlen : (s.sam14.withTempC t).bytes.length = 2 * 7 := Sam14.length _
      obtain ⟨syms, -, hframe⟩ := sendSymbolFrame_spec hlen (by decide) (by decide) tx
      have hcall : (irAirconSetTempC s .samsung t tx).2.frame = some syms := by
        rw [Sam14.withTempC] at hframe
        simp [irAirconSetTempC, samsungSendStateWithTemp, hinited, hready, hpower, hframe]
      rw [heq] at hcall
      cases hcall
    · rw [heq] at hkeeps
      have hfail : (if tx.sendRc = 0 then IR_AIRCON_OK else IR_AIRCON_ERR_TX) ≠ IR_AIRCON_OK := by
        rw [if_neg hsend]
        decide
      exact (Sam14.withTempC_eq_self_iff hcache t).mp (hkeeps hfail).sam14
  · intro hcached hfail
    rcases irAirconSetTempC_cases s .samsung t tx with
      ⟨rc, -, heq⟩ | ⟨-, hready, -, hpower, syms, -, heq⟩
    · rw [heq]
      exact Aircon.Same.refl s
    · have hsend : tx.sendRc ≠ 0 := by
        intro hzero
        rw [heq, if_pos hzero] at hfail
        exact hfail rfl
      have hsame := (Sam14.withTempC_eq_self_iff (hinv.verifies hpower) t).mpr
        (hcached hpower hready hsend)
      rw [heq, hsame]
      exact Aircon.Same.refl s

theorem failureKeeps_iff {s : Aircon} (hinv : s.Inv) (e : AirconOp × TxAnswer) :
    FailureKeeps s e ↔ RefusedIsCached s e := by
  obtain ⟨op, tx⟩ := e
  cases op with
  | init | sendRaw => exact Iff.rfl
  | send brand action =>
      apply iff_of_true
      · intro hfail
        have hsame : ((AirconOp.send brand action).apply s tx).1 = s :=
          irAirconSend_failure s brand action tx hfail
        rw [hsame]
        exact Aircon.Same.refl s
      · trivial
  | setTempC brand t =>
      by_cases hbrand : brand = .samsung
      · rw [hbrand]
        exact failureKeeps_setTempC hinv t tx
      · apply iff_of_true
        · intro _
          change s.Same (irAirconSetTempC s brand t tx).1
          rw [irAirconSetTempC_brand hbrand]
          exact Aircon.Same.refl s
        · cases brand with
          | samsung => exact absurd rfl hbrand
          | lg | carrierKr | winia | paseco | hisense | other => trivial

/-- Along any run, every failed call keeps the cache if and only if every
temperature whose frame the transmitter refuses is the one that is cached. -/
theorem failure_keeps_iff (ops : List (AirconOp × TxAnswer)) :
    airconSystem.Meets FailureKeeps .powerUp ops ↔
      airconSystem.Meets RefusedIsCached .powerUp ops := by
  constructor
  · apply System.meets_of_meets _ Aircon.inv_powerUp
    exact fun s e s' h hkeeps hs => ⟨(failureKeeps_iff h e).mp hkeeps, h.step hs⟩
  · apply System.meets_of_meets _ Aircon.inv_powerUp
    exact fun s e s' h hcached hs => ⟨(failureKeeps_iff h e).mpr hcached, h.step hs⟩

/-- After POWER_ON the cache is at 24 °C. A set to 19 °C that the transmitter
times out on moves it to 19 °C. -/
theorem refused_temp_stays :
    ¬airconSystem.Meets FailureKeeps .powerUp
      [(.init, ⟨true, 0, 0⟩), (.send .samsung .powerOn, ⟨true, 0, 0⟩),
        (.setTempC .samsung 19, ⟨true, 0, -ETIMEDOUT⟩)] := by
  intro h
  have hlast := ((h _ rfl).2 _ rfl).2 _ rfl
  have htemp := (hlast.1 (by decide +kernel)).tempC .samsung
  revert htemp
  decide +kernel

end Rw612.Ir
