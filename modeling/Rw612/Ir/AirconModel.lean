import Rw612.Ir.Aircon

/-!
The state machine that `ir_aircon.h` documents for the Samsung brand, and how
far the calls of `ir_aircon.c` follow it. The power actions and an absolute
temperature do; TEMP_UP and TEMP_DOWN send a learned frame and leave the cached
temperature as it is.
-/

namespace Rw612.Ir

open Lib

/-- What `ir_aircon_is_powered` and `ir_aircon_get_temp_c` report. -/
structure AirconModel where
  powered : Bool
  tempC : UInt8
  deriving DecidableEq, Repr

inductive SamsungOp where
  | powerOn
  | powerOff
  | tempUp
  | tempDown
  | setTempC (tempC : UInt8)
  deriving DecidableEq, Repr

def SamsungOp.toOp : SamsungOp → AirconOp
  | .powerOn => .send .samsung .powerOn
  | .powerOff => .send .samsung .powerOff
  | .tempUp => .send .samsung .tempUp
  | .tempDown => .send .samsung .tempDown
  | .setTempC t => .setTempC .samsung t

/-- The documented machine. The temperature that POWER_ON caches is that of the
frame it sends, which the header leaves open. -/
inductive Documented : AirconModel → SamsungOp → AirconModel → Prop
  | powerOn {m : AirconModel} {t : UInt8} (hmin : IR_AIRCON_SAMSUNG_TEMP_MIN_C ≤ t)
      (hmax : t ≤ IR_AIRCON_SAMSUNG_TEMP_MAX_C) : Documented m .powerOn ⟨true, t⟩
  | powerOff {m : AirconModel} : Documented m .powerOff ⟨false, 0⟩
  | tempUp {t : UInt8} : Documented ⟨true, t⟩ .tempUp ⟨true, clampTempC (t + 1)⟩
  | tempDown {t : UInt8} : Documented ⟨true, t⟩ .tempDown ⟨true, clampTempC (t - 1)⟩
  | setTempC {t₀ t : UInt8} : Documented ⟨true, t₀⟩ (.setTempC t) ⟨true, clampTempC t⟩

def Aircon.view (s : Aircon) : AirconModel :=
  ⟨irAirconIsPowered s .samsung, irAirconGetTempC s .samsung⟩

/-- The temperature that a frame carries, in the fifth byte of its last section. -/
def frameTempC (syms : List Symbol) : Option UInt8 :=
  match irDecode syms .zero with
  | (0, dec) =>
      if dec.proto = .samsungAc then
        some (highNibble (dec.rawBytes.getD (dec.byteCount.toNat - 3) 0) +
          IR_AIRCON_SAMSUNG_TEMP_MIN_C)
      else none
  | _ => none

def SamsungOp.isTemperature : SamsungOp → Bool
  | .powerOn | .powerOff => false
  | .tempUp | .tempDown | .setTempC _ => true

/-- The call moves the machine as documented, and the frame of a temperature
operation carries the new temperature. -/
def Follows (s : Aircon) (a : SamsungOp × TxAnswer) : Prop :=
  Documented s.view a.1 (a.1.toOp.apply s a.2).1.view ∧
    (a.1.isTemperature = true →
      (a.1.toOp.apply s a.2).2.frame.bind frameTempC =
        some (irAirconGetTempC (a.1.toOp.apply s a.2).1 .samsung))

/-- Successful calls for the Samsung brand. -/
def samsungSystem : System Aircon (SamsungOp × TxAnswer) where
  step s a :=
    if (a.1.toOp.apply s a.2).2.rc = IR_AIRCON_OK then some (a.1.toOp.apply s a.2).1 else none

theorem samsungSystem_step {s s' : Aircon} {a : SamsungOp × TxAnswer}
    (h : samsungSystem.step s a = some s') :
    (a.1.toOp.apply s a.2).2.rc = IR_AIRCON_OK ∧ s' = (a.1.toOp.apply s a.2).1 := by
  simp only [samsungSystem] at h
  split_ifs at h with hrc
  exact ⟨hrc, (Option.some.inj h).symm⟩

theorem frameTempC_of_decodesTo {syms : List Symbol} {bytes : List UInt8}
    (h : DecodesTo syms bytes) (hlen : 3 ≤ bytes.length) :
    frameTempC syms = some (highNibble (bytes.getD (bytes.length - 3) 0) +
      IR_AIRCON_SAMSUNG_TEMP_MIN_C) := by
  obtain ⟨dec, hdec, hproto, hcount, hraw⟩ := h .zero
  have hindex : bytes.length - 3 < bytes.length := by omega
  have hbyte := @List.getElem?_take_of_lt _ dec.rawBytes _ _ hindex
  rw [hraw] at hbyte
  simp [frameTempC, hdec, hproto, hcount, hbyte]

/-- A successful action has gone to the learned frames. -/
theorem irAirconSend_success {s : Aircon} {action : AirconAction} {tx : TxAnswer}
    (hok : (irAirconSend s .samsung action tx).2.rc = IR_AIRCON_OK) :
    s.inited = true ∧ irAirconSend s .samsung action tx = execSamsungLearned s action tx := by
  unfold irAirconSend at hok ⊢
  split at hok
  · exact absurd hok (by simp [Reply.refused, IR_AIRCON_ERR_NOT_READY, IR_AIRCON_OK])
  · rename_i hready
    rw [if_neg hready]
    simp only [Bool.not_eq_true', not_or, Bool.not_eq_false] at hready
    refine ⟨hready.1, ?_⟩
    cases action <;> rfl

theorem Aircon.Inv.view {s : Aircon} (h : s.Inv) :
    s.view = if s.samPower then ⟨true, samsungGetTempC s.sam14⟩ else ⟨false, 0⟩ := by
  by_cases hpower : s.samPower = true
  · have hget := irAirconGetTempC_powered (h.inited hpower) hpower
    simp [Aircon.view, irAirconIsPowered, hget, hpower]
  · simp [Aircon.view, irAirconIsPowered, irAirconGetTempC, hpower]

/-! The operations that follow the machine. -/

theorem follows_powerOn {s : Aircon} (h : s.Inv) {tx : TxAnswer}
    (hok : (irAirconSend s .samsung .powerOn tx).2.rc = IR_AIRCON_OK) :
    Follows s (.powerOn, tx) := by
  obtain ⟨hinited, hsend⟩ := irAirconSend_success hok
  rw [hsend] at hok
  refine ⟨?_, by simp [SamsungOp.isTemperature]⟩
  change Documented s.view .powerOn (irAirconSend s .samsung .powerOn tx).1.view
  have hinv := h.execSamsungLearned hinited .powerOn tx
  have hnext : (execSamsungLearned s .powerOn tx).1 =
      {s with sam14 := kSamsungAcOn14, samPower := true} := if_pos hok
  rw [hsend, hinv.view, hnext, kSamsungAcOn14_tempC]
  obtain ⟨hmin, hmax, -⟩ := clampTempC_bounds 24
  exact Documented.powerOn hmin hmax

theorem follows_powerOff {s : Aircon} (h : s.Inv) {tx : TxAnswer}
    (hok : (irAirconSend s .samsung .powerOff tx).2.rc = IR_AIRCON_OK) :
    Follows s (.powerOff, tx) := by
  obtain ⟨hinited, hsend⟩ := irAirconSend_success hok
  rw [hsend] at hok
  refine ⟨?_, by simp [SamsungOp.isTemperature]⟩
  change Documented s.view .powerOff (irAirconSend s .samsung .powerOff tx).1.view
  have hinv := h.execSamsungLearned hinited .powerOff tx
  have hnext : (execSamsungLearned s .powerOff tx).1 = {s with samPower := false} :=
    if_pos hok
  rw [hsend, hinv.view, hnext]
  exact Documented.powerOff

theorem follows_setTempC {s : Aircon} (h : s.Inv) {t : UInt8} {tx : TxAnswer}
    (hok : (irAirconSetTempC s .samsung t tx).2.rc = IR_AIRCON_OK) :
    Follows s (.setTempC t, tx) := by
  have hinv := h.setTempC .samsung t tx
  rcases irAirconSetTempC_cases s .samsung t tx with
    ⟨rc, hrc, heq⟩ | ⟨hinited, -, -, hpower, syms, henc, heq⟩
  · rw [heq] at hok
    exact absurd hok hrc
  have hlen : (s.sam14.withTempC t).bytes.length = 2 * 7 := Sam14.length _
  have hdecode := decodesTo_of_encode hlen (by decide) (by decide) henc
  have hframe := frameTempC_of_decodesTo hdecode (by omega)
  have htemp := s.sam14.withTempC_tempC t
  have hget := @irAirconGetTempC_powered {s with sam14 := s.sam14.withTempC t} hinited hpower
  constructor
  · change Documented s.view (.setTempC t) (irAirconSetTempC s .samsung t tx).1.view
    rw [hinv.view, h.view, heq, if_pos hpower, if_pos hpower, htemp]
    exact Documented.setTempC
  · intro _
    change (irAirconSetTempC s .samsung t tx).2.frame.bind frameTempC =
      some (irAirconGetTempC (irAirconSetTempC s .samsung t tx).1 .samsung)
    rw [heq, hget, Option.bind_some, hframe, hlen]
    rfl

/-! The two that do not. -/

theorem Documented.powered {m m' : AirconModel} {op : SamsungOp} (h : Documented m op m')
    (hop : op.isTemperature = true) : m.powered = true := by
  cases h with
  | powerOn | powerOff => cases hop
  | tempUp | tempDown | setTempC => rfl

/-- A learned temperature frame carries its own temperature, and the cached one
stays; so no state is both. -/
theorem not_follows_learned {s : Aircon} {op : SamsungOp} {tx : TxAnswer}
    {bytes : List UInt8} {t : UInt8} (hlen : bytes.length = 7)
    (hop : op.isTemperature = true)
    (happly : op.toOp.apply s tx = (s, sendLearnedRaw bytes tx))
    (htemp : highNibble (bytes.getD 4 0) + IR_AIRCON_SAMSUNG_TEMP_MIN_C = t)
    (hmove : ¬Documented ⟨true, t⟩ op ⟨true, t⟩) : ¬Follows s (op, tx) := by
  rintro ⟨hdocumented, hcarried⟩
  obtain ⟨syms, hdecode, hsend⟩ :=
    @sendLearnedRaw_spec bytes 1 (by omega) (by decide) (by decide) tx
  have hframe := frameTempC_of_decodesTo hdecode (by omega)
  have hget := hcarried hop
  rw [happly, hsend, Option.bind_some, hframe, hlen] at hget
  have hview : s.view = ⟨true, t⟩ := by
    rw [← htemp]
    exact congrArg₂ AirconModel.mk (hdocumented.powered hop) (Option.some.inj hget).symm
  rw [happly, hview] at hdocumented
  exact hmove hdocumented

theorem not_follows_tempUp {s : Aircon} {tx : TxAnswer}
    (hok : (irAirconSend s .samsung .tempUp tx).2.rc = IR_AIRCON_OK) :
    ¬Follows s (.tempUp, tx) := by
  apply @not_follows_learned s .tempUp tx sSamsungAcLearnedTempUp7 23 rfl rfl
  · exact (irAirconSend_success hok).2
  · decide
  · intro h
    cases h

theorem not_follows_tempDown {s : Aircon} {tx : TxAnswer}
    (hok : (irAirconSend s .samsung .tempDown tx).2.rc = IR_AIRCON_OK) :
    ¬Follows s (.tempDown, tx) := by
  apply @not_follows_learned s .tempDown tx sSamsungAcLearnedTempDown7 21 rfl rfl
  · exact (irAirconSend_success hok).2
  · decide
  · intro h
    cases h

/-- The operations that send a learned frame for one step of temperature. -/
def SamsungOp.isStep : SamsungOp → Bool
  | .tempUp | .tempDown => true
  | .powerOn | .powerOff | .setTempC _ => false

theorem follows_iff {s : Aircon} (h : s.Inv) {a : SamsungOp × TxAnswer}
    (hok : (a.1.toOp.apply s a.2).2.rc = IR_AIRCON_OK) :
    Follows s a ↔ a.1.isStep = false := by
  obtain ⟨op, tx⟩ := a
  cases op with
  | powerOn => exact iff_of_true (follows_powerOn h hok) rfl
  | powerOff => exact iff_of_true (follows_powerOff h hok) rfl
  | tempUp => exact iff_of_false (not_follows_tempUp hok) (by simp [SamsungOp.isStep])
  | tempDown => exact iff_of_false (not_follows_tempDown hok) (by simp [SamsungOp.isStep])
  | setTempC t => exact iff_of_true (follows_setTempC h hok) rfl

/-- A sequence of successful calls follows the documented machine if and only if
there is no TEMP_UP and no TEMP_DOWN in it. -/
theorem follows_model_iff {ops : List (AirconOp × TxAnswer)} {s : Aircon}
    (hreach : airconSystem.exec .powerUp ops = some s) {acts : List (SamsungOp × TxAnswer)}
    {s' : Aircon} (hrun : samsungSystem.exec s acts = some s') :
    samsungSystem.Meets Follows s acts ↔ ∀ a ∈ acts, a.1.isStep = false := by
  have hinv := System.exec_invariant (fun s e s' h hs => h.step hs) Aircon.inv_powerUp hreach
  clear hreach
  induction acts generalizing s with
  | nil => simp [System.Meets]
  | cons a acts ih =>
      obtain ⟨mid, hstep, hrest⟩ := System.exec_cons_some hrun
      obtain ⟨hok, rfl⟩ := samsungSystem_step hstep
      have hrest' := ih hrest (hinv.apply a.1.toOp a.2)
      have hhead := follows_iff hinv hok
      rw [List.forall_mem_cons]
      constructor
      · intro h
        obtain ⟨hfollows, htail⟩ := h _ hstep
        exact ⟨hhead.mp hfollows, hrest'.mp htail⟩
      · intro h t ht
        obtain rfl := Option.some.inj (hstep.symm.trans ht)
        exact ⟨hhead.mpr h.1, hrest'.mpr h.2⟩

/-- POWER_ON and an absolute temperature, from a unit that has been initialised. -/
theorem follows_model_iff_setTempC :
    samsungSystem.Meets Follows ⟨Aircon.powerUp.sam14, false, true⟩
        [(.powerOn, ⟨true, 0, 0⟩), (.setTempC 19, ⟨true, 0, 0⟩)] ↔
      ∀ a ∈ [(SamsungOp.powerOn, TxAnswer.mk true 0 0), (.setTempC 19, ⟨true, 0, 0⟩)],
        a.1.isStep = false :=
  @follows_model_iff [(.init, ⟨true, 0, 0⟩)] _ rfl _ _ rfl

/-- After POWER_ON, TEMP_UP succeeds, the temperature stays 24, and the frame
carries 23. -/
theorem tempUp_leaves_model :
    (samsungSystem.exec ⟨Aircon.powerUp.sam14, false, true⟩
        [(.powerOn, ⟨true, 0, 0⟩), (.tempUp, ⟨true, 0, 0⟩)]).map Aircon.view =
      some ⟨true, 24⟩ ∧
    ¬samsungSystem.Meets Follows ⟨Aircon.powerUp.sam14, false, true⟩
        [(.powerOn, ⟨true, 0, 0⟩), (.tempUp, ⟨true, 0, 0⟩)] := by
  refine ⟨by decide +kernel, ?_⟩
  intro h
  have hstep := (h _ rfl).2 _ rfl
  exact not_follows_tempUp (by decide +kernel) hstep.1

end Rw612.Ir
