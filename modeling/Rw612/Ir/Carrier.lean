import Rw612.Ir.Aircon
import Rw612.Ir.Transmit

/-!
The commands of `svc_ir.c` and the rotary switch, and the carrier frequency at
which their frames go out. A call of `ir_tx_send_symbols` is one step here: its
frame is sent at the frequency that `s_carrier_hz` has then.
-/

namespace Rw612.Ir

open Lib

def APP_IR_OP_AIRCON_ACTION : UInt8 := 0x01
def APP_IR_OP_AIRCON_SET_TEMP : UInt8 := 0x02
def APP_IR_OP_SET_CARRIER : UInt8 := 0x03
def APP_IR_OP_SAMSUNG_RAW : UInt8 := 0x10
def APP_IR_OP_RAW_SYMBOLS : UInt8 := 0x20

def APP_IR_TX_DEFAULT_CARRIER_HZ : UInt32 := 38000
def IR_RAW_MAX_PER_WRITE : Nat := 60

def BT_ATT_ERR_INVALID_OFFSET : UInt8 := 0x07
def BT_ATT_ERR_INVALID_ATTRIBUTE_LEN : UInt8 := 0x0d
def BT_ATT_ERR_UNLIKELY : UInt8 := 0x0e

def Brand.ofByte (v : UInt8) : Brand :=
  match v.toNat with
  | 0 => .samsung
  | 1 => .lg
  | 2 => .carrierKr
  | 3 => .winia
  | 4 => .paseco
  | 5 => .hisense
  | v => .other v

def AirconAction.ofByte (v : UInt8) : AirconAction :=
  match v.toNat with
  | 0 => .powerOn
  | 1 => .powerOff
  | 2 => .tempUp
  | 3 => .tempDown
  | v => .other v

inductive Origin where
  | samsung
  | raw
  deriving DecidableEq, Repr

structure Transmission where
  origin : Origin
  syms : List Symbol
  carrierHz : UInt32
  deriving DecidableEq

/-- The air conditioner and `s_carrier_hz`. -/
structure IrDev where
  aircon : Aircon
  carrierHz : UInt32
  deriving DecidableEq

def IrDev.powerUp : IrDev := ⟨.powerUp, APP_IR_TX_DEFAULT_CARRIER_HZ⟩

/-- What a command leaves: the state, its return code, and what it has sent. -/
structure Handled where
  dev : IrDev
  rc : Int
  sent : Option Transmission
  deriving DecidableEq

def IrDev.fail (s : IrDev) (rc : Int) : Handled := ⟨s, rc, none⟩

/-- A frame of the air conditioner leaves at the current carrier. -/
def IrDev.reply (s : IrDev) (aircon : Aircon) (r : Reply) : Handled :=
  ⟨{s with aircon := aircon}, r.rc, r.frame.map fun syms => ⟨.samsung, syms, s.carrierHz⟩⟩

/-- `ir_tx_set_carrier_hz` -/
def irTxSetCarrierHz (s : IrDev) (hz : UInt32) : IrDev × Int :=
  if hz < 25000 ∨ 60000 < hz then (s, -EINVAL) else ({s with carrierHz := hz}, 0)

def handleAirconAction (s : IrDev) (p : List UInt8) (tx : TxAnswer) : Handled :=
  match p with
  | brand :: action :: _ =>
      let (aircon, r) := irAirconSend s.aircon (.ofByte brand) (.ofByte action) tx
      s.reply aircon r
  | _ => s.fail (-1)

def handleAirconSetTemp (s : IrDev) (p : List UInt8) (tx : TxAnswer) : Handled :=
  match p with
  | brand :: temp :: _ =>
      let (aircon, r) := irAirconSetTempC s.aircon (.ofByte brand) temp tx
      s.reply aircon r
  | _ => s.fail (-1)

def handleSetCarrier (s : IrDev) (p : List UInt8) : Handled :=
  match p with
  | lo :: hi :: _ =>
      let (dev, rc) := irTxSetCarrierHz s (lo.toUInt32 ||| (hi.toUInt32 <<< (8 : UInt32)))
      ⟨dev, rc, none⟩
  | _ => s.fail (-1)

def handleSamsungRaw (s : IrDev) (p : List UInt8) (tx : TxAnswer) : Handled :=
  match p with
  | [] => s.fail (-1)
  | fixCs :: frame =>
      if frame.length < 7 then s.fail (-1)
      else if frame.length % 7 ≠ 0 ∨ 21 < frame.length then s.fail (-2)
      else s.reply s.aircon (irAirconSamsungSendRaw (some frame) (fixCs != 0) tx)

/-- The loop that reads the symbols of `handle_raw_symbols`. -/
def rawSymbols : List UInt8 → List Symbol
  | m₀ :: m₁ :: s₀ :: s₁ :: rest =>
      ⟨m₀.toUInt16 ||| (m₁.toUInt16 <<< (8 : UInt16)),
        s₀.toUInt16 ||| (s₁.toUInt16 <<< (8 : UInt16))⟩ :: rawSymbols rest
  | _ => []

/-- `if (carrier_hz) ir_tx_set_carrier_hz(carrier_hz)`; what it answers is ignored. -/
def IrDev.rawCarrier (s : IrDev) (khz : UInt8) : IrDev :=
  let carrierHz := khz.toUInt32 * 1000
  if carrierHz ≠ 0 then (irTxSetCarrierHz s carrierHz).1 else s

def handleRawSymbols (s : IrDev) (p : List UInt8) (tx : TxAnswer) : Handled :=
  match p with
  | [] => s.fail (-1)
  | khz :: symBytes =>
      if symBytes.length < 4 then s.fail (-1)
      else if symBytes.length % 4 ≠ 0 then s.fail (-2)
      else if symBytes.length / 4 = 0 ∨ IR_RAW_MAX_PER_WRITE < symBytes.length / 4 then
        s.fail (-3)
      else if !tx.ready then (s.rawCarrier khz).fail (-EAGAIN)
      else
        ⟨s.rawCarrier khz, tx.sendRc,
          some ⟨.raw, rawSymbols symBytes, (s.rawCarrier khz).carrierHz⟩⟩

def dispatchCmd (s : IrDev) (buf : List UInt8) (tx : TxAnswer) : Handled :=
  match buf with
  | [] => s.fail (-1)
  | op :: p =>
      if op = APP_IR_OP_AIRCON_ACTION then handleAirconAction s p tx
      else if op = APP_IR_OP_AIRCON_SET_TEMP then handleAirconSetTemp s p tx
      else if op = APP_IR_OP_SET_CARRIER then handleSetCarrier s p
      else if op = APP_IR_OP_SAMSUNG_RAW then handleSamsungRaw s p tx
      else if op = APP_IR_OP_RAW_SYMBOLS then handleRawSymbols s p tx
      else s.fail (-2)

/-- What `write_cmd` answers its client: the length, or an error. -/
structure WriteOutcome where
  dev : IrDev
  answer : Except UInt8 Nat
  sent : Option Transmission

/-- `write_cmd` of `svc_ir.c` -/
def irWriteCmd (s : IrDev) (buf : List UInt8) (offset : Nat) (tx : TxAnswer) : WriteOutcome :=
  if offset ≠ 0 then ⟨s, .error BT_ATT_ERR_INVALID_OFFSET, none⟩
  else if buf.length < 1 then ⟨s, .error BT_ATT_ERR_INVALID_ATTRIBUTE_LEN, none⟩
  else
    let h := dispatchCmd s buf tx
    ⟨h.dev, if h.rc ≠ 0 then .error BT_ATT_ERR_UNLIKELY else .ok buf.length, h.sent⟩

/-- The action of the rotary switch after `sw` presses. -/
def rotaryAction (sw : Int) : AirconAction :=
  match sw.tmod 4 with
  | 1 => .powerOn
  | 2 => .tempUp
  | 3 => .tempDown
  | _ => .powerOff

inductive IrCmd where
  /-- `app_ir_svc_init` -/
  | init
  | write (buf : List UInt8) (offset : Nat)
  | rotary (sw : Int)
  deriving DecidableEq

def IrCmd.run (s : IrDev) (tx : TxAnswer) : IrCmd → WriteOutcome
  | .init => ⟨{s with aircon := (irAirconInit s.aircon tx).1}, .ok 0, none⟩
  | .write buf offset => irWriteCmd s buf offset tx
  | .rotary sw =>
      let (aircon, r) := irAirconSend s.aircon .samsung (rotaryAction sw) tx
      ⟨{s with aircon := aircon}, .ok 0,
        r.frame.map fun syms => ⟨.samsung, syms, s.carrierHz⟩⟩

def irSystem : System IrDev (IrCmd × TxAnswer) where
  step s | (cmd, tx) => some (cmd.run s tx).dev

/-- Samsung frames leave at 38 kHz, and raw symbols whose command reports
success at the frequency that it names. -/
structure CarrierOk (s : IrDev) (e : IrCmd × TxAnswer) : Prop where
  samsung : ∀ t ∈ (e.1.run s e.2).sent, t.origin = .samsung → t.carrierHz = 38000
  raw : ∀ khz symBytes offset,
    e.1 = .write (APP_IR_OP_RAW_SYMBOLS :: khz :: symBytes) offset →
    (∃ len, (e.1.run s e.2).answer = .ok len) →
    ∃ t ∈ (e.1.run s e.2).sent,
      t.carrierHz = if khz = 0 then s.carrierHz else khz.toUInt32 * 1000

/-- The commands that send a Samsung frame. -/
def IrCmd.sendsSamsung (s : IrDev) (tx : TxAnswer) : IrCmd → Bool
  | .init => false
  | .rotary _ => s.aircon.inited && tx.ready
  | .write buf offset => offset == 0 && tx.ready &&
      match buf with
      | op :: a :: rest =>
          if op = APP_IR_OP_AIRCON_ACTION then
            s.aircon.inited && a == 0 && rest.head?.any (· < 4)
          else if op = APP_IR_OP_AIRCON_SET_TEMP then
            s.aircon.inited && a == 0 && s.aircon.samPower && !rest.isEmpty
          else op == APP_IR_OP_SAMSUNG_RAW && !badLength rest.length
      | _ => false

/-- One to sixty whole symbols, which the transmitter takes and sends. -/
def rawAccepted (symBytes : List UInt8) (tx : TxAnswer) : Prop :=
  0 < symBytes.length ∧ symBytes.length % 4 = 0 ∧
    symBytes.length ≤ 4 * IR_RAW_MAX_PER_WRITE ∧ tx.ready = true ∧ tx.sendRc = 0

instance (symBytes : List UInt8) (tx : TxAnswer) : Decidable (rawAccepted symBytes tx) :=
  inferInstanceAs (Decidable (_ ∧ _))

/-- The frequency in kHz that an accepted RAW_SYMBOLS command names. -/
def IrCmd.rawKHz (tx : TxAnswer) : IrCmd → Option UInt8
  | .write (op :: khz :: symBytes) offset =>
      if op = APP_IR_OP_RAW_SYMBOLS ∧ offset = 0 ∧ rawAccepted symBytes tx then some khz
      else none
  | _ => none

/-- The frequency that a command sets: a SET_CARRIER from 25 to 60 kHz, or a RAW_SYMBOLS
of whole symbols that names one, whether it is sent or not. -/
def IrCmd.sets : IrCmd → Option UInt32
  | .write (op :: p) offset =>
      if offset ≠ 0 then none
      else if op = APP_IR_OP_SET_CARRIER then
        match p with
        | lo :: hi :: _ =>
            let hz := lo.toUInt32 ||| (hi.toUInt32 <<< (8 : UInt32))
            if 25000 ≤ hz ∧ hz ≤ 60000 then some hz else none
        | _ => none
      else if op = APP_IR_OP_RAW_SYMBOLS then
        match p with
        | khz :: symBytes =>
            if 0 < symBytes.length ∧ symBytes.length % 4 = 0 ∧
                symBytes.length ≤ 4 * IR_RAW_MAX_PER_WRITE ∧ 25 ≤ khz ∧ khz ≤ 60 then
              some (khz.toUInt32 * 1000)
            else none
        | _ => none
      else none
  | _ => none

/-- The frequency that the last of some commands has set, or 38 kHz. -/
def lastCarrier (cmds : List (IrCmd × TxAnswer)) : UInt32 :=
  (cmds.filterMap (·.1.sets)).getLast?.getD 38000

/-- A Samsung frame is sent only after commands the last of which to set a frequency set
38 kHz, and a RAW_SYMBOLS command names no frequency or one that can be set. -/
structure CarrierSafe (before : List (IrCmd × TxAnswer)) (s : IrDev) (e : IrCmd × TxAnswer) :
    Prop where
  samsung : e.1.sendsSamsung s e.2 = true → lastCarrier before = 38000
  raw : ∀ khz ∈ e.1.rawKHz e.2, khz = 0 ∨ 25 ≤ khz ∧ khz ≤ 60

/-! Which commands send a Samsung frame. -/

theorem byteCases {P : UInt8 → Prop} (h : ∀ n : Fin 256, P (UInt8.ofNat n)) (v : UInt8) :
    P v := by
  simpa using h ⟨v.toNat, v.toNat_lt⟩

theorem Brand.ofByte_samsung (v : UInt8) : decide (Brand.ofByte v = .samsung) = (v == 0) := by
  revert v
  exact byteCases (by decide +kernel)

/-- `(unsigned)action <= IR_AIRCON_ACTION_TEMP_DOWN` -/
def AirconAction.valid : AirconAction → Bool
  | .other _ => false
  | _ => true

theorem AirconAction.ofByte_valid (v : UInt8) :
    (AirconAction.ofByte v).valid = decide (v < 4) := by
  revert v
  exact byteCases (by decide +kernel)

theorem rotaryAction_valid (sw : Int) : (rotaryAction sw).valid = true := by
  unfold rotaryAction
  split <;> rfl

theorem irAirconSend_frame (s : Aircon) (brand : Brand) (action : AirconAction)
    (tx : TxAnswer) :
    (irAirconSend s brand action tx).2.frame.isSome =
      (s.inited && tx.ready && decide (brand = .samsung) && action.valid) := by
  have hlearned {bytes : List UInt8} {nsec : Nat} (hlen : bytes.length = nsec * 7)
      (hpos : 1 ≤ nsec) (hmax : nsec ≤ 3) :
      (sendLearnedRaw bytes tx).frame.isSome = true := by
    obtain ⟨syms, -, hsend⟩ := sendLearnedRaw_spec hlen hpos hmax tx
    rw [hsend]
    rfl
  have hon := @hlearned sSamsungAcLearnedOn7 1 rfl (by decide) (by decide)
  have hoff := @hlearned sSamsungAcLearnedOff14 2 rfl (by decide) (by decide)
  have hup := @hlearned sSamsungAcLearnedTempUp7 1 rfl (by decide) (by decide)
  have hdown := @hlearned sSamsungAcLearnedTempDown7 1 rfl (by decide) (by decide)
  unfold irAirconSend
  cases hinited : s.inited
  · rfl
  cases hready : tx.ready
  · rfl
  cases brand <;> cases action <;>
    simp [execSamsungLearned, AirconAction.valid, hon, hoff, hup, hdown, Reply.refused]

theorem irAirconSetTempC_frame (s : Aircon) (brand : Brand) (t : UInt8) (tx : TxAnswer) :
    (irAirconSetTempC s brand t tx).2.frame.isSome =
      (s.inited && tx.ready && decide (brand = .samsung) && s.samPower) := by
  have hlen : (samsungSetTempC s.sam14 t).fixChecksums.bytes.length = 2 * 7 := Sam14.length _
  obtain ⟨syms, -, hsend⟩ := sendSymbolFrame_spec hlen (by decide) (by decide) tx
  unfold irAirconSetTempC samsungSendStateWithTemp
  cases hinited : s.inited
  · rfl
  cases hready : tx.ready
  · rfl
  cases hpower : s.samPower <;> cases brand <;> simp [hsend, Reply.refused]

theorem fixAllChecksums_length (scratch : List UInt8) :
    (fixAllChecksums scratch).length = scratch.length := by
  unfold fixAllChecksums
  generalize List.range (scratch.length / 7) = starts
  induction starts generalizing scratch with
  | nil => rfl
  | cons start starts ih =>
      rw [List.foldl_cons, ih, irCodecSamsungAcFixChecksum_length]

theorem irAirconSamsungSendRaw_frame (frame : List UInt8) (fixCs : Bool) (tx : TxAnswer) :
    (irAirconSamsungSendRaw (some frame) fixCs tx).frame.isSome =
      (tx.ready && !badLength frame.length) := by
  unfold irAirconSamsungSendRaw
  cases hready : tx.ready
  · rfl
  cases hbad : badLength frame.length
  · have hgood := Bool.eq_false_iff.mp hbad
    rw [ne_eq, badLength_iff, IR_SAC_MAX_BYTES] at hgood
    have hlen : (if fixCs then fixAllChecksums frame else frame).length =
        frame.length / 7 * 7 := by
      split
      · rw [fixAllChecksums_length]
        omega
      · omega
    obtain ⟨syms, -, hsend⟩ := sendSymbolFrame_spec hlen (by omega) (by omega) tx
    simp [hsend, hbad]
  · simp [hbad, Reply.refused]

/-- A Samsung frame is sent, at the current carrier, if and only if `b`. -/
structure SendsIff (s : IrDev) (sent : Option Transmission) (b : Bool) : Prop where
  sends : b = true → ∃ syms, sent = some ⟨.samsung, syms, s.carrierHz⟩
  silent : b = false → ∀ t ∈ sent, t.origin ≠ .samsung

theorem SendsIff.reply (s : IrDev) (aircon : Aircon) (r : Reply) :
    SendsIff s (s.reply aircon r).sent r.frame.isSome := by
  cases hframe : r.frame <;> constructor <;> simp [IrDev.reply, hframe]

theorem SendsIff.unsent (s : IrDev) : SendsIff s none false := by
  constructor <;> simp

theorem SendsIff.raw (s : IrDev) (syms : List Symbol) (hz : UInt32) :
    SendsIff s (some ⟨.raw, syms, hz⟩) false := by
  constructor <;> simp

theorem SendsIff.carrier {s : IrDev} {sent : Option Transmission} {b : Bool}
    (h : SendsIff s sent b) :
    (∀ t ∈ sent, t.origin = .samsung → t.carrierHz = 38000) ↔
      (b = true → s.carrierHz = 38000) := by
  cases b with
  | true =>
      obtain ⟨syms, rfl⟩ := h.sends rfl
      simp
  | false =>
      have hnone := h.silent rfl
      constructor
      · intro _ hb
        cases hb
      · intro _ t ht horigin
        exact absurd horigin (hnone t ht)

theorem handleAirconAction_sends (s : IrDev) (a : UInt8) (rest : List UInt8)
    (tx : TxAnswer) :
    SendsIff s (handleAirconAction s (a :: rest) tx).sent
      (tx.ready && (s.aircon.inited && a == 0 && rest.head?.any (· < 4))) := by
  cases rest with
  | nil => simpa [handleAirconAction, IrDev.fail] using SendsIff.unsent s
  | cons action rest =>
      have hreply := SendsIff.reply s
        (irAirconSend s.aircon (.ofByte a) (.ofByte action) tx).1
        (irAirconSend s.aircon (.ofByte a) (.ofByte action) tx).2
      rw [irAirconSend_frame, Brand.ofByte_samsung, AirconAction.ofByte_valid] at hreply
      have hcond : (s.aircon.inited && tx.ready && a == 0 && decide (action < 4)) =
          (tx.ready && (s.aircon.inited && a == 0 && (action :: rest).head?.any (· < 4))) := by
        cases s.aircon.inited <;> cases tx.ready <;> simp
      rw [hcond] at hreply
      exact hreply

theorem handleAirconSetTemp_sends (s : IrDev) (a : UInt8) (rest : List UInt8)
    (tx : TxAnswer) :
    SendsIff s (handleAirconSetTemp s (a :: rest) tx).sent
      (tx.ready && (s.aircon.inited && a == 0 && s.aircon.samPower && !rest.isEmpty)) := by
  cases rest with
  | nil => simpa [handleAirconSetTemp, IrDev.fail] using SendsIff.unsent s
  | cons t rest =>
      have hreply := SendsIff.reply s (irAirconSetTempC s.aircon (.ofByte a) t tx).1
        (irAirconSetTempC s.aircon (.ofByte a) t tx).2
      rw [irAirconSetTempC_frame, Brand.ofByte_samsung] at hreply
      have hcond : (s.aircon.inited && tx.ready && a == 0 && s.aircon.samPower) =
          (tx.ready &&
            (s.aircon.inited && a == 0 && s.aircon.samPower && !(t :: rest).isEmpty)) := by
        cases s.aircon.inited <;> cases tx.ready <;> simp
      rw [hcond] at hreply
      exact hreply

theorem handleSamsungRaw_sends (s : IrDev) (a : UInt8) (frame : List UInt8)
    (tx : TxAnswer) :
    SendsIff s (handleSamsungRaw s (a :: frame) tx).sent
      (tx.ready && !badLength frame.length) := by
  have hreply := SendsIff.reply s s.aircon (irAirconSamsungSendRaw (some frame) (a != 0) tx)
  rw [irAirconSamsungSendRaw_frame] at hreply
  unfold handleSamsungRaw
  dsimp only
  by_cases hbad : badLength frame.length = true
  · rw [hbad, Bool.not_true, Bool.and_false] at hreply ⊢
    split_ifs
    · exact SendsIff.unsent s
    · exact SendsIff.unsent s
    · exact hreply
  · have hgood : ¬frame.length < 7 ∧ ¬(frame.length % 7 ≠ 0 ∨ 21 < frame.length) := by
      rw [badLength_iff, IR_SAC_MAX_BYTES] at hbad
      omega
    rw [if_neg hgood.1, if_neg hgood.2]
    exact hreply

theorem handleSetCarrier_sends (s : IrDev) (p : List UInt8) :
    (handleSetCarrier s p).sent = none := by
  unfold handleSetCarrier
  split <;> rfl

theorem handleRawSymbols_sends (s : IrDev) (p : List UInt8) (tx : TxAnswer) :
    SendsIff s (handleRawSymbols s p tx).sent false := by
  unfold handleRawSymbols
  split
  · exact SendsIff.unsent s
  · split_ifs
    · exact SendsIff.unsent s
    · exact SendsIff.unsent s
    · exact SendsIff.unsent s
    · exact SendsIff.unsent s
    · exact SendsIff.raw s _ _

theorem SendsIff.of_eq_false {s : IrDev} {sent : Option Transmission} {b : Bool}
    (h : SendsIff s sent false) (hb : b = false) : SendsIff s sent b := by
  rwa [hb]

theorem dispatchCmd_sends (s : IrDev) (buf : List UInt8) (tx : TxAnswer) :
    SendsIff s (dispatchCmd s buf tx).sent (IrCmd.sendsSamsung s tx (.write buf 0)) := by
  unfold dispatchCmd IrCmd.sendsSamsung
  match buf with
  | [] => exact (SendsIff.unsent s).of_eq_false (by simp)
  | [op] =>
      simp only [handleAirconAction, handleAirconSetTemp, handleSetCarrier, handleSamsungRaw,
        handleRawSymbols, Bool.and_false]
      split_ifs <;> exact SendsIff.unsent s
  | op :: a :: rest =>
      dsimp only
      split_ifs with haction htemp hset hsamsung hraw
      · exact handleAirconAction_sends s a rest tx
      · exact handleAirconSetTemp_sends s a rest tx
      · rw [handleSetCarrier_sends, hset]
        exact (SendsIff.unsent s).of_eq_false (by simp [APP_IR_OP_SET_CARRIER,
          APP_IR_OP_SAMSUNG_RAW])
      · simpa [hsamsung] using handleSamsungRaw_sends s a rest tx
      · exact (handleRawSymbols_sends s (a :: rest) tx).of_eq_false (by simp [hsamsung])
      · exact (SendsIff.unsent s).of_eq_false (by simp [hsamsung])

theorem IrCmd.run_sends (s : IrDev) (tx : TxAnswer) (cmd : IrCmd) :
    SendsIff s (cmd.run s tx).sent (cmd.sendsSamsung s tx) := by
  cases cmd with
  | init => exact SendsIff.unsent s
  | write buf offset =>
      by_cases hoffset : offset = 0
      · subst hoffset
        cases buf with
        | nil => exact (SendsIff.unsent s).of_eq_false (by simp [sendsSamsung])
        | cons op p => exact dispatchCmd_sends s (op :: p) tx
      · simp only [run, irWriteCmd, if_pos hoffset]
        exact (SendsIff.unsent s).of_eq_false (by simp [sendsSamsung, hoffset])
  | rotary sw =>
      have hreply := SendsIff.reply s (irAirconSend s.aircon .samsung (rotaryAction sw) tx).1
        (irAirconSend s.aircon .samsung (rotaryAction sw) tx).2
      rw [irAirconSend_frame, rotaryAction_valid] at hreply
      simp only [decide_true, Bool.and_true] at hreply
      exact hreply

/-! Raw symbols. -/

/-- `s_carrier_hz` is a frequency that can be set. -/
def IrDev.Settable (s : IrDev) : Prop := 25000 ≤ s.carrierHz ∧ s.carrierHz ≤ 60000

theorem khz_settable (khz : UInt8) :
    (khz.toUInt32 * 1000 = 0 ↔ khz = 0) ∧
      (khz.toUInt32 * 1000 < 25000 ∨ 60000 < khz.toUInt32 * 1000 ↔ ¬(25 ≤ khz ∧ khz ≤ 60)) := by
  revert khz
  exact byteCases (by decide +kernel)

/-- The raw carrier is the one asked for if and only if none is, or it can be set. -/
theorem IrDev.Settable.rawCarrier {s : IrDev} (h : s.Settable) (khz : UInt8) :
    ((s.rawCarrier khz).carrierHz = if khz = 0 then s.carrierHz else khz.toUInt32 * 1000) ↔
      khz = 0 ∨ 25 ≤ khz ∧ khz ≤ 60 := by
  obtain ⟨hzero, hset⟩ := khz_settable khz
  unfold IrDev.rawCarrier irTxSetCarrierHz
  by_cases hkhz : khz = 0
  · simp [hkhz]
  · have hne : khz.toUInt32 * 1000 ≠ 0 := fun h => hkhz (hzero.mp h)
    simp only [hkhz, if_false, false_or, if_pos hne]
    split
    · rename_i hout
      have hnot := hset.mp hout
      refine iff_of_false ?_ hnot
      intro heq
      rw [← heq] at hout
      rcases hout with hlow | hhigh
      · exact absurd h.1 (UInt32.not_le.mpr hlow)
      · exact absurd h.2 (UInt32.not_le.mpr hhigh)
    · rename_i hin
      exact iff_of_true rfl (not_not.mp fun hnot => hin (hset.mpr hnot))

theorem handleRawSymbols_accepted {s : IrDev} {khz : UInt8} {symBytes : List UInt8}
    {tx : TxAnswer} (h : rawAccepted symBytes tx) :
    handleRawSymbols s (khz :: symBytes) tx =
      ⟨s.rawCarrier khz, 0, some ⟨.raw, rawSymbols symBytes, (s.rawCarrier khz).carrierHz⟩⟩ := by
  obtain ⟨hpos, hmod, hmax, hready, hsend⟩ := h
  have hcount : ¬(symBytes.length / 4 = 0 ∨ IR_RAW_MAX_PER_WRITE < symBytes.length / 4) := by
    rw [IR_RAW_MAX_PER_WRITE] at hmax ⊢
    omega
  simp only [handleRawSymbols]
  rw [if_neg (by omega), if_neg (by omega), if_neg hcount]
  simp [hready, hsend]

theorem handleRawSymbols_rc {s : IrDev} {khz : UInt8} {symBytes : List UInt8}
    {tx : TxAnswer} (hrc : (handleRawSymbols s (khz :: symBytes) tx).rc = 0) :
    rawAccepted symBytes tx := by
  simp only [handleRawSymbols] at hrc
  split_ifs at hrc with hshort hmod hcount hready
  · cases hrc
  · cases hrc
  · cases hrc
  · cases hrc
  · rw [IR_RAW_MAX_PER_WRITE] at hcount
    refine ⟨by omega, by omega, ?_, by simpa using hready, hrc⟩
    rw [IR_RAW_MAX_PER_WRITE]
    omega

/-- A RAW_SYMBOLS write reports success if and only if it is accepted. -/
theorem irWriteCmd_raw (s : IrDev) (khz : UInt8) (symBytes : List UInt8) (offset : Nat)
    (tx : TxAnswer) :
    (∃ len, (irWriteCmd s (APP_IR_OP_RAW_SYMBOLS :: khz :: symBytes) offset tx).answer =
      .ok len) ↔ offset = 0 ∧ rawAccepted symBytes tx := by
  have hdispatch : dispatchCmd s (APP_IR_OP_RAW_SYMBOLS :: khz :: symBytes) tx =
      handleRawSymbols s (khz :: symBytes) tx := rfl
  constructor
  · rintro ⟨len, hlen⟩
    by_cases hoffset : offset = 0
    · refine ⟨hoffset, ?_⟩
      by_contra hnot
      have hrc : (handleRawSymbols s (khz :: symBytes) tx).rc ≠ 0 :=
        fun hrc => hnot (handleRawSymbols_rc hrc)
      simp [irWriteCmd, hoffset, hdispatch, hrc] at hlen
    · simp [irWriteCmd, hoffset] at hlen
  · rintro ⟨rfl, haccepted⟩
    simp [irWriteCmd, hdispatch, handleRawSymbols_accepted haccepted]

theorem IrCmd.rawKHz_some {cmd : IrCmd} {tx : TxAnswer} {khz : UInt8} :
    cmd.rawKHz tx = some khz ↔ ∃ symBytes,
      cmd = .write (APP_IR_OP_RAW_SYMBOLS :: khz :: symBytes) 0 ∧ rawAccepted symBytes tx := by
  constructor
  · intro h
    unfold rawKHz at h
    split at h
    · split_ifs at h with hcond
      obtain ⟨rfl, rfl, haccepted⟩ := hcond
      obtain rfl := Option.some.inj h
      exact ⟨_, rfl, haccepted⟩
    · cases h
  · rintro ⟨symBytes, rfl, haccepted⟩
    simp [rawKHz, haccepted]

theorem carrierOk_iff {s : IrDev} (h : s.Settable) {before : List (IrCmd × TxAnswer)}
    (hlast : s.carrierHz = lastCarrier before) (e : IrCmd × TxAnswer) :
    CarrierOk s e ↔ CarrierSafe before s e := by
  obtain ⟨cmd, tx⟩ := e
  have hsamsung := (cmd.run_sends s tx).carrier
  rw [hlast] at hsamsung
  have hcarrier {khz : UInt8} {symBytes : List UInt8} (haccepted : rawAccepted symBytes tx) :
      (irWriteCmd s (APP_IR_OP_RAW_SYMBOLS :: khz :: symBytes) 0 tx).sent =
        some ⟨.raw, rawSymbols symBytes, (s.rawCarrier khz).carrierHz⟩ := by
    have hdispatch : dispatchCmd s (APP_IR_OP_RAW_SYMBOLS :: khz :: symBytes) tx =
        handleRawSymbols s (khz :: symBytes) tx := rfl
    simp [irWriteCmd, hdispatch, handleRawSymbols_accepted haccepted]
  constructor
  · intro hok
    refine ⟨hsamsung.mp hok.samsung, ?_⟩
    intro khz hkhz
    obtain ⟨symBytes, rfl, haccepted⟩ := IrCmd.rawKHz_some.mp hkhz
    obtain ⟨t, ht, hhz⟩ := hok.raw khz symBytes 0 rfl
      ((irWriteCmd_raw s khz symBytes 0 tx).mpr ⟨rfl, haccepted⟩)
    obtain rfl := Option.some.inj ((hcarrier haccepted).symm.trans ht)
    exact (h.rawCarrier khz).mp hhz
  · intro hsafe
    refine ⟨hsamsung.mpr hsafe.samsung, ?_⟩
    rintro khz symBytes offset rfl hanswer
    obtain ⟨rfl, haccepted⟩ := (irWriteCmd_raw s khz symBytes offset tx).mp hanswer
    refine ⟨_, hcarrier haccepted, ?_⟩
    exact (h.rawCarrier khz).mpr
      (hsafe.raw khz (IrCmd.rawKHz_some.mpr ⟨symBytes, rfl, haccepted⟩))

/-! Runs. -/

theorem IrDev.Settable.setCarrier {s : IrDev} (h : s.Settable) (hz : UInt32) :
    (irTxSetCarrierHz s hz).1.Settable := by
  unfold irTxSetCarrierHz
  split
  · exact h
  · rename_i hin
    rw [not_or, UInt32.not_lt, UInt32.not_lt] at hin
    exact hin

theorem IrDev.Settable.raw {s : IrDev} (h : s.Settable) (khz : UInt8) :
    (s.rawCarrier khz).Settable := by
  unfold IrDev.rawCarrier
  dsimp only
  split
  · exact h.setCarrier _
  · exact h

theorem IrDev.Settable.dispatchCmd {s : IrDev} (h : s.Settable) (buf : List UInt8)
    (tx : TxAnswer) : (dispatchCmd s buf tx).dev.Settable := by
  unfold Ir.dispatchCmd
  split
  · exact h
  · split_ifs
    · unfold handleAirconAction
      split <;> exact h
    · unfold handleAirconSetTemp
      split <;> exact h
    · unfold handleSetCarrier
      split
      · exact h.setCarrier _
      · exact h
    · unfold handleSamsungRaw
      split
      · exact h
      · split_ifs <;> exact h
    · unfold handleRawSymbols
      split
      · exact h
      · split_ifs <;> first | exact h | exact h.raw _
    · exact h

theorem IrDev.Settable.step {s s' : IrDev} (h : s.Settable) {e : IrCmd × TxAnswer}
    (hstep : irSystem.step s e = some s') : s'.Settable := by
  obtain ⟨cmd, tx⟩ := e
  obtain rfl := Option.some.inj hstep
  cases cmd with
  | init | rotary => exact h
  | write buf offset =>
      simp only [IrCmd.run, irWriteCmd]
      split_ifs
      all_goals first | exact h | exact h.dispatchCmd buf tx

theorem IrDev.settable_powerUp : IrDev.powerUp.Settable := by
  constructor <;> decide

theorem irTxSetCarrierHz_carrier (s : IrDev) (hz : UInt32) :
    (irTxSetCarrierHz s hz).1.carrierHz =
      (if 25000 ≤ hz ∧ hz ≤ 60000 then some hz else none).getD s.carrierHz := by
  unfold irTxSetCarrierHz
  by_cases hin : 25000 ≤ hz ∧ hz ≤ 60000
  · have hset : ¬(hz < 25000 ∨ 60000 < hz) := by
      rw [not_or, UInt32.not_lt, UInt32.not_lt]
      exact hin
    rw [if_neg hset, if_pos hin]
    rfl
  · have hrefused : hz < 25000 ∨ 60000 < hz := by
      rw [← UInt32.not_le, ← UInt32.not_le, ← not_and_or]
      exact hin
    rw [if_pos hrefused, if_neg hin]
    rfl

theorem IrDev.rawCarrier_carrier (s : IrDev) (khz : UInt8) :
    (s.rawCarrier khz).carrierHz =
      (if 25 ≤ khz ∧ khz ≤ 60 then some (khz.toUInt32 * 1000) else none).getD s.carrierHz := by
  obtain ⟨hzero, hset⟩ := khz_settable khz
  unfold IrDev.rawCarrier irTxSetCarrierHz
  by_cases hin : 25 ≤ khz ∧ khz ≤ 60
  · have hne : khz.toUInt32 * 1000 ≠ 0 := by
      rw [ne_eq, hzero]
      rintro rfl
      exact absurd hin.1 (by decide)
    have hok : ¬(khz.toUInt32 * 1000 < 25000 ∨ 60000 < khz.toUInt32 * 1000) :=
      fun hout => hset.mp hout hin
    simp [hne, hok, hin]
  · have hout := hset.mpr hin
    simp only [hin, if_false, hout, if_true]
    split <;> rfl

theorem handleSetCarrier_carrier (s : IrDev) (p : List UInt8) :
    (handleSetCarrier s p).dev.carrierHz =
      (IrCmd.write (APP_IR_OP_SET_CARRIER :: p) 0).sets.getD s.carrierHz := by
  unfold handleSetCarrier IrCmd.sets
  match p with
  | [] | [_] => rfl
  | lo :: hi :: _ => exact irTxSetCarrierHz_carrier s _

theorem handleRawSymbols_carrier (s : IrDev) (p : List UInt8) (tx : TxAnswer) :
    (handleRawSymbols s p tx).dev.carrierHz =
      (IrCmd.write (APP_IR_OP_RAW_SYMBOLS :: p) 0).sets.getD s.carrierHz := by
  match p with
  | [] => rfl
  | khz :: symBytes =>
      have hop : APP_IR_OP_RAW_SYMBOLS ≠ APP_IR_OP_SET_CARRIER := by decide
      simp only [IrCmd.sets, ne_eq, not_true_eq_false, if_false, if_true, hop, handleRawSymbols]
      by_cases hwhole : 0 < symBytes.length ∧ symBytes.length % 4 = 0 ∧
          symBytes.length ≤ 4 * IR_RAW_MAX_PER_WRITE
      · obtain ⟨hpos, hmod, hmax⟩ := hwhole
        have hcount : ¬(symBytes.length / 4 = 0 ∨
            IR_RAW_MAX_PER_WRITE < symBytes.length / 4) := by
          rw [IR_RAW_MAX_PER_WRITE] at hmax ⊢
          omega
        rw [if_neg (by omega), if_neg (by omega), if_neg hcount]
        simp only [hpos, hmod, hmax, true_and]
        rw [← IrDev.rawCarrier_carrier]
        split <;> rfl
      · have hsets : ¬(0 < symBytes.length ∧ symBytes.length % 4 = 0 ∧
            symBytes.length ≤ 4 * IR_RAW_MAX_PER_WRITE ∧ 25 ≤ khz ∧ khz ≤ 60) :=
          fun h => hwhole ⟨h.1, h.2.1, h.2.2.1⟩
        rw [if_neg hsets]
        by_cases hshort : symBytes.length < 4
        · rw [if_pos hshort]
          rfl
        by_cases hmod : ¬symBytes.length % 4 = 0
        · rw [if_neg hshort, if_pos hmod]
          rfl
        have hcount : symBytes.length / 4 = 0 ∨
            IR_RAW_MAX_PER_WRITE < symBytes.length / 4 := by
          rw [IR_RAW_MAX_PER_WRITE] at hwhole ⊢
          omega
        rw [if_neg hshort, if_neg hmod, if_pos hcount]
        rfl

/-- `s_carrier_hz` is changed by the commands that set it, and by no other. -/
theorem IrCmd.run_carrier (s : IrDev) (tx : TxAnswer) (cmd : IrCmd) :
    (cmd.run s tx).dev.carrierHz = cmd.sets.getD s.carrierHz := by
  cases cmd with
  | init | rotary => rfl
  | write buf offset =>
      simp only [run, irWriteCmd]
      by_cases hoffset : offset = 0
      swap
      · rw [if_pos hoffset]
        cases buf <;> simp [sets, hoffset]
      subst hoffset
      cases buf with
      | nil => rfl
      | cons op p =>
          rw [if_neg (not_not.mpr rfl), if_neg (by simp), dispatchCmd]
          dsimp only
          split_ifs with haction htemp hset hsamsung hraw
          · rw [haction]
            unfold handleAirconAction
            split <;> rfl
          · rw [htemp]
            unfold handleAirconSetTemp
            split <;> rfl
          · rw [hset]
            exact handleSetCarrier_carrier s p
          · rw [hsamsung]
            unfold handleSamsungRaw
            split
            · rfl
            · split_ifs <;> rfl
          · rw [hraw]
            exact handleRawSymbols_carrier s p tx
          · simp [sets, hset, hraw, IrDev.fail]

/-- After any commands the carrier is the one that the last of them to set it has set. -/
theorem carrier_of_exec {s s' : IrDev} {cmds : List (IrCmd × TxAnswer)}
    (h : irSystem.exec s cmds = some s') :
    s'.carrierHz = (cmds.filterMap (·.1.sets)).getLast?.getD s.carrierHz := by
  induction cmds generalizing s with
  | nil =>
      obtain rfl := Option.some.inj h
      rfl
  | cons e cmds ih =>
      obtain ⟨mid, hmid, hrest⟩ := System.exec_cons_some h
      obtain rfl := Option.some.inj hmid
      rw [ih hrest, e.1.run_carrier]
      rw [List.filterMap_cons]
      cases e.1.sets with
      | none => rfl
      | some hz => rw [List.getLast?_cons, Option.getD_some, Option.getD_some]

/-- For every sequence of commands and switch presses: all frames leave at their
frequency if and only if each Samsung frame is sent after a last setting of 38 kHz,
and no accepted RAW_SYMBOLS command names a frequency that cannot be set. -/
theorem carrier_ok_iff (cmds : List (IrCmd × TxAnswer)) :
    irSystem.Meets CarrierOk .powerUp cmds ↔
      ∀ before e after s, cmds = before ++ e :: after →
        irSystem.exec .powerUp before = some s → CarrierSafe before s e := by
  have hstep {before : List (IrCmd × TxAnswer)} {s : IrDev}
      (hrun : irSystem.exec .powerUp before = some s) (e : IrCmd × TxAnswer) :
      CarrierOk s e ↔ CarrierSafe before s e := by
    have hsettable : s.Settable :=
      System.exec_invariant (fun _ _ _ h hs => h.step hs) IrDev.settable_powerUp hrun
    exact carrierOk_iff hsettable (carrier_of_exec hrun) e
  rw [System.meets_iff_prefix]
  constructor
  · intro h before e after s hcmds hrun
    exact (hstep hrun e).mp (h before e after s _ hcmds hrun rfl)
  · intro h before e after s s' hcmds hrun _
    exact (hstep hrun e).mpr (h before e after s hcmds hrun)

/-- SET_CARRIER 40000, then AIRCON_ACTION with POWER_ON. -/
theorem samsung_at_40_kHz :
    ¬irSystem.Meets CarrierOk .powerUp
      [(.init, ⟨true, 0, 0⟩), (.write [0x03, 0x40, 0x9C] 0, ⟨true, 0, 0⟩),
        (.write [0x01, 0x00, 0x00] 0, ⟨true, 0, 0⟩)] := by
  intro h
  have hok := ((h _ rfl).2 _ rfl).2 _ rfl
  have hcarrier := (IrCmd.run_sends _ _ _).carrier.mp hok.1.samsung
  exact absurd (hcarrier rfl) (by decide)

end Rw612.Ir
