import Rw612.Ir.Checksum
import Rw612.Ir.RoundTrip
import Rw612.Lib.Transition

/-!
The air conditioner of `ir_aircon.c`: the cached Samsung frame, the power flag,
and the calls that send frames. What `ir_tx` answers to a call is given with it;
a reply names the array that was passed to `ir_tx_send_symbols`, if any.
-/

namespace Rw612.Ir

open Lib

/-- `ir_aircon_brand_t`, and the values outside it. -/
inductive Brand where
  | samsung
  | lg
  | carrierKr
  | winia
  | paseco
  | hisense
  | other (v : Nat)
  deriving DecidableEq, Repr

/-- `ir_aircon_action_t`, and the values outside it. -/
inductive AirconAction where
  | powerOn
  | powerOff
  | tempUp
  | tempDown
  | other (v : Nat)
  deriving DecidableEq, Repr

def IR_AIRCON_SAMSUNG_TEMP_MIN_C : UInt8 := 16
def IR_AIRCON_SAMSUNG_TEMP_MAX_C : UInt8 := 30

def IR_AIRCON_OK : Int := 0
def IR_AIRCON_ERR_NOT_READY : Int := -1
def IR_AIRCON_ERR_INVALID_ARG : Int := -2
def IR_AIRCON_ERR_INVALID_STATE : Int := -3
def IR_AIRCON_ERR_NOT_IMPL : Int := -4
def IR_AIRCON_ERR_TX : Int := -5
def IR_AIRCON_ERR_ENCODE : Int := -6

def IR_SAC_MAX_SYMBOLS : Nat := 1 + (1 + 56 + 1) * (IR_SAC_MAX_BYTES / IR_SAC_SECTION_BYTES)
def IR_SAC_TEMP_BYTE_INDEX : Nat := 11

/-- Fourteen bytes: the frame of `s_sam14`. -/
structure Sam14 where
  bytes : List UInt8
  length : bytes.length = 14
  deriving DecidableEq

def kSamsungAcOn14 : Sam14 where
  bytes := [0x02, 0x92, 0x0F, 0x00, 0x00, 0x00, 0xF0,
    0x01, 0xE2, 0xFE, 0x71, 0x80, 0x11, 0xF0]
  length := rfl

def sSamsungAcLearnedOff14 : List UInt8 :=
  [0x01, 0xC2, 0x0F, 0x00, 0x00, 0x20, 0x00,
    0x01, 0x02, 0xFF, 0x01, 0x80, 0x1F, 0xC0]

def sSamsungAcLearnedOn7 : List UInt8 := [0x01, 0xE2, 0xFE, 0x01, 0x60, 0x1B, 0xF0]
def sSamsungAcLearnedTempUp7 : List UInt8 := [0x01, 0xD2, 0xFE, 0x01, 0x70, 0x1B, 0xF0]
def sSamsungAcLearnedTempDown7 : List UInt8 := [0x01, 0xE2, 0xFE, 0x01, 0x50, 0x1B, 0xF0]

/-- The static variables of the module. -/
structure Aircon where
  sam14 : Sam14
  samPower : Bool
  inited : Bool
  deriving DecidableEq

def Aircon.powerUp : Aircon where
  sam14 := ⟨List.replicate 14 0, rfl⟩
  samPower := false
  inited := false

/-- What `ir_tx_is_ready`, `ir_tx_init` and `ir_tx_send_symbols` answer. -/
structure TxAnswer where
  ready : Bool
  initRc : Int
  sendRc : Int
  deriving DecidableEq

structure Reply where
  rc : Int
  frame : Option (List Symbol)
  deriving DecidableEq

def Reply.refused (rc : Int) : Reply := ⟨rc, none⟩

def sendSymbolFrame (bytes : List UInt8) (tx : TxAnswer) : Reply :=
  match irCodecSamsungAcEncode bytes IR_SAC_MAX_SYMBOLS with
  | .error _ => .refused IR_AIRCON_ERR_ENCODE
  | .ok syms => ⟨if tx.sendRc = 0 then IR_AIRCON_OK else IR_AIRCON_ERR_TX, some syms⟩

/-- `samsung_get_temp_c_locked` -/
def samsungGetTempC (sam14 : Sam14) : UInt8 :=
  highNibble (sam14.bytes.getD IR_SAC_TEMP_BYTE_INDEX 0) + IR_AIRCON_SAMSUNG_TEMP_MIN_C

def clampTempC (tempC : UInt8) : UInt8 :=
  let tempC := if tempC < IR_AIRCON_SAMSUNG_TEMP_MIN_C then IR_AIRCON_SAMSUNG_TEMP_MIN_C
    else tempC
  if IR_AIRCON_SAMSUNG_TEMP_MAX_C < tempC then IR_AIRCON_SAMSUNG_TEMP_MAX_C else tempC

/-- `samsung_set_temp_c_locked` -/
def samsungSetTempC (sam14 : Sam14) (tempC : UInt8) : Sam14 where
  bytes := sam14.bytes.modify IR_SAC_TEMP_BYTE_INDEX
    (setHighNibble · (clampTempC tempC - IR_AIRCON_SAMSUNG_TEMP_MIN_C))
  length := by rw [List.length_modify, sam14.length]

def Sam14.fixChecksums (sam14 : Sam14) : Sam14 where
  bytes := irCodecSamsungAcFixChecksums14 sam14.bytes
  length := by simp [irCodecSamsungAcFixChecksums14, sam14.length]

/-- `samsung_send_state_with_temp_locked` -/
def samsungSendStateWithTemp (s : Aircon) (tempC : UInt8) (tx : TxAnswer) :
    Aircon × Reply :=
  if !s.samPower then (s, .refused IR_AIRCON_ERR_INVALID_STATE)
  else
    let sam14 := (samsungSetTempC s.sam14 tempC).fixChecksums
    ({s with sam14 := sam14}, sendSymbolFrame sam14.bytes tx)

/-- The check of the length that both raw senders make. -/
def badLength (len : Nat) : Bool :=
  decide (len = 0 ∨ len % 7 ≠ 0 ∨ IR_SAC_MAX_BYTES < len)

theorem badLength_iff {len : Nat} :
    badLength len = true ↔ len = 0 ∨ len % 7 ≠ 0 ∨ IR_SAC_MAX_BYTES < len :=
  decide_eq_true_iff

def sendLearnedRaw (frame : List UInt8) (tx : TxAnswer) : Reply :=
  if badLength frame.length then .refused IR_AIRCON_ERR_INVALID_ARG
  else sendSymbolFrame frame tx

def execSamsungLearned (s : Aircon) (action : AirconAction) (tx : TxAnswer) :
    Aircon × Reply :=
  match action with
  | .powerOn =>
      let r := sendLearnedRaw sSamsungAcLearnedOn7 tx
      (if r.rc = IR_AIRCON_OK then {s with sam14 := kSamsungAcOn14, samPower := true} else s, r)
  | .powerOff =>
      let r := sendLearnedRaw sSamsungAcLearnedOff14 tx
      (if r.rc = IR_AIRCON_OK then {s with samPower := false} else s, r)
  | .tempUp => (s, sendLearnedRaw sSamsungAcLearnedTempUp7 tx)
  | .tempDown => (s, sendLearnedRaw sSamsungAcLearnedTempDown7 tx)
  | .other _ => (s, .refused IR_AIRCON_ERR_INVALID_ARG)

def irAirconInit (s : Aircon) (tx : TxAnswer) : Aircon × Reply :=
  ({s with inited := true, sam14 := Aircon.powerUp.sam14, samPower := false},
    .refused (if !tx.ready ∧ tx.initRc ≠ 0 then IR_AIRCON_ERR_NOT_READY else IR_AIRCON_OK))

def irAirconSend (s : Aircon) (brand : Brand) (action : AirconAction) (tx : TxAnswer) :
    Aircon × Reply :=
  if !s.inited ∨ !tx.ready then (s, .refused IR_AIRCON_ERR_NOT_READY)
  else
    match action with
    | .other _ => (s, .refused IR_AIRCON_ERR_INVALID_ARG)
    | _ =>
        match brand with
        | .samsung => execSamsungLearned s action tx
        | .other _ => (s, .refused IR_AIRCON_ERR_INVALID_ARG)
        | _ => (s, .refused IR_AIRCON_ERR_NOT_IMPL)

def irAirconSetTempC (s : Aircon) (brand : Brand) (tempC : UInt8) (tx : TxAnswer) :
    Aircon × Reply :=
  if !s.inited ∨ !tx.ready then (s, .refused IR_AIRCON_ERR_NOT_READY)
  else if brand ≠ .samsung then (s, .refused IR_AIRCON_ERR_NOT_IMPL)
  else samsungSendStateWithTemp s tempC tx

def irAirconGetTempC (s : Aircon) (brand : Brand) : UInt8 :=
  if brand ≠ .samsung then 0
  else if !s.inited then 0
  else if s.samPower then samsungGetTempC s.sam14 else 0

def irAirconIsPowered (s : Aircon) (brand : Brand) : Bool :=
  if brand ≠ .samsung then false else s.samPower

/-- The checksum loop of `ir_aircon_samsung_send_raw`. -/
def fixAllChecksums (scratch : List UInt8) : List UInt8 :=
  (List.range (scratch.length / 7)).foldl
    (fun scratch s => irCodecSamsungAcFixChecksum scratch (s * 7)) scratch

/-- `ir_aircon_samsung_send_raw`; `frame` is `none` for a null pointer. -/
def irAirconSamsungSendRaw (frame : Option (List UInt8)) (fixCs : Bool) (tx : TxAnswer) :
    Reply :=
  if !tx.ready then .refused IR_AIRCON_ERR_NOT_READY
  else
    match frame with
    | none => .refused IR_AIRCON_ERR_INVALID_ARG
    | some frame =>
        if badLength frame.length then .refused IR_AIRCON_ERR_INVALID_ARG
        else sendSymbolFrame (if fixCs then fixAllChecksums frame else frame) tx

inductive AirconOp where
  | init
  | send (brand : Brand) (action : AirconAction)
  | setTempC (brand : Brand) (tempC : UInt8)
  | sendRaw (frame : Option (List UInt8)) (fixCs : Bool)
  deriving DecidableEq

def AirconOp.apply (s : Aircon) (tx : TxAnswer) : AirconOp → Aircon × Reply
  | .init => irAirconInit s tx
  | .send brand action => irAirconSend s brand action tx
  | .setTempC brand tempC => irAirconSetTempC s brand tempC tx
  | .sendRaw frame fixCs => (s, irAirconSamsungSendRaw frame fixCs tx)

/-- Calls in any order, each with the answers that it gets. -/
def airconSystem : System Aircon (AirconOp × TxAnswer) where
  step s | (op, tx) => some (op.apply s tx).1

/-! The temperature and the checksums of a cached frame. -/

theorem clampTempC_bounds (t : UInt8) :
    IR_AIRCON_SAMSUNG_TEMP_MIN_C ≤ clampTempC t ∧ clampTempC t ≤ IR_AIRCON_SAMSUNG_TEMP_MAX_C ∧
      lowNibble (clampTempC t - IR_AIRCON_SAMSUNG_TEMP_MIN_C) + IR_AIRCON_SAMSUNG_TEMP_MIN_C =
        clampTempC t := by
  have hall : ∀ n : Fin 256,
      IR_AIRCON_SAMSUNG_TEMP_MIN_C ≤ clampTempC (UInt8.ofNat n) ∧
        clampTempC (UInt8.ofNat n) ≤ IR_AIRCON_SAMSUNG_TEMP_MAX_C ∧
        lowNibble (clampTempC (UInt8.ofNat n) - IR_AIRCON_SAMSUNG_TEMP_MIN_C) +
          IR_AIRCON_SAMSUNG_TEMP_MIN_C = clampTempC (UInt8.ofNat n) := by
    decide +kernel
  simpa using hall ⟨t.toNat, t.toNat_lt⟩

/-- The bits of byte `i` that hold neither the temperature nor a checksum. -/
def keptMask (i : Nat) : UInt8 :=
  match i with
  | 1 | 8 | 11 => 0x0F
  | 2 | 9 => 0xF0
  | _ => 0xFF

def Sam14.keptBits (sam14 : Sam14) : List UInt8 :=
  sam14.bytes.mapIdx fun i b => b &&& keptMask i

theorem mapIdx_modify {α β : Type*} (g : Nat → α → β) (l : List α) (i : Nat) (f : α → α)
    (h : ∀ a, g i (f a) = g i a) : (l.modify i f).mapIdx g = l.mapIdx g := by
  apply List.ext_getElem?
  intro j
  rw [List.getElem?_mapIdx, List.getElem?_mapIdx, List.getElem?_modify]
  by_cases hij : i = j
  · subst hij
    cases l[i]? <;> simp [h]
  · simp [hij]

theorem samsungSetTempC_keptBits (sam14 : Sam14) (t : UInt8) :
    (samsungSetTempC sam14 t).keptBits = sam14.keptBits :=
  mapIdx_modify _ _ _ _ fun b => setHighNibble_low b _

theorem Sam14.fixChecksums_keptBits (sam14 : Sam14) :
    sam14.fixChecksums.keptBits = sam14.keptBits := by
  unfold keptBits fixChecksums irCodecSamsungAcFixChecksums14 irCodecSamsungAcFixChecksum
  dsimp only
  rw [mapIdx_modify _ _ _ _ fun b => setLowNibble_high b _,
    mapIdx_modify _ _ _ _ fun b => setHighNibble_low b _,
    mapIdx_modify _ _ _ _ fun b => setLowNibble_high b _,
    mapIdx_modify _ _ _ _ fun b => setHighNibble_low b _]

theorem irCodecSamsungAcFixChecksum_getElem? (data : List UInt8) {start i : Nat}
    (h₁ : start + 1 ≠ i) (h₂ : start + 2 ≠ i) :
    (irCodecSamsungAcFixChecksum data start)[i]? = data[i]? := by
  rw [irCodecSamsungAcFixChecksum, List.getElem?_modify_ne _ _ h₂,
    List.getElem?_modify_ne _ _ h₁]

/-- The checksums leave the temperature alone. -/
theorem Sam14.fixChecksums_tempC (sam14 : Sam14) :
    samsungGetTempC sam14.fixChecksums = samsungGetTempC sam14 := by
  simp only [samsungGetTempC, fixChecksums, irCodecSamsungAcFixChecksums14,
    IR_SAC_TEMP_BYTE_INDEX, List.getD_eq_getElem?_getD]
  rw [irCodecSamsungAcFixChecksum_getElem? _ (by decide) (by decide),
    irCodecSamsungAcFixChecksum_getElem? _ (by decide) (by decide)]

theorem samsungSetTempC_tempC (sam14 : Sam14) (t : UInt8) :
    samsungGetTempC (samsungSetTempC sam14 t) = clampTempC t := by
  have hindex : IR_SAC_TEMP_BYTE_INDEX < sam14.bytes.length := by
    rw [sam14.length]
    decide
  simp only [samsungGetTempC, samsungSetTempC, List.getD_eq_getElem?_getD,
    List.getElem?_modify_eq, List.getElem?_eq_getElem hindex, Option.map_eq_map, Option.map_some,
    Option.getD_some, highNibble_setHighNibble]
  exact (clampTempC_bounds t).2.2

theorem Sam14.fixChecksums_verify (sam14 : Sam14) :
    irCodecSamsungAcVerifyAll sam14.fixChecksums.bytes = true :=
  irCodecSamsungAcVerifyAll_fix sam14.length

/-! Sending. -/

/-- A frame of one to three sections reaches the transmitter, and decodes. -/
theorem sendSymbolFrame_spec {bytes : List UInt8} {nsec : Nat} (hlen : bytes.length = nsec * 7)
    (hpos : 1 ≤ nsec) (hmax : nsec ≤ 3) (tx : TxAnswer) :
    ∃ syms, irCodecSamsungAcEncode bytes IR_SAC_MAX_SYMBOLS = .ok syms ∧
      sendSymbolFrame bytes tx =
        ⟨if tx.sendRc = 0 then IR_AIRCON_OK else IR_AIRCON_ERR_TX, some syms⟩ := by
  have hroom : ¬IR_SAC_MAX_SYMBOLS < 1 + 58 * nsec := by
    simp only [IR_SAC_MAX_SYMBOLS, IR_SAC_MAX_BYTES, IR_SAC_SECTION_BYTES]
    omega
  have henc := irCodecSamsungAcEncode_eq hlen hpos hmax IR_SAC_MAX_SYMBOLS
  rw [if_neg hroom] at henc
  refine ⟨_, henc, ?_⟩
  rw [sendSymbolFrame, henc]

/-- The array decodes to these bytes. -/
def DecodesTo (syms : List Symbol) (bytes : List UInt8) : Prop :=
  ∀ out, ∃ dec, irDecode syms out = (0, dec) ∧ dec.proto = .samsungAc ∧
    dec.byteCount.toNat = bytes.length ∧ dec.rawBytes.take bytes.length = bytes

theorem decodesTo_of_encode {bytes : List UInt8} {nsec : Nat} (hlen : bytes.length = nsec * 7)
    (hpos : 1 ≤ nsec) (hmax : nsec ≤ 3) {outCap : Nat} {syms : List Symbol}
    (henc : irCodecSamsungAcEncode bytes outCap = .ok syms) : DecodesTo syms bytes :=
  fun out => irDecode_encode hlen hpos hmax henc out

/-- A learned frame is transmitted as it stands. -/
theorem sendLearnedRaw_spec {bytes : List UInt8} {nsec : Nat} (hlen : bytes.length = nsec * 7)
    (hpos : 1 ≤ nsec) (hmax : nsec ≤ 3) (tx : TxAnswer) :
    ∃ syms, DecodesTo syms bytes ∧ sendLearnedRaw bytes tx =
      ⟨if tx.sendRc = 0 then IR_AIRCON_OK else IR_AIRCON_ERR_TX, some syms⟩ := by
  obtain ⟨syms, henc, hsend⟩ := sendSymbolFrame_spec hlen hpos hmax tx
  have hgood : badLength bytes.length = false := by
    rw [Bool.eq_false_iff, ne_eq, badLength_iff, IR_SAC_MAX_BYTES]
    omega
  refine ⟨syms, decodesTo_of_encode hlen hpos hmax henc, ?_⟩
  rw [sendLearnedRaw, hgood]
  exact hsend

/-- The cache after the edit that a new temperature makes. -/
def Sam14.withTempC (sam14 : Sam14) (t : UInt8) : Sam14 :=
  (samsungSetTempC sam14 t).fixChecksums

theorem Sam14.withTempC_tempC (sam14 : Sam14) (t : UInt8) :
    samsungGetTempC (sam14.withTempC t) = clampTempC t := by
  rw [withTempC, fixChecksums_tempC, samsungSetTempC_tempC]

theorem Sam14.withTempC_keptBits (sam14 : Sam14) (t : UInt8) :
    (sam14.withTempC t).keptBits = sam14.keptBits := by
  rw [withTempC, fixChecksums_keptBits, samsungSetTempC_keptBits]

/-- A call that is not refused edits the cache and passes it to the transmitter. -/
theorem irAirconSetTempC_cases (s : Aircon) (brand : Brand) (t : UInt8) (tx : TxAnswer) :
    (∃ rc, rc ≠ IR_AIRCON_OK ∧ irAirconSetTempC s brand t tx = (s, .refused rc)) ∨
    (s.inited = true ∧ tx.ready = true ∧ brand = .samsung ∧ s.samPower = true ∧
      ∃ syms, irCodecSamsungAcEncode (s.sam14.withTempC t).bytes IR_SAC_MAX_SYMBOLS = .ok syms ∧
        irAirconSetTempC s brand t tx =
          ({s with sam14 := s.sam14.withTempC t},
            ⟨if tx.sendRc = 0 then IR_AIRCON_OK else IR_AIRCON_ERR_TX, some syms⟩)) := by
  by_cases hready : !s.inited ∨ !tx.ready
  · exact Or.inl ⟨IR_AIRCON_ERR_NOT_READY, by decide, by rw [irAirconSetTempC, if_pos hready]⟩
  by_cases hbrand : brand ≠ .samsung
  · refine Or.inl ⟨IR_AIRCON_ERR_NOT_IMPL, by decide, ?_⟩
    rw [irAirconSetTempC, if_neg hready, if_pos hbrand]
  by_cases hpower : s.samPower = true
  · have hlen : (s.sam14.withTempC t).bytes.length = 2 * 7 := Sam14.length _
    obtain ⟨syms, henc, hsend⟩ := sendSymbolFrame_spec hlen (by decide) (by decide) tx
    simp only [Bool.not_eq_true', not_or, Bool.not_eq_false] at hready
    refine Or.inr ⟨hready.1, hready.2, not_ne_iff.mp hbrand, hpower, syms, henc, ?_⟩
    rw [← hsend, irAirconSetTempC, samsungSendStateWithTemp]
    simp [hready, not_ne_iff.mp hbrand, hpower, Sam14.withTempC]
  · refine Or.inl ⟨IR_AIRCON_ERR_INVALID_STATE, by decide, ?_⟩
    rw [irAirconSetTempC, if_neg hready, if_neg hbrand, samsungSendStateWithTemp]
    simp [hpower]

/-! The cache. -/

structure Aircon.CacheOk (s : Aircon) : Prop where
  verifies : irCodecSamsungAcVerifyAll s.sam14.bytes = true
  minC : IR_AIRCON_SAMSUNG_TEMP_MIN_C ≤ irAirconGetTempC s .samsung
  maxC : irAirconGetTempC s .samsung ≤ IR_AIRCON_SAMSUNG_TEMP_MAX_C

/-- What a successful call of `ir_aircon_set_temp_c` has done. -/
structure TempSet (s s' : Aircon) (t : UInt8) (frame : Option (List Symbol)) : Prop where
  transmitted : ∃ syms, frame = some syms ∧ DecodesTo syms s'.sam14.bytes
  tempC : irAirconGetTempC s' .samsung = clampTempC t
  kept : s'.sam14.keptBits = s.sam14.keptBits

/-- Every successful call for the Samsung brand sets the temperature. -/
def SetsTemp (s : Aircon) : AirconOp × TxAnswer → Prop
  | (.setTempC .samsung t, tx) =>
      (irAirconSetTempC s .samsung t tx).2.rc = IR_AIRCON_OK →
        TempSet s (irAirconSetTempC s .samsung t tx).1 t
          (irAirconSetTempC s .samsung t tx).2.frame
  | _ => True

structure Aircon.Inv (s : Aircon) : Prop where
  inited : s.samPower = true → s.inited = true
  verifies : s.samPower = true → irCodecSamsungAcVerifyAll s.sam14.bytes = true
  tempC : s.samPower = true → ∃ t, samsungGetTempC s.sam14 = clampTempC t

theorem Aircon.inv_powerUp : Aircon.powerUp.Inv := by
  constructor <;> simp [Aircon.powerUp]

theorem irAirconGetTempC_powered {s : Aircon} (hinited : s.inited = true)
    (hpower : s.samPower = true) : irAirconGetTempC s .samsung = samsungGetTempC s.sam14 := by
  simp [irAirconGetTempC, hinited, hpower]

theorem Aircon.Inv.cacheOk {s : Aircon} (h : s.Inv) (hpower : s.samPower = true) :
    s.CacheOk := by
  have htemp := irAirconGetTempC_powered (h.inited hpower) hpower
  obtain ⟨t, ht⟩ := h.tempC hpower
  obtain ⟨hmin, hmax, -⟩ := clampTempC_bounds t
  constructor
  · exact h.verifies hpower
  · rw [htemp, ht]
    exact hmin
  · rw [htemp, ht]
    exact hmax

theorem Aircon.Inv.off (s : Aircon) (sam14 : Sam14) (inited : Bool) :
    Aircon.Inv {s with sam14 := sam14, samPower := false, inited := inited} := by
  constructor <;> simp

theorem kSamsungAcOn14_verify : irCodecSamsungAcVerifyAll kSamsungAcOn14.bytes = true := by
  decide

theorem kSamsungAcOn14_tempC : samsungGetTempC kSamsungAcOn14 = clampTempC 24 := by
  decide

theorem Aircon.Inv.execSamsungLearned {s : Aircon} (h : s.Inv) (hinited : s.inited = true)
    (action : AirconAction) (tx : TxAnswer) : (execSamsungLearned s action tx).1.Inv := by
  cases action with
  | powerOn =>
      simp only [Ir.execSamsungLearned]
      split
      · exact ⟨fun _ => hinited, fun _ => kSamsungAcOn14_verify,
          fun _ => ⟨24, kSamsungAcOn14_tempC⟩⟩
      · exact h
  | powerOff =>
      simp only [Ir.execSamsungLearned]
      split
      · exact Aircon.Inv.off s s.sam14 s.inited
      · exact h
  | tempUp | tempDown | other => exact h

theorem Aircon.Inv.send {s : Aircon} (h : s.Inv) (brand : Brand) (action : AirconAction)
    (tx : TxAnswer) : (irAirconSend s brand action tx).1.Inv := by
  unfold irAirconSend
  split
  · exact h
  · rename_i hready
    simp only [Bool.not_eq_true', not_or, Bool.not_eq_false] at hready
    split
    · exact h
    · split
      · exact h.execSamsungLearned hready.1 action tx
      · exact h
      · exact h

theorem Aircon.Inv.setTempC {s : Aircon} (h : s.Inv) (brand : Brand) (t : UInt8)
    (tx : TxAnswer) : (irAirconSetTempC s brand t tx).1.Inv := by
  rcases irAirconSetTempC_cases s brand t tx with ⟨rc, -, heq⟩ | ⟨hinited, -, -, -, syms, -, heq⟩
  · rw [heq]
    exact h
  · rw [heq]
    exact ⟨fun _ => hinited, fun _ => Sam14.fixChecksums_verify _,
      fun _ => ⟨t, s.sam14.withTempC_tempC t⟩⟩

theorem Aircon.Inv.apply {s : Aircon} (h : s.Inv) (op : AirconOp) (tx : TxAnswer) :
    (op.apply s tx).1.Inv := by
  cases op with
  | init => exact Aircon.Inv.off s Aircon.powerUp.sam14 true
  | send brand action => exact h.send brand action tx
  | setTempC brand t => exact h.setTempC brand t tx
  | sendRaw frame fixCs => exact h

theorem Aircon.Inv.step {s s' : Aircon} {e : AirconOp × TxAnswer} (h : s.Inv)
    (hstep : airconSystem.step s e = some s') : s'.Inv := by
  obtain rfl := Option.some.inj hstep
  exact h.apply e.1 e.2

theorem irAirconSetTempC_tempSet {s : Aircon} {t : UInt8} {tx : TxAnswer}
    (hok : (irAirconSetTempC s .samsung t tx).2.rc = IR_AIRCON_OK) :
    TempSet s (irAirconSetTempC s .samsung t tx).1 t
      (irAirconSetTempC s .samsung t tx).2.frame := by
  rcases irAirconSetTempC_cases s .samsung t tx with
    ⟨rc, hrc, heq⟩ | ⟨hinited, -, -, hpower, syms, henc, heq⟩
  · rw [heq] at hok
    exact absurd hok hrc
  · have hlen : (s.sam14.withTempC t).bytes.length = 2 * 7 := Sam14.length _
    rw [heq]
    constructor
    · exact ⟨syms, rfl, decodesTo_of_encode hlen (by decide) (by decide) henc⟩
    · have hget := @irAirconGetTempC_powered {s with sam14 := s.sam14.withTempC t} hinited hpower
      rw [hget]
      exact s.sam14.withTempC_tempC t
    · exact s.sam14.withTempC_keptBits t

theorem setsTemp (s : Aircon) (e : AirconOp × TxAnswer) : SetsTemp s e := by
  unfold SetsTemp
  split
  · exact irAirconSetTempC_tempSet
  · trivial

/-- After any calls, with whatever the transmitter answers, a powered cache
verifies and has a temperature from 16 to 30 °C; and every successful change of
the temperature has transmitted the cache, which changed nowhere else. -/
theorem aircon_cache_ok (ops : List (AirconOp × TxAnswer)) :
    airconSystem.Always (fun s => s.samPower = true → s.CacheOk) .powerUp ops ∧
      airconSystem.Meets SetsTemp .powerUp ops := by
  constructor
  · have hinv := System.always_of_inv (fun _ _ _ h hs => Aircon.Inv.step h hs)
      Aircon.inv_powerUp ops
    exact hinv.mono fun _ h => h.cacheOk
  · exact System.meets_of_inv (fun s e _ h hs => ⟨setsTemp s e, h.step hs⟩)
      Aircon.inv_powerUp ops

end Rw612.Ir
