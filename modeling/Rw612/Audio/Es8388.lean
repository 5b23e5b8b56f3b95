import Rw612.Sensors.Program

/-!
The codec driver `es8388.c` as programs over the shared bus, and what a codec does with
their transfers. The delay after the soft reset is left out.
-/

namespace Rw612.Audio

open Lib Sensors

def ES8388_I2C_ADDR_LOW : UInt8 := 0x10

def ES8388_CONTROL1 : UInt8 := 0x00
def ES8388_CONTROL2 : UInt8 := 0x01
def ES8388_CHIPPOWER : UInt8 := 0x02
def ES8388_ADCPOWER : UInt8 := 0x03
def ES8388_DACPOWER : UInt8 := 0x04
def ES8388_MASTERMODE : UInt8 := 0x08
def ES8388_DACCONTROL1 : UInt8 := 0x17
def ES8388_DACCONTROL2 : UInt8 := 0x18
def ES8388_DACCONTROL3 : UInt8 := 0x19
def ES8388_DACVOLL : UInt8 := 0x1A
def ES8388_DACVOLR : UInt8 := 0x1B
def ES8388_DACCONTROL16 : UInt8 := 0x26
def ES8388_DACCONTROL17 : UInt8 := 0x27
def ES8388_DACCONTROL20 : UInt8 := 0x2A
def ES8388_DACCONTROL21 : UInt8 := 0x2B
def ES8388_LOUT1VOL : UInt8 := 0x2E
def ES8388_ROUT1VOL : UInt8 := 0x2F

/-- `es8388_config_t` -/
structure Es8388Config where
  i2cAddr : UInt8
  outVol : UInt8

/-! `addr` is `s_addr`. -/

def es8388WriteReg (addr reg val : UInt8) : BusProg Int := BusProg.write addr [reg, val]

def es8388ReadReg (addr reg : UInt8) : BusProg (Int × UInt8) := do
  let reply ← BusProg.writeRead addr [reg] 1
  return (reply.rc, reply.rx.headD 0)

/-- The macro `WR` for one register after the other. -/
def wr (addr : UInt8) : List (UInt8 × UInt8) → BusProg Int
  | [] => return 0
  | (reg, val) :: rest => do
      let rc ← es8388WriteReg addr reg val
      if rc ≠ 0 then return rc else wr addr rest

/-- Behind the reset, up to the mixer. -/
def routing : List (UInt8 × UInt8) :=
  [(ES8388_CONTROL1, 0x06),
    (ES8388_CONTROL2, 0x1C), (ES8388_CHIPPOWER, 0x00), (ES8388_ADCPOWER, 0xFF),
    (ES8388_MASTERMODE, 0x00),
    (ES8388_DACCONTROL1, 0x18), (ES8388_DACCONTROL2, 0x02),
    (ES8388_DACVOLL, 0x00), (ES8388_DACVOLR, 0x00),
    (ES8388_DACCONTROL16, 0x00), (ES8388_DACCONTROL17, 0x90), (ES8388_DACCONTROL20, 0x90),
    (ES8388_DACCONTROL21, 0xA0)]

def outputs (outVol : UInt8) : List (UInt8 × UInt8) :=
  [(ES8388_LOUT1VOL, outVol), (ES8388_ROUT1VOL, outVol), (ES8388_DACPOWER, 0x3C),
    (ES8388_DACCONTROL3, 0x00)]

/-- What `es8388_init` writes. -/
def setup (outVol : UInt8) : List (UInt8 × UInt8) :=
  (ES8388_CONTROL1, 0x80) :: routing ++ outputs outVol

/-- The code, and `s_addr`; `ready` is what `device_is_ready` answers. -/
def es8388Init (ready : Bool) (cfg : Es8388Config) (addr : UInt8) : BusProg (Int × UInt8) := do
  let rc := i2cBusInit ready
  if rc ≠ 0 then return (rc, addr)
  else
    let rc ← wr cfg.i2cAddr (setup cfg.outVol)
    return (rc, cfg.i2cAddr)

def es8388SetVolume (addr vol : UInt8) : BusProg Int := do
  let rc ← es8388WriteReg addr ES8388_LOUT1VOL vol
  if rc = 0 then es8388WriteReg addr ES8388_ROUT1VOL vol else return rc

def es8388SetMute (addr : UInt8) (mute : Bool) : BusProg Int := do
  let (rc, val) ← es8388ReadReg addr ES8388_DACCONTROL3
  if rc ≠ 0 then return rc
  else es8388WriteReg addr ES8388_DACCONTROL3 (if mute then val ||| 0x04 else val &&& 0xFB)

/-! The codec. -/

/-- A device with the registers of the codec: a write that is answered with an error may
have been taken or not, and a reset may change every register. -/
structure IsCodec {τ : Type} (codec : Attached τ) (regs : τ → UInt8 → UInt8) : Prop where
  written : ∀ d reg val, ¬(reg = ES8388_CONTROL1 ∧ val &&& 0x80 ≠ 0) →
    let after := codec d (.write ES8388_I2C_ADDR_LOW [reg, val])
    regs after.2 = Function.update (regs d) reg val ∨ after.1.rc ≠ 0 ∧ regs after.2 = regs d
  read : ∀ d reg,
    let after := codec d (.writeRead ES8388_I2C_ADDR_LOW [reg] 1)
    regs after.2 = regs d ∧ (after.1.rc = 0 → after.1.rx = [regs d reg])

/-- The transfers of the driver. -/
def ToCodec (t : Transfer) : Prop := t.addr = ES8388_I2C_ADDR_LOW

theorem writeReg_keeps (reg val : UInt8) :
    (es8388WriteReg ES8388_I2C_ADDR_LOW reg val).Keeps ToCodec (fun _ => True) :=
  ⟨rfl, fun _ => trivial⟩

theorem wr_keeps (writes : List (UInt8 × UInt8)) :
    (wr ES8388_I2C_ADDR_LOW writes).Keeps ToCodec (fun _ => True) := by
  induction writes with
  | nil => trivial
  | cons w rest ih =>
      apply (writeReg_keeps w.1 w.2).bind
      intro rc _
      split
      · trivial
      · exact ih

theorem init_keeps (ready : Bool) (outVol addr : UInt8) :
    (es8388Init ready ⟨ES8388_I2C_ADDR_LOW, outVol⟩ addr).Keeps ToCodec
      (fun r => r.2 = ES8388_I2C_ADDR_LOW ∨ r.1 ≠ 0 ∧ r.2 = addr) := by
  unfold es8388Init
  dsimp only
  split
  case isTrue hready => exact .inr ⟨hready, rfl⟩
  case isFalse => exact (wr_keeps _).bind (fun _ _ => .inl rfl)

theorem setVolume_keeps (vol : UInt8) :
    (es8388SetVolume ES8388_I2C_ADDR_LOW vol).Keeps ToCodec (fun _ => True) := by
  apply (writeReg_keeps ES8388_LOUT1VOL vol).bind
  intro rc _
  split
  · exact writeReg_keeps ES8388_ROUT1VOL vol
  · trivial

theorem setMute_keeps (mute : Bool) :
    (es8388SetMute ES8388_I2C_ADDR_LOW mute).Keeps ToCodec (fun _ => True) := by
  have hread : (es8388ReadReg ES8388_I2C_ADDR_LOW ES8388_DACCONTROL3).Keeps ToCodec
      (fun _ => True) := ⟨rfl, fun _ => trivial⟩
  apply hread.bind
  rintro ⟨rc, val⟩ _
  dsimp only
  split
  · trivial
  · exact writeReg_keeps _ _

section

variable {τ : Type} {codec : Attached τ} {regs : τ → UInt8 → UInt8} (hcodec : IsCodec codec regs)
include hcodec

/-- A register that is not written keeps its value, whatever the answer is. -/
theorem writeReg_other (d : τ) {reg val : UInt8}
    (hreset : ¬(reg = ES8388_CONTROL1 ∧ val &&& 0x80 ≠ 0)) {other : UInt8} (hne : other ≠ reg) :
    regs ((es8388WriteReg ES8388_I2C_ADDR_LOW reg val).run codec d).2 other = regs d other := by
  rcases hcodec.written d reg val hreset with htaken | ⟨-, hkept⟩
  · exact (congrFun htaken other).trans (Function.update_of_ne hne _ _)
  · exact congrFun hkept other

theorem writeReg_taken (d : τ) {reg val : UInt8}
    (hreset : ¬(reg = ES8388_CONTROL1 ∧ val &&& 0x80 ≠ 0))
    (hrc : ((es8388WriteReg ES8388_I2C_ADDR_LOW reg val).run codec d).1 = 0) :
    regs ((es8388WriteReg ES8388_I2C_ADDR_LOW reg val).run codec d).2 =
      Function.update (regs d) reg val := by
  rcases hcodec.written d reg val hreset with htaken | ⟨hfailed, -⟩
  · exact htaken
  · exact absurd hrc hfailed

/-- Registers that are written one after the other hold what they were written with. -/
theorem wr_taken {writes : List (UInt8 × UInt8)} (d : τ)
    (hreset : ∀ w ∈ writes, ¬(w.1 = ES8388_CONTROL1 ∧ w.2 &&& 0x80 ≠ 0))
    (hdistinct : (writes.map Prod.fst).Nodup)
    (hrc : ((wr ES8388_I2C_ADDR_LOW writes).run codec d).1 = 0) :
    (∀ w ∈ writes, regs ((wr ES8388_I2C_ADDR_LOW writes).run codec d).2 w.1 = w.2) ∧
      ∀ reg, reg ∉ writes.map Prod.fst →
        regs ((wr ES8388_I2C_ADDR_LOW writes).run codec d).2 reg = regs d reg := by
  induction writes generalizing d with
  | nil => exact ⟨by simp, fun _ _ => rfl⟩
  | cons w rest ih =>
      obtain ⟨hw, hrest⟩ := List.forall_mem_cons.mp hreset
      obtain ⟨hnew, hdistinct'⟩ := List.nodup_cons.mp hdistinct
      rw [wr, Prog.run_bind] at hrc ⊢
      by_cases hfailed : ((es8388WriteReg ES8388_I2C_ADDR_LOW w.1 w.2).run codec d).1 ≠ 0
      · rw [if_pos hfailed] at hrc
        exact absurd hrc hfailed
      · have htaken := writeReg_taken hcodec d hw (not_not.mp hfailed)
        rw [if_neg hfailed] at hrc ⊢
        obtain ⟨hheld, hkept⟩ := ih _ hrest hdistinct' hrc
        refine ⟨List.forall_mem_cons.mpr ⟨?_, hheld⟩, fun reg hreg => ?_⟩
        · rw [hkept w.1 hnew, htaken, Function.update_self]
        · obtain ⟨hne, hreg'⟩ := not_or.mp (fun h => hreg (List.mem_cons.mpr h))
          rw [hkept reg hreg', htaken, Function.update_of_ne hne]

/-- What a codec is told by an initialisation that succeeds. -/
theorem init_taken (ready : Bool) (outVol addr : UInt8) (d : τ)
    (hrc : ((es8388Init ready ⟨ES8388_I2C_ADDR_LOW, outVol⟩ addr).run codec d).1.1 = 0) :
    ∀ w ∈ routing ++ outputs outVol,
      regs ((es8388Init ready ⟨ES8388_I2C_ADDR_LOW, outVol⟩ addr).run codec d).2 w.1 = w.2 := by
  unfold es8388Init at hrc ⊢
  dsimp only at hrc ⊢
  by_cases hready : i2cBusInit ready ≠ 0
  · rw [if_pos hready] at hrc
    exact absurd hrc hready
  · have hsetup : setup outVol = (ES8388_CONTROL1, 0x80) :: (routing ++ outputs outVol) := rfl
    rw [if_neg hready, hsetup, wr] at hrc ⊢
    simp only [Prog.run_bind, Prog.run_pure] at hrc ⊢
    by_cases hfailed :
        ((es8388WriteReg ES8388_I2C_ADDR_LOW ES8388_CONTROL1 0x80).run codec d).1 ≠ 0
    · rw [if_pos hfailed] at hrc
      exact absurd hrc hfailed
    · rw [if_neg hfailed] at hrc ⊢
      have hregs : (routing ++ outputs outVol).map Prod.fst =
          (routing ++ outputs 0).map Prod.fst := rfl
      have hlater : ES8388_CONTROL1 ∉ routing.tail.map Prod.fst := by decide
      have hrouting : ∀ w ∈ routing, ¬(w.1 = ES8388_CONTROL1 ∧ w.2 &&& 0x80 ≠ 0) :=
        List.forall_mem_cons.mpr ⟨by decide, fun w hw h => hlater (h.1 ▸ List.mem_map_of_mem hw)⟩
      have houtputs : ES8388_CONTROL1 ∉ (outputs outVol).map Prod.fst :=
        (by decide : ES8388_CONTROL1 ∉ (outputs 0).map Prod.fst)
      refine (wr_taken hcodec _ (List.forall_mem_append.mpr ⟨hrouting, fun w hw h => ?_⟩) ?_
        hrc).1
      · exact houtputs (h.1 ▸ List.mem_map_of_mem hw)
      · rw [hregs]
        decide

/-- Setting the volume touches no other register, and where it succeeds both outputs have
the volume. -/
theorem setVolume_taken (vol : UInt8) (d : τ) :
    let after := (es8388SetVolume ES8388_I2C_ADDR_LOW vol).run codec d
    (∀ reg, reg ≠ ES8388_LOUT1VOL → reg ≠ ES8388_ROUT1VOL → regs after.2 reg = regs d reg) ∧
      (after.1 = 0 → regs after.2 ES8388_LOUT1VOL = vol ∧ regs after.2 ES8388_ROUT1VOL = vol) := by
  have hleft : ¬(ES8388_LOUT1VOL = ES8388_CONTROL1 ∧ vol &&& 0x80 ≠ 0) :=
    fun h => absurd h.1 (by decide)
  have hright : ¬(ES8388_ROUT1VOL = ES8388_CONTROL1 ∧ vol &&& 0x80 ≠ 0) :=
    fun h => absurd h.1 (by decide)
  unfold es8388SetVolume
  simp only [Prog.run_bind]
  by_cases hrc : ((es8388WriteReg ES8388_I2C_ADDR_LOW ES8388_LOUT1VOL vol).run codec d).1 = 0
  · rw [if_pos hrc]
    have hheld := writeReg_taken hcodec d hleft hrc
    refine ⟨fun reg hl hr => ?_, fun hrc' => ?_⟩
    · rw [writeReg_other hcodec _ hright hr, writeReg_other hcodec _ hleft hl]
    · rw [writeReg_taken hcodec _ hright hrc', hheld]
      exact ⟨rfl, rfl⟩
  · rw [if_neg hrc]
    exact ⟨fun reg hl _ => writeReg_other hcodec _ hleft hl, fun hrc' => absurd hrc' hrc⟩

/-- The mute bit is set or cleared in a register that holds nothing else. -/
theorem setMute_taken (mute : Bool) (d : τ)
    (hbit : regs d ES8388_DACCONTROL3 = 0 ∨ regs d ES8388_DACCONTROL3 = 0x04) :
    let after := (es8388SetMute ES8388_I2C_ADDR_LOW mute).run codec d
    (∀ reg, reg ≠ ES8388_DACCONTROL3 → regs after.2 reg = regs d reg) ∧
      (regs after.2 ES8388_DACCONTROL3 = 0 ∨ regs after.2 ES8388_DACCONTROL3 = 0x04) ∧
      (after.1 = 0 → regs after.2 ES8388_DACCONTROL3 = if mute then 0x04 else 0) := by
  obtain ⟨hkept, hrx⟩ := hcodec.read d ES8388_DACCONTROL3
  have hread : (es8388ReadReg ES8388_I2C_ADDR_LOW ES8388_DACCONTROL3).run codec d =
      (((codec d (.writeRead ES8388_I2C_ADDR_LOW [ES8388_DACCONTROL3] 1)).1.rc,
        (codec d (.writeRead ES8388_I2C_ADDR_LOW [ES8388_DACCONTROL3] 1)).1.rx.headD 0),
        (codec d (.writeRead ES8388_I2C_ADDR_LOW [ES8388_DACCONTROL3] 1)).2) := rfl
  unfold es8388SetMute
  simp only [Prog.run_bind, hread]
  generalize codec d (.writeRead ES8388_I2C_ADDR_LOW [ES8388_DACCONTROL3] 1) = answer at *
  by_cases hrc : answer.1.rc ≠ 0
  · rw [if_pos hrc]
    exact ⟨fun reg _ => congrFun hkept reg, hkept ▸ hbit, fun h => absurd h hrc⟩
  · have hval : answer.1.rx.headD 0 = regs d ES8388_DACCONTROL3 := by
      rw [hrx (not_not.mp hrc), List.headD_cons]
    rw [if_neg hrc, hval]
    have hnew : (if mute then regs d ES8388_DACCONTROL3 ||| 0x04
        else regs d ES8388_DACCONTROL3 &&& 0xFB) = if mute then 0x04 else 0 := by
      rcases hbit with hbit | hbit
      · rw [hbit]
        rfl
      · rw [hbit]
        rfl
    have hreset : ¬(ES8388_DACCONTROL3 = ES8388_CONTROL1 ∧
        (if mute then (0x04 : UInt8) else 0) &&& 0x80 ≠ 0) := fun h => absurd h.1 (by decide)
    rw [hnew]
    refine ⟨fun reg hreg => ?_, ?_, fun hrc' => ?_⟩
    · rw [writeReg_other hcodec _ hreset hreg, hkept]
    · rcases hcodec.written answer.2 ES8388_DACCONTROL3 _ hreset with htaken | ⟨-, hheld⟩
      · have hheld := congrFun htaken ES8388_DACCONTROL3
        rw [Function.update_self] at hheld
        cases mute with
        | false => exact .inl hheld
        | true => exact .inr hheld
      · have hheld := (congrFun hheld ES8388_DACCONTROL3).trans (congrFun hkept _)
        exact hbit.imp hheld.trans hheld.trans
    · rw [writeReg_taken hcodec _ hreset hrc', Function.update_self]

end

end Rw612.Audio
