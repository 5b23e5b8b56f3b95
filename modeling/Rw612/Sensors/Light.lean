import Rw612.Sensors.I2cBus

/-!
The two light sensors: `bh1750.c` over the adapter `bh1750_io_nxp_i2c.c`, and their
bring-up in `hw_init` of `lux_task.c`, on a bus that answers in any way.
-/

namespace Rw612.Sensors

def BH1750_ADDR_LOW : UInt8 := 0x23
def BH1750_ADDR_HIGH : UInt8 := 0x5C

def BH1750_OP_POWER_ON : UInt8 := 0x01

def BH1750_OK : Int := 0
def BH1750_ERR_PARAM : Int := -1
def BH1750_ERR_IO : Int := -2

@[simp] theorem err_io_ne_ok : ¬ BH1750_ERR_IO = BH1750_OK := by decide

/-- `bh1750_mode_t`. -/
inductive Bh1750Mode where
  | contH
  | contH2
  | contL
  | oneH
  | oneH2
  | oneL
  deriving DecidableEq

def modeToOpcode : Bh1750Mode → UInt8
  | .contH => 0x10
  | .contH2 => 0x11
  | .contL => 0x13
  | .oneH => 0x20
  | .oneH2 => 0x21
  | .oneL => 0x23

/-- `bh1750_t`; `io` tells whether the functions of the adapter are in place. -/
structure Bh1750 where
  io : Bool
  addr : UInt8
  mode : Bh1750Mode
  lastRaw : UInt16
  deriving DecidableEq

/-- A zeroed structure. -/
def Bh1750.zero : Bh1750 := ⟨false, 0, .contH, 0⟩

/-- `bh1750_init`, given an adapter that is in place or not. -/
def bh1750Init (io : Bool) (addr : UInt8) (dev : Bh1750) : Int × Bh1750 :=
  if !io then (BH1750_ERR_PARAM, dev)
  else if addr ≠ BH1750_ADDR_LOW ∧ addr ≠ BH1750_ADDR_HIGH then (BH1750_ERR_PARAM, dev)
  else (BH1750_OK, ⟨io, addr, .contH, 0⟩)

section

variable {σ : Type*} (i2c : Attached σ)

/-- `nxp_i2c_write` -/
def nxpI2cWrite (addr : UInt8) (data : List UInt8) (bus : Bus σ) : Int × Bus σ :=
  let (rc, bus) := i2cBusWrite i2c addr data bus
  (if rc = 0 then 0 else -1, bus)

def bh1750WriteOp (dev : Bh1750) (op : UInt8) (bus : Bus σ) : Int × Bus σ :=
  if !dev.io then ( BH1750_ERR_IO, bus)
  else
    let (rc, bus) := nxpI2cWrite i2c dev.addr [op] bus
    (if rc ≠ 0 then BH1750_ERR_IO else BH1750_OK, bus)

def bh1750PowerOn (dev : Bh1750) (bus : Bus σ) : Int × Bus σ :=
  bh1750WriteOp i2c dev BH1750_OP_POWER_ON bus

def bh1750SetMode (dev : Bh1750) (mode : Bh1750Mode) (bus : Bus σ) : Int × Bh1750 × Bus σ :=
  match bh1750PowerOn i2c dev bus with
  | (rc, bus) =>
      if rc ≠ BH1750_OK then (rc, dev, bus)
      else
        match bh1750WriteOp i2c dev (modeToOpcode mode) bus with
        | (rc, bus) =>
            if rc ≠ BH1750_OK then (rc, dev, bus) else (BH1750_OK, { dev with mode := mode }, bus)

/-- The variables of `lux_task.c` that `hw_init` sets. -/
structure LuxTask where
  io : Bool
  s1 : Bh1750
  s2 : Bh1750
  deriving DecidableEq

def LuxTask.boot : LuxTask := ⟨false, .zero, .zero⟩

/-- `bh1750_set_mode` for a sensor that was found. -/
def setModeIf (found : Bool) (dev : Bh1750) (bus : Bus σ) : Int × Bh1750 × Bus σ :=
  if found then bh1750SetMode i2c dev .contH bus else (BH1750_OK, dev, bus)

/-- `hw_init` behind the two probes. -/
def hwConfigure (found1 found2 : Bool) (s : LuxTask) (bus : Bus σ) : Int × LuxTask × Bus σ :=
  match bh1750Init s.io BH1750_ADDR_LOW s.s1 with
  | (rc, s1) =>
      if rc ≠ BH1750_OK then (rc, { s with s1 := s1 }, bus)
      else
        match bh1750Init s.io BH1750_ADDR_HIGH s.s2 with
        | (rc, s2) =>
            if rc ≠ BH1750_OK then (rc, { s with s1 := s1, s2 := s2 }, bus)
            else
              match setModeIf i2c found1 s1 bus with
              | (rc, s1, bus) =>
                  if rc ≠ BH1750_OK then (rc, { s with s1 := s1, s2 := s2 }, bus)
                  else
                    match setModeIf i2c found2 s2 bus with
                    | (rc, s2, bus) => (rc, { s with s1 := s1, s2 := s2 }, bus)

/-- `hw_init`; `ready` is what `device_is_ready` answers. -/
def hwInit (ready : Bool) (s : LuxTask) (bus : Bus σ) : Int × LuxTask × Bus σ :=
  if i2cBusInit ready ≠ 0 then ( BH1750_ERR_IO, s, bus)
  else
    let s := { s with io := true }
    match i2cBusProbe i2c BH1750_ADDR_HIGH bus with
    | (rc1, bus) =>
        match i2cBusProbe i2c BH1750_ADDR_LOW bus with
        | (rc2, bus) =>
            let found1 := rc1 == 0
            let found2 := rc2 == 0
            if !found1 && !found2 then ( BH1750_ERR_IO, s, bus)
            else hwConfigure i2c found1 found2 s bus

end

/-! What a run of `hw_init` did on the bus. -/

abbrev Log := List (Transfer × Int)

/-- The address acknowledged its probe. -/
def Acked (addr : UInt8) (log : Log) : Prop := (Transfer.probe addr, 0) ∈ log

/-- `bh1750_set_mode` has been issued: its first transfer has been made. -/
def Issued (addr : UInt8) (log : Log) : Prop :=
  ∃ rc, (Transfer.write addr [BH1750_OP_POWER_ON], rc) ∈ log

/-- The sensors that are there, and only these, are configured; the result is OK
if there is one and nothing goes wrong with those that are there. -/
structure BringsUp (rc : Int) (log : Log) : Prop where
  low : Issued BH1750_ADDR_LOW log ↔ Acked BH1750_ADDR_LOW log
  high : Issued BH1750_ADDR_HIGH log ↔ Acked BH1750_ADDR_HIGH log
  ok : Acked BH1750_ADDR_LOW log ∨ Acked BH1750_ADDR_HIGH log →
    (∀ t ∈ log, Acked t.1.addr log → t.2 = 0) → rc = BH1750_OK

section

variable {σ : Type*} (i2c : Attached σ)

/-- The two transfers of `bh1750_set_mode` succeed. -/
def SetModeSucceeds (addr : UInt8) (d : σ) : Prop :=
  let on := i2c d (.write addr [BH1750_OP_POWER_ON])
  on.1.rc = 0 ∧ (i2c on.2 (.write addr [modeToOpcode .contH])).1.rc = 0

/-- Both sensors answer alike, and if they are there, the one at 0x23 can be
configured. -/
def Paired (d : σ) : Prop :=
  let high := i2c d (.probe BH1750_ADDR_HIGH)
  let low := i2c high.2 (.probe BH1750_ADDR_LOW)
  (high.1.rc = 0 ↔ low.1.rc = 0) ∧ (high.1.rc = 0 → SetModeSucceeds i2c BH1750_ADDR_LOW low.2)

/-- The transfers of one `bh1750_set_mode`, and its result. -/
inductive ModeLog (addr : UInt8) : Log → Int → Prop where
  | failsOn {rc : Int} (h : rc ≠ 0) :
      ModeLog addr [(.write addr [BH1750_OP_POWER_ON], rc)] BH1750_ERR_IO
  | failsMode {rc : Int} (h : rc ≠ 0) :
      ModeLog addr [(.write addr [BH1750_OP_POWER_ON], 0),
        (.write addr [modeToOpcode .contH], rc)] BH1750_ERR_IO
  | succeeds :
      ModeLog addr [(.write addr [BH1750_OP_POWER_ON], 0),
        (.write addr [modeToOpcode .contH], 0)] BH1750_OK

/-- One write of an opcode. -/
theorem bh1750WriteOp_eq {dev : Bh1750} (hio : dev.io = true) (op : UInt8) (bus : Bus σ) :
    bh1750WriteOp i2c dev op bus =
      (if (i2c bus.dev (.write dev.addr [op])).1.rc = 0 then BH1750_OK else BH1750_ERR_IO,
        ⟨(i2c bus.dev (.write dev.addr [op])).2,
          bus.log ++ [(.write dev.addr [op], (i2c bus.dev (.write dev.addr [op])).1.rc)]⟩) := by
  by_cases hrc : (i2c bus.dev (.write dev.addr [op])).1.rc = 0
  · simp [bh1750WriteOp, nxpI2cWrite, i2cBusWrite, Bus.transfer, hio, hrc]
  · simp [bh1750WriteOp, nxpI2cWrite, i2cBusWrite, Bus.transfer, hio, hrc]

theorem bh1750SetMode_log {dev : Bh1750} (hio : dev.io = true) (bus : Bus σ) :
    let r := bh1750SetMode i2c dev .contH bus
    ∃ log, ModeLog dev.addr log r.1 ∧ r.2.2.log = bus.log ++ log ∧
      (r.1 = BH1750_OK ↔ SetModeSucceeds i2c dev.addr bus.dev) := by
  by_cases hon : (i2c bus.dev (.write dev.addr [BH1750_OP_POWER_ON])).1.rc = 0
  · by_cases hmode : (i2c (i2c bus.dev (.write dev.addr [BH1750_OP_POWER_ON])).2
        (.write dev.addr [modeToOpcode .contH])).1.rc = 0
    · simp only [bh1750SetMode, bh1750PowerOn, bh1750WriteOp_eq i2c hio, hon, hmode, if_true,
        ne_eq, not_true_eq_false, if_false, SetModeSucceeds]
      exact ⟨_, .succeeds, by simp, by simp⟩
    · simp only [bh1750SetMode, bh1750PowerOn, bh1750WriteOp_eq i2c hio, hon, hmode, if_true,
        ne_eq, not_true_eq_false, if_false, SetModeSucceeds, err_io_ne_ok, not_false_eq_true]
      exact ⟨_, .failsMode hmode, by simp, by simp⟩
  · simp only [bh1750SetMode, bh1750PowerOn, bh1750WriteOp_eq i2c hio, hon, if_false,
      SetModeSucceeds, ne_eq, err_io_ne_ok, not_false_eq_true, if_true]
    exact ⟨_, .failsOn hon, rfl, by simp⟩

/-! The log of a run. -/

theorem acked_append (addr : UInt8) (front back : Log) :
    Acked addr (front ++ back) ↔ Acked addr front ∨ Acked addr back :=
  List.mem_append

theorem issued_append (addr : UInt8) (front back : Log) :
    Issued addr (front ++ back) ↔ Issued addr front ∨ Issued addr back := by
  simp only [Issued, List.mem_append, exists_or]

@[simp] theorem not_acked_nil (addr : UInt8) : ¬Acked addr [] := by simp [Acked]

@[simp] theorem not_issued_nil (addr : UInt8) : ¬Issued addr [] := by simp [Issued]

/-- What a `bh1750_set_mode` for the address, if there is one, adds to the log. -/
structure ModeDone (found : Prop) (addr : UInt8) (log : Log) (rc : Int) : Prop where
  acked : ∀ addr', ¬Acked addr' log
  issued : ∀ addr', Issued addr' log ↔ found ∧ addr' = addr
  ok : (∀ t ∈ log, t.1.addr = addr → t.2 = 0) → rc = BH1750_OK

theorem ModeDone.skipped {found : Prop} (hnot : ¬found) (addr : UInt8) :
    ModeDone found addr [] BH1750_OK :=
  ⟨not_acked_nil, fun addr' => iff_of_false (not_issued_nil addr') (fun h => hnot h.1),
    fun _ => rfl⟩

theorem ModeLog.done {addr : UInt8} {log : Log} {rc : Int} {found : Prop}
    (h : ModeLog addr log rc) (hfound : found) : ModeDone found addr log rc := by
  have hop : BH1750_OP_POWER_ON ≠ modeToOpcode .contH := by decide
  constructor
  · intro addr'
    cases h <;> simp [Acked]
  · intro addr'
    cases h <;> simp [Issued, hop, hfound]
  · intro hall
    cases h with
    | failsOn hrc => exact absurd (hall _ (List.mem_singleton_self _) rfl) hrc
    | failsMode hrc =>
        exact absurd (hall _ (List.mem_cons_of_mem _ (List.mem_singleton_self _)) rfl) hrc
    | succeeds => rfl

theorem setModeIf_log (found : Bool) (dev : Bh1750) (hio : dev.io = true) (bus : Bus σ) :
    let r := setModeIf i2c found dev bus
    ∃ log, r.2.2.log = bus.log ++ log ∧ ModeDone (found = true) dev.addr log r.1 ∧
      (r.1 = BH1750_OK ↔ (found = true → SetModeSucceeds i2c dev.addr bus.dev)) := by
  cases found with
  | false => exact ⟨[], by simp [setModeIf], .skipped (by simp) _, by simp [setModeIf]⟩
  | true =>
      obtain ⟨log, hmode, hlog, hok⟩ := bh1750SetMode_log i2c hio bus
      exact ⟨log, hlog, hmode.done rfl, by simpa [setModeIf] using hok⟩

/-- The first structure has the address 0x23 and the second 0x5C; the second is not
reached if the first fails. -/
theorem hwConfigure_log (found1 found2 : Bool) {s : LuxTask} (hio : s.io = true) (bus : Bus σ) :
    let r := hwConfigure i2c found1 found2 s bus
    ∃ rc1 log1 log2, r.2.2.log = bus.log ++ log1 ++ log2 ∧
      ModeDone (found1 = true) BH1750_ADDR_LOW log1 rc1 ∧
      (rc1 = BH1750_OK ↔ (found1 = true → SetModeSucceeds i2c BH1750_ADDR_LOW bus.dev)) ∧
      (rc1 ≠ BH1750_OK → log2 = []) ∧
      (rc1 = BH1750_OK → ModeDone (found2 = true) BH1750_ADDR_HIGH log2 r.1) := by
  have hlow : bh1750Init s.io BH1750_ADDR_LOW s.s1 =
      (BH1750_OK, ⟨true, BH1750_ADDR_LOW, .contH, 0⟩) := by
    rw [hio]
    rfl
  have hhigh : bh1750Init s.io BH1750_ADDR_HIGH s.s2 =
      (BH1750_OK, ⟨true, BH1750_ADDR_HIGH, .contH, 0⟩) := by
    rw [hio]
    rfl
  obtain ⟨log1, hlog1, hdone1, hok1⟩ := setModeIf_log i2c found1
    ⟨true, BH1750_ADDR_LOW, .contH, 0⟩ rfl bus
  simp only [hwConfigure, hlow, hhigh, ne_eq, not_true_eq_false, if_false]
  generalize setModeIf i2c found1 ⟨true, BH1750_ADDR_LOW, .contH, 0⟩ bus = r1 at *
  obtain ⟨rc1, s1, bus1⟩ := r1
  by_cases hrc1 : rc1 = BH1750_OK
  · obtain ⟨log2, hlog2, hdone2, -⟩ := setModeIf_log i2c found2
      ⟨true, BH1750_ADDR_HIGH, .contH, 0⟩ rfl bus1
    refine ⟨rc1, log1, log2, ?_, hdone1, hok1, fun h => absurd hrc1 h, fun _ => ?_⟩
    · simp only [hrc1, not_true_eq_false, if_false]
      rw [hlog2, hlog1]
    · simpa only [hrc1, not_true_eq_false, if_false] using hdone2
  · refine ⟨rc1, log1, [], ?_, hdone1, hok1, fun _ => rfl, fun h => absurd h hrc1⟩
    simp only [hrc1, not_false_eq_true, if_true, List.append_nil]
    exact hlog1

/-- The log of the two probes. -/
def probed (rcHigh rcLow : Int) : Log :=
  [(.probe BH1750_ADDR_HIGH, rcHigh), (.probe BH1750_ADDR_LOW, rcLow)]

@[simp] theorem acked_probed_low (rcHigh rcLow : Int) :
    Acked BH1750_ADDR_LOW (probed rcHigh rcLow) ↔ rcLow = 0 := by
  simp [Acked, probed, BH1750_ADDR_HIGH, BH1750_ADDR_LOW, eq_comm]

@[simp] theorem acked_probed_high (rcHigh rcLow : Int) :
    Acked BH1750_ADDR_HIGH (probed rcHigh rcLow) ↔ rcHigh = 0 := by
  simp [Acked, probed, BH1750_ADDR_HIGH, BH1750_ADDR_LOW, eq_comm]

@[simp] theorem not_issued_probed (addr : UInt8) (rcHigh rcLow : Int) :
    ¬Issued addr (probed rcHigh rcLow) := by
  simp [Issued, probed]

/-- What `hw_init` has done behind the probes: the probe of one address decides
whether the other one is configured. -/
structure Configured (i2c : Attached σ) (d : σ) (rcHigh rcLow rc : Int) (log : Log) : Prop where
  ackedLow : Acked BH1750_ADDR_LOW log ↔ rcLow = 0
  ackedHigh : Acked BH1750_ADDR_HIGH log ↔ rcHigh = 0
  issuedLow : Issued BH1750_ADDR_LOW log ↔ rcHigh = 0
  issuedHigh : Issued BH1750_ADDR_HIGH log ↔
    rcLow = 0 ∧ (rcHigh = 0 → SetModeSucceeds i2c BH1750_ADDR_LOW d)
  ok : (rcHigh = 0 → SetModeSucceeds i2c BH1750_ADDR_LOW d) →
    (∀ t ∈ log, t.1.addr = BH1750_ADDR_HIGH → t.2 = 0) → rc = BH1750_OK

theorem hwConfigure_configured {s : LuxTask} (hio : s.io = true) (d : σ) (rcHigh rcLow : Int) :
    let r := hwConfigure i2c (rcHigh == 0) (rcLow == 0) s ⟨d, probed rcHigh rcLow⟩
    Configured i2c d rcHigh rcLow r.1 r.2.2.log := by
  have hne : BH1750_ADDR_LOW ≠ BH1750_ADDR_HIGH := by decide
  obtain ⟨rc1, log1, log2, hlog, hdone1, hok1, hstop, hgo⟩ :=
    hwConfigure_log i2c (rcHigh == 0) (rcLow == 0) hio ⟨d, probed rcHigh rcLow⟩
  intro r
  have hr : r.2.2.log = probed rcHigh rcLow ++ log1 ++ log2 := hlog
  simp only [beq_iff_eq] at hdone1 hok1 hgo
  by_cases hrc1 : rc1 = BH1750_OK
  · have hdone2 := hgo hrc1
    have hmode := hok1.mp hrc1
    constructor
    · simp [hr, acked_append, hdone1.acked, hdone2.acked]
    · simp [hr, acked_append, hdone1.acked, hdone2.acked]
    · simp [hr, issued_append, hdone1.issued, hdone2.issued, hne]
    · have hissued : Issued BH1750_ADDR_HIGH r.2.2.log ↔ rcLow = 0 := by
        simp [hr, issued_append, hdone1.issued, hdone2.issued, hne.symm]
      rw [hissued]
      exact (and_iff_left hmode).symm
    · intro _ hall
      apply hdone2.ok
      intro t ht
      exact hall t (by simp [hr, ht])
  · have hmode := mt hok1.mpr hrc1
    obtain rfl := hstop hrc1
    constructor
    · simp [hr, acked_append, hdone1.acked]
    · simp [hr, acked_append, hdone1.acked]
    · simp [hr, issued_append, hdone1.issued]
    · have hnone : ¬Issued BH1750_ADDR_HIGH r.2.2.log := by
        simp [hr, issued_append, hdone1.issued, hne.symm]
      exact iff_of_false hnone (fun h => hmode h.2)
    · exact fun h => absurd h hmode

theorem Configured.bringsUp_iff {d : σ} {rcHigh rcLow rc : Int} {log : Log}
    (h : Configured i2c d rcHigh rcLow rc log) :
    BringsUp rc log ↔
      (rcHigh = 0 ↔ rcLow = 0) ∧ (rcHigh = 0 → SetModeSucceeds i2c BH1750_ADDR_LOW d) := by
  constructor
  · rintro ⟨hlow, hhigh, -⟩
    rw [h.issuedLow, h.ackedLow] at hlow
    rw [h.issuedHigh, h.ackedHigh] at hhigh
    exact ⟨hlow, fun hfound => (hhigh.mpr hfound).2 hfound⟩
  · rintro ⟨halike, hmode⟩
    constructor
    · rw [h.issuedLow, h.ackedLow]
      exact halike
    · rw [h.issuedHigh, h.ackedHigh]
      exact ⟨fun hfound => halike.mpr hfound.1, fun hfound => ⟨halike.mp hfound, hmode⟩⟩
    · intro hsome hall
      have hacked : Acked BH1750_ADDR_HIGH log := by
        rw [h.ackedLow, h.ackedHigh] at hsome
        rw [h.ackedHigh]
        rcases hsome with hlow | hhigh
        · exact halike.mpr hlow
        · exact hhigh
      apply h.ok hmode
      intro t ht haddr
      apply hall t ht
      rw [haddr]
      exact hacked

/-- `hw_init` on a bus that is ready. -/
theorem hwInit_ready (s : LuxTask) (d : σ) :
    let high := i2c d (.probe BH1750_ADDR_HIGH)
    let low := i2c high.2 (.probe BH1750_ADDR_LOW)
    let bus : Bus σ := ⟨low.2, probed high.1.rc low.1.rc⟩
    hwInit i2c true s ⟨d, []⟩ =
      if high.1.rc ≠ 0 ∧ low.1.rc ≠ 0 then ( BH1750_ERR_IO, { s with io := true }, bus)
      else hwConfigure i2c (high.1.rc == 0) (low.1.rc == 0) { s with io := true } bus := by
  simp only [hwInit, i2cBusInit, i2cBusProbe, Bus.transfer, probed, List.nil_append,
    List.singleton_append, if_true, ne_eq, not_true_eq_false, if_false, probeCode_found,
    Bool.and_eq_true, Bool.not_eq_true', beq_eq_false_iff_ne]

/-- The bring-up is right exactly if the bus is not ready, or both sensors answer
alike and 0x23, if it is there, takes its two writes. -/
theorem hwInit_bringsUp_iff (ready : Bool) (s : LuxTask) (d : σ) :
    BringsUp (hwInit i2c ready s ⟨d, []⟩).1 (hwInit i2c ready s ⟨d, []⟩).2.2.log ↔
      ready = false ∨ Paired i2c d := by
  cases ready with
  | false =>
      refine iff_of_true ⟨?_, ?_, ?_⟩ (Or.inl rfl)
      · simp [hwInit, i2cBusInit, ENODEV]
      · simp [hwInit, i2cBusInit, ENODEV]
      · simp [hwInit, i2cBusInit, ENODEV]
  | true =>
      rw [hwInit_ready]
      simp only [reduceCtorEq, false_or, Paired]
      generalize i2c d (.probe BH1750_ADDR_HIGH) = high
      generalize i2c high.2 (.probe BH1750_ADDR_LOW) = low
      by_cases hnone : high.1.rc ≠ 0 ∧ low.1.rc ≠ 0
      · rw [if_pos hnone]
        refine iff_of_true ⟨?_, ?_, ?_⟩ ?_
        · simp [hnone.2]
        · simp [hnone.1]
        · simp [hnone.1, hnone.2]
        · simp [hnone.1, hnone.2]
      · rw [if_neg hnone]
        exact (hwConfigure_configured i2c (s := { s with io := true }) rfl low.2 high.1.rc
          low.1.rc).bringsUp_iff

end

/-- Only the sensor at 0x5C is there. -/
def onlyHigh : Attached Unit :=
  fun _ t => (⟨if t.addr = BH1750_ADDR_HIGH then 0 else -5, []⟩, ())

/-- It acknowledges its probe, and the missing one is configured in its place. -/
theorem lone_high_sensor :
    ¬∀ (i2c : Attached Unit) (s : LuxTask),
      BringsUp (hwInit i2c true s ⟨(), []⟩).1 (hwInit i2c true s ⟨(), []⟩).2.2.log := by
  intro hall
  obtain ⟨hlow, -, -⟩ := hall onlyHigh .boot
  have hacked : (Transfer.probe BH1750_ADDR_LOW, (0 : Int)) ∈
      (hwInit onlyHigh true .boot ⟨(), []⟩).2.2.log := hlow.mp ⟨-5, by decide⟩
  exact absurd hacked (by decide)

end Rw612.Sensors
