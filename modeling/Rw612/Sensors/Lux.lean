import Rw612.Sensors.Frame
import Rw612.Sensors.Light
import Rw612.Sensors.Program

/-!
The measurements of the two light sensors: `bh1750.c` and the loop of `lux_task.c`, as
programs over the bus. Their bring-up is that of `hw_init`.
-/

namespace Rw612.Sensors

open Lib

namespace Lux

/-! The functions of the bring-up. -/

def writeOp (dev : Bh1750) (op : UInt8) : BusProg Int := do
  if !dev.io then return BH1750_ERR_IO
  else
    let rc ← BusProg.write dev.addr [op]
    return if rc = 0 then BH1750_OK else BH1750_ERR_IO

def setMode (dev : Bh1750) (mode : Bh1750Mode) : BusProg (Int × Bh1750) := do
  let rc ← writeOp dev BH1750_OP_POWER_ON
  if rc ≠ BH1750_OK then return (rc, dev)
  else
    let rc ← writeOp dev (modeToOpcode mode)
    if rc ≠ BH1750_OK then return (rc, dev) else return (BH1750_OK, { dev with mode := mode })

def setModeIf (found : Bool) (dev : Bh1750) : BusProg (Int × Bh1750) :=
  if found then setMode dev .contH else return (BH1750_OK, dev)

def configure (found1 found2 : Bool) (s : LuxTask) : BusProg (Int × LuxTask) := do
  let (rc, s1) := bh1750Init s.io BH1750_ADDR_LOW s.s1
  if rc ≠ BH1750_OK then return (rc, { s with s1 := s1 })
  else
    let (rc, s2) := bh1750Init s.io BH1750_ADDR_HIGH s.s2
    if rc ≠ BH1750_OK then return (rc, { s with s1 := s1, s2 := s2 })
    else
      let (rc, s1) ← setModeIf found1 s1
      if rc ≠ BH1750_OK then return (rc, { s with s1 := s1, s2 := s2 })
      else
        let (rc, s2) ← setModeIf found2 s2
        return (rc, { s with s1 := s1, s2 := s2 })

/-- `hw_init` -/
def init (ready : Bool) (s : LuxTask) : BusProg (Int × LuxTask) := do
  if i2cBusInit ready ≠ 0 then return ( BH1750_ERR_IO, s)
  else
    let s := { s with io := true }
    let rc1 ← BusProg.probe BH1750_ADDR_HIGH
    let rc2 ← BusProg.probe BH1750_ADDR_LOW
    if !(rc1 == 0) && !(rc2 == 0) then return ( BH1750_ERR_IO, s)
    else configure (rc1 == 0) (rc2 == 0) s

/-! They are the functions of the other module. -/

section

variable {σ : Type} (i2c : Attached σ) (bus : Bus σ)

theorem run_writeOp (dev : Bh1750) (op : UInt8) :
    (writeOp dev op).run (Bus.answer i2c) bus = bh1750WriteOp i2c dev op bus := by
  unfold writeOp bh1750WriteOp
  split
  · rfl
  · rw [Prog.run_bind, run_write, nxpI2cWrite]
    generalize i2cBusWrite i2c dev.addr [op] bus = r
    obtain ⟨rc, bus'⟩ := r
    by_cases hrc : rc = 0
    · simp [hrc]
    · simp [hrc]

theorem run_setMode (dev : Bh1750) (mode : Bh1750Mode) :
    (setMode dev mode).run (Bus.answer i2c) bus =
      (((bh1750SetMode i2c dev mode bus).1, (bh1750SetMode i2c dev mode bus).2.1),
        (bh1750SetMode i2c dev mode bus).2.2) := by
  unfold setMode bh1750SetMode bh1750PowerOn
  rw [Prog.run_bind, run_writeOp]
  generalize bh1750WriteOp i2c dev BH1750_OP_POWER_ON bus = r
  obtain ⟨rc, bus'⟩ := r
  dsimp only
  split
  · rfl
  · rw [Prog.run_bind, run_writeOp]
    generalize bh1750WriteOp i2c dev (modeToOpcode mode) bus' = r
    obtain ⟨rc, bus'⟩ := r
    dsimp only
    split
    · rfl
    · rfl

theorem run_setModeIf (found : Bool) (dev : Bh1750) :
    (setModeIf found dev).run (Bus.answer i2c) bus =
      (((Sensors.setModeIf i2c found dev bus).1, (Sensors.setModeIf i2c found dev bus).2.1),
        (Sensors.setModeIf i2c found dev bus).2.2) := by
  unfold setModeIf Sensors.setModeIf
  split
  · exact run_setMode i2c bus dev .contH
  · rfl

theorem run_configure (found1 found2 : Bool) (s : LuxTask) :
    (configure found1 found2 s).run (Bus.answer i2c) bus =
      (((hwConfigure i2c found1 found2 s bus).1, (hwConfigure i2c found1 found2 s bus).2.1),
        (hwConfigure i2c found1 found2 s bus).2.2) := by
  unfold configure hwConfigure
  generalize bh1750Init s.io BH1750_ADDR_LOW s.s1 = r1
  obtain ⟨rc1, s1⟩ := r1
  generalize bh1750Init s.io BH1750_ADDR_HIGH s.s2 = r2
  obtain ⟨rc2, s2⟩ := r2
  dsimp only
  split
  · rfl
  · split
    · rfl
    · rw [Prog.run_bind, run_setModeIf]
      generalize Sensors.setModeIf i2c found1 s1 bus = r
      obtain ⟨rc, s1', bus'⟩ := r
      dsimp only
      split
      · rfl
      · rw [Prog.run_bind, run_setModeIf]
        rfl

/-- The program is the function of the model. -/
theorem run_init (ready : Bool) (s : LuxTask) :
    (init ready s).run (Bus.answer i2c) bus =
      (((hwInit i2c ready s bus).1, (hwInit i2c ready s bus).2.1),
        (hwInit i2c ready s bus).2.2) := by
  unfold init hwInit
  split
  · rfl
  · rw [Prog.run_bind, run_probe]
    generalize i2cBusProbe i2c BH1750_ADDR_HIGH bus = r
    obtain ⟨rc1, bus1⟩ := r
    dsimp only
    rw [Prog.run_bind, run_probe]
    generalize i2cBusProbe i2c BH1750_ADDR_LOW bus1 = r
    obtain ⟨rc2, bus2⟩ := r
    dsimp only
    split
    · rfl
    · exact run_configure i2c bus2 _ _ _

end

/-! The measurements. -/

def isOneShot : Bh1750Mode → Bool
  | .oneH | .oneH2 | .oneL => true
  | .contH | .contH2 | .contL => false

/-- `nxp_i2c_read` -/
def nxpI2cRead (addr : UInt8) (len : Nat) : BusProg Reply := do
  let reply ← BusProg.read addr len
  return { reply with rc := if reply.rc = 0 then 0 else -1 }

/-- `bh1750_read_raw` behind the command of a one-shot mode. -/
def readBuffer (dev : Bh1750) : BusProg (Int × Bh1750 × UInt16) := do
  let reply ← nxpI2cRead dev.addr 2
  if reply.rc ≠ 0 then return ( BH1750_ERR_IO, dev, 0)
  else
    let raw := word (reply.rx.getD 0 0) (reply.rx.getD 1 0)
    return (BH1750_OK, { dev with lastRaw := raw }, raw)

/-- `bh1750_read_raw`; the code, and the measurement if it is `BH1750_OK`. -/
def readRaw (dev : Bh1750) : BusProg (Int × Bh1750 × UInt16) := do
  if !dev.io then return ( BH1750_ERR_IO, dev, 0)
  else if isOneShot dev.mode then
    let rc ← writeOp dev (modeToOpcode dev.mode)
    if rc ≠ BH1750_OK then return (rc, dev, 0) else readBuffer dev
  else readBuffer dev

/-- The integer arithmetic of `bh1750_read_lux_x100`. -/
def luxX100 (mode : Bh1750Mode) (raw : UInt16) : UInt32 :=
  raw.toUInt32 * 1000 / (if mode = .contH2 ∨ mode = .oneH2 then 24 else 12)

/-- `bh1750_read_lux_x100`; `out` is where the result goes. -/
def readLuxX100 (dev : Bh1750) (out : UInt32) : BusProg (Int × Bh1750 × UInt32) := do
  let (rc, dev, raw) ← readRaw dev
  if rc ≠ BH1750_OK then return (rc, dev, out) else return (BH1750_OK, dev, luxX100 dev.mode raw)

/-- `lux_sample_t` without its time stamp. -/
structure Sample where
  lux1X100 : UInt32
  lux2X100 : UInt32
  err1 : Int8
  err2 : Int8
  seq : UInt16
  deriving DecidableEq

/-- The variables of `lux_task.c`, with `seq` of the loop and the samples that have been
published. -/
structure Task where
  running : Bool
  hw : LuxTask
  seq : UInt16
  last : Option Sample
  published : List Sample
  deriving DecidableEq

/-- After `lux_task_start`. -/
def Task.started : Task := ⟨true, .boot, 0, none, []⟩

def Task.publish (s : Task) (sample : Sample) : Task :=
  { s with last := some sample, published := s.published ++ [sample] }

/-- `lux_task` before its loop, which it enters whatever `hw_init` answers. -/
def boot (ready : Bool) (s : Task) : BusProg Task := do
  let (_, hw) ← init ready s.hw
  return { s with hw := hw }

/-- One turn of the loop of `lux_task`, up to its sleep. -/
def turn (s : Task) : BusProg Task := do
  if !s.running then return s
  else
    let (err1, s1, lux1) ← readLuxX100 s.hw.s1 0
    let (err2, s2, lux2) ← readLuxX100 s.hw.s2 0
    return { s with hw := { s.hw with s1 := s1, s2 := s2 }, seq := s.seq + 1 }.publish
      ⟨lux1, lux2, Int8.ofInt err1, Int8.ofInt err2, s.seq + 1⟩

/-! What holds in every state of the task. -/

/-- A transfer with one of the two sensors. -/
def Mine (t : Transfer) : Prop := t.addr = BH1750_ADDR_LOW ∨ t.addr = BH1750_ADDR_HIGH

/-- A sensor that has been initialised is one of the two, and measures continuously. -/
def SensorOk (dev : Bh1750) : Prop :=
  dev.io = true → (dev.addr = BH1750_ADDR_LOW ∨ dev.addr = BH1750_ADDR_HIGH) ∧ dev.mode = .contH

/-- A channel is a measurement in hundredths of a lux, rounded down, or dark with an
error. -/
def ChannelOk (err : Int8) (lux : UInt32) : Prop :=
  (err = 0 ∧ ∃ raw : UInt16, lux.toNat = raw.toNat * 100 * 10 / 12) ∨
    (err = Int8.ofInt BH1750_ERR_IO ∧ lux = 0)

def Sample.Ok (s : Sample) : Prop := ChannelOk s.err1 s.lux1X100 ∧ ChannelOk s.err2 s.lux2X100

structure Task.Ok (s : Task) : Prop where
  s1 : SensorOk s.hw.s1
  s2 : SensorOk s.hw.s2
  numbered : Numbered Sample.seq s.seq s.last s.published
  samples : ∀ sample ∈ s.published, sample.Ok

theorem luxX100_toNat (raw : UInt16) :
    (luxX100 .contH raw).toNat = raw.toNat * 100 * 10 / 12 := by
  have hraw := raw.toNat_lt
  rw [luxX100, if_neg (by decide), UInt32.toNat_div, UInt32.toNat_mul, UInt16.toNat_toUInt32]
  change raw.toNat * 1000 % 4294967296 / 12 = _
  rw [Nat.mod_eq_of_lt (by omega)]
  omega

theorem writeOp_keeps {dev : Bh1750} (h : SensorOk dev) (op : UInt8) :
    (writeOp dev op).Keeps Mine (fun _ => True) := by
  unfold writeOp
  split
  · trivial
  · rename_i hio
    exact ⟨(h (by simpa using hio)).1, fun _ => trivial⟩

theorem setModeIf_keeps (found : Bool) {dev : Bh1750} (h : SensorOk dev) :
    (setModeIf found dev).Keeps Mine (fun r => SensorOk r.2) := by
  unfold setModeIf
  split
  · apply (writeOp_keeps h _).bind
    intro rc _
    split
    · exact h
    · apply (writeOp_keeps h _).bind
      intro rc _
      split
      · exact h
      · exact fun hio => ⟨(h hio).1, rfl⟩
  · exact h

theorem bh1750Init_ok {io : Bool} {addr : UInt8} {dev : Bh1750} (h : SensorOk dev)
    (haddr : addr = BH1750_ADDR_LOW ∨ addr = BH1750_ADDR_HIGH) :
    SensorOk (bh1750Init io addr dev).2 := by
  unfold bh1750Init
  split
  · exact h
  · split
    · exact h
    · exact fun _ => ⟨haddr, rfl⟩

theorem configure_keeps (found1 found2 : Bool) {s : LuxTask} (h1 : SensorOk s.s1)
    (h2 : SensorOk s.s2) :
    (configure found1 found2 s).Keeps Mine (fun r => SensorOk r.2.s1 ∧ SensorOk r.2.s2) := by
  have h1' : SensorOk (bh1750Init s.io BH1750_ADDR_LOW s.s1).2 := bh1750Init_ok h1 (.inl rfl)
  have h2' : SensorOk (bh1750Init s.io BH1750_ADDR_HIGH s.s2).2 := bh1750Init_ok h2 (.inr rfl)
  unfold configure
  generalize bh1750Init s.io BH1750_ADDR_LOW s.s1 = r1 at h1'
  obtain ⟨rc1, s1⟩ := r1
  generalize bh1750Init s.io BH1750_ADDR_HIGH s.s2 = r2 at h2'
  obtain ⟨rc2, s2⟩ := r2
  dsimp only at h1' h2' ⊢
  split
  · exact ⟨h1', h2⟩
  · split
    · exact ⟨h1', h2'⟩
    · apply (setModeIf_keeps found1 h1').bind
      rintro ⟨rc, s1'⟩ h
      dsimp only at h ⊢
      split
      · exact ⟨h, h2'⟩
      · apply (setModeIf_keeps found2 h2').bind
        rintro ⟨rc, s2'⟩ h'
        exact ⟨h, h'⟩

theorem init_keeps (ready : Bool) {s : LuxTask} (h1 : SensorOk s.s1) (h2 : SensorOk s.s2) :
    (init ready s).Keeps Mine (fun r => SensorOk r.2.s1 ∧ SensorOk r.2.s2) := by
  unfold init
  split
  · exact ⟨h1, h2⟩
  · apply (probe_keeps (.inr rfl)).bind
    intro rc1 _
    apply (probe_keeps (.inl rfl)).bind
    intro rc2 _
    split
    · exact ⟨h1, h2⟩
    · exact configure_keeps _ _ h1 h2

theorem readBuffer_keeps {dev : Bh1750} (h : SensorOk dev) (hio : dev.io = true) :
    (readBuffer dev).Keeps Mine (fun r =>
      SensorOk r.2.1 ∧ r.2.1.mode = .contH ∧ (r.1 = BH1750_OK ∨ r.1 = BH1750_ERR_IO)) := by
  obtain ⟨haddr, hmode⟩ := h hio
  apply Prog.Keeps.bind (Q := fun _ => True)
  · apply (read_keeps haddr).bind
    intro reply _
    trivial
  · intro reply _
    split
    · exact ⟨h, hmode, .inr rfl⟩
    · exact ⟨h, hmode, .inl rfl⟩

/-- A read of a sensor in continuous mode. -/
theorem readLuxX100_keeps {dev : Bh1750} (h : SensorOk dev) :
    (readLuxX100 dev 0).Keeps Mine (fun r =>
      SensorOk r.2.1 ∧ ChannelOk (Int8.ofInt r.1) r.2.2) := by
  have hdark : ChannelOk (Int8.ofInt BH1750_ERR_IO) 0 := .inr ⟨rfl, rfl⟩
  unfold readLuxX100 readRaw
  by_cases hio : dev.io = true
  · have hgo : ¬(!dev.io) = true := by simpa using hio
    have hcontinuous : ¬isOneShot dev.mode = true := by simp [(h hio).2, isOneShot]
    rw [if_neg hgo, if_neg hcontinuous]
    apply (readBuffer_keeps h hio).bind
    rintro ⟨rc, dev', raw⟩ ⟨hdev, hmode, hrc⟩
    dsimp only at hdev hmode hrc ⊢
    rcases hrc with rfl | rfl
    · rw [if_neg (by decide), hmode]
      exact ⟨hdev, .inl ⟨rfl, raw, luxX100_toNat raw⟩⟩
    · exact ⟨hdev, hdark⟩
  · have hno : (!dev.io) = true := by simpa using hio
    rw [if_pos hno]
    exact ⟨h, hdark⟩

theorem turn_keeps {s : Task} (h : s.Ok) : (turn s).Keeps Mine Task.Ok := by
  unfold turn
  split
  · exact h
  · apply (readLuxX100_keeps h.s1).bind
    rintro ⟨err1, s1, lux1⟩ ⟨hs1, hlux1⟩
    apply (readLuxX100_keeps h.s2).bind
    rintro ⟨err2, s2, lux2⟩ ⟨hs2, hlux2⟩
    exact ⟨hs1, hs2, h.numbered.publish rfl,
      List.forall_mem_append.mpr ⟨h.samples, by simpa using ⟨hlux1, hlux2⟩⟩⟩

theorem boot_keeps (ready : Bool) : (boot ready .started).Keeps Mine Task.Ok := by
  have hzero : SensorOk .zero := fun h => by cases h
  apply (init_keeps ready hzero hzero).bind
  rintro ⟨_, hw⟩ ⟨h1, h2⟩
  exact ⟨h1, h2, .start, by simp [Task.started]⟩

end Lux

end Rw612.Sensors
