import Mathlib.Logic.Function.Basic
import Mathlib.Tactic.IntervalCases
import Rw612.Sensors.I2cBus

/-!
Frame acquisition of `mlx90640.c`: the transport of 16-bit words and
`mlx90640_get_frame`. The second part is the sensor of the driver's
header on the bus: between two transfers it sets the bits that it owns as it
likes, and a measurement may end.
-/

namespace Rw612.Sensors

def MLX_READ_CHUNK_WORDS : Nat := 256

abbrev MLX90640_FRAME_WORDS : Nat := 834

instance : NeZero MLX90640_FRAME_WORDS := ⟨by decide⟩

def MLX90640_REG_STATUS : UInt16 := 0x8000
def MLX90640_REG_CONTROL1 : UInt16 := 0x800D
def MLX90640_RAM_BASE : UInt16 := 0x0400

def MLX90640_OK : Int := 0
def MLX90640_ERR_IO : Int := -2
def MLX90640_ERR_VERIFY : Int := -3
def MLX90640_ERR_TIMEOUT : Int := -4

/-- The sleeps of a wait for data. -/
def MLX_SPINS : Nat := 2000

def hiByte (w : UInt16) : UInt8 := (w >>> 8).toUInt8

def loByte (w : UInt16) : UInt8 := (w &&& 0xFF).toUInt8

/-- `(hi << 8) | lo` -/
def word (hi lo : UInt8) : UInt16 := (hi.toUInt16 <<< 8) ||| lo.toUInt16

@[simp] theorem word_hiByte_loByte (w : UInt16) : word (hiByte w) (loByte w) = w := by
  apply UInt16.toBitVec_inj.mp
  apply BitVec.eq_of_getLsbD_eq
  intro i hi
  interval_cases i <;> simp [word, hiByte, loByte, -UInt16.toUInt16_toUInt8]

/-- The `n` words of a receive buffer. -/
def wordsOf (n : Nat) (rx : List UInt8) : List UInt16 :=
  (List.range n).map fun i => word (rx.getD (i * 2) 0) (rx.getD (i * 2 + 1) 0)

/-- `mlx90640_t`, as far as the frames go. -/
structure Mlx90640 where
  addr : UInt8
  frame : Fin MLX90640_FRAME_WORDS → UInt16

/-- `words` written to an array from its front. -/
def storeFront {n : Nat} (words : List UInt16) (array : Fin n → UInt16) : Fin n → UInt16 :=
  fun i => words.getD i (array i)

section

variable {σ : Type*} (i2c : Attached σ)

/-- The loop of `mlx_read`; `out` holds the words of the chunks so far. -/
def mlxReadFrom (addr : UInt8) (start : UInt16) (n : Nat) (out : List UInt16) (bus : Bus σ) :
    Int × List UInt16 × Bus σ :=
  if _h : out.length < n then
    let chunk := min (n - out.length) MLX_READ_CHUNK_WORDS
    let a := start + UInt16.ofNat out.length
    match i2cBusWriteRead i2c addr [hiByte a, loByte a] (chunk * 2) bus with
    | (reply, bus) =>
        if reply.rc ≠ 0 then ( MLX90640_ERR_IO, out, bus)
        else mlxReadFrom addr start n (out ++ wordsOf chunk reply.rx) bus
  else (MLX90640_OK, out, bus)
termination_by n - out.length
decreasing_by
  simp only [wordsOf, List.length_append, List.length_map, List.length_range,
    MLX_READ_CHUNK_WORDS]
  omega

/-- `mlx_read`: the code and the words stored. -/
def mlxRead (addr : UInt8) (start : UInt16) (n : Nat) (bus : Bus σ) : Int × List UInt16 × Bus σ :=
  mlxReadFrom i2c addr start n [] bus

def mlxWrite (addr : UInt8) (a value : UInt16) (bus : Bus σ) : Int × Bus σ :=
  match i2cBusWrite i2c addr [hiByte a, loByte a, hiByte value, loByte value] bus with
  | (rc, bus) =>
      if rc ≠ 0 then ( MLX90640_ERR_IO, bus)
      else
        match mlxRead i2c addr a 1 bus with
        | (rc, words, bus) =>
            if rc ≠ MLX90640_OK then ( MLX90640_ERR_IO, bus)
            else if words.headD 0 ≠ value then (MLX90640_ERR_VERIFY, bus)
            else (MLX90640_OK, bus)

/-- Status bit 3, new data in RAM. -/
def dataReady (status : UInt16) : Prop := status &&& 0x0008 ≠ 0

instance (status : UInt16) : Decidable (dataReady status) := inferInstanceAs (Decidable (_ ≠ _))

/-- The first loop of `mlx90640_get_frame`, with `left` more sleeps allowed. -/
def waitReady (addr : UInt8) (left : Nat) (bus : Bus σ) : Int × UInt16 × Bus σ :=
  match mlxRead i2c addr MLX90640_REG_STATUS 1 bus with
  | (rc, words, bus) =>
      let status := words.headD 0
      if rc ≠ MLX90640_OK then (rc, status, bus)
      else if dataReady status then (MLX90640_OK, status, bus)
      else
        match left with
        | 0 => (MLX90640_ERR_TIMEOUT, status, bus)
        | left + 1 => waitReady addr left bus

/-- The last words of the frame, from control register 1 and the status. -/
def Mlx90640.finish (dev : Mlx90640) (ctrl1 status : UInt16) : Mlx90640 :=
  let frame := Function.update dev.frame 832 ctrl1
  { dev with frame := Function.update frame 833 (status &&& 0x0001) }

/-- The last read of `mlx90640_get_frame`. -/
def readControl (status : UInt16) (dev : Mlx90640) (bus : Bus σ) : Int × Mlx90640 × Bus σ :=
  match mlxRead i2c dev.addr MLX90640_REG_CONTROL1 1 bus with
  | (rc, ctrl1, bus) =>
      if rc ≠ MLX90640_OK then (rc, dev, bus)
      else
        let dev := dev.finish (ctrl1.headD 0) status
        ((dev.frame 833).toNat, dev, bus)

/-- `mlx90640_get_frame` behind the write. -/
def readRam (status : UInt16) (dev : Mlx90640) (bus : Bus σ) : Int × Mlx90640 × Bus σ :=
  match mlxRead i2c dev.addr MLX90640_RAM_BASE 832 bus with
  | (rc, words, bus) =>
      let dev := { dev with frame := storeFront words dev.frame }
      if rc ≠ MLX90640_OK then (rc, dev, bus) else readControl i2c status dev bus

/-- `mlx90640_get_frame` behind the loop. -/
def readFrame (status : UInt16) (dev : Mlx90640) (bus : Bus σ) : Int × Mlx90640 × Bus σ :=
  match mlxWrite i2c dev.addr MLX90640_REG_STATUS 0x0030 bus with
  | (rc, bus) => if rc ≠ MLX90640_OK then (rc, dev, bus) else readRam i2c status dev bus

def mlx90640GetFrame (dev : Mlx90640) (bus : Bus σ) : Int × Mlx90640 × Bus σ :=
  match waitReady i2c dev.addr MLX_SPINS bus with
  | (rc, status, bus) =>
      if rc ≠ MLX90640_OK then (rc, dev, bus) else readFrame i2c status dev bus

end

def mlx90640GetSubpage (dev : Mlx90640) : Int := (dev.frame 833).toNat

/-- Status bit 0, the sub-page number. -/
def subPageOf (status : UInt16) : Int := (status &&& 0x0001).toNat

theorem subPageOf_range (status : UInt16) : subPageOf status = 0 ∨ subPageOf status = 1 := by
  have hle : (status &&& 0x0001).toNat ≤ 1 := by
    rw [UInt16.toNat_and]
    exact Nat.and_le_right
  unfold subPageOf
  omega

theorem getSubpage_finish (dev : Mlx90640) (ctrl1 status : UInt16) :
    mlx90640GetSubpage (dev.finish ctrl1 status) = subPageOf status := by
  unfold mlx90640GetSubpage Mlx90640.finish subPageOf
  dsimp only
  rw [Function.update_self]

/-! What the functions return on any bus. -/

section

variable {σ : Type*} (i2c : Attached σ)

/-- A code of the driver that is not OK. -/
def IsError (rc : Int) : Prop := -4 ≤ rc ∧ rc < 0

theorem isError_io : IsError MLX90640_ERR_IO := ⟨by decide, by decide⟩

theorem isError_verify : IsError MLX90640_ERR_VERIFY := ⟨by decide, by decide⟩

theorem isError_timeout : IsError MLX90640_ERR_TIMEOUT := ⟨by decide, by decide⟩

theorem mlxReadFrom_returns (addr : UInt8) (start : UInt16) (n : Nat) (out : List UInt16)
    (bus : Bus σ) :
    let rc := (mlxReadFrom i2c addr start n out bus).1
    rc = MLX90640_OK ∨ IsError rc := by
  fun_induction mlxReadFrom i2c addr start n out bus with
  | case1 => exact Or.inr isError_io
  | case2 out bus hlt chunk a reply bus' hrx hok ih => exact ih
  | case3 => exact Or.inl rfl

variable {i2c}

theorem mlxRead_error {addr : UInt8} {start : UInt16} {n : Nat} {bus bus' : Bus σ} {rc : Int}
    {words : List UInt16} (hread : mlxRead i2c addr start n bus = (rc, words, bus'))
    (hrc : rc ≠ MLX90640_OK) : IsError rc := by
  have hreturns := mlxReadFrom_returns i2c addr start n [] bus
  rw [← mlxRead, hread] at hreturns
  exact hreturns.resolve_left hrc

theorem mlxWrite_error {addr : UInt8} {a value : UInt16} {bus bus' : Bus σ} {rc : Int}
    (hwrite : mlxWrite i2c addr a value bus = (rc, bus')) (hrc : rc ≠ MLX90640_OK) :
    IsError rc := by
  unfold mlxWrite at hwrite
  dsimp only at hwrite
  split at hwrite
  · exact (Prod.mk.inj hwrite).1 ▸ isError_io
  · split at hwrite
    · exact (Prod.mk.inj hwrite).1 ▸ isError_io
    · split at hwrite
      · exact (Prod.mk.inj hwrite).1 ▸ isError_verify
      · exact absurd (Prod.mk.inj hwrite).1.symm hrc

variable (i2c) in
theorem waitReady_returns (addr : UInt8) (left : Nat) (bus : Bus σ) :
    let rc := (waitReady i2c addr left bus).1
    rc = MLX90640_OK ∨ IsError rc := by
  fun_induction waitReady i2c addr left bus with
  | case1 left bus rc words bus' hread status hrc => exact Or.inr (mlxRead_error hread hrc)
  | case2 => exact Or.inl rfl
  | case3 => exact Or.inr isError_timeout
  | case4 bus rc words bus' hread status hok hidle left ih => exact ih

/-- The result is the number of the sub-page, which the frame has too. -/
def Acquired (status : UInt16) (r : Int × Mlx90640 × Bus σ) : Prop :=
  r.1 = subPageOf status ∧ mlx90640GetSubpage r.2.1 = subPageOf status

theorem readControl_ok {status : UInt16} {dev : Mlx90640} {bus bus' : Bus σ}
    {ctrl1 : List UInt16}
    (hread : mlxRead i2c dev.addr MLX90640_REG_CONTROL1 1 bus = (MLX90640_OK, ctrl1, bus')) :
    Acquired status (readControl i2c status dev bus) := by
  have hsub := getSubpage_finish dev (ctrl1.headD 0) status
  unfold readControl
  rw [hread]
  exact ⟨hsub, hsub⟩

theorem readControl_returns (status : UInt16) (dev : Mlx90640) (bus : Bus σ) :
    IsError (readControl i2c status dev bus).1 ∨
      Acquired status (readControl i2c status dev bus) := by
  rcases hread : mlxRead i2c dev.addr MLX90640_REG_CONTROL1 1 bus with ⟨rc, ctrl1, bus'⟩
  by_cases hrc : rc ≠ MLX90640_OK
  · apply Or.inl
    unfold readControl
    rw [hread]
    dsimp only
    rw [if_pos hrc]
    exact mlxRead_error hread hrc
  · obtain rfl := not_not.mp hrc
    exact Or.inr (readControl_ok hread)

theorem readRam_ok {status : UInt16} {dev : Mlx90640} {bus bus' : Bus σ} {words : List UInt16}
    (hread : mlxRead i2c dev.addr MLX90640_RAM_BASE 832 bus = (MLX90640_OK, words, bus')) :
    readRam i2c status dev bus =
      readControl i2c status { dev with frame := storeFront words dev.frame } bus' := by
  unfold readRam
  rw [hread]
  exact if_neg (not_not.mpr rfl)

theorem readRam_returns (status : UInt16) (dev : Mlx90640) (bus : Bus σ) :
    IsError (readRam i2c status dev bus).1 ∨ Acquired status (readRam i2c status dev bus) := by
  rcases hread : mlxRead i2c dev.addr MLX90640_RAM_BASE 832 bus with ⟨rc, words, bus'⟩
  by_cases hrc : rc ≠ MLX90640_OK
  · apply Or.inl
    unfold readRam
    rw [hread]
    dsimp only
    rw [if_pos hrc]
    exact mlxRead_error hread hrc
  · obtain rfl := not_not.mp hrc
    rw [readRam_ok hread]
    exact readControl_returns status _ bus'

theorem readFrame_ok {status : UInt16} {dev : Mlx90640} {bus bus' : Bus σ}
    (hwrite : mlxWrite i2c dev.addr MLX90640_REG_STATUS 0x0030 bus = (MLX90640_OK, bus')) :
    readFrame i2c status dev bus = readRam i2c status dev bus' := by
  unfold readFrame
  rw [hwrite]
  exact if_neg (not_not.mpr rfl)

theorem readFrame_fails {status : UInt16} {dev : Mlx90640} {bus bus' : Bus σ} {rc : Int}
    (hwrite : mlxWrite i2c dev.addr MLX90640_REG_STATUS 0x0030 bus = (rc, bus'))
    (hrc : rc ≠ MLX90640_OK) : readFrame i2c status dev bus = (rc, dev, bus') := by
  unfold readFrame
  rw [hwrite]
  exact if_pos hrc

theorem readFrame_returns (status : UInt16) (dev : Mlx90640) (bus : Bus σ) :
    IsError (readFrame i2c status dev bus).1 ∨
      Acquired status (readFrame i2c status dev bus) := by
  rcases hwrite : mlxWrite i2c dev.addr MLX90640_REG_STATUS 0x0030 bus with ⟨rc, bus'⟩
  by_cases hrc : rc ≠ MLX90640_OK
  · rw [readFrame_fails hwrite hrc]
    exact Or.inl (mlxWrite_error hwrite hrc)
  · obtain rfl := not_not.mp hrc
    rw [readFrame_ok hwrite]
    exact readRam_returns status dev bus'

/-- On any bus the result is an error, or the sub-page number that is in the frame. -/
theorem mlx90640GetFrame_returns (dev : Mlx90640) (bus : Bus σ) :
    let r := mlx90640GetFrame i2c dev bus
    IsError r.1 ∨ r.1 = mlx90640GetSubpage r.2.1 ∧ (r.1 = 0 ∨ r.1 = 1) := by
  rcases hwait : waitReady i2c dev.addr MLX_SPINS bus with ⟨rc, status, bus'⟩
  have hreturns := waitReady_returns i2c dev.addr MLX_SPINS bus
  rw [hwait] at hreturns
  intro r
  by_cases hrc : rc ≠ MLX90640_OK
  · have hr : r = (rc, dev, bus') := by
      simp only [r, mlx90640GetFrame, hwait]
      exact if_pos hrc
    rw [hr]
    exact Or.inl (hreturns.resolve_left hrc)
  · have hr : r = readFrame i2c status dev bus' := by
      simp only [r, mlx90640GetFrame, hwait]
      exact if_neg hrc
    rw [hr]
    apply (readFrame_returns status dev bus').imp_right
    rintro ⟨hrc, hsub⟩
    rw [hrc, hsub]
    exact ⟨rfl, subPageOf_range status⟩

end

/-- What the sensor does by itself: the bits of the status register it owns at each
transfer, whether a measurement has ended since the one before, and its memory. -/
structure Env where
  own : Nat → UInt16
  fresh : Nat → Bool
  memory : Nat → UInt16 → UInt16

/-- The sensor at one transfer: bit 3 and bits 4 and 5 of the status register, and
control register 1. -/
structure Sensor where
  time : Nat
  ready : Bool
  overwrite : UInt16
  ctrl1 : UInt16

section

variable (env : Env)

/-- The measurement that ended since the transfer before. -/
def Sensor.latch (d : Sensor) : Sensor := { d with ready := d.ready || env.fresh d.time }

/-- The sensor owns all bits of the status register but 3, 4 and 5. -/
def Sensor.status (d : Sensor) : UInt16 :=
  (env.own d.time &&& 0xFFC7) ||| (if d.ready then 0x0008 else 0) ||| (d.overwrite &&& 0x0030)

def Sensor.register (d : Sensor) (a : UInt16) : UInt16 :=
  if a = MLX90640_REG_STATUS then d.status env
  else if a = MLX90640_REG_CONTROL1 then d.ctrl1
  else env.memory d.time a

def Sensor.store (d : Sensor) (a value : UInt16) : Sensor :=
  if a = MLX90640_REG_STATUS then { d with ready := false, overwrite := value &&& 0x0030 }
  else if a = MLX90640_REG_CONTROL1 then { d with ctrl1 := value }
  else d

def Sensor.next (d : Sensor) : Sensor := { d with time := d.time + 1 }

/-- `n` registers from `a` on, big-endian. -/
def Sensor.bytes (d : Sensor) (a : UInt16) (n : Nat) : List UInt8 :=
  (List.range n).flatMap fun i =>
    [hiByte (d.register env (a + UInt16.ofNat i)), loByte (d.register env (a + UInt16.ofNat i))]

/-- The sensor at the address `addr`; every transfer to it succeeds. -/
def sensorAttached (addr : UInt8) : Attached Sensor := fun d t =>
  if t.addr ≠ addr then (⟨-5, []⟩, d)
  else
    let d := d.latch env
    match t with
    | .writeRead _ [hi, lo] len => (⟨0, d.bytes env (word hi lo) (len / 2)⟩, d.next)
    | .write _ [hi, lo, vhi, vlo] => (⟨0, []⟩, (d.store (word hi lo) (word vhi vlo)).next)
    | _ => (⟨0, []⟩, d.next)

@[simp] theorem latch_time (d : Sensor) : (d.latch env).time = d.time := rfl
@[simp] theorem next_time (d : Sensor) : d.next.time = d.time + 1 := rfl

/-- The sensor after `n` transfers that only read. -/
def Sensor.after (d : Sensor) : Nat → Sensor
  | 0 => d
  | n + 1 => Sensor.after (d.latch env).next n

/-- The status word that the poll behind `n` others returns. -/
def Sensor.polled (d : Sensor) (n : Nat) : UInt16 := ((d.after env n).latch env).status env

/-- That poll is the first that finds new data. -/
def ReadyAt (d : Sensor) (n : Nat) : Prop :=
  dataReady (d.polled env n) ∧ ∀ m < n, ¬dataReady (d.polled env m)

theorem after_time (d : Sensor) (n : Nat) : (d.after env n).time = d.time + n := by
  induction n generalizing d with
  | zero => rfl
  | succ n ih =>
      rw [Sensor.after, ih, next_time, latch_time]
      omega

section Driver

variable (addr : UInt8)

theorem sensor_writeRead (a : UInt16) {len : Nat} (hlen : len ≠ 0) (bus : Bus Sensor) :
    i2cBusWriteRead (sensorAttached env addr) addr [hiByte a, loByte a] len bus =
      (⟨0, (bus.dev.latch env).bytes env a (len / 2)⟩,
        ⟨(bus.dev.latch env).next,
          bus.log ++ [(.writeRead addr [hiByte a, loByte a] len, 0)]⟩) := by
  simp [i2cBusWriteRead, hlen, Bus.transfer, sensorAttached, Transfer.addr]

theorem sensor_write (a value : UInt16) (bus : Bus Sensor) :
    i2cBusWrite (sensorAttached env addr) addr [hiByte a, loByte a, hiByte value, loByte value]
        bus =
      (0, ⟨((bus.dev.latch env).store a value).next,
        bus.log ++ [(.write addr [hiByte a, loByte a, hiByte value, loByte value], 0)]⟩) := by
  simp [i2cBusWrite, Bus.transfer, sensorAttached, Transfer.addr]

/-- Every read of the driver succeeds. -/
theorem mlxReadFrom_sensor (start : UInt16) (n : Nat) (out : List UInt16) (bus : Bus Sensor)
    (hout : out.length ≤ n) :
    ∃ words bus', mlxReadFrom (sensorAttached env addr) addr start n out bus =
      (MLX90640_OK, words, bus') ∧ words.length = n := by
  fun_induction mlxReadFrom (sensorAttached env addr) addr start n out bus with
  | case1 out bus hlt chunk a reply bus' hrx hfail =>
      have hpos : chunk * 2 ≠ 0 := by
        simp only [chunk, MLX_READ_CHUNK_WORDS]
        omega
      rw [sensor_writeRead env addr a hpos] at hrx
      rw [← (Prod.mk.inj hrx).1] at hfail
      exact absurd rfl hfail
  | case2 out bus hlt chunk a reply bus' hrx hok ih =>
      apply ih
      simp only [wordsOf, List.length_append, List.length_map, List.length_range, chunk]
      omega
  | case3 out bus hge => exact ⟨out, bus, rfl, by omega⟩

/-- One register. -/
theorem mlxRead_one (a : UInt16) (bus : Bus Sensor) :
    ∃ log, mlxRead (sensorAttached env addr) addr a 1 bus =
      (MLX90640_OK, [(bus.dev.latch env).register env a],
        ⟨(bus.dev.latch env).next, log⟩) := by
  have hchunk : min (1 - 0) MLX_READ_CHUNK_WORDS = 1 := by decide
  rw [mlxRead, mlxReadFrom]
  simp only [List.length_nil, Nat.zero_lt_one, dite_true, hchunk]
  rw [sensor_writeRead env addr _ (by decide)]
  rw [mlxReadFrom]
  simp [wordsOf, Sensor.bytes]

theorem mlxRead_sensor (start : UInt16) (n : Nat) (bus : Bus Sensor) :
    ∃ words bus', mlxRead (sensorAttached env addr) addr start n bus =
      (MLX90640_OK, words, bus') ∧ words.length = n :=
  mlxReadFrom_sensor env addr start n [] bus (Nat.zero_le n)

/-- A write is verified against what the register returns one transfer later. -/
theorem mlxWrite_sensor (a value : UInt16) (bus : Bus Sensor) :
    let d := (((bus.dev.latch env).store a value).next).latch env
    ∃ log, mlxWrite (sensorAttached env addr) addr a value bus =
      (if d.register env a = value then MLX90640_OK else MLX90640_ERR_VERIFY, ⟨d.next, log⟩) := by
  intro d
  obtain ⟨log, hread⟩ := mlxRead_one env addr a
    ⟨((bus.dev.latch env).store a value).next,
      bus.log ++ [(.write addr [hiByte a, loByte a, hiByte value, loByte value], 0)]⟩
  refine ⟨log, ?_⟩
  rw [mlxWrite, sensor_write]
  simp only [ne_eq, not_true_eq_false, if_false, hread, List.headD_cons]
  by_cases hd : d.register env a = value
  · rw [if_neg (not_not.mpr hd), if_pos hd]
  · rw [if_pos hd, if_neg hd]

/-- One turn of the wait. -/
theorem waitReady_turn (left : Nat) (bus : Bus Sensor) :
    ∃ log, waitReady (sensorAttached env addr) addr left bus =
      if dataReady (bus.dev.polled env 0) then
        (MLX90640_OK, bus.dev.polled env 0, ⟨bus.dev.after env 1, log⟩)
      else
        match left with
        | 0 => (MLX90640_ERR_TIMEOUT, bus.dev.polled env 0, ⟨bus.dev.after env 1, log⟩)
        | left + 1 => waitReady (sensorAttached env addr) addr left ⟨bus.dev.after env 1, log⟩ := by
  obtain ⟨log, hread⟩ := mlxRead_one env addr MLX90640_REG_STATUS bus
  refine ⟨log, ?_⟩
  rw [waitReady, hread]
  simp only [ne_eq, not_true_eq_false, if_false, List.headD_cons]
  cases left with
  | zero => rfl
  | succ left => rfl

theorem waitReady_ready {k left : Nat} (hk : k ≤ left) (bus : Bus Sensor)
    (hready : ReadyAt env bus.dev k) :
    ∃ log, waitReady (sensorAttached env addr) addr left bus =
      (MLX90640_OK, bus.dev.polled env k, ⟨bus.dev.after env (k + 1), log⟩) := by
  induction k generalizing left bus with
  | zero =>
      obtain ⟨log, hturn⟩ := waitReady_turn env addr left bus
      exact ⟨log, by rw [hturn, if_pos hready.1]⟩
  | succ k ih =>
      obtain ⟨hnow, hbefore⟩ := hready
      obtain ⟨left, rfl⟩ : ∃ m, left = m + 1 := ⟨left - 1, by omega⟩
      obtain ⟨log, hturn⟩ := waitReady_turn env addr (left + 1) bus
      rw [hturn, if_neg (hbefore 0 (Nat.succ_pos k))]
      exact ih (by omega) ⟨bus.dev.after env 1, log⟩
        ⟨hnow, fun m hm => hbefore (m + 1) (by omega)⟩

theorem waitReady_timeout (left : Nat) (bus : Bus Sensor)
    (hnever : ∀ m ≤ left, ¬dataReady (bus.dev.polled env m)) :
    (waitReady (sensorAttached env addr) addr left bus).1 = MLX90640_ERR_TIMEOUT := by
  induction left generalizing bus with
  | zero =>
      obtain ⟨log, hturn⟩ := waitReady_turn env addr 0 bus
      rw [hturn, if_neg (hnever 0 (Nat.le_refl 0))]
  | succ left ih =>
      obtain ⟨log, hturn⟩ := waitReady_turn env addr (left + 1) bus
      rw [hturn, if_neg (hnever 0 (Nat.zero_le _))]
      exact ih ⟨bus.dev.after env 1, log⟩ fun m hm => hnever (m + 1) (by omega)

theorem or_and_distrib (x y z : UInt16) : (x ||| y) &&& z = (x &&& z) ||| (y &&& z) :=
  UInt16.toBitVec_inj.mp BitVec.and_or_distrib_right

/-- The status register returns the 0x0030 just written exactly if no other bit is set. -/
theorem status_overwrite_iff (d : Sensor) (hover : d.overwrite = 0x0030) :
    d.status env = 0x0030 ↔ env.own d.time &&& 0xFFC7 = 0 ∧ d.ready = false := by
  unfold Sensor.status
  rw [hover]
  constructor
  · intro h
    have hmask : ((env.own d.time &&& 0xFFC7) &&& 0xFFCF |||
        (if d.ready then 0x0008 else 0) &&& 0xFFCF) = 0 := by
      have hover' : ((0x0030 : UInt16) &&& 0x0030) &&& 0xFFCF = 0 := by decide
      have hvalue : (0x0030 : UInt16) &&& 0xFFCF = 0 := by decide
      have hother := congrArg (· &&& 0xFFCF) h
      simpa only [or_and_distrib, hover', hvalue, UInt16.or_zero] using hother
    obtain ⟨hown, hbit⟩ := UInt16.or_eq_zero_iff.mp hmask
    rw [UInt16.and_assoc] at hown
    refine ⟨hown, ?_⟩
    cases hready : d.ready with
    | false => rfl
    | true =>
        rw [hready] at hbit
        exact absurd hbit (by decide)
  · rintro ⟨hown, hready⟩
    rw [hown, hready]
    rfl

end Driver

/-- At the transfer `t` the sensor has only set bits that the driver has written:
sub-page 0, and no measurement since. -/
def OnlyWrittenBits (t : Nat) : Prop := env.own t &&& 0xFFC7 = 0 ∧ env.fresh t = false

instance (t : Nat) : Decidable (OnlyWrittenBits env t) := inferInstanceAs (Decidable (_ ∧ _))

/-- The write of `mlx90640_get_frame`, which is verified one transfer later. -/
theorem mlxWrite_status (addr : UInt8) (bus : Bus Sensor) :
    ∃ bus', mlxWrite (sensorAttached env addr) addr MLX90640_REG_STATUS 0x0030 bus =
      (if OnlyWrittenBits env (bus.dev.time + 1) then MLX90640_OK else MLX90640_ERR_VERIFY,
        bus') := by
  obtain ⟨log, hwrite⟩ := mlxWrite_sensor env addr MLX90640_REG_STATUS 0x0030 bus
  refine ⟨_, hwrite.trans (Prod.ext ?_ rfl)⟩
  apply ite_congr _ (fun _ => rfl) (fun _ => rfl)
  apply propext
  exact status_overwrite_iff env _ rfl

theorem readFrame_acquired (status : UInt16) (dev : Mlx90640) (bus : Bus Sensor)
    (hback : OnlyWrittenBits env (bus.dev.time + 1)) :
    Acquired status (readFrame (sensorAttached env dev.addr) status dev bus) := by
  obtain ⟨bus₁, hwrite⟩ := mlxWrite_status env dev.addr bus
  obtain ⟨words, bus₂, hram, -⟩ := mlxRead_sensor env dev.addr MLX90640_RAM_BASE 832 bus₁
  obtain ⟨log, hctrl⟩ := mlxRead_one env dev.addr MLX90640_REG_CONTROL1 bus₂
  rw [if_pos hback] at hwrite
  rw [readFrame_ok hwrite, readRam_ok hram]
  exact readControl_ok hctrl

/-- The frame stays as it was. -/
theorem readFrame_rejected (status : UInt16) (dev : Mlx90640) (bus : Bus Sensor)
    (hback : ¬OnlyWrittenBits env (bus.dev.time + 1)) :
    ∃ bus', readFrame (sensorAttached env dev.addr) status dev bus =
      (MLX90640_ERR_VERIFY, dev, bus') := by
  obtain ⟨bus', hwrite⟩ := mlxWrite_status env dev.addr bus
  rw [if_neg hback] at hwrite
  exact ⟨bus', readFrame_fails hwrite (by decide)⟩

theorem mlx90640GetFrame_ready (dev : Mlx90640) (bus : Bus Sensor) {k : Nat} (hk : k ≤ MLX_SPINS)
    (hready : ReadyAt env bus.dev k) :
    ∃ log, mlx90640GetFrame (sensorAttached env dev.addr) dev bus =
      readFrame (sensorAttached env dev.addr) (bus.dev.polled env k) dev
        ⟨bus.dev.after env (k + 1), log⟩ := by
  obtain ⟨log, hwait⟩ := waitReady_ready env dev.addr hk bus hready
  refine ⟨log, ?_⟩
  rw [mlx90640GetFrame, hwait]
  exact if_neg (not_not.mpr rfl)

/-- The result is the sub-page of the poll that found new data exactly if the
register reads back as written. -/
theorem mlx90640GetFrame_subPage_iff (dev : Mlx90640) (bus : Bus Sensor) {k : Nat}
    (hk : k ≤ MLX_SPINS) (hready : ReadyAt env bus.dev k) :
    let r := (mlx90640GetFrame (sensorAttached env dev.addr) dev bus).1
    (r = subPageOf (bus.dev.polled env k) ∧ (r = 0 ∨ r = 1)) ↔
      OnlyWrittenBits env (bus.dev.time + k + 2) := by
  obtain ⟨log, hframe⟩ := mlx90640GetFrame_ready env dev bus hk hready
  have htime : (bus.dev.after env (k + 1)).time + 1 = bus.dev.time + k + 2 := by
    rw [after_time]
    omega
  rw [hframe]
  constructor
  · rintro ⟨-, hrange⟩
    by_contra hback
    rw [← htime] at hback
    obtain ⟨bus', hfail⟩ := readFrame_rejected env (bus.dev.polled env k) dev
      ⟨bus.dev.after env (k + 1), log⟩ hback
    rw [hfail] at hrange
    exact absurd hrange (by decide : ¬(MLX90640_ERR_VERIFY = 0 ∨ MLX90640_ERR_VERIFY = 1))
  · intro hback
    rw [← htime] at hback
    rw [(readFrame_acquired env (bus.dev.polled env k) dev
      ⟨bus.dev.after env (k + 1), log⟩ hback).1]
    exact ⟨rfl, subPageOf_range _⟩

/-- While the sensor keeps the number of the second sub-page in its status register,
no frame of it is read. -/
theorem second_subPage_rejected (dev : Mlx90640) (bus : Bus Sensor) {k : Nat} (hk : k ≤ MLX_SPINS)
    (hready : ReadyAt env bus.dev k)
    (hsecond : env.own (bus.dev.time + k + 2) &&& 0x0001 = 0x0001) :
    (mlx90640GetFrame (sensorAttached env dev.addr) dev bus).1 = MLX90640_ERR_VERIFY := by
  obtain ⟨log, hframe⟩ := mlx90640GetFrame_ready env dev bus hk hready
  have hback : ¬OnlyWrittenBits env ((bus.dev.after env (k + 1)).time + 1) := by
    rintro ⟨hown, -⟩
    have htime : (bus.dev.after env (k + 1)).time + 1 = bus.dev.time + k + 2 := by
      rw [after_time]
      omega
    have hmask : (0xFFC7 : UInt16) &&& 0x0001 = 0x0001 := by decide
    rw [htime] at hown
    have hbit : env.own (bus.dev.time + k + 2) &&& 0x0001 = 0 := by
      rw [← hmask, ← UInt16.and_assoc, hown, UInt16.zero_and]
    rw [hsecond] at hbit
    exact absurd hbit (by decide)
  obtain ⟨bus', hfail⟩ := readFrame_rejected env (bus.dev.polled env k) dev
    ⟨bus.dev.after env (k + 1), log⟩ hback
  rw [hframe, hfail]

end

def MLX90640_ADDR_DEFAULT : UInt8 := 0x33

/-- A driver's structure and a sensor behind `mlx90640_init`, idle. -/
def Mlx90640.blank : Mlx90640 := ⟨MLX90640_ADDR_DEFAULT, fun _ => 0⟩

def Sensor.boot : Sensor := ⟨0, false, 0, 0x1901⟩

/-- A measurement of one sub-page, which ends before the third transfer. -/
def measures (subPage : UInt16) : Env := ⟨fun _ => subPage, fun t => t == 2, fun _ _ => 0⟩

/-- The first sub-page is read. -/
theorem mlx90640GetFrame_subPage_iff_first :
    let r := (mlx90640GetFrame (sensorAttached (measures 0) MLX90640_ADDR_DEFAULT) .blank
      ⟨.boot, []⟩).1
    r = subPageOf (Sensor.boot.polled (measures 0) 2) ∧ (r = 0 ∨ r = 1) :=
  (mlx90640GetFrame_subPage_iff (measures 0) .blank ⟨.boot, []⟩ (k := 2) (by decide)
    ⟨by decide, by decide⟩).mpr (by decide)

/-- The second is not. -/
theorem second_subPage_lost :
    ¬∀ (env : Env) (dev : Mlx90640) (bus : Bus Sensor) (k : Nat), k ≤ MLX_SPINS →
      ReadyAt env bus.dev k →
      let r := (mlx90640GetFrame (sensorAttached env dev.addr) dev bus).1
      r = subPageOf (bus.dev.polled env k) ∧ (r = 0 ∨ r = 1) := by
  intro hall
  have hready : ReadyAt (measures 1) Sensor.boot 2 := ⟨by decide, by decide⟩
  obtain ⟨-, hrange⟩ := hall (measures 1) .blank ⟨.boot, []⟩ 2 (by decide) hready
  rw [second_subPage_rejected (measures 1) .blank ⟨.boot, []⟩ (by decide) hready rfl] at hrange
  exact absurd hrange (by decide)

end Rw612.Sensors
