import Mathlib.Data.Nat.Bitwise
import Rw612.Sensors.Frame
import Rw612.Sensors.Program

/-!
The Grid-EYE array of 8 by 8 pixels: the driver `amg8833.c` and the loop of
`amg8833_task.c`, as programs over the bus.
-/

namespace Rw612.Sensors

open Lib

/-! The driver. -/

def AMG8833_ADDR_LOW : UInt8 := 0x68
def AMG8833_ADDR_HIGH : UInt8 := 0x69

def AMG8833_PIXELS : Nat := 64
def AMG8833_FRAME_BYTES : Nat := AMG8833_PIXELS * 2

def AMG8833_REG_PCTL : UInt8 := 0x00
def AMG8833_REG_RST : UInt8 := 0x01
def AMG8833_REG_FPSC : UInt8 := 0x02
def AMG8833_REG_INTC : UInt8 := 0x03
def AMG8833_REG_TTHL : UInt8 := 0x0E
def AMG8833_REG_T01L : UInt8 := 0x80

def AMG8833_PCTL_NORMAL : UInt8 := 0x00
def AMG8833_RST_INITIAL : UInt8 := 0x3F
def AMG8833_FPSC_10FPS : UInt8 := 0x00
def AMG8833_INTC_DISABLE : UInt8 := 0x00

def AMG8833_OK : Int := 0
def AMG8833_ERR_PARAM : Int := -1
def AMG8833_ERR_IO : Int := -2

/-- The size that `AMG_READ_CHUNK` has by default. -/
def AMG_READ_CHUNK : Nat := AMG8833_FRAME_BYTES

/-- `amg8833_t`. -/
structure Amg8833 where
  addr : UInt8
  fps : UInt8
  pixelsQ2 : Vector Int16 AMG8833_PIXELS
  thermistorQ4 : Int16
  deriving DecidableEq

def Amg8833.zero : Amg8833 := ⟨0, 0, Vector.replicate AMG8833_PIXELS 0, 0⟩

def wrReg (dev : Amg8833) (reg val : UInt8) : BusProg Int := do
  let rc ← BusProg.write dev.addr [reg, val]
  return if rc = 0 then AMG8833_OK else AMG8833_ERR_IO

def signExtend12 (raw : UInt16) : Int16 :=
  if raw &&& 0x0800 ≠ 0 then (raw ||| 0xF000).toInt16 else (raw &&& 0x0FFF).toInt16

/-- `amg8833_init`; `ready` is what `device_is_ready` answers. -/
def amg8833Init (ready : Bool) (addr : UInt8) (dev : Amg8833) : BusProg (Int × Amg8833) := do
  if addr ≠ AMG8833_ADDR_LOW ∧ addr ≠ AMG8833_ADDR_HIGH then return (AMG8833_ERR_PARAM, dev)
  else
    let dev := { Amg8833.zero with addr := addr, fps := AMG8833_FPSC_10FPS }
    if i2cBusInit ready ≠ 0 then return ( AMG8833_ERR_IO, dev)
    else
      let rc ← wrReg dev AMG8833_REG_PCTL AMG8833_PCTL_NORMAL
      if rc ≠ AMG8833_OK then return (rc, dev)
      else
        let rc ← wrReg dev AMG8833_REG_RST AMG8833_RST_INITIAL
        if rc ≠ AMG8833_OK then return (rc, dev)
        else
          let rc ← wrReg dev AMG8833_REG_FPSC dev.fps
          if rc ≠ AMG8833_OK then return (rc, dev)
          else
            let rc ← wrReg dev AMG8833_REG_INTC AMG8833_INTC_DISABLE
            if rc ≠ AMG8833_OK then return (rc, dev) else return (AMG8833_OK, dev)

/-- The reads of `amg8833_read_frame`, `n` chunks from `off` on; `raw` is the buffer
as far as it is filled. -/
def readChunks (addr : UInt8) (chunk : Nat) : Nat → Nat → List UInt8 → BusProg (Option (List UInt8))
  | 0, _, raw => return some raw
  | n + 1, off, raw => do
      let reply ← BusProg.writeRead addr [AMG8833_REG_T01L + UInt8.ofNat off] chunk
      if reply.rc ≠ 0 then return none
      else readChunks addr chunk n (off + chunk) (raw ++ reply.rx)

/-- Pixel `i` of the buffer. -/
def pixelOf (raw : List UInt8) (i : Nat) : Int16 :=
  signExtend12 (word (raw.getD (i * 2 + 1) 0) (raw.getD (i * 2) 0))

/-- `amg8833_read_frame` with chunks of this size, which divides the frame. -/
def amg8833ReadFrame (chunk : Nat) (dev : Amg8833) : BusProg (Int × Amg8833) := do
  match ← readChunks dev.addr chunk (AMG8833_FRAME_BYTES / chunk) 0 [] with
  | none => return ( AMG8833_ERR_IO, dev)
  | some raw =>
      return (AMG8833_OK, { dev with pixelsQ2 := Vector.ofFn fun i => pixelOf raw i })

/-- The sign and the eleven bits of the thermistor. -/
def thermistorOf (r : UInt16) : Int16 :=
  if r &&& 0x0800 ≠ 0 then -(r &&& 0x07FF).toInt16 else (r &&& 0x07FF).toInt16

def amg8833ReadThermistor (dev : Amg8833) : BusProg (Int × Amg8833) := do
  let reply ← BusProg.writeRead dev.addr [AMG8833_REG_TTHL] 2
  if reply.rc ≠ 0 then return ( AMG8833_ERR_IO, dev)
  else
    let r := word (reply.rx.getD 1 0) (reply.rx.getD 0 0)
    return (AMG8833_OK, { dev with thermistorQ4 := thermistorOf r })

/-! The task. -/

/-- `amg_sample_t` without its time stamp. -/
structure AmgSample where
  pixelsQ2 : Vector Int16 AMG8833_PIXELS
  thermistorQ4 : Int16
  minQ2 : Int16
  maxQ2 : Int16
  avgQ2 : Int16
  err : Int8
  seq : UInt16
  deriving DecidableEq

def AmgSample.zero : AmgSample := ⟨Vector.replicate AMG8833_PIXELS 0, 0, 0, 0, 0, 0, 0⟩

/-- One turn of the loop of `compute_stats`, on the minimum, the maximum and the sum;
the sum of 64 pixels fits in its 32 bits. -/
def statStep (acc : Int16 × Int16 × Int) (v : Int16) : Int16 × Int16 × Int :=
  (if v < acc.1 then v else acc.1, if v > acc.2.1 then v else acc.2.1, acc.2.2 + v.toInt)

def computeStats (s : AmgSample) : AmgSample :=
  match s.pixelsQ2.toList.foldl statStep (Int16.maxValue, Int16.minValue, 0) with
  | (mn, mx, sum) =>
      { s with minQ2 := mn, maxQ2 := mx, avgQ2 := Int16.ofInt (sum.tdiv AMG8833_PIXELS) }

/-- The variables of `amg8833_task.c`, with `seq` of the loop and the samples that
have been published. -/
structure AmgTask where
  running : Bool
  dev : Amg8833
  seq : UInt16
  last : Option AmgSample
  published : List AmgSample
  deriving DecidableEq

/-- After `amg_task_start`. -/
def AmgTask.started : AmgTask := ⟨true, .zero, 0, none, []⟩

def AmgTask.publish (s : AmgTask) (sample : AmgSample) : AmgTask :=
  { s with last := some sample, published := s.published ++ [sample] }

/-- `amg_task` before its loop. -/
def amgBoot (ready : Bool) (addr : UInt8) (s : AmgTask) : BusProg AmgTask := do
  let rc ← BusProg.probe addr
  let found := rc == 0
  let (lastRc, dev) ← (if found then amg8833Init ready addr s.dev
    else pure ( AMG8833_ERR_IO, s.dev))
  if !found ∨ lastRc ≠ AMG8833_OK then return { s with running := false, dev := dev }
  else return { s with dev := dev }

/-- One turn of the loop of `amg_task`, up to its sleep. -/
def amgTurn (chunk : Nat) (s : AmgTask) : BusProg AmgTask := do
  if !s.running then return s
  else
    let (rc, dev) ← amg8833ReadFrame chunk s.dev
    if rc = AMG8833_OK then
      let sample := computeStats { AmgSample.zero with pixelsQ2 := dev.pixelsQ2 }
      let (_, dev) ← amg8833ReadThermistor dev
      return { s with dev := dev, seq := s.seq + 1 }.publish
        { sample with thermistorQ4 := dev.thermistorQ4, err := 0, seq := s.seq + 1 }
    else
      return { s with dev := dev, seq := s.seq + 1 }.publish
        { AmgSample.zero with err := Int8.ofInt rc, seq := s.seq + 1 }

/-! What a pixel of twelve bits becomes. -/

theorem toInt_toInt16 (w : UInt16) :
    w.toInt16.toInt = if w.toNat < 32768 then (w.toNat : Int) else w.toNat - 65536 := by
  have hw := w.toNat_lt
  change w.toBitVec.toInt = _
  rw [BitVec.toInt_eq_toNat_cond]
  change (if 2 * w.toNat < 65536 then (w.toNat : Int) else w.toNat - 65536) = _
  split <;> split <;> omega

theorem sign_bit (w : UInt16) : w &&& 0x0800 ≠ 0 ↔ 2048 ≤ w.toNat % 4096 := by
  have hbit : w.toNat &&& 2048 = (w.toNat.testBit 11).toNat * 2048 := by
    exact Nat.and_two_pow w.toNat 11
  rw [Ne, ← UInt16.toNat_inj, UInt16.toNat_and]
  change ¬(w.toNat &&& 2048 = 0) ↔ _
  rw [hbit, Nat.testBit_eq_decide_div_mod_eq]
  by_cases h : w.toNat / 2 ^ 11 % 2 = 1
  · simp only [h, decide_true, Bool.toNat_true]
    omega
  · simp only [h, decide_false, Bool.toNat_false]
    norm_num at h ⊢
    omega

theorem signExtend12_toInt (raw : UInt16) :
    (signExtend12 raw).toInt =
      if 2048 ≤ raw.toNat % 4096 then (raw.toNat % 4096 : Int) - 4096 else raw.toNat % 4096 := by
  have hraw := raw.toNat_lt
  have hlow : (raw &&& 0x0FFF).toNat = raw.toNat % 4096 := by
    rw [UInt16.toNat_and]
    exact Nat.and_two_pow_sub_one_eq_mod raw.toNat 12
  have hhigh : (raw ||| 0xF000).toNat = 61440 + raw.toNat % 4096 := by
    have hdiv : (raw.toNat ||| 61440) / 2 ^ 12 = 15 := by
      rw [Nat.or_div_two_pow]
      have hall : ∀ k < 16, k ||| 15 = 15 := by decide
      exact hall _ (by omega)
    have hmod : (raw.toNat ||| 61440) % 2 ^ 12 = raw.toNat % 2 ^ 12 := by
      rw [Nat.or_mod_two_pow]
      exact Nat.or_zero _
    rw [UInt16.toNat_or]
    change raw.toNat ||| 61440 = _
    omega
  rw [signExtend12]
  by_cases hneg : 2048 ≤ raw.toNat % 4096
  · rw [if_pos ((sign_bit raw).mpr hneg), if_pos hneg, toInt_toInt16, hhigh, if_neg (by omega)]
    push_cast
    omega
  · rw [if_neg (fun h => hneg ((sign_bit raw).mp h)), if_neg hneg, toInt_toInt16, hlow,
      if_pos (by omega)]
    push_cast
    rfl

/-! The statistics. -/

/-- The minimum, the maximum and the mean of the pixels, rounded towards zero. -/
structure AmgSample.Summed (s : AmgSample) : Prop where
  min_mem : s.minQ2 ∈ s.pixelsQ2.toList
  max_mem : s.maxQ2 ∈ s.pixelsQ2.toList
  bounds : ∀ v ∈ s.pixelsQ2.toList, s.minQ2.toInt ≤ v.toInt ∧ v.toInt ≤ s.maxQ2.toInt
  avg : s.avgQ2.toInt = (s.pixelsQ2.toList.map Int16.toInt).sum.tdiv AMG8833_PIXELS
  avg_bounds : s.minQ2.toInt ≤ s.avgQ2.toInt ∧ s.avgQ2.toInt ≤ s.maxQ2.toInt

theorem foldl_statStep (vs : List Int16) (acc : Int16 × Int16 × Int) :
    let r := vs.foldl statStep acc
    (r.1 = acc.1 ∨ r.1 ∈ vs) ∧ (r.2.1 = acc.2.1 ∨ r.2.1 ∈ vs) ∧
      r.1.toInt ≤ acc.1.toInt ∧ acc.2.1.toInt ≤ r.2.1.toInt ∧
      (∀ v ∈ vs, r.1.toInt ≤ v.toInt ∧ v.toInt ≤ r.2.1.toInt) ∧
      r.2.2 = acc.2.2 + (vs.map Int16.toInt).sum := by
  induction vs generalizing acc with
  | nil => simp
  | cons v vs ih =>
      obtain ⟨hmin, hmax, hle, hge, hall, hsum⟩ := ih (statStep acc v)
      have hfirst : (statStep acc v).1.toInt ≤ acc.1.toInt ∧ (statStep acc v).1.toInt ≤ v.toInt ∧
          ((statStep acc v).1 = acc.1 ∨ (statStep acc v).1 = v) := by
        simp only [statStep, Int16.lt_iff_toInt_lt]
        split
        · exact ⟨by omega, by omega, .inr rfl⟩
        · exact ⟨by omega, by omega, .inl rfl⟩
      have hsecond : acc.2.1.toInt ≤ (statStep acc v).2.1.toInt ∧
          v.toInt ≤ (statStep acc v).2.1.toInt ∧
          ((statStep acc v).2.1 = acc.2.1 ∨ (statStep acc v).2.1 = v) := by
        simp only [statStep, gt_iff_lt, Int16.lt_iff_toInt_lt]
        split
        · exact ⟨by omega, by omega, .inr rfl⟩
        · exact ⟨by omega, by omega, .inl rfl⟩
      rw [List.foldl_cons]
      generalize vs.foldl statStep (statStep acc v) = r at hmin hmax hle hge hall hsum
      dsimp only at hmin hmax hle hge hall hsum ⊢
      refine ⟨?_, ?_, by omega, by omega, ?_, ?_⟩
      · rcases hmin with h | h
        · rcases hfirst.2.2 with h' | h'
          · exact .inl (h.trans h')
          · exact .inr (by rw [h, h']; exact List.mem_cons_self)
        · exact .inr (List.mem_cons_of_mem v h)
      · rcases hmax with h | h
        · rcases hsecond.2.2 with h' | h'
          · exact .inl (h.trans h')
          · exact .inr (by rw [h, h']; exact List.mem_cons_self)
        · exact .inr (List.mem_cons_of_mem v h)
      · intro w hw
        rcases List.mem_cons.mp hw with rfl | hw
        · exact ⟨by omega, by omega⟩
        · exact hall w hw
      · have hadd : (statStep acc v).2.2 = acc.2.2 + v.toInt := rfl
        rw [hsum, hadd, List.map_cons, List.sum_cons, Int.add_assoc]

/-- The sum of values between two bounds. -/
theorem sum_bounds {vs : List Int16} {lo hi : Int}
    (h : ∀ v ∈ vs, lo ≤ v.toInt ∧ v.toInt ≤ hi) :
    lo * vs.length ≤ (vs.map Int16.toInt).sum ∧ (vs.map Int16.toInt).sum ≤ hi * vs.length := by
  induction vs with
  | nil => simp
  | cons v vs ih =>
      obtain ⟨hlo, hhi⟩ := ih fun w hw => h w (List.mem_cons_of_mem v hw)
      obtain ⟨hv, hv'⟩ := h v List.mem_cons_self
      rw [List.map_cons, List.sum_cons, List.length_cons]
      push_cast
      rw [Int.mul_add, Int.mul_add, Int.mul_one, Int.mul_one]
      exact ⟨by omega, by omega⟩

theorem tdiv_bounds {lo hi sum n : Int} (hn : 0 < n) (hlo : lo * n ≤ sum) (hhi : sum ≤ hi * n) :
    lo ≤ sum.tdiv n ∧ sum.tdiv n ≤ hi := by
  refine ⟨Int.le_tdiv_of_mul_le hn hlo, ?_⟩
  have hneg : -hi ≤ (-sum).tdiv n := by
    apply Int.le_tdiv_of_mul_le hn
    rw [Int.neg_mul]
    omega
  rw [Int.neg_tdiv] at hneg
  omega

theorem computeStats_summed (s : AmgSample) : (computeStats s).Summed := by
  have hlen : s.pixelsQ2.toList.length = 64 := Vector.length_toList
  obtain ⟨hmin, hmax, -, -, hall, hsum⟩ :=
    foldl_statStep s.pixelsQ2.toList (Int16.maxValue, Int16.minValue, 0)
  unfold computeStats
  generalize s.pixelsQ2.toList.foldl statStep (Int16.maxValue, Int16.minValue, 0) = r
    at hmin hmax hall hsum
  obtain ⟨mn, mx, sum⟩ := r
  dsimp only at hmin hmax hall hsum ⊢
  rw [Int.zero_add] at hsum
  obtain ⟨v, hv⟩ := List.exists_mem_of_length_pos (by omega : 0 < s.pixelsQ2.toList.length)
  obtain ⟨hlo, hhi⟩ := sum_bounds hall
  rw [hlen, ← hsum] at hlo hhi
  obtain ⟨havg, havg'⟩ := tdiv_bounds (by decide : (0 : Int) < 64) hlo hhi
  have hrange := mn.le_toInt
  have hrange' := mx.toInt_lt
  have hofInt : (Int16.ofInt (sum.tdiv 64)).toInt = sum.tdiv 64 :=
    Int16.toInt_ofInt_of_le (by omega) (by omega)
  constructor
  · rcases hmin with h | h
    · have hle := (hall v hv).1
      have hge := v.toInt_le
      rw [h] at hle
      obtain rfl : v = mn := by
        rw [h]
        exact Int16.toInt_inj.mp (Int.le_antisymm hge hle)
      exact hv
    · exact h
  · rcases hmax with h | h
    · have hge := (hall v hv).2
      have hle := v.minValue_le_toInt
      rw [h] at hge
      obtain rfl : v = mx := by
        rw [h]
        exact Int16.toInt_inj.mp (Int.le_antisymm hge hle)
      exact hv
    · exact h
  · exact hall
  · rw [← hsum]
    exact hofInt
  · exact ⟨havg.trans hofInt.ge, hofInt.le.trans havg'⟩

end Rw612.Sensors
