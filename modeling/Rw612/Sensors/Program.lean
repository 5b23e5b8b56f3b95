import Rw612.Lib.Interleave
import Rw612.Sensors.I2cBus

/-!
The tasks of the sensors as programs that ask the shared I2C bus for one transfer after
another, so that other tasks may come in between; and what their `publish` functions have
in common.
-/

namespace Rw612.Sensors

open Lib

abbrev BusProg (α : Type) := Prog Transfer Reply α

namespace BusProg

def transfer (t : Transfer) : BusProg Reply := .ask t pure

/-- `i2c_bus_probe` -/
def probe (addr : UInt8) : BusProg Int := do
  let reply ← transfer (.probe addr)
  return probeCode reply.rc

/-- `i2c_bus_write` -/
def write (addr : UInt8) (data : List UInt8) : BusProg Int := do
  if data = [] then return -EINVAL
  else
    let reply ← transfer (.write addr data)
    return reply.rc

/-- `i2c_bus_read` -/
def read (addr : UInt8) (len : Nat) : BusProg Reply :=
  if len = 0 then return ⟨-EINVAL, []⟩ else transfer (.read addr len)

/-- `i2c_bus_write_read` -/
def writeRead (addr : UInt8) (tx : List UInt8) (len : Nat) : BusProg Reply :=
  if tx = [] ∨ len = 0 then return ⟨-EINVAL, []⟩ else transfer (.writeRead addr tx len)

end BusProg

/-- A bus with nobody else on it. -/
def Bus.answer {σ : Type*} (i2c : Attached σ) (bus : Bus σ) (t : Transfer) : Reply × Bus σ :=
  bus.transfer i2c t

section

variable {σ : Type*} (i2c : Attached σ) (bus : Bus σ)

theorem run_probe (addr : UInt8) :
    (BusProg.probe addr).run (Bus.answer i2c) bus = i2cBusProbe i2c addr bus := rfl

theorem run_write (addr : UInt8) (data : List UInt8) :
    (BusProg.write addr data).run (Bus.answer i2c) bus = i2cBusWrite i2c addr data bus := by
  unfold BusProg.write i2cBusWrite
  split
  · rfl
  · rfl

theorem run_writeRead (addr : UInt8) (tx : List UInt8) (len : Nat) :
    (BusProg.writeRead addr tx len).run (Bus.answer i2c) bus =
      i2cBusWriteRead i2c addr tx len bus := by
  unfold BusProg.writeRead i2cBusWriteRead
  split
  · rfl
  · rfl

end

/-- A board whose devices answer to their addresses, each with a state of its own. -/
def board {τ : Type} (device : UInt8 → Attached τ) : Attached (UInt8 → τ) := fun d t =>
  ((device t.addr (d t.addr) t).1, Function.update d t.addr (device t.addr (d t.addr) t).2)

/-- A program's transfers are the end of the log. -/
theorem run_log {σ α : Type} (i2c : Attached σ) {P : Transfer → Prop} {Q : α → Prop}
    {p : BusProg α} (hp : p.Keeps P Q) (bus : Bus σ) :
    ∃ later, (p.run (Bus.answer i2c) bus).2.log = bus.log ++ later ∧ ∀ e ∈ later, P e.1 := by
  induction p generalizing bus with
  | done x => exact ⟨[], (List.append_nil _).symm, by simp⟩
  | ask t next ih =>
      obtain ⟨later, hlog, hall⟩ := ih _ (hp.2 (bus.transfer i2c t).1) (bus.transfer i2c t).2
      refine ⟨(t, (i2c bus.dev t).1.rc) :: later, ?_, ?_⟩
      · rw [Prog.run_ask]
        exact hlog.trans (by simp [Bus.transfer])
      · intro e he
        rcases List.mem_cons.mp he with rfl | he
        · exact hp.1
        · exact hall e he

theorem probe_keeps {P : Transfer → Prop} {addr : UInt8} (h : P (.probe addr)) :
    (BusProg.probe addr).Keeps P (fun _ => True) :=
  ⟨h, fun _ => trivial⟩

theorem read_keeps {P : Transfer → Prop} {addr : UInt8} {len : Nat} (h : P (.read addr len)) :
    (BusProg.read addr len).Keeps P (fun _ => True) := by
  unfold BusProg.read
  split
  · trivial
  · exact ⟨h, fun _ => trivial⟩

theorem writeRead_keeps {P : Transfer → Prop} {addr : UInt8} {tx : List UInt8} {len : Nat}
    (h : P (.writeRead addr tx len)) : (BusProg.writeRead addr tx len).Keeps P (fun _ => True) := by
  unfold BusProg.writeRead
  split
  · trivial
  · exact ⟨h, fun _ => trivial⟩

/-! Published samples. -/

/-- The samples are numbered one after the other, and the last one is kept. -/
structure Numbered {α : Type} (seqOf : α → UInt16) (seq : UInt16) (last : Option α)
    (published : List α) : Prop where
  isLast : last = published.getLast?
  isSeq : seq = UInt16.ofNat published.length
  numbers : published.map seqOf =
    (List.range published.length).map fun k => UInt16.ofNat (k + 1)

theorem Numbered.start {α : Type} {seqOf : α → UInt16} : Numbered seqOf 0 none [] :=
  ⟨rfl, rfl, rfl⟩

theorem Numbered.publish {α : Type} {seqOf : α → UInt16} {seq : UInt16} {last : Option α}
    {published : List α} (h : Numbered seqOf seq last published) {x : α}
    (hx : seqOf x = seq + 1) :
    Numbered seqOf (seq + 1) (some x) (published ++ [x]) := by
  have hnext : seq + 1 = UInt16.ofNat (published.length + 1) := by
    rw [h.isSeq, UInt16.ofNat_add]
    rfl
  constructor
  · exact List.getLast?_concat.symm
  · rw [hnext, List.length_append, List.length_singleton]
  · rw [List.map_append, h.numbers, List.length_append, List.length_singleton, List.range_succ,
      List.map_append, List.map_singleton, List.map_singleton, hx, hnext]

end Rw612.Sensors
