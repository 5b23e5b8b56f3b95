import Mathlib.Data.List.Basic

/-!
The shared I2C front-end `i2c_bus.c`. What is attached to the bus is a function
that answers one transfer after another and may change by it; the front-end keeps
no state of its own that a caller could see. `log` records the transfers and the
codes they ended with.
-/

namespace Rw612.Sensors

/-- One transaction on the bus. -/
inductive Transfer where
  | probe (addr : UInt8)
  | write (addr : UInt8) (data : List UInt8)
  | read (addr : UInt8) (len : Nat)
  | writeRead (addr : UInt8) (tx : List UInt8) (len : Nat)
  deriving DecidableEq

def Transfer.addr : Transfer → UInt8
  | .probe addr => addr
  | .write addr _ => addr
  | .read addr _ => addr
  | .writeRead addr _ _ => addr

/-- The driver's code, and the bytes received. -/
structure Reply where
  rc : Int
  rx : List UInt8
  deriving DecidableEq

/-- What is attached to the bus, with a state of its own. -/
abbrev Attached (σ : Type*) := σ → Transfer → Reply × σ

structure Bus (σ : Type*) where
  dev : σ
  log : List (Transfer × Int)

section

variable {σ : Type*} (i2c : Attached σ)

def EINVAL : Int := 22
def ENODEV : Int := 19

def Bus.transfer (t : Transfer) (bus : Bus σ) : Reply × Bus σ :=
  let (reply, dev) := i2c bus.dev t
  (reply, ⟨dev, bus.log ++ [(t, reply.rc)]⟩)

/-- `i2c_bus_init`; `ready` is what `device_is_ready` answers. -/
def i2cBusInit (ready : Bool) : Int := if ready then 0 else -ENODEV

/-- The code of `i2c_bus_probe` for the driver's. -/
def probeCode (rc : Int) : Int := if rc = 0 then 0 else -ENODEV

theorem probeCode_found (rc : Int) : (probeCode rc == 0) = (rc == 0) := by
  unfold probeCode
  split
  case isTrue hrc => rw [hrc]
  case isFalse hrc =>
      rw [beq_eq_false_iff_ne.mpr hrc]
      rfl

def i2cBusProbe (addr : UInt8) (bus : Bus σ) : Int × Bus σ :=
  let (reply, bus) := bus.transfer i2c (.probe addr)
  (probeCode reply.rc, bus)

def i2cBusWrite (addr : UInt8) (data : List UInt8) (bus : Bus σ) : Int × Bus σ :=
  if data = [] then (-EINVAL, bus)
  else
    let (reply, bus) := bus.transfer i2c (.write addr data)
    (reply.rc, bus)

def i2cBusRead (addr : UInt8) (len : Nat) (bus : Bus σ) : Reply × Bus σ :=
  if len = 0 then (⟨-EINVAL, []⟩, bus) else bus.transfer i2c (.read addr len)

def i2cBusWriteRead (addr : UInt8) (tx : List UInt8) (len : Nat) (bus : Bus σ) : Reply × Bus σ :=
  if tx = [] ∨ len = 0 then (⟨-EINVAL, []⟩, bus)
  else bus.transfer i2c (.writeRead addr tx len)

end

end Rw612.Sensors
