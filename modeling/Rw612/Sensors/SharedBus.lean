import Rw612.Sensors.GridEyeTask
import Rw612.Sensors.Lux

/-!
The light sensors and the Grid-EYE on one bus. `i2c_bus.c` holds its mutex for one
transfer, so the two tasks may come in between one another at every transfer.
-/

namespace Rw612.Sensors

open Lib

/-- The tasks on the bus. -/
inductive BusTask where
  | lux
  | amg
  deriving DecidableEq

def BusTask.State : BusTask → Type
  | .lux => Lux.Task
  | .amg => AmgTask

/-- The addresses that a task uses; `addr` is the one that `amg_task_start` was given. -/
def BusTask.uses (addr : UInt8) : BusTask → UInt8 → Bool
  | .lux, a => a == BH1750_ADDR_LOW || a == BH1750_ADDR_HIGH
  | .amg, a => a == addr

def bootOf (ready : Bool) (addr : UInt8) : ∀ i : BusTask, BusProg i.State
  | .lux => Lux.boot ready .started
  | .amg => amgBoot ready addr .started

def turnOf (chunk : Nat) : ∀ i : BusTask, i.State → BusProg i.State
  | .lux, s => Lux.turn s
  | .amg, s => amgTurn chunk s

def StateOk (addr : UInt8) : ∀ i : BusTask, i.State → Prop
  | .lux, s => Lux.Task.Ok s
  | .amg, s => AmgTask.Ok addr s

section

variable {τ : Type} {device : UInt8 → Attached τ}

/-- The board with nothing on it but the devices of one task. -/
def lone (addr : UInt8) (blank : τ) (i : BusTask) (d : UInt8 → τ) : UInt8 → τ := fun a =>
  if i.uses addr a then d a else blank

variable {addr : UInt8}

theorem uses_apart (haddr : addr = AMG8833_ADDR_LOW ∨ addr = AMG8833_ADDR_HIGH) {i j : BusTask}
    (hne : i ≠ j) {a : UInt8} (ha : j.uses addr a = true) : i.uses addr a = false := by
  cases i with
  | lux =>
      cases j with
      | lux => exact absurd rfl hne
      | amg =>
          obtain rfl := eq_of_beq ha
          rcases haddr with rfl | rfl
          · rfl
          · rfl
  | amg =>
      cases j with
      | lux =>
          rcases Bool.or_eq_true_iff.mp ha with ha | ha
          · obtain rfl := eq_of_beq ha
            rcases haddr with rfl | rfl
            · rfl
            · rfl
          · obtain rfl := eq_of_beq ha
            rcases haddr with rfl | rfl
            · rfl
            · rfl
      | amg => exact absurd rfl hne

/-- The devices of the tasks are the parts of the board. -/
theorem board_parted (haddr : addr = AMG8833_ADDR_LOW ∨ addr = AMG8833_ADDR_HIGH) (blank : τ) :
    Parted (board device) (fun i t => BusTask.uses addr i t.addr = true) (lone addr blank)
      (fun _ => board device) := by
  constructor
  · intro i d t ht
    simp only [board, lone, if_pos ht]
  · intro i d t ht
    funext a
    by_cases ha : a = t.addr
    · subst ha
      simp [board, lone, ht]
    · simp [board, lone, ha]
  · intro i j d t hne ht
    funext a
    by_cases ha : a = t.addr
    · subst ha
      simp [lone, uses_apart haddr hne ht]
    · simp [board, lone, ha]

theorem boot_keeps_ok (ready : Bool) (i : BusTask) :
    (bootOf ready addr i).Keeps (fun t => i.uses addr t.addr = true) (StateOk addr i) := by
  cases i with
  | lux =>
      apply (Lux.boot_keeps ready).mono
      · rintro t (ht | ht)
        · simp [BusTask.uses, ht]
        · simp [BusTask.uses, ht]
      · exact fun _ h => h
  | amg =>
      apply (amgBoot_keeps ready addr).mono
      · intro t ht
        simp [BusTask.uses, ht]
      · exact fun _ h => h.1

theorem turn_keeps_ok (chunk : Nat) (i : BusTask) (s : i.State) (h : StateOk addr i s) :
    (turnOf chunk i s).Keeps (fun t => i.uses addr t.addr = true) (StateOk addr i) := by
  cases i with
  | lux =>
      apply (Lux.turn_keeps h).mono
      · rintro t (ht | ht)
        · simp [BusTask.uses, ht]
        · simp [BusTask.uses, ht]
      · exact fun _ h => h
  | amg =>
      apply (amgTurn_keeps chunk h).mono
      · rintro t ⟨reg, len, rfl⟩
        simp [BusTask.uses, Transfer.addr]
      · exact fun _ h => h

end

/-- Whatever the devices do and however the two tasks come in between one another, each
of them has published what it would have published with the bus for itself, and what it
publishes is in order. -/
theorem sensors_share_bus {τ : Type} (device : UInt8 → Attached τ) (blank : τ)
    (ready : Bool) (addr : UInt8) (chunk : Nat) (d : UInt8 → τ) (schedule : List BusTask)
    (haddr : addr = AMG8833_ADDR_LOW ∨ addr = AMG8833_ADDR_HIGH) (i : BusTask) (x : i.State)
    (hx : (schedule.foldl (Tasks.step (board device) (turnOf chunk))
      ⟨bootOf ready addr, d⟩).places i = .done x) :
    StateOk addr i x ∧ ∃ k, (taskTurn (board device) (turnOf chunk i))^[k]
        ((bootOf ready addr i).run (board device) (lone addr blank i d)) =
      (x, lone addr blank i (schedule.foldl (Tasks.step (board device) (turnOf chunk))
        ⟨bootOf ready addr, d⟩).resource) :=
  (board_parted haddr blank).between (turn_keeps_ok chunk) schedule (boot_keeps_ok ready) i hx

/-- Devices that take every transfer and fill what is read. -/
def willing : UInt8 → Attached Unit := fun _ _ t =>
  match t with
  | .writeRead _ _ len | .read _ len => (⟨0, List.replicate len 0x10⟩, ())
  | _ => (⟨0, []⟩, ())

/-- The Grid-EYE is initialised while the light sensors are looked for, and then makes a
turn between the transfers of the light task. -/
def bothTurn : List BusTask :=
  [.amg, .lux, .amg, .amg, .lux, .lux, .amg, .lux, .amg, .amg, .lux, .amg, .lux, .amg]

theorem sensors_share_bus_turn :
    ∃ x : AmgTask, (bothTurn.foldl (Tasks.step (board willing) (turnOf AMG_READ_CHUNK))
        ⟨bootOf true 0x69, fun _ => ()⟩).places .amg = .done x ∧ x.Ok 0x69 ∧
      x.published.map AmgSample.seq = [1] := by
  refine ⟨_, rfl, (sensors_share_bus willing () true 0x69 AMG_READ_CHUNK (fun _ => ()) bothTurn
    (.inr rfl) .amg _ rfl).1, ?_⟩
  decide +kernel

end Rw612.Sensors
