import Mathlib.Logic.Function.Basic
import Rw612.Lib.Descriptors
import Rw612.Lib.Transition
import Rw612.Prov.Nvram

/-!
The TCP client of `app_tcp_client.c`: `tcp_task` with any number of threads that
start it, stop it or send through it, and the other users of the socket layer,
who may be given a descriptor number as soon as it is free again.

The locked sections that only read and write variables are single steps. A send
keeps the lock while it is in `zsock_send`, so it takes two. The backoff times
are left out: `pause` takes any time.
-/

namespace Rw612.Tcp

open Lib
open Prov (AppNvramData)

/-- The next statement of a `tcp_task`. -/
inductive TaskPc where
  | check
  | socket
  | connect (k : Desc)
  | refused (k : Desc)
  | pause
  | publish (k : Desc)
  | recv (k : Desc)
  | clear (k : Desc)
  | close (k : Desc)
  | returned
  deriving DecidableEq, Repr

/-- Where a thread is in a function of `app_tcp_client.h`. -/
inductive CallerPc where
  | idle
  | starting (cfg : AppNvramData)
  | creating
  | stopping
  | sending (k : Desc)
  deriving DecidableEq, Repr

/-- The variables of `app_tcp_client.c`, with `none` for `s_sock == -1` and the
thread in `zsock_send` as holder of `s_lock`. `received` lists what was passed
to `s_rx_cb`. `stopped` holds from the return of a stop until a start sets
`s_running`. -/
structure Client where
  running : Bool
  connected : Bool
  sock : Option Desc
  cfg : Option AppNvramData
  lock : Option Nat
  callers : Nat → CallerPc
  tasks : Nat → Option TaskPc
  created : Nat
  table : Table
  received : List (List UInt8)
  stopped : Bool

def Client.powerUp : Client where
  running := false
  connected := false
  sock := none
  cfg := none
  lock := none
  callers _ := .idle
  tasks _ := none
  created := 0
  table := .empty
  received := []
  stopped := false

inductive Act where
  | startCheck (tid : Nat) (cfg : Option AppNvramData)
  | startStore (tid : Nat)
  | startCreate (tid : Nat) (created : Bool)
  | stopFlag (tid : Nat)
  | stopSection (tid : Nat)
  | sendLock (tid : Nat)
  | sendCall (tid : Nat)
  | check (n : Nat)
  | socket (n : Nat) (fd : Option Nat)
  | connect (n : Nat) (ok : Bool)
  | refused (n : Nat)
  | pause (n : Nat)
  | publish (n : Nat)
  | recv (n : Nat) (data : List UInt8)
  | clear (n : Nat)
  | close (n : Nat)
  | otherOpen (fd : Nat)
  | otherClose (fd : Nat)
  deriving DecidableEq

def Client.setCaller (s : Client) (tid : Nat) (pc : CallerPc) : Client :=
  {s with callers := Function.update s.callers tid pc}

def Client.setTask (s : Client) (n : Nat) (pc : TaskPc) : Client :=
  {s with tasks := Function.update s.tasks n (some pc)}

/-- `zsock_close` of a number, whoever has it. -/
def Client.zsockClose (s : Client) (k : Desc) : Client := {s with table := s.table.close k}

/-- `zsock_socket`: a number that is free. -/
def Client.zsockSocket (s : Client) (fd : Nat) : Client := {s with table := s.table.obtain fd}

/-- `app_tcp_client_start` up to its test of `s_running`. -/
def Client.startCheck (s : Client) (tid : Nat) : Option AppNvramData → Client
  | none => s
  | some cfg => if s.running then s else s.setCaller tid (.starting cfg)

/-- The copies and `s_running = true`. -/
def Client.startStore (s : Client) (tid : Nat) (cfg : AppNvramData) : Client :=
  {s.setCaller tid .creating with
    cfg := some cfg
    running := true
    stopped := false}

def Client.startCreate (s : Client) (tid : Nat) (created : Bool) : Client :=
  if created then
    {(s.setCaller tid .idle).setTask s.created .check with
      created := s.created + 1}
  else {s.setCaller tid .idle with running := false}

/-- The locked section of `app_tcp_client_stop`, and its return. -/
def Client.stopSection (s : Client) (tid : Nat) : Client :=
  let s := {s.setCaller tid .idle with stopped := true}
  match s.sock with
  | none => s
  | some k => {s.zsockClose k with sock := none, connected := false}

/-- `app_tcp_client_send` up to `zsock_send`. -/
def Client.sendLock (s : Client) (tid : Nat) : Client :=
  match s.connected, s.sock with
  | true, some k => {s.setCaller tid (.sending k) with lock := some tid}
  | _, _ => s

def Client.sendCall (s : Client) (tid : Nat) (k : Desc) : Client :=
  {s.setCaller tid .idle with
    lock := none
    table := s.table.use k}

/-- `zsock_recv` returned `data`, or an error or 0 for no data. -/
def Client.recv (s : Client) (n : Nat) (k : Desc) (data : List UInt8) : Client :=
  if data = [] then s.setTask n (.clear k)
  else {s with received := s.received ++ [data]}

/-- The client and the rest of the system, in any interleaving. -/
def clientSystem : System Client Act where
  step s
    | .startCheck tid cfg =>
        match s.callers tid with
        | .idle => some (s.startCheck tid cfg)
        | _ => none
    | .startStore tid =>
        match s.callers tid with
        | .starting cfg => some (s.startStore tid cfg)
        | _ => none
    | .startCreate tid created =>
        match s.callers tid with
        | .creating => some (s.startCreate tid created)
        | _ => none
    | .stopFlag tid =>
        match s.callers tid with
        | .idle => some {s.setCaller tid .stopping with running := false}
        | _ => none
    | .stopSection tid =>
        match s.callers tid, s.lock with
        | .stopping, none => some (s.stopSection tid)
        | _, _ => none
    | .sendLock tid =>
        match s.callers tid, s.lock with
        | .idle, none => some (s.sendLock tid)
        | _, _ => none
    | .sendCall tid =>
        match s.callers tid with
        | .sending k => some (s.sendCall tid k)
        | _ => none
    | .check n =>
        match s.tasks n with
        | some .check => some (s.setTask n (if s.running then .socket else .returned))
        | _ => none
    | .socket n fd =>
        match s.tasks n, fd with
        | some .socket, none => some (s.setTask n .pause)
        | some .socket, some fd =>
            if s.table.slots fd = none then
              some ((s.zsockSocket fd).setTask n (.connect (s.table.fresh fd)))
            else none
        | _, _ => none
    | .connect n ok =>
        match s.tasks n with
        | some (.connect k) =>
            some (s.setTask n (if ok then .publish k else .refused k))
        | _ => none
    | .refused n =>
        match s.tasks n with
        | some (.refused k) => some ((s.zsockClose k).setTask n .pause)
        | _ => none
    | .pause n =>
        match s.tasks n with
        | some .pause => some (s.setTask n .check)
        | _ => none
    | .publish n =>
        match s.tasks n, s.lock with
        | some (.publish k), none =>
            some {s.setTask n (.recv k) with sock := some k, connected := true}
        | _, _ => none
    | .recv n data =>
        match s.tasks n with
        | some (.recv k) => some (s.recv n k data)
        | _ => none
    | .clear n =>
        match s.tasks n, s.lock with
        | some (.clear k), none =>
            some {s.setTask n (.close k) with sock := none, connected := false}
        | _, _ => none
    | .close n =>
        match s.tasks n with
        | some (.close k) => some ((s.zsockClose k).setTask n .check)
        | _ => none
    | .otherOpen fd =>
        if s.table.slots fd = none then some {s with table := s.table.other fd (some .other)}
        else none
    | .otherClose fd =>
        if s.table.slots fd = some .other then some {s with table := s.table.other fd none}
        else none

/-- What each step of `clientSystem` does and when it is possible. -/
inductive Client.Does (s : Client) : Act → Client → Prop where
  | startCheck {tid : Nat} (cfg : Option AppNvramData) (h : s.callers tid = .idle) :
      s.Does (.startCheck tid cfg) (s.startCheck tid cfg)
  | startStore {tid : Nat} {cfg : AppNvramData} (h : s.callers tid = .starting cfg) :
      s.Does (.startStore tid) (s.startStore tid cfg)
  | startCreate {tid : Nat} (created : Bool) (h : s.callers tid = .creating) :
      s.Does (.startCreate tid created) (s.startCreate tid created)
  | stopFlag {tid : Nat} (h : s.callers tid = .idle) :
      s.Does (.stopFlag tid) {s.setCaller tid .stopping with running := false}
  | stopSection {tid : Nat} (h : s.callers tid = .stopping) (hlock : s.lock = none) :
      s.Does (.stopSection tid) (s.stopSection tid)
  | sendLock {tid : Nat} (h : s.callers tid = .idle) (hlock : s.lock = none) :
      s.Does (.sendLock tid) (s.sendLock tid)
  | sendCall {tid : Nat} {k : Desc} (h : s.callers tid = .sending k) :
      s.Does (.sendCall tid) (s.sendCall tid k)
  | check {n : Nat} (h : s.tasks n = some .check) :
      s.Does (.check n) (s.setTask n (if s.running then .socket else .returned))
  | noSocket {n : Nat} (h : s.tasks n = some .socket) :
      s.Does (.socket n none) (s.setTask n .pause)
  | socket {n fd : Nat} (h : s.tasks n = some .socket) (hfd : s.table.slots fd = none) :
      s.Does (.socket n (some fd))
        ((s.zsockSocket fd).setTask n (.connect (s.table.fresh fd)))
  | connect {n : Nat} {k : Desc} (ok : Bool) (h : s.tasks n = some (.connect k)) :
      s.Does (.connect n ok) (s.setTask n (if ok then .publish k else .refused k))
  | refused {n : Nat} {k : Desc} (h : s.tasks n = some (.refused k)) :
      s.Does (.refused n) ((s.zsockClose k).setTask n .pause)
  | pause {n : Nat} (h : s.tasks n = some .pause) :
      s.Does (.pause n) (s.setTask n .check)
  | publish {n : Nat} {k : Desc} (h : s.tasks n = some (.publish k))
      (hlock : s.lock = none) :
      s.Does (.publish n)
        {s.setTask n (.recv k) with sock := some k, connected := true}
  | recv {n : Nat} {k : Desc} (data : List UInt8) (h : s.tasks n = some (.recv k)) :
      s.Does (.recv n data) (s.recv n k data)
  | clear {n : Nat} {k : Desc} (h : s.tasks n = some (.clear k))
      (hlock : s.lock = none) :
      s.Does (.clear n) {s.setTask n (.close k) with sock := none, connected := false}
  | close {n : Nat} {k : Desc} (h : s.tasks n = some (.close k)) :
      s.Does (.close n) ((s.zsockClose k).setTask n .check)
  | otherOpen {fd : Nat} (h : s.table.slots fd = none) :
      s.Does (.otherOpen fd) {s with table := s.table.other fd (some .other)}
  | otherClose {fd : Nat} (h : s.table.slots fd = some .other) :
      s.Does (.otherClose fd) {s with table := s.table.other fd none}

theorem Client.does_of_step {s s' : Client} {a : Act}
    (h : clientSystem.step s a = some s') : s.Does a s' := by
  cases a with
  | socket n fd =>
      dsimp only [clientSystem] at h
      split at h
      case h_1 hpc =>
          cases h
          exact .noSocket hpc
      case h_2 hpc =>
          split at h <;> cases h
          rename_i hfd
          exact .socket hpc hfd
      case h_3 => cases h
  | startCheck | startStore | startCreate | stopFlag | stopSection | sendLock
    | sendCall | check | connect | refused | pause | publish | recv | clear | close
    | otherOpen | otherClose =>
      dsimp only [clientSystem] at h
      split at h <;> cases h
      constructor <;> assumption

theorem Client.Does.step {s s' : Client} {a : Act} (h : s.Does a s') :
    clientSystem.step s a = some s' := by
  cases h with
  | socket h hfd => simp only [clientSystem, h, if_pos hfd]
  | stopSection h hlock | sendLock h hlock | publish h hlock | clear h hlock =>
      simp only [clientSystem, h, hlock]
  | otherOpen h | otherClose h => exact if_pos h
  | startCheck _ h | startStore h | startCreate _ h | stopFlag h | sendCall h | check h
    | noSocket h | connect _ h | refused h | pause h | recv _ h | close h =>
      simp only [clientSystem, h]

/-- Task `n` has been created and has not returned. -/
def Client.Live (s : Client) (n : Nat) : Prop :=
  ∃ pc, s.tasks n = some pc ∧ pc ≠ .returned

/-- The descriptor that a task has in its variable `s`. -/
def TaskPc.holds : TaskPc → Option Desc
  | .connect k | .refused k | .publish k | .recv k | .clear k | .close k => some k
  | _ => none

/-- The descriptor between its publication and the end of the connection. -/
def TaskPc.published : TaskPc → Option Desc
  | .recv k | .clear k => some k
  | _ => none

def Client.sockOf (s : Client) (n : Nat) : Option Desc :=
  (s.tasks n).bind TaskPc.holds

def Client.publishedBy (s : Client) (n : Nat) : Option Desc :=
  (s.tasks n).bind TaskPc.published

/-! Small facts about the updates. -/

@[simp] theorem Client.setTask_self (s : Client) (n : Nat) (pc : TaskPc) :
    (s.setTask n pc).tasks n = some pc := Function.update_self _ _ _

theorem Client.setTask_of_ne (s : Client) {n m : Nat} (pc : TaskPc)
    (h : m ≠ n) : (s.setTask n pc).tasks m = s.tasks m :=
  Function.update_of_ne h _ _

@[simp] theorem Client.setCaller_self (s : Client) (tid : Nat) (pc : CallerPc) :
    (s.setCaller tid pc).callers tid = pc := Function.update_self _ _ _

theorem Client.setCaller_of_ne (s : Client) {tid other : Nat} (pc : CallerPc)
    (h : other ≠ tid) : (s.setCaller tid pc).callers other = s.callers other :=
  Function.update_of_ne h _ _

theorem TaskPc.holds_of_published {pc : TaskPc} {k : Desc}
    (h : pc.published = some k) : pc.holds = some k := by
  cases pc <;> first | exact h | cases h

theorem Client.sockOf_of_published {s : Client} {n : Nat} {k : Desc}
    (h : s.publishedBy n = some k) : s.sockOf n = some k := by
  obtain ⟨pc, hpc, hk⟩ := Option.bind_eq_some_iff.mp h
  exact Option.bind_eq_some_iff.mpr ⟨pc, hpc, TaskPc.holds_of_published hk⟩

end Rw612.Tcp
