import Rw612.Lib.Descriptors
import Rw612.Lib.Transition

/-!
The TCP server of `app_tcp_server.c`: one `srv_task`, any number of threads that
stop the server or send through it, and the other users of the socket layer, who
may be given a descriptor number as soon as it is free again.

`s_lock` is initialised by the first start, so no call is made before it. A
section that closes or sends keeps the lock from one step to another; one that
only writes variables is a single step. The addresses and the sleeping times
are left out. `zsock_accept` and `zsock_recv` may return anything.
-/

namespace Rw612.Tcp

open Lib

/-- The next statement of `srv_task`, in `build_listening_socket` and
`serve_client` too, with the values of `ls` and `cs`. -/
inductive SrvPc where
  | absent
  | check
  | socket
  | bind (ls : Desc)
  | listen (ls : Desc)
  | refused (ls : Desc)
  | retry
  | publish (ls : Desc)
  | inner (ls : Desc)
  | accept (ls : Desc)
  | publishClient (ls cs : Desc)
  | recv (ls cs : Desc)
  | dropLock (ls : Desc)
  | dropClose (ls : Desc)
  | shutLock
  | shutClose
  | pause
  | returned
  deriving DecidableEq, Repr

/-- Where a thread is in `app_tcp_server_stop` or `app_tcp_server_send`. -/
inductive SrvCallerPc where
  | idle
  | stopping
  | stopClient
  | stopListen
  | sending
  deriving DecidableEq, Repr

inductive LockHolder where
  | task
  | caller (tid : Nat)
  deriving DecidableEq, Repr

/-- The variables of `app_tcp_server.c`, with `none` for a socket of -1.
`starting` is the thread between `s_running = true` and `k_thread_create`;
`received` lists what was passed to `s_rx_cb`. -/
structure Server where
  ready : Bool
  running : Bool
  connected : Bool
  listenSock : Option Desc
  clientSock : Option Desc
  lock : Option LockHolder
  starting : Option Nat
  task : SrvPc
  callers : Nat → SrvCallerPc
  table : Table
  received : List (List UInt8)

def Server.powerUp : Server where
  ready := false
  running := false
  connected := false
  listenSock := none
  clientSock := none
  lock := none
  starting := none
  task := .absent
  callers _ := .idle
  table := .empty
  received := []

inductive SrvAct where
  | start (tid : Nat)
  | create (tid : Nat) (created : Bool)
  | stopFlag (tid : Nat)
  | stopLock (tid : Nat)
  | stopClient (tid : Nat)
  | stopListen (tid : Nat)
  | sendLock (tid : Nat)
  | sendCall (tid : Nat)
  | check
  | socket (fd : Option Nat)
  | bind (ok : Bool)
  | listen (ok : Bool)
  | refused
  | retry
  | publish
  | inner
  | accept (fd : Option Nat)
  | publishClient
  | recv (data : List UInt8)
  | dropLock
  | dropClose
  | shutLock
  | shutClose
  | pause
  | otherOpen (fd : Nat)
  | otherClose (fd : Nat)
  deriving DecidableEq

/-- No `srv_task` is there or about to be created. -/
def Server.vacant (s : Server) : Bool :=
  s.starting.isNone && (s.task == .absent || s.task == .returned)

def Server.setCaller (s : Server) (tid : Nat) (pc : SrvCallerPc) : Server :=
  {s with callers := Function.update s.callers tid pc}

/-- `app_tcp_server_start` up to `k_thread_create`. -/
def Server.start (s : Server) (tid : Nat) : Server :=
  if s.running then s
  else {s with ready := true, running := true, starting := some tid}

def Server.create (s : Server) (created : Bool) : Server :=
  if created then {s with starting := none, task := .check}
  else {s with starting := none, running := false}

/-- `zsock_close` of the published client, if there is one. -/
def Server.closeClient (s : Server) : Server :=
  match s.clientSock with
  | none => s
  | some k => {s with table := s.table.close k, clientSock := none}

def Server.closeListen (s : Server) : Server :=
  match s.listenSock with
  | none => s
  | some k => {s with table := s.table.close k, listenSock := none}

/-- The first half of the locked section of `app_tcp_server_stop`. -/
def Server.stopClient (s : Server) : Server :=
  if s.clientSock.isSome then {s.closeClient with connected := false} else s

/-- `app_tcp_server_send` up to `zsock_send`. -/
def Server.sendLock (s : Server) (tid : Nat) : Server :=
  if !s.connected || s.clientSock.isNone then s
  else {s.setCaller tid .sending with lock := some (.caller tid)}

def Server.sendCall (s : Server) (tid : Nat) : Server :=
  match s.clientSock with
  | none => {s.setCaller tid .idle with lock := none}
  | some k => {s.setCaller tid .idle with lock := none, table := s.table.use k}

/-- `zsock_recv` returned `data`, or an error or 0 for no data. -/
def Server.recv (s : Server) (ls : Desc) (data : List UInt8) : Server :=
  if data = [] then {s with task := .dropLock ls}
  else {s with received := s.received ++ [data]}

/-- The server and the rest of the system, in any interleaving. -/
def serverSystem : System Server SrvAct where
  step s
    | .start tid => if s.vacant then some (s.start tid) else none
    | .create tid created =>
        if s.starting = some tid then some (s.create created) else none
    | .stopFlag tid =>
        if s.ready && s.callers tid == .idle then
          some {s.setCaller tid .stopping with running := false}
        else none
    | .stopLock tid =>
        match s.callers tid, s.lock with
        | .stopping, none =>
            some {s.setCaller tid .stopClient with lock := some (.caller tid)}
        | _, _ => none
    | .stopClient tid =>
        match s.callers tid with
        | .stopClient => some (s.stopClient.setCaller tid .stopListen)
        | _ => none
    | .stopListen tid =>
        match s.callers tid with
        | .stopListen => some {s.closeListen.setCaller tid .idle with lock := none}
        | _ => none
    | .sendLock tid =>
        if s.ready && s.callers tid == .idle && s.lock.isNone then some (s.sendLock tid)
        else none
    | .sendCall tid =>
        match s.callers tid with
        | .sending => some (s.sendCall tid)
        | _ => none
    | .check =>
        match s.task with
        | .check => some {s with task := if s.running then .socket else .returned}
        | _ => none
    | .socket fd =>
        match s.task, fd with
        | .socket, none => some {s with task := .retry}
        | .socket, some fd =>
            if s.table.slots fd = none then
              some {s with table := s.table.obtain fd, task := .bind (s.table.fresh fd)}
            else none
        | _, _ => none
    | .bind ok =>
        match s.task with
        | .bind ls => some {s with task := if ok then .listen ls else .refused ls}
        | _ => none
    | .listen ok =>
        match s.task with
        | .listen ls => some {s with task := if ok then .publish ls else .refused ls}
        | _ => none
    | .refused =>
        match s.task with
        | .refused ls => some {s with table := s.table.close ls, task := .retry}
        | _ => none
    | .retry =>
        match s.task with
        | .retry => some {s with task := .check}
        | _ => none
    | .publish =>
        match s.task, s.lock with
        | .publish ls, none => some {s with listenSock := some ls, task := .inner ls}
        | _, _ => none
    | .inner =>
        match s.task with
        | .inner ls => some {s with task := if s.running then .accept ls else .shutLock}
        | _ => none
    | .accept fd =>
        match s.task, fd with
        | .accept _, none => some {s with task := .shutLock}
        | .accept ls, some fd =>
            if s.table.slots fd = none then
              some {s with
                table := s.table.obtain fd
                task := .publishClient ls (s.table.fresh fd)}
            else none
        | _, _ => none
    | .publishClient =>
        match s.task, s.lock with
        | .publishClient ls cs, none =>
            some {s with clientSock := some cs, connected := true, task := .recv ls cs}
        | _, _ => none
    | .recv data =>
        match s.task with
        | .recv ls _ => some (s.recv ls data)
        | _ => none
    | .dropLock =>
        match s.task, s.lock with
        | .dropLock ls, none =>
            some {s with lock := some .task, connected := false, task := .dropClose ls}
        | _, _ => none
    | .dropClose =>
        match s.task with
        | .dropClose ls => some {s.closeClient with lock := none, task := .inner ls}
        | _ => none
    | .shutLock =>
        match s.task, s.lock with
        | .shutLock, none => some {s with lock := some .task, task := .shutClose}
        | _, _ => none
    | .shutClose =>
        match s.task with
        | .shutClose => some {s.closeListen with lock := none, task := .pause}
        | _ => none
    | .pause =>
        match s.task with
        | .pause => some {s with task := .check}
        | _ => none
    | .otherOpen fd =>
        if s.table.slots fd = none then
          some {s with table := s.table.other fd (some .other)}
        else none
    | .otherClose fd =>
        if s.table.slots fd = some .other then
          some {s with table := s.table.other fd none}
        else none

/-- What each step of `serverSystem` does and when it is possible. -/
inductive Server.Does (s : Server) : SrvAct → Server → Prop where
  | start {tid : Nat} (h : s.vacant = true) : s.Does (.start tid) (s.start tid)
  | create {tid : Nat} (created : Bool) (h : s.starting = some tid) :
      s.Does (.create tid created) (s.create created)
  | stopFlag {tid : Nat} (h : s.callers tid = .idle) :
      s.Does (.stopFlag tid) {s.setCaller tid .stopping with running := false}
  | stopLock {tid : Nat} (h : s.callers tid = .stopping) (hlock : s.lock = none) :
      s.Does (.stopLock tid)
        {s.setCaller tid .stopClient with lock := some (.caller tid)}
  | stopClient {tid : Nat} (h : s.callers tid = .stopClient) :
      s.Does (.stopClient tid) (s.stopClient.setCaller tid .stopListen)
  | stopListen {tid : Nat} (h : s.callers tid = .stopListen) :
      s.Does (.stopListen tid) {s.closeListen.setCaller tid .idle with lock := none}
  | sendLock {tid : Nat} (h : s.callers tid = .idle) (hlock : s.lock = none) :
      s.Does (.sendLock tid) (s.sendLock tid)
  | sendCall {tid : Nat} (h : s.callers tid = .sending) :
      s.Does (.sendCall tid) (s.sendCall tid)
  | check (h : s.task = .check) :
      s.Does .check {s with task := if s.running then .socket else .returned}
  | noSocket (h : s.task = .socket) : s.Does (.socket none) {s with task := .retry}
  | socket {fd : Nat} (h : s.task = .socket) (hfd : s.table.slots fd = none) :
      s.Does (.socket (some fd))
        {s with table := s.table.obtain fd, task := .bind (s.table.fresh fd)}
  | bind {ls : Desc} (ok : Bool) (h : s.task = .bind ls) :
      s.Does (.bind ok) {s with task := if ok then .listen ls else .refused ls}
  | listen {ls : Desc} (ok : Bool) (h : s.task = .listen ls) :
      s.Does (.listen ok) {s with task := if ok then .publish ls else .refused ls}
  | refused {ls : Desc} (h : s.task = .refused ls) :
      s.Does .refused {s with table := s.table.close ls, task := .retry}
  | retry (h : s.task = .retry) : s.Does .retry {s with task := .check}
  | publish {ls : Desc} (h : s.task = .publish ls) (hlock : s.lock = none) :
      s.Does .publish {s with listenSock := some ls, task := .inner ls}
  | inner {ls : Desc} (h : s.task = .inner ls) :
      s.Does .inner {s with task := if s.running then .accept ls else .shutLock}
  | noAccept {ls : Desc} (h : s.task = .accept ls) :
      s.Does (.accept none) {s with task := .shutLock}
  | accept {ls : Desc} {fd : Nat} (h : s.task = .accept ls)
      (hfd : s.table.slots fd = none) :
      s.Does (.accept (some fd))
        {s with table := s.table.obtain fd, task := .publishClient ls (s.table.fresh fd)}
  | publishClient {ls cs : Desc} (h : s.task = .publishClient ls cs)
      (hlock : s.lock = none) :
      s.Does .publishClient
        {s with clientSock := some cs, connected := true, task := .recv ls cs}
  | recv {ls cs : Desc} (data : List UInt8) (h : s.task = .recv ls cs) :
      s.Does (.recv data) (s.recv ls data)
  | dropLock {ls : Desc} (h : s.task = .dropLock ls) (hlock : s.lock = none) :
      s.Does .dropLock {s with lock := some .task, connected := false, task := .dropClose ls}
  | dropClose {ls : Desc} (h : s.task = .dropClose ls) :
      s.Does .dropClose {s.closeClient with lock := none, task := .inner ls}
  | shutLock (h : s.task = .shutLock) (hlock : s.lock = none) :
      s.Does .shutLock {s with lock := some .task, task := .shutClose}
  | shutClose (h : s.task = .shutClose) :
      s.Does .shutClose {s.closeListen with lock := none, task := .pause}
  | pause (h : s.task = .pause) : s.Does .pause {s with task := .check}
  | otherOpen {fd : Nat} (h : s.table.slots fd = none) :
      s.Does (.otherOpen fd) {s with table := s.table.other fd (some .other)}
  | otherClose {fd : Nat} (h : s.table.slots fd = some .other) :
      s.Does (.otherClose fd) {s with table := s.table.other fd none}

theorem Server.does_of_step {s s' : Server} {a : SrvAct}
    (h : serverSystem.step s a = some s') : s.Does a s' := by
  cases a with
  | socket fd | accept fd =>
      dsimp only [serverSystem] at h
      split at h
      case h_1 hpc =>
          cases h
          first | exact .noSocket hpc | exact .noAccept hpc
      case h_2 hpc =>
          split at h <;> cases h
          first | exact .socket hpc ‹_› | exact .accept hpc ‹_›
      case h_3 => cases h
  | stopFlag tid | sendLock tid =>
      dsimp only [serverSystem] at h
      split at h <;> cases h
      constructor <;> simp_all
  | start | create | stopLock | stopClient | stopListen | sendCall | check | bind | listen
    | refused | retry | publish | inner | publishClient | recv | dropLock | dropClose
    | shutLock | shutClose | pause | otherOpen | otherClose =>
      dsimp only [serverSystem] at h
      split at h <;> cases h
      constructor <;> assumption

end Rw612.Tcp
