import Rw612.Tcp.Server

/-!
Who closes a descriptor of the server. A descriptor that `srv_task` has just
obtained is its own; from its publication on it belongs to the variable, and
whoever takes it out of the variable under the lock closes it. The copies `ls`
and `cs` of the task are only used for `zsock_accept` and `zsock_recv`.
-/

namespace Rw612.Tcp

open Lib

/-- No descriptor is closed twice, each close and each send reaches the
descriptor that it was meant for, which is then open, and the ones obtained so
far have all been closed when `srv_task` has returned. -/
structure Server.Descriptors (s : Server) : Prop where
  atMostOnce : ∀ id, s.table.closeCount id ≤ 1
  own : ∀ u ∈ s.table.uses, u.hit = some (.own u.desc.id)
  returned : s.task = .returned → ∀ id < s.table.nextId, s.table.closeCount id = 1
  sending : ∀ tid, s.callers tid = .sending →
    ∃ k, s.clientSock = some k ∧ s.table.slots k.fd = some (.own k.id)

/-- The descriptor that is only in a variable of the task so far. -/
def SrvPc.unpublished : SrvPc → Option Desc
  | .bind ls | .listen ls | .refused ls | .publish ls => some ls
  | .publishClient _ cs => some cs
  | _ => none

/-- Between the publication of a client and the section that drops it. -/
def SrvPc.serving : SrvPc → Bool
  | .recv _ _ | .dropLock _ | .dropClose _ => true
  | _ => false

/-- Between the publication of a listening socket and the section that drops it. -/
def SrvPc.listening : SrvPc → Bool
  | .inner _ | .accept _ | .publishClient _ _ | .recv _ _ | .dropLock _ | .dropClose _
  | .shutLock | .shutClose => true
  | _ => false

def SrvPc.locked : SrvPc → Bool
  | .dropClose _ | .shutClose => true
  | _ => false

def SrvPc.alive : SrvPc → Bool
  | .absent | .returned => false
  | _ => true

/-- From `pc` to `pc'` no descriptor changes hands. -/
structure SrvPc.Moves (pc pc' : SrvPc) : Prop where
  unpublished : pc'.unpublished = pc.unpublished
  serving : pc'.serving = pc.serving
  listening : pc'.listening = pc.listening
  alive : pc.alive = true

def SrvCallerPc.locked : SrvCallerPc → Bool
  | .stopClient | .stopListen | .sending => true
  | _ => false

/-- All descriptors the server has. -/
def Server.held (s : Server) : List Desc :=
  s.task.unpublished.toList ++ (s.clientSock.toList ++ s.listenSock.toList)

/-- Where the task is with a published socket, and who holds the lock. -/
structure Server.Placed (s : Server) : Prop where
  client : s.clientSock.isSome → s.task.serving
  listen : s.listenSock.isSome → s.task.listening
  taskLock : s.task.locked → s.lock = some .task
  callerLock : ∀ tid, (s.callers tid).locked → s.lock = some (.caller tid)
  sending : ∀ tid, s.callers tid = .sending → s.clientSock.isSome
  starting : s.starting.isSome → s.task = .absent ∨ s.task = .returned

structure Server.Owned (s : Server) : Prop where
  holds : s.table.Holds s.held
  placed : s.Placed

theorem Server.owned_powerUp : Server.powerUp.Owned where
  holds := Table.holds_empty
  placed := by constructor <;> simp [Server.powerUp, SrvCallerPc.locked, SrvPc.locked]

theorem Server.Owned.descriptors {s : Server} (h : s.Owned) : s.Descriptors where
  atMostOnce := h.holds.closeCount_le
  own := h.holds.own
  returned hpc id hid := by
    apply h.holds.closed id hid
    have hclient : s.clientSock = none := by
      simpa [hpc, SrvPc.serving] using h.placed.client
    have hlisten : s.listenSock = none := by
      simpa [hpc, SrvPc.listening] using h.placed.listen
    simp [Server.held, hpc, SrvPc.unpublished, hclient, hlisten]
  sending tid hpc := by
    obtain ⟨k, hk⟩ := Option.isSome_iff_exists.mp (h.placed.sending tid hpc)
    refine ⟨k, hk, (h.holds.live k ?_).1⟩
    simp [Server.held, hk]

@[simp] theorem Server.setCaller_self (s : Server) (tid : Nat) (pc : SrvCallerPc) :
    (s.setCaller tid pc).callers tid = pc := Function.update_self _ _ _

theorem Server.setCaller_of_ne (s : Server) {tid other : Nat} (pc : SrvCallerPc)
    (h : other ≠ tid) : (s.setCaller tid pc).callers other = s.callers other :=
  Function.update_of_ne h _ _

/-- While a thread holds the lock, the task and the other threads are outside
their locked sections. -/
theorem Server.Placed.alone {s : Server} (h : s.Placed) {tid : Nat}
    (hlocked : (s.callers tid).locked) :
    s.task.locked = false ∧ ∀ other ≠ tid, (s.callers other).locked = false := by
  have hlock := h.callerLock tid hlocked
  constructor
  · by_contra htask
    cases (h.taskLock (eq_true_of_ne_false htask)).symm.trans hlock
  · intro other hne
    by_contra hother
    cases (h.callerLock other (eq_true_of_ne_false hother)).symm.trans hlock
    exact hne rfl

/-- While the task holds the lock, or nobody does, no thread is in a section. -/
theorem Server.Placed.callers_out {s : Server} (h : s.Placed)
    (hlock : ∀ tid, s.lock ≠ some (.caller tid)) (tid : Nat) :
    (s.callers tid).locked = false := by
  by_contra hlocked
  exact hlock tid (h.callerLock tid (eq_true_of_ne_false hlocked))

theorem SrvCallerPc.not_sending {pc : SrvCallerPc} (h : pc.locked = false) : pc ≠ .sending := by
  rintro rfl
  cases h

theorem Server.Placed.no_start {s : Server} (h : s.Placed) (halive : s.task.alive = true) :
    ¬s.starting.isSome := by
  intro hstart
  rcases h.starting hstart with htask | htask <;>
    simp [htask, SrvPc.alive] at halive

/-- A statement of the task outside the locked sections that leaves the sockets
where they are. -/
theorem Server.Placed.move {s : Server} (h : s.Placed) {pc pc' : SrvPc} (hpc : s.task = pc)
    (t : Table) (received : List (List UInt8)) (hserving : pc'.serving = pc.serving)
    (hlistening : pc'.listening = pc.listening) (halive : pc.alive = true)
    (hlocked : pc'.locked = false) :
    Server.Placed {s with task := pc', table := t, received := received} := by
  subst hpc
  constructor
  · intro hk
    exact hserving ▸ h.client hk
  · intro hk
    exact hlistening ▸ h.listen hk
  · intro hl
    cases hlocked.symm.trans hl
  · exact h.callerLock
  · exact h.sending
  · intro hstart
    exact absurd hstart (h.no_start halive)

/-- A statement of a thread outside the locked sections. -/
theorem Server.Placed.setCaller {s : Server} (h : s.Placed) (tid : Nat) {pc : SrvCallerPc}
    (hpc : pc.locked = false) (running : Bool) :
    Server.Placed {s.setCaller tid pc with running := running} where
  client := h.client
  listen := h.listen
  taskLock := h.taskLock
  callerLock other hother := by
    by_cases hne : other = tid
    · subst hne
      cases hpc.symm.trans ((congrArg _ (s.setCaller_self other pc)).symm.trans hother)
    · exact h.callerLock other ((congrArg _ (s.setCaller_of_ne pc hne)).symm.trans hother)
  sending other hother := by
    by_cases hne : other = tid
    · subst hne
      exact absurd ((s.setCaller_self other pc).symm.trans hother)
        (SrvCallerPc.not_sending hpc)
    · exact h.sending other ((s.setCaller_of_ne pc hne).symm.trans hother)
  starting := h.starting

/-- A thread takes the lock. -/
theorem Server.Placed.callerLocks {s : Server} (h : s.Placed) (hlock : s.lock = none)
    (tid : Nat) {pc : SrvCallerPc} (hpc : pc = .sending → s.clientSock.isSome) :
    Server.Placed {s.setCaller tid pc with lock := some (.caller tid)} where
  client := h.client
  listen := h.listen
  taskLock hl := by cases (h.taskLock hl).symm.trans hlock
  callerLock other hother := by
    by_cases hne : other = tid
    · rw [hne]
    · have hout := h.callers_out (by simp [hlock]) other
      cases hout.symm.trans ((congrArg _ (s.setCaller_of_ne pc hne)).symm.trans hother)
  sending other hother := by
    by_cases hne : other = tid
    · subst hne
      exact hpc ((s.setCaller_self other pc).symm.trans hother)
    · exact h.sending other ((s.setCaller_of_ne pc hne).symm.trans hother)
  starting := h.starting

/-- A thread gives the lock back, or goes on with it, with fewer sockets. -/
theorem Server.Placed.callerMoves {s : Server} (h : s.Placed) {tid : Nat}
    (hin : (s.callers tid).locked) (pc : SrvCallerPc) (hpc : pc ≠ .sending)
    {s' : Server} (hcallers : s'.callers = (s.setCaller tid pc).callers)
    (hlock : s'.lock = if pc.locked then s.lock else none)
    (hclient : s'.clientSock.isSome → s.clientSock.isSome)
    (hlisten : s'.listenSock.isSome → s.listenSock.isSome)
    (htask : s'.task = s.task) (hstarting : s'.starting = s.starting) : s'.Placed := by
  obtain ⟨htaskOut, hothers⟩ := h.alone hin
  constructor
  · intro hk
    rw [htask]
    exact h.client (hclient hk)
  · intro hk
    rw [htask]
    exact h.listen (hlisten hk)
  · intro hl
    rw [htask, htaskOut] at hl
    cases hl
  · intro other hother
    rw [hcallers] at hother
    by_cases hne : other = tid
    · subst hne
      rw [Server.setCaller_self] at hother
      rw [hlock, if_pos hother]
      exact h.callerLock other hin
    · rw [Server.setCaller_of_ne s pc hne, hothers other hne] at hother
      cases hother
  · intro other hother
    rw [hcallers] at hother
    by_cases hne : other = tid
    · subst hne
      rw [Server.setCaller_self] at hother
      exact absurd hother hpc
    · rw [Server.setCaller_of_ne s pc hne] at hother
      exact absurd hother (SrvCallerPc.not_sending (hothers other hne))
  · rw [hstarting, htask]
    exact h.starting

/-- The task takes the lock, gives it back, or goes through a section in one
step: no thread is in a section before and after. -/
theorem Server.Placed.taskMoves {s : Server} (h : s.Placed)
    (hout : ∀ tid, s.lock ≠ some (.caller tid)) {s' : Server}
    (hcallers : s'.callers = s.callers)
    (hclient : s'.clientSock.isSome → s'.task.serving)
    (hlisten : s'.listenSock.isSome → s'.task.listening)
    (hlock : s'.task.locked → s'.lock = some .task)
    (hstarting : s'.starting = s.starting) (halive : s.task.alive = true) : s'.Placed where
  client := hclient
  listen := hlisten
  taskLock := hlock
  callerLock tid htid := by
    rw [hcallers, h.callers_out hout tid] at htid
    cases htid
  sending tid htid := by
    rw [hcallers] at htid
    exact absurd htid (SrvCallerPc.not_sending (h.callers_out hout tid))
  starting hstart := absurd (hstarting ▸ hstart) (h.no_start halive)

/-! The sections that close a published socket. -/

theorem Server.closeClient_holds {s : Server} (h : s.table.Holds s.held) :
    s.closeClient.table.Holds s.closeClient.held := by
  unfold Server.closeClient
  cases hsock : s.clientSock with
  | none => exact h
  | some k =>
      have hfront : s.table.Holds (k :: (s.task.unpublished.toList ++ s.listenSock.toList)) := by
        apply h.perm
        rw [Server.held, hsock]
        exact List.perm_middle
      exact hfront.close

theorem Server.closeListen_holds {s : Server} (h : s.table.Holds s.held) :
    s.closeListen.table.Holds s.closeListen.held := by
  unfold Server.closeListen
  cases hsock : s.listenSock with
  | none => exact h
  | some k =>
      have hfront : s.table.Holds (k :: (s.task.unpublished.toList ++ s.clientSock.toList)) := by
        apply h.perm
        rw [Server.held, hsock, ← List.append_assoc]
        exact List.perm_append_singleton k _
      have hclosed := hfront.close
      simpa [Server.held] using hclosed

/-- Closing the client touches the table and the variable only. -/
theorem Server.closeClient_frame (s : Server) :
    s.closeClient = {s with table := s.closeClient.table, clientSock := none} := by
  unfold Server.closeClient
  split
  case h_1 hsock => rw [← hsock]
  case h_2 => rfl

theorem Server.closeListen_frame (s : Server) :
    s.closeListen = {s with table := s.closeListen.table, listenSock := none} := by
  unfold Server.closeListen
  split
  case h_1 hsock => rw [← hsock]
  case h_2 => rfl

theorem Server.stopClient_eq (s : Server) :
    s.stopClient = {s.closeClient with
      connected := if s.clientSock.isSome then false else s.connected} := by
  unfold Server.stopClient Server.closeClient
  cases hsock : s.clientSock <;> rfl

/-! One lemma for each kind of step. -/

theorem Server.Owned.start {s : Server} (h : s.Owned) (tid : Nat) (hvacant : s.vacant = true) :
    (s.start tid).Owned := by
  unfold Server.start
  split
  · exact h
  · have htask : s.task = .absent ∨ s.task = .returned := by
      simp only [Server.vacant, Bool.and_eq_true, Bool.or_eq_true, beq_iff_eq] at hvacant
      exact hvacant.2
    exact ⟨h.holds, h.placed.client, h.placed.listen, h.placed.taskLock, h.placed.callerLock,
      h.placed.sending, fun _ => htask⟩

theorem Server.Owned.create {s : Server} (h : s.Owned) {tid : Nat} (created : Bool)
    (hstart : s.starting = some tid) : (s.create created).Owned := by
  have htask : s.task = .absent ∨ s.task = .returned := h.placed.starting (by simp [hstart])
  have hclient : s.clientSock = none := by
    rcases htask with htask | htask <;>
      simpa [htask, SrvPc.serving] using h.placed.client
  have hlisten : s.listenSock = none := by
    rcases htask with htask | htask <;>
      simpa [htask, SrvPc.listening] using h.placed.listen
  have hunpublished : s.task.unpublished = none := by
    rcases htask with htask | htask <;> rw [htask] <;> rfl
  cases created with
  | false =>
      exact ⟨h.holds, h.placed.client, h.placed.listen, h.placed.taskLock,
        h.placed.callerLock, h.placed.sending, by simp [Server.create]⟩
  | true =>
      constructor
      · have hholds := h.holds
        rw [Server.held, hunpublished] at hholds
        exact hholds
      · constructor
        · simp [Server.create, hclient]
        · simp [Server.create, hlisten]
        · simp [Server.create, SrvPc.locked]
        · exact h.placed.callerLock
        · exact h.placed.sending
        · simp [Server.create]

/-- A statement of the task that changes neither the table nor the sockets. -/
theorem Server.Owned.move {s : Server} (h : s.Owned) {pc pc' : SrvPc} (hpc : s.task = pc)
    (received : List (List UInt8)) (hmoves : pc.Moves pc') (hlocked : pc'.locked = false) :
    Server.Owned {s with task := pc', received := received} where
  holds := by
    have hholds := h.holds
    rw [Server.held, hpc, ← hmoves.unpublished] at hholds
    exact hholds
  placed := h.placed.move hpc s.table received hmoves.serving hmoves.listening hmoves.alive
    hlocked

/-- `zsock_socket` or `zsock_accept` returned a descriptor. -/
theorem Server.Owned.obtain {s : Server} (h : s.Owned) {fd : Nat} {pc pc' : SrvPc}
    (hpc : s.task = pc) (hfd : s.table.slots fd = none) (hnone : pc.unpublished = none)
    (hunpublished : pc'.unpublished = some (s.table.fresh fd))
    (hserving : pc'.serving = pc.serving) (hlistening : pc'.listening = pc.listening)
    (halive : pc.alive = true) (hlocked : pc'.locked = false) :
    Server.Owned {s with table := s.table.obtain fd, task := pc'} where
  holds := by
    have hholds := h.holds.obtain hfd
    rw [Server.held, hpc, hnone] at hholds
    rw [Server.held, hunpublished]
    exact hholds
  placed := h.placed.move hpc _ s.received hserving hlistening halive hlocked

theorem Server.Owned.refused {s : Server} (h : s.Owned) {ls : Desc}
    (hpc : s.task = .refused ls) :
    Server.Owned {s with table := s.table.close ls, task := .retry} where
  holds := by
    have hholds := h.holds
    rw [Server.held, hpc] at hholds
    exact hholds.close
  placed := h.placed.move hpc _ s.received rfl rfl rfl rfl

theorem Server.Owned.publish {s : Server} (h : s.Owned) {ls : Desc}
    (hpc : s.task = .publish ls) (hlock : s.lock = none) :
    Server.Owned {s with listenSock := some ls, task := .inner ls} := by
  have hclient : s.clientSock = none := by
    simpa [hpc, SrvPc.serving] using h.placed.client
  have hlisten : s.listenSock = none := by
    simpa [hpc, SrvPc.listening] using h.placed.listen
  constructor
  · have hholds := h.holds
    rw [Server.held, hpc, hclient, hlisten] at hholds
    rw [Server.held, hclient]
    exact hholds
  · apply h.placed.taskMoves (by simp [hlock]) <;>
      simp [hclient, hpc, SrvPc.listening, SrvPc.locked, SrvPc.alive]

theorem Server.Owned.publishClient {s : Server} (h : s.Owned) {ls cs : Desc}
    (hpc : s.task = .publishClient ls cs) (hlock : s.lock = none) :
    Server.Owned
      {s with clientSock := some cs, connected := true, task := .recv ls cs} := by
  have hclient : s.clientSock = none := by
    simpa [hpc, SrvPc.serving] using h.placed.client
  constructor
  · have hholds := h.holds
    rw [Server.held, hpc, hclient] at hholds
    exact hholds
  · apply h.placed.taskMoves (by simp [hlock]) <;>
      simp [hpc, SrvPc.serving, SrvPc.listening, SrvPc.locked, SrvPc.alive]

theorem Server.Owned.recv {s : Server} (h : s.Owned) {ls cs : Desc}
    (hpc : s.task = .recv ls cs) (data : List UInt8) : (s.recv ls data).Owned := by
  unfold Server.recv
  split
  · exact h.move hpc s.received ⟨rfl, rfl, rfl, rfl⟩ rfl
  · have hstay := h.move hpc (s.received ++ [data]) ⟨rfl, rfl, rfl, rfl⟩
      (rfl : (SrvPc.recv ls cs).locked = false)
    rw [← hpc] at hstay
    exact hstay

theorem Server.Owned.dropClose {s : Server} (h : s.Owned) {ls : Desc}
    (hpc : s.task = .dropClose ls) :
    Server.Owned {s.closeClient with lock := none, task := .inner ls} := by
  have hlock := h.placed.taskLock (by rw [hpc]; rfl)
  have hholds := Server.closeClient_holds h.holds
  rw [Server.closeClient_frame] at hholds ⊢
  constructor
  · rw [Server.held, hpc] at hholds
    exact hholds
  · apply h.placed.taskMoves (by simp [hlock]) <;>
      simp [hpc, SrvPc.listening, SrvPc.locked, SrvPc.alive]

theorem Server.Owned.shutClose {s : Server} (h : s.Owned) (hpc : s.task = .shutClose) :
    Server.Owned {s.closeListen with lock := none, task := .pause} := by
  have hlock := h.placed.taskLock (by rw [hpc]; rfl)
  have hclient : s.clientSock = none := by
    simpa [hpc, SrvPc.serving] using h.placed.client
  have hholds := Server.closeListen_holds h.holds
  rw [Server.closeListen_frame] at hholds ⊢
  constructor
  · rw [Server.held, hpc] at hholds
    exact hholds
  · apply h.placed.taskMoves (by simp [hlock]) <;>
      simp [hpc, hclient, SrvPc.locked, SrvPc.alive]

/-- The task takes the lock. -/
theorem Server.Owned.taskLocks {s : Server} (h : s.Owned) {pc pc' : SrvPc}
    (hpc : s.task = pc) (connected : Bool) (hlock : s.lock = none) (hmoves : pc.Moves pc') :
    Server.Owned {s with lock := some .task, connected := connected, task := pc'} := by
  subst hpc
  constructor
  · have hholds := h.holds
    rw [Server.held, ← hmoves.unpublished] at hholds
    exact hholds
  · apply h.placed.taskMoves (by simp [hlock])
    · rfl
    · intro hk
      exact hmoves.serving ▸ h.placed.client hk
    · intro hk
      exact hmoves.listening ▸ h.placed.listen hk
    · exact fun _ => rfl
    · rfl
    · exact hmoves.alive

theorem Server.Owned.stopClient {s : Server} (h : s.Owned) {tid : Nat}
    (hpc : s.callers tid = .stopClient) :
    (s.stopClient.setCaller tid .stopListen).Owned := by
  have hholds := Server.closeClient_holds h.holds
  rw [Server.stopClient_eq]
  rw [Server.closeClient_frame] at hholds ⊢
  have hlocked : (s.callers tid).locked := by
    rw [hpc]
    rfl
  refine ⟨hholds, ?_⟩
  apply h.placed.callerMoves hlocked .stopListen <;>
    simp [Server.setCaller, SrvCallerPc.locked]

theorem Server.Owned.stopListen {s : Server} (h : s.Owned) {tid : Nat}
    (hpc : s.callers tid = .stopListen) :
    Server.Owned {s.closeListen.setCaller tid .idle with lock := none} := by
  have hholds := Server.closeListen_holds h.holds
  rw [Server.closeListen_frame] at hholds ⊢
  have hlocked : (s.callers tid).locked := by
    rw [hpc]
    rfl
  refine ⟨hholds, ?_⟩
  apply h.placed.callerMoves hlocked .idle <;>
    simp [Server.setCaller, SrvCallerPc.locked]

theorem Server.Owned.sendLock {s : Server} (h : s.Owned) (tid : Nat) (hlock : s.lock = none) :
    (s.sendLock tid).Owned := by
  unfold Server.sendLock
  split
  · exact h
  case isFalse hopen =>
      have hsock : s.clientSock.isSome := by
        cases hclient : s.clientSock with
        | none => simp [hclient] at hopen
        | some k => rfl
      exact ⟨h.holds, h.placed.callerLocks hlock tid (fun _ => hsock)⟩

theorem Server.Owned.sendCall {s : Server} (h : s.Owned) {tid : Nat}
    (hpc : s.callers tid = .sending) : (s.sendCall tid).Owned := by
  have hlocked : (s.callers tid).locked := by
    rw [hpc]
    rfl
  unfold Server.sendCall
  split
  case h_1 =>
      exact ⟨h.holds, h.placed.callerMoves hlocked .idle (by simp) rfl rfl
        (fun hk => hk) (fun hk => hk) rfl rfl⟩
  case h_2 k hsock =>
      refine ⟨h.holds.use ?_, h.placed.callerMoves hlocked .idle (by simp) rfl rfl
        (fun hk => hk) (fun hk => hk) rfl rfl⟩
      simp [Server.held, hsock]

theorem Server.Owned.other {s : Server} (h : s.Owned) {fd : Nat}
    (hfd : ∀ id, s.table.slots fd ≠ some (.own id)) (holder : Option Holder) :
    Server.Owned {s with table := s.table.other fd holder} :=
  ⟨h.holds.other hfd holder, h.placed.client, h.placed.listen, h.placed.taskLock,
    h.placed.callerLock, h.placed.sending, h.placed.starting⟩

/-- Every step keeps the invariant. -/
theorem Server.Owned.step {s s' : Server} {a : SrvAct} (h : s.Owned)
    (hstep : serverSystem.step s a = some s') : s'.Owned := by
  cases Server.does_of_step hstep with
  | start hvacant => exact h.start _ hvacant
  | create created hstart => exact h.create created hstart
  | stopFlag => exact ⟨h.holds, h.placed.setCaller _ rfl false⟩
  | stopLock hpc hlock => exact ⟨h.holds, h.placed.callerLocks hlock _ (by simp)⟩
  | stopClient hpc => exact h.stopClient hpc
  | stopListen hpc => exact h.stopListen hpc
  | sendLock hpc hlock => exact h.sendLock _ hlock
  | sendCall hpc => exact h.sendCall hpc
  | check hpc => split <;> exact h.move hpc s.received ⟨rfl, rfl, rfl, rfl⟩ rfl
  | noSocket hpc => exact h.move hpc s.received ⟨rfl, rfl, rfl, rfl⟩ rfl
  | socket hpc hfd => exact h.obtain hpc hfd rfl rfl rfl rfl rfl rfl
  | bind ok hpc => cases ok <;> exact h.move hpc s.received ⟨rfl, rfl, rfl, rfl⟩ rfl
  | listen ok hpc => cases ok <;> exact h.move hpc s.received ⟨rfl, rfl, rfl, rfl⟩ rfl
  | refused hpc => exact h.refused hpc
  | retry hpc => exact h.move hpc s.received ⟨rfl, rfl, rfl, rfl⟩ rfl
  | publish hpc hlock => exact h.publish hpc hlock
  | inner hpc => split <;> exact h.move hpc s.received ⟨rfl, rfl, rfl, rfl⟩ rfl
  | noAccept hpc => exact h.move hpc s.received ⟨rfl, rfl, rfl, rfl⟩ rfl
  | accept hpc hfd => exact h.obtain hpc hfd rfl rfl rfl rfl rfl rfl
  | publishClient hpc hlock => exact h.publishClient hpc hlock
  | recv data hpc => exact h.recv hpc data
  | dropLock hpc hlock => exact h.taskLocks hpc false hlock ⟨rfl, rfl, rfl, rfl⟩
  | dropClose hpc => exact h.dropClose hpc
  | shutLock hpc hlock => exact h.taskLocks hpc s.connected hlock ⟨rfl, rfl, rfl, rfl⟩
  | shutClose hpc => exact h.shutClose hpc
  | pause hpc => exact h.move hpc s.received ⟨rfl, rfl, rfl, rfl⟩ rfl
  | otherOpen hfd | otherClose hfd =>
      exact h.other (fun id hid => by cases hid.symm.trans hfd) _

/-- In every interleaving the server closes each descriptor once, while it is
its own, sends through open ones only, and has closed them all when `srv_task`
returns. -/
theorem descriptors_always (acts : List SrvAct) :
    serverSystem.Always Server.Descriptors .powerUp acts :=
  (System.always_of_inv (fun _ _ _ h hstep => h.step hstep) Server.owned_powerUp acts).mono
    fun _ h => h.descriptors

end Rw612.Tcp
