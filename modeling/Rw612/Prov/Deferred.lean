import Rw612.Lib.Transition
import Rw612.Lib.WorkQueue
import Rw612.Prov.Store

/-!
The deferred provisioning work of `app_main_zephyr.c`. A write on the Bluetooth
thread stores or deletes the record and then calls `prov_cb`, which submits one
of two work items; the system work queue runs them, statement by statement,
beside further writes.

A COMMIT or RESET whose item is already queued leaves the queue as it is, so
the order of the queue is the order in which the items were first asked for.
The last command is carried out last unless the item of the other command
stands behind its own.
-/

namespace Rw612.Prov

open Lib
open Http (ascii)

inductive Work where
  | connect
  | reset
  deriving DecidableEq, Repr

/-- What the work items do to the rest of the system. -/
inductive Effect where
  | wifiConnect (cfg : AppNvramData)
  | tcpStop
  | wifiDisconnect
  deriving DecidableEq, Repr

/-- The next statement of the work queue thread. -/
inductive WorkPc where
  | idle
  | load
  | wifiConnect
  | tcpStop
  | wifiDisconnect
  | clearApplied
  deriving DecidableEq, Repr

/-- The first statement of `prov_connect_work_fn` or `prov_reset_work_fn`. -/
def Work.entry : Work → WorkPc
  | .connect => .load
  | .reset => .tcpStop

/-- `due` are the events whose callback the Bluetooth thread has still to make,
`last` is the last COMMIT or RESET that was called back. -/
structure Board where
  sys : Sys
  nvramCfg : AppNvramData
  provApplied : Bool
  due : List ProvEvt
  queue : WorkQueue Work
  pc : WorkPc
  effects : List Effect
  last : Option ProvEvt

inductive Move where
  | write (chr : Chr) (buf : List UInt8) (offset : UInt16) (d : NvsAnswer)
  | callback
  | start
  | work (d : NvsAnswer)
  deriving DecidableEq

/-- A board that is started after any earlier sessions, with `prov_cb`
registered. -/
def Board.boot (past : List Act) (d : NvsAnswer) : Board where
  sys := Sys.run (past ++ [.powerCycle, .provInit (some 0) none d])
  nvramCfg := .zero
  provApplied := false
  due := []
  queue := .empty
  pc := .idle
  effects := []
  last := none

/-- `prov_cb` -/
def Board.provCb (b : Board) : ProvEvt → Board
  | .commitOk => {b with queue := b.queue.submit .connect, last := some .commitOk}
  | .reset => {b with queue := b.queue.submit .reset, last := some .reset}
  | _ => b

/-- One statement of `prov_connect_work_fn` or `prov_reset_work_fn`. -/
def Board.workStep (b : Board) (d : NvsAnswer) : Option Board :=
  match b.pc with
  | .idle => none
  | .load =>
      match appNvramLoad b.sys.prov.nvs d b.nvramCfg with
      | (nvs, cfg, rc) =>
          let sys := {b.sys with prov := {b.sys.prov with nvs := nvs}}
          -- a failed load is logged and nothing else
          some {b with
            sys := sys
            nvramCfg := cfg
            pc := if rc = .ok then .wifiConnect else .idle}
  | .wifiConnect =>
      some {b with
        pc := .idle
        effects := b.effects ++ [.wifiConnect b.nvramCfg]}
  | .tcpStop =>
      some {b with pc := .wifiDisconnect, effects := b.effects ++ [.tcpStop]}
  | .wifiDisconnect =>
      some {b with pc := .clearApplied, effects := b.effects ++ [.wifiDisconnect]}
  | .clearApplied => some {b with pc := .idle, provApplied := false}

def boardSystem : System Board Move where
  step b
    | .write chr buf offset d =>
        if b.due = [] then
          some {b with
            sys := b.sys.next (.write chr buf offset d)
            due := (chr.write b.sys.prov d buf offset).2.events}
        else none
    | .callback =>
        match b.due with
        | [] => none
        | evt :: rest => some ({b with due := rest}.provCb evt)
    | .start =>
        match b.pc, b.queue.next with
        | .idle, some (w, queue) => some {b with queue := queue, pc := w.entry}
        | _, _ => none
    | .work d => b.workStep d

/-- Nothing is left to do for the commands so far. -/
structure Board.Drained (b : Board) : Prop where
  due : b.due = []
  queue : b.queue.pending = []
  pc : b.pc = .idle

/-- The last effect is the one that the last command asks for. -/
def Board.LastWins (b : Board) : Prop :=
  (b.last = some .commitOk → ∃ r, b.sys.prov.nvs.cred = some r ∧
    b.effects.getLast? = some (.wifiConnect r)) ∧
  (b.last = some .reset → b.effects.getLast? = some .wifiDisconnect)

/-- The item of the command `evt` is queued, and that of the other command
stands behind it. A connect behind a RESET does nothing once the record is
deleted. -/
def Board.Overtaken (b : Board) : ProvEvt → Prop
  | .commitOk => b.queue.pending = [.connect, .reset]
  | .reset =>
      b.queue.pending = [.reset, .connect] ∧ b.sys.prov.nvs.cred ≠ none
  | _ => False

/-- The steps after the last command: no further write to COMMIT, and the
flash can be read. -/
def Move.Tail : Move → Prop
  | .write chr _ _ _ => chr ≠ .commit
  | .callback => False
  | .start => True
  | .work d => d = .success

/-! Reachable boards. -/

structure Board.Inv (b : Board) : Prop where
  sys : b.sys.Inv
  due : b.due = [] ∨ ∃ evt, b.due = [evt] ∧
    (evt = .commitOk → b.sys.prov.nvs.cred ≠ none)

theorem Board.inv_boot (past : List Act) (d : NvsAnswer) :
    (Board.boot past d).Inv where
  sys := Sys.inv_run _
  due := Or.inl rfl

/-- The events of a write: none, or one that tells the truth about the flash. -/
theorem Chr.write_events (s : SvcProv) (d : NvsAnswer) (buf : List UInt8)
    (offset : UInt16) (chr : Chr) :
    (chr.write s d buf offset).2.events = [] ∨
    ∃ evt, (chr.write s d buf offset).2.events = [evt] ∧
      (evt = .commitOk → (chr.write s d buf offset).1.nvs.cred ≠ none) := by
  cases chr with
  | ssid => exact Or.inl rfl
  | password => exact Or.inl rfl
  | security => exact Or.inl rfl
  | hostIp => exact Or.inl rfl
  | port =>
      left
      simp only [Chr.write, writePort]
      split_ifs <;> rfl
  | commit =>
      have hreport : ∀ (s : SvcProv) evt state len, (s.report evt state len).2.events
          = [] ∨ (s.report evt state len).2.events = [evt] := by
        intro s evt state len
        simp only [SvcProv.report, emit]
        split
        · exact Or.inr rfl
        · exact Or.inl rfl
      rw [Chr.write]
      obtain ⟨err, hw⟩ | ⟨rest, -, hw⟩ | ⟨rest, nvs, evt, state, -, hevt, -, -, hw⟩ |
        ⟨rest, nvs, -, -, hcred, hw⟩ := writeCommit_cases s d buf offset
      · rw [hw]
        exact Or.inl rfl
      · rw [hw]
        exact (hreport _ _ _ _).imp_right fun h => ⟨_, h, fun hc => by cases hc⟩
      · rw [hw]
        exact (hreport _ _ _ _).imp_right fun h => ⟨_, h, fun hc => absurd hc hevt⟩
      · rw [hw]
        refine (hreport _ _ _ _).imp_right fun h => ⟨_, h, fun _ hnone => ?_⟩
        cases hcred.symm.trans hnone

/-- A write to a field changes nothing in flash and emits nothing. -/
theorem Chr.write_field (s : SvcProv) (d : NvsAnswer) (buf : List UInt8)
    (offset : UInt16) {chr : Chr} (h : chr ≠ .commit) :
    (chr.write s d buf offset).1.nvs = s.nvs ∧
      (chr.write s d buf offset).2.events = [] := by
  cases chr with
  | ssid => exact ⟨rfl, rfl⟩
  | password => exact ⟨rfl, rfl⟩
  | security => exact ⟨rfl, rfl⟩
  | hostIp => exact ⟨rfl, rfl⟩
  | port =>
      simp only [Chr.write, writePort]
      split_ifs <;> exact ⟨rfl, rfl⟩
  | commit => exact absurd rfl h

/-- The Bluetooth thread and the flash are as they were. -/
structure Board.Same (b b' : Board) : Prop where
  due : b'.due = b.due
  last : b'.last = b.last
  cred : b'.sys.prov.nvs.cred = b.sys.prov.nvs.cred
  inv : b.sys.Inv → b'.sys.Inv

/-- The work queue thread leaves the record and the events alone. -/
theorem Board.workStep_same {b b' : Board} {d : NvsAnswer}
    (h : b.workStep d = some b') : b.Same b' := by
  unfold Board.workStep at h
  split at h
  case h_1 => cases h
  case h_2 =>
      cases h
      obtain ⟨hcred, -⟩ := appNvramLoad_cases b.sys.prov.nvs d b.nvramCfg
      exact ⟨rfl, rfl, hcred, fun hinv => hinv.nvs hcred⟩
  all_goals
    cases h
    exact ⟨rfl, rfl, rfl, id⟩

theorem Board.start_same {b b' : Board} (h : boardSystem.step b .start = some b') :
    b.Same b' := by
  simp only [boardSystem] at h
  split at h
  · cases h
    exact ⟨rfl, rfl, rfl, id⟩
  · cases h

theorem Board.Inv.same {b b' : Board} (h : b.Inv) (hsame : b.Same b') : b'.Inv where
  sys := hsame.inv h.sys
  due := by
    rw [hsame.due, hsame.cred]
    exact h.due

theorem Board.Inv.step {b b' : Board} {m : Move} (h : b.Inv)
    (hstep : boardSystem.step b m = some b') : b'.Inv := by
  cases m with
  | write chr buf offset d =>
      simp only [boardSystem] at hstep
      split at hstep
      · cases hstep
        exact ⟨h.sys.next (.write chr buf offset d),
          Chr.write_events b.sys.prov d buf offset chr⟩
      · cases hstep
  | callback =>
      simp only [boardSystem] at hstep
      rcases h.due with hdue | ⟨evt, hdue, -⟩
      · rw [hdue] at hstep
        cases hstep
      · rw [hdue] at hstep
        cases hstep
        cases evt <;> exact ⟨h.sys, Or.inl rfl⟩
  | start => exact h.same (Board.start_same hstep)
  | work d => exact h.same (Board.workStep_same hstep)

theorem Board.inv_of_exec {past : List Act} {d : NvsAnswer} {moves : List Move}
    {b : Board} (h : boardSystem.exec (.boot past d) moves = some b) : b.Inv :=
  System.exec_invariant (fun _ _ _ hinv hstep => hinv.step hstep)
    (Board.inv_boot past d) h

/-! What is still going to happen when no command comes any more. -/

/-- The effect of a connect item. -/
def Board.connects (b : Board) : List Effect :=
  (b.sys.prov.nvs.cred.map Effect.wifiConnect).toList

def Board.effectsOf (b : Board) : Work → List Effect
  | .connect => b.connects
  | .reset => [.tcpStop, .wifiDisconnect]

/-- What is left of the running item. -/
def Board.running (b : Board) : List Effect :=
  match b.pc with
  | .idle => []
  | .load => b.connects
  | .wifiConnect => [.wifiConnect b.nvramCfg]
  | .tcpStop => [.tcpStop, .wifiDisconnect]
  | .wifiDisconnect => [.wifiDisconnect]
  | .clearApplied => []

/-- All effects, past ones and those to come. -/
def Board.outlook (b : Board) : List Effect :=
  b.effects ++ b.running ++ b.queue.pending.flatMap b.effectsOf

theorem Board.outlook_eq_of_same {b b' : Board} (hsame : b.Same b')
    (h : b'.effects ++ b'.running ++ b'.queue.pending.flatMap b.effectsOf =
      b.outlook) : b'.outlook = b.outlook := by
  rw [← h, Board.outlook]
  congr 2
  funext w
  cases w <;> simp [Board.effectsOf, Board.connects, hsame.cred]

/-- A statement of the running item moves effects from what is left to what
has happened. -/
theorem Board.outlook_workStep {b b' : Board} (hinv : b.sys.Inv)
    (h : b.workStep .success = some b') : b'.outlook = b.outlook := by
  apply Board.outlook_eq_of_same (Board.workStep_same h)
  cases hpc : b.pc with
  | load =>
      simp only [Board.workStep, hpc] at h
      cases hload : appNvramLoad b.sys.prov.nvs .success b.nvramCfg with
      | mk nvs out =>
          have hout := appNvramLoad_success b.sys.prov.nvs b.nvramCfg
          rw [hload] at h hout
          cases hcred : b.sys.prov.nvs.cred with
          | none =>
              simp only [hcred] at hout
              subst hout
              cases h
              simp [Board.outlook, Board.running, Board.connects, hpc, hcred]
          | some r =>
              simp only [hcred, (hinv.stored r hcred).1.terminate_eq] at hout
              subst hout
              cases h
              simp [Board.outlook, Board.running, Board.connects, hpc, hcred]
  | idle => simp [Board.workStep, hpc] at h
  | wifiConnect | tcpStop | wifiDisconnect | clearApplied =>
      simp only [Board.workStep, hpc] at h
      cases h
      simp [Board.outlook, Board.running, hpc]

theorem Board.outlook_start {b b' : Board}
    (h : boardSystem.step b .start = some b') : b'.outlook = b.outlook := by
  apply Board.outlook_eq_of_same (Board.start_same h)
  simp only [boardSystem] at h
  split at h
  case h_1 w queue hpc hnext =>
      cases h
      rw [WorkQueue.next_eq_some] at hnext
      cases w <;>
        simp [Board.outlook, Board.running, Board.effectsOf, Board.connects,
          Work.entry, hpc, hnext]
  case h_2 => cases h

/-- Along the steps after the last command, all of the effects to come are
known in advance. -/
theorem Board.outlook_step {b b' : Board} {m : Move} (hinv : b.Inv)
    (hdue : b.due = []) (htail : m.Tail)
    (h : boardSystem.step b m = some b') :
    b'.outlook = b.outlook ∧ b'.due = [] ∧ b'.last = b.last ∧
      b'.sys.prov.nvs.cred = b.sys.prov.nvs.cred := by
  cases m with
  | write chr buf offset d =>
      simp only [boardSystem, hdue, if_true] at h
      cases h
      obtain ⟨hnvs, hevents⟩ := Chr.write_field b.sys.prov d buf offset htail
      have hcred : (b.sys.next (.write chr buf offset d)).prov.nvs.cred =
          b.sys.prov.nvs.cred := congrArg Nvs.cred hnvs
      refine ⟨?_, hevents, rfl, hcred⟩
      refine Board.outlook_eq_of_same ⟨hevents.trans hdue.symm, rfl, hcred,
        fun hsys => hsys.next (.write chr buf offset d)⟩ ?_
      simp [Board.outlook, Board.running, Board.connects, hcred]
  | callback => cases htail
  | start =>
      have hsame := Board.start_same h
      exact ⟨Board.outlook_start h, hsame.due.trans hdue, hsame.last, hsame.cred⟩
  | work d =>
      obtain rfl : d = .success := htail
      have hsame := Board.workStep_same h
      exact ⟨Board.outlook_workStep hinv.sys h, hsame.due.trans hdue, hsame.last,
        hsame.cred⟩

theorem Board.outlook_exec {b b' : Board} {moves : List Move} (hinv : b.Inv)
    (hdue : b.due = []) (htail : ∀ m ∈ moves, m.Tail)
    (h : boardSystem.exec b moves = some b') :
    b'.outlook = b.outlook ∧ b'.last = b.last ∧
      b'.sys.prov.nvs.cred = b.sys.prov.nvs.cred := by
  induction moves generalizing b with
  | nil =>
      obtain rfl : b = b' := Option.some.inj h
      exact ⟨rfl, rfl, rfl⟩
  | cons m moves ih =>
      obtain ⟨mid, hmid, hrest⟩ := System.exec_cons_some h
      obtain ⟨houtlook, hdue', hlast, hcred⟩ :=
        Board.outlook_step hinv hdue (htail m (List.mem_cons_self ..)) hmid
      obtain ⟨houtlook', hlast', hcred'⟩ := ih (hinv.step hmid) hdue'
        (fun m hm => htail m (List.mem_cons_of_mem _ hm)) hrest
      exact ⟨houtlook'.trans houtlook, hlast'.trans hlast, hcred'.trans hcred⟩

theorem Board.Drained.outlook {b : Board} (h : b.Drained) :
    b.outlook = b.effects := by
  simp [Board.outlook, Board.running, h.pc, h.queue]

/-! The last command. -/

theorem Work.pending_cases (q : WorkQueue Work) :
    q.pending = [] ∨ q.pending = [.connect] ∨ q.pending = [.reset] ∨
      q.pending = [.connect, .reset] ∨ q.pending = [.reset, .connect] := by
  obtain ⟨pending, h⟩ := q
  rcases pending with _ | ⟨v, _ | ⟨w, _ | ⟨x, rest⟩⟩⟩
  · simp
  · cases v <;> simp
  · cases v <;> cases w <;> simp at h ⊢
  · cases v <;> cases w <;> cases x <;> simp at h

/-- Of the two items one that is queued is the last, unless the other one stands
behind it. -/
theorem Work.getLast_of_ne {q : WorkQueue Work} {v w : Work} (hne : v ≠ w)
    (hq : q.pending ≠ [v, w]) (hv : v ∈ q.pending) :
    q.pending.getLast? = some v := by
  rcases Work.pending_cases q with hp | hp | hp | hp | hp <;>
    cases v <;> cases w <;> simp_all

/-- Whatever ran before, the effects end with those of the queue. -/
theorem Board.outlook_getLast (b : Board) {w : Work} {x : Effect}
    (hpending : b.queue.pending.getLast? = some w)
    (hlast : (b.effectsOf w).getLast? = some x) :
    b.outlook.getLast? = some x := by
  obtain ⟨front, hfront⟩ := List.getLast?_eq_some_iff.mp hpending
  simp [Board.outlook, hfront, List.getLast?_append, hlast]

/-- After the callback of a COMMIT the last effect is known: the connection to
the stored record, unless the reset item is queued behind the connect item. -/
theorem Board.outlook_commit (b : Board) {r : AppNvramData}
    (hcred : b.sys.prov.nvs.cred = some r) :
    (b.provCb .commitOk).outlook.getLast? = some (.wifiConnect r) ↔
      b.queue.pending ≠ [.connect, .reset] := by
  have hconnect : ((b.provCb .commitOk).effectsOf .connect).getLast? =
      some (.wifiConnect r) := by
    simp [Board.provCb, Board.effectsOf, Board.connects, hcred]
  have hreset : ((b.provCb .commitOk).effectsOf .reset).getLast? =
      some .wifiDisconnect := rfl
  by_cases hp : b.queue.pending = [.connect, .reset]
  · have hq : (b.provCb .commitOk).queue.pending = [.connect, .reset] :=
      (WorkQueue.submit_pending_of_mem (by simp [hp])).trans hp
    have hlast := Board.outlook_getLast _ (by rw [hq]; rfl) hreset
    simp [hlast, hp]
  · have hq : (b.provCb .commitOk).queue.pending.getLast? = some .connect :=
      WorkQueue.submit_getLast (Work.getLast_of_ne (by decide) hp)
    exact iff_of_true (Board.outlook_getLast _ hq hconnect) hp

/-- After the callback of a RESET the last effect is the disconnect, unless a
connect item is queued behind the reset item and finds a record. -/
theorem Board.outlook_reset (b : Board) :
    (b.provCb .reset).outlook.getLast? = some .wifiDisconnect ↔
      ¬(b.queue.pending = [.reset, .connect] ∧ b.sys.prov.nvs.cred ≠ none) := by
  have hreset : ((b.provCb .reset).effectsOf .reset).getLast? =
      some .wifiDisconnect := rfl
  by_cases hp : b.queue.pending = [.reset, .connect]
  · have hq : (b.provCb .reset).queue.pending = [.reset, .connect] :=
      (WorkQueue.submit_pending_of_mem (by simp [hp])).trans hp
    cases hcred : b.sys.prov.nvs.cred with
    | none =>
        -- the connect item finds no record, so the reset item acts last
        have hnone : (b.provCb .reset).effectsOf .connect = [] := by
          simp [Board.provCb, Board.effectsOf, Board.connects, hcred]
        rw [Board.outlook, hq, List.flatMap_cons, List.flatMap_singleton, hnone,
          List.append_nil, List.getLast?_append, hreset]
        simp
    | some r =>
        have hconnect : ((b.provCb .reset).effectsOf .connect).getLast? =
            some (.wifiConnect r) := by
          simp [Board.provCb, Board.effectsOf, Board.connects, hcred]
        have hlast := Board.outlook_getLast _ (by rw [hq]; rfl) hconnect
        simp [hlast, hp]
  · have hq : (b.provCb .reset).queue.pending.getLast? = some .reset :=
      WorkQueue.submit_getLast (Work.getLast_of_ne (by decide) hp)
    exact iff_of_true (Board.outlook_getLast _ hq hreset) (fun h => hp h.1)

/-- The last command of a run is carried out last if and only if its item was
not queued ahead of the item of the other command. `b` is the state in which
`prov_cb` receives that command. -/
theorem last_command_wins_iff {past : List Act} {d : NvsAnswer}
    {front back : List Move} {b b' : Board} {evt : ProvEvt}
    (hfront : boardSystem.exec (.boot past d) front = some b)
    (hdue : b.due = [evt]) (hevt : evt = .commitOk ∨ evt = .reset)
    (hrun : boardSystem.exec b (.callback :: back) = some b')
    (htail : ∀ m ∈ back, m.Tail) (hdrained : b'.Drained) :
    b'.LastWins ↔ ¬b.Overtaken evt := by
  have hinv := Board.inv_of_exec hfront
  obtain ⟨mid, hmid, hback⟩ := System.exec_cons_some hrun
  have hmidinv := hinv.step hmid
  simp only [boardSystem, hdue, Option.some.injEq] at hmid
  have hmiddue : mid.due = [] := by
    rw [← hmid]
    cases evt <;> rfl
  obtain ⟨houtlook, hlast, hcred⟩ :=
    Board.outlook_exec hmidinv hmiddue htail hback
  rw [hdrained.outlook] at houtlook
  rw [Board.LastWins, houtlook, hlast, hcred]
  rcases hevt with rfl | rfl
  · rcases hinv.due with hnone | ⟨evt, hevt, hstored⟩
    · cases hdue.symm.trans hnone
    · obtain rfl : .commitOk = evt := by
        simpa using hdue.symm.trans hevt
      obtain ⟨r, hr⟩ := Option.ne_none_iff_exists'.mp (hstored rfl)
      have hcommit := Board.outlook_commit {b with due := []} hr
      rw [hmid] at hcommit
      have hmidcred : mid.sys.prov.nvs.cred = some r := by rw [← hmid]; exact hr
      have hmidlast : mid.last = some .commitOk := by rw [← hmid]; rfl
      simp only [hmidcred, hmidlast, hcommit, Option.some.injEq, true_implies,
        exists_eq_left', reduceCtorEq, false_implies, and_true, Board.Overtaken,
        ne_eq]
  · have hreset := Board.outlook_reset {b with due := []}
    rw [hmid] at hreset
    have hmidlast : mid.last = some .reset := by rw [← hmid]; rfl
    simp only [hmidlast, hreset, Option.some.injEq, reduceCtorEq, false_implies,
      true_implies, true_and, Board.Overtaken]

/-- One client command after the four fields it needs. -/
def provisionMoves : List Move :=
  [.write .ssid (ascii "lab") 0 .success,
    .write .security (ascii "OPEN") 0 .success,
    .write .hostIp (ascii "10.0.0.2") 0 .success,
    .write .port [0x90, 0x1F] 0 .success,
    .write .commit [APP_PROV_OP_COMMIT] 0 .success]

/-- A RESET whose item is still queued when the four fields and COMMIT are written. -/
def resetProvision : List Move :=
  [.write .commit [APP_PROV_OP_RESET] 0 .success, .callback] ++ provisionMoves

/-- The work queue thread carries out both items. -/
def carryOut : List Move :=
  [.start, .work .success, .work .success, .work .success, .start, .work .success,
    .work .success]

theorem last_command_wins_iff_queuedReset : ∃ b b',
    boardSystem.exec (.boot [] .success) resetProvision = some b ∧
    b.queue.pending = [.reset] ∧ b.due = [.commitOk] ∧
    boardSystem.exec b (.callback :: carryOut) = some b' ∧ b'.LastWins := by
  obtain ⟨b, hb, hwaits⟩ := Option.map_eq_some_iff.mp
    (show (boardSystem.exec (.boot [] .success) resetProvision).map
      (fun b => (b.queue.pending, b.due)) = some ([.reset], [.commitOk]) by decide +kernel)
  obtain ⟨b', hb', hdrained⟩ := Option.map_eq_some_iff.mp
    (show ((boardSystem.exec (.boot [] .success) resetProvision).bind
        (boardSystem.exec · (.callback :: carryOut))).map
        (fun b => (b.due, b.queue.pending, b.pc)) = some ([], [], .idle) by
      decide +kernel)
  rw [hb] at hb'
  simp only [Prod.mk.injEq] at hwaits hdrained
  refine ⟨b, b', hb, hwaits.1, hwaits.2, hb', ?_⟩
  refine (last_command_wins_iff hb hwaits.2 (Or.inl rfl) hb' (by simp [Move.Tail, carryOut])
    ⟨hdrained.1, hdrained.2.1, hdrained.2.2⟩).mpr ?_
  simp [Board.Overtaken, hwaits.1]

/-- After every drained run the last effect is that of the last command. -/
def LastCommandWins : Prop :=
  ∀ past d moves b, boardSystem.exec (.boot past d) moves = some b →
    b.Drained → b.LastWins

/-- COMMIT, RESET and COMMIT again before the work queue runs: the record is
stored and COMMITTED is reported, and then the board disconnects. -/
def commitResetCommit : List Move :=
  provisionMoves ++ [.callback, .write .commit [APP_PROV_OP_RESET] 0 .success,
    .callback] ++ provisionMoves ++ [.callback, .start, .work .success,
    .work .success, .start, .work .success, .work .success, .work .success]

theorem not_lastCommandWins : ¬LastCommandWins := by
  intro h
  obtain ⟨b, hb, hend⟩ := Option.map_eq_some_iff.mp
    (show (boardSystem.exec (.boot [] .success) commitResetCommit).map
        (fun b => (b.due, b.queue.pending, b.pc, b.last, b.effects.getLast?)) =
        some ([], [], .idle, some .commitOk, some .wifiDisconnect) by
      decide +kernel)
  simp only [Prod.mk.injEq] at hend
  obtain ⟨hdue, hqueue, hpc, hlast, heffect⟩ := hend
  obtain ⟨r, -, hconnect⟩ := (h [] .success _ b hb ⟨hdue, hqueue, hpc⟩).1 hlast
  cases heffect.symm.trans hconnect

end Rw612.Prov
