import Rw612.Prov.Deferred

/-!
The copy of the credentials that boot makes. `bt_ready_cb` fills `s_nvram_cfg`
from flash and starts the Wi-Fi driver; when the driver is ready, `wifi_cb`
connects with that copy. RESET deletes the record in flash and clears the
staging record, and its work item takes the station down, but nothing clears
`s_nvram_cfg`.

`bt_ready_cb`, the Bluetooth thread, the system work queue and the event thread
of the network stack run their statements in any order. READY comes from the
event thread or, if no `NET_EVENT_IF_UP` came in time, from `s_ready_dwork` on
the work queue.
-/

namespace Rw612.Prov

open Lib
open Http (ascii)

/-- The next statement of `bt_ready_cb`, as far as it is about the record; the
last two are those of `app_wifi_init`. -/
inductive BootPc where
  | nvramInit
  | provInit
  | clearCfg
  | loadCfg
  | listen
  | scheduleReady
  | done
  deriving DecidableEq, Repr

/-- The threads that run `wifi_cb` for READY: that of `iface_event_handler` and
that of `ready_work_fn`. -/
inductive ReadyThread where
  | events
  | worker
  deriving DecidableEq, Repr

/-- The next statement of such a thread: `k_work_cancel_delayable`, the store
to `s_started`, and the test and the call in `wifi_cb`. -/
inductive ReadyPc where
  | idle
  | cancel
  | setStarted
  | check
  | connect
  deriving DecidableEq, Repr

/-- The reset item of a RESET that deleted the record. -/
inductive ResetWork where
  | waiting
  | queued
  | running
  | done
  deriving DecidableEq, Repr

/-- The board with `bt_ready_cb` and the start of `app_wifi.c`. `ahead` is the
number of items queued before that of `s_ready_dwork`, if it is queued.

`erased` is the record that a RESET deleted, until the next COMMIT stores one,
with what became of the reset item. -/
structure App where
  board : Board
  boot : BootPc
  listening : Bool
  started : Bool
  armed : Bool
  ahead : Option Nat
  ready : ReadyThread → ReadyPc
  erased : Option (AppNvramData × ResetWork)

inductive AppMove where
  | board (m : Move)
  | boot (d : NvsAnswer) (iface : Bool)
  | ifUp
  | expire
  | startReady
  | ready (t : ReadyThread)
  deriving DecidableEq

/-- Power comes on after any earlier sessions. -/
def App.powerUp (past : List Act) : App where
  board :=
    { sys := Sys.run (past ++ [.powerCycle])
      nvramCfg := .zero
      provApplied := false
      due := []
      queue := .empty
      pc := .idle
      effects := []
      last := none }
  boot := .nvramInit
  listening := false
  started := false
  armed := false
  ahead := none
  ready := fun _ => .idle
  erased := none

def ResetWork.advance (w v : ResetWork) (e : Option (AppNvramData × ResetWork)) :
    Option (AppNvramData × ResetWork) :=
  e.map fun (r, u) => (r, if u = w then v else u)

/-- The history after a move that leads to `b`. The record leaves the flash with
a RESET whose delete succeeded and comes with a COMMIT that succeeded. -/
def App.track (s : App) (m : Move) (b : Board) : Option (AppNvramData × ResetWork) :=
  match m with
  | .write .. =>
      match b.sys.prov.nvs.cred, s.board.sys.prov.nvs.cred with
      | none, some r => some (r, .waiting)
      | none, none => s.erased
      | some _, _ => none
  | .callback =>
      if s.board.due.head? = some .reset then
        ResetWork.advance .waiting .queued s.erased
      else s.erased
  | .start =>
      if b.pc = Work.entry .reset then
        ResetWork.advance .queued .running s.erased
      else s.erased
  | .work _ =>
      if s.board.pc = .clearApplied then
        ResetWork.advance .running .done s.erased
      else s.erased

/-- One statement of `bt_ready_cb`. -/
def App.bootStep (s : App) (d : NvsAnswer) (iface : Bool) : Option App :=
  let b := s.board
  match s.boot with
  | .nvramInit =>
      some {s with boot := .provInit, board := {b with sys := b.sys.next (.nvramInit d)}}
  | .provInit =>
      some {s with
        boot := .clearCfg
        board := {b with sys := b.sys.next (.provInit (some 0) none d)}}
  | .clearCfg =>
      some {s with boot := .loadCfg, board := {b with nvramCfg := .zero}}
  | .loadCfg =>
      match appNvramLoad b.sys.prov.nvs d b.nvramCfg with
      | (nvs, cfg, _) =>
          let sys := {b.sys with prov := {b.sys.prov with nvs := nvs}}
          some {s with boot := .listen, board := {b with sys := sys, nvramCfg := cfg}}
  | .listen =>
      if iface then
        some {s with boot := .scheduleReady, listening := true, started := false}
      else some {s with boot := .done}
  | .scheduleReady => some {s with boot := .done, armed := true}
  | .done => none

def App.setReady (s : App) (t : ReadyThread) (pc : ReadyPc) : App :=
  {s with ready := Function.update s.ready t pc}

/-- One statement of thread `t` on the way to `app_wifi_connect`. -/
def App.readyStep (s : App) (t : ReadyThread) : Option App :=
  match s.ready t with
  | .idle => none
  | .cancel => some {s.setReady t .setStarted with armed := false, ahead := none}
  | .setStarted => some {s.setReady t .check with started := true}
  | .check =>
      some (s.setReady t (if appNvramIsValid s.board.nvramCfg then .connect else .idle))
  | .connect =>
      some {s.setReady t .idle with
        board := {s.board with
          effects := s.board.effects ++ [.wifiConnect s.board.nvramCfg]}}

/-- Whether the worker can take the next item of `prov_cb`. -/
def App.MayStart (s : App) : Prop :=
  s.ahead ≠ some 0 ∧ s.ready .worker = .idle

instance (s : App) : Decidable s.MayStart :=
  inferInstanceAs (Decidable (_ ∧ _))

def App.boardStep (s : App) (m : Move) : Option App :=
  match boardSystem.step s.board m with
  | none => none
  | some b =>
      match m with
      | .start =>
          if s.MayStart then
            some {s with
              board := b
              ahead := s.ahead.map (· - 1)
              erased := s.track m b}
          else none
      | _ => some {s with board := b, erased := s.track m b}

def appSystem : System App AppMove where
  step s
    | .board m => s.boardStep m
    | .boot d iface => s.bootStep d iface
    | .ifUp =>
        if s.listening = true ∧ s.ready .events = .idle then
          if s.started then some s else some (s.setReady .events .cancel)
        else none
    | .expire =>
        if s.armed then
          some {s with armed := false, ahead := some s.board.queue.pending.length}
        else none
    | .startReady =>
        if s.ahead = some 0 ∧ s.board.pc = .idle ∧ s.ready .worker = .idle then
          let s' := {s with ahead := none}
          some (if s.started then s' else s'.setReady .worker .setStarted)
        else none
    | .ready t => s.readyStep t

/-- Only a RESET whose delete succeeded takes the record away. -/
theorem Chr.write_deletes {s : SvcProv} {d : NvsAnswer} {buf : List UInt8}
    {offset : UInt16} {chr : Chr} {r : AppNvramData} (hcred : s.nvs.cred = some r)
    (hgone : (chr.write s d buf offset).1.nvs.cred = none) :
    chr = .commit ∧ buf.head? = some APP_PROV_OP_RESET ∧
      (appNvramReset s.nvs d).2 = .ok := by
  by_cases hchr : chr = .commit
  case neg =>
      rw [(Chr.write_field s d buf offset hchr).1] at hgone
      cases hgone.symm.trans hcred
  subst hchr
  rw [Chr.write] at hgone
  rcases writeCommit_cases s d buf offset with ⟨err, hw⟩ | ⟨rest, hbuf, hw⟩ |
    ⟨rest, nvs, evt, state, -, -, -, hkept, hw⟩ | ⟨rest, nvs, -, -, hstored, hw⟩
  · rw [hw] at hgone
    cases hgone.symm.trans hcred
  · rw [hw] at hgone
    rcases appNvramReset_cases s.nvs d with ⟨hok, -⟩ | hkept
    · exact ⟨rfl, by simp [hbuf], hok⟩
    · cases (hkept.symm.trans hgone).symm.trans hcred
  · rw [hw] at hgone
    cases (hkept.symm.trans hgone).symm.trans hcred
  · rw [hw] at hgone
    cases hstored.symm.trans hgone

/-- Only a COMMIT that succeeded puts one there. -/
theorem Chr.write_stores {s : SvcProv} {d : NvsAnswer} {buf : List UInt8}
    {offset : UInt16} {chr : Chr} {r : AppNvramData} (hcred : s.nvs.cred = none)
    (hstored : (chr.write s d buf offset).1.nvs.cred = some r) :
    chr = .commit ∧ buf.head? = some APP_PROV_OP_COMMIT ∧
      (chr.write s d buf offset).2.notified = [APP_PROV_STATE_COMMITTED] := by
  by_cases hchr : chr = .commit
  case neg =>
      rw [(Chr.write_field s d buf offset hchr).1] at hstored
      cases hstored.symm.trans hcred
  subst hchr
  rw [Chr.write] at hstored ⊢
  rcases writeCommit_cases s d buf offset with ⟨err, hw⟩ | ⟨rest, hbuf, hw⟩ |
    ⟨rest, nvs, evt, state, -, -, -, hkept, hw⟩ | ⟨rest, nvs, hbuf, -, -, hw⟩
  · rw [hw] at hstored
    cases hstored.symm.trans hcred
  · rw [hw] at hstored
    have hnone : (appNvramReset s.nvs d).1.cred = none := by
      rcases appNvramReset_cred s.nvs d with hnone | hkept
      · exact hnone
      · exact hkept.trans hcred
    cases hstored.symm.trans hnone
  · rw [hw] at hstored
    cases (hkept.symm.trans hstored).symm.trans hcred
  · rw [hw]
    exact ⟨rfl, by simp [hbuf], rfl⟩

/-! What every run keeps: a deleted record stays deleted, and the worker is not
about to connect once the reset item has run. -/

structure App.Inv (s : App) : Prop where
  gone : s.erased ≠ none → s.board.sys.prov.nvs.cred = none
  pc : ∀ r, s.erased = some (r, .done) → s.board.pc ≠ .wifiConnect

theorem App.inv_powerUp (past : List Act) : (App.powerUp past).Inv where
  gone h := absurd rfl h
  pc r h := by cases h

theorem ResetWork.advance_eq_none {w v : ResetWork}
    {e : Option (AppNvramData × ResetWork)} :
    ResetWork.advance w v e = none ↔ e = none := by
  simp [ResetWork.advance]

/-- Only the end of the reset item counts as done. -/
theorem ResetWork.advance_done {w v : ResetWork} {r : AppNvramData}
    {e : Option (AppNvramData × ResetWork)} (hv : v ≠ .done)
    (h : ResetWork.advance w v e = some (r, .done)) : e = some (r, .done) := by
  obtain ⟨⟨r', u⟩, he, heq⟩ := Option.map_eq_some_iff.mp h
  simp only [Prod.mk.injEq] at heq
  obtain ⟨rfl, hu⟩ := heq
  split_ifs at hu
  · exact absurd hu hv
  · rw [he, hu]

/-- Steps that leave the record, the history and the worker alone. -/
theorem App.Inv.same {s s' : App} (h : s.Inv) (herased : s'.erased = s.erased)
    (hcred : s'.board.sys.prov.nvs.cred = s.board.sys.prov.nvs.cred)
    (hpc : s'.board.pc = s.board.pc) : s'.Inv where
  gone he := hcred.trans (h.gone (herased ▸ he))
  pc r he := hpc ▸ h.pc r (herased ▸ he)

theorem App.boardStep_cases {s s' : App} {m : Move} (h : s.boardStep m = some s') :
    boardSystem.step s.board m = some s'.board ∧ s'.erased = s.track m s'.board := by
  unfold App.boardStep at h
  cases hstep : boardSystem.step s.board m with
  | none =>
      rw [hstep] at h
      cases h
  | some b =>
      rw [hstep] at h
      cases m with
      | start =>
          dsimp only at h
          split at h
          · cases h
            exact ⟨rfl, rfl⟩
          · cases h
      | write chr buf offset d =>
          cases h
          exact ⟨rfl, rfl⟩
      | callback =>
          cases h
          exact ⟨rfl, rfl⟩
      | work d =>
          cases h
          exact ⟨rfl, rfl⟩

/-- Boot reads the record, and fills `s_nvram_cfg`. -/
theorem App.bootStep_same {s s' : App} {d : NvsAnswer} {iface : Bool}
    (h : s.bootStep d iface = some s') :
    s'.erased = s.erased ∧ s'.board.effects = s.board.effects ∧
      s'.board.sys.prov.nvs.cred = s.board.sys.prov.nvs.cred ∧
      s'.board.pc = s.board.pc := by
  unfold App.bootStep at h
  cases hboot : s.boot with
  | nvramInit =>
      simp only [hboot] at h
      cases h
      exact ⟨rfl, rfl, appNvramInit_cred _ d, rfl⟩
  | provInit =>
      simp only [hboot] at h
      cases h
      exact ⟨rfl, rfl, (appNvramLoad_cases s.board.sys.prov.nvs d .zero).1, rfl⟩
  | loadCfg =>
      simp only [hboot] at h
      cases h
      exact ⟨rfl, rfl,
        (appNvramLoad_cases s.board.sys.prov.nvs d s.board.nvramCfg).1, rfl⟩
  | clearCfg | scheduleReady =>
      simp only [hboot] at h
      cases h
      exact ⟨rfl, rfl, rfl, rfl⟩
  | listen =>
      simp only [hboot] at h
      cases iface with
      | true =>
          cases h
          exact ⟨rfl, rfl, rfl, rfl⟩
      | false =>
          cases h
          exact ⟨rfl, rfl, rfl, rfl⟩
  | done =>
      simp only [hboot] at h
      cases h

/-- READY does nothing to the board but its call of `app_wifi_connect`. -/
theorem App.readyStep_same {s s' : App} {t : ReadyThread}
    (h : s.readyStep t = some s') :
    s'.erased = s.erased ∧
      s'.board.sys.prov.nvs.cred = s.board.sys.prov.nvs.cred ∧
      s'.board.pc = s.board.pc ∧
      (s'.board.effects = s.board.effects ∨
        s.ready t = .connect ∧ s'.board.effects =
          s.board.effects ++ [.wifiConnect s.board.nvramCfg]) := by
  unfold App.readyStep at h
  cases hready : s.ready t with
  | idle =>
      simp only [hready] at h
      cases h
  | cancel | setStarted | check =>
      simp only [hready] at h
      cases h
      exact ⟨rfl, rfl, rfl, Or.inl rfl⟩
  | connect =>
      simp only [hready] at h
      cases h
      exact ⟨rfl, rfl, rfl, Or.inr ⟨rfl, rfl⟩⟩

/-- The moves that only get READY under way. -/
theorem App.idle_same {s s' : App} {m : AppMove}
    (hm : m = .ifUp ∨ m = .expire ∨ m = .startReady)
    (h : appSystem.step s m = some s') :
    s'.erased = s.erased ∧ s'.board = s.board := by
  rcases hm with rfl | rfl | rfl
  · simp only [appSystem] at h
    split_ifs at h
    · cases h
      exact ⟨rfl, rfl⟩
    · cases h
      exact ⟨rfl, rfl⟩
  · simp only [appSystem] at h
    split_ifs at h
    cases h
    exact ⟨rfl, rfl⟩
  · simp only [appSystem] at h
    split_ifs at h
    · cases h
      exact ⟨rfl, rfl⟩
    · cases h
      exact ⟨rfl, rfl⟩

/-! The moves of the board. -/

/-- Only a write changes the record in flash. -/
theorem Board.step_cred {b b' : Board} {m : Move}
    (h : boardSystem.step b m = some b')
    (hm : ∀ chr buf offset d, m ≠ .write chr buf offset d) :
    b'.sys.prov.nvs.cred = b.sys.prov.nvs.cred := by
  cases m with
  | write chr buf offset d => exact absurd rfl (hm chr buf offset d)
  | callback =>
      simp only [boardSystem] at h
      split at h
      case h_1 => cases h
      case h_2 evt rest hdue =>
          cases h
          cases evt <;> rfl
  | start => exact (Board.start_same h).cred
  | work d => exact (Board.workStep_same h).cred

/-- The connect item gets past its load only with a record. -/
theorem Board.workStep_wifiConnect {b b' : Board} {d : NvsAnswer}
    (h : b.workStep d = some b') (hpc : b'.pc = .wifiConnect) :
    b.sys.prov.nvs.cred ≠ none := by
  unfold Board.workStep at h
  split at h
  case h_2 =>
      have hload := (appNvramLoad_cases b.sys.prov.nvs d b.nvramCfg).2
      rw [Option.some.injEq] at h
      rw [← h] at hpc
      rcases hload with ⟨hrc, -⟩ | ⟨r, hr, -⟩
      · simp [hrc] at hpc
      · simp [hr]
  all_goals
    cases h
    try cases hpc

/-- The worker is about to connect if it was, or if there is a record. -/
theorem Board.step_wifiConnect {b b' : Board} {m : Move}
    (h : boardSystem.step b m = some b') (hpc : b'.pc = .wifiConnect) :
    b.pc = .wifiConnect ∨ b'.sys.prov.nvs.cred ≠ none := by
  cases m with
  | write chr buf offset d =>
      left
      simp only [boardSystem] at h
      split_ifs at h
      cases h
      exact hpc
  | callback =>
      left
      simp only [boardSystem] at h
      split at h
      case h_1 => cases h
      case h_2 evt rest hdue =>
          cases h
          cases evt <;> exact hpc
  | start =>
      simp only [boardSystem] at h
      split at h
      case h_1 w queue hidle hnext =>
          cases h
          cases w <;> simp [Work.entry] at hpc
      case h_2 => cases h
  | work d =>
      right
      rw [Board.step_cred h (by simp)]
      exact Board.workStep_wifiConnect h hpc

/-- A record counts as deleted only while there is none. -/
theorem App.track_gone {s : App} {m : Move} {b : Board} (h : s.Inv)
    (hstep : boardSystem.step s.board m = some b) (he : s.track m b ≠ none) :
    b.sys.prov.nvs.cred = none := by
  cases m with
  | write chr buf offset d =>
      simp only [App.track] at he
      split at he
      · assumption
      · assumption
      · exact absurd rfl he
  | callback | start | work d =>
      rw [Board.step_cred hstep (by simp)]
      apply h.gone
      simp only [App.track] at he
      split_ifs at he
      · exact mt ResetWork.advance_eq_none.mpr he
      · exact he

/-- The reset item is done when its last statement is. -/
theorem App.track_done {s : App} {m : Move} {b : Board} {r : AppNvramData}
    (he : s.track m b = some (r, .done)) :
    s.erased = some (r, .done) ∨ s.board.pc = .clearApplied := by
  cases m with
  | write chr buf offset d =>
      left
      simp only [App.track] at he
      split at he
      · cases he
      · exact he
      · cases he
  | callback | start =>
      left
      simp only [App.track] at he
      split_ifs at he
      · exact ResetWork.advance_done (by decide) he
      · exact he
  | work d =>
      simp only [App.track] at he
      split_ifs at he with hpc
      · exact Or.inr hpc
      · exact Or.inl he

theorem App.track_pc {s : App} {m : Move} {b : Board} (h : s.Inv)
    (hstep : boardSystem.step s.board m = some b) {r : AppNvramData}
    (he : s.track m b = some (r, .done)) : b.pc ≠ .wifiConnect := by
  intro hpc
  rcases Board.step_wifiConnect hstep hpc with hconnect | hcred
  · rcases App.track_done he with herased | hclear
    · exact h.pc r herased hconnect
    · cases hclear.symm.trans hconnect
  · apply hcred
    apply App.track_gone h hstep
    simp [he]

theorem App.Inv.step {s s' : App} {m : AppMove} (h : s.Inv)
    (hstep : appSystem.step s m = some s') : s'.Inv := by
  cases m with
  | board m =>
      obtain ⟨hboard, herased⟩ := App.boardStep_cases hstep
      constructor
      · intro he
        exact App.track_gone h hboard (herased ▸ he)
      · intro r he
        exact App.track_pc h hboard (herased ▸ he)
  | boot d iface =>
      obtain ⟨herased, -, hcred, hpc⟩ := App.bootStep_same hstep
      exact h.same herased hcred hpc
  | ready t =>
      obtain ⟨herased, hcred, hpc, -⟩ := App.readyStep_same hstep
      exact h.same herased hcred hpc
  | ifUp | expire | startReady =>
      obtain ⟨herased, hboard⟩ := App.idle_same (by simp) hstep
      exact h.same herased (by rw [hboard]) (by rw [hboard])

/-! The calls of `app_wifi_connect`. -/

end Rw612.Prov
