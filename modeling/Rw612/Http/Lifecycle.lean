import Rw612.Http.Task

/-!
Who writes `s_running` and `s_state`, and when `http_task_data` is handed to
`k_thread_create`. Here a start is the sequence of its accesses to the two
variables, and a task is the control flow of `http_task` between its accesses:
what the network, the flash and the URLs decide is left open. Any thread may step
at any time, and a task that is blocked just does not step.

Starts are numbered in the order in which they set `s_running`, and a task has
the number of its start.
-/

namespace Rw612.Http

open Lib Lib.CString

/-- The two requests of a task. -/
inductive Fetch where
  | image
  | header
  deriving DecidableEq, Repr

/-- What a task does next. -/
inductive TaskPc where
  | getStatus
  | resolving (f : Fetch)
  | connecting (f : Fetch)
  | requesting (f : Fetch)
  | readHead (f : Fetch)
  | beginBody (f : Fetch)
  | poll (f : Fetch)
  | readBody (f : Fetch)
  | fetched (f : Fetch)
  | headerDl
  | committing
  | commit
  | abort
  | ending (state : HttpState)
  | clear
  | leave
  | returned
  deriving DecidableEq, Repr

/-- The value that the step at `pc` stores in `s_state`. -/
def TaskPc.stores : TaskPc → Option HttpState
  | .resolving _ => some .resolving
  | .connecting _ => some .connecting
  | .requesting _ => some .requesting
  | .beginBody .image => some .downloading
  | .beginBody .header => some .headerDl
  | .headerDl => some .headerDl
  | .committing => some .committing
  | .ending state => some state
  | _ => none

/-- Where the step at `pc` may lead, given the value of `s_running` it reads. -/
def TaskPc.next (running : Bool) : TaskPc → List TaskPc
  | .getStatus => [.resolving .image, .abort]
  | .resolving f => [.connecting f, .abort]
  | .connecting f => [.requesting f, .abort]
  | .requesting f => [.readHead f, .abort]
  | .readHead f => [.resolving f, .beginBody f, .abort]
  | .beginBody f => [.poll f, .abort]
  | .poll f => if running then [.readBody f] else [.abort]
  | .readBody f => [.poll f, .fetched f, .abort]
  | .fetched .image => [.headerDl, .committing, .ending .done]
  | .fetched .header => [.committing, .ending .done]
  | .headerDl => [.resolving .header, .abort]
  | .committing => [.commit]
  | .commit => [.ending .done, .abort]
  | .abort => [.ending .failed]
  | .ending _ => [.clear]
  | .clear => [.leave]
  | .leave => [.returned]
  | .returned => []

/-- Where a thread is in `app_ota_http_start`. -/
inductive StartPc where
  | idle
  | checked
  | flagged (n : Nat)
  | creating (n : Nat)
  | undoing
  | failing
  deriving DecidableEq, Repr

/-- The number of a start that has set `s_running` and not yet called
`k_thread_create`. -/
def StartPc.holds : StartPc → Option Nat
  | .flagged n => some n
  | .creating n => some n
  | _ => none

/-- `starts` counts how often `app_ota_http_start` has set `s_running`. -/
structure Life where
  running : Bool
  state : HttpState
  callers : Nat → StartPc
  tasks : Nat → Option TaskPc
  starts : Nat

def Life.powerUp : Life where
  running := false
  state := .idle
  callers _ := .idle
  tasks _ := none
  starts := 0

inductive LifeAct where
  | check (tid : Nat)
  | reject (tid : Nat)
  | setRunning (tid : Nat)
  | setState (tid : Nat)
  | create (tid : Nat) (created : Bool)
  | undo (tid : Nat)
  | stop
  | task (n : Nat) (pc : TaskPc)
  deriving DecidableEq, Repr

def Life.setCaller (s : Life) (tid : Nat) (pc : StartPc) : Life :=
  {s with callers := Function.update s.callers tid pc}

/-- `s_running = true` -/
def Life.setRunning (s : Life) (tid : Nat) : Life :=
  {s.setCaller tid (.flagged s.starts) with running := true, starts := s.starts + 1}

/-- `s_state = APP_OTA_HTTP_RESOLVING` -/
def Life.setState (s : Life) (tid n : Nat) : Life :=
  {s.setCaller tid (.creating n) with state := .resolving}

/-- `s_running = false`, after `k_thread_create` has returned NULL. -/
def Life.undoRunning (s : Life) (tid : Nat) : Life :=
  {s.setCaller tid .failing with running := false}

/-- `s_state = APP_OTA_HTTP_FAILED`, after that. -/
def Life.undoState (s : Life) (tid : Nat) : Life :=
  {s.setCaller tid .idle with state := .failed}

/-- `k_thread_create` has yielded a thread. -/
def Life.create (s : Life) (tid n : Nat) : Life :=
  {s.setCaller tid .idle with
    tasks := Function.update s.tasks n (some .getStatus)}

def Life.runTask (s : Life) (n : Nat) (pc pc' : TaskPc) : Life :=
  {s with
    running := if pc = .clear then false else s.running
    state := pc.stores.getD s.state
    tasks := Function.update s.tasks n (some pc')}

/-- Starts, stops and tasks, in any interleaving. -/
def lifeSystem : System Life LifeAct where
  step s
    | .check tid =>
        match s.callers tid with
        | .idle => some (if s.running then s else s.setCaller tid .checked)
        | _ => none
    -- `app_ota_init` or a URL fails
    | .reject tid =>
        match s.callers tid with
        | .checked => some (s.setCaller tid .idle)
        | _ => none
    | .setRunning tid =>
        match s.callers tid with
        | .checked => some (s.setRunning tid)
        | _ => none
    | .setState tid =>
        match s.callers tid with
        | .flagged n => some (s.setState tid n)
        | _ => none
    | .create tid created =>
        match s.callers tid with
        | .creating n =>
            some (if created then s.create tid n else s.setCaller tid .undoing)
        | _ => none
    | .undo tid =>
        match s.callers tid with
        | .undoing => some (s.undoRunning tid)
        | .failing => some (s.undoState tid)
        | _ => none
    | .stop => some {s with running := false}
    | .task n pc' =>
        match s.tasks n with
        | some pc =>
            if pc' ∈ pc.next s.running then some (s.runTask n pc pc') else none
        | none => none

/-- Task `n` has been created and has not returned. -/
def Life.Live (s : Life) (n : Nat) : Prop :=
  ∃ pc, s.tasks n = some pc ∧ pc ≠ .returned

/-- `http_task_data` is not handed out while a task is live, and only the task
of the latest start stores to `s_state` or clears `s_running`. -/
def Exclusive (s : Life) : LifeAct → Prop
  | .create _ _ => ∀ n, ¬ s.Live n
  | .task n _ =>
      ∀ pc, s.tasks n = some pc → pc.stores ≠ none ∨ pc = .clear → n + 1 = s.starts
  | _ => True

/-- `s_running` is set only while no task is live and no other start is between
setting it and `k_thread_create`. -/
def TakesFree (s : Life) : LifeAct → Prop
  | .setRunning _ => (∀ n, ¬ s.Live n) ∧ ∀ tid, (s.callers tid).holds = none
  | _ => True

/-- There is at most one start that holds the flag or one live task, and it is
the latest. -/
structure Life.Inv (s : Life) : Prop where
  live : ∀ n, s.Live n → n + 1 = s.starts
  held : ∀ tid n, (s.callers tid).holds = some n → n + 1 = s.starts
  apart : ∀ tid n, (s.callers tid).holds = some n → ∀ m, ¬ s.Live m
  unique : ∀ tid tid' n n', (s.callers tid).holds = some n →
    (s.callers tid').holds = some n' → tid = tid'

theorem Life.inv_powerUp : Life.powerUp.Inv where
  live := by simp [Life.Live, Life.powerUp]
  held := by simp [Life.powerUp, StartPc.holds]
  apart := by simp [Life.powerUp, StartPc.holds]
  unique := by simp [Life.powerUp, StartPc.holds]

/-- A step that neither starts nor takes anything keeps the invariant. -/
theorem Life.Inv.mono {s s' : Life} (h : s.Inv) (hstarts : s'.starts = s.starts)
    (hlive : ∀ n, s'.Live n → s.Live n)
    (hheld : ∀ tid n, (s'.callers tid).holds = some n →
      (s.callers tid).holds = some n) : s'.Inv where
  live n hn := by rw [hstarts]; exact h.live n (hlive n hn)
  held tid n hn := by rw [hstarts]; exact h.held tid n (hheld tid n hn)
  apart tid n hn m hm := h.apart tid n (hheld tid n hn) m (hlive m hm)
  unique tid tid' n n' hn hn' := h.unique tid tid' n n' (hheld tid n hn)
    (hheld tid' n' hn')

@[simp] theorem Life.setCaller_self (s : Life) (tid : Nat) (pc : StartPc) :
    (s.setCaller tid pc).callers tid = pc := Function.update_self _ _ _

theorem Life.setCaller_of_ne (s : Life) {tid tid' : Nat} (pc : StartPc)
    (h : tid' ≠ tid) : (s.setCaller tid pc).callers tid' = s.callers tid' :=
  Function.update_of_ne h _ _

/-- A step of a thread in `app_ota_http_start` that does not take the flag. -/
theorem Life.Inv.setCaller {s : Life} (h : s.Inv) {tid : Nat} {pc : StartPc}
    (hpc : pc.holds = none ∨ pc.holds = (s.callers tid).holds) :
    (s.setCaller tid pc).Inv := by
  refine h.mono rfl (fun _ hn => hn) (fun tid' n hn => ?_)
  by_cases htid : tid' = tid
  · subst htid
    rw [Life.setCaller_self] at hn
    rcases hpc with hnone | hsame
    · rw [hnone] at hn
      cases hn
    · rwa [← hsame]
  · rwa [Life.setCaller_of_ne s pc htid] at hn

/-- `s_running` and `s_state` are not part of the invariant. -/
theorem Life.Inv.store {s : Life} (h : s.Inv) (running : Bool) (state : HttpState) :
    Life.Inv {s with running := running, state := state} :=
  h.mono rfl (fun _ hn => hn) (fun _ _ hn => hn)

/-- A start takes the flag while nobody has it. -/
theorem Life.Inv.take {s : Life} (hfree : ∀ n, ¬ s.Live n)
    (hnone : ∀ tid, (s.callers tid).holds = none) (tid : Nat) :
    (s.setRunning tid).Inv := by
  have hself : ∀ tid' n, ((s.setCaller tid (.flagged s.starts)).callers tid').holds =
      some n → tid' = tid ∧ n = s.starts := by
    intro tid' n hn
    by_cases htid : tid' = tid
    · subst htid
      rw [Life.setCaller_self] at hn
      exact ⟨rfl, (Option.some.inj hn).symm⟩
    · rw [Life.setCaller_of_ne s _ htid, hnone tid'] at hn
      cases hn
  exact {
    live := fun n hn => absurd hn (hfree n)
    held := fun tid' n hn => by rw [(hself tid' n hn).2]; rfl
    apart := fun _ _ _ m hm => hfree m hm
    unique := fun tid' tid'' n n' hn hn' =>
      (hself tid' n hn).1.trans (hself tid'' n' hn').1.symm }

/-- The holder of the flag passes it to the task that it creates. -/
theorem Life.Inv.create {s : Life} (h : s.Inv) {tid n : Nat}
    (hcaller : s.callers tid = .creating n) : (s.create tid n).Inv := by
  have hholds : (s.callers tid).holds = some n := by rw [hcaller]; rfl
  have hnobody : ∀ tid', ((s.create tid n).callers tid').holds = none := by
    intro tid'
    rw [Life.create]
    by_cases htid : tid' = tid
    · subst htid
      rw [Life.setCaller_self]
      rfl
    · rw [Life.setCaller_of_ne s _ htid]
      cases hother : (s.callers tid').holds with
      | none => rfl
      | some n' => exact absurd (h.unique tid' tid n' n hother hholds) htid
  refine ⟨?_, ?_, ?_, ?_⟩
  · rintro m ⟨pc, hpc, hlive⟩
    by_cases hm : m = n
    · rw [hm]
      exact h.held tid n hholds
    · simp only [Life.create, Function.update_of_ne hm] at hpc
      exact absurd ⟨pc, hpc, hlive⟩ (h.apart tid n hholds m)
  · intro tid' n' hn
    simp [hnobody tid'] at hn
  · intro tid' n' hn
    simp [hnobody tid'] at hn
  · intro tid' _ n' _ hn
    simp [hnobody tid'] at hn

/-- A task that has returned does not step. -/
theorem TaskPc.ne_returned {running : Bool} {pc pc' : TaskPc}
    (h : pc' ∈ pc.next running) : pc ≠ .returned := by
  rintro rfl
  simp [TaskPc.next] at h

theorem Life.Inv.task {s : Life} (h : s.Inv) {n : Nat} {pc pc' : TaskPc}
    (hpc : s.tasks n = some pc) (hnext : pc' ∈ pc.next s.running) :
    (s.runTask n pc pc').Inv := by
  refine h.mono rfl (fun m => ?_) (fun _ _ hn => hn)
  rintro ⟨pc'', hpc'', hlive⟩
  by_cases hm : m = n
  · rw [hm]
    exact ⟨pc, hpc, TaskPc.ne_returned hnext⟩
  · simp only [Life.runTask, Function.update_of_ne hm] at hpc''
    exact ⟨pc'', hpc'', hlive⟩

/-- One step that meets the condition is exclusive and keeps the invariant. -/
theorem Life.Inv.step {s s' : Life} {a : LifeAct} (h : s.Inv) (hfree : TakesFree s a)
    (hstep : lifeSystem.step s a = some s') : Exclusive s a ∧ s'.Inv := by
  cases a with
  | check tid =>
      refine ⟨trivial, ?_⟩
      simp only [lifeSystem] at hstep
      split at hstep
      · obtain rfl := Option.some.inj hstep
        split
        · exact h
        · exact h.setCaller (Or.inl rfl)
      · cases hstep
  | reject tid =>
      refine ⟨trivial, ?_⟩
      simp only [lifeSystem] at hstep
      split at hstep
      · obtain rfl := Option.some.inj hstep
        exact h.setCaller (Or.inl rfl)
      · cases hstep
  | setRunning tid =>
      refine ⟨trivial, ?_⟩
      simp only [lifeSystem] at hstep
      split at hstep
      · obtain rfl := Option.some.inj hstep
        exact Life.Inv.take hfree.1 hfree.2 tid
      · cases hstep
  | setState tid =>
      refine ⟨trivial, ?_⟩
      simp only [lifeSystem] at hstep
      split at hstep
      · rename_i n hcaller
        obtain rfl := Option.some.inj hstep
        exact (h.setCaller (Or.inr (by rw [hcaller]; rfl))).store s.running .resolving
      · cases hstep
  | create tid created =>
      simp only [lifeSystem] at hstep
      split at hstep
      · rename_i n hcaller
        have hholds : (s.callers tid).holds = some n := by rw [hcaller]; rfl
        refine ⟨h.apart tid n hholds, ?_⟩
        obtain rfl := Option.some.inj hstep
        split
        · exact h.create hcaller
        · exact h.setCaller (Or.inl rfl)
      · cases hstep
  | undo tid =>
      refine ⟨trivial, ?_⟩
      simp only [lifeSystem] at hstep
      split at hstep
      · obtain rfl := Option.some.inj hstep
        exact (h.setCaller (Or.inl rfl)).store false s.state
      · obtain rfl := Option.some.inj hstep
        exact (h.setCaller (Or.inl rfl)).store s.running .failed
      · cases hstep
  | stop =>
      obtain rfl := Option.some.inj hstep
      exact ⟨trivial, h.store false s.state⟩
  | task n pc' =>
      simp only [lifeSystem] at hstep
      split at hstep
      · rename_i pc hpc
        split at hstep
        · rename_i hnext
          obtain rfl := Option.some.inj hstep
          exact ⟨fun _ _ _ => h.live n ⟨pc, hpc, TaskPc.ne_returned hnext⟩,
            h.task hpc hnext⟩
        · cases hstep
      · cases hstep

theorem step_reject {s : Life} {tid : Nat} (h : s.callers tid = .checked) :
    lifeSystem.step s (.reject tid) = some (s.setCaller tid .idle) := by
  simp only [lifeSystem, h]

theorem step_setRunning {s : Life} {tid : Nat} (h : s.callers tid = .checked) :
    lifeSystem.step s (.setRunning tid) = some (s.setRunning tid) := by
  simp only [lifeSystem, h]

theorem step_setState {s : Life} {tid n : Nat} (h : s.callers tid = .flagged n) :
    lifeSystem.step s (.setState tid) = some (s.setState tid n) := by
  simp only [lifeSystem, h]

theorem step_create {s : Life} {tid n : Nat} (h : s.callers tid = .creating n) :
    lifeSystem.step s (.create tid true) = some (s.create tid n) := by
  simp only [lifeSystem, h, if_true]

theorem step_create_failed {s : Life} {tid n : Nat}
    (h : s.callers tid = .creating n) :
    lifeSystem.step s (.create tid false) = some (s.setCaller tid .undoing) := by
  simp only [lifeSystem, h, Bool.false_eq_true, if_false]

theorem step_undoRunning {s : Life} {tid : Nat} (h : s.callers tid = .undoing) :
    lifeSystem.step s (.undo tid) = some (s.undoRunning tid) := by
  simp only [lifeSystem, h]

theorem step_undoState {s : Life} {tid : Nat} (h : s.callers tid = .failing) :
    lifeSystem.step s (.undo tid) = some (s.undoState tid) := by
  simp only [lifeSystem, h]

theorem Life.setRunning_callers (s : Life) (tid : Nat) :
    (s.setRunning tid).callers tid = .flagged s.starts := Life.setCaller_self _ _ _

theorem Life.setState_callers (s : Life) (tid n : Nat) :
    (s.setState tid n).callers tid = .creating n := Life.setCaller_self _ _ _

theorem Life.undoRunning_callers (s : Life) (tid : Nat) :
    (s.undoRunning tid).callers tid = .failing := Life.setCaller_self _ _ _

theorem Life.create_live (s : Life) (tid n : Nat) : (s.create tid n).Live n :=
  ⟨.getStatus, Function.update_self _ _ _, by simp⟩

/-! A start that nobody interrupts does what `appOtaHttpStart` says. -/

theorem World.storeHeaderUrl_flags (w : World) (headerUrl : Option (List UInt8)) :
    (w.storeHeaderUrl headerUrl).1.running = w.running ∧
      (w.storeHeaderUrl headerUrl).1.state = w.state ∧
      (w.storeHeaderUrl headerUrl).2 ≠ -7 := by
  unfold World.storeHeaderUrl
  split
  · exact ⟨rfl, rfl, by simp⟩
  · split
    · exact ⟨rfl, rfl, by simp⟩
    · split <;> exact ⟨rfl, rfl, by simp⟩

theorem World.storeUrls_flags (w : World) (imageUrl : List UInt8)
    (headerUrl : Option (List UInt8)) :
    (w.storeUrls imageUrl headerUrl).1.running = w.running ∧
      (w.storeUrls imageUrl headerUrl).1.state = w.state ∧
      (w.storeUrls imageUrl headerUrl).2 ≠ -7 := by
  unfold World.storeUrls
  split
  · exact ⟨rfl, rfl, by simp⟩
  · split
    · exact ⟨rfl, rfl, by simp⟩
    · exact World.storeHeaderUrl_flags {w with imageUrl := text imageUrl} headerUrl

theorem World.initOnce_flags (b : Board) (w : World) (tid : Nat) :
    (w.initOnce b tid).running = w.running ∧ (w.initOnce b tid).state = w.state := by
  unfold World.initOnce
  split <;> exact ⟨rfl, rfl⟩

/-- The accesses of a start that returns `rc`. -/
def startActs (tid : Nat) (rc : Int) : List LifeAct :=
  if rc = 0 then [.check tid, .setRunning tid, .setState tid, .create tid true]
  else if rc = -7 then
    [.check tid, .setRunning tid, .setState tid, .create tid false, .undo tid,
      .undo tid]
  else [.check tid, .reject tid]

/-- A start that finds `s_running` set returns -2; any other one has the effect
of its accesses on the two variables, and creates a task if it returns 0. -/
theorem appOtaHttpStart_exec {b : Board} {w w' : World} {tid : Nat} {created : Bool}
    {opts : HttpOpts} {imageUrl : List UInt8} {rc : Int} {s : Life}
    (hurl : opts.imageUrl = some imageUrl) (hstopped : w.running = false)
    (h : appOtaHttpStart b w tid created (some opts) = (w', rc))
    (hidle : s.callers tid = .idle) (hrunning : s.running = w.running)
    (hstate : s.state = w.state) :
    ∃ s', lifeSystem.exec s (startActs tid rc) = some s' ∧
      s'.callers tid = .idle ∧ s'.running = w'.running ∧ s'.state = w'.state ∧
      (rc = 0 → s'.Live s.starts) := by
  obtain ⟨hinitRunning, hinitState⟩ := w.initOnce_flags b tid
  obtain ⟨stored, src, hstored⟩ : ∃ stored src,
      (w.initOnce b tid).storeUrls imageUrl opts.headerUrl = (stored, src) :=
    ⟨_, _, rfl⟩
  have hflags := (w.initOnce b tid).storeUrls_flags imageUrl opts.headerUrl
  rw [hstored, hinitRunning, hinitState] at hflags
  obtain ⟨hflagRunning, hflagState, hsrc⟩ := hflags
  have hchecked : lifeSystem.step s (.check tid) = some (s.setCaller tid .checked) := by
    simp [lifeSystem, hidle, hrunning, hstopped]
  simp only [appOtaHttpStart, hurl, hstopped, hstored, Bool.false_eq_true, if_false]
    at h
  by_cases hzero : src = 0
  · subst hzero
    cases created with
    | true =>
        simp only [if_true, Prod.mk.injEq] at h
        obtain ⟨rfl, rfl⟩ := h
        refine ⟨(((s.setCaller tid .checked).setRunning tid).setState tid
          s.starts).create tid s.starts, ?_, Life.setCaller_self _ _ _, rfl, rfl,
          fun _ => Life.create_live _ _ _⟩
        rw [startActs, if_pos rfl, System.exec_cons_of_step hchecked,
          System.exec_cons_of_step (step_setRunning (s.setCaller_self tid _)),
          System.exec_cons_of_step (step_setState (Life.setRunning_callers _ tid)),
          System.exec_cons_of_step (step_create (Life.setState_callers _ tid _))]
        rfl
    | false =>
        simp only [Bool.false_eq_true, if_false, Prod.mk.injEq] at h
        obtain ⟨rfl, rfl⟩ := h
        refine ⟨((((((s.setCaller tid .checked).setRunning tid).setState tid
          s.starts).setCaller tid .undoing).undoRunning tid).undoState tid), ?_,
          Life.setCaller_self _ _ _, rfl, rfl, fun h => absurd h (by decide)⟩
        rw [startActs, if_neg (by decide), if_pos rfl,
          System.exec_cons_of_step hchecked,
          System.exec_cons_of_step (step_setRunning (s.setCaller_self tid _)),
          System.exec_cons_of_step (step_setState (Life.setRunning_callers _ tid)),
          System.exec_cons_of_step (step_create_failed (Life.setState_callers _ tid _)),
          System.exec_cons_of_step (step_undoRunning (Life.setCaller_self _ tid _)),
          System.exec_cons_of_step (step_undoState (Life.undoRunning_callers _ tid))]
        rfl
  · have hrejected : stored = w' ∧ src = rc := by
      split at h
      · rename_i heq
        exact absurd (congrArg Prod.snd heq) hzero
      · rename_i heq
        obtain ⟨rfl, rfl⟩ := Prod.mk.inj heq
        simpa using h
    obtain ⟨rfl, rfl⟩ := hrejected
    refine ⟨(s.setCaller tid .checked).setCaller tid .idle, ?_,
      Life.setCaller_self _ _ _, hrunning.trans hflagRunning.symm,
      hstate.trans hflagState.symm, fun h => absurd h hzero⟩
    rw [startActs, if_neg hzero, if_neg hsrc, System.exec_cons_of_step hchecked,
      System.exec_cons_of_step (step_reject (s.setCaller_self tid _))]
    rfl

theorem commitStage_ends (b : Board) (w : World) (header : List UInt8) :
    (commitStage b w header).running = false ∧
      ((commitStage b w header).state = .done ∨
        (commitStage b w header).state = .failed) := by
  unfold commitStage
  split
  · split
    · exact ⟨rfl, Or.inl rfl⟩
    · exact ⟨rfl, Or.inr rfl⟩
  · exact ⟨rfl, Or.inl rfl⟩

/-- The last stores of `httpTask` are those at `ending` and `clear`. -/
theorem httpTask_ends (b : Board) (w : World) :
    (httpTask b w).running = false ∧
      ((httpTask b w).state = .done ∨ (httpTask b w).state = .failed) := by
  unfold httpTask
  split
  split
  · exact ⟨rfl, Or.inr rfl⟩
  · split
    split
    · exact ⟨rfl, Or.inr rfl⟩
    · exact commitStage_ends b _ _

/-- A start that has the flag while a task is live creates another one. -/
theorem create_breaks {s : Life} {tid n m : Nat}
    (hcaller : s.callers tid = .flagged n) (hlive : s.Live m) :
    ¬ lifeSystem.Meets Exclusive s [.setState tid, .create tid true] := by
  intro h
  obtain ⟨_, hcreate⟩ := h _ (step_setState hcaller)
  obtain ⟨hexclusive, _⟩ := hcreate _ (step_create (s.setState_callers tid n))
  exact hexclusive m hlive

/-- Another start that holds the flag goes on to create its task. -/
theorem holder_creates {s : Life} {tid n : Nat}
    (hheld : (s.callers tid).holds = some n) :
    ∃ acts s', lifeSystem.exec s acts = some s' ∧ s'.Live n ∧
      ∀ tid', tid' ≠ tid → s'.callers tid' = s.callers tid' := by
  cases hcaller : s.callers tid with
  | flagged n' =>
      obtain rfl : n' = n := by simpa [hcaller, StartPc.holds] using hheld
      refine ⟨[.setState tid, .create tid true], (s.setState tid n').create tid n',
        ?_, Life.create_live _ tid n', fun tid' hne => ?_⟩
      · rw [System.exec_cons_of_step (step_setState hcaller),
          System.exec_cons_of_step (step_create (s.setState_callers tid n'))]
        rfl
      · exact (Life.setCaller_of_ne _ _ hne).trans (Life.setCaller_of_ne s _ hne)
  | creating n' =>
      obtain rfl : n' = n := by simpa [hcaller, StartPc.holds] using hheld
      refine ⟨[.create tid true], s.create tid n', ?_, s.create_live tid n',
        fun tid' hne => Life.setCaller_of_ne s _ hne⟩
      rw [System.exec_cons_of_step (step_create hcaller)]
      rfl
  | idle => simp [hcaller, StartPc.holds] at hheld
  | checked => simp [hcaller, StartPc.holds] at hheld
  | undoing => simp [hcaller, StartPc.holds] at hheld
  | failing => simp [hcaller, StartPc.holds] at hheld

/-- A start that takes the flag while it is not free can go on to a violation. -/
theorem taken_breaks {s : Life} {tid : Nat} (hcaller : s.callers tid = .checked)
    (htaken : ¬ TakesFree s (.setRunning tid)) :
    ∃ more, ¬ lifeSystem.Meets Exclusive (s.setRunning tid) more := by
  have hflagged := s.setRunning_callers tid
  by_cases hlive : ∃ m, s.Live m
  · obtain ⟨m, hm⟩ := hlive
    exact ⟨_, create_breaks hflagged hm⟩
  -- no task is live yet, so another start holds the flag
  obtain ⟨other, hother⟩ : ∃ other, (s.callers other).holds ≠ none := by
    by_contra hnone
    exact htaken ⟨not_exists.mp hlive, by simpa using hnone⟩
  obtain ⟨n, hheld⟩ := Option.ne_none_iff_exists'.mp hother
  have hne : other ≠ tid := by
    rintro rfl
    rw [hcaller] at hheld
    cases hheld
  have hheld' : ((s.setRunning tid).callers other).holds = some n := by
    rw [Life.setRunning, Life.setCaller_of_ne s _ hne, hheld]
  obtain ⟨acts, s', hrun, hlive', hframe⟩ := holder_creates hheld'
  refine ⟨acts ++ [.setState tid, .create tid true], fun hmeets => ?_⟩
  exact create_breaks ((hframe tid hne.symm).trans hflagged) hlive'
    (hmeets.of_append hrun)

/-- The state in which a start has just set the flag. -/
theorem setRunning_some {s s' : Life} {tid : Nat}
    (h : lifeSystem.step s (.setRunning tid) = some s') :
    s.callers tid = .checked ∧ s' = s.setRunning tid := by
  simp only [lifeSystem] at h
  split at h
  · rename_i hcaller
    exact ⟨hcaller, (Option.some.inj h).symm⟩
  · cases h

/-- At most one task. If every start sets `s_running` while it is free, no task is
created beside another, and no task writes the variables of a later one; and a
start that sets it otherwise can go on to break this. -/
theorem single_task_while_taken_free (acts : List LifeAct) :
    (lifeSystem.Meets TakesFree Life.powerUp acts →
      lifeSystem.Meets Exclusive Life.powerUp acts) ∧
    ∀ tid s s', lifeSystem.exec Life.powerUp acts = some s →
      lifeSystem.step s (.setRunning tid) = some s' →
      ¬ TakesFree s (.setRunning tid) →
      ∃ more, ¬ lifeSystem.Meets Exclusive Life.powerUp
        (acts ++ .setRunning tid :: more) := by
  refine ⟨fun hfree => System.meets_of_meets
    (fun _ _ _ h hC hstep => h.step hC hstep) Life.inv_powerUp hfree, ?_⟩
  intro tid s s' hrun hstep htaken
  obtain ⟨hcaller, rfl⟩ := setRunning_some hstep
  obtain ⟨more, hmore⟩ := taken_breaks hcaller htaken
  exact ⟨more, fun hmeets => hmore ((hmeets.of_append hrun) _ hstep).2⟩

/-- A start, a stop while the task connects, its way out, and another start. -/
def restartAfterReturn : List LifeAct :=
  [.check 1, .setRunning 1, .setState 1, .create 1 true, .task 0 (.resolving .image),
    .task 0 (.connecting .image), .stop, .task 0 .abort, .task 0 (.ending .failed),
    .task 0 .clear, .task 0 .leave, .task 0 .returned, .check 1, .setRunning 1, .setState 1,
    .create 1 true, .task 1 (.resolving .image)]

theorem single_task_while_taken_free_restart :
    (lifeSystem.exec Life.powerUp restartAfterReturn).map Life.starts = some 2 ∧
      lifeSystem.Meets Exclusive Life.powerUp restartAfterReturn := by
  refine ⟨rfl, (single_task_while_taken_free _).1 ?_⟩
  rintro _ ⟨⟩
  refine ⟨trivial, ?_⟩
  rintro _ ⟨⟩
  refine ⟨⟨?_, fun tid => ?_⟩, ?_⟩
  · rintro n ⟨pc, hpc, _⟩
    cases hpc
  · by_cases htid : tid = 1
    · subst htid
      rfl
    · exact congrArg StartPc.holds
        (Life.setCaller_of_ne Life.powerUp .checked htid)
  iterate 11
    rintro _ ⟨⟩
    refine ⟨trivial, ?_⟩
  rintro _ ⟨⟩
  refine ⟨⟨?_, fun tid => ?_⟩, ?_⟩
  · -- task 0 has returned, and there is no other
    rintro n ⟨pc, hpc, hlive⟩
    by_cases hn : n = 0
    · subst hn
      cases hpc
      exact hlive rfl
    · simp [Life.setCaller, Life.runTask, Life.create, Life.setState, Life.setRunning,
        Life.powerUp, hn] at hpc
  · by_cases htid : tid = 1
    · subst htid
      rfl
    · simp [Life.setCaller, Life.runTask, Life.create, Life.setState, Life.setRunning,
        Life.powerUp, htid, StartPc.holds]
  iterate 3
    rintro _ ⟨⟩
    refine ⟨trivial, ?_⟩
  trivial

/-- Start, stop, start: the first task has not noticed the stop when the second
one is created. -/
def restartActs : List LifeAct :=
  [.check 1, .setRunning 1, .setState 1, .create 1 true, .stop, .check 1,
    .setRunning 1]

theorem restart_creates_twice :
    ¬ ∀ acts, lifeSystem.Meets Exclusive Life.powerUp acts := by
  intro h
  have hrestart := h (restartActs ++ [.setState 1, .create 1 true])
  exact create_breaks (n := 1) (m := 0) rfl ⟨.getStatus, rfl, by simp⟩
    (hrestart.of_append rfl)

end Rw612.Http
