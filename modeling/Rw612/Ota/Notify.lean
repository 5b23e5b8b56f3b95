import Rw612.Ota.Threads

/-!
The status that `svc_ota.c` shows to its clients. A call of the OTA core takes
its snapshot of `s_st` under the lock and hands it to `ota_status_cb` after the
lock is released, so the callbacks of two calls may run in either order. They run
in the order of the locked sections, and leave the current status behind, if no
call gets the lock between another one's unlock and its callback.
-/

namespace Rw612.Ota

open Lib

/-- `ota_status_pdu_t` -/
structure StatusPdu where
  state : State
  lastErr : Err
  bytesReceived : UInt32
  totalSize : UInt32
  deriving DecidableEq, Repr

/-- The fields that `ota_status_cb` copies. -/
def Status.pdu (st : Status) : StatusPdu where
  state := st.state
  lastErr := st.lastErr
  bytesReceived := st.bytesReceived
  totalSize := st.totalSize

/-- A snapshot on its way to the callback, with the number of the locked
section it was taken in. -/
structure Snapshot where
  number : Nat
  st : Status
  deriving DecidableEq, Repr

/-- The core and the static variables of `svc_ota.c`. `delivered` lists the
numbers of the snapshots that have reached the callback, `notified` the PDUs
that were sent. -/
structure SvcOta where
  sys : Sys
  lastPdu : StatusPdu
  subscribers : UInt16
  due : Nat → Option Snapshot
  delivered : List Nat
  notified : List StatusPdu

inductive SvcAct where
  | enter (tid : Nat) (call : Call)
  | locked (tid : Nat) (d : Driver)
  | callback (tid : Nat)
  | cccCfgChanged (notify : Bool)

/-- `app_ota_svc_init` on a fresh core, with `ota_status_cb` registered. -/
def SvcOta.init (slot : FlashArea) (flash : Flash) : SvcOta where
  sys := ((Sys.powerUp flash).enter 0 (.init (some 0) none)).locked slot 0
    (.init (some 0) none) .success
  lastPdu := ⟨.idle, .ok, 0, 0⟩
  subscribers := 0
  due _ := none
  delivered := []
  notified := []

/-- `status_ccc_cfg_changed` -/
def statusCccCfgChanged (s : SvcOta) (notify : Bool) : SvcOta :=
  if notify then {s with subscribers := s.subscribers + 1}
  else if 0 < s.subscribers then {s with subscribers := s.subscribers - 1}
  else s

/-- `ota_status_cb` -/
def otaStatusCb (s : SvcOta) (st : Status) : SvcOta :=
  {s with
    lastPdu := st.pdu
    notified := if 0 < s.subscribers then s.notified ++ [st.pdu] else s.notified}

/-- The end of `emit_status_locked_unlock`: the lock is free again. -/
def SvcOta.callback (s : SvcOta) (tid : Nat) (snap : Snapshot) : SvcOta :=
  let s := {s with
    due := Function.update s.due tid none
    delivered := s.delivered ++ [snap.number]}
  match s.sys.core.cb with
  | none => s
  | some _ => otaStatusCb s snap.st

/-- The calls that report a status. -/
def Call.Reports : Call → Prop
  | .init _ _ => False
  | _ => True

instance (call : Call) : Decidable call.Reports := by
  cases call <;> unfold Call.Reports <;> infer_instance

/-- `begin`, `chunk`, `commit` and `abort` of any number of threads. A thread
makes its callback before it makes another call. -/
def svcSystem (slot : FlashArea) : System SvcOta SvcAct where
  step s
    | .enter tid call =>
        if call.Reports ∧ s.due tid = none then
          ((otaSystem slot).step s.sys (.enter tid call)).map
            (fun sys => {s with sys := sys})
        else none
    | .locked tid d =>
        ((otaSystem slot).step s.sys (.locked tid d)).map (fun sys =>
          {s with
            sys := sys
            due := Function.update s.due tid
              (some ⟨sys.log.length, sys.core.st⟩)})
    | .callback tid => (s.due tid).map (s.callback tid)
    | .cccCfgChanged notify => some (statusCccCfgChanged s notify)

/-- No call is in progress. -/
def SvcOta.AtRest (s : SvcOta) : Prop :=
  ∀ tid, s.sys.pending tid = none ∧ s.due tid = none

/-- The PDU is the current status whenever no call is in progress, and the
callbacks so far have run in the order of their locked sections. -/
def SvcOta.UpToDate (s : SvcOta) : Prop :=
  (s.AtRest → s.lastPdu = s.sys.core.st.pdu) ∧ s.delivered.Pairwise (· < ·)

/-- No locked section runs between another call's unlock and its callback. -/
def SvcOta.LocksApart (s : SvcOta) : SvcAct → Prop
  | .locked _ _ => ∀ tid, s.due tid = none
  | _ => True

/-! The callback that is registered stays so. -/

theorem Call.locked_cb (slot : FlashArea) (c : Core) (d : Driver) {call : Call}
    (hcall : call.Reports) : (call.locked slot c d).1.cb = c.cb := by
  cases call with
  | init cb userArg => cases hcall
  | begin n =>
      simp only [Call.locked, appOtaBeginLocked, otaPrepareStorage]
      split_ifs <;> rfl
  | chunk offset data =>
      simp only [Call.locked, appOtaChunkLocked, Core.flashWrite]
      cases c.uploadFa <;> split_ifs <;> rfl
  | commit header =>
      simp only [Call.locked, appOtaCommitLocked]
      split_ifs <;> rfl
  | abort => rfl

theorem Sys.enter_cb (s : Sys) (tid : Nat) (call : Call) :
    (s.enter tid call).core.cb = s.core.cb := by
  unfold Sys.enter
  split
  · rfl
  · cases call <;> rfl

structure SvcOta.Inv (s : SvcOta) : Prop where
  registered : s.sys.core.cb ≠ none
  reports : ∀ tid call, s.sys.pending tid = some call → call.Reports
  /-- The only snapshot that is due is that of the last locked section. -/
  single : ∀ tid snap, s.due tid = some snap →
    snap = ⟨s.sys.log.length, s.sys.core.st⟩ ∧ ∀ other, other ≠ tid → s.due other = none
  current : (∀ tid, s.due tid = none) → s.lastPdu = s.sys.core.st.pdu
  ordered : s.delivered.Pairwise (· < ·)
  past : ∀ n ∈ s.delivered, n ≤ s.sys.log.length ∧
    ∀ tid snap, s.due tid = some snap → n < snap.number

theorem SvcOta.Inv.upToDate {s : SvcOta} (h : s.Inv) : s.UpToDate :=
  ⟨fun hrest => h.current fun tid => (hrest tid).2, h.ordered⟩

theorem SvcOta.init_pending (slot : FlashArea) (flash : Flash) (tid : Nat) :
    (SvcOta.init slot flash).sys.pending tid = none := by
  simp [SvcOta.init, Sys.locked, Sys.enter, Call.precheck, Sys.powerUp]

theorem SvcOta.inv_init (slot : FlashArea) (flash : Flash) :
    (SvcOta.init slot flash).Inv where
  registered := by simp [SvcOta.init, Sys.locked, Call.locked, appOtaInitLocked]
  reports tid call h := by cases (init_pending slot flash tid).symm.trans h
  single tid snap h := by cases h
  current _ := rfl
  ordered := List.Pairwise.nil
  past n hn := by cases hn

theorem SvcOta.Inv.enter {s : SvcOta} (h : s.Inv) {tid : Nat} {call : Call}
    (hcall : call.Reports) : ({s with sys := s.sys.enter tid call} : SvcOta).Inv := by
  obtain ⟨hst, -⟩ := s.sys.enter_core tid call
  have hlog := s.sys.enter_log tid call
  refine ⟨?_, ?_, ?_, ?_, h.ordered, ?_⟩
  · rw [Sys.enter_cb]
    exact h.registered
  · intro other c hc
    simp only [Sys.enter] at hc
    split at hc
    · exact h.reports other c hc
    · dsimp only at hc
      by_cases hother : other = tid
      · subst hother
        rw [Function.update_self] at hc
        cases hc
        exact hcall
      · rw [Function.update_of_ne hother] at hc
        exact h.reports other c hc
  · rw [hst, hlog]
    exact h.single
  · rw [hst]
    exact h.current
  · rw [hlog]
    exact h.past

/-- The state after a locked section. -/
def SvcOta.lockedSection (slot : FlashArea) (s : SvcOta) (tid : Nat) (call : Call)
    (d : Driver) : SvcOta :=
  let sys := s.sys.locked slot tid call d
  {s with sys := sys, due := Function.update s.due tid (some ⟨sys.log.length, sys.core.st⟩)}

theorem Sys.locked_log (slot : FlashArea) (s : Sys) (tid : Nat) (call : Call) (d : Driver) :
    (s.locked slot tid call d).log.length = s.log.length + 1 := by
  simp [Sys.locked]

/-- A locked section while nothing is due: its snapshot is then the only one. -/
theorem SvcOta.Inv.locked {slot : FlashArea} {s : SvcOta} (h : s.Inv) {tid : Nat}
    {call : Call} (hcall : s.sys.pending tid = some call) (d : Driver)
    (hapart : ∀ tid, s.due tid = none) : (s.lockedSection slot tid call d).Inv := by
  have hlog := s.sys.locked_log slot tid call d
  have hself : (s.lockedSection slot tid call d).due tid =
      some ⟨(s.sys.locked slot tid call d).log.length, (s.sys.locked slot tid call d).core.st⟩ :=
    Function.update_self ..
  have hother : ∀ other, other ≠ tid → (s.lockedSection slot tid call d).due other = none :=
    fun other hne => (Function.update_of_ne hne _ _).trans (hapart other)
  have honly : ∀ other snap, (s.lockedSection slot tid call d).due other = some snap →
      other = tid := by
    intro other snap hsnap
    by_contra hne
    cases (hother other hne).symm.trans hsnap
  refine ⟨?_, ?_, ?_, ?_, h.ordered, ?_⟩
  · simp only [lockedSection, Sys.locked]
    rw [Call.locked_cb slot s.sys.core d (h.reports tid call hcall)]
    exact h.registered
  · intro other c hc
    by_cases heq : other = tid
    · subst heq
      simp [lockedSection, Sys.locked] at hc
    · simp only [lockedSection, Sys.locked, Function.update_of_ne heq] at hc
      exact h.reports other c hc
  · intro other snap hsnap
    obtain rfl := honly other snap hsnap
    exact ⟨Option.some.inj (hsnap.symm.trans hself), hother⟩
  · intro hnone
    cases (hnone tid).symm.trans hself
  · intro n hn
    have hle := (h.past n hn).1
    refine ⟨hle.trans (hlog ▸ Nat.le_succ _), fun other snap hsnap => ?_⟩
    obtain rfl := honly other snap hsnap
    cases hsnap.symm.trans hself
    dsimp only
    omega

theorem SvcOta.Inv.callback_eq {s : SvcOta} (h : s.Inv) (tid : Nat) (snap : Snapshot) :
    s.callback tid snap = otaStatusCb {s with
      due := Function.update s.due tid none
      delivered := s.delivered ++ [snap.number]} snap.st := by
  obtain ⟨cb, hcb⟩ := Option.ne_none_iff_exists'.mp h.registered
  simp [SvcOta.callback, hcb]

/-- The callback of the only snapshot that is due leaves the current status. -/
theorem SvcOta.Inv.callback {s : SvcOta} (h : s.Inv) {tid : Nat} {snap : Snapshot}
    (hdue : s.due tid = some snap) : (s.callback tid snap).Inv := by
  obtain ⟨rfl, hother⟩ := h.single tid snap hdue
  have hnone : ∀ other, Function.update s.due tid none other = none := by
    intro other
    by_cases heq : other = tid
    · rw [heq, Function.update_self]
    · rw [Function.update_of_ne heq]
      exact hother other heq
  rw [h.callback_eq]
  refine ⟨h.registered, h.reports, ?_, fun _ => rfl, ?_, ?_⟩
  · intro other later hlater
    cases (hnone other).symm.trans hlater
  · refine List.pairwise_append.mpr ⟨h.ordered, List.pairwise_singleton _ _, ?_⟩
    intro n hn m hm
    rw [List.mem_singleton.mp hm]
    exact (h.past n hn).2 tid _ hdue
  · intro n hn
    refine ⟨?_, fun other later hlater => ?_⟩
    · rcases List.mem_append.mp hn with hn | hn
      · exact (h.past n hn).1
      · exact Nat.le_of_eq (List.mem_singleton.mp hn)
    · cases (hnone other).symm.trans hlater

theorem SvcOta.Inv.step {slot : FlashArea} {s s' : SvcOta} {a : SvcAct}
    (h : s.Inv) (hapart : s.LocksApart a) (hstep : (svcSystem slot).step s a = some s') :
    s'.Inv := by
  cases a with
  | enter tid call =>
      simp only [svcSystem] at hstep
      split at hstep
      case isTrue hcall =>
          obtain ⟨sys, hsys, rfl⟩ := Option.map_eq_some_iff.mp hstep
          rcases Sys.step_cases hsys with ⟨t, c, ha, rfl⟩ | ⟨t, c, d, ha, -⟩
          · cases ha
            exact h.enter hcall.1
          · cases ha
      case isFalse => cases hstep
  | locked tid d =>
      obtain ⟨sys, hsys, rfl⟩ := Option.map_eq_some_iff.mp hstep
      rcases Sys.step_cases hsys with ⟨t, c, ha, -⟩ | ⟨t, c, d', ha, hpending, rfl⟩
      · cases ha
      · cases ha
        exact h.locked hpending d hapart
  | callback tid =>
      obtain ⟨snap, hdue, rfl⟩ := Option.map_eq_some_iff.mp hstep
      exact h.callback hdue
  | cccCfgChanged notify =>
      cases hstep
      unfold statusCccCfgChanged
      split_ifs <;> exact {h with}

/-! A locked section that does not meet the condition. -/

/-- The snapshots that are due have their numbers, and a thread with one due has no
call under way. -/
structure SvcOta.Numbered (s : SvcOta) : Prop where
  bound : ∀ tid snap, s.due tid = some snap → snap.number ≤ s.sys.log.length
  idle : ∀ tid call, s.sys.pending tid = some call → s.due tid = none

theorem SvcOta.numbered_init (slot : FlashArea) (flash : Flash) :
    (SvcOta.init slot flash).Numbered :=
  ⟨nofun, fun _ _ _ => rfl⟩

theorem SvcOta.Numbered.locked {s : SvcOta} (h : s.Numbered) (slot : FlashArea) (tid : Nat)
    (call : Call) (d : Driver) : (s.lockedSection slot tid call d).Numbered := by
  have hlog := s.sys.locked_log slot tid call d
  constructor
  · intro other snap hsnap
    by_cases heq : other = tid
    · subst heq
      simp only [lockedSection, Function.update_self] at hsnap
      cases hsnap
      exact Nat.le_refl _
    · have hold : s.due other = some snap :=
        (Function.update_of_ne heq _ _).symm.trans hsnap
      exact (h.bound other snap hold).trans (hlog ▸ Nat.le_succ _)
  · intro other c hc
    by_cases heq : other = tid
    · subst heq
      simp [lockedSection, Sys.locked] at hc
    · simp only [lockedSection, Sys.locked, Function.update_of_ne heq] at hc
      exact (Function.update_of_ne heq _ _).trans (h.idle other c hc)

theorem SvcOta.callback_due (s : SvcOta) (tid : Nat) (snap : Snapshot) :
    (s.callback tid snap).due = Function.update s.due tid none ∧
      (s.callback tid snap).sys = s.sys ∧
      (s.callback tid snap).delivered = s.delivered ++ [snap.number] := by
  unfold SvcOta.callback
  cases hcb : s.sys.core.cb <;> simp [hcb, otaStatusCb]

theorem SvcOta.Numbered.callback {s : SvcOta} (h : s.Numbered) (tid : Nat)
    (snap : Snapshot) : (s.callback tid snap).Numbered := by
  obtain ⟨hdue, hsys, -⟩ := s.callback_due tid snap
  constructor
  · intro other later hlater
    rw [hdue] at hlater
    rw [hsys]
    by_cases heq : other = tid
    · subst heq
      simp at hlater
    · rw [Function.update_of_ne heq] at hlater
      exact h.bound other later hlater
  · intro other c hc
    rw [hsys] at hc
    rw [hdue]
    by_cases heq : other = tid
    · rw [heq, Function.update_self]
    · rw [Function.update_of_ne heq]
      exact h.idle other c hc

theorem SvcOta.Numbered.step {slot : FlashArea} {s s' : SvcOta} {a : SvcAct}
    (h : s.Numbered) (hstep : (svcSystem slot).step s a = some s') : s'.Numbered := by
  cases a with
  | enter tid call =>
      simp only [svcSystem] at hstep
      split at hstep
      case isTrue hcall =>
          obtain ⟨sys, hsys, rfl⟩ := Option.map_eq_some_iff.mp hstep
          rcases Sys.step_cases hsys with ⟨t, c, ha, rfl⟩ | ⟨t, c, d, ha, -⟩
          · cases ha
            refine ⟨?_, fun other c hc => ?_⟩
            · rw [Sys.enter_log]
              exact h.bound
            · by_cases heq : other = tid
              · subst heq
                exact hcall.2
              · apply h.idle other c
                unfold Sys.enter at hc
                split at hc
                · exact hc
                · exact (Function.update_of_ne heq _ _).symm.trans hc
          · cases ha
      case isFalse => cases hstep
  | locked tid d =>
      obtain ⟨sys, hsys, rfl⟩ := Option.map_eq_some_iff.mp hstep
      rcases Sys.step_cases hsys with ⟨t, c, ha, -⟩ | ⟨t, c, d', ha, -, rfl⟩
      · cases ha
      · cases ha
        exact h.locked slot tid c d
  | callback tid =>
      obtain ⟨snap, -, rfl⟩ := Option.map_eq_some_iff.mp hstep
      exact h.callback tid snap
  | cccCfgChanged notify =>
      cases hstep
      unfold statusCccCfgChanged
      split_ifs <;> exact ⟨h.bound, h.idle⟩

/-- The later of two snapshots may be delivered first. -/
theorem SvcOta.Numbered.overtakes {slot : FlashArea} {s s' : SvcOta} {tid : Nat} {d : Driver}
    (h : s.Numbered) (hstep : (svcSystem slot).step s (.locked tid d) = some s')
    (hbusy : ¬s.LocksApart (.locked tid d)) :
    ∃ more, ¬(svcSystem slot).Always SvcOta.UpToDate s' more := by
  obtain ⟨sys, hsys, rfl⟩ := Option.map_eq_some_iff.mp hstep
  rcases Sys.step_cases hsys with ⟨t, c, ha, -⟩ | ⟨t, c, d', ha, hpending, rfl⟩
  · cases ha
  cases ha
  obtain ⟨other, hother⟩ := not_forall.mp hbusy
  obtain ⟨snap, hsnap⟩ := Option.ne_none_iff_exists'.mp hother
  have hne : other ≠ tid := by
    rintro rfl
    cases (h.idle other c hpending).symm.trans hsnap
  let s₁ := s.lockedSection slot tid c d
  let newest : Snapshot :=
    ⟨(s.sys.locked slot tid c d).log.length, (s.sys.locked slot tid c d).core.st⟩
  have hnewest : s₁.due tid = some newest := Function.update_self ..
  obtain ⟨hdue₁, -, hdelivered₁⟩ := s₁.callback_due tid newest
  have hsnap₁ : (s₁.callback tid newest).due other = some snap := by
    rw [hdue₁, Function.update_of_ne hne]
    exact (Function.update_of_ne hne _ _).trans hsnap
  obtain ⟨-, -, hdelivered₂⟩ := (s₁.callback tid newest).callback_due other snap
  refine ⟨[.callback tid, .callback other], fun halways => ?_⟩
  have hfirst : (svcSystem slot).step s₁ (.callback tid) = some (s₁.callback tid newest) := by
    simp [svcSystem, hnewest]
  have hsecond : (svcSystem slot).step (s₁.callback tid newest) (.callback other) =
      some ((s₁.callback tid newest).callback other snap) := by
    simp [svcSystem, hsnap₁]
  have hend := ((halways.2 _ hfirst).2 _ hsecond).2
  rw [hdelivered₂, hdelivered₁, List.append_assoc] at hend
  have horder := List.pairwise_iff_getElem.mp (List.pairwise_append.mp hend).2.1
  have hlt : newest.number < snap.number := horder 0 1 (by simp) (by simp) (by decide)
  have hle := h.bound other snap hsnap
  have hlog := s.sys.locked_log slot tid c d
  change (s.sys.locked slot tid c d).log.length < snap.number at hlt
  omega

/-- In every run in which no locked section comes between another call's unlock and
its callback, the PDU is current at rest and the reports arrive in order; and a
locked section that comes there can go on to break this. -/
theorem status_current_while_locks_apart (slot : FlashArea) (flash : Flash)
    (acts : List SvcAct) :
    ((svcSystem slot).Meets SvcOta.LocksApart (.init slot flash) acts →
      (svcSystem slot).Always SvcOta.UpToDate (.init slot flash) acts) ∧
    ∀ tid d s s', (svcSystem slot).exec (.init slot flash) acts = some s →
      (svcSystem slot).step s (.locked tid d) = some s' → ¬s.LocksApart (.locked tid d) →
      ∃ more, ¬(svcSystem slot).Always SvcOta.UpToDate (.init slot flash)
        (acts ++ .locked tid d :: more) := by
  refine ⟨fun hapart => ?_, fun tid d s s' hrun hstep hbusy => ?_⟩
  · exact (System.always_of_meets (fun _ _ _ h hC hstep => h.step hC hstep)
      (SvcOta.inv_init slot flash) hapart).mono (fun _ h => h.upToDate)
  · have hnumbered : s.Numbered := System.exec_invariant
      (fun _ _ _ h hstep => h.step hstep) (SvcOta.numbered_init slot flash) hrun
    obtain ⟨more, hmore⟩ := hnumbered.overtakes hstep hbusy
    exact ⟨more, fun halways => hmore ((halways.of_append hrun).2 _ hstep)⟩

/-- Two threads whose calls overlap, but not between the unlock and the callback. -/
theorem status_current_while_locks_apart_overlapping :
    (svcSystem ⟨8⟩).Always SvcOta.UpToDate (.init ⟨8⟩ .blank)
      [.enter 1 (.begin 4), .enter 2 .abort, .locked 1 .success, .callback 1,
        .locked 2 .success, .callback 2] := by
  apply (status_current_while_locks_apart ⟨8⟩ .blank _).1
  iterate 2
    rintro _ ⟨⟩
    refine ⟨trivial, ?_⟩
  rintro _ ⟨⟩
  refine ⟨fun tid => rfl, ?_⟩
  rintro _ ⟨⟩
  refine ⟨trivial, ?_⟩
  rintro _ ⟨⟩
  refine ⟨fun tid => ?_, ?_⟩
  · by_cases htid : tid = 1
    · subst htid
      rfl
    · exact (Function.update_of_ne htid _ _).trans (Function.update_of_ne htid _ _)
  rintro _ ⟨⟩
  exact ⟨trivial, trivial⟩

/-- The HTTP thread begins an upload and the BLE thread aborts it before the
HTTP thread has made its callback. -/
def overtakenCallback : List SvcAct :=
  [.enter 1 (.begin 4), .locked 1 .success, .enter 2 .abort, .locked 2 .success,
    .callback 2, .callback 1]

theorem status_stale_at_rest :
    ¬∀ slot flash acts, (svcSystem slot).Always SvcOta.UpToDate
      (.init slot flash) acts := by
  intro h
  have hend := (h ⟨8⟩ .blank (overtakenCallback ++ [])).of_exec
    overtakenCallback [] rfl
  have hstale := hend.1 (fun tid => ?_)
  · cases congrArg StatusPdu.state hstale
  · by_cases h1 : tid = 1
    · subst h1
      exact ⟨rfl, rfl⟩
    by_cases h2 : tid = 2
    · subst h2
      exact ⟨rfl, rfl⟩
    constructor
    · exact (Function.update_of_ne h2 _ _).trans ((Function.update_of_ne h2 _ _).trans
        ((Function.update_of_ne h1 _ _).trans ((Function.update_of_ne h1 _ _).trans
          (SvcOta.init_pending _ _ tid))))
    · exact (Function.update_of_ne h1 _ _).trans ((Function.update_of_ne h2 _ _).trans
        ((Function.update_of_ne h2 _ _).trans (Function.update_of_ne h1 _ _)))

end Rw612.Ota
