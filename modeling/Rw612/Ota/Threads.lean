import Mathlib.Logic.Function.Basic
import Rw612.Lib.Transition
import Rw612.Ota.Core

/-!
Any number of threads in the OTA core. A call of a thread takes two steps: its
checks before `k_mutex_lock`, and its locked section, before which any other
thread may have run. `log` lists the locked sections in the order in which they
held the lock.

`Session` is what the component is for: the size announced by the last
successful `begin` and the bytes accepted since. `Holds` says that the core and
the slot represent such a session, `Inv` that they do in every live state.
-/

namespace Rw612.Ota

open Lib

/-- A completed locked section and the value it returns. -/
structure Done where
  tid : Nat
  call : Call
  rc : Err
  deriving DecidableEq, Repr

structure Sys where
  core : Core
  pending : Nat → Option Call
  log : List Done

inductive Act where
  | enter (tid : Nat) (call : Call)
  | locked (tid : Nat) (d : Driver)

def Act.tid : Act → Nat
  | .enter tid _ => tid
  | .locked tid _ => tid

def Sys.powerUp (flash : Flash) : Sys where
  core := Core.powerUp flash
  pending _ := none
  log := []

def Sys.enter (s : Sys) (tid : Nat) (call : Call) : Sys :=
  match call.precheck s.core with
  | some _ => s
  | none =>
      {s with
        core := call.entered s.core
        pending := Function.update s.pending tid (some call)}

def Sys.locked (slot : FlashArea) (s : Sys) (tid : Nat) (call : Call)
    (d : Driver) : Sys where
  core := (call.locked slot s.core d).1
  pending := Function.update s.pending tid none
  log := s.log ++ [⟨tid, call, (call.locked slot s.core d).2⟩]

/-- The calls of all threads on one core, in any interleaving. -/
def otaSystem (slot : FlashArea) : System Sys Act where
  step s
    | .enter tid call =>
        match s.pending tid with
        | some _ => none
        | none => some (s.enter tid call)
    | .locked tid d => (s.pending tid).map (fun call => s.locked slot tid call d)

/-- What one step can be. -/
theorem Sys.step_cases {slot : FlashArea} {s s' : Sys} {a : Act}
    (h : (otaSystem slot).step s a = some s') :
    (∃ tid call, a = .enter tid call ∧ s' = s.enter tid call) ∨
    (∃ tid call d, a = .locked tid d ∧ s.pending tid = some call ∧
      s' = s.locked slot tid call d) := by
  cases a with
  | enter tid call =>
      simp only [otaSystem] at h
      split at h
      · cases h
      · exact Or.inl ⟨tid, call, rfl, (Option.some.inj h).symm⟩
  | locked tid d =>
      obtain ⟨call, hcall, hs'⟩ := Option.map_eq_some_iff.mp h
      exact Or.inr ⟨tid, call, d, rfl, hcall, hs'.symm⟩

theorem Sys.enter_log (s : Sys) (tid : Nat) (call : Call) :
    (s.enter tid call).log = s.log := by
  unfold Sys.enter
  split <;> rfl

theorem Sys.enter_pending {s : Sys} {tid : Nat} {call : Call}
    (hcheck : call.precheck s.core = none) :
    (s.enter tid call).pending tid = some call := by
  simp [Sys.enter, hcheck]

theorem Call.entered_st (c : Core) (call : Call) :
    (call.entered c).st = c.st ∧ (call.entered c).flash = c.flash := by
  cases call <;> exact ⟨rfl, rfl⟩

theorem Sys.enter_core (s : Sys) (tid : Nat) (call : Call) :
    (s.enter tid call).core.st = s.core.st ∧
      (s.enter tid call).core.flash = s.core.flash := by
  unfold Sys.enter
  split
  · exact ⟨rfl, rfl⟩
  · exact call.entered_st s.core

/-- One upload, as its client sees it. -/
structure Session where
  size : UInt32
  data : List UInt8
  deriving DecidableEq, Repr

def Session.next : Option Session → Done → Option Session
  | _, ⟨_, .begin n, .ok⟩ => some ⟨n, []⟩
  | some ses, ⟨_, .chunk _ data, .ok⟩ => some {ses with data := ses.data ++ data}
  | ses, _ => ses

/-- The size given to the most recent successful `begin`, with the data of the
chunks that returned `APP_OTA_OK` since, in order. -/
def session (log : List Done) : Option Session := log.foldl Session.next none

theorem session_snoc (log : List Done) (ev : Done) :
    session (log ++ [ev]) = Session.next (session log) ev := by
  simp [session]

/-- Only a successful `begin` or `chunk` changes the session. -/
theorem Session.next_of_ne (ses : Option Session) {ev : Done}
    (h : ev.rc ≠ .ok) : Session.next ses ev = ses := by
  obtain ⟨tid, call, rc⟩ := ev
  cases call <;> cases rc <;> first | exact absurd rfl h | (cases ses <;> rfl)

/-- The core holds the session `ses`: the first bytes of the slot are its data,
each programmed once, and all others are still erased. -/
structure Holds (slot : FlashArea) (c : Core) (ses : Session) : Prop where
  area : c.uploadFa = some slot
  total : c.st.totalSize = ses.size
  nonzero : ses.size ≠ 0
  fits : ses.size.toNat ≤ slot.faSize
  received : c.st.bytesReceived.toNat = ses.data.length
  bound : ses.data.length ≤ ses.size.toNat
  bytes : readRange c.flash.bytes 0 ses.data.length = ses.data
  programs : ∀ p < slot.faSize,
    c.flash.programs p = if p < ses.data.length then 1 else 0

/-- Ready, writing, or committed and waiting for the reboot. -/
def Core.staged (c : Core) : Prop := c.live ∨ c.st.state = .committed

structure Inv (slot : FlashArea) (c : Core) (log : List Done) : Prop where
  holds : c.staged → ∃ ses, session log = some ses ∧ Holds slot c ses
  nullWrite : c.nullWrite = false

/-- What the unlocked checks have established of a call that waits for the
lock. -/
def Call.Admitted : Call → Prop
  | .begin n => n ≠ 0
  | .chunk _ data => data ≠ [] ∧ data.length ≤ 0xFFFF
  | _ => True

theorem Call.admitted_of_precheck {c : Core} {call : Call}
    (h : call.precheck c = none) : call.Admitted := by
  cases call with
  | init cb userArg => trivial
  | begin n =>
      simp only [Call.precheck] at h
      split at h
      · simp at h
      · split at h
        · simp at h
        · assumption
  | chunk offset data =>
      simp only [Call.precheck] at h
      split at h
      · simp at h
      · split at h
        · simp at h
        · split at h
          · simp at h
          · exact ⟨by assumption, by omega⟩
  | commit header => trivial
  | abort => trivial

/-- Only an abort without an initialised core returns at once without an error. -/
theorem Call.precheck_ne_ok (c : Core) {call : Call} (hcall : call ≠ .abort) :
    call.precheck c ≠ some .ok := by
  cases call with
  | init cb userArg => simp [Call.precheck]
  | begin n =>
      simp only [Call.precheck]
      split
      · simp
      · split <;> simp
  | chunk offset data =>
      simp only [Call.precheck]
      split
      · simp
      · split
        · simp
        · split
          · simp
          · split <;> simp
  | commit header =>
      simp only [Call.precheck]
      split
      · simp
      · split <;> simp
  | abort => exact absurd rfl hcall

theorem Inv.entered {slot : FlashArea} {c : Core} {log : List Done}
    (h : Inv slot c log) (call : Call) : Inv slot (call.entered c) log := by
  cases call with
  | init cb userArg =>
      refine ⟨fun hs => ?_, h.nullWrite⟩
      obtain ⟨ses, hses, hholds⟩ := h.holds hs
      exact ⟨ses, hses, hholds.1, hholds.2, hholds.3, hholds.4, hholds.5,
        hholds.6, hholds.7, hholds.8⟩
  | begin n => exact h
  | chunk offset data => exact h
  | commit header => exact h
  | abort => exact h

/-- Neither staged nor at fault: nothing is said about the slot. -/
theorem Inv.of_not_staged {slot : FlashArea} {c : Core} {log : List Done}
    (hstate : c.st.state = .idle ∨ c.st.state = .failed)
    (hnull : c.nullWrite = false) : Inv slot c log := by
  refine ⟨fun hs => ?_, hnull⟩
  rcases hs with (hs | hs) | hs <;> rw [hs] at hstate <;> simp at hstate

/-- A refused call that only records its error keeps the session. -/
theorem Inv.withErr {slot : FlashArea} {c : Core} {log : List Done}
    (h : Inv slot c log) (e : Err) {ev : Done} (hev : ev.rc ≠ .ok) :
    Inv slot (c.withErr e) (log ++ [ev]) := by
  refine ⟨fun hs => ?_, h.nullWrite⟩
  obtain ⟨ses, hses, hholds⟩ := h.holds hs
  refine ⟨ses, ?_, hholds.1, hholds.2, hholds.3, hholds.4, hholds.5,
    hholds.6, hholds.7, hholds.8⟩
  rw [session_snoc, Session.next_of_ne _ hev, hses]

theorem Inv.live {slot : FlashArea} {c : Core} {log : List Done}
    (h : Inv slot c log) (hlive : c.live) :
    ∃ ses, session log = some ses ∧ Holds slot c ses :=
  h.holds (Or.inl hlive)

theorem Inv.begin {slot : FlashArea} {c : Core} {log : List Done}
    (h : Inv slot c log) (tid : Nat) (d : Driver) {n : UInt32} (hn : n ≠ 0) :
    Inv slot (appOtaBeginLocked slot c d n).1
      (log ++ [⟨tid, .begin n, (appOtaBeginLocked slot c d n).2⟩]) := by
  rcases appOtaBeginLocked_cases slot c d n with
    ⟨hrc, hfits, herase, hcore⟩ | ⟨_, hstate, _, hnull⟩
  · rw [hrc, hcore]
    refine ⟨fun _ => ⟨⟨n, []⟩, ?_, ?_⟩, h.nullWrite⟩
    · rw [session_snoc]
      cases session log <;> rfl
    · refine ⟨rfl, rfl, hn, hfits, rfl, Nat.zero_le _, rfl, ?_⟩
      intro p hp
      simp [flashAreaErase, Driver.erases, hp, herase]
  · exact Inv.of_not_staged (Or.inr hstate) (hnull.trans h.nullWrite)

theorem Driver.writes_of_ok {d : Driver} (hrc : 0 ≤ d.writeRc) (p : Nat) :
    d.writes p = true := by
  simp [Driver.writes, hrc]

/-- A chunk that fits is appended: its bytes follow the session's data and are
programmed for the first time. -/
theorem Holds.chunk {slot : FlashArea} {c : Core} {ses : Session}
    (h : Holds slot c ses) (d : Driver) (hrc : 0 ≤ d.writeRc)
    {data : List UInt8}
    (hfits : ses.data.length + data.length ≤ ses.size.toNat) :
    Holds slot
      {c.flashWrite d c.st.bytesReceived data with st := {c.st with
        bytesReceived := c.st.bytesReceived + UInt32.ofNat data.length
        state := .writing
        lastErr := .ok}}
      {ses with data := ses.data ++ data} := by
  have hwrite : c.flashWrite d c.st.bytesReceived data =
      {c with flash :=
        flashAreaWrite c.flash ses.data.length data d} := by
    simp only [Core.flashWrite, h.area, h.received]
  have hsize := ses.size.toNat_lt
  rw [hwrite]
  refine ⟨h.area, h.total, h.nonzero, h.fits, ?_, ?_, ?_, ?_⟩
  · have hlen : (UInt32.ofNat data.length).toNat = data.length :=
      UInt32.toNat_ofNat_of_lt' (by show data.length < 2 ^ 32; omega)
    simp only [UInt32.toNat_add, h.received, hlen, List.length_append]
    exact Nat.mod_eq_of_lt (by omega)
  · simpa using hfits
  · simp only [flashAreaWrite, List.length_append]
    rw [readRange_patch_append _ (Driver.writes_of_ok hrc), h.bytes]
  · intro p hp
    simp only [flashAreaWrite, Driver.writes_of_ok hrc, true_and,
      List.length_append, h.programs p hp]
    by_cases hlow : p < ses.data.length
    · have hnot : ¬ (ses.data.length ≤ p ∧ p < ses.data.length + data.length) := by
        omega
      rw [if_neg hnot, if_pos hlow, if_pos (by omega)]
    · by_cases hhigh : p < ses.data.length + data.length
      · rw [if_pos ⟨by omega, hhigh⟩, if_neg hlow, if_pos hhigh]
      · rw [if_neg (fun hmid => hhigh hmid.2), if_neg hlow, if_neg hhigh]

theorem Holds.offset_fits {slot : FlashArea} {c : Core} {ses : Session}
    (h : Holds slot c ses) {offset : UInt32} {data : List UInt8}
    (hoff : offset = c.st.bytesReceived)
    (hfits : c.st.totalSize ≠ 0 →
      offset.toNat + data.length ≤ c.st.totalSize.toNat) :
    ses.data.length + data.length ≤ ses.size.toNat := by
  have hbound := hfits (by rw [h.total]; exact h.nonzero)
  rwa [hoff, h.received, h.total] at hbound

theorem Inv.chunk {slot : FlashArea} {c : Core} {log : List Done}
    (h : Inv slot c log) (tid : Nat) (d : Driver) (offset : UInt32)
    (data : List UInt8) :
    Inv slot (appOtaChunkLocked c d offset data).1
      (log ++ [⟨tid, .chunk offset data,
        (appOtaChunkLocked c d offset data).2⟩]) := by
  rcases appOtaChunkLocked_cases c d offset data with
    ⟨_, heq⟩ | ⟨_, _, heq⟩ | ⟨_, _, heq⟩ | ⟨hlive, _, _, _, heq⟩ |
      ⟨hlive, hoff, hfits, hrc, heq⟩
  · rw [heq]
    exact h.withErr _ (by simp)
  · rw [heq]
    exact h.withErr _ (by simp)
  · rw [heq]
    exact Inv.of_not_staged (Or.inr rfl) h.nullWrite
  · obtain ⟨ses, _, hholds⟩ := h.live hlive
    rw [heq]
    apply Inv.of_not_staged (Or.inr rfl)
    simp only [Core.fail, Core.flashWrite, hholds.area]
    exact h.nullWrite
  · obtain ⟨ses, hses, hholds⟩ := h.live hlive
    rw [heq, hoff]
    refine ⟨fun _ => ⟨{ses with data := ses.data ++ data}, ?_, ?_⟩, ?_⟩
    · rw [session_snoc, hses]
      rfl
    · exact hholds.chunk d hrc (hholds.offset_fits hoff hfits)
    · simp only [Core.flashWrite, hholds.area]
      exact h.nullWrite

theorem Inv.commit {slot : FlashArea} {c : Core} {log : List Done}
    (h : Inv slot c log) (tid : Nat) (d : Driver) (header : List UInt8) :
    Inv slot (appOtaCommitLocked c d).1
      (log ++ [⟨tid, .commit header, (appOtaCommitLocked c d).2⟩]) := by
  rcases appOtaCommitLocked_cases c d with
    ⟨_, heq⟩ | ⟨_, _, heq⟩ | ⟨_, heq⟩ | ⟨hstate, _, heq⟩
  · rw [heq]
    exact h.withErr _ (by simp)
  · rw [heq]
    exact h.withErr _ (by simp)
  · rw [heq]
    exact Inv.of_not_staged (Or.inr rfl) h.nullWrite
  · obtain ⟨ses, hses, hholds⟩ := h.live (Or.inr hstate)
    rw [heq]
    refine ⟨fun _ => ⟨ses, ?_, hholds.1, hholds.2, hholds.3, hholds.4,
      hholds.5, hholds.6, hholds.7, hholds.8⟩, h.nullWrite⟩
    rw [session_snoc, hses]
    rfl

/-- Every locked section keeps the invariant, whatever the drivers answer. -/
theorem Inv.locked {slot : FlashArea} {c : Core} {log : List Done}
    (h : Inv slot c log) (tid : Nat) (d : Driver) {call : Call}
    (hcall : call.Admitted) :
    Inv slot (call.locked slot c d).1
      (log ++ [⟨tid, call, (call.locked slot c d).2⟩]) := by
  cases call with
  | init cb userArg => exact Inv.of_not_staged (Or.inl rfl) h.nullWrite
  | begin n => exact h.begin tid d hcall
  | chunk offset data => exact h.chunk tid d offset data
  | commit header => exact h.commit tid d header
  | abort => exact Inv.of_not_staged (Or.inl rfl) h.nullWrite

/-- The invariant of the whole system: calls that wait for the lock, or have
held it, have passed their checks. -/
structure Sys.Inv (slot : FlashArea) (s : Sys) : Prop where
  core : Ota.Inv slot s.core s.log
  admitted : ∀ tid call, s.pending tid = some call → call.Admitted
  logged : ∀ ev ∈ s.log, ev.call.Admitted

theorem Sys.inv_powerUp (slot : FlashArea) (flash : Flash) :
    (Sys.powerUp flash).Inv slot where
  core := Ota.Inv.of_not_staged (Or.inl rfl) rfl
  admitted := by simp [Sys.powerUp]
  logged := by simp [Sys.powerUp]

theorem Sys.Inv.enter {slot : FlashArea} {s : Sys} (h : s.Inv slot)
    (tid : Nat) (call : Call) : (s.enter tid call).Inv slot := by
  unfold Sys.enter
  cases hcheck : call.precheck s.core with
  | some rc => exact h
  | none =>
      refine ⟨h.core.entered call, fun other call' hpending => ?_, h.logged⟩
      by_cases heq : other = tid
      · subst heq
        obtain rfl : call = call' := by simpa using hpending
        exact Call.admitted_of_precheck hcheck
      · exact h.admitted other call' (by simpa [heq] using hpending)

theorem Sys.Inv.locked {slot : FlashArea} {s : Sys} (h : s.Inv slot)
    {tid : Nat} {call : Call} (hcall : s.pending tid = some call)
    (d : Driver) : (s.locked slot tid call d).Inv slot := by
  have hadmitted := h.admitted tid call hcall
  refine ⟨h.core.locked tid d hadmitted, ?_, ?_⟩
  · intro other call' hpending
    by_cases heq : other = tid
    · subst heq
      simp [Sys.locked] at hpending
    · exact h.admitted other call' (by simpa [Sys.locked, heq] using hpending)
  · intro ev member
    rcases List.mem_append.mp member with hold | hnew
    · exact h.logged ev hold
    · obtain rfl := List.mem_singleton.mp hnew
      exact hadmitted

theorem Sys.Inv.step {slot : FlashArea} {s s' : Sys} {a : Act}
    (h : s.Inv slot) (hstep : (otaSystem slot).step s a = some s') :
    s'.Inv slot := by
  rcases Sys.step_cases hstep with ⟨tid, call, _, rfl⟩ | ⟨tid, call, d, _, hcall, rfl⟩
  · exact h.enter tid call
  · exact h.locked hcall d

theorem Call.locked_inited (slot : FlashArea) (c : Core) (d : Driver)
    (call : Call) : (call.locked slot c d).1.inited = c.inited := by
  cases call with
  | init cb userArg => rfl
  | begin n =>
      rcases appOtaBeginLocked_cases slot c d n with
        ⟨_, _, _, heq⟩ | ⟨_, _, hinited, _⟩
      · simp [Call.locked, heq]
      · exact hinited
  | chunk offset data =>
      rcases appOtaChunkLocked_cases c d offset data with
        ⟨_, heq⟩ | ⟨_, _, heq⟩ | ⟨_, _, heq⟩ | ⟨_, _, _, _, heq⟩ |
          ⟨_, _, _, _, heq⟩ <;>
        simp [Call.locked, heq, Core.withErr, Core.fail]
  | commit header =>
      rcases appOtaCommitLocked_cases c d with
        ⟨_, heq⟩ | ⟨_, _, heq⟩ | ⟨_, heq⟩ | ⟨_, _, heq⟩ <;>
        simp [Call.locked, heq, Core.withErr, Core.fail]
  | abort => rfl

/-- Once initialised, the core stays so. -/
theorem Sys.inited_of_exec {slot : FlashArea} {s s' : Sys} {acts : List Act}
    (hs : s.core.inited = true)
    (hrun : (otaSystem slot).exec s acts = some s') : s'.core.inited = true := by
  have hkeep : ∀ t a t', t.core.inited = true →
      (otaSystem slot).step t a = some t' → t'.core.inited = true := by
    intro t a t' ht hstep
    rcases Sys.step_cases hstep with ⟨tid, call, _, rfl⟩ | ⟨tid, call, d, _, _, rfl⟩
    · unfold Sys.enter
      split
      · exact ht
      · cases call <;> first | exact ht | rfl
    · exact (Call.locked_inited slot t.core d call).trans ht
  exact System.exec_invariant hkeep hs hrun

/-- The log only grows. -/
theorem Sys.log_grows_of_step {slot : FlashArea} {s s' : Sys} {a : Act}
    (hstep : (otaSystem slot).step s a = some s') : s.log <+: s'.log := by
  rcases Sys.step_cases hstep with ⟨tid, call, _, rfl⟩ | ⟨tid, call, d, _, _, rfl⟩
  · simp [s.enter_log]
  · exact List.prefix_append _ _

theorem Sys.log_grows_of_exec {slot : FlashArea} {s s' : Sys} {acts : List Act}
    (hrun : (otaSystem slot).exec s acts = some s') : s.log <+: s'.log :=
  have hkeep : ∀ t a t', s.log <+: t.log → (otaSystem slot).step t a = some t' →
      s.log <+: t'.log :=
    fun _ _ _ h hstep => h.trans (Sys.log_grows_of_step hstep)
  System.exec_invariant hkeep (List.prefix_refl _) hrun

theorem Sys.inv_of_exec {slot : FlashArea} {flash : Flash} {acts : List Act}
    {s : Sys} (hrun : (otaSystem slot).exec (Sys.powerUp flash) acts = some s) :
    s.Inv slot :=
  System.exec_invariant (fun _ _ _ h hstep => h.step hstep)
    (Sys.inv_powerUp slot flash) hrun

/-- A state that some interleaving leads to after power-up. -/
def Sys.Reached (slot : FlashArea) (s : Sys) : Prop :=
  ∃ flash acts, (otaSystem slot).exec (Sys.powerUp flash) acts = some s

theorem Sys.Reached.inv {slot : FlashArea} {s : Sys} (h : s.Reached slot) :
    s.Inv slot := by
  obtain ⟨flash, acts, hrun⟩ := h
  exact Sys.inv_of_exec hrun

/-- Committed-image integrity. In every interleaving and for every answer of the
drivers, nothing is written through a NULL area, and a commit that succeeds
finds exactly the announced image in the slot, each byte programmed once. -/
theorem commit_integrity (slot : FlashArea) (flash : Flash)
    (acts : List Act) (s : Sys)
    (hrun : (otaSystem slot).exec (Sys.powerUp flash) acts = some s) :
    s.core.nullWrite = false ∧
    ∀ tid header d s', s.pending tid = some (.commit header) →
      (otaSystem slot).step s (.locked tid d) = some s' →
      s'.log = s.log ++ [⟨tid, .commit header, .ok⟩] →
      ∃ ses, session s.log = some ses ∧
        s'.core.st.bytesReceived = s'.core.st.totalSize ∧
        s'.core.st.totalSize = ses.size ∧
        ses.size.toNat ≤ slot.faSize ∧
        readRange s'.core.flash.bytes 0 ses.size.toNat = ses.data ∧
        ∀ p < slot.faSize, s'.core.flash.programs p ≤ 1 := by
  have hinv := Sys.inv_of_exec hrun
  refine ⟨hinv.core.nullWrite, ?_⟩
  intro tid header d s' hcall hstep hlog
  obtain rfl : s.locked slot tid (.commit header) d = s' := by
    simpa [otaSystem, hcall] using hstep
  have hrc : (appOtaCommitLocked s.core d).2 = .ok := by
    simpa [Sys.locked, Call.locked] using hlog
  obtain ⟨hstate, hfull, heq⟩ := appOtaCommitLocked_ok hrc
  obtain ⟨ses, hses, hholds⟩ := hinv.core.live (Or.inr hstate)
  have htotal : s.core.st.bytesReceived = s.core.st.totalSize :=
    hfull (by rw [hholds.total]; exact hholds.nonzero)
  have hlength : ses.size.toNat = ses.data.length := by
    rw [← hholds.received, htotal, hholds.total]
  simp only [Sys.locked, Call.locked, heq]
  refine ⟨ses, hses, htotal, hholds.total, hholds.fits, ?_, ?_⟩
  · rw [hlength]
    exact hholds.bytes
  · intro p hp
    rw [hholds.programs p hp]
    split <;> omega

/-- Three threads upload three bytes; the second chunk passes its checks before
the first one holds the lock. -/
def uploadActs : List Act :=
  [.enter 0 (.init none none), .locked 0 .success,
   .enter 0 (.begin 3), .locked 0 .success,
   .enter 0 (.chunk 0 [7, 8]), .enter 1 (.chunk 2 [9]),
   .locked 0 .success, .locked 1 .success, .enter 2 (.commit [])]

theorem commit_integrity_upload :
    ∃ s s' ses, (otaSystem ⟨8⟩).exec (Sys.powerUp .blank) uploadActs = some s ∧
      (otaSystem ⟨8⟩).step s (.locked 2 .success) = some s' ∧
      session s.log = some ses ∧ ses.size = 3 ∧
      readRange s'.core.flash.bytes 0 ses.size.toNat = ses.data := by
  obtain ⟨ses, hses, _, _, _, hbytes, _⟩ :=
    (commit_integrity ⟨8⟩ .blank uploadActs _ rfl).2 2 [] .success _ rfl rfl rfl
  refine ⟨_, _, ses, rfl, rfl, hses, ?_, hbytes⟩
  obtain rfl : (⟨3, [7, 8, 9]⟩ : Session) = ses := Option.some.inj hses
  rfl

end Rw612.Ota
