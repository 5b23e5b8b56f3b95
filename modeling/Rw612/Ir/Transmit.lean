import Rw612.Ir.SamsungAc
import Rw612.Lib.Transition

/-!
The transmitter of `ir_tx_zephyr.c`: any number of `ir_tx_send_symbols` calls
and `ir_tx_thread`, one statement at a time. The calls share `s_buf` and
`s_count` under `s_busy_mtx`, but the thread reads them without it, and a call
whose wait times out gives the mutex back while its frame is still pending.
-/

namespace Rw612.Ir

open Lib

def APP_IR_TX_MAX_SYMBOLS : Nat := 384

def EAGAIN : Int := 11
def ENOMEM : Int := 12
def EINVAL : Int := 22
def ETIMEDOUT : Int := 116

/-- A call past its checks: its array, and how many frames the thread had begun
when it was made. -/
structure Send where
  syms : List Symbol
  since : Nat
  deriving DecidableEq

/-- The next statement of `ir_tx_send_symbols`. -/
inductive SenderPc where
  | out
  | check (syms : Option (List Symbol)) (since : Nat)
  | lock (c : Send)
  /-- `memcpy` has written `k` symbols; after the last one `s_count` follows. -/
  | fill (c : Send) (k : Nat)
  | drain (c : Send)
  | trigger (c : Send)
  | wait (c : Send)
  | blocked (c : Send)
  | unlock (c : Send) (ret : Int)
  deriving DecidableEq

/-- The next statement of `ir_tx_thread`; `out` holds the symbols of the frame
that are already emitted, so that `i` is its length. -/
inductive ThreadPc where
  | take
  | blocked
  | load
  | mark (cnt : Nat) (out : List Symbol)
  | space (cnt : Nat) (out : List Symbol) (markUs : UInt16)
  | give (out : List Symbol)
  deriving DecidableEq

/-- A call that has returned, with the number of frames completed by then. -/
structure Returned where
  syms : Option (List Symbol)
  since : Nat
  upto : Nat
  ret : Int
  deriving DecidableEq

/-- The module state of the transmitter and where its threads are; `passed`,
`sent` and `returns` record the arrays that were passed in, the frames that were
completed, and the calls that have returned. -/
structure Tx where
  inited : Bool
  busyMtx : Option Nat
  buf : Nat → Symbol
  count : Nat
  trigger : Bool
  done : Bool
  thread : ThreadPc
  senders : Nat → SenderPc
  passed : List (List Symbol)
  sent : List (List Symbol)
  returns : List Returned

def Tx.powerUp : Tx where
  inited := false
  busyMtx := none
  buf := fun _ => ⟨0, 0⟩
  count := 0
  trigger := false
  done := false
  thread := .take
  senders := fun _ => .out
  passed := []
  sent := []
  returns := []

/-- The frames that were begun: all completed ones, and the one in progress. -/
def Tx.begun (s : Tx) : Nat :=
  match s.thread with
  | .take | .blocked => s.sent.length
  | _ => s.sent.length + 1

def Tx.setSender (s : Tx) (tid : Nat) (pc : SenderPc) : Tx :=
  {s with senders := Function.update s.senders tid pc}

/-- `k_sem_give(&s_trigger)`: a waiting thread gets the token at once. -/
def Tx.giveTrigger (s : Tx) : Tx :=
  match s.thread with
  | .blocked => {s with thread := .load}
  | _ => {s with trigger := true}

/-- `k_sem_give(&s_done)`: only the holder of the mutex can wait for it. -/
def Tx.giveDone (s : Tx) : Tx :=
  match s.busyMtx with
  | none => {s with done := true}
  | some tid =>
      match s.senders tid with
      | .blocked c => s.setSender tid (.unlock c 0)
      | _ => {s with done := true}

/-- `ir_tx_init` on a device that is ready. -/
def irTxInit (s : Tx) : Tx :=
  if s.inited then s
  else
    {s with
      busyMtx := none
      trigger := false
      done := false
      thread := .take
      inited := true}

def Tx.return (s : Tx) (tid : Nat) (r : Returned) : Tx :=
  {s.setSender tid .out with returns := s.returns ++ [r]}

/-- The next statement of a call of `ir_tx_send_symbols`, unless it has to wait. -/
def irTxSendSymbols (s : Tx) (tid : Nat) : Option Tx :=
  match s.senders tid with
  | .out | .blocked _ => none
  | .check syms since =>
      let fail ret := s.return tid ⟨syms, since, s.sent.length, ret⟩
      if !s.inited then some (fail (-EAGAIN))
      else
        match syms with
        | none => some (fail (-EINVAL))
        | some a =>
            if a.length = 0 then some (fail (-EINVAL))
            else if APP_IR_TX_MAX_SYMBOLS < a.length then some (fail (-ENOMEM))
            else some (s.setSender tid (.lock ⟨a, since⟩))
  | .lock c =>
      if s.busyMtx = none then
        some {s.setSender tid (.fill c 0) with busyMtx := some tid}
      else none
  | .fill c k =>
      match c.syms[k]? with
      | some x =>
          some {s.setSender tid (.fill c (k + 1)) with
            buf := Function.update s.buf k x}
      | none => some {s.setSender tid (.drain c) with count := c.syms.length}
  | .drain c => some {s.setSender tid (.trigger c) with done := false}
  | .trigger c => some ((s.setSender tid (.wait c)).giveTrigger)
  | .wait c =>
      if s.done then some {s.setSender tid (.unlock c 0) with done := false}
      else some (s.setSender tid (.blocked c))
  | .unlock c ret =>
      some {s.return tid ⟨c.syms, c.since, s.sent.length,
          if ret ≠ 0 then -ETIMEDOUT else 0⟩ with
        busyMtx := none}

/-- The next statement of `ir_tx_thread`, unless it has to wait. -/
def irTxThread (s : Tx) : Option Tx :=
  match s.thread with
  | .take =>
      if s.trigger then some {s with trigger := false, thread := .load}
      else some {s with thread := .blocked}
  | .blocked => none
  | .load => some {s with thread := .mark s.count []}
  | .mark cnt out =>
      if out.length < cnt then
        some {s with thread := .space cnt out (s.buf out.length).markUs}
      else some {s with thread := .give out}
  | .space cnt out markUs =>
      some {s with
        thread := .mark cnt (out ++ [⟨markUs, (s.buf out.length).spaceUs⟩])}
  | .give out =>
      some (Tx.giveDone {s with sent := s.sent ++ [out], thread := .take})

inductive TxAct where
  | init
  /-- A call with an array, or with NULL. -/
  | call (tid : Nat) (syms : Option (List Symbol))
  | sender (tid : Nat)
  /-- `APP_IR_TX_SEND_TIMEOUT_MS` has passed for a waiting call. -/
  | timeout (tid : Nat)
  | thread

def Tx.step (s : Tx) : TxAct → Option Tx
  | .init => some (irTxInit s)
  | .call tid syms =>
      if s.senders tid = .out then
        some {s.setSender tid (.check syms s.begun) with
          passed := s.passed ++ syms.toList}
      else none
  | .sender tid => irTxSendSymbols s tid
  | .timeout tid =>
      match s.senders tid with
      | .blocked c => some (s.setSender tid (.unlock c (-EAGAIN)))
      | _ => none
  | .thread => if s.inited then irTxThread s else none

def txSystem : System Tx TxAct := ⟨Tx.step⟩

/-- The symbols of the frame in progress that are emitted, and the mark that may
already follow them. -/
def Tx.emitting (s : Tx) : List Symbol × Option UInt16 :=
  match s.thread with
  | .take | .blocked | .load => ([], none)
  | .mark _ out | .give out => (out, none)
  | .space _ out markUs => (out, some markUs)

/-- A call that has returned 0 had its own frame emitted since it was made, as
the last frame before its return, and what is emitted always is the array of
one call, or the beginning of one. -/
structure Tx.OwnFrames (s : Tx) : Prop where
  success : ∀ r ∈ s.returns, r.ret = 0 →
    ∃ a k, r.syms = some a ∧ r.since ≤ k ∧ r.upto = k + 1 ∧ s.sent[k]? = some a
  whole : ∀ frame ∈ s.sent, frame ∈ s.passed
  front : s.emitting = ([], none) ∨ ∃ a ∈ s.passed, s.emitting.1 <+: a ∧
    ∀ m ∈ s.emitting.2, (a[s.emitting.1.length]?).map Symbol.markUs = some m

/-- The thread waits for the next trigger, and there is none. -/
def Tx.Quiet (s : Tx) : Prop :=
  s.trigger = false ∧ (s.thread = .take ∨ s.thread = .blocked)

/-- The thread has read all of its frame. -/
def Tx.Giving (s : Tx) : Prop :=
  s.trigger = false ∧ ∃ out, s.thread = .give out

/-- A call writes to `s_buf` and `s_count` only while no earlier frame is still
to be read, and takes the old token of `s_done` only after the thread has given
it. -/
def FillsUnread (s : Tx) : TxAct → Prop
  | .sender tid =>
      match s.senders tid with
      | .fill _ _ => s.Quiet ∨ s.Giving
      | .drain _ => s.Quiet
      | _ => True
  | _ => True

/-! The invariant. -/

/-- What `s_buf` and `s_count` describe. -/
def Tx.frame (s : Tx) : List Symbol := (List.range s.count).map s.buf

/-- The thread is still to emit the frame in the buffer, or the rest of it. -/
def Tx.Sending (s : Tx) : Prop :=
  match s.thread with
  | .take => s.trigger = true
  | .blocked => False
  | .load => s.trigger = false
  | .mark cnt out => s.trigger = false ∧ cnt = s.count ∧ out <+: s.frame
  | .space cnt out markUs => s.trigger = false ∧ cnt = s.count ∧ out <+: s.frame ∧
      out.length < cnt ∧ markUs = (s.buf out.length).markUs
  | .give out => s.trigger = false ∧ out = s.frame

def Tx.InFlight (s : Tx) (c : Send) : Prop :=
  s.Sending ∧ s.frame = c.syms ∧ s.done = false ∧ c.since ≤ s.sent.length

def Tx.Emitted (s : Tx) (c : Send) : Prop :=
  s.Quiet ∧ ∃ k, c.since ≤ k ∧ s.sent.length = k + 1 ∧ s.sent[k]? = some c.syms

/-- What holds at each statement of a call. -/
def Tx.SenderOk (s : Tx) : SenderPc → Prop
  | .out => True
  | .check syms since => since ≤ s.begun ∧ ∀ a ∈ syms, a ∈ s.passed
  | .lock c => c.since ≤ s.begun ∧ c.syms ∈ s.passed
  | .fill c k => c.since ≤ s.begun ∧ c.syms ∈ s.passed ∧
      (List.range k).map s.buf = c.syms.take k
  | .drain c => c.since ≤ s.begun ∧ c.syms ∈ s.passed ∧ s.frame = c.syms
  | .trigger c => s.Quiet ∧ c.since ≤ s.sent.length ∧ c.syms ∈ s.passed ∧
      s.frame = c.syms ∧ s.done = false
  | .wait c => s.InFlight c ∨ s.Emitted c ∧ s.done = true
  | .blocked c => s.InFlight c
  | .unlock c ret => ret = 0 → s.Emitted c

/-- Between `k_mutex_lock` and `k_mutex_unlock`. -/
def SenderPc.Inside : SenderPc → Prop
  | .out | .check _ _ | .lock _ => False
  | _ => True

/-- No frame, the last statement of one, or a frame that is still to be read. -/
def Tx.ThreadOk (s : Tx) : Prop :=
  s.Quiet ∨ (s.trigger = false ∧ ∃ out ∈ s.passed, s.thread = .give out) ∨
    (s.frame ∈ s.passed ∧ s.Sending)

structure Tx.Paired (s : Tx) : Prop where
  mutex : ∀ tid, (s.senders tid).Inside → s.busyMtx = some tid
  sender : ∀ tid, s.SenderOk (s.senders tid)
  thread : s.ThreadOk
  whole : ∀ frame ∈ s.sent, frame ∈ s.passed
  success : ∀ r ∈ s.returns, r.ret = 0 →
    ∃ a k, r.syms = some a ∧ r.since ≤ k ∧ r.upto = k + 1 ∧ s.sent[k]? = some a

theorem Tx.frame_get {s : Tx} {i : Nat} (hi : i < s.count) :
    s.frame[i]? = some (s.buf i) := by
  simp [Tx.frame, hi]

theorem Tx.length_frame (s : Tx) : s.frame.length = s.count := by
  simp [Tx.frame]

/-- One more symbol of the frame. -/
theorem Tx.frame_prefix {s : Tx} {out : List Symbol} (h : out <+: s.frame)
    (hlen : out.length < s.count) : out ++ [s.buf out.length] <+: s.frame := by
  rw [List.prefix_iff_eq_take, List.length_append, List.length_singleton,
    List.take_add_one, Tx.frame_get hlen, ← List.prefix_iff_eq_take.mp h]
  rfl

theorem Tx.Paired.ownFrames {s : Tx} (h : s.Paired) : s.OwnFrames where
  success := h.success
  whole := h.whole
  front := by
    rcases h.thread with ⟨-, hthread⟩ | ⟨-, out, hout, hthread⟩ | ⟨hframe, hsending⟩
    · left
      rcases hthread with hthread | hthread <;> simp [Tx.emitting, hthread]
    · right
      refine ⟨out, hout, ?_⟩
      simp [Tx.emitting, hthread]
    · cases hthread : s.thread with
      | take | blocked | load => exact Or.inl (by simp [Tx.emitting, hthread])
      | mark cnt out =>
          simp only [Tx.Sending, hthread] at hsending
          exact Or.inr ⟨s.frame, hframe, by simp [Tx.emitting, hthread, hsending.2.2]⟩
      | space cnt out markUs =>
          simp only [Tx.Sending, hthread] at hsending
          obtain ⟨-, rfl, hout, hlen, rfl⟩ := hsending
          refine Or.inr ⟨s.frame, hframe, ?_⟩
          simp [Tx.emitting, hthread, hout, Tx.frame_get hlen]
      | give out =>
          simp only [Tx.Sending, hthread] at hsending
          exact Or.inr ⟨s.frame, hframe, by simp [Tx.emitting, hthread, hsending.2]⟩

theorem Tx.paired_powerUp : Tx.powerUp.Paired := by
  constructor <;>
    simp [Tx.powerUp, SenderPc.Inside, Tx.SenderOk, Tx.ThreadOk, Tx.Quiet]

/-! The thread. -/

/-- A statement of the thread within its loop. -/
structure Tx.Advances (s s' : Tx) : Prop where
  same : s' = {s with trigger := s'.trigger, thread := s'.thread}
  begun : s.begun ≤ s'.begun
  quiet : s.Quiet → s'.Quiet
  sending : s.Sending → s'.Sending

theorem irTxThread_cases {s s' : Tx} (h : irTxThread s = some s') :
    (∃ out, s.thread = .give out ∧
      s' = Tx.giveDone {s with sent := s.sent ++ [out], thread := .take}) ∨
    ((∀ out, s.thread ≠ .give out) ∧ s.Advances s') := by
  unfold irTxThread at h
  cases hthread : s.thread with
  | give out =>
      rw [hthread] at h
      exact Or.inl ⟨out, rfl, (Option.some.inj h).symm⟩
  | blocked => simp [hthread] at h
  | take =>
      right
      simp only [hthread] at h
      split at h
      case isTrue htrigger =>
          obtain rfl := Option.some.inj h
          refine ⟨by simp, rfl, ?_, ?_, ?_⟩ <;>
            simp [Tx.begun, Tx.Quiet, Tx.Sending, hthread, htrigger]
      case isFalse htrigger =>
          obtain rfl := Option.some.inj h
          refine ⟨by simp, rfl, ?_, ?_, ?_⟩ <;>
            simp [Tx.begun, Tx.Quiet, Tx.Sending, hthread, htrigger]
  | load =>
      right
      simp only [hthread, Option.some.injEq] at h
      subst h
      refine ⟨by simp, rfl, ?_, ?_, ?_⟩ <;>
        simp [Tx.begun, Tx.Quiet, Tx.Sending, hthread]
  | mark cnt out =>
      right
      simp only [hthread] at h
      split at h
      case isTrue hlen =>
          obtain rfl := Option.some.inj h
          refine ⟨by simp, rfl, ?_, ?_, ?_⟩
          · simp [Tx.begun, hthread]
          · simp [Tx.Quiet, hthread]
          · simp only [Tx.Sending, hthread]
            rintro ⟨htrigger, rfl, hout⟩
            exact ⟨htrigger, rfl, hout, hlen, trivial⟩
      case isFalse hlen =>
          obtain rfl := Option.some.inj h
          refine ⟨by simp, rfl, ?_, ?_, ?_⟩
          · simp [Tx.begun, hthread]
          · simp [Tx.Quiet, hthread]
          · simp only [Tx.Sending, hthread]
            rintro ⟨htrigger, rfl, hout⟩
            exact ⟨htrigger, hout.eq_of_length_le
              (Nat.le_of_not_lt (s.length_frame ▸ hlen))⟩
  | space cnt out markUs =>
      right
      simp only [hthread, Option.some.injEq] at h
      subst h
      refine ⟨by simp, rfl, ?_, ?_, ?_⟩
      · simp [Tx.begun, hthread]
      · simp [Tx.Quiet, hthread]
      · simp only [Tx.Sending, hthread]
        rintro ⟨htrigger, rfl, hout, hlen, rfl⟩
        exact ⟨htrigger, rfl, Tx.frame_prefix hout hlen⟩

theorem Tx.SenderOk.advance {s s' : Tx} (h : s.Advances s') {pc : SenderPc}
    (hpc : s.SenderOk pc) : s'.SenderOk pc := by
  obtain ⟨hsame, hbegun, hquiet, hsending⟩ := h
  have hbuf : s'.buf = s.buf := by rw [hsame]
  have hframe : s'.frame = s.frame := by rw [hsame]; rfl
  have hdone : s'.done = s.done := by rw [hsame]
  have hsent : s'.sent = s.sent := by rw [hsame]
  have hpassed : s'.passed = s.passed := by rw [hsame]
  cases pc with
  | out => trivial
  | check syms since => exact ⟨hpc.1.trans hbegun, hpassed ▸ hpc.2⟩
  | lock c => exact ⟨hpc.1.trans hbegun, hpassed ▸ hpc.2⟩
  | fill c k => exact ⟨hpc.1.trans hbegun, hpassed ▸ hpc.2.1, hbuf ▸ hpc.2.2⟩
  | drain c => exact ⟨hpc.1.trans hbegun, hpassed ▸ hpc.2.1, hframe ▸ hpc.2.2⟩
  | trigger c =>
      obtain ⟨hq, hrest⟩ := hpc
      refine ⟨hquiet hq, ?_⟩
      rwa [hsent, hpassed, hframe, hdone]
  | wait c =>
      refine hpc.imp (fun hfly => ?_) (fun hemitted => ?_)
      · exact ⟨hsending hfly.1, by rw [hframe, hdone, hsent]; exact hfly.2⟩
      · obtain ⟨⟨hq, hsent'⟩, hd⟩ := hemitted
        exact ⟨⟨hquiet hq, by rwa [hsent]⟩, by rwa [hdone]⟩
  | blocked c => exact ⟨hsending hpc.1, by rw [hframe, hdone, hsent]; exact hpc.2⟩
  | unlock c ret =>
      intro hret
      obtain ⟨hq, hsent'⟩ := hpc hret
      exact ⟨hquiet hq, by rwa [hsent]⟩

theorem Tx.Paired.advance {s s' : Tx} (h : s.Paired) (hadv : s.Advances s')
    (hgive : ∀ out, s.thread ≠ .give out) : s'.Paired := by
  have hsenders : s'.senders = s.senders := by rw [hadv.same]
  refine ⟨?_, ?_, ?_, ?_, ?_⟩
  · rw [hadv.same]
    exact h.mutex
  · rw [hsenders]
    exact fun tid => (h.sender tid).advance hadv
  · rcases h.thread with hquiet | ⟨-, out, -, hout⟩ | ⟨hframe, hsending⟩
    · exact Or.inl (hadv.quiet hquiet)
    · exact absurd hout (hgive out)
    · refine Or.inr (Or.inr ⟨?_, hadv.sending hsending⟩)
      rw [hadv.same]
      exact hframe
  · rw [hadv.same]
    exact h.whole
  · rw [hadv.same]
    exact h.success

/-- Outside the mutex a call knows only what grows. -/
theorem Tx.SenderOk.outside {s s' : Tx} {pc : SenderPc} (hpc : s.SenderOk pc)
    (hout : ¬pc.Inside) (hbegun : s.begun ≤ s'.begun) (hpassed : s.passed ⊆ s'.passed) :
    s'.SenderOk pc := by
  cases pc with
  | out => trivial
  | check syms since => exact ⟨hpc.1.trans hbegun, fun a ha => hpassed (hpc.2 a ha)⟩
  | lock c => exact ⟨hpc.1.trans hbegun, hpassed hpc.2⟩
  | fill | drain | trigger | wait | blocked | unlock => exact absurd trivial hout

/-- Only one call is inside the mutex. -/
theorem Tx.Paired.outside {s : Tx} (h : s.Paired) {tid t : Nat}
    (hmtx : s.busyMtx = some tid) (ht : t ≠ tid) : ¬(s.senders t).Inside :=
  fun hin => ht (Option.some.inj ((h.mutex t hin).symm.trans hmtx))

/-- One call has moved, and the others have not. -/
theorem Tx.mutex_update {s : Tx} {tid : Nat} {pc : SenderPc} {holder : Option Nat}
    (hself : pc.Inside → holder = some tid)
    (hothers : ∀ t, t ≠ tid → (s.senders t).Inside → holder = some t) :
    ∀ t, (Function.update s.senders tid pc t).Inside → holder = some t :=
  (Function.forall_update_iff s.senders (fun t pc => pc.Inside → holder = some t)).mpr
    ⟨hself, hothers⟩

theorem Tx.sender_update {s s' : Tx} {tid : Nat} {pc : SenderPc} (hself : s'.SenderOk pc)
    (hothers : ∀ t, t ≠ tid → s'.SenderOk (s.senders t)) :
    ∀ t, s'.SenderOk (Function.update s.senders tid pc t) :=
  (Function.forall_update_iff s.senders (fun _ pc => s'.SenderOk pc)).mpr ⟨hself, hothers⟩

theorem Tx.giveDone_cases (s : Tx) :
    (∃ tid c, s.busyMtx = some tid ∧ s.senders tid = .blocked c ∧
      s.giveDone = s.setSender tid (.unlock c 0)) ∨
    ((∀ tid c, s.busyMtx = some tid → s.senders tid ≠ .blocked c) ∧
      s.giveDone = {s with done := true}) := by
  unfold Tx.giveDone
  split
  case h_1 hmtx => exact Or.inr ⟨by simp [hmtx], rfl⟩
  case h_2 tid hmtx =>
      split
      case h_1 c hc => exact Or.inl ⟨tid, c, hmtx, hc, rfl⟩
      case h_2 hne =>
          refine Or.inr ⟨fun tid' c htid => ?_, rfl⟩
          cases hmtx.symm.trans htid
          exact hne c

/-- A frame whose token is about to be given is the array of a call. -/
theorem Tx.ThreadOk.giving {s : Tx} (h : s.ThreadOk) {out : List Symbol}
    (hthread : s.thread = .give out) : s.trigger = false ∧ out ∈ s.passed := by
  rcases h with hquiet | ⟨htrigger, out', hout, hthread'⟩ | ⟨hframe, hsending⟩
  · simp [Tx.Quiet, hthread] at hquiet
  · cases hthread.symm.trans hthread'
    exact ⟨htrigger, hout⟩
  · simp only [Tx.Sending, hthread] at hsending
    exact ⟨hsending.1, hsending.2 ▸ hframe⟩

/-- The last statement of the thread: the frame is complete and its token given. -/
theorem Tx.Paired.give {s : Tx} (h : s.Paired) {out : List Symbol}
    (hthread : s.thread = .give out) :
    (Tx.giveDone {s with sent := s.sent ++ [out], thread := .take}).Paired := by
  have hnotQuiet : ¬s.Quiet := by simp [Tx.Quiet, hthread]
  obtain ⟨htrigger, hout⟩ := h.thread.giving hthread
  have hbegun : s.begun = s.sent.length + 1 := by simp [Tx.begun, hthread]
  have hemitted : ∀ c, s.InFlight c →
      Tx.Emitted {s with sent := s.sent ++ [out], thread := .take} c := by
    rintro c ⟨hsending, hframe, -, hsince⟩
    simp only [Tx.Sending, hthread] at hsending
    refine ⟨⟨htrigger, Or.inl rfl⟩, s.sent.length, hsince, by simp, ?_⟩
    simp [hsending.2, hframe]
  have hwhole : ∀ frame ∈ s.sent ++ [out], frame ∈ s.passed := by
    intro frame hframe
    rcases List.mem_append.mp hframe with hframe | hframe
    · exact h.whole frame hframe
    · exact List.mem_singleton.mp hframe ▸ hout
  have hsuccess : ∀ r ∈ s.returns, r.ret = 0 → ∃ a k, r.syms = some a ∧
      r.since ≤ k ∧ r.upto = k + 1 ∧ (s.sent ++ [out])[k]? = some a := by
    intro r hr hret
    obtain ⟨a, k, hsyms, hsince, hupto, hget⟩ := h.success r hr hret
    obtain ⟨hk, -⟩ := List.getElem?_eq_some_iff.mp hget
    exact ⟨a, k, hsyms, hsince, hupto, by rwa [List.getElem?_append_left hk]⟩
  have hafter : Tx.begun {s with sent := s.sent ++ [out], thread := .take} = s.begun := by
    rw [hbegun, Tx.begun, List.length_append, List.length_singleton]
  rcases Tx.giveDone_cases {s with sent := s.sent ++ [out], thread := .take} with
      ⟨tid, c, hmtx, hblocked, heq⟩ | ⟨hne, heq⟩
  · -- the caller of this frame is waiting for it
    replace hmtx : s.busyMtx = some tid := hmtx
    replace hblocked : s.senders tid = .blocked c := hblocked
    have hc : s.SenderOk (.blocked c) := hblocked ▸ h.sender tid
    rw [heq]
    refine ⟨?_, ?_, Or.inl ⟨htrigger, Or.inl rfl⟩, hwhole, hsuccess⟩
    · exact Tx.mutex_update (fun _ => hmtx) (fun t _ => h.mutex t)
    · refine Tx.sender_update (fun _ => hemitted c hc) (fun t ht => ?_)
      exact (h.sender t).outside (h.outside hmtx ht) hafter.ge (List.Subset.refl _)
  · rw [heq]
    refine ⟨h.mutex, fun t => ?_, Or.inl ⟨htrigger, Or.inl rfl⟩, hwhole, hsuccess⟩
    have ht := h.sender t
    change Tx.SenderOk _ (s.senders t)
    cases hpc : s.senders t with
    | out => trivial
    | check syms since => rw [hpc] at ht; exact ⟨hafter ▸ ht.1, ht.2⟩
    | lock c => rw [hpc] at ht; exact ⟨hafter ▸ ht.1, ht.2⟩
    | fill c k => rw [hpc] at ht; exact ⟨hafter ▸ ht.1, ht.2⟩
    | drain c => rw [hpc] at ht; exact ⟨hafter ▸ ht.1, ht.2⟩
    | trigger c => rw [hpc] at ht; exact absurd ht.1 hnotQuiet
    | wait c =>
        rw [hpc] at ht
        rcases ht with hfly | ⟨⟨hquiet, -⟩, -⟩
        · exact Or.inr ⟨hemitted c hfly, rfl⟩
        · exact absurd hquiet hnotQuiet
    | blocked c =>
        exact absurd hpc (hne t c (h.mutex t (by rw [hpc]; trivial)))
    | unlock c ret => rw [hpc] at ht; exact fun hret => absurd (ht hret).1 hnotQuiet

/-! The calls. -/

/-- A step of one call that leaves the shared state as it is. -/
theorem Tx.Paired.setSender {s : Tx} (h : s.Paired) {tid : Nat} {pc : SenderPc}
    (hin : pc.Inside → s.busyMtx = some tid) (hok : s.SenderOk pc) :
    (s.setSender tid pc).Paired where
  mutex := Tx.mutex_update hin (fun t _ => h.mutex t)
  sender := Tx.sender_update hok (fun t _ => h.sender t)
  thread := h.thread
  whole := h.whole
  success := h.success

/-- A step of the call inside the mutex: all others are outside. -/
theorem Tx.Paired.inside {s s' : Tx} (h : s.Paired) {tid : Nat} {pc : SenderPc}
    (hmtx : s.busyMtx = some tid)
    (hsame : s' = {s.setSender tid pc with
      buf := s'.buf, count := s'.count, trigger := s'.trigger, done := s'.done
      thread := s'.thread})
    (hbegun : s.begun ≤ s'.begun) (hok : s'.SenderOk pc) (hthread : s'.ThreadOk) :
    s'.Paired := by
  have hsenders : s'.senders = Function.update s.senders tid pc := by rw [hsame]; rfl
  have hpassed : s'.passed = s.passed := by rw [hsame]; rfl
  refine ⟨?_, ?_, hthread, ?_, ?_⟩
  · have hmtx' : s'.busyMtx = s.busyMtx := by rw [hsame]; rfl
    rw [hsenders, hmtx']
    exact Tx.mutex_update (fun _ => hmtx) (fun t _ => h.mutex t)
  · rw [hsenders]
    apply Tx.sender_update hok
    intro t ht
    exact (h.sender t).outside (h.outside hmtx ht) hbegun (fun _ ha => hpassed ▸ ha)
  · rw [hsame]
    exact h.whole
  · rw [hsame]
    exact h.success

/-- A call returns, after an error, or with its frame emitted. -/
theorem Tx.Paired.return {s : Tx} (h : s.Paired) (tid : Nat) {r : Returned}
    (hr : r.ret = 0 → ∃ a k, r.syms = some a ∧ r.since ≤ k ∧ r.upto = k + 1 ∧
      s.sent[k]? = some a) : (s.return tid r).Paired := by
  have hout : (s.setSender tid .out).Paired := h.setSender nofun trivial
  exact ⟨hout.mutex, hout.sender, h.thread, h.whole, List.forall_mem_append.mpr
    ⟨h.success, List.forall_mem_singleton.mpr hr⟩⟩

/-- The buffer may change once the thread has read it. -/
theorem Tx.ThreadOk.rewrite {s s' : Tx} (h : s.ThreadOk) (hread : s.Quiet ∨ s.Giving)
    (htrigger : s'.trigger = s.trigger) (hthread : s'.thread = s.thread)
    (hpassed : s'.passed = s.passed) : s'.ThreadOk := by
  rcases hread with hquiet | ⟨-, out, hout⟩
  · left
    rwa [Tx.Quiet, htrigger, hthread]
  · obtain ⟨hfalse, hmem⟩ := h.giving hout
    exact Or.inr (Or.inl ⟨htrigger ▸ hfalse, out, hpassed ▸ hmem, hthread ▸ hout⟩)

/-- A trigger given to a quiet thread makes it send what is in the buffer. -/
theorem Tx.giveTrigger_of_quiet {s : Tx} (h : s.Quiet) : ∃ t pc,
    s.giveTrigger = {s with trigger := t, thread := pc} ∧ s.giveTrigger.Sending := by
  obtain ⟨htrigger, hthread | hthread⟩ := h
  · refine ⟨true, .take, ?_, ?_⟩ <;> simp [Tx.giveTrigger, Tx.Sending, hthread]
  · refine ⟨false, .load, ?_, ?_⟩ <;>
      simp [Tx.giveTrigger, Tx.Sending, hthread, htrigger]

theorem Tx.Quiet.begun_eq {s : Tx} (h : s.Quiet) : s.begun = s.sent.length := by
  obtain ⟨-, hthread | hthread⟩ := h <;> simp [Tx.begun, hthread]

theorem Tx.length_le_begun (s : Tx) : s.sent.length ≤ s.begun := by
  unfold Tx.begun
  split <;> omega

/-- A call enters the mutex. -/
theorem Tx.Paired.lock {s : Tx} (h : s.Paired) {tid : Nat} {c : Send}
    (hfree : s.busyMtx = none) (hok : s.SenderOk (.lock c)) :
    Tx.Paired {s.setSender tid (.fill c 0) with busyMtx := some tid} := by
  have hnone : ∀ t, ¬(s.senders t).Inside := by
    intro t hin
    rw [h.mutex t hin] at hfree
    cases hfree
  refine ⟨?_, ?_, h.thread, h.whole, h.success⟩
  · exact Tx.mutex_update (fun _ => rfl) (fun t _ hin => absurd hin (hnone t))
  · have hfill : s.SenderOk (.fill c 0) := ⟨hok.1, hok.2, rfl⟩
    exact Tx.sender_update hfill (fun t _ => h.sender t)

/-- It copies one more symbol. -/
theorem Tx.Paired.copy {s : Tx} (h : s.Paired) {tid : Nat} {c : Send} {k : Nat}
    {x : Symbol} (hmtx : s.busyMtx = some tid) (hok : s.SenderOk (.fill c k))
    (hread : s.Quiet ∨ s.Giving) (hx : c.syms[k]? = some x) :
    Tx.Paired {s.setSender tid (.fill c (k + 1)) with
      buf := Function.update s.buf k x} := by
  obtain ⟨hsince, hmem, hcopied⟩ := hok
  refine h.inside hmtx rfl (le_refl _) ⟨hsince, hmem, ?_⟩
    (h.thread.rewrite hread rfl rfl rfl)
  have hkeep : (List.range k).map (Function.update s.buf k x) =
      (List.range k).map s.buf := by
    apply List.map_congr_left
    intro i hi
    exact Function.update_of_ne (List.mem_range.mp hi).ne x s.buf
  rw [List.range_succ, List.map_append, hkeep, hcopied, List.take_add_one, hx]
  simp

/-- It has copied all symbols, and stores their number. -/
theorem Tx.Paired.filled {s : Tx} (h : s.Paired) {tid : Nat} {c : Send} {k : Nat}
    (hmtx : s.busyMtx = some tid) (hok : s.SenderOk (.fill c k))
    (hread : s.Quiet ∨ s.Giving) (hk : c.syms.length ≤ k) :
    Tx.Paired {s.setSender tid (.drain c) with count := c.syms.length} := by
  obtain ⟨hsince, hmem, hcopied⟩ := hok
  rw [List.take_of_length_le hk] at hcopied
  have hlen : c.syms.length = k := by
    rw [← hcopied, List.length_map, List.length_range]
  refine h.inside hmtx rfl (le_refl _) ⟨hsince, hmem, ?_⟩
    (h.thread.rewrite hread rfl rfl rfl)
  rw [Tx.frame, hlen]
  exact hcopied

/-- It triggers the thread, which is quiet and finds the call's own array. -/
theorem Tx.Paired.triggered {s : Tx} (h : s.Paired) {tid : Nat} {c : Send}
    (hmtx : s.busyMtx = some tid) (hok : s.SenderOk (.trigger c)) :
    (s.setSender tid (.wait c)).giveTrigger.Paired := by
  obtain ⟨hquiet, hsince, hmem, hframe, hdone⟩ := hok
  have hquiet' : (s.setSender tid (.wait c)).Quiet := hquiet
  obtain ⟨t, pc, heq, hsending⟩ := Tx.giveTrigger_of_quiet hquiet'
  rw [heq] at hsending ⊢
  refine h.inside hmtx rfl ?_ (Or.inl ⟨hsending, hframe, hdone, hsince⟩)
    (Or.inr (Or.inr ⟨hframe ▸ hmem, hsending⟩))
  rw [hquiet.begun_eq]
  exact Tx.length_le_begun {s with trigger := t, thread := pc}

/-- It leaves the mutex and returns. -/
theorem Tx.Paired.unlock {s : Tx} (h : s.Paired) {tid : Nat} {c : Send} {ret : Int}
    (hmtx : s.busyMtx = some tid) (hok : s.SenderOk (.unlock c ret)) :
    Tx.Paired {s.return tid ⟨c.syms, c.since, s.sent.length,
        if ret ≠ 0 then -ETIMEDOUT else 0⟩ with
      busyMtx := none} := by
  have hreturn := h.return tid (r := ⟨c.syms, c.since, s.sent.length,
      if ret ≠ 0 then -ETIMEDOUT else 0⟩) (fun hzero => by
    have hret : ret = 0 := by
      by_contra hne
      simp [hne, ETIMEDOUT] at hzero
    obtain ⟨-, k, hsince, hlen, hget⟩ := hok hret
    exact ⟨c.syms, k, rfl, hsince, hlen, hget⟩)
  refine ⟨?_, hreturn.sender, hreturn.thread, hreturn.whole, hreturn.success⟩
  exact Tx.mutex_update nofun (fun t ht hin => absurd hin (h.outside hmtx ht))

/-- It returns an error, or goes on to the mutex. -/
theorem Tx.Paired.check {s s' : Tx} (h : s.Paired) {tid : Nat}
    {syms : Option (List Symbol)} {since : Nat} (hpc : s.senders tid = .check syms since)
    (hs : irTxSendSymbols s tid = some s') : s'.Paired := by
  have hok : s.SenderOk (.check syms since) := hpc ▸ h.sender tid
  have hfail : ∀ ret : Int, ret ≠ 0 →
      (s.return tid ⟨syms, since, s.sent.length, ret⟩).Paired :=
    fun ret hret => h.return tid (fun h0 => absurd h0 hret)
  simp only [irTxSendSymbols, hpc] at hs
  split at hs
  case isTrue =>
      obtain rfl := Option.some.inj hs
      exact hfail _ (by decide)
  case isFalse =>
      cases syms with
      | none =>
          obtain rfl := Option.some.inj hs
          exact hfail _ (by decide)
      | some a =>
          dsimp only at hs
          split at hs
          case isTrue =>
              obtain rfl := Option.some.inj hs
              exact hfail _ (by decide)
          case isFalse =>
              split at hs <;> obtain rfl := Option.some.inj hs
              · exact hfail _ (by decide)
              · exact h.setSender nofun ⟨hok.1, hok.2 a rfl⟩

theorem Tx.Paired.sender_step {s s' : Tx} (h : s.Paired) {tid : Nat}
    (hC : FillsUnread s (.sender tid)) (hs : irTxSendSymbols s tid = some s') :
    s'.Paired := by
  have hok := h.sender tid
  have hmtx := h.mutex tid
  cases hpc : s.senders tid with
  | out => simp [irTxSendSymbols, hpc] at hs
  | blocked c => simp [irTxSendSymbols, hpc] at hs
  | check syms since => exact h.check hpc hs
  | lock c =>
      simp only [irTxSendSymbols, hpc] at hs hok
      split at hs
      case isFalse => cases hs
      case isTrue hfree =>
          obtain rfl := Option.some.inj hs
          exact h.lock hfree hok
  | fill c k =>
      simp only [irTxSendSymbols, hpc, FillsUnread] at hs hok hC hmtx
      split at hs
      case h_1 x hx =>
          obtain rfl := Option.some.inj hs
          exact h.copy (hmtx trivial) hok hC hx
      case h_2 hx =>
          obtain rfl := Option.some.inj hs
          exact h.filled (hmtx trivial) hok hC (List.getElem?_eq_none_iff.mp hx)
  | drain c =>
      simp only [irTxSendSymbols, hpc, FillsUnread] at hs hok hC hmtx
      obtain rfl := Option.some.inj hs
      obtain ⟨hsince, hmem, hframe⟩ := hok
      refine h.inside (hmtx trivial) rfl (le_refl _) ?_ (Or.inl hC)
      exact ⟨hC, hC.begun_eq ▸ hsince, hmem, hframe, rfl⟩
  | trigger c =>
      simp only [irTxSendSymbols, hpc] at hs hok hmtx
      obtain rfl := Option.some.inj hs
      exact h.triggered (hmtx trivial) hok
  | wait c =>
      simp only [irTxSendSymbols, hpc] at hs hok hmtx
      split at hs
      case isTrue hdone =>
          obtain rfl := Option.some.inj hs
          rcases hok with ⟨-, -, hfalse, -⟩ | ⟨hemitted, -⟩
          · rw [hdone] at hfalse
            cases hfalse
          · exact h.inside (hmtx trivial) rfl (le_refl _) (fun _ => hemitted) h.thread
      case isFalse hdone =>
          obtain rfl := Option.some.inj hs
          rcases hok with hfly | ⟨-, hd⟩
          · exact h.setSender (fun _ => hmtx trivial) hfly
          · exact absurd hd hdone
  | unlock c ret =>
      simp only [irTxSendSymbols, hpc] at hs hok hmtx
      obtain rfl := Option.some.inj hs
      exact h.unlock (hmtx trivial) hok

theorem call_cases {s s' : Tx} {tid : Nat} {syms : Option (List Symbol)}
    (h : s.step (.call tid syms) = some s') :
    s' = {s.setSender tid (.check syms s.begun) with
      passed := s.passed ++ syms.toList} := by
  simp only [Tx.step] at h
  split at h
  case isTrue => exact (Option.some.inj h).symm
  case isFalse => cases h

theorem timeout_cases {s s' : Tx} {tid : Nat} (h : s.step (.timeout tid) = some s') :
    ∃ c, s.senders tid = .blocked c ∧ s' = s.setSender tid (.unlock c (-EAGAIN)) := by
  simp only [Tx.step] at h
  split at h
  case h_1 c hpc => exact ⟨c, hpc, (Option.some.inj h).symm⟩
  case h_2 => cases h

theorem thread_cases {s s' : Tx} (h : s.step .thread = some s') :
    s.inited = true ∧ irTxThread s = some s' := by
  simp only [Tx.step] at h
  split at h
  case isTrue hinited => exact ⟨hinited, h⟩
  case isFalse => cases h

theorem Tx.giveTrigger_inited (s : Tx) : s.giveTrigger.inited = s.inited := by
  unfold Tx.giveTrigger
  split <;> rfl

theorem Tx.giveDone_inited (s : Tx) : s.giveDone.inited = s.inited := by
  rcases s.giveDone_cases with ⟨tid, c, -, -, heq⟩ | ⟨-, heq⟩
  · rw [heq]
    rfl
  · rw [heq]

theorem irTxSendSymbols_inited {s s' : Tx} {tid : Nat}
    (hs : irTxSendSymbols s tid = some s') : s'.inited = s.inited := by
  grind [irTxSendSymbols, Tx.return, Tx.setSender, Tx.giveTrigger_inited]

theorem irTxThread_inited {s s' : Tx} (hs : irTxThread s = some s') :
    s'.inited = s.inited := by
  rcases irTxThread_cases hs with ⟨out, -, rfl⟩ | ⟨-, hadv⟩
  · exact Tx.giveDone_inited _
  · rw [hadv.same]

/-- Before `ir_tx_init` no call gets past its checks. -/
structure Tx.Off (s : Tx) : Prop where
  inited : s.inited = false
  busyMtx : s.busyMtx = none
  trigger : s.trigger = false
  done : s.done = false
  thread : s.thread = .take
  senders : ∀ tid, s.senders tid = .out ∨ ∃ syms since, s.senders tid = .check syms since

theorem irTxInit_eq {s : Tx} (h : s.inited = true ∨ s.Off) :
    irTxInit s = {s with inited := true} := by
  rcases h with hinited | hoff
  · rw [irTxInit, if_pos hinited, ← hinited]
  · rw [irTxInit, if_neg (by simp [hoff.inited]), ← hoff.busyMtx]
    have hdone := hoff.done
    have htrigger := hoff.trigger
    have hthread := hoff.thread
    cases s
    simp_all

/-- A call outside the mutex leaves everything else off. -/
theorem Tx.Off.setSender {s s' : Tx} (h : s.Off) {tid : Nat} {pc : SenderPc}
    (hinited : s'.inited = s.inited) (hmtx : s'.busyMtx = s.busyMtx)
    (htrigger : s'.trigger = s.trigger) (hdone : s'.done = s.done)
    (hthread : s'.thread = s.thread)
    (hsenders : s'.senders = Function.update s.senders tid pc)
    (hpc : pc = .out ∨ ∃ syms since, pc = .check syms since) : s'.Off where
  inited := hinited.trans h.inited
  busyMtx := hmtx.trans h.busyMtx
  trigger := htrigger.trans h.trigger
  done := hdone.trans h.done
  thread := hthread.trans h.thread
  senders := by
    rw [hsenders]
    exact (Function.forall_update_iff s.senders
      (fun _ pc => pc = .out ∨ ∃ syms since, pc = .check syms since)).mpr
      ⟨hpc, fun t _ => h.senders t⟩

theorem Tx.step_inited {s s' : Tx} {a : TxAct} (h : s.inited = true ∨ s.Off)
    (hs : s.step a = some s') : s'.inited = true ∨ s'.Off := by
  cases a with
  | init =>
      obtain rfl := Option.some.inj hs
      rw [irTxInit_eq h]
      exact Or.inl rfl
  | call tid syms =>
      obtain rfl := call_cases hs
      exact h.imp id (fun hoff =>
        hoff.setSender rfl rfl rfl rfl rfl rfl (Or.inr ⟨syms, s.begun, rfl⟩))
  | sender tid =>
      apply h.imp (irTxSendSymbols_inited hs).trans
      intro hoff
      rcases hoff.senders tid with hpc | ⟨syms, since, hpc⟩
      · simp [Tx.step, irTxSendSymbols, hpc] at hs
      · simp only [Tx.step, irTxSendSymbols, hpc, hoff.inited, Bool.not_false, if_true,
          Option.some.injEq] at hs
        subst hs
        exact hoff.setSender rfl rfl rfl rfl rfl rfl (Or.inl rfl)
  | timeout tid =>
      obtain ⟨c, hpc, rfl⟩ := timeout_cases hs
      apply h.imp id
      intro hoff
      rcases hoff.senders tid with hpc' | ⟨syms, since, hpc'⟩ <;>
        cases hpc.symm.trans hpc'
  | thread =>
      obtain ⟨hinited, hs⟩ := thread_cases hs
      exact Or.inl ((irTxThread_inited hs).trans hinited)

/-- A new call adds its array. -/
theorem Tx.SenderOk.pass {s : Tx} {pc : SenderPc} (h : s.SenderOk pc)
    (more : List (List Symbol)) :
    Tx.SenderOk {s with passed := s.passed ++ more} pc := by
  have hmem : ∀ a ∈ s.passed, a ∈ s.passed ++ more := fun a => List.mem_append_left _
  cases pc with
  | check syms since => exact ⟨h.1, fun a ha => hmem a (h.2 a ha)⟩
  | lock c => exact ⟨h.1, hmem _ h.2⟩
  | fill c k => exact ⟨h.1, hmem _ h.2.1, h.2.2⟩
  | drain c => exact ⟨h.1, hmem _ h.2.1, h.2.2⟩
  | trigger c => exact ⟨h.1, h.2.1, hmem _ h.2.2.1, h.2.2.2⟩
  | out | wait | blocked | unlock => exact h

theorem Tx.Paired.call {s : Tx} (h : s.Paired) (tid : Nat)
    (syms : Option (List Symbol)) :
    Tx.Paired {s.setSender tid (.check syms s.begun) with
      passed := s.passed ++ syms.toList} := by
  have hpass : Tx.Paired {s with passed := s.passed ++ syms.toList} := by
    refine ⟨h.mutex, fun t => (h.sender t).pass _, ?_, ?_, h.success⟩
    · refine h.thread.imp id (Or.imp ?_ ?_)
      · rintro ⟨htrigger, out, hout, hthread⟩
        exact ⟨htrigger, out, List.mem_append_left _ hout, hthread⟩
      · rintro ⟨hframe, hsending⟩
        exact ⟨List.mem_append_left _ hframe, hsending⟩
    · exact fun frame hframe => List.mem_append_left _ (h.whole frame hframe)
  refine hpass.setSender nofun ⟨le_refl _, fun a ha => ?_⟩
  exact List.mem_append_right _ (Option.mem_toList.mpr ha)

theorem Tx.Paired.step {s s' : Tx} {a : TxAct} (h : s.Paired)
    (hinited : s.inited = true ∨ s.Off) (hC : FillsUnread s a)
    (hs : s.step a = some s') : s'.Paired := by
  cases a with
  | init =>
      obtain rfl := Option.some.inj hs
      rw [irTxInit_eq hinited]
      exact ⟨h.mutex, h.sender, h.thread, h.whole, h.success⟩
  | call tid syms =>
      obtain rfl := call_cases hs
      exact h.call tid syms
  | sender tid => exact h.sender_step hC hs
  | timeout tid =>
      obtain ⟨c, hpc, rfl⟩ := timeout_cases hs
      refine h.setSender (fun _ => h.mutex tid ?_) (fun h0 => absurd h0 (by decide))
      rw [hpc]
      trivial
  | thread =>
      obtain ⟨-, hs⟩ := thread_cases hs
      rcases irTxThread_cases hs with ⟨out, hthread, rfl⟩ | ⟨hgive, hadv⟩
      · exact h.give hthread
      · exact h.advance hadv hgive

/-- In every run in which the calls write to the buffer only after the thread has
read the frame of the previous one, a call that returns 0 has had its own frame
emitted, and no frame mixes two arrays. -/
theorem own_frames_while_unread {es : List TxAct}
    (hC : txSystem.Meets FillsUnread Tx.powerUp es) :
    txSystem.Always Tx.OwnFrames Tx.powerUp es := by
  have hinv : txSystem.Always (fun s => s.Paired ∧ (s.inited = true ∨ s.Off))
      Tx.powerUp es :=
    System.always_of_meets
      (fun s a s' h hC hs => ⟨h.1.step h.2 hC hs, Tx.step_inited h.2 hs⟩)
      ⟨Tx.paired_powerUp, Or.inr ⟨rfl, rfl, rfl, rfl, rfl, fun _ => Or.inl rfl⟩⟩ hC
  exact hinv.mono (fun s h => h.1.ownFrames)

/-- A call with two symbols has its frame begun, and gives up waiting for it. -/
def timedOutActs : List TxAct :=
  [.init, .thread, .call 1 (some [⟨9000, 60000⟩, ⟨9001, 60001⟩]), .sender 1, .sender 1,
    .sender 1, .sender 1, .sender 1, .sender 1, .sender 1, .sender 1, .thread, .thread,
    .thread, .timeout 1, .sender 1]

/-- The frame of a call that has given up is completed before the next call fills
the buffer, which then has its own frame emitted. -/
theorem own_frames_while_unread_next_call :
    txSystem.Always Tx.OwnFrames Tx.powerUp
      (timedOutActs ++ [.thread, .thread, .thread, .thread, .call 2 (some [⟨500, 501⟩]),
        .sender 2, .sender 2, .sender 2, .sender 2, .sender 2, .sender 2, .sender 2,
        .thread, .thread, .thread, .thread, .thread, .thread, .sender 2]) := by
  apply own_frames_while_unread
  iterate 5
    rintro _ ⟨⟩
    refine ⟨trivial, ?_⟩
  -- the first call writes while the thread waits in `k_sem_take`
  iterate 3
    rintro _ ⟨⟩
    refine ⟨Or.inl ⟨rfl, Or.inr rfl⟩, ?_⟩
  rintro _ ⟨⟩
  refine ⟨⟨rfl, Or.inr rfl⟩, ?_⟩
  iterate 14
    rintro _ ⟨⟩
    refine ⟨trivial, ?_⟩
  -- the second one before the thread is back there
  iterate 2
    rintro _ ⟨⟩
    refine ⟨Or.inl ⟨rfl, Or.inl rfl⟩, ?_⟩
  rintro _ ⟨⟩
  refine ⟨⟨rfl, Or.inl rfl⟩, ?_⟩
  iterate 9
    rintro _ ⟨⟩
    refine ⟨trivial, ?_⟩
  trivial

/-- The second call writes over the frame that the thread is still reading, and
takes the token of that frame for its own. -/
theorem mixed_frame_is_success :
    ∃ s, txSystem.exec Tx.powerUp (timedOutActs ++ [.call 2 (some [⟨500, 501⟩, ⟨502, 503⟩]),
        .sender 2, .sender 2, .sender 2, .sender 2, .sender 2, .thread, .thread, .thread,
        .sender 2, .thread, .sender 2, .sender 2, .sender 2]) = some s ∧
      s.sent = [[⟨9000, 60000⟩, ⟨502, 503⟩]] ∧
      s.returns = [⟨some [⟨9000, 60000⟩, ⟨9001, 60001⟩], 0, 0, -ETIMEDOUT⟩,
        ⟨some [⟨500, 501⟩, ⟨502, 503⟩], 1, 1, 0⟩] ∧
      ¬s.OwnFrames := by
  refine ⟨_, rfl, rfl, rfl, fun h => ?_⟩
  have hmem := h.whole [⟨9000, 60000⟩, ⟨502, 503⟩] List.mem_cons_self
  revert hmem
  decide

end Rw612.Ir
