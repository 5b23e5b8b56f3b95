import Rw612.Tcp.Client

/-!
What `app_tcp_client_stop` achieves. It clears `s_running` and closes the
published descriptor, but it waits for nobody: a task that has passed its test
of `s_running` and not yet published its descriptor goes on, and a task that is
on its way out is still there when the next start creates another one on the
same `tcp_task_data`.
-/

namespace Rw612.Tcp

open Lib

/-- A start that has passed its test of `s_running` and is still to create its
task. -/
def CallerPc.Starts : CallerPc → Prop
  | .starting _ | .creating => True
  | _ => False

/-- The descriptor has been closed, whoever has its number now. -/
def Client.Cut (s : Client) (k : Desc) : Prop :=
  s.table.slots k.fd ≠ some (.own k.id)

/-- From the return of a stop to the next start no connection is kept open for
receiving. -/
def Client.NotReceiving (s : Client) : Prop :=
  s.stopped = true → ∀ n k, s.tasks n = some (.recv k) → s.Cut k

/-- A start passes its test of `s_running` only when all earlier tasks have
returned and no other start is under way; `s_running` is still false when a stop
takes the lock; and a task publishes its descriptor only while it is set. -/
def StopsClear (s : Client) : Act → Prop
  | .startCheck _ (some _) =>
      s.running = false → (∀ n, ¬s.Live n) ∧ ∀ tid, ¬(s.callers tid).Starts
  | .stopSection _ => s.running = false
  | .publish _ => s.running = true
  | _ => True

structure Client.Settled (s : Client) : Prop where
  spare : ∀ n, s.created ≤ n → s.tasks n = none
  single : ∀ n m, s.Live n → s.Live m → n = m
  alone : ∀ tid, (s.callers tid).Starts → ∀ n, ¬s.Live n
  sole : ∀ tid tid', (s.callers tid).Starts → (s.callers tid').Starts → tid = tid'
  known : ∀ n k, s.sockOf n = some k → k.id < s.table.nextId
  quiet : s.stopped = true → s.running = false
  receiving : ∀ n k, s.tasks n = some (.recv k) → s.sock = some k ∨ s.Cut k
  cut : s.NotReceiving

/-- Closing and reopening do not give a descriptor back. -/
theorem Client.Cut.update {s : Client} {k : Desc} (h : s.Cut k) {fd : Nat}
    {holder : Option Holder} (hholder : holder ≠ some (.own k.id)) :
    Function.update s.table.slots fd holder k.fd ≠ some (.own k.id) := by
  by_cases hfd : k.fd = fd
  · subst hfd
    rwa [Function.update_self]
  · rw [Function.update_of_ne hfd]
    exact h

/-- A change of the table that restores no descriptor of a task. -/
theorem Client.Settled.retable {s : Client} (h : s.Settled) {table : Table}
    (hslots : ∀ n k, s.sockOf n = some k → s.Cut k → table.slots k.fd ≠ some (.own k.id))
    (hnext : s.table.nextId ≤ table.nextId) : Client.Settled {s with table := table} := by
  have hrecv : ∀ n k, s.tasks n = some (.recv k) → s.sockOf n = some k := by
    intro n k hk
    simp [Client.sockOf, hk, TaskPc.holds]
  refine ⟨h.spare, h.single, h.alone, h.sole, ?_, h.quiet, ?_, ?_⟩
  · exact fun n k hk => Nat.lt_of_lt_of_le (h.known n k hk) hnext
  · intro n k hk
    exact (h.receiving n k hk).imp_right (hslots n k (hrecv n k hk))
  · intro hstopped n k hk
    exact hslots n k (hrecv n k hk) (h.cut hstopped n k hk)

/-- A statement of a live task that does not begin to receive. -/
theorem Client.Settled.setTask {s : Client} (h : s.Settled) {n : Nat}
    {pc pc' : TaskPc} (hpc : s.tasks n = some pc) (hlive : pc ≠ .returned)
    (hrecv : ∀ k, pc' ≠ .recv k)
    (hholds : ∀ k, pc'.holds = some k → k.id < s.table.nextId) :
    (s.setTask n pc').Settled := by
  have hlive' : ∀ m, (s.setTask n pc').Live m → s.Live m := by
    rintro m ⟨pc'', hpc'', hne⟩
    by_cases hm : m = n
    · subst hm
      exact ⟨pc, hpc, hlive⟩
    · rw [Client.setTask_of_ne s pc' hm] at hpc''
      exact ⟨pc'', hpc'', hne⟩
  have hold : ∀ m k, (s.setTask n pc').tasks m = some (.recv k) →
      s.tasks m = some (.recv k) := by
    intro m k hk
    by_cases hm : m = n
    · subst hm
      rw [Client.setTask_self] at hk
      exact absurd (Option.some.inj hk) (hrecv k)
    · rwa [Client.setTask_of_ne s pc' hm] at hk
  refine ⟨?_, fun m m' hm hm' => h.single m m' (hlive' m hm) (hlive' m' hm'),
    fun tid ht m hm => h.alone tid ht m (hlive' m hm), h.sole, ?_, h.quiet,
    fun m k hk => h.receiving m k (hold m k hk),
    fun hstopped m k hk => h.cut hstopped m k (hold m k hk)⟩
  · intro m hm
    by_cases hmn : m = n
    · subst hmn
      cases (h.spare m hm).symm.trans hpc
    · exact (Client.setTask_of_ne s pc' hmn).trans (h.spare m hm)
  · intro m k hk
    by_cases hmn : m = n
    · subst hmn
      exact hholds k (by simpa [Client.sockOf] using hk)
    · apply h.known m k
      simpa [Client.sockOf, Client.setTask_of_ne s pc' hmn] using hk

theorem Client.Settled.holds_lt {s : Client} (h : s.Settled) {n : Nat}
    {pc : TaskPc} {k : Desc} (hpc : s.tasks n = some pc) (hk : pc.holds = some k) :
    k.id < s.table.nextId :=
  h.known n k (by simp [Client.sockOf, hpc, hk])

/-- A start that goes on, or a caller that does not start. -/
theorem Client.Settled.setCaller {s : Client} (h : s.Settled) (tid : Nat) (pc : CallerPc)
    (hpc : pc.Starts → (s.callers tid).Starts) (lock : Option Nat) :
    Client.Settled {s.setCaller tid pc with lock := lock} := by
  have hold : ∀ other, ((s.setCaller tid pc).callers other).Starts →
      (s.callers other).Starts := by
    intro other hother
    by_cases heq : other = tid
    · subst heq
      rw [Client.setCaller_self] at hother
      exact hpc hother
    · rwa [Client.setCaller_of_ne s pc heq] at hother
  exact ⟨h.spare, h.single, fun other ht => h.alone other (hold other ht),
    fun other other' ht ht' => h.sole other other' (hold other ht) (hold other' ht'),
    h.known, h.quiet, h.receiving, h.cut⟩

/-- A start passes its test while there is nothing it could meet. -/
theorem Client.Settled.starting {s : Client} (h : s.Settled) (tid : Nat)
    (cfg : Prov.AppNvramData) (hlive : ∀ n, ¬s.Live n)
    (hstarts : ∀ tid, ¬(s.callers tid).Starts) :
    (s.setCaller tid (.starting cfg)).Settled := by
  have honly : ∀ other, ((s.setCaller tid (.starting cfg)).callers other).Starts →
      other = tid := by
    intro other hother
    by_contra heq
    rw [Client.setCaller_of_ne s _ heq] at hother
    exact hstarts other hother
  exact ⟨h.spare, h.single, fun _ _ => hlive,
    fun other other' ht ht' => (honly other ht).trans (honly other' ht').symm,
    h.known, h.quiet, h.receiving, h.cut⟩

theorem Client.Settled.stopFlag {s : Client} (h : s.Settled) :
    Client.Settled {s with running := false} :=
  ⟨h.spare, h.single, h.alone, h.sole, h.known, fun _ => rfl, h.receiving, h.cut⟩

theorem Client.Settled.startStore {s : Client} (h : s.Settled) {tid : Nat}
    {cfg : Prov.AppNvramData} (hpc : s.callers tid = .starting cfg) :
    (s.startStore tid cfg).Settled := by
  have hnext := h.setCaller tid .creating (fun _ => hpc ▸ trivial) s.lock
  exact ⟨hnext.spare, hnext.single, hnext.alone, hnext.sole, hnext.known, (nomatch ·),
    hnext.receiving, (nomatch ·)⟩

/-- A new task, after all others have returned and no start is under way. -/
theorem Client.Settled.create {s : Client} (h : s.Settled)
    (hlive : ∀ n, ¬s.Live n) (hstarts : ∀ tid, ¬(s.callers tid).Starts) :
    Client.Settled {s.setTask s.created .check with created := s.created + 1} := by
  have hcases : ∀ m pc, (s.setTask s.created .check).tasks m = some pc →
      (m = s.created ∧ pc = .check) ∨ s.tasks m = some pc := by
    intro m pc hpc
    by_cases hm : m = s.created
    · subst hm
      rw [Client.setTask_self] at hpc
      exact Or.inl ⟨rfl, (Option.some.inj hpc).symm⟩
    · rw [Client.setTask_of_ne s _ hm] at hpc
      exact Or.inr hpc
  have hnew : ∀ m, Client.Live {s.setTask s.created .check with
      created := s.created + 1} m → m = s.created := by
    rintro m ⟨pc, hpc, hne⟩
    rcases hcases m pc hpc with ⟨hm, -⟩ | hold
    · exact hm
    · exact absurd ⟨pc, hold, hne⟩ (hlive m)
  have hold : ∀ m k, (s.setTask s.created .check).tasks m = some (.recv k) →
      s.tasks m = some (.recv k) := by
    intro m k hk
    rcases hcases m _ hk with ⟨-, hpc⟩ | hk
    · cases hpc
    · exact hk
  refine ⟨?_, fun m m' hm hm' => (hnew m hm).trans (hnew m' hm').symm,
    fun tid ht => absurd ht (hstarts tid), h.sole, ?_, h.quiet,
    fun m k hk => h.receiving m k (hold m k hk),
    fun hs m k hk => h.cut hs m k (hold m k hk)⟩
  · intro m hm
    have hne : m ≠ s.created := by
      rintro rfl
      exact Nat.not_succ_le_self _ hm
    exact (Client.setTask_of_ne s .check hne).trans
      (h.spare m (Nat.le_of_succ_le hm))
  · intro m k hk
    obtain ⟨pc, hpc, hholds⟩ := Option.bind_eq_some_iff.mp hk
    rcases hcases m pc hpc with ⟨-, rfl⟩ | hold
    · cases hholds
    · exact h.holds_lt hold hholds

/-- The single live task publishes or withdraws its descriptor. -/
theorem Client.Settled.resock {s : Client} (h : s.Settled) {n : Nat}
    (hnone : ∀ m k, s.tasks m = some (.recv k) → m = n)
    (hcut : ∀ k, s.tasks n = some (.recv k) → s.Cut k) (sock : Option Desc)
    (connected : Bool) :
    Client.Settled {s with sock := sock, connected := connected} := by
  refine ⟨h.spare, h.single, h.alone, h.sole, h.known, h.quiet, ?_, h.cut⟩
  intro m k hk
  have hm := hnone m k hk
  subst hm
  exact Or.inr (hcut k hk)

theorem Client.Settled.publish {s : Client} (h : s.Settled) {n : Nat} {k : Desc}
    (hpc : s.tasks n = some (.publish k)) (hrunning : s.running = true) :
    s.stopped = false ∧
      Client.Settled {s.setTask n (.recv k) with sock := some k, connected := true} := by
  have hstopped : s.stopped = false := by
    cases hs : s.stopped with
    | false => rfl
    | true => cases hrunning.symm.trans (h.quiet hs)
  have halone : ∀ m pc, m ≠ n → s.tasks m = some pc → pc = .returned := by
    intro m pc hm hmpc
    by_contra hne
    exact hm (h.single m n ⟨pc, hmpc, hne⟩ ⟨_, hpc, by simp⟩)
  have hlive : s.Live n := ⟨_, hpc, by simp⟩
  refine ⟨hstopped, ?_, ?_, fun tid ht => absurd hlive (h.alone tid ht n), h.sole, ?_,
    h.quiet, ?_, fun hs => ?_⟩
  · intro m hm
    by_cases hmn : m = n
    · subst hmn
      cases (h.spare m hm).symm.trans hpc
    · exact (Client.setTask_of_ne s _ hmn).trans (h.spare m hm)
  · rintro m m' ⟨pc, hm, hne⟩ ⟨pc', hm', hne'⟩
    by_cases hmn : m = n <;> by_cases hmn' : m' = n
    · rw [hmn, hmn']
    · exact absurd (halone m' pc' hmn' (Client.setTask_of_ne s _ hmn' ▸ hm')) hne'
    · exact absurd (halone m pc hmn (Client.setTask_of_ne s _ hmn ▸ hm)) hne
    · exact absurd (halone m pc hmn (Client.setTask_of_ne s _ hmn ▸ hm)) hne
  · intro m k' hk'
    by_cases hmn : m = n
    · subst hmn
      obtain rfl : k = k' := by simpa [Client.sockOf, TaskPc.holds] using hk'
      exact h.holds_lt hpc rfl
    · apply h.known m k'
      simpa [Client.sockOf, Client.setTask_of_ne s _ hmn] using hk'
  · intro m k' hk'
    by_cases hmn : m = n
    · subst hmn
      have hself := (Client.setTask_self s m (.recv k)).symm.trans hk'
      cases hself
      exact Or.inl rfl
    · cases halone m _ hmn (Client.setTask_of_ne s (.recv k) hmn ▸ hk')
  · cases hs.symm.trans hstopped

/-- The locked section of a stop closes the connection of the only task that
can be receiving. -/
theorem Client.Settled.stopSection {s : Client} (h : s.Settled) {tid : Nat}
    (hrunning : s.running = false) : (s.stopSection tid).Settled := by
  have hidle := h.setCaller tid .idle (fun hs => hs.elim) s.lock
  unfold Client.stopSection
  dsimp only
  split
  case h_1 hsock =>
      refine ⟨h.spare, h.single, hidle.alone, hidle.sole, h.known, fun _ => hrunning,
        h.receiving, ?_⟩
      intro _ n k hk
      exact (h.receiving n k hk).resolve_left
        (fun hsome => by cases hsome.symm.trans hsock)
  case h_2 k hsock =>
      have hcut : ∀ n k', s.tasks n = some (.recv k') →
          (s.table.close k).slots k'.fd ≠ some (.own k'.id) := by
        intro n k' hk'
        rcases h.receiving n k' hk' with hsome | hcut
        · cases hsome.symm.trans hsock
          simp [Table.close]
        · exact hcut.update (by simp)
      exact ⟨h.spare, h.single, hidle.alone, hidle.sole, h.known, fun _ => hrunning,
        fun n k' hk' => Or.inr (hcut n k' hk'), fun _ n k' hk' => hcut n k' hk'⟩

theorem Client.Settled.socket {s : Client} (h : s.Settled) {n fd : Nat}
    (hpc : s.tasks n = some .socket) :
    ((s.zsockSocket fd).setTask n (.connect (s.table.fresh fd))).Settled := by
  have htable : (s.zsockSocket fd).Settled := by
    refine h.retable (fun m k hk hcut => hcut.update fun heq => ?_) (Nat.le_succ _)
    have hid := Holder.own.inj (Option.some.inj heq)
    exact absurd (h.known m k hk) (hid ▸ Nat.lt_irrefl _)
  apply htable.setTask hpc (by simp) (by simp)
  intro k hk
  cases hk
  exact Nat.lt_succ_self _

theorem Client.Settled.zsockClose {s : Client} (h : s.Settled) (k : Desc) :
    (s.zsockClose k).Settled :=
  h.retable (fun _ _ _ hcut => hcut.update (by simp)) (Nat.le_refl _)

/-- One step that meets the condition keeps the invariant. -/
theorem Client.Settled.step {s s' : Client} {a : Act} (h : s.Settled)
    (hclear : StopsClear s a) (hstep : clientSystem.step s a = some s') :
    s'.Settled := by
  cases Client.does_of_step hstep with
  | @startCheck tid cfg =>
      cases cfg with
      | none => exact h
      | some cfg =>
          unfold Client.startCheck
          dsimp only
          split
          case isTrue => exact h
          case isFalse hrunning =>
              obtain ⟨hlive, hstarts⟩ := hclear (Bool.eq_false_iff.mpr hrunning)
              exact h.starting tid cfg hlive hstarts
  | startStore hpc => exact h.startStore hpc
  | @startCreate tid created hpc =>
      have hstarts : (s.callers tid).Starts := by
        rw [hpc]
        trivial
      have hidle := h.setCaller tid .idle (fun hs => hs.elim) s.lock
      have hnone : ∀ other, ¬((s.setCaller tid .idle).callers other).Starts := by
        intro other hother
        by_cases heq : other = tid
        · subst heq
          rw [Client.setCaller_self] at hother
          exact hother
        · rw [Client.setCaller_of_ne s _ heq] at hother
          exact heq (h.sole other tid hother hstarts)
      cases created with
      | true => exact hidle.create (h.alone tid hstarts) hnone
      | false => exact hidle.stopFlag
  | stopFlag =>
      exact (h.setCaller _ .stopping (fun hs => hs.elim) s.lock).stopFlag
  | stopSection => exact h.stopSection hclear
  | sendLock =>
      unfold Client.sendLock
      split
      · exact h.setCaller _ (.sending _) (fun hs => hs.elim) _
      · exact h
  | sendCall =>
      exact (h.setCaller _ .idle (fun hs => hs.elim) none).retable (fun _ _ _ hcut => hcut)
        (Nat.le_refl _)
  | check hpc =>
      exact h.setTask hpc (by simp) (by split <;> simp) (by split <;> simp [TaskPc.holds])
  | noSocket hpc => exact h.setTask hpc (by simp) (by simp) (by simp [TaskPc.holds])
  | socket hpc => exact h.socket hpc
  | connect ok hpc =>
      refine h.setTask hpc (by simp) (by split <;> simp) ?_
      have hlt := h.holds_lt hpc rfl
      split <;> (intro k hk; cases hk; exact hlt)
  | refused hpc | close hpc =>
      exact (h.zsockClose _).setTask hpc (by simp) (by simp) (by simp [TaskPc.holds])
  | pause hpc => exact h.setTask hpc (by simp) (by simp) (by simp [TaskPc.holds])
  | publish hpc => exact (h.publish hpc hclear).2
  | recv data hpc =>
      unfold Client.recv
      split
      · refine h.setTask hpc (by simp) (by simp) ?_
        intro k hk
        cases hk
        exact h.holds_lt hpc rfl
      · exact ⟨h.spare, h.single, h.alone, h.sole, h.known, h.quiet, h.receiving, h.cut⟩
  | @clear n _ hpc =>
      have hresock := h.resock (n := n)
        (fun m k hk => h.single m n ⟨_, hk, by simp⟩ ⟨_, hpc, by simp⟩)
        (fun k hk => by cases hk.symm.trans hpc) none false
      refine hresock.setTask hpc (by simp) (by simp) ?_
      intro k hk
      cases hk
      exact h.holds_lt hpc rfl
  | otherOpen | otherClose =>
      exact h.retable (fun _ _ _ hcut => hcut.update (by simp)) (Nat.le_refl _)

/-- A connection is stopped, its task returns, and the client is started again. -/
def restartAfterReturn : List Act :=
  [.startCheck 1 (some .zero), .startStore 1, .startCreate 1 true, .check 0,
    .socket 0 (some 3), .connect 0 true, .publish 0, .stopFlag 2, .stopSection 2,
    .recv 0 [], .clear 0, .close 0, .check 0, .startCheck 1 (some .zero), .startStore 1,
    .startCreate 1 true]

end Rw612.Tcp
