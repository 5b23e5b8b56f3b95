import Rw612.Tcp.Client

/-!
Who closes a descriptor. `tcp_task` keeps the number in a variable of its own
and always closes it; `app_tcp_client_stop` closes the published copy of the
same number. As long as no stop finds a published descriptor, each descriptor
is closed once, by its task, and while it is still the task's own.
-/

namespace Rw612.Tcp

open Lib

/-- Each close and each send reached the descriptor that it was meant for, which
was then open; no descriptor of the client was closed twice, and those that no
task has any more were closed. -/
structure Client.Descriptors (s : Client) : Prop where
  own : ∀ u ∈ s.table.uses, u.hit = some (.own u.desc.id)
  atMostOnce : ∀ id, s.table.closeCount id ≤ 1
  closed : ∀ id < s.table.nextId, (∀ n k, s.sockOf n = some k → k.id ≠ id) →
    s.table.closeCount id = 1

/-- A stop takes the lock only while no descriptor is published. -/
def StopsUnpublished (s : Client) : Act → Prop
  | .stopSection _ => s.sock = none
  | _ => True

/-- What the tasks hold. -/
def Client.held (s : Client) : List Desc := Table.gather s.sockOf s.created

/-- The tasks hold what is open of the client's, and the published descriptor
belongs to a task that is still receiving. -/
structure Client.Owned (s : Client) : Prop where
  spare : ∀ n, s.created ≤ n → s.tasks n = none
  holds : s.table.Holds s.held
  sock : ∀ k, s.sock = some k → ∃ n, s.publishedBy n = some k
  sending : ∀ tid k, s.callers tid = .sending k →
    s.lock = some tid ∧ s.sock = some k

theorem Client.Owned.descriptors {s : Client} (h : s.Owned) : s.Descriptors where
  own := h.holds.own
  atMostOnce := h.holds.closeCount_le
  closed id hid hno := by
    apply h.holds.closed id hid
    intro hmem
    obtain ⟨k, hk, rfl⟩ := List.mem_map.mp hmem
    obtain ⟨n, -, hn⟩ := Table.mem_gather.mp hk
    exact hno n k hn rfl

theorem Client.owned_powerUp : Client.powerUp.Owned where
  spare _ _ := rfl
  holds := Table.holds_empty
  sock _ hk := by cases hk
  sending _ _ hk := by cases hk

theorem Client.Owned.lt_created {s : Client} (h : s.Owned) {n : Nat} {pc : TaskPc}
    (hpc : s.tasks n = some pc) : n < s.created := by
  by_contra hn
  cases (h.spare n (Nat.le_of_not_lt hn)).symm.trans hpc

theorem Client.Owned.mem_held {s : Client} (h : s.Owned) {n : Nat} {k : Desc}
    (hk : s.sockOf n = some k) : k ∈ s.held := by
  obtain ⟨pc, hpc, -⟩ := Option.bind_eq_some_iff.mp hk
  exact Table.mem_gather.mpr ⟨n, h.lt_created hpc, hk⟩

/-- A step that leaves the descriptors where they are. -/
theorem Client.Owned.congr {s s' : Client} (h : s.Owned)
    (hspare : ∀ n, s'.created ≤ n → s'.tasks n = none) (hheld : s'.held = s.held)
    (htable : s'.table = s.table)
    (hsock : ∀ k, s'.sock = some k → ∃ n, s'.publishedBy n = some k)
    (hsending : ∀ tid k, s'.callers tid = .sending k →
      s'.lock = some tid ∧ s'.sock = some k) : s'.Owned := by
  refine ⟨hspare, ?_, hsock, hsending⟩
  rw [htable, hheld]
  exact h.holds

theorem Client.sockOf_setTask (s : Client) (n : Nat) (pc : TaskPc) :
    (s.setTask n pc).sockOf = Function.update s.sockOf n pc.holds := by
  funext m
  by_cases hm : m = n
  · subst hm
    simp [Client.sockOf]
  · simp [Client.sockOf, Client.setTask_of_ne s pc hm, Function.update_of_ne hm]

theorem Client.publishedBy_setTask (s : Client) (n : Nat) (pc : TaskPc) :
    (s.setTask n pc).publishedBy = Function.update s.publishedBy n pc.published := by
  funext m
  by_cases hm : m = n
  · subst hm
    simp [Client.publishedBy]
  · simp [Client.publishedBy, Client.setTask_of_ne s pc hm, Function.update_of_ne hm]

theorem Client.Owned.spare_setTask {s : Client} (h : s.Owned) {n : Nat}
    {pc : TaskPc} (hpc : s.tasks n = some pc) (pc' : TaskPc) (m : Nat)
    (hm : s.created ≤ m) : (s.setTask n pc').tasks m = none := by
  by_cases hmn : m = n
  · subst hmn
    cases (h.spare m hm).symm.trans hpc
  · rw [Client.setTask_of_ne s pc' hmn]
    exact h.spare m hm

/-- A statement that leaves what task `n` holds. -/
theorem Client.held_setTask {s : Client} {n : Nat} {pc pc' : TaskPc}
    (hpc : s.tasks n = some pc) (hholds : pc'.holds = pc.holds) :
    (s.setTask n pc').held = s.held := by
  have hsockOf : (s.setTask n pc').sockOf = s.sockOf := by
    rw [Client.sockOf_setTask, hholds]
    exact Function.update_eq_self_iff.mpr (by simp [Client.sockOf, hpc])
  rw [Client.held, hsockOf]
  rfl

/-- A statement of a task that keeps its descriptor, published or not. -/
theorem Client.Owned.setTask {s : Client} (h : s.Owned) {n : Nat} {pc pc' : TaskPc}
    (hpc : s.tasks n = some pc) (hholds : pc'.holds = pc.holds)
    (hpublished : pc'.published = pc.published) : (s.setTask n pc').Owned := by
  have hpub : (s.setTask n pc').publishedBy = s.publishedBy := by
    rw [Client.publishedBy_setTask, hpublished]
    exact Function.update_eq_self_iff.mpr (by simp [Client.publishedBy, hpc])
  refine h.congr (h.spare_setTask hpc pc') (Client.held_setTask hpc hholds) rfl ?_ h.sending
  intro k hk
  rw [hpub]
  exact h.sock k hk

/-- A statement of a caller that is not about a send. -/
theorem Client.Owned.setCaller {s : Client} (h : s.Owned) (tid : Nat)
    (pc : CallerPc) (hpc : ∀ k, pc ≠ .sending k) : (s.setCaller tid pc).Owned := by
  refine h.congr h.spare rfl rfl h.sock ?_
  intro other k hother
  by_cases hne : other = tid
  · subst hne
    rw [Client.setCaller_self] at hother
    exact absurd hother (hpc k)
  · rw [Client.setCaller_of_ne s pc hne] at hother
    exact h.sending other k hother

/-- `s_running`, `s_cfg` and the history are not part of the invariant. -/
theorem Client.Owned.store {s : Client} (h : s.Owned) (running stopped : Bool)
    (cfg : Option Prov.AppNvramData) (received : List (List UInt8)) :
    Client.Owned {s with
      running := running
      stopped := stopped
      cfg := cfg
      received := received} :=
  h.congr h.spare rfl rfl h.sock h.sending

theorem Client.Owned.create {s : Client} (h : s.Owned) :
    Client.Owned {s.setTask s.created .check with created := s.created + 1} := by
  have hnone : s.tasks s.created = none := h.spare s.created (Nat.le_refl _)
  have hsockOf : (s.setTask s.created .check).sockOf = s.sockOf := by
    rw [Client.sockOf_setTask]
    exact Function.update_eq_self_iff.mpr (by simp [Client.sockOf, hnone, TaskPc.holds])
  have hpub : (s.setTask s.created .check).publishedBy = s.publishedBy := by
    rw [Client.publishedBy_setTask]
    exact Function.update_eq_self_iff.mpr (by simp [Client.publishedBy, hnone, TaskPc.published])
  refine h.congr ?_ ?_ rfl ?_ h.sending
  · intro n hn
    have hne : n ≠ s.created := by
      rintro rfl
      exact Nat.not_succ_le_self _ hn
    exact (Client.setTask_of_ne s .check hne).trans
      (h.spare n (Nat.le_of_succ_le hn))
  · change Table.gather (s.setTask s.created .check).sockOf (s.created + 1) = s.held
    rw [hsockOf, Table.gather_succ (by simp [Client.sockOf, hnone])]
    rfl
  · intro k hk
    obtain ⟨n, hn⟩ := h.sock k hk
    exact ⟨n, (congrFun hpub n).trans hn⟩

/-- Other users of the socket layer touch only numbers that are free or theirs. -/
theorem Client.Owned.other {s : Client} (h : s.Owned) {fd : Nat}
    (hfd : ∀ id, s.table.slots fd ≠ some (.own id)) (holder : Option Holder) :
    Client.Owned {s with table := s.table.other fd holder} :=
  ⟨h.spare, h.holds.other hfd holder, h.sock, h.sending⟩

/-- A statement of a task that has not published its descriptor. -/
theorem Client.Owned.published_setTask {s : Client} (h : s.Owned) {n : Nat} {pc : TaskPc}
    (hpc : s.tasks n = some pc) (hpub : pc.published = none) (pc' : TaskPc) {k : Desc}
    (hk : s.sock = some k) : ∃ m, (s.setTask n pc').publishedBy m = some k := by
  obtain ⟨m, hm⟩ := h.sock k hk
  have hne : m ≠ n := by
    rintro rfl
    simp [Client.publishedBy, hpc, hpub] at hm
  refine ⟨m, ?_⟩
  rw [Client.publishedBy_setTask, Function.update_of_ne hne]
  exact hm

/-- `zsock_socket` gives a task a descriptor that nobody has had. -/
theorem Client.Owned.socket {s : Client} (h : s.Owned) {n fd : Nat}
    (hpc : s.tasks n = some .socket) (hfd : s.table.slots fd = none) :
    ((s.zsockSocket fd).setTask n (.connect (s.table.fresh fd))).Owned := by
  have hnone : s.sockOf n = none := by simp [Client.sockOf, hpc, TaskPc.holds]
  refine ⟨h.spare_setTask hpc _, ?_, fun k => h.published_setTask hpc rfl _, h.sending⟩
  have hholds := h.holds.obtain_at (h.lt_created hpc) hnone hfd
  have hsockOf := Client.sockOf_setTask (s.zsockSocket fd) n (.connect (s.table.fresh fd))
  rw [Client.held, hsockOf]
  exact hholds

/-- A task closes its descriptor, which is not published any more. -/
theorem Client.Owned.close {s : Client} (h : s.Owned) {n : Nat} {pc pc' : TaskPc}
    {k : Desc} (hpc : s.tasks n = some pc) (hk : pc.holds = some k)
    (hpub : pc.published = none) (hnone : pc'.holds = none) :
    ((s.zsockClose k).setTask n pc').Owned := by
  have hheld : s.sockOf n = some k := by simp [Client.sockOf, hpc, hk]
  refine ⟨h.spare_setTask hpc pc', ?_, fun k' => h.published_setTask hpc hpub pc', h.sending⟩
  have hholds := h.holds.close_at (h.lt_created hpc) hheld
  rw [Client.held, Client.sockOf_setTask, hnone]
  exact hholds

theorem Client.Owned.publish {s : Client} (h : s.Owned) {n : Nat} {k : Desc}
    (hpc : s.tasks n = some (.publish k)) (hlock : s.lock = none) :
    Client.Owned {s.setTask n (.recv k) with sock := some k, connected := true} := by
  refine h.congr (h.spare_setTask hpc _) (Client.held_setTask hpc rfl) rfl ?_ ?_
  · intro k' hk'
    cases hk'
    exact ⟨n, (congrFun (Client.publishedBy_setTask s n (.recv k)) n).trans
      (Function.update_self ..)⟩
  · intro tid k' hk'
    cases (h.sending tid k' hk').1.symm.trans hlock

theorem Client.Owned.clear {s : Client} (h : s.Owned) {n : Nat} {k : Desc}
    (hpc : s.tasks n = some (.clear k)) (hlock : s.lock = none) :
    Client.Owned {s.setTask n (.close k) with sock := none, connected := false} := by
  refine h.congr (h.spare_setTask hpc _) (Client.held_setTask hpc rfl) rfl ?_ ?_
  · intro k' hk'
    cases hk'
  · intro tid k' hk'
    cases (h.sending tid k' hk').1.symm.trans hlock

theorem Client.Owned.sendLock {s : Client} (h : s.Owned) {tid : Nat}
    (hlock : s.lock = none) : (s.sendLock tid).Owned := by
  unfold Client.sendLock
  split
  case h_1 k _ hsock =>
      refine h.congr h.spare rfl rfl h.sock ?_
      intro other k' hother
      by_cases hne : other = tid
      · subst hne
        have hself := (Client.setCaller_self s other (.sending k)).symm.trans hother
        cases hself
        exact ⟨rfl, hsock⟩
      · have hold := (Client.setCaller_of_ne s (.sending k) hne).symm.trans hother
        cases (h.sending other k' hold).1.symm.trans hlock
  case h_2 => exact h

theorem Client.Owned.sendCall {s : Client} (h : s.Owned) {tid : Nat} {k : Desc}
    (hcaller : s.callers tid = .sending k) : (s.sendCall tid k).Owned := by
  obtain ⟨hlock, hsock⟩ := h.sending tid k hcaller
  obtain ⟨n, hn⟩ := h.sock k hsock
  have hmem := h.mem_held (Client.sockOf_of_published hn)
  refine ⟨h.spare, h.holds.use hmem, h.sock, ?_⟩
  intro other k' hother
  by_cases hne : other = tid
  · subst hne
    cases (Client.setCaller_self s other .idle).symm.trans hother
  · have hold := (Client.setCaller_of_ne s .idle hne).symm.trans hother
    cases hlock.symm.trans (h.sending other k' hold).1
    exact absurd rfl hne

theorem Client.Owned.startCheck {s : Client} (h : s.Owned) (tid : Nat)
    (cfg : Option Prov.AppNvramData) : (s.startCheck tid cfg).Owned := by
  cases cfg with
  | none => exact h
  | some cfg =>
      unfold Client.startCheck
      dsimp only
      split
      · exact h
      · exact h.setCaller tid (.starting cfg) (fun _ hc => by cases hc)

theorem Client.Owned.startCreate {s : Client} (h : s.Owned) (tid : Nat)
    (created : Bool) : (s.startCreate tid created).Owned := by
  have hidle : (s.setCaller tid .idle).Owned :=
    h.setCaller tid .idle (fun _ hc => by cases hc)
  cases created with
  | true => exact hidle.create
  | false => exact hidle.store false s.stopped s.cfg s.received

theorem Client.Owned.recv {s : Client} (h : s.Owned) {n : Nat} {k : Desc}
    (hpc : s.tasks n = some (.recv k)) (data : List UInt8) :
    (s.recv n k data).Owned := by
  unfold Client.recv
  split
  · exact h.setTask hpc rfl rfl
  · exact h.store s.running s.stopped s.cfg _

/-- One step that meets the condition keeps the invariant. -/
theorem Client.Owned.step {s s' : Client} {a : Act} (h : s.Owned)
    (hstop : StopsUnpublished s a) (hstep : clientSystem.step s a = some s') :
    s'.Owned := by
  cases Client.does_of_step hstep with
  | startCheck cfg => exact h.startCheck _ cfg
  | startStore => exact (h.setCaller _ .creating (fun _ hc => by cases hc)).store _ _ _ _
  | startCreate created => exact h.startCreate _ created
  | stopFlag => exact (h.setCaller _ .stopping (fun _ hc => by cases hc)).store _ _ _ _
  | @stopSection tid =>
      have hsock : s.sock = none := hstop
      have hsame : s.stopSection tid = {s.setCaller tid .idle with stopped := true} := by
        simp [Client.stopSection, Client.setCaller, hsock]
      rw [hsame]
      exact (h.setCaller tid .idle (fun _ hc => by cases hc)).store _ _ _ _
  | sendLock _ hlock => exact h.sendLock hlock
  | sendCall hcaller => exact h.sendCall hcaller
  | check hpc => cases s.running <;> exact h.setTask hpc rfl rfl
  | noSocket hpc => exact h.setTask hpc rfl rfl
  | socket hpc hfd => exact h.socket hpc hfd
  | connect ok hpc => cases ok <;> exact h.setTask hpc rfl rfl
  | refused hpc => exact h.close hpc rfl rfl rfl
  | pause hpc => exact h.setTask hpc rfl rfl
  | publish hpc hlock => exact h.publish hpc hlock
  | recv data hpc => exact h.recv hpc data
  | clear hpc hlock => exact h.clear hpc hlock
  | close hpc => exact h.close hpc rfl rfl rfl
  | otherOpen hfd | otherClose hfd =>
      -- the number is not one of the client's before the step
      exact h.other (fun id hid => by cases hid.symm.trans hfd) _

/-- A stop that closes a published descriptor leaves it to the task to close it
a second time. -/
theorem Client.Owned.stop_breaks {s : Client} (h : s.Owned) {tid : Nat}
    (hcaller : s.callers tid = .stopping) (hlock : s.lock = none)
    (hsock : s.sock ≠ none) : ∃ more,
    ¬clientSystem.Always Client.Descriptors s (.stopSection tid :: more) := by
  obtain ⟨k, hk⟩ := Option.ne_none_iff_exists'.mp hsock
  obtain ⟨n, hn⟩ := h.sock k hk
  obtain ⟨pc, hpc, hpub⟩ := Option.bind_eq_some_iff.mp hn
  have hstop : clientSystem.step s (.stopSection tid) = some (s.stopSection tid) :=
    (Client.Does.stopSection hcaller hlock).step
  have htasks : (s.stopSection tid).tasks = s.tasks := by
    simp [Client.stopSection, Client.setCaller, Client.zsockClose, hk]
  have htable : (s.stopSection tid).table = s.table.close k := by
    simp [Client.stopSection, Client.setCaller, Client.zsockClose, hk]
  have hfree : (s.stopSection tid).table.slots k.fd = none := by
    rw [htable]
    exact Function.update_self ..
  have hlock' : (s.stopSection tid).lock = none := by
    simp [Client.stopSection, Client.setCaller, Client.zsockClose, hk, hlock]
  -- from the locked section that ends the connection the task closes `k` again
  have hagain : ∀ t : Client, t.tasks n = some (.clear k) → t.lock = none →
      t.table.slots k.fd = none → ¬clientSystem.Always Client.Descriptors t
        [.clear n, .close n] := by
    intro t ht htlock htfd hgood
    have hclear : clientSystem.step t (.clear n) =
        some {t.setTask n (.close k) with sock := none, connected := false} :=
      (Client.Does.clear ht htlock).step
    have hclose := (hgood.2 _ hclear).2
    simp only [clientSystem, Client.setTask_self] at hclose
    have hown := (hclose _ rfl).own (.close k none) (by
      simp [Client.zsockClose, Client.setTask, Table.close, htfd])
    cases hown
  cases pc with
  | recv k' =>
      cases hpub
      refine ⟨[.recv n [], .clear n, .close n], fun hgood => ?_⟩
      have hrecv : clientSystem.step (s.stopSection tid) (.recv n []) =
          some ((s.stopSection tid).setTask n (.clear k)) := by
        simp [clientSystem, htasks, hpc, Client.recv]
      exact hagain _ (Client.setTask_self _ n _) hlock' hfree
        ((hgood.2 _ hstop).2 _ hrecv)
  | clear k' =>
      cases hpub
      refine ⟨[.clear n, .close n], fun hgood => ?_⟩
      exact hagain _ (by rw [htasks, hpc]) hlock' hfree (hgood.2 _ hstop)
  | check | socket | connect | refused | pause | publish | close | returned =>
      cases hpub

/-- If no stop finds a published descriptor, each descriptor is closed once, by
its task, and no close or send reaches one that is not its own. A stop that does
find one can go on to break this. -/
theorem closed_once_while_unpublished (acts : List Act) :
    (clientSystem.Meets StopsUnpublished .powerUp acts →
      clientSystem.Always Client.Descriptors .powerUp acts) ∧
    ∀ tid s s', clientSystem.Meets StopsUnpublished .powerUp acts →
      clientSystem.exec .powerUp acts = some s →
      clientSystem.step s (.stopSection tid) = some s' →
      ¬StopsUnpublished s (.stopSection tid) →
      ∃ more, ¬clientSystem.Always Client.Descriptors .powerUp
        (acts ++ .stopSection tid :: more) := by
  have hkeep : clientSystem.Meets StopsUnpublished .powerUp acts →
      clientSystem.Always Client.Owned .powerUp acts :=
    System.always_of_meets (fun _ _ _ h hC hstep => h.step hC hstep)
      Client.owned_powerUp
  refine ⟨fun hmeets => (hkeep hmeets).mono (fun _ h => h.descriptors), ?_⟩
  intro tid s s' hmeets hrun hstep hsock
  have howned : s.Owned :=
    System.Always.of_exec acts [] (by simpa using hkeep hmeets) hrun
  cases Client.does_of_step hstep with
  | stopSection hcaller hlock =>
      obtain ⟨more, hmore⟩ := howned.stop_breaks hcaller hlock hsock
      exact ⟨more, fun hgood => hmore (hgood.of_append hrun)⟩

/-- A server that refuses the connection, and a stop during the backoff. -/
theorem closed_once_while_unpublished_refused :
    clientSystem.Always Client.Descriptors .powerUp
      [.startCheck 1 (some .zero), .startStore 1, .startCreate 1 true, .check 0,
        .socket 0 (some 3), .connect 0 false, .refused 0, .stopFlag 1,
        .stopSection 1, .pause 0, .check 0] := by
  refine (closed_once_while_unpublished _).1 ?_
  iterate 8
    rintro _ ⟨⟩
    refine ⟨trivial, ?_⟩
  rintro _ ⟨⟩
  refine ⟨rfl, ?_⟩
  iterate 2
    rintro _ ⟨⟩
    refine ⟨trivial, ?_⟩
  trivial

/-- A client that is connected through descriptor 3. -/
def connectActs : List Act :=
  [.startCheck 1 (some .zero), .startStore 1, .startCreate 1 true, .check 0,
    .socket 0 (some 3), .connect 0 true, .publish 0]

/-- A stop closes descriptor 3, another module is given the number, and the task
closes it once more. -/
theorem stop_closes_twice :
    ¬∀ acts, clientSystem.Always Client.Descriptors .powerUp acts := by
  intro h
  have hend := (h (connectActs ++ [.stopFlag 1, .stopSection 1, .otherOpen 3,
    .recv 0 [], .clear 0, .close 0] ++ [])).of_exec (connectActs ++ [.stopFlag 1,
      .stopSection 1, .otherOpen 3, .recv 0 [], .clear 0, .close 0]) [] rfl
  have hown := hend.own (.close ⟨3, 0⟩ (some .other)) (by
    simp [Client.zsockClose, Client.zsockSocket, Client.setTask, Client.setCaller,
      Client.startCheck, Client.startStore, Client.startCreate, Client.stopSection, Client.recv,
      Client.powerUp, Table.empty, Table.fresh, Table.obtain, Table.close, Table.other])
  cases hown

end Rw612.Tcp
