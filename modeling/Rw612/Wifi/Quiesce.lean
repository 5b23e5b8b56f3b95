import Rw612.Wifi.Station

/-!
What `app_wifi_disconnect` stops. It cancels the timeout and sets `s_retry_idx`
to the end of the sequence, which `retry_work_fn` reads as a sequence that is
exhausted. Nothing is left to happen only if no retry is queued or running, no
connect is under way and the driver reports no further result.
-/

namespace Rw612.Wifi

open Lib

/-- From the return of a disconnect to the next connect the station is not
connected. -/
def Station.StaysClear (s : Station) : Prop := s.quiesced = true → s.connected = false

/-- In that time no step issues a request to connect or emits an AUTH_FAILED. -/
def Silent (s : Station) (a : Act) : Prop :=
  ∀ s', wifiSystem.step s a = some s' → s.quiesced = true →
    s'.requests = s.requests ∧
      s'.events.filter Evt.isAuthFailed = s.events.filter Evt.isAuthFailed

/-- A statement that leads to no request, no AUTH_FAILED and no connection. -/
def Op.calm : Op → Bool
  | .submitRetry | .tryBand | .netConnect _ | .startConnectTimeout _ => false
  | .setConnected value => !value
  | .emit evt => !evt.isAuthFailed
  | _ => true

/-- No retry is queued, and no thread is in the course of anything that leads to
one, to a request or to a connection. -/
structure Station.Calm (s : Station) : Prop where
  queue : .retry ∉ s.queue.pending
  todo : ∀ t, ∀ op ∈ s.todo t, op.calm = true

/-- A disconnect is past its first statement. -/
def Station.Disconnecting (s : Station) : Prop :=
  ∃ t, .leave ∈ s.todo t ∧ .cancelConnectTimeout ∉ s.todo t

/-- Each disconnect executes its first statement, the cancellation of the
timeout, in a calm state; from then to the next connect no `CONNECT_RESULT` is
delivered, and that connect waits for the disconnect to return. -/
def DisconnectsCalm (s : Station) : Act → Prop
  | .run t _ =>
      (s.todo t).head? = some .cancelConnectTimeout → .leave ∈ s.todo t → s.Calm
  | .event (.connectResult _ _) => s.quiesced = false ∧ ¬s.Disconnecting
  | .connect _ cfg => s.started = true → cfg ≠ none → ¬s.Disconnecting
  | _ => True

/-- A disconnect is past its first statement or has returned. -/
def Station.Closing (s : Station) : Prop := s.quiesced = true ∨ s.Disconnecting

structure Station.Hushed (s : Station) : Prop where
  shape : ∀ t, .leave ∈ s.todo t → s.todo t <:+ appWifiDisconnect
  calm : s.Closing → s.Calm
  timer : s.Closing → s.armed = false ∧ .timeout ∉ s.queue.pending
  clear : s.StaysClear
  cleared : ∀ t, .leave ∈ s.todo t → .cancelConnectTimeout ∉ s.todo t →
    .setConnected false ∉ s.todo t → s.connected = false

theorem Station.hushed_init : Station.init.Hushed := by
  constructor <;> simp [Station.init, Station.Closing, Station.Disconnecting,
    Station.StaysClear]

theorem suffix_cases {op : Op} {rest : List Op} (h : op :: rest <:+ appWifiDisconnect) :
    op = .cancelConnectTimeout ∧
        rest = [.setIdx BAND_SEQ_LEN, .setConnected false, .netDisconnect, .leave] ∨
      op = .setIdx BAND_SEQ_LEN ∧ rest = [.setConnected false, .netDisconnect, .leave] ∨
      op = .setConnected false ∧ rest = [.netDisconnect, .leave] ∨
      op = .netDisconnect ∧ rest = [.leave] ∨ op = .leave ∧ rest = [] := by
  rw [← List.mem_tails] at h
  simpa [appWifiDisconnect] using h

theorem Station.branch_calm (s : Station) (ok : Bool) {op : Op} (h : op.calm = true) :
    ∀ o ∈ s.branch ok op, o.calm = true := by
  cases op with
  | bumpIdx => simp [Station.branch, Op.calm]
  | tryBand | netConnect => cases h
  | cancelConnectTimeout | setCfg | setIdx | submitRetry | startConnectTimeout |
    setConnected | netDisconnect | emit | leave => simp [Station.branch]

theorem Station.leave_notMem_branch (s : Station) (ok : Bool) (op : Op) :
    .leave ∉ s.branch ok op := by
  unfold Station.branch
  split <;> try simp
  · split <;> simp
  · split
    · simp
    · split <;> simp

/-! A statement of a calm state. -/

theorem Station.Calm.exec {s : Station} (h : s.Calm) {t : Thread} {ok : Bool} {op : Op}
    {rest : List Op} (htodo : s.todo t = op :: rest) : (s.exec t ok rest op).Calm := by
  have hx := s.exec_executed t ok rest op
  have hop : op.calm = true := h.todo t op (by simp [htodo])
  constructor
  · by_cases hcancel : op = .cancelConnectTimeout
    · subst hcancel
      exact fun hmem => h.queue (WorkQueue.mem_cancel.mp hmem).2
    · rw [hx.queue (by rintro rfl; cases hop) hcancel]
      exact h.queue
  · rw [hx.todo]
    refine (Function.forall_update_iff s.todo
      (fun _ ops => ∀ o ∈ ops, o.calm = true)).mpr ⟨fun o ho => ?_, fun t' _ => h.todo t'⟩
    rcases List.mem_append.mp ho with ho | ho
    · exact s.branch_calm ok hop o ho
    · exact h.todo t o (by simp [htodo, ho])

/-- It neither asks for a connection nor announces a failure. -/
theorem Station.Calm.exec_silent {s : Station} (h : s.Calm) {t : Thread} {ok : Bool}
    {op : Op} {rest : List Op} (htodo : s.todo t = op :: rest) :
    (s.exec t ok rest op).requests = s.requests ∧
      (s.exec t ok rest op).events.filter Evt.isAuthFailed =
        s.events.filter Evt.isAuthFailed := by
  have hx := s.exec_executed t ok rest op
  have hop : op.calm = true := h.todo t op (by simp [htodo])
  refine ⟨(hx.requests (by rintro b rfl; cases hop)).1, ?_⟩
  by_cases hemit : ∃ e, op = .emit e
  · obtain ⟨e, rfl⟩ := hemit
    have he : e.isAuthFailed = false := by simpa [Op.calm] using hop
    simp [Station.exec, Station.setTodo, he]
  · rw [hx.events (fun e he => hemit ⟨e, he⟩)]

/-- It does not connect the station. -/
theorem Station.Calm.exec_connected {s : Station} (h : s.Calm) {t : Thread} {ok : Bool}
    {op : Op} {rest : List Op} (htodo : s.todo t = op :: rest)
    (hclear : s.connected = false) : (s.exec t ok rest op).connected = false := by
  have hop : op.calm = true := h.todo t op (by simp [htodo])
  by_cases hset : ∃ v, op = .setConnected v
  · obtain ⟨v, rfl⟩ := hset
    have hv : v = false := by simpa [Op.calm] using hop
    exact hv
  · rw [(s.exec_executed t ok rest op).connected (fun v hv => hset ⟨v, hv⟩)]
    exact hclear

/-- The timeout stays cancelled. -/
theorem Station.Calm.exec_timer {s : Station} (h : s.Calm) {t : Thread} {ok : Bool}
    {op : Op} {rest : List Op} (htodo : s.todo t = op :: rest)
    (htimer : op = .cancelConnectTimeout ∨
      s.armed = false ∧ .timeout ∉ s.queue.pending) :
    (s.exec t ok rest op).armed = false ∧
      .timeout ∉ (s.exec t ok rest op).queue.pending := by
  have hx := s.exec_executed t ok rest op
  have hop : op.calm = true := h.todo t op (by simp [htodo])
  by_cases hcancel : op = .cancelConnectTimeout
  · subst hcancel
    exact ⟨rfl, fun hmem => (WorkQueue.mem_cancel.mp hmem).1 rfl⟩
  · obtain ⟨harmed, hqueue⟩ := htimer.resolve_left hcancel
    rw [hx.armed (by rintro n rfl; cases hop) hcancel,
      hx.queue (by rintro rfl; cases hop) hcancel]
    exact ⟨harmed, hqueue⟩

/-- What a disconnect has left to do becomes less. -/
theorem Station.Hushed.exec_leave {s : Station} (h : s.Hushed) {t t' : Thread} {ok : Bool}
    {op : Op} {rest : List Op} (htodo : s.todo t = op :: rest)
    (hleave : .leave ∈ (s.exec t ok rest op).todo t') :
    t' ≠ t ∧ (s.exec t ok rest op).todo t' = s.todo t' ∨
      t' = t ∧ (s.exec t ok rest op).todo t = rest ∧ op :: rest <:+ appWifiDisconnect := by
  rw [(s.exec_executed t ok rest op).todo] at hleave ⊢
  by_cases ht : t' = t
  · subst ht
    rw [Function.update_self] at hleave ⊢
    have hrest : .leave ∈ rest :=
      (List.mem_append.mp hleave).resolve_left (s.leave_notMem_branch ok op)
    have hsuffix := h.shape t' (by simp [htodo, hrest])
    rw [htodo] at hsuffix
    have hbranch : s.branch ok op = [] := by
      rcases suffix_cases hsuffix with
          ⟨rfl, -⟩ | ⟨rfl, -⟩ | ⟨rfl, -⟩ | ⟨rfl, -⟩ | ⟨rfl, -⟩ <;> rfl
    exact Or.inr ⟨rfl, by rw [hbranch, List.nil_append], hsuffix⟩
  · exact Or.inl ⟨ht, Function.update_of_ne ht _ _⟩

/-- A closing state is entered by the first statement of a disconnect only. -/
theorem Station.Hushed.before_closing {s : Station} (h : s.Hushed) {t : Thread}
    {ok : Bool} {op : Op} {rest : List Op} (htodo : s.todo t = op :: rest)
    (hC : DisconnectsCalm s (.run t ok)) (hclosing : (s.exec t ok rest op).Closing) :
    s.Calm ∧ (op = .cancelConnectTimeout ∨
      s.armed = false ∧ .timeout ∉ s.queue.pending) := by
  by_cases hold : s.Closing
  · exact ⟨h.calm hold, Or.inr (h.timer hold)⟩
  have hsuffix : op :: rest <:+ appWifiDisconnect := by
    rcases hclosing with hquiesced | ⟨t', hleave, hcancel⟩
    · by_cases hop : op = .leave
      · subst hop
        exact htodo ▸ h.shape t (by simp [htodo])
      · rw [(s.exec_executed t ok rest op).quiesced hop] at hquiesced
        exact absurd (Or.inl hquiesced) hold
    · rcases h.exec_leave htodo hleave with ⟨-, hsame⟩ | ⟨-, -, hsuffix⟩
      · rw [hsame] at hleave hcancel
        exact absurd (Or.inr ⟨t', hleave, hcancel⟩) hold
      · exact hsuffix
  have hpast : .leave ∈ s.todo t → .cancelConnectTimeout ∈ s.todo t := by
    intro hleave
    by_contra hcancel
    exact hold (Or.inr ⟨t, hleave, hcancel⟩)
  rcases suffix_cases hsuffix with
      ⟨rfl, rfl⟩ | ⟨rfl, rfl⟩ | ⟨rfl, rfl⟩ | ⟨rfl, rfl⟩ | ⟨rfl, rfl⟩
  · exact ⟨hC (by rw [htodo]; rfl) (by simp [htodo]), Or.inl rfl⟩
  all_goals simp [htodo] at hpast

theorem Station.Hushed.run {s : Station} (h : s.Hushed) {t : Thread} {ok : Bool}
    {op : Op} {rest : List Op} (htodo : s.todo t = op :: rest)
    (hC : DisconnectsCalm s (.run t ok)) : (s.exec t ok rest op).Hushed where
  shape t' hleave := by
    rcases h.exec_leave htodo hleave with ⟨-, hsame⟩ | ⟨rfl, hrest, hsuffix⟩
    · rw [hsame] at hleave ⊢
      exact h.shape t' hleave
    · rw [hrest]
      exact (List.suffix_cons op rest).trans hsuffix
  calm hclosing := (h.before_closing htodo hC hclosing).1.exec htodo
  timer hclosing := by
    obtain ⟨hcalm, htimer⟩ := h.before_closing htodo hC hclosing
    exact hcalm.exec_timer htodo htimer
  clear hquiesced := by
    obtain ⟨hcalm, -⟩ := h.before_closing htodo hC (Or.inl hquiesced)
    apply hcalm.exec_connected htodo
    by_cases hop : op = .leave
    · subst hop
      have hsuffix := h.shape t (by simp [htodo])
      rw [htodo] at hsuffix
      rcases suffix_cases hsuffix with
          ⟨hne, -⟩ | ⟨hne, -⟩ | ⟨hne, -⟩ | ⟨hne, -⟩ | ⟨-, rfl⟩
      all_goals try cases hne
      exact h.cleared t (by simp [htodo]) (by simp [htodo]) (by simp [htodo])
    · rw [(s.exec_executed t ok rest op).quiesced hop] at hquiesced
      exact h.clear hquiesced
  cleared t' hleave hcancel hset := by
    obtain ⟨hcalm, -⟩ := h.before_closing htodo hC (Or.inr ⟨t', hleave, hcancel⟩)
    rcases h.exec_leave htodo hleave with ⟨-, hsame⟩ | ⟨rfl, hrest, hsuffix⟩
    · rw [hsame] at hleave hcancel hset
      exact hcalm.exec_connected htodo (h.cleared t' hleave hcancel hset)
    · rw [hrest] at hleave hcancel hset
      rcases suffix_cases hsuffix with
          ⟨rfl, rfl⟩ | ⟨rfl, rfl⟩ | ⟨rfl, rfl⟩ | ⟨rfl, rfl⟩ | ⟨rfl, rfl⟩
      · exact absurd (by simp) hset
      · exact absurd (by simp) hset
      · rfl
      · exact hcalm.exec_connected htodo
          (h.cleared t' (by simp [htodo]) (by simp [htodo]) (by simp [htodo]))
      · cases hleave

/-! The other steps. -/

/-- An idle thread begins with a function; while the station is closing that is
one that stays calm. -/
theorem Station.Hushed.begin {s s' : Station} (h : s.Hushed) {t : Thread} {ops : List Op}
    (hidle : s.todo t = []) (htodo : s'.todo = Function.update s.todo t ops)
    (hconnected : s'.connected = s.connected)
    (hquiesced : s'.quiesced = true → s.quiesced = true)
    (hops : .leave ∈ ops → ops = appWifiDisconnect)
    (hcalm : s'.quiesced = true ∨ s.Disconnecting → (∀ o ∈ ops, o.calm = true) ∧
      (∀ i ∈ s'.queue.pending, i ∈ s.queue.pending) ∧ (s.armed = false → s'.armed = false)) :
    s'.Hushed := by
  have hleave : ∀ t', .leave ∈ s'.todo t' → .cancelConnectTimeout ∉ s'.todo t' →
      s'.todo t' = s.todo t' := by
    intro t' hleave hcancel
    rw [htodo] at hleave hcancel ⊢
    by_cases ht : t' = t
    · subst ht
      rw [Function.update_self] at hleave hcancel
      rw [hops hleave] at hcancel
      exact absurd (by simp [appWifiDisconnect]) hcancel
    · exact Function.update_of_ne ht _ _
  have hclosing : s'.Closing → s'.quiesced = true ∨ s.Disconnecting := by
    rintro (hq | ⟨t', hmem, hcancel⟩)
    · exact Or.inl hq
    · have hsame := hleave t' hmem hcancel
      rw [hsame] at hmem hcancel
      exact Or.inr ⟨t', hmem, hcancel⟩
  have hold : s'.Closing → s.Closing := fun hc => (hclosing hc).imp hquiesced id
  refine ⟨fun t' hmem => ?_, fun hc => ⟨?_, ?_⟩, fun hc => ⟨?_, ?_⟩, fun hq => ?_,
    fun t' hmem hcancel hset => ?_⟩
  · rw [htodo] at hmem ⊢
    by_cases ht : t' = t
    · subst ht
      rw [Function.update_self] at hmem ⊢
      rw [hops hmem]
    · rw [Function.update_of_ne ht] at hmem ⊢
      exact h.shape t' hmem
  · exact fun hretry => (h.calm (hold hc)).queue ((hcalm (hclosing hc)).2.1 _ hretry)
  · rw [htodo]
    exact (Function.forall_update_iff s.todo
      (fun _ ops => ∀ o ∈ ops, o.calm = true)).mpr
      ⟨(hcalm (hclosing hc)).1, fun t' _ => (h.calm (hold hc)).todo t'⟩
  · exact (hcalm (hclosing hc)).2.2 (h.timer (hold hc)).1
  · exact fun hmem => (h.timer (hold hc)).2 ((hcalm (hclosing hc)).2.1 _ hmem)
  · rw [hconnected]
    exact h.clear (hquiesced hq)
  · have hsame := hleave t' hmem hcancel
    rw [hsame] at hmem hcancel hset
    rw [hconnected]
    exact h.cleared t' hmem hcancel hset

/-- A step that does not touch what a disconnect stops. -/
theorem Station.Hushed.congr {s s' : Station} (h : s.Hushed) (htodo : s'.todo = s.todo)
    (hqueue : s'.queue = s.queue) (harmed : s'.armed = s.armed)
    (hconnected : s'.connected = s.connected) (hquiesced : s'.quiesced = s.quiesced) :
    s'.Hushed := by
  have hold : s'.Closing → s.Closing := by
    rw [Station.Closing, Station.Disconnecting, htodo, hquiesced]
    exact id
  refine ⟨by rw [htodo]; exact h.shape, fun hc => ⟨?_, ?_⟩, fun hc => ?_, ?_, ?_⟩
  · rw [hqueue]
    exact (h.calm (hold hc)).queue
  · rw [htodo]
    exact (h.calm (hold hc)).todo
  · rw [harmed, hqueue]
    exact h.timer (hold hc)
  · rw [Station.StaysClear, hquiesced, hconnected]
    exact h.clear
  · rw [htodo, hconnected]
    exact h.cleared

theorem connectResultFn_leave (status : Option ConnStatus) :
    .leave ∉ connectResultFn status := by
  cases status with
  | none => decide
  | some st => cases st <;> decide

/-- While the station is closing no item is queued. -/
theorem Station.Hushed.not_closing {s : Station} (h : s.Hushed) {item : Item}
    {queue : WorkQueue Item} (hnext : s.queue.next = some (item, queue)) : ¬s.Closing := by
  have hmem : item ∈ s.queue.pending := by
    rw [WorkQueue.next_eq_some.mp hnext]
    exact List.mem_cons_self
  intro hc
  cases item with
  | retry => exact (h.calm hc).queue hmem
  | timeout => exact (h.timer hc).2 hmem

theorem Station.Hushed.step {s s' : Station} {a : Act} (h : s.Hushed)
    (hC : DisconnectsCalm s a) (hs : wifiSystem.step s a = some s') : s'.Hushed := by
  cases a with
  | ready =>
      obtain ⟨-, rfl⟩ := ready_cases hs
      exact h.congr rfl rfl rfl rfl rfl
  | connect tid cfg =>
      rcases connect_cases hs with rfl | ⟨r, rfl, hstarted, hidle, rfl⟩
      · exact h
      · refine h.begin hidle rfl rfl (by simp) (fun hmem => ?_) (fun hc => ?_)
        · simp [appWifiConnect] at hmem
        · exact absurd (hc.resolve_left (by simp)) (hC hstarted (by simp))
  | disconnect tid =>
      obtain ⟨hidle, rfl⟩ := disconnect_cases hs
      exact h.begin hidle rfl rfl id (fun _ => rfl)
        (fun _ => ⟨by decide, fun _ => id, id⟩)
  | expire =>
      obtain ⟨harmed, rfl⟩ := expire_cases hs
      have hopen : ¬s.Closing := fun hc => by
        rw [(h.timer hc).1] at harmed
        cases harmed
      exact ⟨h.shape, fun hc => absurd hc hopen, fun hc => absurd hc hopen, h.clear,
        h.cleared⟩
  | start =>
      obtain ⟨item, queue, hidle, hnext, rfl⟩ := start_cases hs
      have hopen := h.not_closing hnext
      cases item with
      | retry => exact h.begin hidle rfl rfl id (by decide) (fun hc => absurd hc hopen)
      | timeout => exact h.begin hidle rfl rfl id (by decide) (fun hc => absurd hc hopen)
  | event e =>
      obtain ⟨hidle, rfl⟩ := event_cases hs
      cases e with
      | connectResult request status =>
          refine h.begin hidle rfl rfl id
            (fun hmem => absurd hmem (connectResultFn_leave status)) (fun hc => ?_)
          rcases hc with hq | hd
          · exact absurd (hC.1.symm.trans hq) (by simp)
          · exact absurd hd hC.2
      | disconnectResult =>
          rcases s.deliver_disconnectResult with heq | ⟨-, heq⟩
          · rw [heq]
            exact h
          · rw [heq]
            exact h.begin hidle rfl rfl id (by decide)
              (fun _ => ⟨by decide, fun _ => id, id⟩)
      | dhcpBound => exact h.congr rfl rfl rfl rfl rfl
  | run t ok =>
      obtain ⟨op, rest, htodo, rfl⟩ := run_cases hs
      exact h.run htodo hC

theorem Station.Hushed.silent {s : Station} (h : s.Hushed) (a : Act) : Silent s a := by
  intro s' hs hquiesced
  cases a with
  | ready =>
      obtain ⟨-, rfl⟩ := ready_cases hs
      exact ⟨rfl, by simp [Evt.isAuthFailed]⟩
  | connect tid cfg =>
      rcases connect_cases hs with rfl | ⟨r, -, -, -, rfl⟩ <;> exact ⟨rfl, rfl⟩
  | disconnect tid =>
      obtain ⟨-, rfl⟩ := disconnect_cases hs
      exact ⟨rfl, rfl⟩
  | expire =>
      obtain ⟨-, rfl⟩ := expire_cases hs
      exact ⟨rfl, rfl⟩
  | start =>
      obtain ⟨item, queue, -, -, rfl⟩ := start_cases hs
      cases item <;> exact ⟨rfl, rfl⟩
  | event e =>
      obtain ⟨-, rfl⟩ := event_cases hs
      cases e with
      | connectResult request status => exact ⟨rfl, rfl⟩
      | disconnectResult =>
          rcases s.deliver_disconnectResult with heq | ⟨-, heq⟩ <;> rw [heq] <;>
            exact ⟨rfl, rfl⟩
      | dhcpBound => exact ⟨rfl, by simp [Station.deliver, Evt.isAuthFailed]⟩
  | run t ok =>
      obtain ⟨op, rest, htodo, rfl⟩ := run_cases hs
      exact (h.calm (Or.inl hquiesced)).exec_silent htodo

/-- If each disconnect finds the station calm, and no result arrives after it, then
from its return to the next connect the station stays disconnected and silent. -/
theorem disconnect_quiesces_while_calm {acts : List Act}
    (hC : wifiSystem.Meets DisconnectsCalm .init acts) :
    wifiSystem.Always Station.StaysClear .init acts ∧
      wifiSystem.Meets Silent .init acts := by
  have hhushed : wifiSystem.Always Station.Hushed .init acts :=
    System.always_of_meets (fun s a s' h hmeets hs => h.step hmeets hs)
      Station.hushed_init hC
  refine ⟨hhushed.mono (fun s h => h.clear), ?_⟩
  exact System.meets_of_always (fun s a s' h _ _ => h.silent a) hhushed

/-- A disconnect while the first request waits for its result, and a late
`DISCONNECT_RESULT`. -/
theorem disconnect_quiesces_while_calm_waiting :
    wifiSystem.Always Station.StaysClear .init
        (requestActs ++ disconnectActs 2 ++ [.event .disconnectResult]) ∧
      wifiSystem.Meets Silent .init
        (requestActs ++ disconnectActs 2 ++ [.event .disconnectResult]) := by
  apply disconnect_quiesces_while_calm
  rintro _ ⟨⟩
  refine ⟨trivial, ?_⟩
  rintro _ ⟨⟩
  refine ⟨by rintro - - ⟨t, ⟨⟩, -⟩, ?_⟩
  rintro _ ⟨⟩
  refine ⟨fun _ hleave => absurd hleave (by decide), ?_⟩
  iterate 3
    rintro _ ⟨⟩
    refine ⟨fun hhead => absurd hhead (by decide), ?_⟩
  rintro _ ⟨⟩
  refine ⟨trivial, ?_⟩
  iterate 3
    rintro _ ⟨⟩
    refine ⟨fun hhead => absurd hhead (by decide), ?_⟩
  rintro _ ⟨⟩
  refine ⟨trivial, ?_⟩
  -- the disconnect begins
  rintro _ ⟨⟩
  refine ⟨fun _ _ => ⟨by decide, fun t => ?_⟩, ?_⟩
  · cases t with
    | worker | events => decide
    | caller tid =>
        by_cases htid : tid = 2
        · subst htid
          decide
        · by_cases htid' : tid = 1
          · subst htid'
            decide
          · simp [(Station.exec_executed _ _ _ _ _).todo, Station.setTodo, Station.begin,
              Station.callConnect, Station.init, htid, htid']
  iterate 4
    rintro _ ⟨⟩
    refine ⟨fun hhead => absurd hhead (by decide), ?_⟩
  rintro _ ⟨⟩
  refine ⟨trivial, ?_⟩
  trivial

/-- A disconnect before the work queue has come to the retry of a connect, which
then finds the sequence exhausted. -/
theorem disconnect_leaves_retry :
    ¬∀ acts, wifiSystem.Meets Silent .init acts := by
  intro h
  obtain ⟨s, hs, hquiesced, hevents, htodo⟩ : ∃ s, wifiSystem.exec .init (connectActs ++
      disconnectActs 2 ++ [.start, .run .worker true]) = some s ∧ s.quiesced = true ∧
      s.events = [.ready] ∧ s.todo .worker = [.emit (.authFailed .exhausted)] :=
    ⟨_, rfl, rfl, rfl, rfl⟩
  have hlast : wifiSystem.Meets Silent s [.run .worker true] :=
    (h (connectActs ++ disconnectActs 2 ++ [.start, .run .worker true] ++
      [.run .worker true])).of_append hs
  have hstep : wifiSystem.step s (.run .worker true) =
      some (s.exec .worker true [] (.emit (.authFailed .exhausted))) := by
    simp [wifiSystem, htodo]
  obtain ⟨-, hsame⟩ := (hlast _ hstep).1 _ hstep hquiesced
  simp [Station.exec, Station.setTodo, hevents, Evt.isAuthFailed] at hsame

end Rw612.Wifi
