import Mathlib.Data.Finset.Card
import Mathlib.Data.Finset.Range
import Rw612.Wifi.Station

/-!
The retries of one `app_wifi_connect`. A request that is rejected, one that times
out and one whose failure is reported each advance `s_retry_idx` and submit the
same work item, and none of them says which request it is about. They advance it
once for each request only if a failure is reported while its request is the last
one and its timeout is running.
-/

namespace Rw612.Wifi

open Lib

/-- A store to `s_retry_idx`, or the load before it. -/
def Op.counts : Op → Bool
  | .bumpIdx | .setIdx _ => true
  | _ => false

/-- AUTH_FAILED for exhausted retries follows a request for every band, the index
is the number of requests that have failed, unless one is just being counted,
and AUTH_FAILED is emitted at most once. -/
structure Station.Exhaustive (s : Station) : Prop where
  bands : .authFailed .exhausted ∈ s.events →
    ∀ band ∈ kBandSeq, ∃ r ∈ s.requests, r.params.band = band
  advance : (∀ t, ∀ op ∈ s.todo t, op.counts = false) → s.retryIdx = s.failed.card
  once : s.events.countP Evt.isAuthFailed ≤ 1

/-- One connect, no disconnect, and at most one result for each request that was
accepted. -/
def OneConnect (s : Station) : Act → Prop
  | .connect _ cfg => s.started = true → cfg ≠ none → s.connects = 0
  | .disconnect _ => False
  | .event (.connectResult request _) =>
      (∃ r, s.requests[request]? = some r ∧ r.accepted = true) ∧ request ∉ s.resulted
  | _ => True

/-- A failure is reported while its request is the last one, after the timeout of
the request was started and before `connect_timeout_fn` has begun for it. -/
def FailsInTime (s : Station) : Act → Prop
  | .event (.connectResult request status) =>
      status ≠ some .success → request + 1 = s.requests.length ∧ request ∉ s.failed ∧
        ∀ t, .startConnectTimeout request ∉ s.todo t
  | _ => True

/-! The stages of a connect. -/

/-- Every request has failed and is counted. -/
def Station.Even (s : Station) : Prop :=
  s.failed = Finset.range s.requests.length ∧ s.retryIdx = s.requests.length

/-- The last request has failed and is not counted yet. -/
def Station.Behind (s : Station) : Prop :=
  s.failed = Finset.range s.requests.length ∧ s.retryIdx + 1 = s.requests.length

/-- The last request, which has number `n`, has not failed. -/
def Station.Open (s : Station) (n : Nat) : Prop :=
  s.requests.length = n + 1 ∧ s.failed = Finset.range n ∧ s.retryIdx = n

/-- What the thread that drives the connect may have to do, from each statement
on. -/
inductive Station.Pending (s : Station) : List Op → Prop
  | connect (cfg : Prov.AppNvramData) (h : s.Even) (hnone : s.requests = []) :
      s.Pending (appWifiConnect cfg)
  | setCfg (cfg : Prov.AppNvramData) (h : s.Even) (hnone : s.requests = []) :
      s.Pending [.setCfg cfg, .setIdx 0, .submitRetry]
  | netDisconnect (h : s.Behind) : s.Pending connectTimeoutFn
  | bumpIdx (h : s.Behind) : s.Pending [.bumpIdx, .submitRetry]
  | setIdx (h : s.failed = Finset.range s.requests.length) :
      s.Pending [.setIdx s.requests.length, .submitRetry]
  | submitRetry (h : s.Even) : s.Pending [.submitRetry]
  | tryBand (h : s.Even) : s.Pending retryWorkFn
  | netConnect (band : Band) (h : s.Even)
      (hband : kBandSeq[s.requests.length]? = some band) : s.Pending [.netConnect band]
  | startConnectTimeout (n : Nat) (h : s.Open n) : s.Pending [.startConnectTimeout n]
  | exhausted (h : s.Even) (hbands : kBandSeq.length ≤ s.requests.length) :
      s.Pending [.emit (.authFailed .exhausted)]
  | unsupported (h : s.Even) : s.Pending [.emit (.authFailed .unsupported)]
  | wrongPassword (n : Nat) (h : s.Open n) (hresult : n ∈ s.resulted) :
      s.Pending [.emit (.authFailed .wrongPassword)]

/-- A thread that does not drive the connect. -/
def Station.Aside (s : Station) (t : Thread) : Prop := ∀ op ∈ s.todo t, op.isLink = true

/-- One thing at most drives the connect: a thread, the queued retry, or the
timeout. -/
inductive Station.Stage (s : Station) : Prop
  | idle (hqueue : s.queue.pending = []) (harmed : s.armed = false)
      (haside : ∀ t, s.Aside t)
      (hcount : s.Even ∨ ∃ n, s.Open n ∧
        (n ∈ s.resulted ∨ s.events.countP Evt.isAuthFailed = 0))
      (honce : s.events.countP Evt.isAuthFailed ≤ 1)
      (hfresh : s.connects = 0 →
        s.requests = [] ∧ s.events.countP Evt.isAuthFailed = 0)
  | queued (hqueue : s.queue.pending = [.retry]) (harmed : s.armed = false)
      (haside : ∀ t, s.Aside t) (hcount : s.Even)
      (hnone : s.events.countP Evt.isAuthFailed = 0) (hconnects : s.connects ≠ 0)
  | timing (htimer : s.armed = true ∧ s.queue.pending = [] ∨
        s.armed = false ∧ s.queue.pending = [.timeout])
      (haside : ∀ t, s.Aside t) (hcount : s.Open s.armedFor)
      (hnone : s.events.countP Evt.isAuthFailed = 0) (hconnects : s.connects ≠ 0)
  | busy (t : Thread) (hqueue : s.queue.pending = []) (harmed : s.armed = false)
      (haside : ∀ t', t' ≠ t → s.Aside t') (hpending : s.Pending (s.todo t))
      (hnone : s.events.countP Evt.isAuthFailed = 0) (hconnects : s.connects ≠ 0)

structure Station.Session (s : Station) : Prop where
  bands : s.requests.map (fun r => r.params.band) = kBandSeq.take s.requests.length
  exhausted : .authFailed .exhausted ∈ s.events → kBandSeq.length ≤ s.requests.length
  stage : s.Stage

theorem Station.session_init : Station.init.Session where
  bands := rfl
  exhausted := by simp [Station.init]
  stage := .idle rfl rfl (by simp [Station.Aside, Station.init]) (Or.inl ⟨rfl, rfl⟩) (Nat.zero_le 1)
    (fun _ => ⟨rfl, rfl⟩)

/-- A thread that drives the connect is not one aside, and has something to do. -/
theorem Station.Pending.head {s : Station} {ops : List Op} (h : s.Pending ops) :
    ∃ op rest, ops = op :: rest ∧ op.isLink = false := by
  cases h <;> exact ⟨_, _, rfl, rfl⟩

theorem Station.Session.once {s : Station} (h : s.Session) :
    s.events.countP Evt.isAuthFailed ≤ 1 := by
  obtain ⟨-, -, -, -, honce, -⟩ | ⟨-, -, -, -, hnone, -⟩ | ⟨-, -, -, hnone, -⟩ |
    ⟨_, -, -, -, -, hnone, -⟩ := h.stage
  · exact honce
  all_goals rw [hnone]; exact Nat.zero_le 1

theorem Station.Even.card {s : Station} (h : s.Even) : s.retryIdx = s.failed.card := by
  rw [h.1, h.2, Finset.card_range]

theorem Station.Open.card {s : Station} {n : Nat} (h : s.Open n) :
    s.retryIdx = s.failed.card := by
  rw [h.2.1, h.2.2, Finset.card_range]

theorem Station.Pending.card {s : Station} {ops : List Op} (h : s.Pending ops)
    (hcounted : ∀ op ∈ ops, op.counts = false) : s.retryIdx = s.failed.card := by
  cases h with
  | submitRetry h | tryBand h | netConnect _ h | exhausted h | unsupported h => exact h.card
  | startConnectTimeout _ h | wrongPassword _ h => exact h.card
  | connect | setCfg => simp [appWifiConnect, Op.counts] at hcounted
  | netDisconnect | bumpIdx | setIdx => simp [connectTimeoutFn, Op.counts] at hcounted

/-- Unless a failure is just being counted, the index is the number of failures. -/
theorem Station.Session.advance {s : Station} (h : s.Session)
    (hcounted : ∀ t, ∀ op ∈ s.todo t, op.counts = false) :
    s.retryIdx = s.failed.card := by
  obtain ⟨-, -, -, hcount, -, -⟩ | ⟨-, -, -, hcount, -, -⟩ | ⟨-, -, hcount, -, -⟩ |
    ⟨t, -, -, -, hpending, -, -⟩ := h.stage
  · rcases hcount with heven | ⟨n, hopen, -⟩
    · exact heven.card
    · exact hopen.card
  · exact hcount.card
  · exact hcount.card
  · exact hpending.card (hcounted t)

theorem Station.Session.exhaustive {s : Station} (h : s.Session) : s.Exhaustive where
  bands hmem band hband := by
    have hbands := h.bands
    rw [List.take_of_length_le (h.exhausted hmem)] at hbands
    rw [← hbands] at hband
    obtain ⟨r, hr, rfl⟩ := List.mem_map.mp hband
    exact ⟨r, hr, rfl⟩
  advance := h.advance
  once := h.once

/-! Statements aside. -/

/-- The data that the stages are about. -/
structure Station.Same (s s' : Station) : Prop where
  requests : s'.requests = s.requests
  failed : s'.failed = s.failed
  retryIdx : s'.retryIdx = s.retryIdx
  resulted : s.resulted ⊆ s'.resulted

theorem Station.Same.even {s s' : Station} (hsame : s.Same s') (h : s.Even) : s'.Even := by
  rwa [Station.Even, hsame.requests, hsame.failed, hsame.retryIdx]

theorem Station.Same.behind {s s' : Station} (hsame : s.Same s') (h : s.Behind) :
    s'.Behind := by
  rwa [Station.Behind, hsame.requests, hsame.failed, hsame.retryIdx]

theorem Station.Same.last {s s' : Station} (hsame : s.Same s') {n : Nat} (h : s.Open n) :
    s'.Open n := by
  rwa [Station.Open, hsame.requests, hsame.failed, hsame.retryIdx]

theorem Station.Same.pending {s s' : Station} (hsame : s.Same s') {ops : List Op}
    (h : s.Pending ops) : s'.Pending ops := by
  cases h with
  | connect cfg h hnone => exact .connect cfg (hsame.even h) (hsame.requests.trans hnone)
  | setCfg cfg h hnone => exact .setCfg cfg (hsame.even h) (hsame.requests.trans hnone)
  | netDisconnect h => exact .netDisconnect (hsame.behind h)
  | bumpIdx h => exact .bumpIdx (hsame.behind h)
  | setIdx h =>
      rw [← hsame.requests]
      exact .setIdx (by rw [hsame.failed, hsame.requests, h])
  | submitRetry h => exact .submitRetry (hsame.even h)
  | tryBand h => exact .tryBand (hsame.even h)
  | netConnect band h hband => exact .netConnect band (hsame.even h) (by rwa [hsame.requests])
  | startConnectTimeout n h => exact .startConnectTimeout n (hsame.last h)
  | exhausted h hbands => exact .exhausted (hsame.even h) (by rwa [hsame.requests])
  | unsupported h => exact .unsupported (hsame.even h)
  | wrongPassword n h hresult =>
      exact .wrongPassword n (hsame.last h) (hsame.resulted hresult)

/-- A step that leaves what drives the connect as it is. -/
theorem Station.Stage.congr {s s' : Station} (h : s.Stage) (hsame : s.Same s')
    (hqueue : s'.queue.pending = s.queue.pending) (harmed : s'.armed = s.armed)
    (hfor : s'.armedFor = s.armedFor)
    (haside : ∀ t, s.Aside t → s'.Aside t)
    (htodo : ∀ t, s.Pending (s.todo t) → s'.todo t = s.todo t)
    (hevents : s'.events.countP Evt.isAuthFailed = s.events.countP Evt.isAuthFailed)
    (hconnects : s'.connects = s.connects) : s'.Stage := by
  cases h with
  | idle hq ha hs hcount honce hfresh =>
      refine .idle (hqueue.trans hq) (harmed.trans ha) (fun t => haside t (hs t)) ?_
        (hevents ▸ honce) ?_
      · rcases hcount with heven | ⟨n, hopen, hor⟩
        · exact Or.inl (hsame.even heven)
        · exact Or.inr ⟨n, hsame.last hopen,
            hor.imp (fun hmem => hsame.resulted hmem) hevents.trans⟩
      · rw [hconnects, hsame.requests, hevents]
        exact hfresh
  | queued hq ha hs hcount hnone hc =>
      exact .queued (hqueue.trans hq) (harmed.trans ha) (fun t => haside t (hs t))
        (hsame.even hcount) (hevents.trans hnone) (hconnects ▸ hc)
  | timing htimer hs hcount hnone hc =>
      refine .timing ?_ (fun t => haside t (hs t)) ?_ (hevents.trans hnone) (hconnects ▸ hc)
      · rw [harmed, hqueue]
        exact htimer
      · rw [hfor]
        exact hsame.last hcount
  | busy t hq ha hs hpending hnone hc =>
      refine .busy t (hqueue.trans hq) (harmed.trans ha) (fun t' ht' => haside t' (hs t' ht'))
        ?_ (hevents.trans hnone) (hconnects ▸ hc)
      rw [htodo t hpending]
      exact hsame.pending hpending

theorem Station.Stage.run_aside {s : Station} (h : s.Stage) {t : Thread} {ok : Bool}
    {op : Op} {rest : List Op} (htodo : s.todo t = op :: rest) (hop : op.isLink = true) :
    (s.exec t ok rest op).Stage := by
  have hx := s.exec_executed t ok rest op
  have hbranch : s.branch ok op = [] := by
    cases op with
    | setConnected | emit => rfl
    | cancelConnectTimeout | setCfg | setIdx | bumpIdx | submitRetry | tryBand |
      netConnect | startConnectTimeout | netDisconnect | leave => cases hop
  have hrequests := hx.requests (by rintro b rfl; cases hop)
  have hcancel : op ≠ .cancelConnectTimeout := by rintro rfl; cases hop
  have hstart : ∀ n, op ≠ .startConnectTimeout n := by rintro n rfl; cases hop
  refine h.congr ⟨hrequests.1, hrequests.2, hx.retryIdx (by rintro v rfl; cases hop), ?_⟩
    ?_ (hx.armed hstart hcancel) (hx.armedFor hstart) (fun t' haside => ?_)
    (fun t' hpending => ?_) ?_ hx.connects
  · rw [hx.resulted]
    exact List.Subset.refl _
  · rw [hx.queue (by rintro rfl; cases hop) hcancel]
  · rw [Station.Aside, hx.todo, hbranch, List.nil_append]
    by_cases ht : t' = t
    · subst ht
      rw [Function.update_self]
      exact fun o ho => haside o (by simp [htodo, ho])
    · rw [Function.update_of_ne ht]
      exact haside
  · have ht : t' ≠ t := by
      rintro rfl
      obtain ⟨o, rest', heq, ho⟩ := hpending.head
      rw [htodo] at heq
      obtain ⟨rfl, -⟩ := List.cons.inj heq
      rw [hop] at ho
      cases ho
    rw [hx.todo, Function.update_of_ne ht]
  · by_cases hemit : ∃ e, op = .emit e
    · obtain ⟨e, rfl⟩ := hemit
      have he : e.isAuthFailed = false := by
        cases e with
        | connected | disconnected => rfl
        | ready | authFailed => cases hop
      simp [Station.exec, Station.setTodo, he]
    · rw [hx.events (fun e he => hemit ⟨e, he⟩)]

/-! The thread that drives the connect. -/

theorem Station.Stage.driven {s : Station} (h : s.Stage) {t : Thread} {op : Op}
    {rest : List Op} (htodo : s.todo t = op :: rest) (hop : op.isLink = false) :
    s.queue.pending = [] ∧ s.armed = false ∧ (∀ t', t' ≠ t → s.Aside t') ∧
      s.Pending (op :: rest) ∧ s.events.countP Evt.isAuthFailed = 0 ∧ s.connects ≠ 0 := by
  have hnot : ¬s.Aside t := fun haside =>
    absurd (haside op (by simp [htodo])) (by simp [hop])
  cases h with
  | idle _ _ haside | queued _ _ haside | timing _ haside => exact absurd (haside t) hnot
  | busy t' hqueue harmed haside hpending hnone hconnects =>
      obtain rfl : t = t' := by
        by_contra hne
        exact hnot (haside t hne)
      exact ⟨hqueue, harmed, haside, htodo ▸ hpending, hnone, hconnects⟩

/-- The driving thread has `ops` left. -/
theorem Station.Stage.drive {s s' : Station} {t : Thread} {ops : List Op}
    (haside : ∀ t', t' ≠ t → s.Aside t') (htodo : s'.todo = Function.update s.todo t ops)
    (hqueue : s'.queue.pending = []) (harmed : s'.armed = false) (hpending : s'.Pending ops)
    (hnone : s'.events.countP Evt.isAuthFailed = 0) (hconnects : s'.connects ≠ 0) :
    s'.Stage := by
  refine .busy t hqueue harmed (fun t' ht' => ?_) ?_ hnone hconnects
  · rw [Station.Aside, htodo, Function.update_of_ne ht']
    exact haside t' ht'
  · rw [htodo, Function.update_self]
    exact hpending

/-- The driving thread has nothing left to do. -/
theorem Station.aside_of_done {s s' : Station} {t : Thread}
    (haside : ∀ t', t' ≠ t → s.Aside t') (htodo : s'.todo = Function.update s.todo t []) :
    ∀ t', s'.Aside t' := by
  rw [show s'.Aside = fun t' => ∀ op ∈ Function.update s.todo t [] t', op.isLink = true by
    rw [← htodo]; rfl]
  exact (Function.forall_update_iff s.todo (fun _ ops => ∀ op ∈ ops, op.isLink = true)).mpr
    ⟨by simp, haside⟩

/-- A statement that does not touch the data. -/
theorem Station.Same.setTodo (s : Station) (t : Thread) (ops : List Op) :
    s.Same (s.setTodo t ops) :=
  ⟨rfl, rfl, rfl, List.Subset.refl _⟩

theorem connectParams_band {cfg : Prov.AppNvramData} {band : Band} {params : ConnectParams}
    (h : connectParams cfg band = some params) : params.band = band := by
  unfold connectParams at h
  dsimp only at h
  split_ifs at h <;> cases h <;> rfl

/-- AUTH_FAILED is emitted, and nothing is left that drives the connect. -/
theorem Station.Session.fail {s : Station} (h : s.Session) {t : Thread} {why : Why}
    (hqueue : s.queue.pending = []) (harmed : s.armed = false)
    (haside : ∀ t', t' ≠ t → s.Aside t') (hconnects : s.connects ≠ 0)
    (hnone : s.events.countP Evt.isAuthFailed = 0)
    (hcount : s.Even ∨ ∃ n, s.Open n ∧ n ∈ s.resulted)
    (hwhy : why = .exhausted → kBandSeq.length ≤ s.requests.length) (ok : Bool) :
    (s.exec t ok [] (.emit (.authFailed why))).Session := by
  have honce : (s.events ++ [Evt.authFailed why]).countP Evt.isAuthFailed = 1 := by
    rw [List.countP_append, hnone]
    rfl
  refine ⟨h.bands, fun hmem => ?_, .idle hqueue harmed
    (Station.aside_of_done haside rfl) ?_ honce.le (fun h0 => absurd h0 hconnects)⟩
  · rcases List.mem_append.mp hmem with hmem | hmem
    · exact h.exhausted hmem
    · exact hwhy (Evt.authFailed.inj (List.mem_singleton.mp hmem)).symm
  · exact hcount.imp id (fun ⟨n, hopen, hresult⟩ => ⟨n, hopen, Or.inl hresult⟩)

theorem Station.Session.run_netConnect {s : Station} (h : s.Session) {t : Thread}
    {ok : Bool} {band : Band} (hqueue : s.queue.pending = []) (harmed : s.armed = false)
    (haside : ∀ t', t' ≠ t → s.Aside t') (hconnects : s.connects ≠ 0)
    (hnone : s.events.countP Evt.isAuthFailed = 0) (heven : s.Even)
    (hband : kBandSeq[s.requests.length]? = some band) :
    (s.exec t ok [] (.netConnect band)).Session := by
  rw [Station.exec]
  split
  case h_1 =>
      exact ⟨h.bands, h.exhausted, .drive haside rfl hqueue harmed
        ((Station.Same.setTodo s t _).pending (.unsupported heven)) hnone hconnects⟩
  case h_2 params hparams =>
      let request : Request := ⟨params, ok⟩
      have hlength : (s.requests ++ [request]).length = s.requests.length + 1 := by
        rw [List.length_append, List.length_singleton]
      have hbands : (s.requests ++ [request]).map (fun r => r.params.band) =
          kBandSeq.take (s.requests ++ [request]).length := by
        rw [hlength, List.take_add_one, hband, List.map_append, h.bands,
          List.map_singleton, connectParams_band hparams]
        rfl
      have hexhausted : Evt.authFailed .exhausted ∈ s.events →
          kBandSeq.length ≤ (s.requests ++ [request]).length := by
        rw [hlength]
        exact fun hmem => Nat.le_succ_of_le (h.exhausted hmem)
      rw [Station.netConnect]
      cases ok with
      | true =>
          exact ⟨hbands, hexhausted, .drive haside rfl hqueue harmed
            (.startConnectTimeout s.requests.length ⟨hlength, heven.1, heven.2⟩) hnone
            hconnects⟩
      | false =>
          refine ⟨hbands, hexhausted, .drive haside rfl hqueue harmed
            (.bumpIdx ⟨?_, ?_⟩) hnone hconnects⟩
          · change insert s.requests.length s.failed = Finset.range (s.requests ++ _).length
            rw [hlength, Finset.range_add_one, heven.1]
          · change s.retryIdx + 1 = (s.requests ++ _).length
            rw [hlength, heven.2]

theorem Station.Session.run_driving {s : Station} (h : s.Session) {t : Thread} {ok : Bool}
    {op : Op} {rest : List Op} (htodo : s.todo t = op :: rest) (hop : op.isLink = false) :
    (s.exec t ok rest op).Session := by
  obtain ⟨hqueue, harmed, haside, hpending, hnone, hconnects⟩ := h.stage.driven htodo hop
  have hcancel : (s.queue.cancel .timeout).pending = [] := by
    simp [WorkQueue.cancel, hqueue]
  cases hpending with
  | connect cfg heven hnil =>
      exact ⟨h.bands, h.exhausted, .drive haside rfl hcancel rfl (.setCfg cfg heven hnil)
        hnone hconnects⟩
  | setCfg cfg heven hnil =>
      have hstore : s.Pending [.setIdx s.requests.length, .submitRetry] := .setIdx heven.1
      rw [show s.requests.length = 0 by rw [hnil]; rfl] at hstore
      have hsame : s.Same (s.exec t ok [.setIdx 0, .submitRetry] (.setCfg cfg)) :=
        ⟨rfl, rfl, rfl, List.Subset.refl _⟩
      exact ⟨h.bands, h.exhausted, .drive haside rfl hqueue harmed (hsame.pending hstore)
        hnone hconnects⟩
  | netDisconnect hbehind =>
      exact ⟨h.bands, h.exhausted, .drive haside rfl hqueue harmed (.bumpIdx hbehind)
        hnone hconnects⟩
  | bumpIdx hbehind =>
      have hstore : s.Pending [.setIdx s.requests.length, .submitRetry] := .setIdx hbehind.1
      rw [← hbehind.2] at hstore
      exact ⟨h.bands, h.exhausted, .drive haside rfl hqueue harmed
        ((Station.Same.setTodo s t _).pending hstore) hnone hconnects⟩
  | setIdx hfailed =>
      exact ⟨h.bands, h.exhausted, .drive haside rfl hqueue harmed
        (.submitRetry ⟨hfailed, rfl⟩) hnone hconnects⟩
  | submitRetry heven =>
      refine ⟨h.bands, h.exhausted, .queued ?_ harmed ?_ heven hnone hconnects⟩
      · have hsubmit := WorkQueue.submit_pending_of_notMem (q := s.queue) (i := .retry)
          (by simp [hqueue])
        rw [hqueue] at hsubmit
        exact hsubmit
      · exact Station.aside_of_done haside rfl
  | tryBand heven =>
      rw [Station.exec, heven.2]
      split
      case h_1 hnext =>
          exact ⟨h.bands, h.exhausted, .drive haside rfl hqueue harmed
            ((Station.Same.setTodo s t _).pending
              (.exhausted heven (List.getElem?_eq_none_iff.mp hnext))) hnone hconnects⟩
      case h_2 band hnext =>
          exact ⟨h.bands, h.exhausted, .drive haside rfl hqueue harmed
            ((Station.Same.setTodo s t _).pending (.netConnect band heven hnext)) hnone
            hconnects⟩
  | netConnect band heven hband =>
      exact h.run_netConnect hqueue harmed haside hconnects hnone heven hband
  | startConnectTimeout n hopen =>
      rw [Station.exec, Station.startConnectTimeout, if_neg]
      · exact ⟨h.bands, h.exhausted, .timing (Or.inl ⟨rfl, hqueue⟩)
          (Station.aside_of_done haside rfl) hopen hnone hconnects⟩
      · simp [Station.setTodo, harmed, hqueue]
  | exhausted heven hbands =>
      exact h.fail hqueue harmed haside hconnects hnone (Or.inl heven) (fun _ => hbands) ok
  | unsupported heven =>
      exact h.fail hqueue harmed haside hconnects hnone (Or.inl heven) (by rintro ⟨⟩) ok
  | wrongPassword n hopen hresult =>
      exact h.fail hqueue harmed haside hconnects hnone (Or.inr ⟨n, hopen, hresult⟩)
        (by rintro ⟨⟩) ok

/-! The other steps. -/

theorem Station.not_pending_nil {s : Station} {t : Thread} (hidle : s.todo t = []) :
    ¬s.Pending (s.todo t) := by
  intro h
  obtain ⟨op, rest, hops, -⟩ := h.head
  rw [hidle] at hops
  cases hops

theorem Station.Session.connect {s : Station} (h : s.Session) {tid : Nat}
    {cfg : Prov.AppNvramData} (hfirst : s.connects = 0) :
    Station.Session {s.setTodo (.caller tid) (appWifiConnect cfg) with
      connects := s.connects + 1, quiesced := false} := by
  refine ⟨h.bands, h.exhausted, ?_⟩
  cases h.stage with
  | idle hqueue harmed haside hcount _ hfresh =>
      obtain ⟨hnil, hnone⟩ := hfresh hfirst
      rcases hcount with heven | ⟨n, hopen, -⟩
      · exact .drive (fun t _ => haside t) rfl hqueue harmed (.connect cfg heven hnil) hnone
          (Nat.succ_ne_zero _)
      · rw [Station.Open, hnil] at hopen
        cases hopen.1
  | queued _ _ _ _ _ hconnects | timing _ _ _ _ hconnects | busy _ _ _ _ _ _ hconnects =>
      exact absurd hfirst hconnects

theorem Station.Open.insert {s : Station} {n : Nat} (h : s.Open n) :
    Insert.insert n s.failed = Finset.range s.requests.length := by
  rw [h.1, h.2.1, Finset.range_add_one]

theorem Station.Session.start {s s' : Station} (h : s.Session)
    (hs : wifiSystem.step s .start = some s') : s'.Session := by
  obtain ⟨item, queue, hidle, hnext, rfl⟩ := start_cases hs
  rw [WorkQueue.next_eq_some] at hnext
  cases h.stage with
  | idle hqueue | busy _ hqueue => cases hnext.symm.trans hqueue
  | queued hqueue harmed haside heven hnone hconnects =>
      obtain ⟨rfl, hrest⟩ := List.cons.inj (hnext.symm.trans hqueue)
      exact ⟨h.bands, h.exhausted, .drive (fun t _ => haside t) rfl hrest harmed
        (.tryBand heven) hnone hconnects⟩
  | timing htimer haside hopen hnone hconnects =>
      rcases htimer with ⟨-, hqueue⟩ | ⟨harmed, hqueue⟩
      · cases hnext.symm.trans hqueue
      · obtain ⟨rfl, hrest⟩ := List.cons.inj (hnext.symm.trans hqueue)
        refine ⟨h.bands, h.exhausted, .drive (fun t _ => haside t) rfl hrest harmed
          (.netDisconnect ⟨hopen.insert, ?_⟩) hnone hconnects⟩
        change s.retryIdx + 1 = s.requests.length
        rw [hopen.1, hopen.2.2]

/-- A thread that drives the connect while the last request has not failed is about
to start its timeout, or to report its wrong password. -/
theorem Station.Pending.open_cases {s : Station} {ops : List Op} (h : s.Pending ops) :
    s.failed = Finset.range s.requests.length ∨
      ∃ n, s.Open n ∧ (.startConnectTimeout n ∈ ops ∨ n ∈ s.resulted) := by
  cases h with
  | connect _ h | setCfg _ h | submitRetry h | tryBand h => exact Or.inl h.1
  | netConnect _ h | exhausted h | unsupported h => exact Or.inl h.1
  | netDisconnect h | bumpIdx h => exact Or.inl h.1
  | setIdx h => exact Or.inl h
  | startConnectTimeout n h => exact Or.inr ⟨n, h, Or.inl List.mem_cons_self⟩
  | wrongPassword n h hresult => exact Or.inr ⟨n, h, Or.inr hresult⟩

/-- When the first report about the last request arrives in time, nothing but the
timeout drives the connect. -/
theorem Station.Stage.last_open {s : Station} (h : s.Stage) {request : Nat}
    (hlast : request + 1 = s.requests.length) (hfailed : request ∉ s.failed)
    (hstart : ∀ t, .startConnectTimeout request ∉ s.todo t)
    (hfirst : request ∉ s.resulted) :
    s.Open request ∧ s.events.countP Evt.isAuthFailed = 0 ∧ (∀ t, s.Aside t) ∧
      s.connects ≠ 0 ∧ (s.queue.cancel .timeout).pending = [] := by
  have hnotAll : s.failed ≠ Finset.range s.requests.length := by
    intro hall
    rw [hall, ← hlast] at hfailed
    exact hfailed (Finset.self_mem_range_succ request)
  have hself : ∀ n, s.Open n → n = request := fun n hopen =>
    Nat.succ.inj (hopen.1.symm.trans hlast.symm)
  cases h with
  | idle hqueue harmed haside hcount _ hfresh =>
      rcases hcount with heven | ⟨n, hopen, hor⟩
      · exact absurd heven.1 hnotAll
      · obtain rfl := hself n hopen
        refine ⟨hopen, hor.resolve_left hfirst, haside, fun h0 => ?_, ?_⟩
        · rw [(hfresh h0).1] at hlast
          cases hlast
        · simp [WorkQueue.cancel, hqueue]
  | queued _ _ _ heven => exact absurd heven.1 hnotAll
  | timing htimer haside hopen hnone hconnects =>
      obtain rfl := hself _ hopen
      refine ⟨hopen, hnone, haside, hconnects, ?_⟩
      rcases htimer with ⟨-, hqueue⟩ | ⟨-, hqueue⟩ <;> simp [WorkQueue.cancel, hqueue]
  | busy t _ _ _ hpending =>
      rcases hpending.open_cases with hall | ⟨n, hopen, hor⟩
      · exact absurd hall hnotAll
      · obtain rfl := hself n hopen
        exact absurd (hor.resolve_right hfirst) (hstart t)

/-- The event handler begins with something that is aside. -/
theorem Station.Aside.begin {s s' : Station} {ops : List Op}
    (htodo : s'.todo = Function.update s.todo .events ops)
    (hops : ∀ op ∈ ops, op.isLink = true) {t : Thread} (h : s.Aside t) : s'.Aside t := by
  rw [Station.Aside, htodo]
  by_cases ht : t = .events
  · subst ht
    rw [Function.update_self]
    exact hops
  · rw [Function.update_of_ne ht]
    exact h

/-- A success cancels the timeout, of whichever request, and drives nothing. -/
theorem Station.Session.success {s : Station} (h : s.Session) {request : Nat}
    (hidle : s.todo .events = []) :
    (s.connectResult request (some .success)).Session := by
  refine ⟨h.bands, h.exhausted, ?_⟩
  have hsame : s.Same (s.connectResult request (some .success)) :=
    ⟨rfl, rfl, rfl, List.subset_cons_self _ _⟩
  have haside' : ∀ t, s.Aside t → (s.connectResult request (some .success)).Aside t :=
    fun t ht => ht.begin rfl (by simp [connectResultFn, Op.isLink])
  have htodo : ∀ t, s.Pending (s.todo t) →
      (s.connectResult request (some .success)).todo t = s.todo t := by
    intro t hpending
    have ht : t ≠ .events := by
      rintro rfl
      exact Station.not_pending_nil hidle hpending
    exact Function.update_of_ne ht _ _
  have hkeep : s.armed = false → .timeout ∉ s.queue.pending →
      (s.connectResult request (some .success)).Stage := fun harmed hqueue =>
    h.stage.congr hsame (List.erase_of_not_mem hqueue) harmed.symm rfl haside' htodo rfl rfl
  cases h.stage with
  | idle hqueue harmed => exact hkeep harmed (by simp [hqueue])
  | queued hqueue harmed => exact hkeep harmed (by simp [hqueue])
  | busy _ hqueue harmed => exact hkeep harmed (by simp [hqueue])
  | timing htimer haside hopen hnone hconnects =>
      refine .idle ?_ rfl (fun t => haside' t (haside t))
        (Or.inr ⟨s.armedFor, hsame.last hopen, Or.inr hnone⟩) (hnone.trans_le (Nat.zero_le 1))
        (fun h0 => absurd h0 hconnects)
      change (s.queue.cancel .timeout).pending = []
      rcases htimer with ⟨-, hqueue⟩ | ⟨-, hqueue⟩ <;> simp [WorkQueue.cancel, hqueue]

theorem Station.Session.connectResult {s : Station} (h : s.Session) {request : Nat}
    {status : Option ConnStatus} (hidle : s.todo .events = [])
    (hfirst : request ∉ s.resulted)
    (hC : FailsInTime s (.event (.connectResult request status))) :
    (s.connectResult request status).Session := by
  by_cases hstatus : status = some .success
  · subst hstatus
    exact h.success hidle
  obtain ⟨hlast, hfailed, hstart⟩ := hC hstatus
  obtain ⟨hopen, hnone, haside, hconnects, hqueue⟩ :=
    h.stage.last_open hlast hfailed hstart hfirst
  refine ⟨h.bands, h.exhausted, ?_⟩
  by_cases hretried : isRetried status = true
  · have hfn : connectResultFn status = [.bumpIdx, .submitRetry] := by
      unfold isRetried at hretried
      unfold connectResultFn
      split <;> simp_all
    rw [Station.connectResult, hfn, if_pos hretried]
    refine .drive (fun t _ => haside t) rfl hqueue rfl (.bumpIdx ⟨hopen.insert, ?_⟩) hnone
      hconnects
    change s.retryIdx + 1 = s.requests.length
    rw [hopen.1, hopen.2.2]
  · obtain rfl : status = some .wrongPassword := by
      unfold isRetried at hretried
      split at hretried <;> simp_all
    exact .drive (fun t _ => haside t) rfl hqueue rfl
      (.wrongPassword request hopen List.mem_cons_self) hnone hconnects

/-- The timer expires. -/
theorem Station.Session.expire {s : Station} (h : s.Session) (harmed : s.armed = true) :
    Station.Session {s with armed := false, queue := s.queue.submit .timeout} := by
  refine ⟨h.bands, h.exhausted, ?_⟩
  cases h.stage with
  | idle _ hoff | queued _ hoff | busy _ _ hoff =>
      exact absurd (hoff.symm.trans harmed) Bool.false_ne_true
  | timing htimer haside hopen hnone hconnects =>
      rcases htimer with ⟨-, hqueue⟩ | ⟨hoff, -⟩
      · refine .timing (Or.inr ⟨rfl, ?_⟩) haside hopen hnone hconnects
        have hsubmit := WorkQueue.submit_pending_of_notMem (q := s.queue) (i := .timeout)
          (by simp [hqueue])
        rw [hqueue] at hsubmit
        exact hsubmit
      · exact absurd (hoff.symm.trans harmed) Bool.false_ne_true

/-- The driver is up, or an address is bound: an event and nothing else. -/
theorem Station.Session.announce {s : Station} (h : s.Session) {evt : Evt}
    (hevt : evt.isAuthFailed = false) (started : Bool) :
    Station.Session {s with started := started, events := s.events ++ [evt]} := by
  refine ⟨h.bands, fun hmem => ?_, ?_⟩
  · rcases List.mem_append.mp hmem with hmem | hmem
    · exact h.exhausted hmem
    · rw [← List.mem_singleton.mp hmem] at hevt
      cases hevt
  · refine h.stage.congr ⟨rfl, rfl, rfl, List.Subset.refl _⟩ rfl rfl rfl (fun _ => id)
      (fun _ _ => rfl) ?_ rfl
    rw [List.countP_append, List.countP_singleton, hevt]
    rfl

theorem Station.Session.run_aside {s : Station} (h : s.Session) {t : Thread} {ok : Bool}
    {op : Op} {rest : List Op} (htodo : s.todo t = op :: rest) (hop : op.isLink = true) :
    (s.exec t ok rest op).Session := by
  have hx := s.exec_executed t ok rest op
  have hrequests := (hx.requests (by rintro b rfl; cases hop)).1
  refine ⟨by rw [hrequests, h.bands], fun hmem => ?_, h.stage.run_aside htodo hop⟩
  rw [hrequests]
  by_cases hemit : ∃ e, op = .emit e
  · obtain ⟨e, rfl⟩ := hemit
    rcases List.mem_append.mp hmem with hmem | hmem
    · exact h.exhausted hmem
    · rw [← List.mem_singleton.mp hmem] at hop
      cases hop
  · rw [hx.events (fun e he => hemit ⟨e, he⟩)] at hmem
    exact h.exhausted hmem

/-- A lost connection is announced, and nothing more. -/
theorem Station.Session.disconnectResult {s : Station} (h : s.Session)
    (hidle : s.todo .events = []) :
    (s.setTodo .events [.setConnected false, .emit .disconnected]).Session := by
  refine ⟨h.bands, h.exhausted, h.stage.congr (Station.Same.setTodo s _ _) rfl rfl rfl
    (fun t ht => ht.begin rfl (by simp [Op.isLink, Evt.isLink])) (fun t hpending => ?_) rfl
    rfl⟩
  have ht : t ≠ .events := by
    rintro rfl
    exact Station.not_pending_nil hidle hpending
  exact Function.update_of_ne ht _ _

theorem Station.Session.step {s s' : Station} {a : Act} (h : s.Session)
    (hone : OneConnect s a) (hC : FailsInTime s a) (hs : wifiSystem.step s a = some s') :
    s'.Session := by
  cases a with
  | ready =>
      obtain ⟨-, rfl⟩ := ready_cases hs
      exact h.announce rfl true
  | connect tid cfg =>
      rcases connect_cases hs with rfl | ⟨r, rfl, hstarted, -, rfl⟩
      · exact h
      · exact h.connect (hone hstarted (by simp))
  | disconnect tid => exact hone.elim
  | expire =>
      obtain ⟨harmed, rfl⟩ := expire_cases hs
      exact h.expire harmed
  | start => exact h.start hs
  | event e =>
      obtain ⟨hidle, rfl⟩ := event_cases hs
      cases e with
      | connectResult request status => exact h.connectResult hidle hone.2 hC
      | disconnectResult =>
          rcases s.deliver_disconnectResult with heq | ⟨-, heq⟩
          · rw [heq]
            exact h
          · rw [heq]
            exact h.disconnectResult hidle
      | dhcpBound => exact h.announce rfl s.started
  | run t ok =>
      obtain ⟨op, rest, htodo, rfl⟩ := run_cases hs
      cases hop : op.isLink with
      | false => exact h.run_driving htodo hop
      | true => exact h.run_aside htodo hop

/-- With one connect and no disconnect, if every failure is reported in time then
the retries try every band before they give up, count each failed request once,
and announce at most one failure. -/
theorem retries_exhaustive_in_time {acts : List Act}
    (hone : wifiSystem.Meets OneConnect .init acts)
    (hC : wifiSystem.Meets FailsInTime .init acts) :
    wifiSystem.Always Station.Exhaustive .init acts := by
  have hsession : wifiSystem.Always Station.Session .init acts :=
    System.always_of_meets (fun s a s' h hmeets hs => h.step hmeets.1 hmeets.2 hs)
      Station.session_init (hone.and hC)
  exact hsession.mono (fun s h => h.exhaustive)

/-- The first request times out, the second one fails, and AUTH_FAILED follows. -/
def exhaustActs : List Act :=
  requestActs ++ [.expire, .start, .run .worker true, .run .worker true, .run .worker true,
    .run .worker true, .start, .run .worker true, .run .worker true, .run .worker true,
    .event (.connectResult 1 (some .apNotFound)), .run .events true, .run .events true,
    .run .events true, .start, .run .worker true, .run .worker true]

theorem retries_exhaustive_in_time_twice :
    wifiSystem.Always Station.Exhaustive .init exhaustActs := by
  apply retries_exhaustive_in_time
  · rintro _ ⟨⟩
    refine ⟨trivial, ?_⟩
    rintro _ ⟨⟩
    refine ⟨fun _ _ => rfl, ?_⟩
    iterate 18
      rintro _ ⟨⟩
      refine ⟨trivial, ?_⟩
    rintro _ ⟨⟩
    refine ⟨⟨⟨_, rfl, rfl⟩, by decide⟩, ?_⟩
    iterate 6
      rintro _ ⟨⟩
      refine ⟨trivial, ?_⟩
    trivial
  · iterate 20
      rintro _ ⟨⟩
      refine ⟨trivial, ?_⟩
    -- the second request is the last one, and its timeout is running
    rintro _ ⟨⟩
    refine ⟨fun _ => ⟨rfl, by decide, fun t => ?_⟩, ?_⟩
    · cases t with
      | worker | events => decide
      | caller tid =>
          by_cases htid : tid = 1
          · subst htid
            decide
          · simp [(Station.exec_executed _ _ _ _ _).todo, Station.setTodo, Station.begin,
              Station.callConnect, Station.init, htid]
    iterate 6
      rintro _ ⟨⟩
      refine ⟨trivial, ?_⟩
    trivial

/-- The first request times out, and its failure is reported before the work queue
has come to the second band. -/
def lateActs : List Act :=
  requestActs ++ [.expire, .start, .run .worker true, .run .worker true, .run .worker true,
    .run .worker true, .event (.connectResult 0 (some .fail)), .run .events true,
    .run .events true, .run .events true, .start, .run .worker true, .run .worker true]

/-- The late failure is counted against the second band, which is never tried. -/
theorem late_failure_skips_band :
    wifiSystem.Meets OneConnect .init lateActs ∧
      ∃ s, wifiSystem.exec .init lateActs = some s ∧
        s.requests.map (fun r => r.params.band) = [.ghz5] ∧
        s.events = [.ready, .authFailed .exhausted] ∧ ¬s.Exhaustive := by
  have hrun : ∃ s, wifiSystem.exec .init lateActs = some s ∧
      s.requests.map (fun r => r.params.band) = [.ghz5] ∧
      s.events = [.ready, .authFailed .exhausted] := ⟨_, rfl, rfl, rfl⟩
  obtain ⟨s, hs, hbands, hevents⟩ := hrun
  refine ⟨?_, s, hs, hbands, hevents, fun h => ?_⟩
  · rintro _ ⟨⟩
    refine ⟨trivial, ?_⟩
    rintro _ ⟨⟩
    refine ⟨fun _ _ => rfl, ?_⟩
    iterate 14
      rintro _ ⟨⟩
      refine ⟨trivial, ?_⟩
    rintro _ ⟨⟩
    refine ⟨⟨⟨_, rfl, rfl⟩, by decide⟩, ?_⟩
    iterate 6
      rintro _ ⟨⟩
      refine ⟨trivial, ?_⟩
    trivial
  · obtain ⟨r, hr, hband⟩ := h.bands (by rw [hevents]; decide) .ghz24 (by decide)
    have hmem := List.mem_map_of_mem (f := fun r => r.params.band) hr
    rw [hbands] at hmem
    cases hband.symm.trans (List.mem_singleton.mp hmem)

end Rw612.Wifi
