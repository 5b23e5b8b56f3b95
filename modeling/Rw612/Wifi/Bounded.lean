import Mathlib.Algebra.BigOperators.Group.Finset.Basic
import Rw612.Wifi.Station

/-!
How often the station asks for a network. The work queue, the event thread and the
callers share the retry index, and an increment is a load and a store with other
statements in between, so a band that was tried can come back. Still nothing makes
the station ask without end: each request is paid for by a call of
`app_wifi_connect`.

A store of the index is charged with all that it can set off: a request by each
thread that is about to read the index, and the stores that both handlers may
still make of the index after it.
-/

namespace Rw612.Wifi

open Lib

/-- What a store of the index costs. -/
def costOfIdx : Nat → Nat
  | 0 => 9
  | 1 => 3
  | _ => 0

/-- What reading the index in `retry_work_fn` costs. -/
def costOfTry (idx : Nat) : Nat := if idx < BAND_SEQ_LEN then 1 else 0

theorem costOfIdx_eq (idx : Nat) :
    costOfIdx idx = 2 * costOfIdx (idx + 1) + 3 * costOfTry idx := by
  match idx with
  | 0 => rfl
  | 1 => rfl
  | n + 2 => simp [costOfIdx, costOfTry, BAND_SEQ_LEN, kBandSeq]

theorem costOfTry_le (idx : Nat) : costOfTry idx ≤ 1 := by
  unfold costOfTry
  split
  · exact Nat.le_refl 1
  · exact Nat.zero_le 1

theorem costOfTry_of_band {idx : Nat} {band : Band} (h : kBandSeq[idx]? = some band) :
    costOfTry idx = 1 :=
  if_pos (List.getElem?_eq_some_iff.mp h).1

/-- What a handler costs, which may still store the index after this one. -/
def handlerCost (idx : Nat) : List Op → Nat
  | .setIdx k :: _ => costOfIdx k
  | .netConnect _ :: _ => costOfIdx (idx + 1) + 1
  | .tryBand :: _ | .submitRetry :: _ => costOfIdx (idx + 1) + costOfTry idx
  | _ => costOfIdx (idx + 1)

def Op.cost : Op → Nat
  | .setIdx k => costOfIdx k
  | .submitRetry => 1
  | _ => 0

/-- What a caller costs, whose statements do not depend on the state. -/
def callerCost (ops : List Op) : Nat := (ops.map Op.cost).sum

theorem callerCost_cons (op : Op) (rest : List Op) :
    callerCost (op :: rest) = op.cost + callerCost rest := by
  simp [callerCost]

def Station.queueCost (s : Station) : Nat :=
  if .retry ∈ s.queue.pending then costOfTry s.retryIdx else 0

def Station.handlersCost (s : Station) : Nat :=
  handlerCost s.retryIdx (s.todo .worker) + handlerCost s.retryIdx (s.todo .events)

def Station.callersCost (s : Station) (tids : Finset Nat) : Nat :=
  tids.sum fun tid => callerCost (s.todo (.caller tid))

/-- The requests so far and those of what is under way. -/
def Station.cost (s : Station) : Nat := s.requests.length + s.queueCost + s.handlersCost

/-- What is left of a handler. -/
inductive Handling : List Op → Prop
  | done : Handling []
  | tryBand : Handling [.tryBand]
  | netConnect (band : Band) : Handling [.netConnect band]
  | startConnectTimeout (request : Nat) : Handling [.startConnectTimeout request]
  | emit (evt : Evt) : Handling [.emit evt]
  | setConnected (value : Bool) : Handling [.setConnected value]
  | lost : Handling [.setConnected false, .emit .disconnected]
  | timedOut : Handling connectTimeoutFn
  | bumpIdx : Handling [.bumpIdx, .submitRetry]
  | setIdx (idx : Nat) : Handling [.setIdx idx, .submitRetry]
  | submitRetry : Handling [.submitRetry]

/-- The statements of the callers, which put nothing before the rest. -/
def Op.isPlain : Op → Bool
  | .bumpIdx | .tryBand | .netConnect _ => false
  | _ => true

/-- The callers `tids` are the ones at work, and each has paid for what it and the
handlers cost. -/
structure Station.Charged (s : Station) (tids : Finset Nat) : Prop where
  worker : Handling (s.todo .worker)
  events : Handling (s.todo .events)
  caller : ∀ tid, ∀ op ∈ s.todo (.caller tid), op.isPlain = true
  idle : ∀ tid, tid ∉ tids → s.todo (.caller tid) = []
  paid : s.cost + s.callersCost tids ≤ 10 * s.connects + 6

theorem Station.charged_init : Station.init.Charged ∅ where
  worker := .done
  events := .done
  caller := fun _ _ h => absurd h List.not_mem_nil
  idle := fun _ _ => rfl
  paid := by decide

def Thread.isHandler : Thread → Bool
  | .caller _ => false
  | _ => true

theorem Station.Charged.handling {s : Station} {tids : Finset Nat} (h : s.Charged tids)
    {t : Thread} (ht : t.isHandler = true) : Handling (s.todo t) := by
  cases t with
  | worker => exact h.worker
  | events => exact h.events
  | caller => cases ht

/-- Each handler has the other one beside it. -/
theorem Station.handlersCost_eq {t : Thread} (ht : t.isHandler = true) :
    ∃ t', t' ≠ t ∧ ∀ s : Station, s.handlersCost =
      handlerCost s.retryIdx (s.todo t) + handlerCost s.retryIdx (s.todo t') := by
  cases t with
  | worker => exact ⟨.events, by decide, fun _ => rfl⟩
  | events => exact ⟨.worker, by decide, fun _ => Nat.add_comm _ _⟩
  | caller => cases ht

/-- Another index costs a handler no more than the store of that index pays. -/
theorem handlerCost_le (idx k : Nat) (ops : List Op) :
    handlerCost k ops ≤ handlerCost idx ops + costOfIdx (k + 1) + costOfTry k := by
  unfold handlerCost
  split <;> omega

theorem handlersCost_le (idx k : Nat) (ops ops' : List Op) :
    costOfTry k + handlerCost k ops + handlerCost k ops' ≤
      costOfIdx k + handlerCost idx ops + handlerCost idx ops' := by
  have hidx := costOfIdx_eq k
  have hops := handlerCost_le idx k ops
  have hops' := handlerCost_le idx k ops'
  omega

theorem Station.queueCost_le (s : Station) : s.queueCost ≤ costOfTry s.retryIdx := by
  unfold Station.queueCost
  split
  · exact Nat.le_refl _
  · exact Nat.zero_le _

theorem Station.branch_of_isPlain (s : Station) (ok : Bool) {op : Op}
    (h : op.isPlain = true) : s.branch ok op = [] := by
  cases op with
  | bumpIdx | tryBand | netConnect => cases h
  | cancelConnectTimeout | setCfg | setIdx | submitRetry | startConnectTimeout |
    setConnected | netDisconnect | emit | leave => rfl

/-- A handler stays one, whatever branch it takes. -/
theorem Handling.exec {op : Op} {rest : List Op} (h : Handling (op :: rest)) (s : Station)
    (ok : Bool) : Handling (s.branch ok op ++ rest) := by
  cases h with
  | tryBand =>
      rw [Station.branch]
      split
      · exact .emit _
      · exact .netConnect _
  | netConnect =>
      rw [Station.branch]
      split
      · exact .emit _
      · cases ok with
        | true => exact .startConnectTimeout _
        | false => exact .bumpIdx
  | startConnectTimeout => exact .done
  | emit => exact .done
  | setConnected => exact .done
  | lost => exact .emit _
  | timedOut => exact .bumpIdx
  | bumpIdx => exact .setIdx _
  | setIdx => exact .submitRetry
  | submitRetry => exact .done

theorem Station.exec_requests (s : Station) (t : Thread) (ok : Bool) (rest : List Op)
    {op : Op} (hop : ∀ b, op ≠ .netConnect b) :
    (s.exec t ok rest op).requests = s.requests :=
  ((s.exec_executed t ok rest op).requests hop).1

theorem Station.netConnect_requests_le (s : Station) (t : Thread) (ok : Bool)
    (rest : List Op) (band : Band) :
    (s.exec t ok rest (.netConnect band)).requests.length ≤ s.requests.length + 1 := by
  rw [Station.exec]
  split
  · exact Nat.le_succ _
  · cases ok <;> simp [Station.netConnect, Station.setTodo]

/-- A handler that neither stores the index nor submits the work pays for its
request. -/
theorem Handling.cost_exec {op : Op} {rest : List Op} (h : Handling (op :: rest))
    (hidx : ∀ k, op ≠ .setIdx k) (hsubmit : op ≠ .submitRetry) (s : Station) (t : Thread)
    (ok : Bool) :
    (s.exec t ok rest op).requests.length + handlerCost s.retryIdx (s.branch ok op ++ rest) ≤
      s.requests.length + handlerCost s.retryIdx (op :: rest) := by
  cases h with
  | netConnect band =>
      have hone := s.netConnect_requests_le t ok [] band
      have hcost : handlerCost s.retryIdx (s.branch ok (.netConnect band) ++ []) =
          costOfIdx (s.retryIdx + 1) := by
        rw [Station.branch]
        split
        · rfl
        · cases ok <;> rfl
      rw [hcost, handlerCost]
      omega
  | tryBand =>
      rw [s.exec_requests t ok [] (by simp), Station.branch]
      split
      case h_1 => exact Nat.add_le_add_left (Nat.le_add_right ..) _
      case h_2 band hband =>
          rw [handlerCost, costOfTry_of_band hband]
          exact Nat.le_refl _
  | startConnectTimeout | emit | setConnected | lost | timedOut | bumpIdx =>
      rw [s.exec_requests t ok _ (by simp)]
      exact Nat.le_refl _
  | setIdx k => exact absurd rfl (hidx k)
  | submitRetry => exact absurd rfl hsubmit

theorem Station.queueCost_congr {s s' : Station} (hidx : s'.retryIdx = s.retryIdx)
    (hqueue : .retry ∈ s'.queue.pending ↔ .retry ∈ s.queue.pending) :
    s'.queueCost = s.queueCost := by
  simp only [Station.queueCost, hidx, hqueue]

/-- A statement of a handler never costs more than the handler has left to pay. -/
theorem Station.cost_handler (s : Station) {t : Thread} (ht : t.isHandler = true)
    {op : Op} {rest : List Op} (htodo : s.todo t = op :: rest)
    (hshape : Handling (op :: rest)) (ok : Bool) :
    (s.exec t ok rest op).cost ≤ s.cost := by
  obtain ⟨t', hne, hsum⟩ := Station.handlersCost_eq ht
  have hexec := s.exec_executed t ok rest op
  have hself : (s.exec t ok rest op).todo t = s.branch ok op ++ rest := by
    rw [hexec.todo, Function.update_self]
  have hother : (s.exec t ok rest op).todo t' = s.todo t' := by
    rw [hexec.todo, Function.update_of_ne hne]
  rw [Station.cost, Station.cost, hsum, hsum, hself, hother, htodo]
  by_cases hidx : ∃ k, op = .setIdx k
  · obtain ⟨k, rfl⟩ := hidx
    cases hshape with
    | setIdx =>
        have hstored : (s.exec t ok [.submitRetry] (.setIdx k)).retryIdx = k := rfl
        have hqueue := (s.exec t ok [.submitRetry] (.setIdx k)).queueCost_le
        have hbeside := handlerCost_le s.retryIdx k (s.todo t')
        have hstore := costOfIdx_eq k
        have hown : handlerCost k (s.branch ok (.setIdx k) ++ [.submitRetry]) =
          costOfIdx (k + 1) + costOfTry k := rfl
        have hleft : handlerCost s.retryIdx [.setIdx k, .submitRetry] = costOfIdx k := rfl
        rw [hstored] at hqueue
        rw [s.exec_requests t ok _ (by simp), hstored, hown, hleft]
        omega
  have hkept : (s.exec t ok rest op).retryIdx = s.retryIdx :=
    hexec.retryIdx fun k hk => hidx ⟨k, hk⟩
  rw [hkept]
  by_cases hsubmit : op = .submitRetry
  · subst hsubmit
    cases hshape with
    | submitRetry =>
        have hqueue := (s.exec t ok [] .submitRetry).queueCost_le
        have hown : handlerCost s.retryIdx (s.branch ok .submitRetry ++ []) =
          costOfIdx (s.retryIdx + 1) := rfl
        rw [hkept] at hqueue
        rw [s.exec_requests t ok _ (by simp), hown, handlerCost]
        omega
  · have hpays := hshape.cost_exec (fun k hk => hidx ⟨k, hk⟩) hsubmit s t ok
    have hcancel : op ≠ .cancelConnectTimeout := by
      rintro rfl
      cases hshape
    have hqueue := Station.queueCost_congr hkept
      (by rw [hexec.queue hsubmit hcancel])
    omega

/-- A handler goes on with other statements, at no more cost. -/
theorem Station.Charged.update_handler {s s' : Station} {tids : Finset Nat}
    (h : s.Charged tids) {t : Thread} (ht : t.isHandler = true) {ops : List Op}
    (htodo : s'.todo = Function.update s.todo t ops) (hshape : Handling ops)
    (hcost : s'.cost ≤ s.cost) (hconnects : s'.connects = s.connects) : s'.Charged tids := by
  have hcaller : ∀ tid, s'.todo (.caller tid) = s.todo (.caller tid) := by
    intro tid
    rw [htodo]
    apply Function.update_of_ne
    rintro rfl
    cases ht
  have hhandler : ∀ t', t'.isHandler = true → Handling (s'.todo t') := by
    intro t' ht'
    rw [htodo]
    rcases eq_or_ne t' t with heq | hne
    · rw [heq, Function.update_self]
      exact hshape
    · rw [Function.update_of_ne hne]
      exact h.handling ht'
  refine ⟨hhandler .worker rfl, hhandler .events rfl, ?_, ?_, ?_⟩
  · intro tid
    rw [hcaller]
    exact h.caller tid
  · intro tid htid
    rw [hcaller]
    exact h.idle tid htid
  · have hcallers : s'.callersCost tids = s.callersCost tids := by
      simp only [Station.callersCost, hcaller]
    have hpaid := h.paid
    rw [hcallers, hconnects]
    omega

theorem Station.Charged.run_handler {s : Station} {tids : Finset Nat} (h : s.Charged tids)
    {t : Thread} (ht : t.isHandler = true) {op : Op} {rest : List Op}
    (htodo : s.todo t = op :: rest) (ok : Bool) : (s.exec t ok rest op).Charged tids := by
  have hshape : Handling (op :: rest) := htodo ▸ h.handling ht
  have hexec := s.exec_executed t ok rest op
  exact h.update_handler ht hexec.todo (hshape.exec s ok) (s.cost_handler ht htodo hshape ok)
    hexec.connects

/-- A handler begins on its idle thread. -/
theorem Station.Charged.begin_handler {s s' : Station} {tids : Finset Nat}
    (h : s.Charged tids) {t : Thread} (ht : t.isHandler = true) (hidle : s.todo t = [])
    {ops : List Op} (htodo : s'.todo = Function.update s.todo t ops) (hshape : Handling ops)
    (hrequests : s'.requests = s.requests) (hconnects : s'.connects = s.connects)
    (hidx : s'.retryIdx = s.retryIdx)
    (hcost : s'.queueCost + handlerCost s.retryIdx ops ≤
      s.queueCost + costOfIdx (s.retryIdx + 1)) : s'.Charged tids := by
  obtain ⟨t', hne, hsum⟩ := Station.handlersCost_eq ht
  have hself : s'.todo t = ops := by rw [htodo, Function.update_self]
  have hother : s'.todo t' = s.todo t' := by rw [htodo, Function.update_of_ne hne]
  have hnone : handlerCost s.retryIdx [] = costOfIdx (s.retryIdx + 1) := rfl
  apply h.update_handler ht htodo hshape _ hconnects
  rw [Station.cost, Station.cost, hsum, hsum, hself, hother, hidx, hrequests, hidle, hnone]
  omega

/-! The callers. -/

theorem Station.handlers_of_caller {s s' : Station} {tid : Nat} {ops : List Op}
    (htodo : s'.todo = Function.update s.todo (.caller tid) ops) :
    s'.todo .worker = s.todo .worker ∧ s'.todo .events = s.todo .events := by
  constructor
  · rw [htodo]
    apply Function.update_of_ne
    nofun
  · rw [htodo]
    apply Function.update_of_ne
    nofun

/-- A statement of a caller is paid for by its share of what the caller costs. -/
theorem Station.cost_caller (s : Station) (tid : Nat) {op : Op} (hplain : op.isPlain = true)
    (ok : Bool) (rest : List Op) :
    (s.exec (.caller tid) ok rest op).cost ≤ s.cost + op.cost := by
  have hexec := s.exec_executed (.caller tid) ok rest op
  obtain ⟨hworker, hevents⟩ := Station.handlers_of_caller hexec.todo
  have hrequests : (s.exec (.caller tid) ok rest op).requests = s.requests :=
    s.exec_requests _ ok rest fun b hb => by rw [hb] at hplain; cases hplain
  have hqueue := (s.exec (.caller tid) ok rest op).queueCost_le
  rw [Station.cost, Station.cost, Station.handlersCost, Station.handlersCost, hworker, hevents,
    hrequests]
  by_cases hidx : ∃ k, op = .setIdx k
  · obtain ⟨k, rfl⟩ := hidx
    have hstored : (s.exec (.caller tid) ok rest (.setIdx k)).retryIdx = k := rfl
    have hstore := handlersCost_le s.retryIdx k (s.todo .worker) (s.todo .events)
    rw [hstored] at hqueue ⊢
    rw [Op.cost]
    omega
  have hkept : (s.exec (.caller tid) ok rest op).retryIdx = s.retryIdx :=
    hexec.retryIdx fun k hk => hidx ⟨k, hk⟩
  rw [hkept] at hqueue ⊢
  by_cases hsubmit : op = .submitRetry
  · subst hsubmit
    have hone := costOfTry_le s.retryIdx
    rw [Op.cost]
    omega
  · have hsame : (s.exec (.caller tid) ok rest op).queueCost = s.queueCost := by
      apply Station.queueCost_congr hkept
      by_cases hcancel : op = .cancelConnectTimeout
      · subst hcancel
        simp [Station.exec, Station.cancelConnectTimeout, Station.setTodo]
      · rw [hexec.queue hsubmit hcancel]
    omega

/-- Where one caller at work has changed, the sum changes as it does. -/
theorem Station.callersCost_update {s s' : Station} {tids : Finset Nat} {tid : Nat}
    {ops : List Op} (htid : tid ∈ tids)
    (htodo : s'.todo = Function.update s.todo (.caller tid) ops) :
    s'.callersCost tids + callerCost (s.todo (.caller tid)) =
      s.callersCost tids + callerCost ops := by
  have hsum := Finset.add_sum_erase tids (fun tid => callerCost (s.todo (.caller tid))) htid
  have hsum' := Finset.add_sum_erase tids (fun tid => callerCost (s'.todo (.caller tid))) htid
  have hrest : ((tids.erase tid).sum fun tid => callerCost (s'.todo (.caller tid))) =
      (tids.erase tid).sum fun tid => callerCost (s.todo (.caller tid)) := by
    apply Finset.sum_congr rfl
    intro other hother
    have hne : Thread.caller other ≠ .caller tid :=
      fun heq => Finset.ne_of_mem_erase hother (Thread.caller.inj heq)
    rw [htodo, Function.update_of_ne hne]
  have hself : s'.todo (.caller tid) = ops := by rw [htodo, Function.update_self]
  simp only [hself, hrest] at hsum'
  rw [Station.callersCost, Station.callersCost]
  omega

/-- A caller goes on with other statements, which it pays for. -/
theorem Station.Charged.update_caller {s s' : Station} {tids : Finset Nat}
    (h : s.Charged tids) {tid : Nat} {ops : List Op}
    (htodo : s'.todo = Function.update s.todo (.caller tid) ops)
    (hplain : ∀ op ∈ ops, op.isPlain = true)
    (hpays : s'.cost + callerCost ops + 10 * s.connects ≤
      s.cost + callerCost (s.todo (.caller tid)) + 10 * s'.connects) :
    s'.Charged (insert tid tids) := by
  obtain ⟨hworker, hevents⟩ := Station.handlers_of_caller htodo
  refine ⟨hworker ▸ h.worker, hevents ▸ h.events, ?_, ?_, ?_⟩
  · intro other
    rw [htodo]
    rcases eq_or_ne (Thread.caller other) (.caller tid) with heq | hne
    · rw [heq, Function.update_self]
      exact hplain
    · rw [Function.update_of_ne hne]
      exact h.caller other
  · intro other hother
    have hne : Thread.caller other ≠ .caller tid :=
      fun heq => hother (Thread.caller.inj heq ▸ Finset.mem_insert_self tid tids)
    rw [htodo, Function.update_of_ne hne]
    exact h.idle other fun hin => hother (Finset.mem_insert_of_mem hin)
  · have hcallers := Station.callersCost_update (Finset.mem_insert_self tid tids) htodo
    have hsame : s.callersCost (insert tid tids) = s.callersCost tids := by
      apply Finset.sum_insert_of_eq_zero_if_notMem
      intro hout
      rw [h.idle tid hout]
      rfl
    have hpaid := h.paid
    rw [hsame] at hcallers
    omega

theorem Station.Charged.run_caller {s : Station} {tids : Finset Nat} (h : s.Charged tids)
    {tid : Nat} {op : Op} {rest : List Op} (htodo : s.todo (.caller tid) = op :: rest)
    (ok : Bool) : (s.exec (.caller tid) ok rest op).Charged (insert tid tids) := by
  have hplain := h.caller tid
  rw [htodo] at hplain
  obtain ⟨hop, hrest⟩ := List.forall_mem_cons.mp hplain
  have hexec := s.exec_executed (.caller tid) ok rest op
  have htodo' := hexec.todo
  rw [s.branch_of_isPlain ok hop, List.nil_append] at htodo'
  apply h.update_caller htodo' hrest
  have hcost := s.cost_caller tid hop ok rest
  rw [htodo, callerCost_cons, hexec.connects]
  omega

/-- A call pays for itself when it begins. -/
theorem Station.Charged.call {s s' : Station} {tids : Finset Nat} (h : s.Charged tids)
    {tid : Nat} {ops : List Op}
    (htodo : s'.todo = Function.update s.todo (.caller tid) ops)
    (hplain : ∀ op ∈ ops, op.isPlain = true) (hrequests : s'.requests = s.requests)
    (hidx : s'.retryIdx = s.retryIdx) (hqueue : s'.queue = s.queue)
    (hpays : 10 * s.connects + callerCost ops ≤ 10 * s'.connects) :
    s'.Charged (insert tid tids) := by
  apply h.update_caller htodo hplain
  obtain ⟨hworker, hevents⟩ := Station.handlers_of_caller htodo
  have hcost : s'.cost = s.cost := by
    rw [Station.cost, Station.cost, Station.handlersCost, Station.handlersCost, hworker,
      hevents, hrequests, hidx, Station.queueCost_congr hidx (by rw [hqueue])]
  rw [hcost]
  omega

/-! The steps. -/

theorem Station.Charged.congr {s s' : Station} {tids : Finset Nat} (h : s.Charged tids)
    (htodo : s'.todo = s.todo) (hrequests : s'.requests = s.requests)
    (hconnects : s'.connects = s.connects) (hidx : s'.retryIdx = s.retryIdx)
    (hqueue : .retry ∈ s'.queue.pending ↔ .retry ∈ s.queue.pending) : s'.Charged tids := by
  refine ⟨htodo ▸ h.worker, htodo ▸ h.events, htodo ▸ h.caller, htodo ▸ h.idle, ?_⟩
  have hcost : s'.cost = s.cost := by
    rw [Station.cost, Station.cost, Station.handlersCost, Station.handlersCost, htodo,
      hrequests, hidx, Station.queueCost_congr hidx hqueue]
  have hpaid := h.paid
  rw [hcost, Station.callersCost, htodo, hconnects]
  exact hpaid

theorem connectResultFn_handling (status : Option ConnStatus) (idx : Nat) :
    Handling (connectResultFn status) ∧
      handlerCost idx (connectResultFn status) = costOfIdx (idx + 1) := by
  rcases status with _ | _ | _ | _ | _ | _
  case some.success => exact ⟨.setConnected true, rfl⟩
  case some.wrongPassword => exact ⟨.emit _, rfl⟩
  all_goals exact ⟨.bumpIdx, rfl⟩

/-- What the work queue begins with it has taken out of the queue. -/
theorem Station.Charged.start {s : Station} {tids : Finset Nat} (h : s.Charged tids)
    {item : Item} {queue : WorkQueue Item} (hidle : s.todo .worker = [])
    (hnext : s.queue.next = some (item, queue)) :
    (Station.begin {s with queue := queue} item).Charged tids := by
  have hpending := WorkQueue.next_eq_some.mp hnext
  cases item with
  | retry =>
      have hout : .retry ∉ queue.pending := by
        have hnodup := s.queue.nodup
        rw [hpending] at hnodup
        exact (List.nodup_cons.mp hnodup).1
      refine h.begin_handler rfl hidle rfl .tryBand rfl rfl rfl ?_
      have hbefore : s.queueCost = costOfTry s.retryIdx :=
        if_pos (by rw [hpending]; exact List.mem_cons_self)
      have hafter : (Station.begin {s with queue := queue} .retry).queueCost = 0 := if_neg hout
      have htry : handlerCost s.retryIdx retryWorkFn =
        costOfIdx (s.retryIdx + 1) + costOfTry s.retryIdx := rfl
      rw [hbefore, hafter, htry]
      omega
  | timeout =>
      refine h.begin_handler rfl hidle rfl .timedOut rfl rfl rfl ?_
      have hsame : (Station.begin {s with queue := queue} .timeout).queueCost = s.queueCost := by
        refine Station.queueCost_congr rfl ?_
        rw [hpending]
        simp [Station.begin, Station.setTodo]
      rw [hsame]
      exact Nat.le_refl _

theorem Station.Charged.deliver {s : Station} {tids : Finset Nat} (h : s.Charged tids)
    (hidle : s.todo .events = []) (e : NetEvent) : (s.deliver e).Charged tids := by
  cases e with
  | connectResult request status =>
      obtain ⟨hshape, hcost⟩ := connectResultFn_handling status s.retryIdx
      refine h.begin_handler rfl hidle rfl hshape rfl rfl rfl ?_
      have hsame : (s.deliver (.connectResult request status)).queueCost = s.queueCost := by
        refine Station.queueCost_congr rfl ?_
        simp [Station.deliver, Station.connectResult, Station.cancelConnectTimeout,
          Station.setTodo]
      rw [hsame, hcost]
  | disconnectResult =>
      rcases s.deliver_disconnectResult with heq | ⟨-, heq⟩
      · rw [heq]
        exact h
      · rw [heq]
        exact h.begin_handler rfl hidle rfl .lost rfl rfl rfl (Nat.le_refl _)
  | dhcpBound => exact h.congr rfl rfl rfl rfl Iff.rfl

/-- Every step leaves what is under way paid for. -/
theorem Station.Charged.step {s s' : Station} {tids : Finset Nat} (h : s.Charged tids)
    {a : Act} (hs : wifiSystem.step s a = some s') : ∃ tids', s'.Charged tids' := by
  cases a with
  | ready =>
      obtain ⟨-, rfl⟩ := ready_cases hs
      exact ⟨tids, h.congr rfl rfl rfl rfl Iff.rfl⟩
  | connect tid cfg =>
      rcases connect_cases hs with rfl | ⟨r, -, -, -, rfl⟩
      · exact ⟨tids, h⟩
      · refine ⟨_, h.call rfl ?_ rfl rfl rfl (Nat.le_refl _)⟩
        simp [appWifiConnect, Op.isPlain]
  | disconnect tid =>
      obtain ⟨-, rfl⟩ := disconnect_cases hs
      refine ⟨_, h.call rfl ?_ rfl rfl rfl (Nat.le_refl _)⟩
      simp [appWifiDisconnect, Op.isPlain]
  | expire =>
      obtain ⟨-, rfl⟩ := expire_cases hs
      exact ⟨tids, h.congr rfl rfl rfl rfl (by simp)⟩
  | start =>
      obtain ⟨item, queue, hidle, hnext, rfl⟩ := start_cases hs
      exact ⟨tids, h.start hidle hnext⟩
  | event e =>
      obtain ⟨hidle, rfl⟩ := event_cases hs
      exact ⟨tids, h.deliver hidle e⟩
  | run t ok =>
      obtain ⟨op, rest, htodo, rfl⟩ := run_cases hs
      cases t with
      | worker => exact ⟨tids, h.run_handler rfl htodo ok⟩
      | events => exact ⟨tids, h.run_handler rfl htodo ok⟩
      | caller tid => exact ⟨insert tid tids, h.run_caller htodo ok⟩

/-- In every state of every run there are at most ten requests for each connect, and
six more. -/
theorem requests_bounded (acts : List Act) :
    wifiSystem.Always (fun s => s.requests.length ≤ 10 * s.connects + 6) .init acts := by
  have hcharged : wifiSystem.Always (fun s => ∃ tids, s.Charged tids) .init acts :=
    System.always_of_inv (fun _ _ _ h hs => h.elim fun _ h => h.step hs)
      ⟨∅, Station.charged_init⟩ acts
  apply hcharged.mono
  rintro s ⟨tids, h⟩
  have hpaid := h.paid
  rw [Station.cost] at hpaid
  omega

end Rw612.Wifi
