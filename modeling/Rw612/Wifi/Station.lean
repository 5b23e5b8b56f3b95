import Mathlib.Data.Finset.Insert
import Rw612.Lib.Transition
import Rw612.Lib.WorkQueue
import Rw612.Prov.Nvram

/-!
The Wi-Fi station of `app_wifi.c`. Each function is the list of its statements
that touch the state of the module; the system work queue, the event thread of
the network stack and any number of callers run their statements one at a time
and in any order. `retry_work_fn` and `connect_timeout_fn` both run on the work
queue, the two event handlers both on the event thread.

A handler only looks at its event before its first such statement, so the event
is delivered with that statement.
-/

namespace Rw612.Wifi

open Lib Lib.CString
open Http (ascii)
open Prov (AppNvramData)

/-- `enum wifi_frequency_bands`, as far as it is used. -/
inductive Band where
  | ghz5
  | ghz24
  deriving DecidableEq, Repr

def kBandSeq : List Band := [.ghz5, .ghz24]

def BAND_SEQ_LEN : Nat := kBandSeq.length
def CONNECT_TIMEOUT_S : Nat := 35
def WIFI_CHANNEL_ANY : Nat := 255

/-- `enum wifi_security_type`, as far as it is used. -/
inductive SecurityType where
  | none
  | psk
  | sae
  deriving DecidableEq, Repr

/-- `struct wifi_connect_req_params`; fields that stay zero are left out. -/
structure ConnectParams where
  ssid : List UInt8
  band : Band
  channel : Nat
  timeout : Nat
  security : SecurityType
  psk : List UInt8
  deriving DecidableEq, Repr

/-- The parameters that `retry_work_fn` builds, unless the security is none that
it supports. -/
def connectParams (cfg : AppNvramData) (band : Band) : Option ConnectParams :=
  let sec := cfg.security.toList
  let params security psk : ConnectParams :=
    ⟨text cfg.ssid.toList, band, WIFI_CHANNEL_ANY, CONNECT_TIMEOUT_S * 1000, security, psk⟩
  if streq sec (ascii "OPEN") then some (params .none [])
  else if streq sec (ascii "WPA2") then some (params .psk (text cfg.password.toList))
  else if streq sec (ascii "WPA2_WPA3") || streq sec (ascii "WPA3_SAE") then
    some (params .sae (text cfg.password.toList))
  else none

/-- Which of its three places emits `APP_WIFI_EVT_AUTH_FAILED`. -/
inductive Why where
  | exhausted
  | unsupported
  | wrongPassword
  deriving DecidableEq, Repr

/-- `app_wifi_evt_t` -/
inductive Evt where
  | ready
  | connected
  | disconnected
  | authFailed (why : Why)
  deriving DecidableEq, Repr

/-- `enum wifi_conn_status` -/
inductive ConnStatus where
  | success
  | fail
  | wrongPassword
  | timeout
  | apNotFound
  deriving DecidableEq, Repr

/-- What the driver reports. A `CONNECT_RESULT` belongs to the request with the
given number and may come without a `struct wifi_status`. -/
inductive NetEvent where
  | connectResult (request : Nat) (status : Option ConnStatus)
  | disconnectResult
  | dhcpBound
  deriving DecidableEq, Repr

/-- `s_retry_work` and `s_connect_timeout_dwork`. -/
inductive Item where
  | retry
  | timeout
  deriving DecidableEq, Repr

/-- The statements. An increment is its load here and its store, `setIdx`, in a
step of its own. -/
inductive Op where
  | cancelConnectTimeout
  | setCfg (cfg : AppNvramData)
  | setIdx (idx : Nat)
  | bumpIdx
  | submitRetry
  /-- The test of `s_retry_idx` and the choice of the band. -/
  | tryBand
  | netConnect (band : Band)
  | startConnectTimeout (request : Nat)
  | setConnected (value : Bool)
  | netDisconnect
  | emit (evt : Evt)
  /-- `app_wifi_disconnect` returns. -/
  | leave
  deriving DecidableEq

def connectTimeoutFn : List Op := [.netDisconnect, .bumpIdx, .submitRetry]

def retryWorkFn : List Op := [.tryBand]

/-- `app_wifi_connect` past its checks. -/
def appWifiConnect (cfg : AppNvramData) : List Op :=
  [.cancelConnectTimeout, .setCfg cfg, .setIdx 0, .submitRetry]

def appWifiDisconnect : List Op :=
  [.cancelConnectTimeout, .setIdx BAND_SEQ_LEN, .setConnected false, .netDisconnect, .leave]

inductive Thread where
  | worker
  | events
  | caller (tid : Nat)
  deriving DecidableEq, Repr

structure Request where
  params : ConnectParams
  accepted : Bool
  deriving DecidableEq, Repr

/-- The state of the module and what each thread has still to do.

`armed` is the timer of `s_connect_timeout_dwork`, and `armedFor` the request it
was last started for. The fields from `requests` on record the run: the requests
to connect, those whose result was delivered, those that were rejected, reported
as failed or timed out, the emitted events, the number of connects, and whether
a disconnect has returned with no connect since. -/
structure Station where
  started : Bool
  connected : Bool
  retryIdx : Nat
  retryCfg : AppNvramData
  queue : WorkQueue Item
  armed : Bool
  armedFor : Nat
  todo : Thread → List Op
  requests : List Request
  resulted : List Nat
  failed : Finset Nat
  events : List Evt
  connects : Nat
  quiesced : Bool

/-- After `app_wifi_init`. -/
def Station.init : Station where
  started := false
  connected := false
  retryIdx := 0
  retryCfg := .zero
  queue := .empty
  armed := false
  armedFor := 0
  todo := fun _ => []
  requests := []
  resulted := []
  failed := ∅
  events := []
  connects := 0
  quiesced := false

def Station.setTodo (s : Station) (t : Thread) (ops : List Op) : Station :=
  {s with todo := Function.update s.todo t ops}

/-- `k_work_cancel_delayable`, which does not stop a handler that is running. -/
def Station.cancelConnectTimeout (s : Station) : Station :=
  {s with armed := false, queue := s.queue.cancel .timeout}

/-- `k_work_schedule`, which does nothing while the item is scheduled or queued. -/
def Station.startConnectTimeout (s : Station) (request : Nat) : Station :=
  if s.armed ∨ .timeout ∈ s.queue.pending then s
  else {s with armed := true, armedFor := request}

/-- `NET_REQUEST_WIFI_CONNECT`, which the driver accepts or rejects. -/
def Station.netConnect (s : Station) (t : Thread) (ok : Bool) (rest : List Op)
    (params : ConnectParams) : Station :=
  let request := s.requests.length
  let s' : Station := {s with requests := s.requests ++ [⟨params, ok⟩]}
  if ok then s'.setTodo t (.startConnectTimeout request :: rest)
  else
    {s'.setTodo t (.bumpIdx :: .submitRetry :: rest) with
      failed := insert request s.failed}

/-- Thread `t` executes a statement and has `rest` left. -/
def Station.exec (s : Station) (t : Thread) (ok : Bool) (rest : List Op) : Op → Station
  | .cancelConnectTimeout => (s.setTodo t rest).cancelConnectTimeout
  | .setCfg cfg => {s.setTodo t rest with retryCfg := cfg}
  | .setIdx idx => {s.setTodo t rest with retryIdx := idx}
  | .bumpIdx => s.setTodo t (.setIdx (s.retryIdx + 1) :: rest)
  | .submitRetry => {s.setTodo t rest with queue := s.queue.submit .retry}
  | .tryBand =>
      match kBandSeq[s.retryIdx]? with
      | none => s.setTodo t (.emit (.authFailed .exhausted) :: rest)
      | some band => s.setTodo t (.netConnect band :: rest)
  | .netConnect band =>
      match connectParams s.retryCfg band with
      | none => s.setTodo t (.emit (.authFailed .unsupported) :: rest)
      | some params => s.netConnect t ok rest params
  | .startConnectTimeout request => (s.setTodo t rest).startConnectTimeout request
  | .setConnected value => {s.setTodo t rest with connected := value}
  | .netDisconnect => s.setTodo t rest
  | .emit evt => {s.setTodo t rest with events := s.events ++ [evt]}
  | .leave => {s.setTodo t rest with quiesced := true}

/-- `app_wifi_connect`; with NULL, or before the driver is ready, it returns an
error. -/
def Station.callConnect (s : Station) (tid : Nat) : Option AppNvramData → Station
  | none => s
  | some cfg =>
      if s.started then
        {s.setTodo (.caller tid) (appWifiConnect cfg) with
          connects := s.connects + 1
          quiesced := false}
      else s

/-- A failure, but for a wrong password, which another band does not mend. -/
def isRetried : Option ConnStatus → Bool
  | some .success | some .wrongPassword => false
  | _ => true

/-- The branch `NET_EVENT_WIFI_CONNECT_RESULT` of `wifi_mgmt_event_handler`, after
the timeout is cancelled. -/
def connectResultFn : Option ConnStatus → List Op
  | some .success => [.setConnected true]
  | some .wrongPassword => [.emit (.authFailed .wrongPassword)]
  | _ => [.bumpIdx, .submitRetry]

def Station.connectResult (s : Station) (request : Nat) (status : Option ConnStatus) :
    Station :=
  {s.cancelConnectTimeout.setTodo .events (connectResultFn status) with
    resulted := request :: s.resulted
    failed := if isRetried status then insert request s.failed else s.failed}

/-- `wifi_mgmt_event_handler` and `ipv4_event_handler` -/
def Station.deliver (s : Station) : NetEvent → Station
  | .connectResult request status => s.connectResult request status
  | .disconnectResult =>
      if s.connected then
        s.setTodo .events [.setConnected false, .emit .disconnected]
      else s
  | .dhcpBound => {s with events := s.events ++ [.connected]}

/-- The work queue begins with an item. -/
def Station.begin (s : Station) : Item → Station
  | .retry => s.setTodo .worker retryWorkFn
  | .timeout =>
      {s.setTodo .worker connectTimeoutFn with failed := insert s.armedFor s.failed}

inductive Act where
  /-- The driver is up, or five seconds have passed. -/
  | ready
  | connect (tid : Nat) (cfg : Option AppNvramData)
  | disconnect (tid : Nat)
  | expire
  | start
  | event (e : NetEvent)
  /-- The next statement of a thread; `ok` is what a request to connect returns. -/
  | run (t : Thread) (ok : Bool)
  deriving DecidableEq

def wifiSystem : System Station Act where
  step s
    | .ready =>
        if s.started then none
        else some {s with started := true, events := s.events ++ [.ready]}
    | .connect tid cfg =>
        if s.todo (.caller tid) = [] then some (s.callConnect tid cfg) else none
    | .disconnect tid =>
        if s.todo (.caller tid) = [] then
          some (s.setTodo (.caller tid) appWifiDisconnect)
        else none
    | .expire =>
        if s.armed then some {s with armed := false, queue := s.queue.submit .timeout}
        else none
    | .start =>
        match s.todo .worker, s.queue.next with
        | [], some (item, queue) => some (Station.begin {s with queue := queue} item)
        | _, _ => none
    | .event e => if s.todo .events = [] then some (s.deliver e) else none
    | .run t ok =>
        match s.todo t with
        | [] => none
        | op :: rest => some (s.exec t ok rest op)

@[simp] theorem Station.setTodo_self (s : Station) (t : Thread) (ops : List Op) :
    (s.setTodo t ops).todo t = ops := Function.update_self ..

theorem Station.setTodo_of_ne (s : Station) {t t' : Thread} (ops : List Op) (h : t' ≠ t) :
    (s.setTodo t ops).todo t' = s.todo t' := Function.update_of_ne h ..

def Evt.isAuthFailed : Evt → Bool
  | .authFailed _ => true
  | _ => false

def Evt.isLink : Evt → Bool
  | .connected | .disconnected => true
  | _ => false

/-- The statements that touch `s_connected` or tell the callback of a change. -/
def Op.isLink : Op → Bool
  | .setConnected _ => true
  | .emit e => e.isLink
  | _ => false

/-! What a statement does, field by field. -/

/-- The statements that a branch puts before the rest. -/
def Station.branch (s : Station) (ok : Bool) : Op → List Op
  | .bumpIdx => [.setIdx (s.retryIdx + 1)]
  | .tryBand =>
      match kBandSeq[s.retryIdx]? with
      | none => [.emit (.authFailed .exhausted)]
      | some band => [.netConnect band]
  | .netConnect band =>
      match connectParams s.retryCfg band with
      | none => [.emit (.authFailed .unsupported)]
      | some _ =>
          if ok then [.startConnectTimeout s.requests.length]
          else [.bumpIdx, .submitRetry]
  | _ => []

theorem Station.startConnectTimeout_eq (s : Station) (request : Nat) :
    ∃ armed armedFor, s.startConnectTimeout request =
      {s with armed := armed, armedFor := armedFor} := by
  unfold Station.startConnectTimeout
  split
  · exact ⟨s.armed, s.armedFor, rfl⟩
  · exact ⟨true, request, rfl⟩

/-- What a statement leaves of the state. Only a few statements reach each of the
fields. -/
structure Station.Executed (s s' : Station) (t : Thread) (ok : Bool) (rest : List Op)
    (op : Op) : Prop where
  todo : s'.todo = Function.update s.todo t (s.branch ok op ++ rest)
  started : s'.started = s.started
  connects : s'.connects = s.connects
  resulted : s'.resulted = s.resulted
  connected : (∀ v, op ≠ .setConnected v) → s'.connected = s.connected
  retryIdx : (∀ v, op ≠ .setIdx v) → s'.retryIdx = s.retryIdx
  events : (∀ e, op ≠ .emit e) → s'.events = s.events
  requests : (∀ b, op ≠ .netConnect b) → s'.requests = s.requests ∧ s'.failed = s.failed
  quiesced : op ≠ .leave → s'.quiesced = s.quiesced
  queue : op ≠ .submitRetry → op ≠ .cancelConnectTimeout → s'.queue = s.queue
  armed : (∀ n, op ≠ .startConnectTimeout n) → op ≠ .cancelConnectTimeout →
    s'.armed = s.armed
  armedFor : (∀ n, op ≠ .startConnectTimeout n) → s'.armedFor = s.armedFor

theorem Station.exec_executed (s : Station) (t : Thread) (ok : Bool) (rest : List Op)
    (op : Op) : s.Executed (s.exec t ok rest op) t ok rest op := by
  cases op with
  | tryBand =>
      simp only [Station.exec]
      split
      case h_1 h => constructor <;> simp [Station.branch, Station.setTodo, h]
      case h_2 band h => constructor <;> simp [Station.branch, Station.setTodo, h]
  | netConnect band =>
      simp only [Station.exec]
      split
      case h_1 h => constructor <;> simp [Station.branch, Station.setTodo, h]
      case h_2 params h =>
          cases ok <;> constructor <;>
            simp [Station.branch, Station.netConnect, Station.setTodo, h]
  | startConnectTimeout n =>
      obtain ⟨armed, armedFor, h⟩ := (s.setTodo t rest).startConnectTimeout_eq n
      rw [Station.exec, h]
      constructor <;> simp [Station.branch, Station.setTodo]
  | cancelConnectTimeout | setCfg | setIdx | bumpIdx | submitRetry | setConnected |
    netDisconnect | emit | leave =>
      constructor <;>
        simp [Station.exec, Station.branch, Station.setTodo, Station.cancelConnectTimeout]

/-! What each step can be. -/

theorem ready_cases {s s' : Station} (h : wifiSystem.step s .ready = some s') :
    s.started = false ∧ s' = {s with started := true, events := s.events ++ [.ready]} := by
  simp only [wifiSystem] at h
  split at h
  case isTrue => cases h
  case isFalse hstarted => exact ⟨by simpa using hstarted, (Option.some.inj h).symm⟩

/-- A connect on an idle thread is refused, or begins. -/
theorem connect_cases {s s' : Station} {tid : Nat} {cfg : Option AppNvramData}
    (h : wifiSystem.step s (.connect tid cfg) = some s') :
    s' = s ∨ ∃ r, cfg = some r ∧ s.started = true ∧ s.todo (.caller tid) = [] ∧
      s' = {s.setTodo (.caller tid) (appWifiConnect r) with
        connects := s.connects + 1, quiesced := false} := by
  simp only [wifiSystem] at h
  split at h
  case isFalse => cases h
  case isTrue hidle =>
      obtain rfl := Option.some.inj h
      cases cfg with
      | none => exact Or.inl rfl
      | some r =>
          rw [Station.callConnect]
          split
          case isTrue hstarted => exact Or.inr ⟨r, rfl, hstarted, hidle, rfl⟩
          case isFalse => exact Or.inl rfl

theorem disconnect_cases {s s' : Station} {tid : Nat}
    (h : wifiSystem.step s (.disconnect tid) = some s') :
    s.todo (.caller tid) = [] ∧ s' = s.setTodo (.caller tid) appWifiDisconnect := by
  simp only [wifiSystem] at h
  split at h
  case isTrue hidle => exact ⟨hidle, (Option.some.inj h).symm⟩
  case isFalse => cases h

theorem expire_cases {s s' : Station} (h : wifiSystem.step s .expire = some s') :
    s.armed = true ∧ s' = {s with armed := false, queue := s.queue.submit .timeout} := by
  simp only [wifiSystem] at h
  split at h
  case isTrue harmed => exact ⟨harmed, (Option.some.inj h).symm⟩
  case isFalse => cases h

theorem start_cases {s s' : Station} (h : wifiSystem.step s .start = some s') :
    ∃ item queue, s.todo .worker = [] ∧ s.queue.next = some (item, queue) ∧
      s' = Station.begin {s with queue := queue} item := by
  simp only [wifiSystem] at h
  split at h
  case h_1 item queue htodo hnext =>
      exact ⟨item, queue, htodo, hnext, (Option.some.inj h).symm⟩
  case h_2 => cases h

theorem event_cases {s s' : Station} {e : NetEvent}
    (h : wifiSystem.step s (.event e) = some s') :
    s.todo .events = [] ∧ s' = s.deliver e := by
  simp only [wifiSystem] at h
  split at h
  case isTrue hidle => exact ⟨hidle, (Option.some.inj h).symm⟩
  case isFalse => cases h

theorem run_cases {s s' : Station} {t : Thread} {ok : Bool}
    (h : wifiSystem.step s (.run t ok) = some s') :
    ∃ op rest, s.todo t = op :: rest ∧ s' = s.exec t ok rest op := by
  simp only [wifiSystem] at h
  split at h
  case h_1 => cases h
  case h_2 op rest hop => exact ⟨op, rest, hop, (Option.some.inj h).symm⟩

/-- A report that the connection is lost matters only while the flag is set. -/
theorem Station.deliver_disconnectResult (s : Station) :
    s.deliver .disconnectResult = s ∨ s.connected = true ∧ s.deliver .disconnectResult =
      s.setTodo .events [.setConnected false, .emit .disconnected] := by
  rw [Station.deliver]
  split
  case isTrue hconnected => exact Or.inr ⟨hconnected, rfl⟩
  case isFalse => exact Or.inl rfl

/-! A run. -/

/-- An open network. -/
def openNetwork : AppNvramData :=
  {AppNvramData.zero with
    security := #v[79, 80, 69, 78, 0, 0, 0, 0, 0, 0, 0, 0, 0, 0, 0, 0, 0]}

/-- The driver is up, and the network is asked for. -/
def connectActs : List Act :=
  [.ready, .connect 1 (some openNetwork), .run (.caller 1) true, .run (.caller 1) true,
    .run (.caller 1) true, .run (.caller 1) true]

/-- The first request is accepted. -/
def requestActs : List Act :=
  connectActs ++ [.start, .run .worker true, .run .worker true, .run .worker true]

/-- The station then connects, and gets an address. -/
def joinActs : List Act :=
  requestActs ++ [.event (.connectResult 0 (some .success)), .run .events true,
    .event .dhcpBound]

/-- An `app_wifi_disconnect` from its call to its return. -/
def disconnectActs (tid : Nat) : List Act :=
  .disconnect tid :: List.replicate 5 (.run (.caller tid) true)

end Rw612.Wifi
