import Rw612.Wifi.Station

/-!
What the callback is told about the connection. A loss is announced by the
branch `NET_EVENT_WIFI_DISCONNECT_RESULT` of the event handler, and only while
`s_connected` is still set; `app_wifi_disconnect` clears the flag and announces
nothing.
-/

namespace Rw612.Wifi

open Lib

/-- The most recent event among CONNECTED and DISCONNECTED. -/
def Station.announced (s : Station) : Option Evt := s.events.reverse.find? Evt.isLink

/-- While the flag is clear the consumer does not believe in a connection, unless
the event handler is about to tell it. -/
def Station.Agrees (s : Station) : Prop :=
  s.connected = false → .emit .disconnected ∉ s.todo .events →
    s.announced ≠ some .connected

/-- DHCP binds only while the station is connected. -/
def DhcpWhileConnected (s : Station) : Act → Prop
  | .event .dhcpBound => s.connected = true
  | _ => True

/-- `app_wifi_disconnect` clears the flag only after a DISCONNECTED, or while the
event handler is about to emit one, or before any CONNECTED. -/
def ClearsAnnounced (s : Station) : Act → Prop
  | .run (.caller tid) _ =>
      (s.todo (.caller tid)).head? = some (.setConnected false) →
        .emit .disconnected ∉ s.todo .events → s.announced ≠ some .connected
  | _ => True

theorem announced_append (events : List Evt) (e : Evt) :
    (events ++ [e]).reverse.find? Evt.isLink =
      if e.isLink then some e else events.reverse.find? Evt.isLink := by
  rw [List.reverse_append, List.reverse_singleton, List.singleton_append,
    List.find?_cons]
  cases e.isLink <;> rfl

/-! Which threads touch the flag or announce a change. -/

/-- The statements of a thread that matter here. -/
def Station.links (s : Station) (t : Thread) : List Op := (s.todo t).filter Op.isLink

/-- What the event handler may still have to do, from each statement on. -/
def handlerLinks : List (List Op) :=
  [[], [.setConnected true], [.setConnected false, .emit .disconnected],
    [.emit .disconnected]]

structure Station.Linked (s : Station) : Prop where
  worker : s.links .worker = []
  caller : ∀ tid, ∀ op ∈ s.links (.caller tid), op = .setConnected false
  events : s.links .events ∈ handlerLinks
  agrees : s.Agrees

theorem Station.linked_init : Station.init.Linked := by
  constructor <;> simp [Station.init, Station.links, handlerLinks, Station.Agrees,
    Station.announced]

theorem Station.links_setTodo (s : Station) (t : Thread) (ops : List Op) :
    (s.setTodo t ops).links = Function.update s.links t (ops.filter Op.isLink) := by
  funext t'
  by_cases ht : t' = t
  · subst ht
    simp [Station.links]
  · simp [Station.links, Station.setTodo_of_ne s ops ht, Function.update_of_ne ht]

theorem Station.branch_links (s : Station) (ok : Bool) (op : Op) :
    (s.branch ok op).filter Op.isLink = [] := by
  unfold Station.branch
  split <;> try rfl
  · split <;> rfl
  · split
    · rfl
    · split <;> rfl

/-- A statement is removed from the statements that matter, or is none. -/
theorem Station.Executed.links {s s' : Station} {t : Thread} {ok : Bool}
    {rest : List Op} {op : Op} (h : s.Executed s' t ok rest op) :
    s'.links = Function.update s.links t (rest.filter Op.isLink) := by
  have hlinks := s.links_setTodo t (s.branch ok op ++ rest)
  rw [List.filter_append, s.branch_links, List.nil_append] at hlinks
  rw [← hlinks]
  funext t'
  rw [Station.links, h.todo]
  rfl

theorem Station.mem_links {s : Station} :
    .emit .disconnected ∈ s.links .events ↔ .emit .disconnected ∈ s.todo .events := by
  simp [Station.links, Op.isLink, Evt.isLink]

/-- A step that keeps the statements that matter, the flag and what is
announced. -/
theorem Station.Linked.congr {s s' : Station} (h : s.Linked) (hlinks : s'.links = s.links)
    (hconnected : s'.connected = s.connected) (hannounced : s'.announced = s.announced) :
    s'.Linked := by
  refine ⟨?_, ?_, ?_, ?_⟩
  · rw [hlinks]
    exact h.worker
  · rw [hlinks]
    exact h.caller
  · rw [hlinks]
    exact h.events
  · intro hfalse hpending
    rw [← Station.mem_links, hlinks, Station.mem_links] at hpending
    rw [hannounced]
    exact h.agrees (hconnected ▸ hfalse) hpending

theorem Station.Linked.run_other {s : Station} (h : s.Linked) {t : Thread} {ok : Bool}
    {op : Op} {rest : List Op} (htodo : s.todo t = op :: rest)
    (hop : op.isLink = false) : (s.exec t ok rest op).Linked := by
  have hx := s.exec_executed t ok rest op
  refine h.congr ?_ (hx.connected ?_) ?_
  · rw [hx.links, Function.update_eq_self_iff, Station.links, htodo,
      List.filter_cons_of_neg (by simp [hop])]
  · rintro v rfl
    cases hop
  · cases op with
    | emit e =>
        have he : e.isLink = false := hop
        rw [Station.announced, Station.exec, announced_append, he]
        rfl
    | cancelConnectTimeout | setCfg | setIdx | bumpIdx | submitRetry | tryBand |
      netConnect | startConnectTimeout | setConnected | netDisconnect | leave =>
        rw [Station.announced, hx.events (by simp)]
        rfl

/-- The statements that touch the flag or announce a change. -/
theorem Station.Linked.run_link {s : Station} (h : s.Linked) {t : Thread} {ok : Bool}
    {op : Op} {rest : List Op} (htodo : s.todo t = op :: rest) (hop : op.isLink = true)
    (hC : ClearsAnnounced s (.run t ok)) : (s.exec t ok rest op).Linked := by
  have hlinks := (s.exec_executed t ok rest op).links
  have hkeep : ∀ t', t' ≠ t → (s.exec t ok rest op).links t' = s.links t' := by
    intro t' ht
    rw [hlinks, Function.update_of_ne ht]
  have hself : (s.exec t ok rest op).links t = rest.filter Op.isLink := by
    rw [hlinks, Function.update_self]
  have hhead : s.links t = op :: rest.filter Op.isLink := by
    rw [Station.links, htodo, List.filter_cons_of_pos hop]
  cases t with
  | worker => cases hhead.symm.trans h.worker
  | caller tid =>
      obtain rfl : op = .setConnected false := by
        apply h.caller tid op
        rw [hhead]
        exact List.mem_cons_self
      refine ⟨(hkeep .worker (by simp)).trans h.worker, ?_, ?_, ?_⟩
      · intro tid' o ho
        by_cases htid : tid' = tid
        · subst htid
          rw [hself] at ho
          apply h.caller tid' o
          rw [hhead]
          exact List.mem_cons_of_mem _ ho
        · rw [hkeep _ (by simpa using htid)] at ho
          exact h.caller tid' o ho
      · rw [hkeep .events (by simp)]
        exact h.events
      · intro _ hpending
        rw [← Station.mem_links, hkeep .events (by simp), Station.mem_links] at hpending
        exact hC (by rw [htodo]; rfl) hpending
  | events =>
      have hothers : ∀ tid, ∀ o ∈ (s.exec .events ok rest op).links (.caller tid),
          o = .setConnected false := by
        intro tid o ho
        rw [hkeep (.caller tid) (by simp)] at ho
        exact h.caller tid o ho
      have hcases := h.events
      rw [hhead] at hcases
      simp only [handlerLinks, List.mem_cons, List.cons.injEq, List.not_mem_nil,
        or_false, reduceCtorEq, false_or] at hcases
      refine ⟨(hkeep .worker (by simp)).trans h.worker, hothers, ?_, ?_⟩
      · rw [hself]
        rcases hcases with ⟨-, hrest⟩ | ⟨-, hrest⟩ | ⟨-, hrest⟩ <;>
          simp [handlerLinks, hrest]
      · rw [Station.Agrees, ← Station.mem_links, hself]
        rcases hcases with ⟨rfl, -⟩ | ⟨-, hrest⟩ | ⟨rfl, -⟩
        · exact fun htrue => absurd htrue (by simp [Station.exec])
        · intro _ hpending
          exact absurd (by simp [hrest]) hpending
        · intro _ _
          rw [Station.announced, Station.exec, announced_append]
          simp [Evt.isLink]

/-- An idle thread begins with a function that does not matter here. -/
theorem Station.links_begin {s : Station} {t : Thread} {ops : List Op}
    (hidle : s.todo t = []) (hops : ops.filter Op.isLink = []) :
    (s.setTodo t ops).links = s.links := by
  rw [Station.links_setTodo, hops, Function.update_eq_self_iff, Station.links, hidle]
  rfl

theorem Station.Linked.disconnect {s : Station} (h : s.Linked) {tid : Nat} :
    (s.setTodo (.caller tid) appWifiDisconnect).Linked := by
  have hkeep : ∀ t, t ≠ .caller tid →
      (s.setTodo (.caller tid) appWifiDisconnect).links t = s.links t := by
    intro t ht
    rw [Station.links_setTodo, Function.update_of_ne ht]
  refine ⟨(hkeep .worker (by simp)).trans h.worker, fun tid' op hop => ?_, ?_, ?_⟩
  · by_cases htid : tid' = tid
    · subst htid
      rw [Station.links_setTodo, Function.update_self] at hop
      have hops : appWifiDisconnect.filter Op.isLink = [.setConnected false] := rfl
      rw [hops] at hop
      exact List.mem_singleton.mp hop
    · rw [hkeep _ (by simpa using htid)] at hop
      exact h.caller tid' op hop
  · rw [hkeep .events (by simp)]
    exact h.events
  · intro hfalse hpending
    rw [← Station.mem_links, hkeep .events (by simp), Station.mem_links] at hpending
    exact h.agrees hfalse hpending

/-- The event handler begins with a change of the flag, or with none. -/
theorem Station.Linked.handler {s s' : Station} (h : s.Linked) {ops : List Op}
    (hidle : s.todo .events = []) (htodo : s'.todo = (s.setTodo .events ops).todo)
    (hops : ops.filter Op.isLink ∈ handlerLinks)
    (hagrees : s'.connected = false → .emit .disconnected ∉ ops →
      s.connected = false ∧ s'.announced = s.announced) : s'.Linked := by
  have hlinks : s'.links = Function.update s.links .events (ops.filter Op.isLink) := by
    rw [← s.links_setTodo]
    funext t
    rw [Station.links, htodo]
    rfl
  have hkeep : ∀ t, t ≠ .events → s'.links t = s.links t := by
    intro t ht
    rw [hlinks, Function.update_of_ne ht]
  refine ⟨(hkeep .worker (by simp)).trans h.worker, fun tid => ?_, ?_,
    fun hfalse hpending => ?_⟩
  · rw [hkeep (.caller tid) (by simp)]
    exact h.caller tid
  · rw [hlinks, Function.update_self]
    exact hops
  · rw [htodo, Station.setTodo_self] at hpending
    obtain ⟨hold, hannounced⟩ := hagrees hfalse hpending
    rw [hannounced]
    exact h.agrees hold (by simp [hidle])

theorem connectResultFn_links (status : Option ConnStatus) :
    (connectResultFn status).filter Op.isLink ∈ handlerLinks := by
  cases status with
  | none => decide
  | some st => cases st <;> decide

theorem Station.Linked.step {s s' : Station} {a : Act} (h : s.Linked)
    (hC : ClearsAnnounced s a) (hdhcp : DhcpWhileConnected s a)
    (hs : wifiSystem.step s a = some s') : s'.Linked := by
  cases a with
  | ready =>
      obtain ⟨-, rfl⟩ := ready_cases hs
      refine h.congr rfl rfl ?_
      rw [Station.announced, announced_append]
      rfl
  | connect tid cfg =>
      rcases connect_cases hs with rfl | ⟨r, -, -, hidle, rfl⟩
      · exact h
      · exact h.congr (Station.links_begin hidle rfl) rfl rfl
  | disconnect tid =>
      obtain ⟨-, rfl⟩ := disconnect_cases hs
      exact h.disconnect
  | expire =>
      obtain ⟨-, rfl⟩ := expire_cases hs
      exact h.congr rfl rfl rfl
  | start =>
      obtain ⟨item, queue, htodo, -, rfl⟩ := start_cases hs
      cases item with
      | retry => exact h.congr (Station.links_begin htodo rfl) rfl rfl
      | timeout => exact h.congr (Station.links_begin htodo rfl) rfl rfl
  | event e =>
      obtain ⟨hidle, rfl⟩ := event_cases hs
      cases e with
      | connectResult request status =>
          exact h.handler hidle rfl (connectResultFn_links status)
            (fun hfalse _ => ⟨hfalse, rfl⟩)
      | disconnectResult =>
          rcases s.deliver_disconnectResult with heq | ⟨-, heq⟩
          · rw [heq]
            exact h
          · rw [heq]
            exact h.handler hidle rfl (by decide) (fun _ hpending =>
              absurd (by simp) hpending)
      | dhcpBound =>
          refine ⟨h.worker, h.caller, h.events, fun hfalse _ => ?_⟩
          exact absurd (hdhcp.symm.trans hfalse) (by simp)
  | run t ok =>
      obtain ⟨op, rest, htodo, rfl⟩ := run_cases hs
      cases hop : op.isLink with
      | false => exact h.run_other htodo hop
      | true => exact h.run_link htodo hop hC

/-- The flag and the events agree throughout a run just when
`app_wifi_disconnect` never clears the flag after a CONNECTED. -/
theorem events_agree_iff {acts : List Act}
    (hdhcp : wifiSystem.Meets DhcpWhileConnected .init acts) :
    wifiSystem.Always Station.Agrees .init acts ↔
      wifiSystem.Meets ClearsAnnounced .init acts := by
  constructor
  · apply System.meets_of_always
    intro s a s' _ hagrees hs
    cases a with
    | run t ok =>
        cases t with
        | caller tid =>
            intro hhead hpending
            obtain ⟨op, rest, htodo, rfl⟩ := run_cases hs
            rw [htodo] at hhead
            obtain rfl := Option.some.inj hhead
            have hkeep : (s.setTodo (.caller tid) rest).todo .events = s.todo .events :=
              s.setTodo_of_ne rest (by simp)
            apply hagrees rfl
            change _ ∉ (s.setTodo (.caller tid) rest).todo .events
            rwa [hkeep]
        | worker | events => trivial
    | ready | connect | disconnect | expire | start | event => trivial
  · intro hC
    have hlinked : wifiSystem.Always Station.Linked .init acts :=
      System.always_of_meets (fun s a s' h hmeets hs => h.step hmeets.1 hmeets.2 hs)
        Station.linked_init (hC.and hdhcp)
    exact hlinked.mono (fun s h => h.agrees)

/-- A connection that is lost, and another attempt that a disconnect ends. -/
theorem events_agree_lost :
    wifiSystem.Always Station.Agrees .init
      (joinActs ++ [.event .disconnectResult, .run .events true, .run .events true] ++
        disconnectActs 2) := by
  refine (events_agree_iff ?_).mpr ?_
  · iterate 12
      rintro _ ⟨⟩
      refine ⟨trivial, ?_⟩
    rintro _ ⟨⟩
    refine ⟨rfl, ?_⟩
    iterate 9
      rintro _ ⟨⟩
      refine ⟨trivial, ?_⟩
    trivial
  · iterate 2
      rintro _ ⟨⟩
      refine ⟨trivial, ?_⟩
    iterate 4
      rintro _ ⟨⟩
      refine ⟨fun hhead => absurd hhead (by decide), ?_⟩
    iterate 11
      rintro _ ⟨⟩
      refine ⟨trivial, ?_⟩
    iterate 2
      rintro _ ⟨⟩
      refine ⟨fun hhead => absurd hhead (by decide), ?_⟩
    -- the flag is cleared after a DISCONNECTED
    rintro _ ⟨⟩
    refine ⟨fun _ _ => by decide, ?_⟩
    iterate 2
      rintro _ ⟨⟩
      refine ⟨fun hhead => absurd hhead (by decide), ?_⟩
    trivial

/-- A disconnect after CONNECTED clears the flag, and nothing is announced. -/
theorem disconnect_unannounced :
    wifiSystem.Meets DhcpWhileConnected .init (joinActs ++ disconnectActs 2) ∧
      ∃ s, wifiSystem.exec .init (joinActs ++ disconnectActs 2) = some s ∧
        s.connected = false ∧ s.events = [.ready, .connected] ∧
        s.todo .events = [] ∧ ¬s.Agrees := by
  refine ⟨?_, _, rfl, rfl, rfl, rfl, fun hagrees => ?_⟩
  · iterate 12
      rintro _ ⟨⟩
      refine ⟨trivial, ?_⟩
    rintro _ ⟨⟩
    refine ⟨rfl, ?_⟩
    iterate 6
      rintro _ ⟨⟩
      refine ⟨trivial, ?_⟩
    trivial
  · exact hagrees rfl List.not_mem_nil rfl

end Rw612.Wifi
