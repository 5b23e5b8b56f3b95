import Rw612.Lib.AsyncRx
import Rw612.Lib.Transition

/-!
The radar's receive path, `app_radar_zephyr.c`, over the asynchronous UART driver
of Zephyr. Two static buffers take turns: `uart_async_cb` answers every request of
the driver with the other one and hands every reported range to the callback. The
driver may be far ahead of the events that the callback has seen, and may switch
reception off and be switched on again at any time.

`app_radar_start` resets the index, so it is safe only while the reception is off
and no event of an earlier reception waits.
-/

namespace Rw612.Radar

open Lib

def RX_BUF_SIZE : Nat := 512
def RX_BUF_COUNT : Nat := 2

def EBUSY : Int := 16
def ENODEV : Int := 19
def EINVAL : Int := 22

/-- `bufIdx` is `s_buf_idx`, `delivered` what `s_rx_cb` was called with, `sent` what
`uart_tx` accepted and `enableRc` the answer to the last `uart_rx_enable`. -/
structure RadarUart where
  rx : Reception Nat UInt8
  bufIdx : Nat
  running : Bool
  uart : Bool
  rxCb : Bool
  enableRc : Int
  delivered : List (List UInt8)
  sent : List (List UInt8)

def RadarUart.powerUp : RadarUart where
  rx := ⟨fun _ _ => 0, none, 0, 0, none, [], []⟩
  bufIdx := 0
  running := false
  uart := false
  rxCb := false
  enableRc := 0
  delivered := []
  sent := []

/-- `rc` is the driver's answer unless reception is on already. -/
def uartRxEnable (s : RadarUart) (buf : Nat) (rc : Int) : RadarUart × Int :=
  let rc := if s.rx.current.isSome then -EBUSY else rc
  ({s with rx := if rc = 0 then s.rx.enter buf else s.rx, enableRc := rc}, rc)

/-- Refused while reception is off and while the driver has a next buffer. -/
def uartRxBufRsp (s : RadarUart) (buf : Nat) : RadarUart :=
  if s.rx.current.isSome && s.rx.next.isNone then {s with rx := {s.rx with next := some buf}}
  else s

def uartRxDisable (s : RadarUart) : RadarUart :=
  match s.rx.current with
  | some i => {s with rx := s.rx.halt i}
  | none => s

def uartAsyncCb (s : RadarUart) (evt : RxEvent Nat) (enableRc : Int) : RadarUart :=
  match evt with
  | .ready buf offset len =>
      if s.rxCb && decide (0 < len) then
        {s with delivered := s.delivered ++ [readRange (s.rx.mem buf) offset len]}
      else s
  | .request =>
      let s := {s with bufIdx := (s.bufIdx + 1) % RX_BUF_COUNT}
      uartRxBufRsp s s.bufIdx
  | .released _ => s
  | .disabled =>
      if s.running then
        let s := {s with bufIdx := (s.bufIdx + 1) % RX_BUF_COUNT}
        (uartRxEnable s s.bufIdx enableRc).1
      else s

structure StartAnswer where
  ready : Bool
  callbackRc : Int
  enableRc : Int

def appRadarStart (s : RadarUart) (rxCb : Bool) (d : StartAnswer) : RadarUart × Int :=
  let s := {s with uart := true}
  if !d.ready then (s, -ENODEV)
  else
    let s := {s with rxCb := rxCb}
    if d.callbackRc ≠ 0 then (s, d.callbackRc)
    else
      let s := {s with bufIdx := 0}
      match uartRxEnable s s.bufIdx d.enableRc with
      | (s, rc) => if rc ≠ 0 then (s, rc) else ({s with running := true}, 0)

def appRadarStop (s : RadarUart) : RadarUart :=
  if s.running && s.uart then uartRxDisable {s with running := false} else s

def appRadarSend (s : RadarUart) (data : List UInt8) (txRc : Int) : RadarUart × Int :=
  if !s.running || !s.uart then (s, -ENODEV)
  else if data = [] then (s, -EINVAL)
  else (if txRc = 0 then {s with sent := s.sent ++ [data]} else s, txRc)

inductive RadarAct where
  | start (rxCb : Bool) (d : StartAnswer)
  | stop
  | send (data : List UInt8) (txRc : Int)
  | store (x : UInt8)
  | timeout
  | full
  | error
  | serve (enableRc : Int)

/-- The driver stores a byte, reports after the timeout, is done with its buffer or
stops after an error; `serve` is one call of `uart_async_cb`. -/
def radarSystem : System RadarUart RadarAct where
  step s
    | .start rxCb d => some (appRadarStart s rxCb d).1
    | .stop => some (appRadarStop s)
    | .send data txRc => some (appRadarSend s data txRc).1
    | .store x =>
        match s.rx.current with
        | some i => if s.rx.fill < RX_BUF_SIZE then some {s with rx := s.rx.store i x} else none
        | none => none
    | .timeout => s.rx.current.map (fun i => {s with rx := s.rx.report i})
    | .full =>
        match s.rx.current with
        | some i => if s.rx.fill = RX_BUF_SIZE then some {s with rx := s.rx.advance i} else none
        | none => none
    | .error => s.rx.current.map (fun i => {s with rx := s.rx.halt i})
    | .serve enableRc =>
        match s.rx.queue with
        | evt :: rest => some (uartAsyncCb {s with rx := {s.rx with queue := rest}} evt enableRc)
        | [] => none

/-- A start with a callback, while the reception is off and all its events are served. -/
def StartsQuiet (s : RadarUart) : RadarAct → Prop
  | .start rxCb _ => rxCb = true ∧ s.rx.current = none ∧ s.rx.queue = []
  | _ => True

/-- Every byte that the driver stored is with the callback, in order and once, but
for those whose report waits or is still to come; what is lent next is a buffer of
which nothing waits; and while the radar runs its reception is on, about to be
switched on again, or refused by the driver. -/
structure RadarUart.Exact (s : RadarUart) : Prop where
  stream : s.delivered.flatten ++ s.rx.owed = s.rx.received
  chunks : ∀ c ∈ s.delivered, 0 < c.length ∧ c.length ≤ RX_BUF_SIZE
  lent : ∀ j, s.rx.next = some j →
    s.rx.current ≠ some j ∧ ∀ offset len, .ready j offset len ∉ s.rx.queue
  receiving : s.running = true →
    s.rx.current ≠ none ∨ .disabled ∈ s.rx.queue ∨ s.enableRc ≠ 0

structure RadarUart.Inv (s : RadarUart) : Prop where
  sound : s.rx.Sound s.delivered.flatten
  chunks : ∀ c ∈ s.delivered, 0 < c.length ∧ c.length ≤ RX_BUF_SIZE
  receiving : s.running = true →
    s.rx.current ≠ none ∨ .disabled ∈ s.rx.queue ∨ s.enableRc ≠ 0
  cb : s.rxCb = true ∨ s.rx.current = none ∧ s.rx.queue = []
  idx : s.bufIdx < RX_BUF_COUNT
  turn : ∀ i, s.rx.current = some i →
    i < RX_BUF_COUNT ∧ (s.rx.next = none → i = s.bufIdx) ∧
      ∀ j, s.rx.next = some j → j = s.bufIdx
  within : s.rx.Within RX_BUF_SIZE

theorem RadarUart.inv_powerUp : RadarUart.powerUp.Inv := by
  constructor
  · constructor <;> simp [RadarUart.powerUp, Reception.owed]
  all_goals simp [RadarUart.powerUp, RX_BUF_COUNT, Reception.Within]

theorem RadarUart.Inv.exact {s : RadarUart} (h : s.Inv) : s.Exact where
  stream := h.sound.bytes
  chunks := h.chunks
  lent j hj := ⟨(h.sound.spare j hj).1, (h.sound.spare j hj).2.2⟩
  receiving := h.receiving

namespace RadarUart.Inv

variable {s : RadarUart}

theorem rxCb (h : s.Inv) (hbusy : s.rx.current ≠ none ∨ s.rx.queue ≠ []) :
    s.rxCb = true := by
  rcases h.cb with hcb | ⟨hcurrent, hqueue⟩
  · exact hcb
  · exact absurd hqueue (hbusy.resolve_left (not_not.mpr hcurrent))

theorem store (h : s.Inv) {i : Nat} (hi : s.rx.current = some i)
    (hroom : s.rx.fill < RX_BUF_SIZE) (x : UInt8) : Inv {s with rx := s.rx.store i x} where
  sound := h.sound.store hi x
  chunks := h.chunks
  receiving := h.receiving
  cb := h.cb
  idx := h.idx
  turn := h.turn
  within := ⟨hroom, h.within.2⟩

theorem timeout (h : s.Inv) {i : Nat} (hi : s.rx.current = some i) :
    Inv {s with rx := s.rx.report i} where
  sound := h.sound.report hi
  chunks := h.chunks
  receiving _ := Or.inl (by simp [hi])
  cb := Or.inl (h.rxCb (Or.inl (by simp [hi])))
  idx := h.idx
  turn := by
    simp only [Reception.report_current, Reception.report_next]
    exact h.turn
  within := h.within.report i

theorem full (h : s.Inv) {i : Nat} (hi : s.rx.current = some i) :
    Inv {s with rx := s.rx.advance i} := by
  obtain ⟨hsome, hnone⟩ := s.rx.advance_next i
  refine ⟨h.sound.advance hi, h.chunks, fun _ => ?_,
    Or.inl (h.rxCb (Or.inl (by simp [hi]))), h.idx, fun i' hi' => ?_, h.within.advance i⟩
  · cases hnext : s.rx.next with
    | none => exact Or.inr (Or.inl (hnone hnext).2.2)
    | some j => exact Or.inl (by simp [(hsome j hnext).1])
  · cases hnext : s.rx.next with
    | none => exact absurd ((hnone hnext).1.symm.trans hi') (by simp)
    | some j =>
        obtain ⟨hcurrent, hempty⟩ := hsome j hnext
        obtain rfl := Option.some.inj (hcurrent.symm.trans hi')
        have hj := (h.turn i hi).2.2 j hnext
        refine ⟨hj ▸ h.idx, fun _ => hj, fun j' hj' => ?_⟩
        exact absurd (hempty.symm.trans hj') (by simp)

theorem halt (h : s.Inv) {i : Nat} (hi : s.rx.current = some i) :
    Inv {s with rx := s.rx.halt i} := by
  obtain ⟨hcurrent, -, hdisabled⟩ := s.rx.halt_off i
  refine ⟨h.sound.halt hi, h.chunks, fun _ => Or.inr (Or.inl hdisabled),
    Or.inl (h.rxCb (Or.inl (by simp [hi]))), h.idx, fun i' hi' => ?_, h.within.halt i⟩
  exact absurd (hcurrent.symm.trans hi') (by simp)

theorem stopped (h : s.Inv) : Inv {s with running := false} :=
  ⟨h.sound, h.chunks, by simp, h.cb, h.idx, h.turn, h.within⟩

/-- The driver is asked to receive while it is off and nothing waits. -/
theorem enable (h : Inv {s with running := false}) (hcurrent : s.rx.current = none)
    (hqueue : s.rx.queue = []) (hcb : s.rxCb = true) (rc : Int) :
    (uartRxEnable s s.bufIdx rc).1.Inv := by
  unfold uartRxEnable
  simp only [hcurrent, Option.isSome_none, Bool.false_eq_true, if_false]
  by_cases hrc : rc = 0
  · simp only [if_pos hrc]
    refine ⟨h.sound.start hcurrent hqueue s.bufIdx, h.chunks, fun _ => Or.inl ?_, Or.inl hcb,
      h.idx, fun i hi => ?_, h.within.enter s.bufIdx⟩
    · simp [Reception.enter, Reception.post]
    obtain rfl := Option.some.inj hi
    exact ⟨h.idx, fun _ => rfl, fun j hj => by cases hj⟩
  · simp only [if_neg hrc]
    exact ⟨h.sound, h.chunks, fun _ => Or.inr (Or.inr hrc), Or.inl hcb, h.idx, h.turn, h.within⟩

/-- An event that hands on no byte leaves the queue. -/
theorem pop (h : s.Inv) {evt : RxEvent Nat} {rest : List (RxEvent Nat)}
    (hqueue : s.rx.queue = evt :: rest) (hchunk : Reception.chunk s.rx.mem evt = [])
    (hevt : evt = .disabled → s.running = false) :
    Inv {s with rx := {s.rx with queue := rest}} := by
  have hsound := h.sound.pop hqueue
  rw [hchunk, List.append_nil] at hsound
  refine ⟨hsound, h.chunks, fun hrunning => ?_, Or.inl (h.rxCb (Or.inr (by simp [hqueue]))),
    h.idx, h.turn, h.within.1, fun buf offset len he => h.within.2 buf offset len ?_⟩
  · refine (h.receiving hrunning).imp_right (Or.imp_left (fun hmem => ?_))
    rw [hqueue] at hmem
    refine (List.mem_cons.mp hmem).resolve_left (fun heq => ?_)
    exact absurd ((hevt heq.symm).symm.trans hrunning) (by simp)
  · rw [hqueue]
    exact List.mem_cons_of_mem _ he

theorem ready (h : s.Inv) {buf offset len : Nat} {rest : List (RxEvent Nat)}
    (hqueue : s.rx.queue = .ready buf offset len :: rest) :
    Inv {s with
      rx := {s.rx with queue := rest}
      delivered := s.delivered ++ [readRange (s.rx.mem buf) offset len]} := by
  have hmem : .ready buf offset len ∈ s.rx.queue := by
    rw [hqueue]
    exact List.mem_cons_self
  obtain ⟨hpos, hroom⟩ := h.within.2 buf offset len hmem
  have hsound := h.sound.pop hqueue
  refine ⟨?_, fun c hc => ?_, fun hrunning => ?_, Or.inl (h.rxCb (Or.inr (by simp [hqueue]))),
    h.idx, h.turn, h.within.1, fun buf' offset' len' he => h.within.2 buf' offset' len' ?_⟩
  · simpa [Reception.chunk] using hsound
  · rcases List.mem_append.mp hc with hc | hc
    · exact h.chunks c hc
    · obtain rfl := List.mem_singleton.mp hc
      rw [readRange_length]
      exact ⟨hpos, Nat.le_trans (Nat.le_add_left len offset) hroom⟩
  · refine (h.receiving hrunning).imp_right (Or.imp_left (fun hmem => ?_))
    rw [hqueue] at hmem
    exact (List.mem_cons.mp hmem).resolve_left (by simp)
  · rw [hqueue]
    exact List.mem_cons_of_mem _ he

/-- The other buffer is neither the current one, nor does a report of it wait behind
the request. -/
theorem request (h : s.Inv) {rest : List (RxEvent Nat)} (hqueue : s.rx.queue = .request :: rest)
    (enableRc : Int) :
    (uartAsyncCb {s with rx := {s.rx with queue := rest}} .request enableRc).Inv := by
  have hpop := h.pop hqueue rfl (by simp)
  have horder := h.sound.order
  rw [hqueue] at horder
  have hfollows := (List.pairwise_cons.mp horder).1
  have hidx : (s.bufIdx + 1) % RX_BUF_COUNT < RX_BUF_COUNT := Nat.mod_lt _ (by decide)
  have hnext : s.rx.next = none := h.sound.asked (by simp [hqueue])
  unfold uartAsyncCb uartRxBufRsp
  dsimp only
  rcases Option.eq_none_or_eq_some s.rx.current with hcurrent | ⟨i, hcurrent⟩
  · rw [if_neg (by simp [hcurrent])]
    exact ⟨hpop.sound, hpop.chunks, hpop.receiving, hpop.cb, hidx,
      fun i hi => absurd (hcurrent.symm.trans hi) (by simp), hpop.within⟩
  · obtain ⟨hi, hturn, -⟩ := h.turn i hcurrent
    have hother : (s.bufIdx + 1) % RX_BUF_COUNT ≠ i := by
      rw [hturn hnext]
      have := h.idx
      unfold RX_BUF_COUNT at *
      omega
    have hnone : ∀ offset len, .ready ((s.bufIdx + 1) % RX_BUF_COUNT) offset len ∉ rest := by
      intro offset len hmem
      rcases hfollows _ hmem with hoff | hon
      · exact absurd (hcurrent.symm.trans hoff) (by simp)
      · exact hother (Option.some.inj (hcurrent.symm.trans hon)).symm
    rw [if_pos (by simp [hcurrent, hnext])]
    refine ⟨hpop.sound.respond hcurrent hother (fun hmem => hfollows _ hmem) hnone,
      hpop.chunks, fun _ => Or.inl (by simp [hcurrent]), hpop.cb, hidx, fun i' hi' => ?_,
      hpop.within⟩
    obtain rfl := Option.some.inj (hcurrent.symm.trans hi')
    exact ⟨hi, by simp, fun j hj => (Option.some.inj hj).symm⟩

theorem disabled (h : s.Inv) {rest : List (RxEvent Nat)}
    (hqueue : s.rx.queue = .disabled :: rest) (enableRc : Int) :
    (uartAsyncCb {s with rx := {s.rx with queue := rest}} .disabled enableRc).Inv := by
  have horder := h.sound.order
  rw [hqueue] at horder
  have hrest : rest = [] :=
    List.eq_nil_iff_forall_not_mem.mpr (fun e he => (List.pairwise_cons.mp horder).1 e he)
  have hcurrent : s.rx.current = none := h.sound.ended (by simp [hqueue])
  have hcb := h.rxCb (Or.inr (by simp [hqueue]))
  have hoff := h.stopped.pop hqueue rfl (fun _ => rfl)
  have hidx : (s.bufIdx + 1) % RX_BUF_COUNT < RX_BUF_COUNT := Nat.mod_lt _ (by decide)
  unfold uartAsyncCb
  dsimp only
  split
  · have hturn : ∀ i, s.rx.current ≠ some i := by simp [hcurrent]
    have hready : Inv {s with
        rx := {s.rx with queue := rest}
        bufIdx := (s.bufIdx + 1) % RX_BUF_COUNT
        running := false} :=
      ⟨hoff.sound, hoff.chunks, by simp, Or.inl hcb, hidx, fun i hi => absurd hi (hturn i),
        hoff.within⟩
    exact hready.enable (s := {s with
      rx := {s.rx with queue := rest}
      bufIdx := (s.bufIdx + 1) % RX_BUF_COUNT}) hcurrent hrest hcb enableRc
  · next hstopped =>
    exact ⟨hoff.sound, hoff.chunks, fun hr => absurd hr hstopped, hoff.cb, hoff.idx, hoff.turn,
      hoff.within⟩

theorem serve (h : s.Inv) {evt : RxEvent Nat} {rest : List (RxEvent Nat)}
    (hqueue : s.rx.queue = evt :: rest) (enableRc : Int) :
    (uartAsyncCb {s with rx := {s.rx with queue := rest}} evt enableRc).Inv := by
  cases evt with
  | ready buf offset len =>
      have hlen : 0 < len := (h.within.2 buf offset len (by simp [hqueue])).1
      have hcb := h.rxCb (Or.inr (by simp [hqueue]))
      have hnew := h.ready hqueue
      simpa [uartAsyncCb, hcb, hlen] using hnew
  | request => exact h.request hqueue enableRc
  | released buf => exact h.pop hqueue rfl (by simp)
  | disabled => exact h.disabled hqueue enableRc

theorem start (h : s.Inv) {rxCb : Bool} (hcb : rxCb = true) (hcurrent : s.rx.current = none)
    (hqueue : s.rx.queue = []) (d : StartAnswer) : (appRadarStart s rxCb d).1.Inv := by
  have hturn : ∀ i, s.rx.current ≠ some i := by simp [hcurrent]
  unfold appRadarStart
  dsimp only
  split
  · exact ⟨h.sound, h.chunks, h.receiving, h.cb, h.idx, h.turn, h.within⟩
  split
  · exact ⟨h.sound, h.chunks, h.receiving, Or.inl hcb, h.idx, h.turn, h.within⟩
  · have hready : Inv {s with uart := true, rxCb := rxCb, bufIdx := 0, running := false} :=
      ⟨h.sound, h.chunks, by simp, Or.inl hcb, Nat.two_pos, fun i hi => absurd hi (hturn i),
        h.within⟩
    have hon := hready.enable (s := {s with uart := true, rxCb := rxCb, bufIdx := 0}) hcurrent
      hqueue hcb d.enableRc
    by_cases hrc : d.enableRc = 0
    · simp only [uartRxEnable, hcurrent, Option.isSome_none, Bool.false_eq_true, if_false, hrc,
        if_true, ne_eq, not_true_eq_false] at hon ⊢
      refine ⟨hon.sound, hon.chunks, fun _ => Or.inl ?_, hon.cb, hon.idx, hon.turn, hon.within⟩
      simp [Reception.enter, Reception.post]
    · simpa [uartRxEnable, hcurrent, hrc] using hon

theorem stop (h : s.Inv) : (appRadarStop s).Inv := by
  unfold appRadarStop
  split
  · unfold uartRxDisable
    dsimp only
    split
    · next i hi => exact h.stopped.halt hi
    · exact h.stopped
  · exact h

theorem send (h : s.Inv) (data : List UInt8) (txRc : Int) : (appRadarSend s data txRc).1.Inv := by
  unfold appRadarSend
  split
  · exact h
  split
  · exact h
  dsimp only
  split
  · exact ⟨h.sound, h.chunks, h.receiving, h.cb, h.idx, h.turn, h.within⟩
  · exact h

theorem step {s' : RadarUart} {a : RadarAct} (h : s.Inv) (hquiet : StartsQuiet s a)
    (hstep : radarSystem.step s a = some s') : s'.Inv := by
  cases a with
  | start rxCb d =>
      obtain ⟨hcb, hcurrent, hqueue⟩ := hquiet
      obtain rfl := Option.some.inj hstep
      exact h.start hcb hcurrent hqueue d
  | stop =>
      obtain rfl := Option.some.inj hstep
      exact h.stop
  | send data txRc =>
      obtain rfl := Option.some.inj hstep
      exact h.send data txRc
  | store x =>
      simp only [radarSystem] at hstep
      split at hstep
      · next i hi =>
        obtain ⟨hroom, hs⟩ := Option.ite_none_right_eq_some.mp hstep
        obtain rfl := Option.some.inj hs
        exact h.store hi hroom x
      · cases hstep
  | timeout =>
      obtain ⟨i, hi, rfl⟩ := Option.map_eq_some_iff.mp hstep
      exact h.timeout hi
  | full =>
      simp only [radarSystem] at hstep
      split at hstep
      · next i hi =>
        obtain ⟨-, hs⟩ := Option.ite_none_right_eq_some.mp hstep
        obtain rfl := Option.some.inj hs
        exact h.full hi
      · cases hstep
  | error =>
      obtain ⟨i, hi, rfl⟩ := Option.map_eq_some_iff.mp hstep
      exact h.halt hi
  | serve enableRc =>
      simp only [radarSystem] at hstep
      split at hstep
      · next evt rest hqueue =>
        obtain rfl := Option.some.inj hstep
        exact h.serve hqueue enableRc
      · cases hstep

end RadarUart.Inv

/-- However the driver runs ahead of its events, stops and is switched on again, the
callback gets every byte once and in order. -/
theorem radar_reception_exact (acts : List RadarAct)
    (hquiet : radarSystem.Meets StartsQuiet .powerUp acts) :
    radarSystem.Always RadarUart.Exact .powerUp acts :=
  (System.always_of_meets (fun _ _ _ h hq hstep => h.step hq hstep) RadarUart.inv_powerUp
    hquiet).mono (fun _ h => h.exact)

/-- The reception starts, takes a byte, and fails before its events are served. -/
def failedReception : List RadarAct :=
  [.start true ⟨true, 0, 0⟩, .store 7, .serve 0, .timeout, .store 8, .error, .serve 0, .serve 0,
    .serve 0, .serve 0, .serve 0]

theorem radar_reception_exact_failed :
    radarSystem.Always RadarUart.Exact .powerUp failedReception := by
  refine radar_reception_exact failedReception (fun _ _ => ⟨⟨rfl, rfl, rfl⟩, ?_⟩)
  repeat' first | exact trivial | refine fun _ _ => ⟨trivial, ?_⟩

end Rw612.Radar
