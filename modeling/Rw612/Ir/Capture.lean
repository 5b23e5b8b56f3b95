import Mathlib.Logic.Function.Basic
import Rw612.Ir.SamsungAc
import Rw612.Lib.Transition

/-!
The receiver of `ir_rx_nxp_gpio_ctimer.c`. `gpio_edge_cb` runs in an interrupt,
so it is one step; `gap_work_handler` is the locked section that flips the
buffer, the test of `s_cb` and the callback, which may take any time. When the
gap timer runs out is left open: the handler may begin at any moment.

`stores` records what the interrupts wrote, `delivered` what was passed to the
callback.
-/

namespace Rw612.Ir

open Lib

def APP_IR_RX_MAX_SYMBOLS : Nat := 384
def APP_IR_RX_MIN_SYMBOLS : Nat := 3

def ENODEV : Int := 19

/-- `rx_phase_t` -/
inductive RxPhase where
  | idle
  | mark
  | space
  deriving DecidableEq, Repr

/-- The next statement of `gap_work_handler`, with the half it has taken. -/
inductive GapPc where
  | out
  | test (half : Bool) (len : Nat)
  | callback (half : Bool) (len : Nat)
  deriving DecidableEq, Repr

/-- The static variables of the receiver. A half of `s_buf` is told by a Bool;
`starting` counts the calls of `ir_rx_start` that have set `s_rx_active` and are
still to configure the interrupt. -/
structure Rx where
  inited : Bool
  active : Bool
  cycPerUs : UInt32
  phase : RxPhase
  lastCyc : UInt32
  wrIdx : Bool
  wrLen : Nat
  buf : Bool → Nat → Symbol
  cb : Bool
  gap : GapPc
  starting : Nat
  stores : List (Bool × Nat)
  delivered : List (List Symbol)

def Rx.powerUp : Rx where
  inited := false
  active := false
  cycPerUs := 0
  phase := .idle
  lastCyc := 0
  wrIdx := false
  wrLen := 0
  buf _ _ := ⟨0, 0⟩
  cb := false
  gap := .out
  starting := 0
  stores := []
  delivered := []

/-- `cyc_to_us` -/
def cycToUs (cycPerUs cycles : UInt32) : UInt32 :=
  if 0 < cycPerUs then cycles / cycPerUs else 0

/-- `(uint16_t)MIN(us, 0xFFFF)` -/
def clampUs (us : UInt32) : UInt16 := (if us < 0xFFFF then us else 0xFFFF).toUInt16

/-- A write to `s_buf[s_wr_idx][i]`. -/
def Rx.store (s : Rx) (i : Nat) (x : Symbol) : Rx :=
  {s with
    buf := Function.update s.buf s.wrIdx (Function.update (s.buf s.wrIdx) i x)
    stores := s.stores ++ [(s.wrIdx, i)]}

/-- The falling edge: a mark begins. -/
def Rx.fall (s : Rx) (durUs : UInt16) : Rx :=
  match s.phase with
  | .idle => {s with phase := .mark}
  | .space =>
      if 0 < s.wrLen then
        {s.store (s.wrLen - 1) {s.buf s.wrIdx (s.wrLen - 1) with spaceUs := durUs} with
          phase := .mark}
      else {s with phase := .mark}
  | .mark => s

/-- The rising edge: a mark has ended. -/
def Rx.rise (s : Rx) (durUs : UInt16) : Rx :=
  match s.phase with
  | .mark =>
      if s.wrLen < APP_IR_RX_MAX_SYMBOLS then
        {s.store s.wrLen ⟨durUs, 0⟩ with wrLen := s.wrLen + 1, phase := .space}
      else {s with phase := .space}
  | .idle | .space => s

/-- `gpio_edge_cb` at cycle count `now`, with the level that it reads. -/
def gpioEdgeCb (s : Rx) (now : UInt32) (rawLevel : Int) : Rx :=
  if !s.active then s
  else
    let durUs := clampUs (cycToUs s.cycPerUs (now - s.lastCyc))
    let s := {s with lastCyc := now}
    if rawLevel = 0 then s.fall durUs else s.rise durUs

/-- The locked section of `gap_work_handler`. -/
def Rx.flip (s : Rx) : Rx :=
  {s with
    wrIdx := !s.wrIdx
    wrLen := 0
    phase := .idle
    gap := .test s.wrIdx s.wrLen}

/-- The first `len` symbols of a half. -/
def Rx.frame (s : Rx) (half : Bool) (len : Nat) : List Symbol :=
  (List.range len).map (s.buf half)

/-- The rest of `gap_work_handler`, up to the call of `s_cb`. -/
def Rx.deliver (s : Rx) (half : Bool) (len : Nat) : Rx :=
  if APP_IR_RX_MIN_SYMBOLS ≤ len ∧ s.cb = true then
    {s with
      gap := .callback half len
      delivered := s.delivered ++ [s.frame half len]}
  else {s with gap := .out}

/-- What the clock and the GPIO driver answer to `ir_rx_init`. -/
structure RxInitAnswer where
  hwCyclesPerSec : UInt32
  ready : Bool
  configureRc : Int
  addCallbackRc : Int
  now : UInt32
  deriving DecidableEq

def irRxInit (s : Rx) (d : RxInitAnswer) : Rx × Int :=
  if s.inited then (s, 0)
  else
    let cycPerUs := d.hwCyclesPerSec / 1000000
    let s := {s with cycPerUs := if cycPerUs = 0 then 1 else cycPerUs}
    if !d.ready then (s, -ENODEV)
    else if d.configureRc ≠ 0 then (s, d.configureRc)
    else if d.addCallbackRc ≠ 0 then (s, d.addCallbackRc)
    else
      ({s with
        wrIdx := false
        wrLen := 0
        phase := .idle
        lastCyc := d.now
        active := false
        inited := true}, 0)

/-- `ir_rx_start` up to the end of its locked section, or its early return. -/
def irRxStart (s : Rx) (d : RxInitAnswer) (now : UInt32) : Rx :=
  match irRxInit s d with
  | (s, 0) =>
      {s with
        wrLen := 0
        phase := .idle
        lastCyc := now
        active := true
        starting := s.starting + 1}
  | (s, _) => s

def irRxStop (s : Rx) : Rx := {s with active := false}

inductive RxAct where
  | init (d : RxInitAnswer)
  | setCallback (cb : Bool)
  | start (d : RxInitAnswer) (now : UInt32)
  /-- `gpio_pin_interrupt_configure_dt` in `ir_rx_start`. -/
  | configured (rc : Int)
  | stop
  | edge (now : UInt32) (rawLevel : Int)
  | flip
  | deliver
  | finish
  deriving DecidableEq

def rxSystem : System Rx RxAct where
  step s
    | .init d => some (irRxInit s d).1
    | .setCallback cb => some {s with cb := cb}
    | .start d now => some (irRxStart s d now)
    | .configured rc =>
        if s.starting = 0 then none
        else if rc ≠ 0 then some {s with active := false, starting := s.starting - 1}
        else some {s with starting := s.starting - 1}
    | .stop => some (irRxStop s)
    | .edge now rawLevel => some (gpioEdgeCb s now rawLevel)
    | .flip => if s.inited ∧ s.gap = .out then some s.flip else none
    | .deliver =>
        match s.gap with
        | .test half len => some (s.deliver half len)
        | _ => none
    | .finish =>
        match s.gap with
        | .callback _ _ => some {s with gap := .out}
        | _ => none

/-- No interrupt writes to the half that the callback is reading. -/
def Untorn (s : Rx) : RxAct → Prop
  | .edge now rawLevel => ∀ half len, s.gap = .callback half len →
      ∀ w ∈ (gpioEdgeCb s now rawLevel).stores.drop s.stores.length, w.1 ≠ half
  | _ => True

/-- While the callback runs, the symbols it was given are still in its half, and
there are no more of them than a half holds. -/
def Rx.Whole (s : Rx) : Prop :=
  ∀ half len, s.gap = .callback half len →
    len ≤ APP_IR_RX_MAX_SYMBOLS ∧ s.delivered.getLast? = some (s.frame half len)

/-! What an edge does. -/

/-- An edge writes to the half of `s_wr_idx` only, and only `s_wr_len`, the
phase and the time of the last edge change with it. -/
structure Rx.Edge (s s' : Rx) : Prop where
  inited : s'.inited = s.inited
  active : s'.active = s.active
  cb : s'.cb = s.cb
  gap : s'.gap = s.gap
  wrIdx : s'.wrIdx = s.wrIdx
  delivered : s'.delivered = s.delivered
  buf : ∀ half, half ≠ s.wrIdx → s'.buf half = s.buf half
  stores : ∃ ws, s'.stores = s.stores ++ ws ∧ ∀ w ∈ ws, w.1 = s.wrIdx
  idle : s'.phase = .idle → s.phase = .idle ∧ s'.wrLen = s.wrLen
  len : s.wrLen ≤ APP_IR_RX_MAX_SYMBOLS → s'.wrLen ≤ APP_IR_RX_MAX_SYMBOLS

theorem Rx.Edge.unwritten {s s' : Rx} (hinited : s'.inited = s.inited)
    (hactive : s'.active = s.active) (hcb : s'.cb = s.cb) (hgap : s'.gap = s.gap)
    (hwrIdx : s'.wrIdx = s.wrIdx) (hwrLen : s'.wrLen = s.wrLen)
    (hdelivered : s'.delivered = s.delivered) (hbuf : s'.buf = s.buf)
    (hstores : s'.stores = s.stores) (hidle : s'.phase = .idle → s.phase = .idle) :
    s.Edge s' where
  inited := hinited
  active := hactive
  cb := hcb
  gap := hgap
  wrIdx := hwrIdx
  delivered := hdelivered
  buf half _ := congrFun hbuf half
  stores := ⟨[], by rw [hstores, List.append_nil], by simp⟩
  idle h := ⟨hidle h, hwrLen⟩
  len h := by rwa [hwrLen]

/-- A symbol is written, and the next edge is awaited. -/
theorem Rx.Edge.stored {s : Rx} (i : Nat) (x : Symbol) (now : UInt32) {len : Nat}
    {phase : RxPhase} (hlen : s.wrLen ≤ APP_IR_RX_MAX_SYMBOLS → len ≤ APP_IR_RX_MAX_SYMBOLS)
    (hphase : phase ≠ .idle) :
    s.Edge {s.store i x with lastCyc := now, wrLen := len, phase := phase} where
  inited := rfl
  active := rfl
  cb := rfl
  gap := rfl
  wrIdx := rfl
  delivered := rfl
  buf half hhalf := Function.update_of_ne hhalf _ _
  stores := ⟨[(s.wrIdx, i)], rfl, by simp⟩
  idle h := absurd h hphase
  len := hlen

theorem gpioEdgeCb_edge (s : Rx) (now : UInt32) (rawLevel : Int) :
    s.Edge (gpioEdgeCb s now rawLevel) := by
  unfold gpioEdgeCb Rx.fall Rx.rise
  dsimp only
  split
  · apply Rx.Edge.unwritten <;> first | rfl | exact id
  split <;> split
  · apply Rx.Edge.unwritten <;> first | rfl | simp
  · split
    · exact Rx.Edge.stored _ _ now id (by simp)
    · apply Rx.Edge.unwritten <;> first | rfl | simp
  · apply Rx.Edge.unwritten <;> first | rfl | exact id
  · split
    · rename_i hroom
      exact Rx.Edge.stored _ _ now (fun _ => hroom) (by simp)
    · apply Rx.Edge.unwritten <;> first | rfl | simp
  all_goals apply Rx.Edge.unwritten <;> first | rfl | exact id

/-! The invariant. -/

/-- The half that the handler has taken, and how much of it is filled. -/
def GapPc.taken : GapPc → Option (Bool × Nat)
  | .out => none
  | .test half len | .callback half len => some (half, len)

structure Rx.Inv (s : Rx) : Prop where
  idle : s.phase = .idle → s.wrLen = 0
  len : s.wrLen ≤ APP_IR_RX_MAX_SYMBOLS
  active : s.active = true → s.inited = true
  inited : s.gap ≠ .out → s.inited = true
  taken : ∀ half len, s.gap.taken = some (half, len) →
    s.wrIdx ≠ half ∧ len ≤ APP_IR_RX_MAX_SYMBOLS
  whole : ∀ half len, s.gap = .callback half len →
    s.delivered.getLast? = some (s.frame half len)

theorem Rx.inv_powerUp : Rx.powerUp.Inv := by
  constructor <;> simp [Rx.powerUp, GapPc.taken]

theorem Rx.Inv.callback {s : Rx} (h : s.Inv) {half : Bool} {len : Nat}
    (hgap : s.gap = .callback half len) :
    s.wrIdx ≠ half ∧ len ≤ APP_IR_RX_MAX_SYMBOLS :=
  h.taken half len (by rw [hgap]; rfl)

theorem Rx.Inv.wholeFrame {s : Rx} (h : s.Inv) : s.Whole :=
  fun half len hgap => ⟨(h.callback hgap).2, h.whole half len hgap⟩

theorem Rx.Inv.edge {s s' : Rx} (h : s.Inv) (hedge : s.Edge s') : s'.Inv where
  idle hidle := by
    obtain ⟨hphase, hlen⟩ := hedge.idle hidle
    rw [hlen, h.idle hphase]
  len := hedge.len h.len
  active := by
    rw [hedge.active, hedge.inited]
    exact h.active
  inited := by
    rw [hedge.gap, hedge.inited]
    exact h.inited
  taken := by
    rw [hedge.gap, hedge.wrIdx]
    exact h.taken
  whole half len hgap := by
    rw [hedge.gap] at hgap
    rw [hedge.delivered, h.whole half len hgap, Rx.frame, Rx.frame,
      hedge.buf half (h.callback hgap).1.symm]

theorem Rx.Inv.untorn {s : Rx} (h : s.Inv) (a : RxAct) : Untorn s a := by
  cases a with
  | edge now rawLevel =>
      intro half len hgap w hw
      obtain ⟨ws, hstores, hws⟩ := (gpioEdgeCb_edge s now rawLevel).stores
      rw [hstores, List.drop_left] at hw
      rw [hws w hw]
      exact (h.callback hgap).1
  | init | setCallback | start | configured | stop | flip | deliver | finish => trivial

/-- `ir_rx_init` touches nothing that the handler is using: it is not running
before the receiver is initialised. -/
theorem Rx.Inv.init {s : Rx} (h : s.Inv) (d : RxInitAnswer) :
    (irRxInit s d).1.Inv ∧ ((irRxInit s d).2 = 0 → (irRxInit s d).1.inited = true) := by
  unfold irRxInit
  split
  case isTrue hinited => exact ⟨h, fun _ => hinited⟩
  case isFalse hinited =>
      have hout : s.gap = .out := by
        by_contra hgap
        exact hinited (h.inited hgap)
      dsimp only
      generalize (if d.hwCyclesPerSec / 1000000 = 0 then 1
        else d.hwCyclesPerSec / 1000000) = cycPerUs
      have hcyc : Rx.Inv {s with cycPerUs := cycPerUs} :=
        ⟨h.idle, h.len, h.active, h.inited, h.taken, h.whole⟩
      split_ifs with hready hconfigure hadd
      · exact ⟨hcyc, fun hrc => by cases hrc⟩
      · exact ⟨hcyc, fun hrc => absurd hrc hconfigure⟩
      · exact ⟨hcyc, fun hrc => absurd hrc hadd⟩
      · constructor
        · constructor <;> simp [hout, GapPc.taken]
        · simp

theorem Rx.Inv.start {s : Rx} (h : s.Inv) (d : RxInitAnswer) (now : UInt32) :
    (irRxStart s d now).Inv := by
  obtain ⟨hinit, hinited⟩ := h.init d
  unfold irRxStart
  split
  case h_1 t hrc =>
      rw [hrc] at hinit hinited
      exact ⟨fun _ => rfl, Nat.zero_le _, fun _ => hinited rfl, hinit.inited, hinit.taken,
        hinit.whole⟩
  case h_2 t rc _ hrc =>
      rw [hrc] at hinit
      exact hinit

theorem Rx.Inv.setActive {s : Rx} (h : s.Inv) (starting : Nat) :
    Rx.Inv {s with active := false, starting := starting} :=
  ⟨h.idle, h.len, by simp, h.inited, h.taken, h.whole⟩

theorem Rx.Inv.flip {s : Rx} (h : s.Inv) (hinited : s.inited = true) : s.flip.Inv where
  idle _ := rfl
  len := Nat.zero_le _
  active _ := hinited
  inited _ := hinited
  taken half len htaken := by
    obtain ⟨rfl, rfl⟩ : s.wrIdx = half ∧ s.wrLen = len := by
      simpa [Rx.flip, GapPc.taken] using htaken
    exact ⟨by simp [Rx.flip], h.len⟩
  whole half len hgap := by simp [Rx.flip] at hgap

theorem Rx.Inv.leave {s : Rx} (h : s.Inv) : Rx.Inv {s with gap := .out} :=
  ⟨h.idle, h.len, h.active, by simp, by simp [GapPc.taken], by simp⟩

theorem Rx.Inv.deliver {s : Rx} (h : s.Inv) {half : Bool} {len : Nat}
    (hgap : s.gap = .test half len) : (s.deliver half len).Inv := by
  have htaken := h.taken half len (by rw [hgap]; rfl)
  have hinited := h.inited (by simp [hgap])
  unfold Rx.deliver
  split
  · refine ⟨h.idle, h.len, h.active, fun _ => hinited, ?_, ?_⟩
    · intro half' len' heq
      cases heq
      exact htaken
    · intro half' len' heq
      cases heq
      exact List.getLast?_concat
  · exact h.leave

theorem Rx.Inv.step {s s' : Rx} {a : RxAct} (h : s.Inv)
    (hstep : rxSystem.step s a = some s') : s'.Inv := by
  cases a with
  | init d =>
      cases hstep
      exact (h.init d).1
  | setCallback cb =>
      cases hstep
      exact ⟨h.idle, h.len, h.active, h.inited, h.taken, h.whole⟩
  | start d now =>
      cases hstep
      exact h.start d now
  | configured rc =>
      simp only [rxSystem] at hstep
      split_ifs at hstep <;> cases hstep
      · exact h.setActive _
      · exact ⟨h.idle, h.len, h.active, h.inited, h.taken, h.whole⟩
  | stop =>
      cases hstep
      exact h.setActive s.starting
  | edge now rawLevel =>
      cases hstep
      exact h.edge (gpioEdgeCb_edge s now rawLevel)
  | flip =>
      simp only [rxSystem] at hstep
      split_ifs at hstep with hflip
      cases hstep
      exact h.flip hflip.1
  | deliver =>
      simp only [rxSystem] at hstep
      split at hstep <;> cases hstep
      rename_i hgap
      exact h.deliver hgap
  | finish =>
      simp only [rxSystem] at hstep
      split at hstep <;> cases hstep
      exact h.leave

/-- In every run, no interrupt writes to the half that the callback is reading,
and the callback finds the frame it was given until it returns. -/
theorem capture_never_tears (acts : List RxAct) :
    rxSystem.Meets Untorn .powerUp acts ∧ rxSystem.Always Rx.Whole .powerUp acts := by
  constructor
  · exact System.meets_of_inv (fun _ a _ h hstep => ⟨h.untorn a, h.step hstep⟩)
      Rx.inv_powerUp acts
  · exact (System.always_of_inv (fun _ _ _ h hstep => h.step hstep)
      Rx.inv_powerUp acts).mono (fun _ h => h.wholeFrame)

end Rw612.Ir
