import Mathlib.Logic.Function.Basic
import Rw612.Ir.Aircon
import Rw612.Ir.Transmit

/-!
Concurrent users of the transmitter. `send_symbol_frame` encodes into one static
array and `ir_aircon_samsung_send_raw` works on one static copy of its bytes;
`ir_tx_send_symbols` copies the array into `s_buf` under `s_busy_mtx`. The calls
that hold `s_mtx` exclude each other, but the raw sender does not take it.

Each byte and each symbol is a step of its own. When a wait for the transmitter
ends is left open.
-/

namespace Rw612.Ir

open Lib

/-- A call that sends a Samsung frame: `ir_aircon_send` or
`ir_aircon_set_temp_c`, which hold `s_mtx`, or `ir_aircon_samsung_send_raw`. -/
inductive SamsungCall where
  | locked (bytes : List UInt8)
  | raw (frame : List UInt8) (fixCs : Bool)
  deriving DecidableEq

/-- The symbols of a frame, with the room that `send_symbol_frame` has. -/
def encodeFrame (bytes : List UInt8) : List Symbol :=
  match irCodecSamsungAcEncode bytes IR_SAC_MAX_SYMBOLS with
  | .ok syms => syms
  | .error _ => []

/-- The checksum loop after its first `n` sections. -/
def fixSections (frame : List UInt8) (n : Nat) : List UInt8 :=
  (List.range n).foldl (fun scratch s => irCodecSamsungAcFixChecksum scratch (s * 7)) frame

/-- The bytes that a call is to send. -/
def SamsungCall.bytes : SamsungCall → List UInt8
  | .locked bytes => bytes
  | .raw frame fixCs => if fixCs then fixSections frame (frame.length / 7) else frame

inductive Job where
  | samsung (c : SamsungCall)
  /-- Another user of `ir_tx_send_symbols`, with an array of its own. -/
  | symbols (syms : List Symbol)
  deriving DecidableEq

/-- The frame that a call is to hand to the transmitter. -/
def Job.frame : Job → List Symbol
  | .samsung c => encodeFrame c.bytes
  | .symbols syms => syms

/-- The checks of the length that are made before anything is written. -/
def Job.accepted : Job → Bool
  | .samsung (.locked bytes) => !badLength bytes.length
  | .samsung (.raw frame _) => !badLength frame.length
  | .symbols syms => decide (0 < syms.length ∧ syms.length ≤ APP_IR_TX_MAX_SYMBOLS)

/-- The next statement of a call. -/
inductive CallPc where
  | out
  | lock (bytes : List UInt8)
  /-- `memcpy(scratch, frame, len)` has written `k` bytes. -/
  | fill (frame : List UInt8) (fixCs : Bool) (k : Nat)
  /-- The checksums of `n` sections have been written. -/
  | fix (frame : List UInt8) (n : Nat)
  /-- `k` symbols have been encoded into `syms`. -/
  | encode (c : SamsungCall) (k : Nat)
  | lockBusy (job : Job)
  /-- `memcpy(s_buf, syms, ..)` has copied `k` symbols. -/
  | copy (job : Job) (k : Nat)
  | trigger (job : Job)
  | wait (job : Job)
  | unlock (bytes : List UInt8)
  deriving DecidableEq

/-- The shared variables and the calls; `handed` records each call with what it
has handed to the transmitter. -/
structure Senders where
  syms : Nat → Symbol
  scratch : Nat → UInt8
  buf : Nat → Symbol
  mtx : Option Nat
  busyMtx : Option Nat
  calls : Nat → CallPc
  handed : List (Job × List Symbol)

def Senders.start : Senders where
  syms _ := ⟨0, 0⟩
  scratch _ := 0
  buf _ := ⟨0, 0⟩
  mtx := none
  busyMtx := none
  calls _ := .out
  handed := []

def Senders.goto (s : Senders) (t : Nat) (pc : CallPc) : Senders :=
  {s with calls := Function.update s.calls t pc}

/-- The first `len` bytes of `scratch`. -/
def Senders.scratched (s : Senders) (len : Nat) : List UInt8 :=
  (List.range len).map s.scratch

/-- The bytes that the encoder reads for a call. -/
def Senders.source (s : Senders) : SamsungCall → List UInt8
  | .locked bytes => bytes
  | .raw frame _ => s.scratched frame.length

/-- `ir_codec_samsung_ac_fix_checksum(&scratch[start])` -/
def Senders.fixScratch (s : Senders) (len start : Nat) : Senders :=
  let fixed := irCodecSamsungAcFixChecksum (s.scratched len) start
  let scratch := Function.update s.scratch (start + 1) (fixed.getD (start + 1) 0)
  {s with scratch := Function.update scratch (start + 2) (fixed.getD (start + 2) 0)}

/-- What `memcpy` reads in `ir_tx_send_symbols`. -/
def Senders.array (s : Senders) : Job → Nat → Symbol
  | .samsung _ => s.syms
  | .symbols syms => fun k => syms.getD k ⟨0, 0⟩

/-- A call begins, once its checks have passed. -/
def Senders.begin (s : Senders) (t : Nat) (job : Job) : Option Senders :=
  if s.calls t = .out ∧ job.accepted = true then
    match job with
    | .samsung (.locked bytes) => some (s.goto t (.lock bytes))
    | .samsung (.raw frame fixCs) => some (s.goto t (.fill frame fixCs 0))
    | .symbols syms => some (s.goto t (.lockBusy (.symbols syms)))
  else none

/-- The next statement of the call of a thread, unless it has to wait. -/
def Senders.statement (s : Senders) (t : Nat) : Option Senders :=
  match s.calls t with
  | .out => none
  | .lock bytes =>
      if s.mtx = none then some ({s with mtx := some t}.goto t (.encode (.locked bytes) 0))
      else none
  | .fill frame fixCs k =>
      if k < frame.length then
        some ({s with scratch := Function.update s.scratch k (frame.getD k 0)}.goto t
          (.fill frame fixCs (k + 1)))
      else if fixCs then some (s.goto t (.fix frame 0))
      else some (s.goto t (.encode (.raw frame false) 0))
  | .fix frame n =>
      if n * 7 < frame.length then
        some ((s.fixScratch frame.length (n * 7)).goto t (.fix frame (n + 1)))
      else some (s.goto t (.encode (.raw frame true) 0))
  | .encode c k =>
      -- the number of symbols depends on the number of bytes only
      if k < (encodeFrame c.bytes).length then
        let x := (encodeFrame (s.source c)).getD k ⟨0, 0⟩
        some ({s with syms := Function.update s.syms k x}.goto t (.encode c (k + 1)))
      else some (s.goto t (.lockBusy (.samsung c)))
  | .lockBusy job =>
      if s.busyMtx = none then some ({s with busyMtx := some t}.goto t (.copy job 0)) else none
  | .copy job k =>
      if k < job.frame.length then
        some ({s with buf := Function.update s.buf k (s.array job k)}.goto t
          (.copy job (k + 1)))
      else some (s.goto t (.trigger job))
  | .trigger job =>
      some ({s with
        handed := s.handed ++ [(job, (List.range job.frame.length).map s.buf)]}.goto t
          (.wait job))
  | .wait job =>
      match job with
      | .samsung (.locked bytes) => some ({s with busyMtx := none}.goto t (.unlock bytes))
      | _ => some ({s with busyMtx := none}.goto t .out)
  | .unlock _ => some ({s with mtx := none}.goto t .out)

inductive SendAct where
  | begin (t : Nat) (job : Job)
  | statement (t : Nat)
  deriving DecidableEq

def senderSystem : System Senders SendAct where
  step s
    | .begin t job => s.begin t job
    | .statement t => s.statement t

/-- Each frame handed over is the one of its call. -/
def Senders.Own (s : Senders) : Prop := ∀ h ∈ s.handed, h.2 = h.1.frame

/-! What a call has written and is still to read. -/

/-- The symbol that a call has encoded at `i` and has yet to copy. -/
def CallPc.symAt (i : Nat) : CallPc → Option Symbol
  | .encode c k => if i < k then (encodeFrame c.bytes)[i]? else none
  | .lockBusy (.samsung c) => (encodeFrame c.bytes)[i]?
  | .copy (.samsung c) k => if k ≤ i then (encodeFrame c.bytes)[i]? else none
  | _ => none

/-- The byte that a call has put into `scratch` at `i` and has yet to encode. -/
def CallPc.byteAt (i : Nat) : CallPc → Option UInt8
  | .fill frame _ k => if i < k then frame[i]? else none
  | .fix frame n => (fixSections frame n)[i]?
  | .encode (.raw frame fixCs) k =>
      let bytes := (SamsungCall.raw frame fixCs).bytes
      if k < (encodeFrame bytes).length then bytes[i]? else none
  | _ => none

/-- The symbol that a call has copied to `s_buf` at `i`. -/
def CallPc.bufAt (i : Nat) : CallPc → Option Symbol
  | .copy job k => if i < k then job.frame[i]? else none
  | .trigger job => job.frame[i]?
  | _ => none

/-- The call holds `s_mtx`. -/
def CallPc.locked : CallPc → Bool
  | .encode (.locked _) _ => true
  | .lockBusy (.samsung (.locked _)) => true
  | .copy (.samsung (.locked _)) _ => true
  | .trigger (.samsung (.locked _)) => true
  | .wait (.samsung (.locked _)) => true
  | .unlock _ => true
  | _ => false

/-- The call holds `s_busy_mtx`. -/
def CallPc.busy : CallPc → Bool
  | .copy _ _ | .trigger _ | .wait _ => true
  | _ => false

/-! Where the calls may overlap. -/

/-- From the first symbol that the call encodes into `syms` to the last one copied. -/
def CallPc.usesSyms : CallPc → Bool
  | .encode _ k => decide (0 < k)
  | .lockBusy (.samsung _) => true
  | .copy (.samsung c) k => decide (k < (encodeFrame c.bytes).length)
  | _ => false

/-- From the first byte that the call puts into `scratch` to the last symbol encoded. -/
def CallPc.usesScratch : CallPc → Bool
  | .fill _ _ k => decide (0 < k)
  | .fix _ _ => true
  | .encode (.raw frame fixCs) k =>
      decide (k < (encodeFrame (SamsungCall.raw frame fixCs).bytes).length)
  | _ => false

/-- The next statement encodes a symbol. -/
def CallPc.encodes : CallPc → Bool
  | .encode c k => decide (k < (encodeFrame c.bytes).length)
  | _ => false

/-- The next statement writes to `scratch`. -/
def CallPc.fills : CallPc → Bool
  | .fill frame _ k => decide (k < frame.length)
  | .fix frame n => decide (n * 7 < frame.length)
  | _ => false

/-- A call at `pc` does not write where a call at `other` is at work, unless both
hold `s_mtx`. -/
def CallPc.apart (pc other : CallPc) : Bool :=
  pc.locked && other.locked ||
    !(pc.encodes && other.usesSyms) && !(pc.fills && other.usesScratch)

/-- No call encodes a symbol between the first one that another has encoded and the
last one that it copies, or writes to `scratch` while another raw call works on it. -/
def KeepsApart (s : Senders) : SendAct → Prop
  | .begin _ _ => True
  | .statement t => ∀ t' ≠ t, (s.calls t).apart (s.calls t') = true

/-! The invariant. -/

def CallPc.Ok : CallPc → Prop
  | .fill frame _ _ => frame.length % 7 = 0
  | .fix frame n => frame.length % 7 = 0 ∧ n * 7 ≤ frame.length
  | _ => True

/-- The shared variables are as a call at `pc` has left them. -/
structure Senders.Holds (s : Senders) (t : Nat) (pc : CallPc) : Prop where
  ok : pc.Ok
  mtx : pc.locked = true → s.mtx = some t
  busy : pc.busy = true → s.busyMtx = some t
  sym : ∀ i x, pc.symAt i = some x → s.syms i = x
  byte : ∀ i b, pc.byteAt i = some b → s.scratch i = b
  buf : ∀ i x, pc.bufAt i = some x → s.buf i = x

@[simp] theorem Senders.goto_self (s : Senders) (t : Nat) (pc : CallPc) :
    (s.goto t pc).calls t = pc := by
  simp [goto]

theorem Senders.goto_of_ne (s : Senders) {t t' : Nat} (h : t' ≠ t) (pc : CallPc) :
    (s.goto t pc).calls t' = s.calls t' := by
  simp [goto, h]

theorem Senders.Holds.goto {s : Senders} {t t' : Nat} {pc pc' : CallPc}
    (h : s.Holds t' pc') : (s.goto t pc).Holds t' pc' :=
  ⟨h.ok, h.mtx, h.busy, h.sym, h.byte, h.buf⟩

structure Senders.Inv (s : Senders) : Prop where
  each : ∀ t, s.Holds t (s.calls t)
  own : s.Own

theorem Senders.inv_start : Senders.start.Inv := by
  refine ⟨fun t => ?_, by simp [Senders.Own, Senders.start]⟩
  constructor <;>
    simp [Senders.start, CallPc.Ok, CallPc.locked, CallPc.busy, CallPc.symAt, CallPc.byteAt,
      CallPc.bufAt]

theorem CallPc.busy_of_bufAt {pc : CallPc} {i : Nat} (h : (pc.bufAt i).isSome = true) :
    pc.busy = true := by
  cases pc <;> first | rfl | cases h

theorem Senders.Inv.locked_unique {s : Senders} (h : s.Inv) {t t' : Nat}
    (ht : (s.calls t).locked = true) (ht' : (s.calls t').locked = true) : t = t' :=
  Option.some.inj (((h.each t).mtx ht).symm.trans ((h.each t').mtx ht'))

theorem Senders.Inv.busy_unique {s : Senders} (h : s.Inv) {t t' : Nat}
    (ht : (s.calls t).busy = true) (ht' : (s.calls t').busy = true) : t = t' :=
  Option.some.inj (((h.each t).busy ht).symm.trans ((h.each t').busy ht'))

theorem CallPc.usesSyms_of_symAt {pc : CallPc} {i : Nat} (h : (pc.symAt i).isSome = true) :
    pc.usesSyms = true := by
  cases pc with
  | encode c k =>
      simp only [CallPc.symAt] at h
      split at h
      · exact decide_eq_true (by omega)
      · cases h
  | lockBusy job => cases job <;> first | rfl | cases h
  | copy job k =>
      cases job with
      | samsung c =>
          simp only [CallPc.symAt] at h
          split at h
          · have hi : i < (encodeFrame c.bytes).length := by simpa using h
            exact decide_eq_true (by omega)
          · cases h
      | symbols syms => cases h
  | _ => cases h

theorem CallPc.usesScratch_of_byteAt {pc : CallPc} {i : Nat}
    (h : (pc.byteAt i).isSome = true) : pc.usesScratch = true := by
  cases pc with
  | fill frame fixCs k =>
      simp only [CallPc.byteAt] at h
      split at h
      · exact decide_eq_true (by omega)
      · cases h
  | fix frame n => rfl
  | encode c k =>
      cases c with
      | locked bytes => cases h
      | raw frame fixCs =>
          simp only [CallPc.byteAt] at h
          split at h
          · exact decide_eq_true ‹_›
          · cases h
  | _ => cases h

theorem CallPc.byteAt_encode {frame : List UInt8} {fixCs : Bool} {k i : Nat} {b : UInt8}
    (h : (CallPc.encode (.raw frame fixCs) k).byteAt i = some b) :
    (SamsungCall.raw frame fixCs).bytes[i]? = some b := by
  simp only [CallPc.byteAt] at h
  split at h
  · exact h
  · cases h

/-- Only a statement that encodes changes `syms`, and only one that fills `scratch`. -/
theorem Senders.statement_frame {s s' : Senders} {t : Nat} (h : s.statement t = some s') :
    ((s.calls t).encodes = false → s'.syms = s.syms) ∧
      ((s.calls t).fills = false → s'.scratch = s.scratch) := by
  unfold Senders.statement at h
  cases hpc : s.calls t <;> simp only [hpc] at h
  case out => cases h
  case encode c k =>
      split_ifs at h with hk
      · obtain rfl := Option.some.inj h
        exact ⟨fun hno => absurd hk (of_decide_eq_false hno), fun _ => rfl⟩
      · obtain rfl := Option.some.inj h
        exact ⟨fun _ => rfl, fun _ => rfl⟩
  case fill frame fixCs k =>
      split_ifs at h with hk hfix
      · obtain rfl := Option.some.inj h
        exact ⟨fun _ => rfl, fun hno => absurd hk (of_decide_eq_false hno)⟩
      all_goals
        obtain rfl := Option.some.inj h
        exact ⟨fun _ => rfl, fun _ => rfl⟩
  case fix frame n =>
      split_ifs at h with hmore
      · obtain rfl := Option.some.inj h
        exact ⟨fun _ => rfl, fun hno => absurd hmore (of_decide_eq_false hno)⟩
      · obtain rfl := Option.some.inj h
        exact ⟨fun _ => rfl, fun _ => rfl⟩
  case wait job =>
      split at h <;> obtain rfl := Option.some.inj h <;> exact ⟨fun _ => rfl, fun _ => rfl⟩
  all_goals
    try split_ifs at h
    all_goals
      obtain rfl := Option.some.inj h
      exact ⟨fun _ => rfl, fun _ => rfl⟩

/-- Calls that keep apart leave alone what the other is still to read. -/
theorem KeepsApart.spares {s s' : Senders} {t t' : Nat} (h : KeepsApart s (.statement t))
    (ht : t' ≠ t) (hboth : ¬((s.calls t).locked = true ∧ (s.calls t').locked = true))
    (hstep : s.statement t = some s') :
    (∀ i, ((s.calls t').symAt i).isSome = true → s'.syms i = s.syms i) ∧
      (∀ i, ((s.calls t').byteAt i).isSome = true → s'.scratch i = s.scratch i) := by
  obtain ⟨hsyms, hscratch⟩ := Senders.statement_frame hstep
  have hapart := h t' ht
  simp only [CallPc.apart, Bool.or_eq_true, Bool.and_eq_true, Bool.not_eq_true',
    Bool.and_eq_false_iff] at hapart
  rcases hapart with hlocked | ⟨hencodes, hfills⟩
  · exact absurd hlocked hboth
  constructor
  · intro i hi
    rw [hsyms (hencodes.resolve_right (by simp [CallPc.usesSyms_of_symAt hi]))]
  · intro i hi
    rw [hscratch (hfills.resolve_right (by simp [CallPc.usesScratch_of_byteAt hi]))]

/-- A call goes on: the mutexes spare the others' holds on `s_buf` and on the
mutexes themselves, and the condition their holds on the two static arrays. -/
theorem Senders.Inv.advance {s s₁ : Senders} {t : Nat} {pc : CallPc} (h : s.Inv)
    (hcond : KeepsApart s (.statement t)) (hstep : s.statement t = some (s₁.goto t pc))
    (hcalls : s₁.calls = s.calls)
    (hmtx : ∀ t' ≠ t, (s.calls t').locked = true → s₁.mtx = s.mtx)
    (hbusy : ∀ t' ≠ t, (s.calls t').busy = true → s₁.busyMtx = s.busyMtx ∧ s₁.buf = s.buf)
    (hold : s₁.Holds t pc) (hown : s₁.Own) : (s₁.goto t pc).Inv := by
  refine ⟨fun t' => ?_, hown⟩
  apply Senders.Holds.goto
  by_cases ht : t' = t
  · subst ht
    rw [Senders.goto_self]
    exact hold
  rw [Senders.goto_of_ne s₁ ht, hcalls]
  have hother := h.each t'
  obtain ⟨hsym, hbyte⟩ := hcond.spares ht
    (fun hboth => ht (h.locked_unique hboth.2 hboth.1)) hstep
  refine ⟨hother.ok, ?_, ?_, ?_, ?_, ?_⟩
  · intro hlocked
    rw [hmtx t' ht hlocked]
    exact hother.mtx hlocked
  · intro hb
    rw [(hbusy t' ht hb).1]
    exact hother.busy hb
  · intro i x hx
    have heq : s₁.syms i = s.syms i := hsym i (by rw [hx]; rfl)
    rw [heq]
    exact hother.sym i x hx
  · intro i b hb
    have heq : s₁.scratch i = s.scratch i := hbyte i (by rw [hb]; rfl)
    rw [heq]
    exact hother.byte i b hb
  · intro i x hx
    have hb := CallPc.busy_of_bufAt (by rw [hx]; rfl : ((s.calls t').bufAt i).isSome = true)
    rw [(hbusy t' ht hb).2]
    exact hother.buf i x hx

/-- Only a variable that no other call holds has changed. -/
theorem Senders.Inv.advance_local {s s₁ : Senders} {t : Nat} {pc : CallPc} (h : s.Inv)
    (hcond : KeepsApart s (.statement t)) (hstep : s.statement t = some (s₁.goto t pc))
    (hcalls : s₁.calls = s.calls) (hmtx : s₁.mtx = s.mtx) (hbusy : s₁.busyMtx = s.busyMtx)
    (hbuf : s₁.buf = s.buf) (hold : s₁.Holds t pc) (hown : s₁.Own) : (s₁.goto t pc).Inv :=
  h.advance hcond hstep hcalls (fun _ _ _ => hmtx) (fun _ _ _ => ⟨hbusy, hbuf⟩) hold hown

theorem Senders.scratched_eq {s : Senders} {bytes : List UInt8}
    (h : ∀ i b, bytes[i]? = some b → s.scratch i = b) : s.scratched bytes.length = bytes := by
  apply List.ext_getElem
  · simp [Senders.scratched]
  · intro i h₁ h₂
    simp only [Senders.scratched, List.getElem_map, List.getElem_range]
    exact h i _ (List.getElem?_eq_getElem h₂)

theorem fixSections_succ (frame : List UInt8) (n : Nat) :
    fixSections frame (n + 1) = irCodecSamsungAcFixChecksum (fixSections frame n) (n * 7) := by
  simp [fixSections, List.range_succ]

theorem fixSections_length (frame : List UInt8) (n : Nat) :
    (fixSections frame n).length = frame.length := by
  induction n with
  | zero => rfl
  | succ n ih => rw [fixSections_succ, irCodecSamsungAcFixChecksum_length, ih]

theorem SamsungCall.raw_bytes_length (frame : List UInt8) (fixCs : Bool) :
    (SamsungCall.raw frame fixCs).bytes.length = frame.length := by
  cases fixCs
  · rfl
  · exact fixSections_length frame _

/-- The encoder reads the bytes that the call is to send. -/
theorem Senders.Holds.source {s : Senders} {t k : Nat} {c : SamsungCall}
    (h : s.Holds t (.encode c k)) (hk : k < (encodeFrame c.bytes).length) :
    s.source c = c.bytes := by
  cases c with
  | locked bytes => rfl
  | raw frame fixCs =>
      have hlen := SamsungCall.raw_bytes_length frame fixCs
      have hscratched := Senders.scratched_eq fun i b hb =>
        h.byte i b ((if_pos hk).trans hb)
      rw [hlen] at hscratched
      exact hscratched

/-! One statement of a call. -/

theorem getElem?_succ {α : Type*} {l : List α} {i k : Nat} {x : α}
    (h : (if i < k + 1 then l[i]? else none) = some x) :
    (if i < k then l[i]? else none) = some x ∨ i = k ∧ l[i]? = some x := by
  split at h
  · by_cases hik : i < k
    · rw [if_pos hik]
      exact Or.inl h
    · exact Or.inr ⟨by omega, h⟩
  · cases h

/-- Writing the next entry of what is being written. -/
theorem written_succ {α : Type*} {l : List α} {m : Nat → α} {k : Nat} {v : α}
    (hold : ∀ i x, (if i < k then l[i]? else none) = some x → m i = x)
    (hv : ∀ x, l[k]? = some x → v = x) (i : Nat) (x : α)
    (hx : (if i < k + 1 then l[i]? else none) = some x) : Function.update m k v i = x := by
  rcases getElem?_succ hx with hlt | ⟨rfl, hnew⟩
  · have hne : i ≠ k := by
      rintro rfl
      simp at hlt
    rw [Function.update_of_ne hne]
    exact hold i x hlt
  · rw [Function.update_self]
    exact hv x hnew

theorem getD_of_getElem? {α : Type*} {l : List α} {k : Nat} {x d : α} (h : l[k]? = some x) :
    l.getD k d = x := by
  rw [List.getD_eq_getElem?_getD, h, Option.getD_some]

theorem getElem?_lt {α : Type*} {l : List α} {i : Nat} {x : α} (h : l[i]? = some x) :
    i < l.length :=
  (List.getElem?_eq_some_iff.mp h).1

/-- All entries have been written. -/
theorem written_all {α : Type*} {l : List α} {m : Nat → α} {k : Nat}
    (hold : ∀ i x, (if i < k then l[i]? else none) = some x → m i = x)
    (hk : ¬k < l.length) (i : Nat) (x : α) (hx : l[i]? = some x) : m i = x := by
  have hlt : i < k := Nat.lt_of_lt_of_le (getElem?_lt hx) (Nat.not_lt.mp hk)
  apply hold
  rw [if_pos hlt]
  exact hx

theorem Senders.Inv.fill {s : Senders} {t : Nat} (h : s.Inv) {frame : List UInt8}
    {fixCs : Bool} {k : Nat} (hpc : s.calls t = .fill frame fixCs k)
    (hcond : KeepsApart s (.statement t)) {s' : Senders} (hstep : s.statement t = some s') :
    s'.Inv := by
  have hold := h.each t
  rw [hpc] at hold
  have hs := hstep
  simp only [Senders.statement, hpc] at hs
  split_ifs at hs with hk hfix
  · obtain rfl := Option.some.inj hs
    refine h.advance_local hcond hstep rfl rfl rfl rfl ?_ h.own
    refine ⟨hold.ok, by simp [CallPc.locked], by simp [CallPc.busy], by simp [CallPc.symAt], ?_,
      by simp [CallPc.bufAt]⟩
    exact written_succ hold.byte fun x hx => getD_of_getElem? hx
  · obtain rfl := Option.some.inj hs
    refine h.advance_local hcond hstep rfl rfl rfl rfl ?_ h.own
    refine ⟨⟨hold.ok, by omega⟩, by simp [CallPc.locked], by simp [CallPc.busy],
      by simp [CallPc.symAt], ?_, by simp [CallPc.bufAt]⟩
    exact written_all hold.byte hk
  · obtain rfl := Option.some.inj hs
    refine h.advance_local hcond hstep rfl rfl rfl rfl ?_ h.own
    refine ⟨trivial, by simp [CallPc.locked], by simp [CallPc.busy], by simp [CallPc.symAt], ?_,
      by simp [CallPc.bufAt]⟩
    exact fun i b hb => written_all hold.byte hk i b (CallPc.byteAt_encode hb)

theorem Senders.Inv.fix {s : Senders} {t : Nat} (h : s.Inv) {frame : List UInt8} {n : Nat}
    (hpc : s.calls t = .fix frame n) (hcond : KeepsApart s (.statement t)) {s' : Senders}
    (hstep : s.statement t = some s') : s'.Inv := by
  have hold := h.each t
  rw [hpc] at hold
  obtain ⟨hmod, hn⟩ := hold.ok
  have hs := hstep
  simp only [Senders.statement, hpc] at hs
  split_ifs at hs with hmore
  · obtain rfl := Option.some.inj hs
    refine h.advance_local hcond hstep rfl rfl rfl rfl ?_ h.own
    refine ⟨⟨hmod, by omega⟩, by simp [CallPc.locked], by simp [CallPc.busy],
      by simp [CallPc.symAt], ?_, by simp [CallPc.bufAt]⟩
    intro i b hb
    have hscratched := Senders.scratched_eq fun i b hb => hold.byte i b hb
    rw [fixSections_length] at hscratched
    rw [CallPc.byteAt, fixSections_succ] at hb
    simp only [Senders.fixScratch, hscratched]
    by_cases h₂ : i = n * 7 + 2
    · subst h₂
      rw [Function.update_self]
      exact getD_of_getElem? hb
    rw [Function.update_of_ne h₂]
    by_cases h₁ : i = n * 7 + 1
    · subst h₁
      rw [Function.update_self]
      exact getD_of_getElem? hb
    rw [Function.update_of_ne h₁]
    rw [irCodecSamsungAcFixChecksum_getElem? _ (Ne.symm h₁) (Ne.symm h₂)] at hb
    exact hold.byte i b hb
  · obtain rfl := Option.some.inj hs
    refine h.advance_local hcond hstep rfl rfl rfl rfl ?_ h.own
    refine ⟨trivial, by simp [CallPc.locked], by simp [CallPc.busy], by simp [CallPc.symAt], ?_,
      by simp [CallPc.bufAt]⟩
    intro i b hb
    have hall : n = frame.length / 7 := by omega
    apply hold.byte i b
    rw [CallPc.byteAt, hall]
    exact CallPc.byteAt_encode hb

theorem Senders.Inv.encode {s : Senders} {t : Nat} (h : s.Inv) {c : SamsungCall} {k : Nat}
    (hpc : s.calls t = .encode c k) (hcond : KeepsApart s (.statement t)) {s' : Senders}
    (hstep : s.statement t = some s') : s'.Inv := by
  have hold := h.each t
  rw [hpc] at hold
  have hs := hstep
  simp only [Senders.statement, hpc] at hs
  split_ifs at hs with hk
  · obtain rfl := Option.some.inj hs
    refine h.advance_local hcond hstep rfl rfl rfl rfl ?_ h.own
    refine ⟨trivial, ?_, by simp [CallPc.busy], ?_, ?_, by simp [CallPc.bufAt]⟩
    · cases c with
      | locked bytes => exact hold.mtx
      | raw frame fixCs => simp [CallPc.locked]
    · apply written_succ hold.sym
      intro x hx
      rw [hold.source hk]
      exact getD_of_getElem? hx
    · cases c with
      | locked bytes => simp [CallPc.byteAt]
      | raw frame fixCs =>
          exact fun i b hb => hold.byte i b ((if_pos hk).trans (CallPc.byteAt_encode hb))
  · obtain rfl := Option.some.inj hs
    refine h.advance_local hcond hstep rfl rfl rfl rfl ?_ h.own
    refine ⟨trivial, ?_, by simp [CallPc.busy], ?_, by simp [CallPc.byteAt],
      by simp [CallPc.bufAt]⟩
    · cases c with
      | locked bytes => exact hold.mtx
      | raw frame fixCs => simp [CallPc.locked]
    · exact written_all hold.sym hk

theorem Senders.Inv.lock {s : Senders} {t : Nat} (h : s.Inv) {bytes : List UInt8}
    (hpc : s.calls t = .lock bytes) (hcond : KeepsApart s (.statement t)) {s' : Senders}
    (hstep : s.statement t = some s') : s'.Inv := by
  have hs := hstep
  simp only [Senders.statement, hpc] at hs
  split_ifs at hs with hfree
  obtain rfl := Option.some.inj hs
  refine h.advance hcond hstep rfl ?_ (fun _ _ _ => ⟨rfl, rfl⟩) ?_ h.own
  · intro t' _ hlocked
    rw [(h.each t').mtx hlocked] at hfree
    cases hfree
  · exact ⟨trivial, fun _ => rfl, by simp [CallPc.busy], by simp [CallPc.symAt],
      by simp [CallPc.byteAt], by simp [CallPc.bufAt]⟩

theorem Senders.Inv.lockBusy {s : Senders} {t : Nat} (h : s.Inv) {job : Job}
    (hpc : s.calls t = .lockBusy job) (hcond : KeepsApart s (.statement t)) {s' : Senders}
    (hstep : s.statement t = some s') : s'.Inv := by
  have hold := h.each t
  rw [hpc] at hold
  have hs := hstep
  simp only [Senders.statement, hpc] at hs
  split_ifs at hs with hfree
  obtain rfl := Option.some.inj hs
  refine h.advance hcond hstep rfl (fun _ _ _ => rfl) ?_ ?_ h.own
  · intro t' _ hbusy
    rw [(h.each t').busy hbusy] at hfree
    cases hfree
  · refine ⟨trivial, ?_, fun _ => rfl, ?_, by simp [CallPc.byteAt], by simp [CallPc.bufAt]⟩
    · intro hlocked
      apply hold.mtx
      cases job with
      | samsung c => cases c <;> first | rfl | cases hlocked
      | symbols syms => cases hlocked
    · intro i x hx
      cases job with
      | samsung c => exact hold.sym i x (by simpa [CallPc.symAt] using hx)
      | symbols syms => cases hx

theorem CallPc.locked_copy (job : Job) (k : Nat) :
    (CallPc.copy job k).locked = (CallPc.wait job).locked := by
  cases job with
  | samsung c => cases c <;> rfl
  | symbols syms => rfl

theorem CallPc.locked_trigger (job : Job) :
    (CallPc.trigger job).locked = (CallPc.wait job).locked := by
  cases job with
  | samsung c => cases c <;> rfl
  | symbols syms => rfl

/-- What is copied is the next symbol of the call's frame. -/
theorem Senders.Holds.array {s : Senders} {t k : Nat} {job : Job}
    (h : s.Holds t (.copy job k)) {x : Symbol} (hx : job.frame[k]? = some x) :
    s.array job k = x := by
  cases job with
  | samsung c => exact h.sym k x (by simp only [CallPc.symAt, if_pos (Nat.le_refl k)]; exact hx)
  | symbols syms => exact getD_of_getElem? hx

theorem Senders.Inv.copy {s : Senders} {t : Nat} (h : s.Inv) {job : Job} {k : Nat}
    (hpc : s.calls t = .copy job k) (hcond : KeepsApart s (.statement t)) {s' : Senders}
    (hstep : s.statement t = some s') : s'.Inv := by
  have hold := h.each t
  rw [hpc] at hold
  have hbusy : (s.calls t).busy = true := by
    rw [hpc]
    rfl
  have hs := hstep
  simp only [Senders.statement, hpc] at hs
  split_ifs at hs with hk
  · obtain rfl := Option.some.inj hs
    refine h.advance hcond hstep rfl (fun _ _ _ => rfl) ?_ ?_ h.own
    · intro t' ht hbusy'
      exact absurd (h.busy_unique hbusy' hbusy) ht
    · refine ⟨trivial, ?_, hold.busy, ?_, by simp [CallPc.byteAt], ?_⟩
      · rw [CallPc.locked_copy, ← CallPc.locked_copy job k]
        exact hold.mtx
      · intro i x hx
        cases job with
        | samsung c =>
            apply hold.sym i x
            simp only [CallPc.symAt] at hx ⊢
            split at hx
            · rw [if_pos (by omega)]
              exact hx
            · cases hx
        | symbols syms => cases hx
      · exact written_succ hold.buf fun x hx => hold.array hx
  · obtain rfl := Option.some.inj hs
    refine h.advance_local hcond hstep rfl rfl rfl rfl ?_ h.own
    refine ⟨trivial, ?_, hold.busy, by simp [CallPc.symAt], by simp [CallPc.byteAt], ?_⟩
    · rw [CallPc.locked_trigger, ← CallPc.locked_copy job k]
      exact hold.mtx
    · exact written_all hold.buf hk

theorem Senders.Inv.trigger {s : Senders} {t : Nat} (h : s.Inv) {job : Job}
    (hpc : s.calls t = .trigger job) (hcond : KeepsApart s (.statement t)) {s' : Senders}
    (hstep : s.statement t = some s') : s'.Inv := by
  have hold := h.each t
  rw [hpc] at hold
  have hs := hstep
  simp only [Senders.statement, hpc] at hs
  obtain rfl := Option.some.inj hs
  apply h.advance_local hcond hstep rfl rfl rfl rfl
  · refine ⟨trivial, ?_, hold.busy, by simp [CallPc.symAt], by simp [CallPc.byteAt],
      by simp [CallPc.bufAt]⟩
    rw [← CallPc.locked_trigger]
    exact hold.mtx
  · intro handed hmem
    rcases List.mem_append.mp hmem with hold' | hnew
    · exact h.own handed hold'
    · obtain rfl := List.mem_singleton.mp hnew
      apply List.ext_getElem
      · simp
      · intro i h₁ h₂
        simp only [List.getElem_map, List.getElem_range]
        exact hold.buf i _ (List.getElem?_eq_getElem h₂)

theorem Senders.Holds.out {s : Senders} {t : Nat} : s.Holds t .out :=
  ⟨trivial, by simp [CallPc.locked], by simp [CallPc.busy], by simp [CallPc.symAt],
    by simp [CallPc.byteAt], by simp [CallPc.bufAt]⟩

theorem Senders.Inv.wait {s : Senders} {t : Nat} (h : s.Inv) {job : Job}
    (hpc : s.calls t = .wait job) (hcond : KeepsApart s (.statement t)) {s' : Senders}
    (hstep : s.statement t = some s') : s'.Inv := by
  have hold := h.each t
  rw [hpc] at hold
  have hbusy : (s.calls t).busy = true := by
    rw [hpc]
    rfl
  have hfree : ∀ t' ≠ t, (s.calls t').busy = true → none = s.busyMtx ∧ s.buf = s.buf :=
    fun t' ht hbusy' => absurd (h.busy_unique hbusy' hbusy) ht
  have hs := hstep
  simp only [Senders.statement, hpc] at hs
  split at hs
  · obtain rfl := Option.some.inj hs
    refine h.advance hcond hstep rfl (fun _ _ _ => rfl) hfree ?_ h.own
    exact ⟨trivial, hold.mtx, by simp [CallPc.busy], by simp [CallPc.symAt],
      by simp [CallPc.byteAt], by simp [CallPc.bufAt]⟩
  · obtain rfl := Option.some.inj hs
    exact h.advance hcond hstep rfl (fun _ _ _ => rfl) hfree Senders.Holds.out h.own

theorem Senders.Inv.unlock {s : Senders} {t : Nat} (h : s.Inv) {bytes : List UInt8}
    (hpc : s.calls t = .unlock bytes) (hcond : KeepsApart s (.statement t)) {s' : Senders}
    (hstep : s.statement t = some s') : s'.Inv := by
  have hlocked : (s.calls t).locked = true := by
    rw [hpc]
    rfl
  have hs := hstep
  simp only [Senders.statement, hpc] at hs
  obtain rfl := Option.some.inj hs
  refine h.advance hcond hstep rfl ?_ (fun _ _ _ => ⟨rfl, rfl⟩) Senders.Holds.out h.own
  intro t' ht hlocked'
  exact absurd (h.locked_unique hlocked' hlocked) ht

/-! Runs. -/

theorem Senders.Inv.begin {s s' : Senders} {t : Nat} {job : Job} (h : s.Inv)
    (hstep : s.begin t job = some s') : s'.Inv := by
  have hstart {pc : CallPc} (hnew : s.Holds t pc) : (s.goto t pc).Inv := by
    refine ⟨fun t' => Senders.Holds.goto ?_, h.own⟩
    by_cases ht : t' = t
    · subst ht
      rw [Senders.goto_self]
      exact hnew
    · rw [Senders.goto_of_ne s ht]
      exact h.each t'
  unfold Senders.begin at hstep
  split_ifs at hstep with hbegin
  have haccepted := hbegin.2
  cases job with
  | samsung c =>
      cases c with
      | locked bytes =>
          obtain rfl := Option.some.inj hstep
          apply hstart
          exact ⟨trivial, by simp [CallPc.locked], by simp [CallPc.busy],
            by simp [CallPc.symAt], by simp [CallPc.byteAt], by simp [CallPc.bufAt]⟩
      | raw frame fixCs =>
          obtain rfl := Option.some.inj hstep
          have hgood : ¬badLength frame.length = true := by simpa [Job.accepted] using haccepted
          rw [badLength_iff] at hgood
          apply hstart
          exact ⟨by simp only [CallPc.Ok]; omega, by simp [CallPc.locked], by simp [CallPc.busy],
            by simp [CallPc.symAt], by simp [CallPc.byteAt], by simp [CallPc.bufAt]⟩
  | symbols syms =>
      obtain rfl := Option.some.inj hstep
      apply hstart
      exact ⟨trivial, by simp [CallPc.locked], by simp [CallPc.busy],
        by simp [CallPc.symAt], by simp [CallPc.byteAt], by simp [CallPc.bufAt]⟩

theorem Senders.Inv.statement {s s' : Senders} {t : Nat} (h : s.Inv)
    (hcond : KeepsApart s (.statement t)) (hstep : s.statement t = some s') : s'.Inv := by
  cases hpc : s.calls t with
  | out => simp [Senders.statement, hpc] at hstep
  | lock bytes => exact h.lock hpc hcond hstep
  | fill frame fixCs k => exact h.fill hpc hcond hstep
  | fix frame n => exact h.fix hpc hcond hstep
  | encode c k => exact h.encode hpc hcond hstep
  | lockBusy job => exact h.lockBusy hpc hcond hstep
  | copy job k => exact h.copy hpc hcond hstep
  | trigger job => exact h.trigger hpc hcond hstep
  | wait job => exact h.wait hpc hcond hstep
  | unlock bytes => exact h.unlock hpc hcond hstep

theorem Senders.Inv.step {s s' : Senders} {a : SendAct} (h : s.Inv) (hcond : KeepsApart s a)
    (hstep : senderSystem.step s a = some s') : s'.Inv := by
  cases a with
  | begin t job => exact h.begin hstep
  | statement t => exact h.statement hcond hstep

/-- As long as the calls keep apart in the two static arrays, each frame handed to the
transmitter is the one of its call. -/
theorem own_frames_while_apart (acts : List SendAct)
    (hcond : senderSystem.Meets KeepsApart .start acts) :
    senderSystem.Always Senders.Own .start acts := by
  have hinv := System.always_of_meets (fun _ _ _ h hcond hs => Senders.Inv.step h hcond hs)
    Senders.inv_start hcond
  exact hinv.mono fun _ h => h.own

/-! Two calls. -/

theorem Senders.statement_calls {s s' : Senders} {t t' : Nat}
    (hstep : s.statement t = some s') (ht : t' ≠ t) : s'.calls t' = s.calls t' := by
  unfold Senders.statement at hstep
  split at hstep
  all_goals try split at hstep
  all_goals try split at hstep
  all_goals cases hstep
  all_goals exact Senders.goto_of_ne _ ht _

theorem Senders.begin_calls {s s' : Senders} {t t' : Nat} {job : Job}
    (hstep : s.begin t job = some s') (ht : t' ≠ t) : s'.calls t' = s.calls t' := by
  unfold Senders.begin at hstep
  split_ifs at hstep
  split at hstep
  all_goals cases hstep
  all_goals exact Senders.goto_of_ne _ ht _

/-- A run of the calls 0 and 1 in which they keep apart. -/
def twoApart (s : Senders) : List SendAct → Bool
  | [] => true
  | a :: acts =>
      (match a with
        | .begin t _ => decide (t < 2)
        | .statement t => decide (t < 2) && (s.calls t).apart (s.calls (1 - t))) &&
      (match senderSystem.step s a with
        | none => true
        | some s' => twoApart s' acts)

theorem meets_of_twoApart {acts : List SendAct} {s : Senders}
    (hout : ∀ t, 2 ≤ t → s.calls t = .out) (h : twoApart s acts = true) :
    senderSystem.Meets KeepsApart s acts := by
  induction acts generalizing s with
  | nil => trivial
  | cons a acts ih =>
      intro s' hs
      simp only [twoApart, hs, Bool.and_eq_true] at h
      obtain ⟨hhead, htail⟩ := h
      cases a with
      | begin t job =>
          have ht : t < 2 := of_decide_eq_true hhead
          refine ⟨trivial, ih (fun t' ht' => ?_) htail⟩
          rw [Senders.begin_calls hs (by omega)]
          exact hout t' ht'
      | statement t =>
          simp only [Bool.and_eq_true, decide_eq_true_eq] at hhead
          obtain ⟨ht, hapart⟩ := hhead
          refine ⟨fun t' hne => ?_, ih (fun t' ht' => ?_) htail⟩
          · by_cases ht' : 2 ≤ t'
            · rw [hout t' ht']
              simp [CallPc.apart, CallPc.usesSyms, CallPc.usesScratch]
            · have heq : t' = 1 - t := by omega
              rw [heq]
              exact hapart
          · rw [Senders.statement_calls hs (by omega)]
            exact hout t' ht'

/-- The statements of one call, uninterrupted. -/
def statements (t n : Nat) : List SendAct := List.replicate n (.statement t)

/-- POWER_ON under `s_mtx`, and a raw frame that is put into `scratch` while POWER_ON is
encoded, and encoded while POWER_ON is sent. -/
def twoSenders : List SendAct :=
  .begin 0 (.samsung (.locked sSamsungAcLearnedOn7)) :: statements 0 30 ++
    .begin 1 (.samsung (.raw [2, 146, 15, 0, 0, 0, 240] true)) :: statements 1 10 ++
    statements 0 92 ++ statements 1 60 ++ statements 0 3 ++ statements 1 63

theorem own_frames_while_apart_two :
    (∃ s, senderSystem.exec .start twoSenders = some s ∧
      s.handed.map Prod.fst = [.samsung (.locked sSamsungAcLearnedOn7),
        .samsung (.raw [2, 146, 15, 0, 0, 0, 240] true)]) ∧
      senderSystem.Always Senders.Own .start twoSenders := by
  have hhanded : (senderSystem.exec .start twoSenders).map (fun s => s.handed.map Prod.fst) =
      some [.samsung (.locked sSamsungAcLearnedOn7),
        .samsung (.raw [2, 146, 15, 0, 0, 0, 240] true)] := by
    decide +kernel
  refine ⟨Option.map_eq_some_iff.mp hhanded, own_frames_while_apart _ ?_⟩
  exact meets_of_twoApart (fun _ _ => rfl) (by decide +kernel)

/-- POWER_ON under `s_mtx` is encoded; before it is copied, a raw frame is encoded. -/
def overwritingSenders : List SendAct :=
  .begin 0 (.samsung (.locked sSamsungAcLearnedOn7)) :: statements 0 61 ++
    .begin 1 (.samsung (.raw [2, 146, 15, 0, 0, 0, 240] false)) :: statements 1 68 ++
    statements 0 62

/-- The raw frame goes out in place of POWER_ON. -/
theorem power_on_overwritten :
    ∃ s, senderSystem.exec .start overwritingSenders = some s ∧
      s.handed = [(.samsung (.locked sSamsungAcLearnedOn7),
        encodeFrame [2, 146, 15, 0, 0, 0, 240])] ∧ ¬s.Own := by
  have hhanded : (senderSystem.exec .start overwritingSenders).map Senders.handed =
      some [(.samsung (.locked sSamsungAcLearnedOn7),
        encodeFrame [2, 146, 15, 0, 0, 0, 240])] := by
    decide +kernel
  obtain ⟨s, hexec, hs⟩ := Option.map_eq_some_iff.mp hhanded
  refine ⟨s, hexec, hs, ?_⟩
  intro hown
  have hframe := hown _ (by rw [hs]; exact List.mem_singleton.mpr rfl)
  exact absurd hframe (by decide +kernel)

end Rw612.Ir
