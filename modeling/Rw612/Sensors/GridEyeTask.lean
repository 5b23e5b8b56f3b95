import Rw612.Sensors.GridEye

/-!
Runs of the Grid-EYE task: the probe and the initialisation, then turns of the loop
until it is stopped, over any device on the bus.
-/

namespace Rw612.Sensors

open Lib

section

variable {σ : Type} (i2c : Attached σ) (chunk : Nat)

/-- What happens to the task after it has been started: its loop goes on, or
`amg_task_stop` or the watchdog ends it. -/
inductive AmgEvent where
  | turn
  | stop
  deriving DecidableEq

def amgStep (x : AmgTask × Bus σ) : AmgEvent → AmgTask × Bus σ
  | .turn => (amgTurn chunk x.1).run (Bus.answer i2c) x.2
  | .stop => ({ x.1 with running := false }, x.2)

/-- The task once it has looked for its sensor. -/
def amgBooted (ready : Bool) (addr : UInt8) (d : σ) : AmgTask × Bus σ :=
  (amgBoot ready addr .started).run (Bus.answer i2c) ⟨d, []⟩

def amgRun (ready : Bool) (addr : UInt8) (d : σ) (es : List AmgEvent) : AmgTask × Bus σ :=
  es.foldl (amgStep i2c chunk) (amgBooted i2c ready addr d)

end

/-! The transfers of the driver. -/

/-- A read of the registers of the sensor at `addr`. -/
def RegisterRead (addr : UInt8) (t : Transfer) : Prop :=
  ∃ reg len, t = .writeRead addr [reg] len

section

variable {addr : UInt8}

theorem readChunks_keeps (addr : UInt8) (chunk n off : Nat) (raw : List UInt8) :
    (readChunks addr chunk n off raw).Keeps (RegisterRead addr) (fun _ => True) := by
  induction n generalizing off raw with
  | zero => trivial
  | succ n ih =>
      apply (writeRead_keeps ⟨_, _, rfl⟩).bind
      intro reply _
      split
      · trivial
      · exact ih _ _

/-- A frame that was not read leaves the device as it is. -/
theorem amg8833ReadFrame_keeps (chunk : Nat) (dev : Amg8833) :
    (amg8833ReadFrame chunk dev).Keeps (RegisterRead dev.addr) fun r =>
      (r.1 = AMG8833_OK ∧ r.2.addr = dev.addr ∧ r.2.thermistorQ4 = dev.thermistorQ4) ∨
        (r.1 = AMG8833_ERR_IO ∧ r.2 = dev) := by
  apply (readChunks_keeps _ _ _ _ _).bind
  intro raw _
  cases raw with
  | none => exact .inr ⟨rfl, rfl⟩
  | some raw => exact .inl ⟨rfl, rfl, rfl⟩

theorem amg8833ReadThermistor_keeps (dev : Amg8833) :
    (amg8833ReadThermistor dev).Keeps (RegisterRead dev.addr) fun r =>
      r.2.addr = dev.addr := by
  apply (writeRead_keeps ⟨_, _, rfl⟩).bind
  intro reply _
  split
  · rfl
  · rfl

theorem wrReg_keeps {dev : Amg8833} {reg val : UInt8} :
    (wrReg dev reg val).Keeps (fun t => t.addr = dev.addr) (fun _ => True) :=
  ⟨rfl, fun _ => trivial⟩

theorem amg8833Init_keeps (ready : Bool) (addr : UInt8) (dev : Amg8833) :
    (amg8833Init ready addr dev).Keeps (fun t => t.addr = addr) fun r =>
      r.1 = AMG8833_OK → r.2.addr = addr := by
  unfold amg8833Init
  split
  · exact fun h => by cases h
  · dsimp only
    split
    · exact fun _ => rfl
    · apply wrReg_keeps.bind
      intro rc _
      split
      · exact fun _ => rfl
      · apply wrReg_keeps.bind
        intro rc _
        split
        · exact fun _ => rfl
        · apply wrReg_keeps.bind
          intro rc _
          split
          · exact fun _ => rfl
          · apply wrReg_keeps.bind
            intro rc _
            split
            · exact fun _ => rfl
            · exact fun _ => rfl

end

/-! What holds in every state of the task. -/

/-- A sample that was read, or one that says that it was not. -/
def AmgSample.Ok (s : AmgSample) : Prop :=
  (s.err = 0 ∧ s.Summed) ∨
    s = { AmgSample.zero with err := Int8.ofInt AMG8833_ERR_IO, seq := s.seq }

structure AmgTask.Ok (addr : UInt8) (s : AmgTask) : Prop where
  addr : s.running = true → s.dev.addr = addr
  numbered : Numbered AmgSample.seq s.seq s.last s.published
  samples : ∀ sample ∈ s.published, sample.Ok

theorem AmgTask.Ok.publish {addr : UInt8} {s : AmgTask} (h : s.Ok addr) {dev : Amg8833}
    (hdev : dev.addr = addr) {sample : AmgSample} (hok : sample.Ok)
    (hseq : sample.seq = s.seq + 1) :
    ({ s with dev := dev, seq := s.seq + 1 }.publish sample).Ok addr where
  addr := fun _ => hdev
  numbered := h.numbered.publish hseq
  samples := List.forall_mem_append.mpr ⟨h.samples, by simpa using hok⟩

theorem amgTurn_keeps (chunk : Nat) {addr : UInt8} {s : AmgTask} (h : s.Ok addr) :
    (amgTurn chunk s).Keeps (RegisterRead addr) (AmgTask.Ok addr) := by
  unfold amgTurn
  split
  · exact h
  · rename_i hrunning
    have haddr : s.dev.addr = addr := h.addr (by simpa using hrunning)
    subst haddr
    apply (amg8833ReadFrame_keeps chunk s.dev).bind
    rintro ⟨rc, dev⟩ hframe
    dsimp only at hframe ⊢
    rcases hframe with ⟨rfl, hdev, -⟩ | ⟨rfl, rfl⟩
    · rw [if_pos rfl, ← hdev]
      apply (amg8833ReadThermistor_keeps dev).bind
      rintro ⟨_, dev'⟩ hdev'
      apply AmgTask.Ok.publish (by rw [hdev]; exact h) hdev'
      · obtain ⟨h1, h2, h3, h4, h5⟩ :=
          computeStats_summed { AmgSample.zero with pixelsQ2 := dev.pixelsQ2 }
        exact .inl ⟨rfl, h1, h2, h3, h4, h5⟩
      · rfl
    · rw [if_neg (by decide)]
      exact h.publish rfl (.inr rfl) rfl

theorem amgBoot_keeps (ready : Bool) (addr : UInt8) :
    (amgBoot ready addr .started).Keeps (fun t => t.addr = addr) fun s =>
      s.Ok addr ∧ s.published = [] := by
  have hstarted : ∀ running dev, (running = true → dev.addr = addr) →
      AmgTask.Ok addr { AmgTask.started with running := running, dev := dev } := by
    intro running dev hdev
    exact ⟨hdev, .start, by simp [AmgTask.started]⟩
  apply (probe_keeps (P := fun t => t.addr = addr) rfl).bind
  intro rc _
  apply Prog.Keeps.bind (Q := fun r : Int × Amg8833 => r.1 = AMG8833_OK → r.2.addr = addr)
  · split
    · exact amg8833Init_keeps ready addr _
    · exact fun h => by cases h
  · rintro ⟨lastRc, dev⟩ hdev
    dsimp only at hdev ⊢
    split
    · exact ⟨hstarted false dev (fun h => by cases h), rfl⟩
    · rename_i hready
      exact ⟨hstarted true dev (fun _ => hdev (by simp at hready; exact hready.2)), rfl⟩

theorem amgTurn_stopped {chunk : Nat} {s : AmgTask} (h : s.running = false) :
    amgTurn chunk s = pure s := by
  rw [amgTurn, if_pos (by simp [h])]

/-- What one event adds to the log. -/
theorem amgStep_adds {σ : Type} (i2c : Attached σ) (chunk : Nat) {addr : UInt8}
    {x : AmgTask × Bus σ} (h : x.1.Ok addr) (e : AmgEvent) :
    (amgStep i2c chunk x e).1.Ok addr ∧
      ∃ later, (amgStep i2c chunk x e).2.log = x.2.log ++ later ∧
        (∀ t ∈ later, RegisterRead addr t.1) ∧
        (x.1.running = false → (amgStep i2c chunk x e).1.running = false ∧ later = [] ∧
          (amgStep i2c chunk x e).1.published = x.1.published) := by
  obtain ⟨s, bus⟩ := x
  cases e with
  | turn =>
      have hkeeps := amgTurn_keeps chunk h
      refine ⟨hkeeps.result (Bus.answer i2c) bus, ?_⟩
      by_cases hrunning : s.running = false
      · refine ⟨[], ?_, by simp, fun _ => ?_⟩
        · rw [amgStep, amgTurn_stopped hrunning]
          exact (List.append_nil _).symm
        · rw [amgStep, amgTurn_stopped hrunning]
          exact ⟨hrunning, rfl, rfl⟩
      · obtain ⟨later, hlog, hall⟩ := run_log i2c hkeeps bus
        exact ⟨later, hlog, hall, fun h => absurd h hrunning⟩
  | stop =>
      exact ⟨⟨(fun hrunning => by cases hrunning), h.numbered, h.samples⟩, [],
        (List.append_nil _).symm, by simp, fun _ => ⟨rfl, rfl, rfl⟩⟩

/-- What a whole run adds to the log. -/
theorem amgSteps_add {σ : Type} (i2c : Attached σ) (chunk : Nat) {addr : UInt8}
    (es : List AmgEvent) {x : AmgTask × Bus σ} (h : x.1.Ok addr) :
    (es.foldl (amgStep i2c chunk) x).1.Ok addr ∧
      ∃ later, (es.foldl (amgStep i2c chunk) x).2.log = x.2.log ++ later ∧
        (∀ t ∈ later, RegisterRead addr t.1) ∧
        (x.1.running = false → later = [] ∧
          (es.foldl (amgStep i2c chunk) x).1.published = x.1.published) := by
  induction es generalizing x with
  | nil => exact ⟨h, [], (List.append_nil _).symm, by simp, fun _ => ⟨rfl, rfl⟩⟩
  | cons e es ih =>
      obtain ⟨h', now, hnow, hreads, hstopped⟩ := amgStep_adds i2c chunk h e
      obtain ⟨hlast, later, hlater, hreads', hstopped'⟩ := ih h'
      refine ⟨hlast, now ++ later, ?_, ?_, ?_⟩
      · rw [List.foldl_cons, hlater, hnow, List.append_assoc]
      · intro t ht
        rcases List.mem_append.mp ht with ht | ht
        · exact hreads t ht
        · exact hreads' t ht
      · intro hfalse
        obtain ⟨hrunning, rfl, hpub⟩ := hstopped hfalse
        obtain ⟨rfl, hpub'⟩ := hstopped' hrunning
        exact ⟨rfl, hpub'.trans hpub⟩

/-- Whatever the bus does and whenever the task is stopped: the samples are numbered one
after the other, the last one is kept, each of them is right about its own pixels or says
that there are none. Once the sensor has been found the task only reads its registers,
and if it has not been found there is no transfer any more. -/
theorem amg_task_in_order {σ : Type} (i2c : Attached σ) (chunk : Nat) (ready : Bool)
    (addr : UInt8) (d : σ) (es : List AmgEvent) :
    let booted := amgBooted i2c ready addr d
    let x := amgRun i2c chunk ready addr d es
    x.1.Ok addr ∧
      ∃ later, x.2.log = booted.2.log ++ later ∧ (∀ t ∈ later, RegisterRead addr t.1) ∧
        (booted.1.running = false → later = [] ∧ x.1.published = []) := by
  intro booted x
  obtain ⟨hok, hnone⟩ := (amgBoot_keeps ready addr).result (Bus.answer i2c) ⟨d, []⟩
  obtain ⟨hx, later, hlog, hreads, hstopped⟩ := amgSteps_add i2c chunk es hok
  refine ⟨hx, later, hlog, hreads, fun hfalse => ?_⟩
  obtain ⟨hlater, hpub⟩ := hstopped hfalse
  exact ⟨hlater, hpub.trans hnone⟩

/-! A sensor with registers. -/

section

variable {σ : Type} (i2c : Attached σ)

/-- The device at `addr` answers a read with its registers from the one that is asked
for on. -/
def HasRegisters (addr : UInt8) (regs : σ → UInt8 → UInt8) : Prop :=
  ∀ d reg len, (i2c d (.writeRead addr [reg] len)).1.rc = 0 →
    (i2c d (.writeRead addr [reg] len)).1.rx =
      (List.range len).map fun i => regs d (reg + UInt8.ofNat i)

/-- The device after some transfers. -/
def deviceAfter (d : σ) (ts : List Transfer) : σ := ts.foldl (fun d t => (i2c d t).2) d

/-- The reads of `n` chunks from `off` on, as `amg8833_read_frame` makes them. -/
def chunkReads (addr : UInt8) (chunk off n : Nat) : List Transfer :=
  (List.range n).map fun k =>
    .writeRead addr [AMG8833_REG_T01L + UInt8.ofNat (off + k * chunk)] chunk

/-- While the chunks of one frame are read, its registers hold still: before each of the
reads they are as they were before the first. With one chunk this says nothing. -/
def HoldsStill (addr : UInt8) (regs : σ → UInt8 → UInt8) (d : σ) (chunk : Nat) : Prop :=
  ∀ k < AMG8833_FRAME_BYTES / chunk, ∀ i < AMG8833_FRAME_BYTES,
    regs (deviceAfter i2c d (chunkReads addr chunk 0 k)) (AMG8833_REG_T01L + UInt8.ofNat i) =
      regs d (AMG8833_REG_T01L + UInt8.ofNat i)

/-- The registers hold these measurements, in two's complement of twelve bits. -/
def Measures (regs : UInt8 → UInt8) (temps : Fin AMG8833_PIXELS → Int) : Prop :=
  ∀ i, -2048 ≤ temps i ∧ temps i < 2048 ∧
    (((word (regs (AMG8833_REG_T01L + UInt8.ofNat (i * 2 + 1)))
      (regs (AMG8833_REG_T01L + UInt8.ofNat (i * 2)))).toNat : Int) - temps i) % 4096 = 0

variable {i2c}

theorem chunkReads_succ (addr : UInt8) (chunk off n : Nat) :
    chunkReads addr chunk off (n + 1) =
      .writeRead addr [AMG8833_REG_T01L + UInt8.ofNat off] chunk ::
        chunkReads addr chunk (off + chunk) n := by
  simp only [chunkReads, List.range_succ_eq_map, List.map_cons, List.map_map, Nat.zero_mul,
    Nat.add_zero, Function.comp_def, Nat.succ_mul]
  congr 2
  funext k
  rw [Nat.add_assoc off chunk, Nat.add_comm chunk]

/-- A chunk read while the registers hold the frame `R`. -/
theorem chunk_registers (held : UInt8 → UInt8) {R : Nat → UInt8} {off chunk : Nat}
    (hroom : off + chunk ≤ AMG8833_FRAME_BYTES)
    (hR : ∀ i < AMG8833_FRAME_BYTES, held (AMG8833_REG_T01L + UInt8.ofNat i) = R i) :
    ((List.range chunk).map fun i =>
        held (AMG8833_REG_T01L + UInt8.ofNat off + UInt8.ofNat i)) =
      (List.range chunk).map fun i => R (off + i) := by
  apply List.map_congr_left
  intro i hi
  rw [List.mem_range] at hi
  rw [UInt8.add_assoc, ← UInt8.ofNat_add]
  exact hR (off + i) (by omega)

/-- The chunks make up the frame `R`, unless one of them fails. -/
theorem readChunks_registers {addr : UInt8} {regs : σ → UInt8 → UInt8}
    (hregs : HasRegisters i2c addr regs) {chunk : Nat} (hchunk : chunk ≠ 0) {R : Nat → UInt8}
    (n off : Nat) (raw : List UInt8) (bus : Bus σ)
    (hroom : off + n * chunk ≤ AMG8833_FRAME_BYTES)
    (hR : ∀ k < n, ∀ i < AMG8833_FRAME_BYTES,
      regs (deviceAfter i2c bus.dev (chunkReads addr chunk off k))
        (AMG8833_REG_T01L + UInt8.ofNat i) = R i) :
    ((readChunks addr chunk n off raw).run (Bus.answer i2c) bus).1 = none ∨
      ((readChunks addr chunk n off raw).run (Bus.answer i2c) bus).1 =
        some (raw ++ (List.range (n * chunk)).map fun i => R (off + i)) := by
  induction n generalizing off raw bus with
  | zero => exact .inr (by simp [readChunks])
  | succ n ih =>
      rw [Nat.succ_mul] at hroom
      have hempty : ¬([AMG8833_REG_T01L + UInt8.ofNat off] = [] ∨ chunk = 0) := by simp [hchunk]
      have hreply := hregs bus.dev (AMG8833_REG_T01L + UInt8.ofNat off) chunk
      have hnow := chunk_registers (regs bus.dev) (by omega : off + chunk ≤ AMG8833_FRAME_BYTES)
        (hR 0 (Nat.zero_lt_succ n))
      -- the reads that follow are those of the shorter frame
      have hlater : ∀ k < n, ∀ i < AMG8833_FRAME_BYTES,
          regs (deviceAfter i2c
            (i2c bus.dev (.writeRead addr [AMG8833_REG_T01L + UInt8.ofNat off] chunk)).2
            (chunkReads addr chunk (off + chunk) k)) (AMG8833_REG_T01L + UInt8.ofNat i) = R i := by
        intro k hk i hi
        have hread := hR (k + 1) (Nat.succ_lt_succ hk) i hi
        rwa [chunkReads_succ] at hread
      simp only [readChunks, Prog.run_bind, run_writeRead, i2cBusWriteRead, if_neg hempty,
        Bus.transfer]
      by_cases hrc :
          (i2c bus.dev (.writeRead addr [AMG8833_REG_T01L + UInt8.ofNat off] chunk)).1.rc = 0
      · rw [if_neg (not_not.mpr hrc), hreply hrc, hnow]
        rcases ih (off + chunk) _ ⟨_, _⟩ (by omega) hlater with h | h
        · exact .inl h
        · refine .inr (h.trans ?_)
          rw [Nat.succ_mul, Nat.add_comm (n * chunk), List.range_add, List.map_append,
            List.map_map, List.append_assoc]
          simp only [Function.comp_def, Nat.add_assoc]
      · rw [if_pos hrc]
        exact .inl rfl

/-- A frame that is read is the one that the registers hold when the read begins. -/
theorem amg8833ReadFrame_exact {dev : Amg8833} {regs : σ → UInt8 → UInt8}
    (hregs : HasRegisters i2c dev.addr regs) {chunk : Nat} (hchunk : chunk ∣ AMG8833_FRAME_BYTES)
    (bus : Bus σ) (hstill : HoldsStill i2c dev.addr regs bus.dev chunk)
    {temps : Fin AMG8833_PIXELS → Int} (htemps : Measures (regs bus.dev) temps)
    (hok : ((amg8833ReadFrame chunk dev).run (Bus.answer i2c) bus).1.1 = AMG8833_OK) :
    ((amg8833ReadFrame chunk dev).run (Bus.answer i2c) bus).1.2.pixelsQ2.toList.map Int16.toInt =
      List.ofFn temps := by
  have hchunk0 : chunk ≠ 0 := by
    rintro rfl
    exact absurd (Nat.eq_zero_of_zero_dvd hchunk) (by decide)
  have hsize : AMG8833_FRAME_BYTES / chunk * chunk = AMG8833_FRAME_BYTES :=
    Nat.div_mul_cancel hchunk
  have hread := readChunks_registers hregs hchunk0 (AMG8833_FRAME_BYTES / chunk) 0 [] bus
    (by rw [hsize, Nat.zero_add]) hstill
  rw [hsize] at hread
  simp only [amg8833ReadFrame, Prog.run_bind] at hok ⊢
  rcases hread with hread | hread
  · rw [hread] at hok
    cases hok
  · rw [hread]
    have hget : ∀ k < AMG8833_FRAME_BYTES, (([] : List UInt8) ++
        (List.range AMG8833_FRAME_BYTES).map fun i =>
          regs bus.dev (AMG8833_REG_T01L + UInt8.ofNat (0 + i))).getD k 0 =
        regs bus.dev (AMG8833_REG_T01L + UInt8.ofNat k) := by
      intro k hk
      rw [List.nil_append, List.getD_eq_getElem?_getD, List.getElem?_map, List.getElem?_range hk,
        Option.map_some, Option.getD_some, Nat.zero_add]
    change (Vector.ofFn _).toList.map Int16.toInt = _
    rw [Vector.toList_ofFn, List.map_ofFn]
    congr 1
    funext i
    have hi : (i : Nat) < 64 := i.isLt
    obtain ⟨hlo, hhi, hmod⟩ := htemps i
    rw [Function.comp_apply, pixelOf, hget _ (by unfold AMG8833_FRAME_BYTES AMG8833_PIXELS; omega),
      hget _ (by unfold AMG8833_FRAME_BYTES AMG8833_PIXELS; omega), signExtend12_toInt]
    generalize (word _ _).toNat = w at hmod ⊢
    split
    · omega
    · omega

end

/-- The statistics of a frame that shows these temperatures. -/
theorem AmgSample.Summed.of_temps {s : AmgSample} (h : s.Summed)
    {temps : Fin AMG8833_PIXELS → Int}
    (htemps : s.pixelsQ2.toList.map Int16.toInt = List.ofFn temps) :
    (∀ i, s.minQ2.toInt ≤ temps i ∧ temps i ≤ s.maxQ2.toInt) ∧
      (∃ i, temps i = s.minQ2.toInt) ∧ (∃ i, temps i = s.maxQ2.toInt) ∧
      s.avgQ2.toInt = (List.ofFn temps).sum.tdiv AMG8833_PIXELS := by
  have hshown : ∀ v ∈ s.pixelsQ2.toList, ∃ i, temps i = v.toInt := by
    intro v hv
    have hmem := List.mem_map_of_mem (f := Int16.toInt) hv
    rw [htemps] at hmem
    exact List.mem_ofFn.mp hmem
  refine ⟨fun i => ?_, hshown _ h.min_mem, hshown _ h.max_mem, ?_⟩
  · have hmem : temps i ∈ List.ofFn temps := List.mem_ofFn.mpr ⟨i, rfl⟩
    rw [← htemps] at hmem
    obtain ⟨v, hv, hvi⟩ := List.mem_map.mp hmem
    rw [← hvi]
    exact h.bounds v hv
  · rw [h.avg, htemps]

/-- A turn of a running task over a sensor with registers: whatever has happened before, the
sample that it publishes shows the temperatures that the sensor holds when the turn begins,
with their minimum, maximum and mean, or it says that the read has failed. -/
theorem amg_sample_exact {σ : Type} (i2c : Attached σ) (regs : σ → UInt8 → UInt8) (chunk : Nat)
    (ready : Bool) (addr : UInt8) (d : σ) (es : List AmgEvent)
    (temps : Fin AMG8833_PIXELS → Int) (hregs : HasRegisters i2c addr regs)
    (hchunk : chunk ∣ AMG8833_FRAME_BYTES)
    (hrunning : (amgRun i2c chunk ready addr d es).1.running = true)
    (hstill : HoldsStill i2c addr regs (amgRun i2c chunk ready addr d es).2.dev chunk)
    (htemps : Measures (regs (amgRun i2c chunk ready addr d es).2.dev) temps) :
    ∃ sample, (amgRun i2c chunk ready addr d (es ++ [.turn])).1.published =
        (amgRun i2c chunk ready addr d es).1.published ++ [sample] ∧
      (sample.err = 0 → sample.pixelsQ2.toList.map Int16.toInt = List.ofFn temps ∧
        (∀ i, sample.minQ2.toInt ≤ temps i ∧ temps i ≤ sample.maxQ2.toInt) ∧
        (∃ i, temps i = sample.minQ2.toInt) ∧ (∃ i, temps i = sample.maxQ2.toInt) ∧
        sample.avgQ2.toInt = (List.ofFn temps).sum.tdiv AMG8833_PIXELS) := by
  have hbooted := ((amgBoot_keeps ready addr).result (Bus.answer i2c) ⟨d, []⟩).1
  have hok : (amgRun i2c chunk ready addr d es).1.Ok addr := (amgSteps_add i2c chunk es hbooted).1
  have hnext : amgRun i2c chunk ready addr d (es ++ [.turn]) =
      amgStep i2c chunk (amgRun i2c chunk ready addr d es) .turn := List.foldl_concat ..
  rw [hnext]
  generalize amgRun i2c chunk ready addr d es = x at hok hrunning hstill htemps
  obtain ⟨s, bus⟩ := x
  have haddr := hok.addr hrunning
  subst haddr
  have hexact := amg8833ReadFrame_exact hregs hchunk bus hstill htemps
  have hresult := (amg8833ReadFrame_keeps chunk s.dev).result (Bus.answer i2c) bus
  have hgo : ¬(!s.running) = true := by simpa using hrunning
  rw [amgStep, amgTurn, if_neg hgo, Prog.run_bind]
  generalize (amg8833ReadFrame chunk s.dev).run (Bus.answer i2c) bus = r at hexact hresult
  obtain ⟨⟨rc, dev⟩, bus'⟩ := r
  dsimp only at hexact hresult ⊢
  rcases hresult with ⟨rfl, -⟩ | ⟨rfl, rfl⟩
  · rw [if_pos rfl, Prog.run_bind]
    refine ⟨_, rfl, fun _ => ?_⟩
    have hsummed := computeStats_summed { AmgSample.zero with pixelsQ2 := dev.pixelsQ2 }
    exact ⟨hexact rfl, hsummed.of_temps (hexact rfl)⟩
  · rw [if_neg (by decide)]
    have herr : Int8.ofInt AMG8833_ERR_IO ≠ 0 := by decide
    exact ⟨_, rfl, fun hzero => absurd hzero herr⟩

/-- A sensor in a room at three degrees below zero; its other registers can be written. -/
def coldSensor : Attached (UInt8 → UInt8) := fun d t =>
  match t with
  | .write _ [reg, v] => (⟨0, []⟩, Function.update d reg v)
  | .writeRead _ [reg] len => (⟨0, (List.range len).map fun i => d (reg + UInt8.ofNat i)⟩, d)
  | _ => (⟨0, []⟩, d)

def coldRegisters (reg : UInt8) : UInt8 := if reg &&& 1 = 0 then 0xF4 else 0x0F

theorem amg_sample_exact_cold :
    ∃ sample, (amgRun coldSensor 32 true 0x69 coldRegisters ([.turn] ++ [.turn])).1.published =
        (amgRun coldSensor 32 true 0x69 coldRegisters [.turn]).1.published ++ [sample] ∧
      sample.err = 0 ∧ sample.avgQ2.toInt = -12 := by
  have hstill : ∀ d, HoldsStill coldSensor 0x69 (fun d => d) d 32 := by
    intro d k hk i _
    change k < 4 at hk
    interval_cases k <;> rfl
  obtain ⟨sample, hpublished, hexact⟩ := amg_sample_exact coldSensor (fun d => d) 32
    true 0x69 coldRegisters [.turn] (fun _ => -12) (fun _ _ _ _ => rfl) (by decide)
    (by decide +kernel) (hstill _) (by unfold Measures; decide +kernel)
  have hlast : (amgRun coldSensor 32 true 0x69 coldRegisters
      ([.turn] ++ [.turn])).1.published.getLast?.map AmgSample.err = some 0 := by
    decide +kernel
  rw [hpublished, List.getLast?_concat] at hlast
  have herr : sample.err = 0 := Option.some.inj hlast
  refine ⟨sample, hpublished, herr, ?_⟩
  rw [(hexact herr).2.2.2.2]
  decide

end Rw612.Sensors
