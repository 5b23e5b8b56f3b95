import Rw612.Lib.Range

/-!
The OTA core of `app_ota.c`: a session that is opened by `begin`, filled by
`chunk` and closed by `commit` or `abort`. Each call has an unlocked part, which
checks its arguments and may return at once, and a part under `s_lock`. What the
flash driver and the boot loader answer in the locked part is an input,
`Driver`, so nothing is assumed about success or failure.

The receiving slot is modelled by its bytes together with the number of times
each byte was programmed since it was last erased.
-/

namespace Rw612.Ota

open Lib

/-- `app_ota_state_t` -/
inductive State where
  | idle
  | ready
  | writing
  | committed
  | failed
  deriving DecidableEq, Repr

/-- `app_ota_err_t` -/
inductive Err where
  | ok
  | param
  | invalidState
  | invalidOffset
  | writeFailed
  | commitFailed
  | aborted
  | initFailed
  deriving DecidableEq, Repr

def Err.code : Err → Int
  | .ok => 0
  | .param => 1
  | .invalidState => 2
  | .invalidOffset => 3
  | .writeFailed => 4
  | .commitFailed => 5
  | .aborted => 6
  | .initFailed => 7

/-- `app_ota_status_t` -/
structure Status where
  state : State
  lastErr : Err
  bytesReceived : UInt32
  totalSize : UInt32
  deriving DecidableEq, Repr

structure FlashArea where
  faSize : Nat
  deriving DecidableEq, Repr

structure Flash where
  bytes : Nat → UInt8
  programs : Nat → Nat

def Flash.blank : Flash where
  bytes _ := 0xFF
  programs _ := 0

/-- The answers of `flash_area_open`, `_erase`, `_write` and of
`boot_request_upgrade` within one locked section. A failing erase or write
reaches the cells that `eraseHit` or `writeHit` selects. -/
structure Driver where
  openRc : Int
  openFa : Bool
  eraseRc : Int
  eraseHit : Nat → Bool
  writeRc : Int
  writeHit : Nat → Bool
  upgradeRc : Int

/-- Every driver call succeeds. -/
def Driver.success : Driver where
  openRc := 0
  openFa := true
  eraseRc := 0
  eraseHit := fun _ => false
  writeRc := 0
  writeHit := fun _ => false
  upgradeRc := 0

/-- No call of a driver fails. -/
structure Driver.Succeeds (d : Driver) : Prop where
  openRc : d.openRc = 0
  openFa : d.openFa = true
  eraseRc : d.eraseRc = 0
  writeRc : 0 ≤ d.writeRc
  upgradeRc : d.upgradeRc = 0

/-- The cells a write reaches: all of them unless `rc < 0`. -/
def Driver.writes (d : Driver) (p : Nat) : Bool :=
  decide (0 ≤ d.writeRc) || d.writeHit p

def Driver.erases (d : Driver) (fa : FlashArea) (p : Nat) : Bool :=
  decide (p < fa.faSize) && (decide (d.eraseRc = 0) || d.eraseHit p)

def flashAreaErase (f : Flash) (fa : FlashArea) (d : Driver) : Flash where
  bytes p := if d.erases fa p then 0xFF else f.bytes p
  programs p := if d.erases fa p then 0 else f.programs p

def flashAreaWrite (f : Flash) (off : Nat) (data : List UInt8) (d : Driver) :
    Flash where
  bytes := patch f.bytes d.writes off data
  programs p :=
    if d.writes p = true ∧ off ≤ p ∧ p < off + data.length then
      f.programs p + 1
    else f.programs p

/-- The static variables of `app_ota.c`, with the slot they act on. `nullWrite`
records a `flash_area_write` made while `s_upload_fa` was NULL. -/
structure Core where
  inited : Bool
  st : Status
  cb : Option Nat
  cbArg : Option Nat
  imgReady : Bool
  uploadFa : Option FlashArea
  flash : Flash
  rebootScheduled : Bool
  nullWrite : Bool

def Core.powerUp (flash : Flash) : Core where
  inited := false
  st := ⟨.idle, .ok, 0, 0⟩
  cb := none
  cbArg := none
  imgReady := false
  uploadFa := none
  flash := flash
  rebootScheduled := false
  nullWrite := false

/-- `s_st.last_err = e` -/
def Core.withErr (c : Core) (e : Err) : Core :=
  {c with st := {c.st with lastErr := e}}

/-- `s_st.state = APP_OTA_STATE_FAILED; s_st.last_err = e` -/
def Core.fail (c : Core) (e : Err) : Core :=
  {c with st := {c.st with state := .failed, lastErr := e}}

/-- A session that accepts chunks. -/
def Core.live (c : Core) : Prop := c.st.state = .ready ∨ c.st.state = .writing

instance (c : Core) : Decidable c.live := by
  unfold Core.live
  infer_instance

def otaPrepareStorage (slot : FlashArea) (c : Core) (d : Driver)
    (totalSize : UInt32) : Core × Err :=
  let c := {c with uploadFa := if d.openFa then some slot else none}
  if d.openRc ≠ 0 ∨ d.openFa = false then (c, .writeFailed)
  else if slot.faSize < totalSize.toNat then
    ({c with uploadFa := none}, .param)
  else
    let c := {c with flash := flashAreaErase c.flash slot d}
    if d.eraseRc ≠ 0 then ({c with uploadFa := none}, .writeFailed)
    else ({c with imgReady := true}, .ok)

def appOtaInitLocked (c : Core) (cb userArg : Option Nat) : Core :=
  {c with
    cb := cb
    cbArg := userArg
    st := ⟨.idle, .ok, 0, 0⟩
    imgReady := false
    uploadFa := none}

/-- The first half of `app_ota_begin` under the lock: the previous upload goes. -/
def Core.dropUpload (c : Core) : Core :=
  {c with
    uploadFa := none
    imgReady := false
    st := {c.st with bytesReceived := 0, totalSize := 0}}

def appOtaBeginLocked (slot : FlashArea) (c : Core) (d : Driver)
    (totalSize : UInt32) : Core × Err :=
  match otaPrepareStorage slot c.dropUpload d totalSize with
  | (c, .ok) => ({c with st := ⟨.ready, .ok, 0, totalSize⟩}, .ok)
  | (c, rc) => (c.fail rc, rc)

/-- `flash_area_write(s_upload_fa, ...)` -/
def Core.flashWrite (c : Core) (d : Driver) (offset : UInt32)
    (data : List UInt8) : Core :=
  match c.uploadFa with
  | none => {c with nullWrite := true}
  | some _ => {c with flash := flashAreaWrite c.flash offset.toNat data d}

def appOtaChunkLocked (c : Core) (d : Driver) (offset : UInt32)
    (data : List UInt8) : Core × Err :=
  if c.st.state ≠ .ready ∧ c.st.state ≠ .writing then
    (c.withErr .invalidState, .invalidState)
  -- strict in-order policy: neither holes nor repetitions
  else if offset ≠ c.st.bytesReceived then
    (c.withErr .invalidOffset, .invalidOffset)
  else if c.st.totalSize ≠ 0 ∧
      c.st.totalSize.toNat < offset.toNat + data.length then
    (c.fail .param, .param)
  else
    let c := c.flashWrite d offset data
    if d.writeRc < 0 then (c.fail .writeFailed, .writeFailed)
    else
      ({c with st := {c.st with
          bytesReceived := c.st.bytesReceived + UInt32.ofNat data.length
          state := .writing
          lastErr := .ok}}, .ok)

def appOtaCommitLocked (c : Core) (d : Driver) : Core × Err :=
  if c.st.state ≠ .writing then (c.withErr .invalidState, .invalidState)
  else if c.st.totalSize ≠ 0 ∧ c.st.bytesReceived ≠ c.st.totalSize then
    -- incomplete: the staged payload is kept so that the client can resume
    (c.withErr .invalidOffset, .invalidOffset)
  else if d.upgradeRc ≠ 0 then (c.fail .commitFailed, .commitFailed)
  else
    ({c with
      st := {c.st with state := .committed, lastErr := .ok}
      -- `app_ota_reboot_after_ms`, called once the lock is released
      rebootScheduled := true}, .ok)

def appOtaAbortLocked (c : Core) : Core :=
  {c with
    st := ⟨.idle, .aborted, 0, 0⟩
    uploadFa := none
    imgReady := false}

/-- The calls of `app_ota.h` that lock `s_lock` and change the session. The data
of a chunk is what its pointer and length denote; NULL denotes no bytes. The
header given to `app_ota_commit` is ignored by it. -/
inductive Call where
  | init (cb userArg : Option Nat)
  | begin (totalSize : UInt32)
  | chunk (offset : UInt32) (data : List UInt8)
  | commit (header : List UInt8)
  | abort
  deriving DecidableEq, Repr

/-- The checks before `k_mutex_lock`: an error is returned without the lock
being taken. `app_ota_abort`, which has no return value, stands as `ok`. -/
def Call.precheck (c : Core) : Call → Option Err
  | .init _ _ => none
  | .begin totalSize =>
      if !c.inited then some .invalidState
      else if totalSize = 0 then some .param
      else none
  | .chunk _ data =>
      if !c.inited then some .invalidState
      else if data = [] then some .param
      else if 0xFFFF < data.length then some .param
      else if !c.imgReady then some .invalidState
      else none
  | .commit _ =>
      if !c.inited then some .invalidState
      else if !c.imgReady then some .invalidState
      else none
  | .abort => if !c.inited then some .ok else none

/-- What a call does before it waits for the lock. -/
def Call.entered (c : Core) : Call → Core
  | .init _ _ => {c with inited := true}
  | _ => c

/-- The part between `k_mutex_lock` and `k_mutex_unlock`. -/
def Call.locked (slot : FlashArea) (c : Core) (d : Driver) : Call → Core × Err
  | .init cb userArg => (appOtaInitLocked c cb userArg, .ok)
  | .begin totalSize => appOtaBeginLocked slot c d totalSize
  | .chunk offset data => appOtaChunkLocked c d offset data
  | .commit _ => appOtaCommitLocked c d
  | .abort => (appOtaAbortLocked c, .ok)

/-- One call that no other thread interrupts. -/
def Call.run (slot : FlashArea) (c : Core) (d : Driver) (call : Call) :
    Core × Err :=
  match call.precheck c with
  | some rc => (c, rc)
  | none => call.locked slot (call.entered c) d

/-! What one locked section can do. -/

theorem Core.live_iff (c : Core) :
    c.live ↔ ¬(c.st.state ≠ .ready ∧ c.st.state ≠ .writing) := by
  simp only [Core.live, ne_eq, not_and_or, not_not]

@[simp] theorem Core.withErr_flash (c : Core) (e : Err) :
    (c.withErr e).flash = c.flash := rfl

@[simp] theorem Core.fail_flash (c : Core) (e : Err) :
    (c.fail e).flash = c.flash := rfl

@[simp] theorem Core.flashWrite_st (c : Core) (d : Driver) (offset : UInt32)
    (data : List UInt8) : (c.flashWrite d offset data).st = c.st := by
  unfold Core.flashWrite
  split <;> rfl

@[simp] theorem Core.flashWrite_inited (c : Core) (d : Driver)
    (offset : UInt32) (data : List UInt8) :
    (c.flashWrite d offset data).inited = c.inited := by
  unfold Core.flashWrite
  split <;> rfl

/-- `begin` either opens a session on the erased slot or fails. -/
theorem appOtaBeginLocked_cases (slot : FlashArea) (c : Core) (d : Driver)
    (totalSize : UInt32) :
    ((appOtaBeginLocked slot c d totalSize).2 = .ok ∧
      totalSize.toNat ≤ slot.faSize ∧ d.eraseRc = 0 ∧
      (appOtaBeginLocked slot c d totalSize).1 = {c with
        uploadFa := some slot
        imgReady := true
        st := ⟨.ready, .ok, 0, totalSize⟩
        flash := flashAreaErase c.flash slot d}) ∨
    ((appOtaBeginLocked slot c d totalSize).2 ≠ .ok ∧
      (appOtaBeginLocked slot c d totalSize).1.st.state = .failed ∧
      (appOtaBeginLocked slot c d totalSize).1.inited = c.inited ∧
      (appOtaBeginLocked slot c d totalSize).1.nullWrite = c.nullWrite) := by
  unfold appOtaBeginLocked otaPrepareStorage Core.dropUpload
  by_cases hopen : d.openRc ≠ 0 ∨ d.openFa = false
  · right; simp [Core.fail, hopen]
  · by_cases hsize : slot.faSize < totalSize.toNat
    · right; simp [Core.fail, hopen, hsize]
    · by_cases herase : d.eraseRc = 0
      · left
        obtain ⟨hrc, hfa⟩ : d.openRc = 0 ∧ d.openFa = true := by
          simpa using hopen
        simp only [hrc, hfa, hsize, herase, ne_eq, not_true_eq_false,
          Bool.true_eq_false, or_self, if_false, if_true, true_and, and_true]
        exact Nat.le_of_not_lt hsize
      · right; simp [Core.fail, hopen, hsize, herase]

/-- The four ways in which `chunk` refuses its data, and the one in which it
stores it. -/
theorem appOtaChunkLocked_cases (c : Core) (d : Driver) (offset : UInt32)
    (data : List UInt8) :
    (¬ c.live ∧ appOtaChunkLocked c d offset data =
      (c.withErr .invalidState, .invalidState)) ∨
    (c.live ∧ offset ≠ c.st.bytesReceived ∧
      appOtaChunkLocked c d offset data =
        (c.withErr .invalidOffset, .invalidOffset)) ∨
    (c.live ∧ offset = c.st.bytesReceived ∧
      appOtaChunkLocked c d offset data = (c.fail .param, .param)) ∨
    (c.live ∧ offset = c.st.bytesReceived ∧
      (c.st.totalSize ≠ 0 →
        offset.toNat + data.length ≤ c.st.totalSize.toNat) ∧
      d.writeRc < 0 ∧ appOtaChunkLocked c d offset data =
        ((c.flashWrite d offset data).fail .writeFailed, .writeFailed)) ∨
    (c.live ∧ offset = c.st.bytesReceived ∧
      (c.st.totalSize ≠ 0 →
        offset.toNat + data.length ≤ c.st.totalSize.toNat) ∧
      0 ≤ d.writeRc ∧ appOtaChunkLocked c d offset data =
        ({c.flashWrite d offset data with st := {c.st with
          bytesReceived := c.st.bytesReceived + UInt32.ofNat data.length
          state := .writing
          lastErr := .ok}}, .ok)) := by
  unfold appOtaChunkLocked
  by_cases hlive : c.live
  · rw [if_neg ((Core.live_iff c).mp hlive)]
    by_cases hoff : offset = c.st.bytesReceived
    · rw [if_neg (not_not.mpr hoff)]
      by_cases hbig : c.st.totalSize ≠ 0 ∧
          c.st.totalSize.toNat < offset.toNat + data.length
      · rw [if_pos hbig]
        exact Or.inr (Or.inr (Or.inl ⟨hlive, hoff, rfl⟩))
      · rw [if_neg hbig]
        dsimp only
        have hfits : c.st.totalSize ≠ 0 →
            offset.toNat + data.length ≤ c.st.totalSize.toNat :=
          fun hne => Nat.le_of_not_lt fun hlt => hbig ⟨hne, hlt⟩
        by_cases hrc : d.writeRc < 0
        · rw [if_pos hrc]
          exact Or.inr (Or.inr (Or.inr (Or.inl ⟨hlive, hoff, hfits, hrc, rfl⟩)))
        · rw [if_neg hrc, Core.flashWrite_st]
          exact Or.inr (Or.inr (Or.inr (Or.inr
            ⟨hlive, hoff, hfits, by omega, rfl⟩)))
    · rw [if_pos hoff]
      exact Or.inr (Or.inl ⟨hlive, hoff, rfl⟩)
  · rw [if_pos (not_not.mp ((Core.live_iff c).not.mp hlive))]
    exact Or.inl ⟨hlive, rfl⟩

theorem appOtaCommitLocked_cases (c : Core) (d : Driver) :
    (c.st.state ≠ .writing ∧ appOtaCommitLocked c d =
      (c.withErr .invalidState, .invalidState)) ∨
    (c.st.state = .writing ∧ c.st.bytesReceived ≠ c.st.totalSize ∧
      appOtaCommitLocked c d = (c.withErr .invalidOffset, .invalidOffset)) ∨
    (c.st.state = .writing ∧
      appOtaCommitLocked c d = (c.fail .commitFailed, .commitFailed)) ∨
    (c.st.state = .writing ∧
      (c.st.totalSize ≠ 0 → c.st.bytesReceived = c.st.totalSize) ∧
      appOtaCommitLocked c d = ({c with
        st := {c.st with state := .committed, lastErr := .ok}
        rebootScheduled := true}, .ok)) := by
  unfold appOtaCommitLocked
  by_cases hstate : c.st.state = .writing
  · rw [if_neg (not_not.mpr hstate)]
    by_cases hshort : c.st.totalSize ≠ 0 ∧ c.st.bytesReceived ≠ c.st.totalSize
    · rw [if_pos hshort]
      exact Or.inr (Or.inl ⟨hstate, hshort.2, rfl⟩)
    · rw [if_neg hshort]
      by_cases hup : d.upgradeRc = 0
      · rw [if_neg (not_not.mpr hup)]
        refine Or.inr (Or.inr (Or.inr ⟨hstate, fun hne => ?_, rfl⟩))
        by_contra hdiff
        exact hshort ⟨hne, hdiff⟩
      · rw [if_pos hup]
        exact Or.inr (Or.inr (Or.inl ⟨hstate, rfl⟩))
  · rw [if_pos hstate]
    exact Or.inl ⟨hstate, rfl⟩

/-- A `begin` that succeeds. -/
theorem appOtaBeginLocked_ok {slot : FlashArea} {c : Core} {d : Driver}
    {totalSize : UInt32} (h : (appOtaBeginLocked slot c d totalSize).2 = .ok) :
    (appOtaBeginLocked slot c d totalSize).1 = {c with
      uploadFa := some slot
      imgReady := true
      st := ⟨.ready, .ok, 0, totalSize⟩
      flash := flashAreaErase c.flash slot d} := by
  rcases appOtaBeginLocked_cases slot c d totalSize with
    ⟨_, _, _, heq⟩ | ⟨hne, _, _, _⟩
  · exact heq
  · exact absurd h hne

/-- A chunk that is stored. -/
theorem appOtaChunkLocked_ok {c : Core} {d : Driver} {offset : UInt32}
    {data : List UInt8} (h : (appOtaChunkLocked c d offset data).2 = .ok) :
    c.live ∧ offset = c.st.bytesReceived ∧
      (appOtaChunkLocked c d offset data).1 =
        {c.flashWrite d offset data with st := {c.st with
          bytesReceived := c.st.bytesReceived + UInt32.ofNat data.length
          state := .writing
          lastErr := .ok}} := by
  rcases appOtaChunkLocked_cases c d offset data with
    ⟨_, heq⟩ | ⟨_, _, heq⟩ | ⟨_, _, heq⟩ | ⟨_, _, _, _, heq⟩ |
      ⟨hlive, hoff, _, _, heq⟩
  · simp [heq] at h
  · simp [heq] at h
  · simp [heq] at h
  · simp [heq] at h
  · exact ⟨hlive, hoff, by rw [heq]⟩

/-- A commit that succeeds. -/
theorem appOtaCommitLocked_ok {c : Core} {d : Driver}
    (h : (appOtaCommitLocked c d).2 = .ok) :
    c.st.state = .writing ∧
      (c.st.totalSize ≠ 0 → c.st.bytesReceived = c.st.totalSize) ∧
      (appOtaCommitLocked c d).1 = {c with
        st := {c.st with state := .committed, lastErr := .ok}
        rebootScheduled := true} := by
  rcases appOtaCommitLocked_cases c d with
    ⟨_, heq⟩ | ⟨_, _, heq⟩ | ⟨_, heq⟩ | ⟨hstate, hfull, heq⟩
  · simp [heq] at h
  · simp [heq] at h
  · simp [heq] at h
  · exact ⟨hstate, hfull, by rw [heq]⟩

end Rw612.Ota
