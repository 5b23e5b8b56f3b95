import Rw612.Lib.Progress
import Rw612.Ota.Control
import Rw612.Ota.Notify

/-!
An upload over Bluetooth as `svc_ota.h` describes it: BEGIN, CHUNK by CHUNK and
COMMIT on the control characteristic, with the status characteristic to tell how
far the board has come. A write may get lost, or its answer, and the flash driver
may fail; the client reads the status again and goes on from there.

The Bluetooth thread serves one write after the other, so a write is one step
here, the callback of its call included.
-/

namespace Rw612.Ota

open Lib

def BT_ATT_ERR_INVALID_OFFSET : UInt8 := 0x07
def BT_ATT_ERR_INVALID_ATTRIBUTE_LEN : UInt8 := 0x0d
def BT_ATT_ERR_UNLIKELY : UInt8 := 0x0e

/-- The OTA core and `s_last_pdu`. -/
structure Peripheral where
  core : Core
  lastPdu : StatusPdu

/-- What the flash driver answers to a write, and `app_ota_http_start`. -/
structure CtrlAnswer where
  driver : Driver
  startRc : Int

section

variable (slot : FlashArea) (a : CtrlAnswer)

/-- A call of the core. It ends in the callback if it took the lock. -/
def Peripheral.call (p : Peripheral) (call : Call) : Peripheral × Err :=
  match call.precheck p.core with
  | some rc => (p, rc)
  | none =>
      let (core, rc) := call.locked slot (call.entered p.core) a.driver
      (⟨core, match core.cb with
        | none => p.lastPdu
        | some _ => core.st.pdu⟩, rc)

def Peripheral.reply (p : Peripheral) : Invocation → Int
  | .ota call => (p.call slot a call).2.code
  | .httpStart _ => a.startRc
  | .rebootAfterMs _ | .httpStop => 0

/-- A call that `dispatch_ctrl` makes; the HTTP client has a thread of its own. -/
def Peripheral.serve (p : Peripheral) : Invocation → Peripheral
  | .ota call => (p.call slot a call).1
  | .rebootAfterMs _ => {p with core := {p.core with rebootScheduled := true}}
  | .httpStart _ | .httpStop => p

/-- `write_ctrl`; an ATT error, or the number of bytes taken. -/
def writeCtrl (p : Peripheral) (buf : List UInt8) (offset : UInt16) :
    Peripheral × Except UInt8 Nat :=
  if offset ≠ 0 then (p, .error BT_ATT_ERR_INVALID_OFFSET)
  else if buf.length = 0 then (p, .error BT_ATT_ERR_INVALID_ATTRIBUTE_LEN)
  else
    match dispatchCtrl buf (UInt16.ofNat buf.length) (p.reply slot a) with
    | none => (p, .error BT_ATT_ERR_UNLIKELY)
    | some (rc, calls) =>
        (calls.foldl (Peripheral.serve slot a) p,
          if rc ≠ Err.ok.code then .error BT_ATT_ERR_UNLIKELY else .ok buf.length)

end

/-! The status characteristic. -/

def State.byte : State → UInt8
  | .idle => 0
  | .ready => 1
  | .writing => 2
  | .committed => 3
  | .failed => 4

/-- The bytes of `ota_status_pdu_t`. -/
def StatusPdu.bytes (pdu : StatusPdu) : List UInt8 :=
  [pdu.state.byte, UInt8.ofNat pdu.lastErr.code.toNat] ++ le32 pdu.bytesReceived ++
    le32 pdu.totalSize

/-- `read_status` -/
def readStatus (p : Peripheral) : List UInt8 := p.lastPdu.bytes

/-- The state, the bytes received and the size, as a client reads them. -/
def decodeStatus (p : List UInt8) : Option (UInt8 × UInt32 × UInt32) := do
  let state ← p[0]?
  let received ← readLe32 p 2
  let total ← readLe32 p 6
  some (state, received, total)

theorem decodeStatus_bytes (pdu : StatusPdu) :
    decodeStatus pdu.bytes = some (pdu.state.byte, pdu.bytesReceived, pdu.totalSize) := by
  have hreceived := readLe32_written [pdu.state.byte, UInt8.ofNat pdu.lastErr.code.toNat]
    (i := 2) rfl pdu.bytesReceived (le32 pdu.totalSize)
  have htotal := readLe32_written ([pdu.state.byte, UInt8.ofNat pdu.lastErr.code.toNat] ++
    le32 pdu.bytesReceived) (i := 6) rfl pdu.totalSize []
  rw [List.append_nil] at htotal
  have hstate : pdu.bytes[0]? = some pdu.state.byte := rfl
  rw [← List.append_assoc] at hreceived
  rw [decodeStatus, hstate, StatusPdu.bytes, hreceived, htotal]
  rfl

theorem State.byte_inj {s s' : State} (h : s.byte = s'.byte) : s = s' := by
  cases s <;> cases s' <;> first | rfl | cases h

/-! The client. -/

/-- An image that the slot has room for, and how much of it one write carries. -/
structure Firmware (slot : FlashArea) where
  image : List UInt8
  chunkMax : Nat
  notEmpty : image ≠ []
  fits : image.length ≤ slot.faSize
  size32 : image.length < 2 ^ 32
  chunkPos : 0 < chunkMax
  chunkFits : 7 + chunkMax < 65536

namespace Firmware

variable {slot : FlashArea} (f : Firmware slot)

def size : UInt32 := UInt32.ofNat f.image.length

def nextBytes (received : UInt32) : List UInt8 :=
  (f.image.drop received.toNat).take f.chunkMax

theorem nextBytes_fits (received : UInt32) : 7 + (f.nextBytes received).length < 65536 := by
  have htake := List.length_take_le f.chunkMax (f.image.drop received.toNat)
  have hfits := f.chunkFits
  unfold nextBytes
  omega

/-- What to write next, after `status` was read. The client trusts the status
only once a BEGIN of its own has been answered. -/
def next (begun : Bool) (status : List UInt8) : Option OtaCommand :=
  match decodeStatus status with
  | none => some (.begin f.size)
  | some (state, received, total) =>
      if begun = false ∨ total ≠ f.size then some (.begin f.size)
      else if state = State.committed.byte then none
      else if state = State.ready.byte ∨ state = State.writing.byte then
        if received.toNat < f.image.length then
          some (.chunk received (f.nextBytes received) (f.nextBytes_fits received))
        else some (.commit [] (by decide))
      else some (.begin f.size)

/-- How many chunks are left. -/
def chunksLeft (received : Nat) : Nat :=
  (f.image.length - received + (f.chunkMax - 1)) / f.chunkMax

/-- The writes of an upload that nothing disturbs. -/
def writes : Nat := f.chunksLeft 0 + 2

end Firmware

/-- One round of the client: nothing arrives, or its write does, and then
perhaps the answer. -/
inductive Attempt where
  | lost
  | written (a : CtrlAnswer) (answered : Bool)

def Attempt.answered : Attempt → Bool
  | .lost => false
  | .written _ answered => answered

/-- No driver fails. -/
def Attempt.Calm : Attempt → Prop
  | .lost => True
  | .written a _ => a.driver.Succeeds

structure Upload where
  peripheral : Peripheral
  begun : Bool

def OtaCommand.isBegin : OtaCommand → Bool
  | .begin _ => true
  | _ => false

def isOk : Except UInt8 Nat → Bool
  | .ok _ => true
  | .error _ => false

def uploadSystem {slot : FlashArea} (f : Firmware slot) : System Upload Attempt where
  step u
    | .lost => some u
    | .written a answered =>
        match f.next u.begun (readStatus u.peripheral) with
        | none => some u
        | some command =>
            let (p, result) := writeCtrl slot a u.peripheral command.encode 0
            some ⟨p, u.begun || answered && command.isBegin && isOk result⟩

/-! What the commands of the client do. -/

section

variable {slot : FlashArea} {a : CtrlAnswer} {p : Peripheral}

theorem writeCtrl_encode (c : OtaCommand) :
    writeCtrl slot a p c.encode 0 =
      ((c.effect (p.reply slot a)).2.foldl (Peripheral.serve slot a) p,
        if (c.effect (p.reply slot a)).1 ≠ Err.ok.code then .error BT_ATT_ERR_UNLIKELY
        else .ok c.encode.length) := by
  have hne : ¬c.encode.length = 0 := by
    cases c <;> simp [OtaCommand.encode]
  rw [writeCtrl, if_neg (by simp), if_neg hne, dispatchCtrl_encode]

/-- `app_ota_svc_init` has been called. -/
structure Peripheral.Registered (p : Peripheral) : Prop where
  inited : p.core.inited = true
  cb : p.core.cb ≠ none

theorem Peripheral.call_locked {call : Call} (hcheck : call.precheck p.core = none)
    (hreports : call.Reports) (hcb : p.core.cb ≠ none) :
    p.call slot a call = (⟨(call.locked slot p.core a.driver).1,
      (call.locked slot p.core a.driver).1.st.pdu⟩, (call.locked slot p.core a.driver).2) := by
  have hentered : call.entered p.core = p.core := by
    cases call with
    | init => cases hreports
    | begin | chunk | commit | abort => rfl
  obtain ⟨cb, hsome⟩ := Option.ne_none_iff_exists'.mp hcb
  have hkept := (Call.locked_cb slot p.core a.driver hreports).trans hsome
  simp only [Peripheral.call, hcheck, hentered, hkept]

end

/-! What a locked section does to the upload. -/

/-- The session is one of this image, and the slot has as much of it as the
status says. -/
structure Firmware.Staged {slot : FlashArea} (f : Firmware slot) (c : Core) : Prop where
  total : c.st.totalSize = f.size
  prepared : c.imgReady = true
  opened : c.uploadFa = some slot
  received : c.st.bytesReceived.toNat ≤ f.image.length
  bytes : readRange c.flash.bytes 0 c.st.bytesReceived.toNat =
    f.image.take c.st.bytesReceived.toNat
  started : c.st.state = .ready → c.st.bytesReceived = 0
  whole : c.st.state = .committed → c.st.bytesReceived.toNat = f.image.length

section

variable {slot : FlashArea} {f : Firmware slot} {c : Core} {d : Driver}

theorem Firmware.size_toNat (f : Firmware slot) : f.size.toNat = f.image.length :=
  UInt32.toNat_ofNat_of_lt' f.size32

theorem Firmware.image_pos (f : Firmware slot) : 0 < f.image.length :=
  List.length_pos_iff.mpr f.notEmpty

theorem appOtaBeginLocked_succeeds (hd : d.Succeeds) {totalSize : UInt32}
    (hfits : totalSize.toNat ≤ slot.faSize) :
    (appOtaBeginLocked slot c d totalSize).2 = .ok := by
  simp [appOtaBeginLocked, otaPrepareStorage, hd.openRc, hd.openFa, hd.eraseRc,
    Nat.not_lt.mpr hfits]

/-- BEGIN opens a session, or it fails. -/
theorem Firmware.begin_cases (f : Firmware slot) (c : Core) (d : Driver) :
    let r := appOtaBeginLocked slot c d f.size
    (r.2 = .ok ∧ f.Staged r.1 ∧ r.1.st.state = .ready ∧ r.1.st.bytesReceived = 0) ∨
      (r.2 ≠ .ok ∧ r.1.st.state = .failed ∧ ¬d.Succeeds) := by
  intro r
  rcases appOtaBeginLocked_cases slot c d f.size with ⟨hok, -, -, heq⟩ | ⟨hne, hfailed, -, -⟩
  · left
    refine ⟨hok, ?_, ?_⟩
    · have hr : r.1 = _ := heq
      rw [hr]
      exact ⟨rfl, rfl, rfl, Nat.zero_le _, rfl, fun _ => rfl, (fun h => by cases h)⟩
    · have hr : r.1 = _ := heq
      rw [hr]
      exact ⟨rfl, rfl⟩
  · right
    refine ⟨hne, hfailed, fun hd => hne ?_⟩
    apply appOtaBeginLocked_succeeds hd
    rw [f.size_toNat]
    exact f.fits

theorem Firmware.nextBytes_length (f : Firmware slot) (received : UInt32) :
    (f.nextBytes received).length = min f.chunkMax (f.image.length - received.toNat) := by
  rw [Firmware.nextBytes, List.length_take, List.length_drop]

/-- The next chunk is taken whole, or the session fails. -/
theorem Firmware.Staged.chunk_cases (h : f.Staged c) (hlive : c.live)
    (hmore : c.st.bytesReceived.toNat < f.image.length) (d : Driver) :
    let r := appOtaChunkLocked c d c.st.bytesReceived (f.nextBytes c.st.bytesReceived)
    (f.Staged r.1 ∧ r.1.st.state = .writing ∧ r.1.st.bytesReceived.toNat =
        c.st.bytesReceived.toNat + (f.nextBytes c.st.bytesReceived).length) ∨
      (r.1.st.state = .failed ∧ ¬d.Succeeds) := by
  intro r
  have hlen := f.nextBytes_length c.st.bytesReceived
  have hsmall := f.size32
  have hroom : c.st.bytesReceived.toNat + (f.nextBytes c.st.bytesReceived).length ≤
      f.image.length := by
    omega
  rcases appOtaChunkLocked_cases c d c.st.bytesReceived (f.nextBytes c.st.bytesReceived) with
    ⟨hnot, -⟩ | ⟨-, hne, -⟩ | ⟨-, -, heq⟩ | ⟨-, -, -, hrc, heq⟩ | ⟨-, -, -, hrc, heq⟩
  · exact absurd hlive hnot
  · exact absurd rfl hne
  · exfalso
    have hfull : ¬(c.st.totalSize ≠ 0 ∧ c.st.totalSize.toNat <
        c.st.bytesReceived.toNat + (f.nextBytes c.st.bytesReceived).length) := by
      rintro ⟨-, hlt⟩
      rw [h.total, f.size_toNat] at hlt
      omega
    unfold appOtaChunkLocked at heq
    rw [if_neg ((Core.live_iff c).mp hlive), if_neg (not_not.mpr rfl), if_neg hfull] at heq
    dsimp only at heq
    split at heq <;> cases congrArg Prod.snd heq
  · right
    refine ⟨?_, fun hd => absurd hd.writeRc (Int.not_le.mpr hrc)⟩
    have hr : r = _ := heq
    rw [hr]
    rfl
  · left
    have hr : r = _ := heq
    have hsum : (c.st.bytesReceived + UInt32.ofNat (f.nextBytes c.st.bytesReceived).length).toNat =
        c.st.bytesReceived.toNat + (f.nextBytes c.st.bytesReceived).length := by
      rw [UInt32.toNat_add, UInt32.toNat_ofNat']
      omega
    rw [hr]
    refine ⟨⟨h.total, ?_, ?_, ?_, ?_, (fun h => by cases h), (fun h => by cases h)⟩, rfl, hsum⟩
    · simp only [Core.flashWrite, h.opened]
      exact h.prepared
    · simp only [Core.flashWrite, h.opened]
    · simp only [hsum]
      exact hroom
    · simp only [Core.flashWrite, h.opened, hsum, flashAreaWrite]
      rw [readRange_patch_append _ (Driver.writes_of_ok hrc), h.bytes, Firmware.nextBytes,
        List.length_take, List.length_drop, ← List.take_add, List.take_eq_take_iff]
      omega

/-- COMMIT ends the session, one way or the other. -/
theorem Firmware.Staged.commit_cases (h : f.Staged c) (hlive : c.live)
    (hdone : f.image.length ≤ c.st.bytesReceived.toNat) (d : Driver) :
    let r := appOtaCommitLocked c d
    (f.Staged r.1 ∧ r.1.st.state = .committed) ∨ (r.1.st.state = .failed ∧ ¬d.Succeeds) := by
  intro r
  have hlen : c.st.bytesReceived.toNat = f.image.length := Nat.le_antisymm h.received hdone
  have hfull : c.st.bytesReceived = c.st.totalSize := by
    rw [h.total, ← UInt32.toNat_inj, f.size_toNat, hlen]
  have hwriting : c.st.state = .writing := by
    rcases hlive with hready | hwriting
    · have hpos := f.image_pos
      rw [h.started hready] at hlen
      rw [← hlen] at hpos
      cases hpos
    · exact hwriting
  rcases appOtaCommitLocked_cases c d with
    ⟨hnot, -⟩ | ⟨-, hne, -⟩ | ⟨-, heq⟩ | ⟨-, -, heq⟩
  · exact absurd hwriting hnot
  · exact absurd hfull hne
  · right
    have hr : r = _ := heq
    refine ⟨by rw [hr]; rfl, fun hd => ?_⟩
    simp [appOtaCommitLocked, hwriting, hfull, hd.upgradeRc] at heq
  · left
    have hr : r = _ := heq
    rw [hr]
    exact ⟨⟨h.total, h.prepared, h.opened, h.received, h.bytes, (fun h => by cases h),
      fun _ => hlen⟩, rfl⟩

end

/-! The client and the board. -/

section

variable {slot : FlashArea} {f : Firmware slot}

/-- Once a BEGIN has been answered, the session is that of the client, and the
status it reads is the current one. -/
structure Upload.Inv (f : Firmware slot) (u : Upload) : Prop where
  registered : u.peripheral.Registered
  shown : u.begun = true → u.peripheral.lastPdu = u.peripheral.core.st.pdu
  staged : u.begun = true →
    u.peripheral.core.live ∨ u.peripheral.core.st.state = .committed →
      f.Staged u.peripheral.core

/-- How many writes are still to be answered. -/
def Firmware.rank (f : Firmware slot) (u : Upload) : Nat :=
  if u.begun = true ∧ u.peripheral.core.st.state = .committed then 0
  else if u.begun = true ∧ u.peripheral.core.live then
    f.chunksLeft u.peripheral.core.st.bytesReceived.toNat + 1
  else f.writes

/-- The command that it is time for. -/
inductive Firmware.Turn (f : Firmware slot) (u : Upload) : Option OtaCommand → Prop
  | ended (hbegun : u.begun = true) (hcommitted : u.peripheral.core.st.state = .committed) :
      f.Turn u none
  | chunk (hbegun : u.begun = true) (hlive : u.peripheral.core.live)
      (hstaged : f.Staged u.peripheral.core)
      (hmore : u.peripheral.core.st.bytesReceived.toNat < f.image.length) :
      f.Turn u (some (.chunk u.peripheral.core.st.bytesReceived
        (f.nextBytes u.peripheral.core.st.bytesReceived) (f.nextBytes_fits _)))
  | commit (hbegun : u.begun = true) (hlive : u.peripheral.core.live)
      (hstaged : f.Staged u.peripheral.core)
      (hdone : f.image.length ≤ u.peripheral.core.st.bytesReceived.toNat) :
      f.Turn u (some (.commit [] (by decide)))
  | start (hrank : f.rank u = f.writes) : f.Turn u (some (.begin f.size))

theorem Upload.Inv.turn {u : Upload} (h : u.Inv f) :
    f.Turn u (f.next u.begun (readStatus u.peripheral)) := by
  by_cases hbegun : u.begun = true
  · have hread : decodeStatus (readStatus u.peripheral) =
        some (u.peripheral.core.st.state.byte, u.peripheral.core.st.bytesReceived,
          u.peripheral.core.st.totalSize) := by
      rw [readStatus, h.shown hbegun, decodeStatus_bytes]
      rfl
    simp only [Firmware.next, hread, hbegun, Bool.true_eq_false, false_or]
    by_cases hcommitted : u.peripheral.core.st.state = .committed
    · have hstaged := h.staged hbegun (Or.inr hcommitted)
      rw [if_neg (not_not.mpr hstaged.total), if_pos (congrArg State.byte hcommitted)]
      exact .ended hbegun hcommitted
    have hopen : ¬u.peripheral.core.st.state.byte = State.committed.byte :=
      fun hbyte => hcommitted (State.byte_inj hbyte)
    by_cases hlive : u.peripheral.core.live
    · have hstaged := h.staged hbegun (Or.inl hlive)
      rw [if_neg (not_not.mpr hstaged.total), if_neg hopen,
        if_pos (hlive.imp (congrArg State.byte) (congrArg State.byte))]
      split
      · rename_i hmore
        exact .chunk hbegun hlive hstaged hmore
      · rename_i hdone
        exact .commit hbegun hlive hstaged (Nat.le_of_not_lt hdone)
    · have hrank : f.rank u = f.writes := by simp [Firmware.rank, hlive, hcommitted]
      have hdead : ¬(u.peripheral.core.st.state.byte = State.ready.byte ∨
          u.peripheral.core.st.state.byte = State.writing.byte) :=
        fun hbyte => hlive (hbyte.imp State.byte_inj State.byte_inj)
      rw [if_neg hopen, if_neg hdead]
      split
      · exact .start hrank
      · exact .start hrank
  · have hnot : u.begun = false := Bool.eq_false_iff.mpr hbegun
    have hrank : f.rank u = f.writes := by simp [Firmware.rank, hnot]
    rw [hnot, Firmware.next]
    split
    · exact .start hrank
    · rw [if_pos (Or.inl rfl)]
      exact .start hrank

theorem Firmware.chunksLeft_mono (f : Firmware slot) {n m : Nat} (h : n ≤ m) :
    f.chunksLeft m ≤ f.chunksLeft n :=
  Nat.div_le_div_right (by omega)

/-- A chunk is one less. -/
theorem Firmware.chunksLeft_chunk (f : Firmware slot) {received : UInt32}
    (hmore : received.toNat < f.image.length) :
    f.chunksLeft (received.toNat + (f.nextBytes received).length) + 1 ≤
      f.chunksLeft received.toNat := by
  have hpos := f.chunkPos
  have hlen := f.nextBytes_length received
  unfold Firmware.chunksLeft
  rcases Nat.le_total f.chunkMax (f.image.length - received.toNat) with hle | hle
  · rw [← Nat.add_div_right _ hpos]
    apply Nat.div_le_div_right
    omega
  · have hnone : f.image.length - (received.toNat + (f.nextBytes received).length) +
        (f.chunkMax - 1) < f.chunkMax := by
      omega
    rw [Nat.div_eq_of_lt hnone, Nat.zero_add, Nat.le_div_iff_mul_le hpos]
    omega

/-- A call that has reached the core shows the new status. -/
theorem Upload.Inv.called {u : Upload} (h : u.Inv f) (a : CtrlAnswer) {call : Call}
    (hreports : call.Reports) {begun : Bool}
    (hstaged : begun = true → (call.locked slot u.peripheral.core a.driver).1.live ∨
      (call.locked slot u.peripheral.core a.driver).1.st.state = .committed →
        f.Staged (call.locked slot u.peripheral.core a.driver).1) :
    Upload.Inv f ⟨⟨(call.locked slot u.peripheral.core a.driver).1,
      (call.locked slot u.peripheral.core a.driver).1.st.pdu⟩, begun⟩ := by
  refine ⟨⟨?_, ?_⟩, fun _ => rfl, hstaged⟩
  · exact (Call.locked_inited slot u.peripheral.core a.driver call).trans h.registered.inited
  · rw [Call.locked_cb slot u.peripheral.core a.driver hreports]
    exact h.registered.cb

theorem Core.not_live_of_failed {c : Core} (h : c.st.state = .failed) :
    ¬(c.live ∨ c.st.state = .committed) := by
  simp [Core.live, h]

theorem Firmware.rank_le (f : Firmware slot) {u : Upload} (hbegun : u.begun = true)
    (hlive : u.peripheral.core.live) {n : Nat}
    (hleft : f.chunksLeft u.peripheral.core.st.bytesReceived.toNat + 1 ≤ n) : f.rank u ≤ n := by
  unfold Firmware.rank
  split
  · exact Nat.zero_le n
  · rwa [if_pos ⟨hbegun, hlive⟩]

theorem Firmware.rank_le_writes (f : Firmware slot) (u : Upload) : f.rank u ≤ f.writes := by
  unfold Firmware.rank Firmware.writes
  split
  · exact Nat.zero_le _
  · split
    · have hmono := f.chunksLeft_mono (Nat.zero_le u.peripheral.core.st.bytesReceived.toNat)
      omega
    · exact Nat.le_refl _

/-- BEGIN, however it ends, and whether or not its answer arrives. -/
theorem Upload.Inv.writeBegin {u : Upload} (h : u.Inv f) (a : CtrlAnswer) (answered : Bool) :
    let r := writeCtrl slot a u.peripheral (OtaCommand.begin f.size).encode 0
    let u' : Upload := ⟨r.1, u.begun || answered && isOk r.2⟩
    u'.Inv f ∧ (a.driver.Succeeds → answered = true → f.rank u' ≤ f.writes - 1) := by
  have hcheck : (Call.begin f.size).precheck u.peripheral.core = none := by
    have hpos := f.image_pos
    have hsize := f.size_toNat
    have hne : f.size ≠ 0 := by
      intro hzero
      rw [hzero] at hsize
      rw [← hsize] at hpos
      cases hpos
    simp [Call.precheck, h.registered.inited, hne]
  have hreports : (Call.begin f.size).Reports := trivial
  have hcall := @Peripheral.call_locked slot a u.peripheral _ hcheck hreports h.registered.cb
  intro r u'
  have hr : r = (⟨(appOtaBeginLocked slot u.peripheral.core a.driver f.size).1,
      (appOtaBeginLocked slot u.peripheral.core a.driver f.size).1.st.pdu⟩,
      if (appOtaBeginLocked slot u.peripheral.core a.driver f.size).2.code ≠ Err.ok.code then
        .error BT_ATT_ERR_UNLIKELY
      else .ok (OtaCommand.begin f.size).encode.length) := by
    simp only [r, writeCtrl_encode, OtaCommand.effect, List.foldl_cons, List.foldl_nil,
      Peripheral.serve, Peripheral.reply, hcall, Call.locked]
  have hu : u' = ⟨r.1, u.begun || answered && isOk r.2⟩ := rfl
  rw [hu, hr]
  rcases f.begin_cases u.peripheral.core a.driver with
    ⟨hok, hstaged, hready, hzero⟩ | ⟨-, hfailed, hnot⟩
  · refine ⟨h.called a hreports fun _ _ => hstaged, ?_⟩
    intro _ hanswered
    rw [hok, if_neg (not_not.mpr rfl), hanswered]
    apply f.rank_le
    · simp [isOk]
    · exact Or.inl hready
    · rw [hzero]
      exact Nat.le_refl _
  · refine ⟨h.called a hreports fun _ hopen => ?_,
      fun hd => absurd hd hnot⟩
    exact absurd hopen (Core.not_live_of_failed hfailed)

/-- CHUNK, from the client's own session. -/
theorem Upload.Inv.writeChunk {u : Upload} (h : u.Inv f) (hbegun : u.begun = true)
    (hlive : u.peripheral.core.live) (hstaged : f.Staged u.peripheral.core)
    (hmore : u.peripheral.core.st.bytesReceived.toNat < f.image.length) (a : CtrlAnswer) :
    let command : OtaCommand := .chunk u.peripheral.core.st.bytesReceived
      (f.nextBytes u.peripheral.core.st.bytesReceived) (f.nextBytes_fits _)
    let u' : Upload := ⟨(writeCtrl slot a u.peripheral command.encode 0).1, true⟩
    u'.Inv f ∧ (a.driver.Succeeds → f.rank u' ≤ f.rank u - 1) := by
  have hlen := f.nextBytes_length u.peripheral.core.st.bytesReceived
  have hfits := f.nextBytes_fits u.peripheral.core.st.bytesReceived
  have hcheck : (Call.chunk u.peripheral.core.st.bytesReceived
      (f.nextBytes u.peripheral.core.st.bytesReceived)).precheck u.peripheral.core = none := by
    have hpos := f.chunkPos
    have hne : f.nextBytes u.peripheral.core.st.bytesReceived ≠ [] := by
      rw [← List.length_pos_iff]
      omega
    have hsmall : ¬65535 < (f.nextBytes u.peripheral.core.st.bytesReceived).length := by omega
    simp [Call.precheck, h.registered.inited, hne, hsmall, hstaged.prepared]
  have hreports : (Call.chunk u.peripheral.core.st.bytesReceived
      (f.nextBytes u.peripheral.core.st.bytesReceived)).Reports := trivial
  have hcall := @Peripheral.call_locked slot a u.peripheral _ hcheck hreports h.registered.cb
  have hrank : f.rank u = f.chunksLeft u.peripheral.core.st.bytesReceived.toNat + 1 := by
    have hopen : u.peripheral.core.st.state ≠ .committed := by
      rcases hlive with hstate | hstate <;> simp [hstate]
    simp [Firmware.rank, hbegun, hlive, hopen]
  intro command u'
  have hu : u' = ⟨⟨(appOtaChunkLocked u.peripheral.core a.driver
        u.peripheral.core.st.bytesReceived
        (f.nextBytes u.peripheral.core.st.bytesReceived)).1,
      (appOtaChunkLocked u.peripheral.core a.driver u.peripheral.core.st.bytesReceived
        (f.nextBytes u.peripheral.core.st.bytesReceived)).1.st.pdu⟩, true⟩ := by
    simp only [u', command, writeCtrl_encode, OtaCommand.effect, List.foldl_cons,
      List.foldl_nil, Peripheral.serve, hcall, Call.locked]
  rw [hu, hrank]
  rcases hstaged.chunk_cases hlive hmore a.driver with
    ⟨hstaged', hwriting, hreceived⟩ | ⟨hfailed, hnot⟩
  · refine ⟨h.called a hreports fun _ _ => hstaged', fun _ => ?_⟩
    apply f.rank_le rfl (Or.inr hwriting)
    rw [hreceived]
    exact f.chunksLeft_chunk hmore
  · refine ⟨h.called a hreports fun _ hopen => ?_, fun hd => absurd hd hnot⟩
    exact absurd hopen (Core.not_live_of_failed hfailed)

/-- COMMIT, once the board has the whole image. -/
theorem Upload.Inv.writeCommit {u : Upload} (h : u.Inv f) (hlive : u.peripheral.core.live)
    (hstaged : f.Staged u.peripheral.core)
    (hdone : f.image.length ≤ u.peripheral.core.st.bytesReceived.toNat) (a : CtrlAnswer) :
    let command : OtaCommand := .commit [] (by decide)
    let u' : Upload := ⟨(writeCtrl slot a u.peripheral command.encode 0).1, true⟩
    u'.Inv f ∧ (a.driver.Succeeds → f.rank u' ≤ f.rank u - 1) := by
  have hcheck : (Call.commit []).precheck u.peripheral.core = none := by
    simp [Call.precheck, h.registered.inited, hstaged.prepared]
  have hreports : (Call.commit []).Reports := trivial
  have hcall := @Peripheral.call_locked slot a u.peripheral _ hcheck hreports h.registered.cb
  intro command u'
  obtain ⟨scheduled, hu⟩ : ∃ scheduled, u' = ⟨⟨{(appOtaCommitLocked u.peripheral.core a.driver).1
      with rebootScheduled := scheduled},
      (appOtaCommitLocked u.peripheral.core a.driver).1.st.pdu⟩, true⟩ := by
    simp only [u', command, writeCtrl_encode, OtaCommand.effect, Peripheral.reply, hcall]
    split
    · exact ⟨true, by simp only [List.foldl_cons, List.foldl_nil, Peripheral.serve, hcall,
        Call.locked]⟩
    · exact ⟨_, by simp only [List.foldl_cons, List.foldl_nil, Peripheral.serve, hcall,
        Call.locked]; rfl⟩
  rw [hu]
  rcases hstaged.commit_cases hlive hdone a.driver with ⟨hstaged', hcommitted⟩ | ⟨hfailed, hnot⟩
  · have hinv := h.called a hreports fun (_ : true = true) _ => hstaged'
    refine ⟨⟨⟨hinv.registered.inited, hinv.registered.cb⟩, hinv.shown, fun _ _ => ?_⟩, fun _ => ?_⟩
    · exact ⟨hstaged'.total, hstaged'.prepared, hstaged'.opened, hstaged'.received, hstaged'.bytes,
        hstaged'.started, hstaged'.whole⟩
    · rw [Firmware.rank, if_pos ⟨rfl, hcommitted⟩]
      exact Nat.zero_le _
  · have hinv := h.called a hreports fun (_ : true = true) hopen =>
      absurd hopen (Core.not_live_of_failed hfailed)
    refine ⟨⟨⟨hinv.registered.inited, hinv.registered.cb⟩, hinv.shown, fun _ hopen => ?_⟩,
      fun hd => absurd hd hnot⟩
    exact absurd hopen (Core.not_live_of_failed hfailed)

/-- One round of the client. -/
theorem Upload.Inv.step {u u' : Upload} {e : Attempt} (h : u.Inv f)
    (hstep : (uploadSystem f).step u e = some u') :
    u'.Inv f ∧ (e.Calm → f.rank u' ≤ f.rank u ∧
      (e.answered = true → f.rank u' ≤ f.rank u - 1)) := by
  cases e with
  | lost =>
      obtain rfl := Option.some.inj hstep
      exact ⟨h, fun _ => ⟨Nat.le_refl _, fun hanswered => by cases hanswered⟩⟩
  | written a answered =>
      have hturn := h.turn
      simp only [uploadSystem] at hstep
      generalize f.next u.begun (readStatus u.peripheral) = next at hturn hstep
      cases hturn with
      | ended hbegun hcommitted =>
          obtain rfl := Option.some.inj hstep
          have hzero : f.rank u = 0 := by rw [Firmware.rank, if_pos ⟨hbegun, hcommitted⟩]
          refine ⟨h, fun _ => ⟨Nat.le_refl _, fun _ => ?_⟩⟩
          omega
      | chunk hbegun hlive hstaged hmore =>
          obtain rfl := Option.some.inj hstep
          obtain ⟨hinv, hless⟩ := h.writeChunk hbegun hlive hstaged hmore a
          rw [hbegun, Bool.true_or]
          refine ⟨hinv, fun hcalm => ⟨?_, fun _ => hless hcalm⟩⟩
          exact Nat.le_trans (hless hcalm) (Nat.sub_le _ _)
      | commit hbegun hlive hstaged hdone =>
          obtain rfl := Option.some.inj hstep
          obtain ⟨hinv, hless⟩ := h.writeCommit hlive hstaged hdone a
          rw [hbegun, Bool.true_or]
          refine ⟨hinv, fun hcalm => ⟨?_, fun _ => hless hcalm⟩⟩
          exact Nat.le_trans (hless hcalm) (Nat.sub_le _ _)
      | start hrank =>
          obtain rfl := Option.some.inj hstep
          obtain ⟨hinv, hless⟩ := h.writeBegin a answered
          have hbegin : (OtaCommand.begin f.size).isBegin = true := rfl
          rw [hbegin, Bool.and_true, hrank]
          exact ⟨hinv, fun hcalm => ⟨f.rank_le_writes _, hless hcalm⟩⟩

theorem Upload.Inv.exec {u u' : Upload} {es : List Attempt} (h : u.Inv f)
    (hrun : (uploadSystem f).exec u es = some u') : u'.Inv f :=
  System.exec_invariant (fun _ _ _ h hstep => (Upload.Inv.step h hstep).1) h hrun

end

/-- The board after `app_ota_svc_init`. -/
def Peripheral.init (slot : FlashArea) (flash : Flash) : Peripheral :=
  ⟨(SvcOta.init slot flash).sys.core, (SvcOta.init slot flash).lastPdu⟩

end Rw612.Ota
