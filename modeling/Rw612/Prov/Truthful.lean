import Rw612.Prov.Store

/-!
What the state characteristic says about the flash after a COMMIT or a RESET.
`write_commit` reports the result of a save; that of a delete it drops, so IDLE
is also reported when the record could not be deleted.
-/

namespace Rw612.Prov

open Http (ascii)

/-- The service after some steps from a power-up with this record in flash. -/
def serviceAfter (cred : Option AppNvramData) (acts : List Act) : SvcProv :=
  (acts.foldl Sys.next ⟨.powerUp cred, []⟩).prov

/-- What `app_nvram_load` would return. -/
def loadable (n : Nvs) : Except NvramRc AppNvramData :=
  match (appNvramLoad n .success .zero).2 with
  | (r, .ok) => .ok r
  | (_, rc) => .error rc

/-- The record without its padding, which no characteristic sets. -/
def AppNvramData.settings (r : AppNvramData) : AppNvramData := {r with pad := 0}

/-- What the states promise after a write of `buf` has led from `s` to `s'`. -/
structure StateTruth (s s' : SvcProv) (buf : List UInt8) : Prop where
  committed : s'.state = APP_PROV_STATE_COMMITTED →
    ∃ r, loadable s'.nvs = .ok r ∧ r.settings = s.staging.settings
  refused : s'.state = APP_PROV_STATE_INVALID ∨ s'.state = APP_PROV_STATE_IO_ERROR →
    s'.nvs.cred = s.nvs.cred
  idle : s'.state = APP_PROV_STATE_IDLE → buf.head? = some APP_PROV_OP_RESET →
    loadable s'.nvs = .error .noRecord

/-- A write to COMMIT that is handled leaves a true state. -/
def Truthful (s : SvcProv) (d : NvsAnswer) (buf : List UInt8) (offset : UInt16) : Prop :=
  ∀ len, (writeCommit s d buf offset).2.rc = .ok len →
    StateTruth s (writeCommit s d buf offset).1 buf

/-- A RESET finds no record, or NVS deletes the one it finds. -/
def ResetDeletes (s : SvcProv) (d : NvsAnswer) (buf : List UInt8) (offset : UInt16) : Prop :=
  offset = 0 → buf.head? = some APP_PROV_OP_RESET →
    s.nvs.cred = none ∨ (s.nvs.Mounts d ∧ 0 ≤ d.opRc)

/-! What can be loaded. -/

theorem loadable_eq (n : Nvs) :
    loadable n =
      match n.cred with
      | none => .error .noRecord
      | some r => .ok r.terminate := by
  rw [loadable, appNvramLoad_success]
  cases n.cred <;> rfl

theorem loadable_noRecord_iff (n : Nvs) :
    loadable n = .error .noRecord ↔ n.cred = none := by
  rw [loadable_eq]
  cases n.cred <;> simp

theorem appNvramReset_none_iff (n : Nvs) (d : NvsAnswer) :
    (appNvramReset n d).1.cred = none ↔ n.cred = none ∨ (n.Mounts d ∧ 0 ≤ d.opRc) := by
  have hcred := appNvsInit_cred n d
  have hmounts := appNvsInit_ok_iff n d
  unfold appNvramReset nvsDelete
  split
  case h_1 n' hinit =>
      rw [hinit] at hcred hmounts
      have hok : n.Mounts d := hmounts.mp rfl
      by_cases hfault : d.opRc < 0
      · have hsame : n'.cred = n.cred := hcred
        simp only [hfault, if_true]
        split_ifs <;> simp [hsame, hok] <;> omega
      · simp [hfault, hok, Int.not_lt.mp hfault]
  case h_2 n' rc hrc hinit =>
      rw [hinit] at hcred hmounts
      have hno : ¬n.Mounts d := fun h => hrc (hmounts.mpr h)
      have hsame : n'.cred = n.cred := hcred
      simp [hsame, hno]

/-! The strings of the staging record are terminated. -/

theorem writeStringField_last {maxlen : Nat} {dst : Vector UInt8 (maxlen + 1)}
    (h : getElem dst maxlen (Nat.lt_succ_self maxlen) = 0) (buf : List UInt8) (offset : UInt16) :
    getElem (writeStringField maxlen dst buf offset).1 maxlen (Nat.lt_succ_self maxlen) = 0 := by
  rcases writeStringField_cases maxlen dst buf offset with ⟨err, hw⟩ | ⟨hlen, hw⟩
  · rw [hw]
    exact h
  · rw [hw]
    exact padded_last hlen

theorem Chr.write_terminated {s : SvcProv} (h : s.staging.Terminated) (chr : Chr)
    (d : NvsAnswer) (buf : List UInt8) (offset : UInt16) :
    (chr.write s d buf offset).1.staging.Terminated := by
  cases chr with
  | ssid => exact ⟨writeStringField_last h.ssid buf offset, h.password, h.security, h.hostIp⟩
  | password => exact ⟨h.ssid, writeStringField_last h.password buf offset, h.security, h.hostIp⟩
  | security => exact ⟨h.ssid, h.password, writeStringField_last h.security buf offset, h.hostIp⟩
  | hostIp => exact ⟨h.ssid, h.password, h.security, writeStringField_last h.hostIp buf offset⟩
  | port =>
      simp only [Chr.write, writePort]
      split_ifs
      · exact h
      · exact h
      · exact ⟨h.ssid, h.password, h.security, h.hostIp⟩
  | commit =>
      rw [Chr.write]
      obtain ⟨err, hw⟩ | ⟨rest, -, hw⟩ | ⟨rest, nvs, evt, state, -, -, -, -, hw⟩ |
        ⟨rest, nvs, -, -, -, hw⟩ := writeCommit_cases s d buf offset
      · rw [hw]
        exact h
      · rw [hw]
        exact AppNvramData.terminated_zero
      · rw [hw]
        exact h
      · rw [hw]
        exact h

theorem appProvInit_terminated (s : SvcProv) (d : NvsAnswer) (cb userArg : Option Nat) :
    (appProvInit s d cb userArg).1.staging.Terminated := by
  change (appNvramLoad s.nvs d .zero).2.1.Terminated
  obtain ⟨-, ⟨-, hout⟩ | ⟨r, -, hout⟩⟩ := appNvramLoad_cases s.nvs d .zero
  · rw [hout]
    exact AppNvramData.terminated_zero
  · rw [hout]
    exact r.terminated_terminate

theorem Sys.next_terminated {s : Sys} (h : s.prov.staging.Terminated) (act : Act) :
    (s.next act).prov.staging.Terminated := by
  cases act with
  | write chr buf offset d => exact Chr.write_terminated h chr d buf offset
  | provInit cb userArg d => exact appProvInit_terminated s.prov d cb userArg
  | nvramInit | setState => exact h
  | powerCycle => exact AppNvramData.terminated_zero

theorem serviceAfter_terminated (cred : Option AppNvramData) (acts : List Act) :
    (serviceAfter cred acts).staging.Terminated := by
  rw [serviceAfter]
  induction acts using List.reverseRecOn with
  | nil => exact AppNvramData.terminated_zero
  | append_singleton acts act ih =>
      rw [List.foldl_append]
      exact Sys.next_terminated ih act

/-! One write to COMMIT. -/

theorem writeCommit_offset {s : SvcProv} {d : NvsAnswer} {buf : List UInt8} {offset : UInt16}
    {len : Nat} (h : (writeCommit s d buf offset).2.rc = .ok len) : offset = 0 := by
  by_contra hoffset
  unfold writeCommit at h
  rw [if_pos hoffset] at h
  cases h

theorem writeCommit_reset (s : SvcProv) (d : NvsAnswer) (rest : List UInt8) :
    writeCommit s d (APP_PROV_OP_RESET :: rest) 0 =
      {s with nvs := (appNvramReset s.nvs d).1, staging := .zero}.report .reset
        APP_PROV_STATE_IDLE (APP_PROV_OP_RESET :: rest).length :=
  rfl

/-- Only a RESET can leave a state that is not true. -/
theorem truthful_of_not_reset {s : SvcProv} (h : s.staging.Terminated) (d : NvsAnswer)
    {buf : List UInt8} (offset : UInt16) (hbuf : buf.head? ≠ some APP_PROV_OP_RESET) :
    Truthful s d buf offset := by
  intro len hrc
  obtain ⟨err, hw⟩ | ⟨rest, rfl, hw⟩ | ⟨rest, nvs, evt, state, -, -, hstate, hcred, hw⟩ |
    ⟨rest, nvs, -, -, hcred, hw⟩ := writeCommit_cases s d buf offset
  · rw [hw] at hrc
    cases hrc
  · exact absurd rfl hbuf
  · rw [hw]
    constructor
    · exact fun hcommitted => absurd hcommitted hstate
    · exact fun _ => hcred
    · exact fun _ hreset => absurd hreset hbuf
  · rw [hw]
    constructor
    · intro _
      refine ⟨{s.staging with pad := 0}, ?_, rfl⟩
      have hclosed : AppNvramData.Terminated {s.staging with pad := 0} :=
        ⟨h.ssid, h.password, h.security, h.hostIp⟩
      have hstored : nvs.cred = some {s.staging with pad := 0} := by
        rw [hcred, h.terminate_eq]
      have hload : loadable nvs = .ok (AppNvramData.terminate {s.staging with pad := 0}) := by
        rw [loadable_eq, hstored]
      exact hload.trans (by rw [hclosed.terminate_eq])
    · intro hstate
      rcases hstate with hinvalid | hio
      · cases hinvalid
      · cases hio
    · intro hidle
      cases hidle

theorem truthful_reset_iff (s : SvcProv) (d : NvsAnswer) (rest : List UInt8) :
    Truthful s d (APP_PROV_OP_RESET :: rest) 0 ↔
      s.nvs.cred = none ∨ (s.nvs.Mounts d ∧ 0 ≤ d.opRc) := by
  rw [← appNvramReset_none_iff, ← loadable_noRecord_iff, Truthful, writeCommit_reset]
  constructor
  · intro h
    exact (h _ rfl).idle rfl rfl
  · intro hnone len _
    constructor
    · intro hcommitted
      cases hcommitted
    · intro hstate
      rcases hstate with hinvalid | hio
      · cases hinvalid
      · cases hio
    · exact fun _ _ => hnone

theorem truthful_iff {s : SvcProv} (h : s.staging.Terminated) (d : NvsAnswer)
    (buf : List UInt8) (offset : UInt16) :
    Truthful s d buf offset ↔ ResetDeletes s d buf offset := by
  by_cases hreset : offset = 0 ∧ buf.head? = some APP_PROV_OP_RESET
  · obtain ⟨rfl, hhead⟩ := hreset
    obtain ⟨rest, rfl⟩ := List.head?_eq_some_iff.mp hhead
    rw [truthful_reset_iff]
    constructor
    · exact fun hdeletes _ _ => hdeletes
    · exact fun hdeletes => hdeletes rfl rfl
  · apply iff_of_true
    · by_cases hhead : buf.head? = some APP_PROV_OP_RESET
      · intro len hrc
        exact absurd ⟨writeCommit_offset hrc, hhead⟩ hreset
      · exact truthful_of_not_reset h d offset hhead
    · exact fun hoffset hhead => absurd ⟨hoffset, hhead⟩ hreset

/-- In any state of the service and for any answers of NVS: the state is true
after every handled write to COMMIT if and only if a RESET leaves no record. -/
theorem state_truthful_iff (cred : Option AppNvramData) (acts : List Act) (d : NvsAnswer)
    (buf : List UInt8) (offset : UInt16) :
    Truthful (serviceAfter cred acts) d buf offset ↔
      ResetDeletes (serviceAfter cred acts) d buf offset :=
  truthful_iff (serviceAfter_terminated cred acts) d buf offset

/-- After the provisioning of an open network, a RESET whose `nvs_delete` fails
with -5: IDLE is notified, and the record can still be loaded. -/
theorem reset_keeps_record :
    (writeCommit (serviceAfter none provisioning) ⟨true, 0, 0, -5⟩
        [APP_PROV_OP_RESET] 0).2.notified = [APP_PROV_STATE_IDLE] ∧
    ¬Truthful (serviceAfter none provisioning) ⟨true, 0, 0, -5⟩ [APP_PROV_OP_RESET] 0 := by
  refine ⟨rfl, ?_⟩
  rw [truthful_reset_iff]
  have hstored : (serviceAfter none provisioning).nvs.cred ≠ none := by
    decide +kernel
  rintro (hnone | ⟨-, hok⟩)
  · exact hstored hnone
  · exact absurd hok (by decide)

end Rw612.Prov
