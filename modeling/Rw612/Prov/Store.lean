import Rw612.Prov.Gatt

/-!
Runs of the provisioning service: writes of any bytes at any offset, starts of
the service, power cycles, mounts by other modules and state values set by the
main loop, with any failures of NVS. Along all of them the staging record is
`wanted` of the history, so a COMMIT stores exactly that, and only if it passes
`app_nvram_is_valid`.
-/

namespace Rw612.Prov

open Http (ascii)

structure Sys where
  prov : SvcProv
  log : List Entry

inductive Act where
  | write (chr : Chr) (buf : List UInt8) (offset : UInt16) (d : NvsAnswer)
  | provInit (cb userArg : Option Nat) (d : NvsAnswer)
  | nvramInit (d : NvsAnswer)
  | setState (state : UInt8)
  | powerCycle

/-- The first power-up, with a flash that holds no record. -/
def Sys.powerUp : Sys where
  prov := .powerUp none
  log := []

def Sys.next (s : Sys) : Act → Sys
  | .write chr buf offset d =>
      ⟨(chr.write s.prov d buf offset).1,
        s.log ++ [.wrote chr buf (chr.write s.prov d buf offset).2.rc]⟩
  | .provInit cb userArg d =>
      ⟨(appProvInit s.prov d cb userArg).1,
        s.log ++ [.started (appProvInit s.prov d cb userArg).2 s.prov.nvs.cred]⟩
  | .nvramInit d =>
      {s with prov := {s.prov with nvs := (appNvramInit s.prov.nvs d).1}}
  | .setState state => {s with prov := (appProvSetState s.prov state).1}
  | .powerCycle => ⟨.powerUp s.prov.nvs.cred, s.log ++ [.powered]⟩

def Sys.run (acts : List Act) : Sys := acts.foldl Sys.next .powerUp

theorem Sys.run_snoc (acts : List Act) (act : Act) :
    Sys.run (acts ++ [act]) = (Sys.run acts).next act := by
  simp [Sys.run]

/-! The history grows by one entry at a time. -/

theorem lastWrite_snoc (chr : Chr) (log : List Entry) (e : Entry) :
    lastWrite chr (log ++ [e]) =
      if e.clears then none else (e.accepted chr).or (lastWrite chr log) := by
  simp [lastWrite]

theorem baseRecord_snoc (log : List Entry) (e : Entry) :
    baseRecord (log ++ [e]) = if e.clears then e.base else baseRecord log := by
  simp [baseRecord]

theorem wanted_of_clears (log : List Entry) {e : Entry} (h : e.clears = true) :
    wanted (log ++ [e]) = {e.base with pad := 0} := by
  simp [wanted, lastWrite_snoc, baseRecord_snoc, h]

/-- Writes that are refused, and those to COMMIT, set no field. -/
theorem wanted_of_no_field (log : List Entry) {e : Entry}
    (hclears : e.clears = false)
    (haccepted : ∀ chr ≠ Chr.commit, e.accepted chr = none) :
    wanted (log ++ [e]) = wanted log := by
  simp [wanted, lastWrite_snoc, baseRecord_snoc, hclears, haccepted]

theorem wanted_of_refused (log : List Entry) (chr : Chr) (buf : List UInt8)
    (err : AttErr) : wanted (log ++ [.wrote chr buf (.error err)]) = wanted log := by
  refine wanted_of_no_field log ?_ (fun _ _ => rfl)
  unfold Entry.clears
  split <;> simp_all

theorem wanted_of_ssid (log : List Entry) (buf : List UInt8) (len : Nat) :
    wanted (log ++ [.wrote .ssid buf (.ok len)]) =
      {wanted log with ssid := padded _ buf} := by
  simp [wanted, lastWrite_snoc, baseRecord_snoc, Entry.clears, Entry.accepted]

theorem wanted_of_password (log : List Entry) (buf : List UInt8) (len : Nat) :
    wanted (log ++ [.wrote .password buf (.ok len)]) =
      {wanted log with password := padded _ buf} := by
  simp [wanted, lastWrite_snoc, baseRecord_snoc, Entry.clears, Entry.accepted]

theorem wanted_of_security (log : List Entry) (buf : List UInt8) (len : Nat) :
    wanted (log ++ [.wrote .security buf (.ok len)]) =
      {wanted log with security := padded _ buf} := by
  simp [wanted, lastWrite_snoc, baseRecord_snoc, Entry.clears, Entry.accepted]

theorem wanted_of_hostIp (log : List Entry) (buf : List UInt8) (len : Nat) :
    wanted (log ++ [.wrote .hostIp buf (.ok len)]) =
      {wanted log with hostIp := padded _ buf} := by
  simp [wanted, lastWrite_snoc, baseRecord_snoc, Entry.clears, Entry.accepted]

theorem wanted_of_port (log : List Entry) (buf : List UInt8) (len : Nat) :
    wanted (log ++ [.wrote .port buf (.ok len)]) =
      {wanted log with port := portOf buf} := by
  simp [wanted, lastWrite_snoc, baseRecord_snoc, Entry.clears, Entry.accepted]

theorem wanted_of_commit (log : List Entry) (op : UInt8) (buf : List UInt8)
    (len : Nat) (h : op ≠ APP_PROV_OP_RESET) :
    wanted (log ++ [.wrote .commit (op :: buf) (.ok len)]) = wanted log := by
  apply wanted_of_no_field log
  · simpa [Entry.clears] using h
  · intro chr hchr
    simp [Entry.accepted, hchr.symm]

/-! The invariant and the writes. -/

structure Sys.Inv (s : Sys) : Prop where
  staging : s.prov.staging = wanted s.log
  closed : s.prov.staging.Closed
  stored : ∀ r, s.prov.nvs.cred = some r → r.Closed ∧ appNvramIsValid r = true

/-- A string field is refused as it was, or becomes the padded value. -/
theorem writeStringField_cases (maxlen : Nat) (dst : Vector UInt8 (maxlen + 1))
    (buf : List UInt8) (offset : UInt16) :
    (∃ err, writeStringField maxlen dst buf offset = (dst, .error err)) ∨
    (buf.length ≤ maxlen ∧ writeStringField maxlen dst buf offset =
      (padded (maxlen + 1) buf, .ok buf.length)) := by
  unfold writeStringField
  split
  case isTrue => exact Or.inl ⟨_, rfl⟩
  case isFalse =>
      split
      case isTrue => exact Or.inl ⟨_, rfl⟩
      case isFalse hlen => exact Or.inr ⟨Nat.le_of_not_lt hlen, rfl⟩

/-- A value that fits is followed by its NUL. -/
theorem padded_last {maxlen : Nat} {buf : List UInt8} (h : buf.length ≤ maxlen) :
    (padded (maxlen + 1) buf)[maxlen] = 0 := by
  rw [padded, Vector.getElem_ofFn, List.getD_eq_getElem?_getD,
    List.getElem?_eq_none h, Option.getD_none]

theorem Sys.Inv.refused {s : Sys} (h : s.Inv) (chr : Chr) (buf : List UInt8)
    (err : AttErr) :
    Sys.Inv ⟨s.prov, s.log ++ [.wrote chr buf (.error err)]⟩ where
  staging := h.staging.trans (wanted_of_refused s.log chr buf err).symm
  closed := h.closed
  stored := h.stored

/-- A string characteristic: `set` puts its array into the staging record. -/
theorem Sys.Inv.string_field {s : Sys} (h : s.Inv) (chr : Chr) {maxlen : Nat}
    (dst : Vector UInt8 (maxlen + 1))
    (set : Vector UInt8 (maxlen + 1) → AppNvramData) (buf : List UInt8)
    (offset : UInt16) (hsame : set dst = s.prov.staging)
    (hwanted : ∀ len, wanted (s.log ++ [.wrote chr buf (.ok len)]) =
      set (padded _ buf))
    (hclosed : buf.length ≤ maxlen → (set (padded _ buf)).Closed) :
    Sys.Inv ⟨{s.prov with staging := set (writeStringField maxlen dst buf offset).1},
      s.log ++ [.wrote chr buf (writeStringField maxlen dst buf offset).2]⟩ := by
  rcases writeStringField_cases maxlen dst buf offset with ⟨err, hw⟩ | ⟨hlen, hw⟩
  · rw [hw, hsame]
    exact h.refused chr buf err
  · rw [hw]
    exact ⟨(hwanted buf.length).symm, hclosed hlen, h.stored⟩

theorem Sys.Inv.writeSsid {s : Sys} (h : s.Inv) (buf : List UInt8)
    (offset : UInt16) (d : NvsAnswer) :
    (s.next (.write .ssid buf offset d)).Inv := by
  refine h.string_field .ssid s.prov.staging.ssid
    (fun a => {s.prov.staging with ssid := a}) buf offset rfl ?_ ?_
  · intro len
    rw [wanted_of_ssid, h.staging]
  · intro hlen
    exact ⟨padded_last hlen, h.closed.password, h.closed.security, h.closed.hostIp, h.closed.pad⟩

theorem Sys.Inv.writePass {s : Sys} (h : s.Inv) (buf : List UInt8)
    (offset : UInt16) (d : NvsAnswer) :
    (s.next (.write .password buf offset d)).Inv := by
  refine h.string_field .password s.prov.staging.password
    (fun a => {s.prov.staging with password := a}) buf offset rfl ?_ ?_
  · intro len
    rw [wanted_of_password, h.staging]
  · intro hlen
    exact ⟨h.closed.ssid, padded_last hlen, h.closed.security, h.closed.hostIp, h.closed.pad⟩

theorem Sys.Inv.writeSec {s : Sys} (h : s.Inv) (buf : List UInt8)
    (offset : UInt16) (d : NvsAnswer) :
    (s.next (.write .security buf offset d)).Inv := by
  refine h.string_field .security s.prov.staging.security
    (fun a => {s.prov.staging with security := a}) buf offset rfl ?_ ?_
  · intro len
    rw [wanted_of_security, h.staging]
  · intro hlen
    exact ⟨h.closed.ssid, h.closed.password, padded_last hlen, h.closed.hostIp, h.closed.pad⟩

theorem Sys.Inv.writeHost {s : Sys} (h : s.Inv) (buf : List UInt8)
    (offset : UInt16) (d : NvsAnswer) :
    (s.next (.write .hostIp buf offset d)).Inv := by
  refine h.string_field .hostIp s.prov.staging.hostIp
    (fun a => {s.prov.staging with hostIp := a}) buf offset rfl ?_ ?_
  · intro len
    rw [wanted_of_hostIp, h.staging]
  · intro hlen
    exact ⟨h.closed.ssid, h.closed.password, h.closed.security, padded_last hlen, h.closed.pad⟩

theorem Sys.Inv.writePort {s : Sys} (h : s.Inv) (buf : List UInt8)
    (offset : UInt16) (d : NvsAnswer) : (s.next (.write .port buf offset d)).Inv := by
  simp only [Sys.next, Chr.write, Prov.writePort]
  split
  case isTrue => exact h.refused .port buf _
  case isFalse =>
      split
      case isTrue => exact h.refused .port buf _
      case isFalse =>
          have hwanted := wanted_of_port s.log buf buf.length
          rw [← h.staging] at hwanted
          exact ⟨hwanted.symm, {h.closed with}, h.stored⟩

/-- What a write to COMMIT can be: refused, a RESET, or a COMMIT whose answer
is COMMITTED just when the staged record is valid and was stored. -/
theorem writeCommit_cases (s : SvcProv) (d : NvsAnswer) (buf : List UInt8)
    (offset : UInt16) :
    (∃ err, writeCommit s d buf offset = (s, .plain (.error err))) ∨
    (∃ rest, buf = APP_PROV_OP_RESET :: rest ∧ writeCommit s d buf offset =
      {s with nvs := (appNvramReset s.nvs d).1, staging := .zero}.report .reset
        APP_PROV_STATE_IDLE buf.length) ∨
    (∃ rest nvs evt state, buf = APP_PROV_OP_COMMIT :: rest ∧
      evt ≠ .commitOk ∧ state ≠ APP_PROV_STATE_COMMITTED ∧
      nvs.cred = s.nvs.cred ∧
      writeCommit s d buf offset =
        {s with nvs := nvs}.report evt state buf.length) ∨
    (∃ rest nvs, buf = APP_PROV_OP_COMMIT :: rest ∧
      appNvramIsValid s.staging = true ∧
      nvs.cred = some {s.staging.terminate with pad := 0} ∧
      writeCommit s d buf offset =
        {s with nvs := nvs}.report .commitOk APP_PROV_STATE_COMMITTED
          buf.length) := by
  unfold writeCommit
  split
  case isTrue => exact Or.inl ⟨_, rfl⟩
  case isFalse =>
      cases buf with
      | nil => exact Or.inl ⟨_, rfl⟩
      | cons op rest =>
          by_cases hreset : op = APP_PROV_OP_RESET
          · subst hreset
            right; left
            exact ⟨rest, rfl, if_pos rfl⟩
          by_cases hcommit : op = APP_PROV_OP_COMMIT
          case neg =>
              left
              exact ⟨.valueNotAllowed, by simp [hreset, hcommit]⟩
          subst hcommit
          right; right
          by_cases hvalid : appNvramIsValid s.staging = true
          case neg =>
              left
              refine ⟨rest, s.nvs, .commitInvalid, APP_PROV_STATE_INVALID, rfl,
                by decide, by decide, rfl, ?_⟩
              simp [hreset, hvalid]
          cases hsave : appNvramSave s.nvs d s.staging with
          | mk nvs rc =>
              rcases appNvramSave_cases s.nvs d s.staging with ⟨hrc, hcred⟩ | ⟨hrc, hcred⟩
              · left
                rw [hsave] at hrc hcred
                refine ⟨rest, nvs, .commitIoError, APP_PROV_STATE_IO_ERROR, rfl,
                  by decide, by decide, hcred, ?_⟩
                cases rc <;> simp_all
              · right
                rw [hsave] at hrc hcred
                dsimp only at hrc
                subst hrc
                refine ⟨rest, nvs, rfl, hvalid, hcred, ?_⟩
                simp [hreset, hvalid]

theorem Sys.Inv.writeCommit {s : Sys} (h : s.Inv) (buf : List UInt8)
    (offset : UInt16) (d : NvsAnswer) :
    (s.next (.write .commit buf offset d)).Inv := by
  simp only [Sys.next, Chr.write]
  obtain ⟨err, hw⟩ | ⟨rest, rfl, hw⟩ | ⟨rest, nvs, evt, state, rfl, -, -, hcred, hw⟩ |
    ⟨rest, nvs, rfl, hvalid, hcred, hw⟩ := writeCommit_cases s.prov d buf offset
  · rw [hw]
    exact h.refused .commit buf err
  · rw [hw]
    refine ⟨?_, AppNvramData.closed_zero, ?_⟩
    · exact (wanted_of_clears s.log (e := .wrote .commit _ _) rfl).symm
    intro r hr
    rcases appNvramReset_cred s.prov.nvs d with hnone | hkept
    · cases hnone.symm.trans hr
    · exact h.stored r (hkept.symm.trans hr)
  · rw [hw]
    refine ⟨?_, h.closed, fun r hr => h.stored r (hcred.symm.trans hr)⟩
    exact h.staging.trans (wanted_of_commit s.log _ rest _ (by decide)).symm
  · rw [hw]
    refine ⟨?_, h.closed, ?_⟩
    · exact h.staging.trans (wanted_of_commit s.log _ rest _ (by decide)).symm
    · intro r hr
      rw [h.closed.payload_eq] at hcred
      obtain rfl : s.prov.staging = r := Option.some.inj (hcred.symm.trans hr)
      exact ⟨h.closed, hvalid⟩

theorem Sys.Inv.provInit {s : Sys} (h : s.Inv) (cb userArg : Option Nat)
    (d : NvsAnswer) : (s.next (.provInit cb userArg d)).Inv := by
  obtain ⟨hcred, hload⟩ := appNvramLoad_cases s.prov.nvs d .zero
  simp only [Sys.next, appProvInit]
  cases hres : appNvramLoad s.prov.nvs d .zero with
  | mk nvs out =>
      obtain ⟨staging, rc⟩ := out
      rw [hres] at hcred hload
      dsimp only at hcred hload
      have hstored : ∀ r, nvs.cred = some r → r.Closed ∧ appNvramIsValid r = true :=
        fun r hr => h.stored r (hcred.symm.trans hr)
      rcases hload with ⟨hrc, rfl⟩ | ⟨r, hr, hout⟩
      · refine ⟨?_, AppNvramData.closed_zero, hstored⟩
        rw [wanted_of_clears s.log rfl]
        cases rc <;> first | exact absurd rfl hrc | rfl
      · obtain ⟨hclosed, -⟩ := h.stored r hr
        rw [hclosed.terminate_eq] at hout
        cases hout
        refine ⟨?_, hclosed, hstored⟩
        rw [wanted_of_clears s.log rfl, hr]
        have hpayload := hclosed.payload_eq
        rw [hclosed.terminate_eq] at hpayload
        exact hpayload.symm

theorem Sys.Inv.nvs {s : Sys} (h : s.Inv) {nvs : Nvs}
    (hcred : nvs.cred = s.prov.nvs.cred) :
    Sys.Inv {s with prov := {s.prov with nvs := nvs}} where
  staging := h.staging
  closed := h.closed
  stored r hr := h.stored r (hcred.symm.trans hr)

theorem Sys.Inv.next {s : Sys} (h : s.Inv) (act : Act) : (s.next act).Inv := by
  cases act with
  | write chr buf offset d =>
      cases chr with
      | ssid => exact h.writeSsid buf offset d
      | password => exact h.writePass buf offset d
      | security => exact h.writeSec buf offset d
      | hostIp => exact h.writeHost buf offset d
      | port => exact h.writePort buf offset d
      | commit => exact h.writeCommit buf offset d
  | provInit cb userArg d => exact h.provInit cb userArg d
  | nvramInit d => exact h.nvs (appNvramInit_cred s.prov.nvs d)
  | setState state => exact ⟨h.staging, h.closed, h.stored⟩
  | powerCycle =>
      refine ⟨?_, AppNvramData.closed_zero, h.stored⟩
      exact (wanted_of_clears s.log (e := .powered) rfl).symm

theorem Sys.inv_run (acts : List Act) : (Sys.run acts).Inv := by
  induction acts using List.reverseRecOn with
  | nil => exact ⟨rfl, AppNvramData.closed_zero, fun _ hr => by cases hr⟩
  | append_singleton acts act ih =>
      rw [Sys.run_snoc]
      exact ih.next act

/-- In every reachable state the stored record is absent or valid, and a COMMIT
that notifies COMMITTED stores exactly what the history says. -/
theorem commit_stores_wanted (acts : List Act) :
    (∀ r, (Sys.run acts).prov.nvs.cred = some r → appNvramIsValid r = true) ∧
    ∀ buf offset d,
      APP_PROV_STATE_COMMITTED ∈
        (Chr.commit.write (Sys.run acts).prov d buf offset).2.notified →
      (Chr.commit.write (Sys.run acts).prov d buf offset).1.nvs.cred =
        some (wanted (Sys.run acts).log) := by
  have h := Sys.inv_run acts
  refine ⟨fun r hr => (h.stored r hr).2, ?_⟩
  intro buf offset d hreport
  rw [Chr.write] at hreport ⊢
  obtain ⟨err, hw⟩ | ⟨rest, -, hw⟩ | ⟨rest, nvs, evt, state, -, -, hstate, -, hw⟩ |
    ⟨rest, nvs, -, -, hcred, hw⟩ := writeCommit_cases (Sys.run acts).prov d buf offset
  · rw [hw] at hreport
    cases hreport
  · rw [hw] at hreport
    cases List.mem_singleton.mp hreport
  · rw [hw] at hreport
    exact absurd (List.mem_singleton.mp hreport).symm hstate
  · rw [hw]
    exact hcred.trans (by rw [h.closed.payload_eq, h.staging])

/-- A client that provisions an open network and then changes its SSID. -/
def provisioning : List Act :=
  [.provInit (some 0) none .success,
    .write .ssid (ascii "lab") 0 .success,
    .write .security (ascii "OPEN") 0 .success,
    .write .hostIp (ascii "10.0.0.2") 0 .success,
    .write .port [0x90, 0x1F] 0 .success,
    .write .commit [APP_PROV_OP_COMMIT] 0 .success,
    .powerCycle,
    .provInit (some 0) none .success,
    .write .ssid (ascii "lab 2") 0 .success]

theorem commit_stores_wanted_provisioning :
    (Chr.commit.write (Sys.run provisioning).prov .success
        [APP_PROV_OP_COMMIT] 0).1.nvs.cred =
      some (wanted (Sys.run provisioning).log) ∧
    (wanted (Sys.run provisioning).log).ssid = padded _ (ascii "lab 2") ∧
    (wanted (Sys.run provisioning).log).port = 8080 :=
  ⟨(commit_stores_wanted provisioning).2 [APP_PROV_OP_COMMIT] 0 .success
    (by decide +kernel), by decide +kernel⟩

end Rw612.Prov
