import Rw612.Http.Message

/-!
The provisioning record of `app_nvram.c` and the NVS entry it is kept in. NVS
stores and returns whole records; a failed read, write or delete changes
nothing. Which calls fail is an input, `NvsAnswer`.
-/

namespace Rw612.Prov

open Lib.CString
open Http (ascii)

def APP_NVRAM_SSID_MAXLEN : Nat := 32
def APP_NVRAM_PASS_MAXLEN : Nat := 64
def APP_NVRAM_SEC_MAXLEN : Nat := 16
def APP_NVRAM_HOST_MAXLEN : Nat := 64

def ENOENT : Int := 2
def EIO : Int := 5
def ENODEV : Int := 19

/-- `app_nvram_data_t` -/
structure AppNvramData where
  ssid : Vector UInt8 (APP_NVRAM_SSID_MAXLEN + 1)
  password : Vector UInt8 (APP_NVRAM_PASS_MAXLEN + 1)
  security : Vector UInt8 (APP_NVRAM_SEC_MAXLEN + 1)
  hostIp : Vector UInt8 (APP_NVRAM_HOST_MAXLEN + 1)
  port : UInt16
  pad : UInt16
  deriving DecidableEq, Repr

def SIZEOF_APP_NVRAM_DATA : Int := 184

/-- `APP_NVRAM_OK` and the `APP_NVRAM_ERR_` codes that are returned for a
pointer other than NULL. -/
inductive NvramRc where
  | ok
  | io
  | noRecord
  | length
  deriving DecidableEq, Repr

def NvramRc.code : NvramRc → Int
  | .ok => 0
  | .io => -2
  | .noRecord => -3
  | .length => -6

/-- `memset(&data, 0, sizeof(data))` -/
def AppNvramData.zero : AppNvramData where
  ssid := Vector.replicate _ 0
  password := Vector.replicate _ 0
  security := Vector.replicate _ 0
  hostIp := Vector.replicate _ 0
  port := 0
  pad := 0

/-- `a[n] = '\0'` for an array of `n + 1` characters. -/
def terminate {n : Nat} (a : Vector UInt8 (n + 1)) : Vector UInt8 (n + 1) :=
  a.set n 0

/-- The defensive NUL termination that loading and saving share. -/
def AppNvramData.terminate (r : AppNvramData) : AppNvramData :=
  {r with
    ssid := Prov.terminate r.ssid
    password := Prov.terminate r.password
    security := Prov.terminate r.security
    hostIp := Prov.terminate r.hostIp}

/-- The mount flag of `nvs_backend.c` and the entry `APP_NVS_ID_WIFI_CRED`. -/
structure Nvs where
  mounted : Bool
  cred : Option AppNvramData
  deriving DecidableEq, Repr

/-- What the flash device and NVS answer within one call. A negative `opRc`
fails the read, write or delete with that errno. -/
structure NvsAnswer where
  deviceReady : Bool
  pageInfoRc : Int
  mountRc : Int
  opRc : Int
  deriving DecidableEq, Repr

def NvsAnswer.success : NvsAnswer := ⟨true, 0, 0, 0⟩

def appNvsInit (n : Nvs) (d : NvsAnswer) : Nvs × Int :=
  if n.mounted then (n, 0)
  else if !d.deviceReady then (n, -ENODEV)
  else if d.pageInfoRc ≠ 0 then (n, - EIO)
  else if d.mountRc ≠ 0 then (n, d.mountRc)
  else ({n with mounted := true}, 0)

/-- `nvs_read` into `out`. -/
def nvsRead (n : Nvs) (d : NvsAnswer) (out : AppNvramData) : AppNvramData × Int :=
  if d.opRc < 0 then (out, d.opRc)
  else
    match n.cred with
    | none => (out, -ENOENT)
    | some r => (r, SIZEOF_APP_NVRAM_DATA)

/-- `nvs_write`, which answers 0 when the entry already holds the data. -/
def nvsWrite (n : Nvs) (d : NvsAnswer) (payload : AppNvramData) : Nvs × Int :=
  if d.opRc < 0 then (n, d.opRc)
  else if n.cred = some payload then (n, 0)
  else ({n with cred := some payload}, SIZEOF_APP_NVRAM_DATA)

def nvsDelete (n : Nvs) (d : NvsAnswer) : Nvs × Int :=
  if d.opRc < 0 then (n, d.opRc) else ({n with cred := none}, 0)

def appNvramInit (n : Nvs) (d : NvsAnswer) : Nvs × NvramRc :=
  match appNvsInit n d with
  | (n, 0) => (n, .ok)
  | (n, _) => (n, .io)

def appNvramLoad (n : Nvs) (d : NvsAnswer) (out : AppNvramData) :
    Nvs × AppNvramData × NvramRc :=
  match appNvsInit n d with
  | (n, 0) =>
      match nvsRead n d out with
      | (out, rc) =>
          if rc = -ENOENT then (n, out, .noRecord)
          else if rc < 0 then (n, out, .io)
          else if rc ≠ SIZEOF_APP_NVRAM_DATA then (n, out, .length)
          else (n, out.terminate, .ok)
  | (n, _) => (n, out, .io)

def appNvramSave (n : Nvs) (d : NvsAnswer) (input : AppNvramData) :
    Nvs × NvramRc :=
  match appNvsInit n d with
  | (n, 0) =>
      match nvsWrite n d {input.terminate with pad := 0} with
      | (n, rc) => if rc < 0 then (n, .io) else (n, .ok)
  | (n, _) => (n, .io)

def appNvramReset (n : Nvs) (d : NvsAnswer) : Nvs × NvramRc :=
  match appNvsInit n d with
  | (n, 0) =>
      match nvsDelete n d with
      | (n, rc) => if rc = 0 ∨ rc = -ENOENT then (n, .ok) else (n, .io)
  | (n, _) => (n, .io)

def kAllowedSecurity : List (List UInt8) :=
  [ascii "OPEN", ascii "WPA2", ascii "WPA2_WPA3", ascii "WPA3_SAE"]

def strNonemptyWithin (s : List UInt8) (maxlen : Nat) : Bool :=
  let n := strnlen s (maxlen + 1)
  decide (0 < n) && decide (n ≤ maxlen)

def securityAllowed (s : List UInt8) : Bool := kAllowedSecurity.any (streq s)

def appNvramIsValid (r : AppNvramData) : Bool :=
  if !strNonemptyWithin r.ssid.toList APP_NVRAM_SSID_MAXLEN then false
  else if !strNonemptyWithin r.hostIp.toList APP_NVRAM_HOST_MAXLEN then false
  else if !securityAllowed r.security.toList then false
  else if !streq r.security.toList (ascii "OPEN") &&
      !strNonemptyWithin r.password.toList APP_NVRAM_PASS_MAXLEN then false
  else if r.port = 0 then false
  else true

/-! Records whose strings end inside their arrays. -/

theorem terminate_eq_self {n : Nat} {a : Vector UInt8 (n + 1)} (h : a[n] = 0) :
    terminate a = a := by
  apply Vector.ext
  intro i hi
  rw [terminate, Vector.getElem_set]
  split
  case isTrue heq =>
      subst heq
      exact h.symm
  case isFalse => rfl

/-- A record that saving stores as it is. -/
structure AppNvramData.Closed (r : AppNvramData) : Prop where
  ssid : r.ssid[APP_NVRAM_SSID_MAXLEN] = 0
  password : r.password[APP_NVRAM_PASS_MAXLEN] = 0
  security : r.security[APP_NVRAM_SEC_MAXLEN] = 0
  hostIp : r.hostIp[APP_NVRAM_HOST_MAXLEN] = 0
  pad : r.pad = 0

theorem AppNvramData.closed_zero : AppNvramData.zero.Closed := by
  constructor <;> rfl

theorem AppNvramData.Closed.terminate_eq {r : AppNvramData} (h : r.Closed) :
    r.terminate = r := by
  rw [AppNvramData.terminate, terminate_eq_self h.ssid,
    terminate_eq_self h.password, terminate_eq_self h.security,
    terminate_eq_self h.hostIp]

theorem AppNvramData.Closed.payload_eq {r : AppNvramData} (h : r.Closed) :
    {r.terminate with pad := 0} = r := by
  rw [h.terminate_eq]
  cases r
  cases h.pad
  rfl

/-- The strings end inside their arrays, whatever the padding is. -/
structure AppNvramData.Terminated (r : AppNvramData) : Prop where
  ssid : r.ssid[APP_NVRAM_SSID_MAXLEN] = 0
  password : r.password[APP_NVRAM_PASS_MAXLEN] = 0
  security : r.security[APP_NVRAM_SEC_MAXLEN] = 0
  hostIp : r.hostIp[APP_NVRAM_HOST_MAXLEN] = 0

theorem AppNvramData.terminated_zero : AppNvramData.zero.Terminated := by
  constructor <;> rfl

theorem AppNvramData.terminated_terminate (r : AppNvramData) : r.terminate.Terminated := by
  constructor <;> exact Vector.getElem_set_self _

theorem AppNvramData.Terminated.terminate_eq {r : AppNvramData} (h : r.Terminated) :
    r.terminate = r := by
  rw [AppNvramData.terminate, terminate_eq_self h.ssid, terminate_eq_self h.password,
    terminate_eq_self h.security, terminate_eq_self h.hostIp]

/-! What loading, saving and deleting do to the entry. -/

@[simp] theorem appNvsInit_cred (n : Nvs) (d : NvsAnswer) :
    (appNvsInit n d).1.cred = n.cred := by
  unfold appNvsInit
  split_ifs <;> rfl

/-- NVS is mounted, or can be. -/
def Nvs.Mounts (n : Nvs) (d : NvsAnswer) : Prop :=
  n.mounted = true ∨ (d.deviceReady = true ∧ d.pageInfoRc = 0 ∧ d.mountRc = 0)

theorem appNvsInit_ok_iff (n : Nvs) (d : NvsAnswer) :
    (appNvsInit n d).2 = 0 ↔ n.Mounts d := by
  unfold appNvsInit Nvs.Mounts
  split_ifs <;> simp_all [ENODEV, EIO]

@[simp] theorem appNvramInit_cred (n : Nvs) (d : NvsAnswer) :
    (appNvramInit n d).1.cred = n.cred := by
  unfold appNvramInit
  have hcred := appNvsInit_cred n d
  split <;> simp_all

/-- `nvs_read` fails without touching the buffer, or returns the record. -/
theorem nvsRead_cases (n : Nvs) (d : NvsAnswer) (out : AppNvramData) :
    (∃ rc < 0, nvsRead n d out = (out, rc)) ∨
    (∃ r, n.cred = some r ∧ nvsRead n d out = (r, SIZEOF_APP_NVRAM_DATA)) := by
  unfold nvsRead
  split
  case isTrue hfault => exact Or.inl ⟨d.opRc, hfault, rfl⟩
  case isFalse =>
      split
      case h_1 => exact Or.inl ⟨-ENOENT, by decide, rfl⟩
      case h_2 r hcred => exact Or.inr ⟨r, hcred, rfl⟩

/-- Loading never changes the entry. It fails without touching the buffer, or
the buffer becomes the stored record. -/
theorem appNvramLoad_cases (n : Nvs) (d : NvsAnswer) (out : AppNvramData) :
    (appNvramLoad n d out).1.cred = n.cred ∧
    (((appNvramLoad n d out).2.2 ≠ .ok ∧ (appNvramLoad n d out).2.1 = out) ∨
      (∃ r, n.cred = some r ∧ (appNvramLoad n d out).2 = (r.terminate, .ok))) := by
  have hcred := appNvsInit_cred n d
  unfold appNvramLoad
  split
  case h_1 n' hinit =>
      rw [hinit] at hcred
      rcases nvsRead_cases n' d out with ⟨rc, hneg, hread⟩ | ⟨r, hr, hread⟩
      · rw [hread]
        refine ⟨?_, Or.inl ?_⟩
        · dsimp only
          split_ifs <;> exact hcred
        · dsimp only
          split_ifs <;> exact ⟨by simp, rfl⟩
      · rw [hread]
        refine ⟨hcred, Or.inr ⟨r, hcred ▸ hr, ?_⟩⟩
        simp [SIZEOF_APP_NVRAM_DATA, ENOENT]
  case h_2 n' rc _ hinit =>
      rw [hinit] at hcred
      exact ⟨hcred, Or.inl ⟨by simp, rfl⟩⟩

theorem appNvramLoad_success (n : Nvs) (out : AppNvramData) :
    (appNvramLoad n .success out).2 =
      match n.cred with
      | none => (out, .noRecord)
      | some r => (r.terminate, .ok) := by
  cases n with
  | mk mounted cred =>
      cases mounted <;> cases cred <;> rfl

/-- Saving stores the payload or, with an error, leaves the entry as it was. -/
theorem appNvramSave_cases (n : Nvs) (d : NvsAnswer) (r : AppNvramData) :
    ((appNvramSave n d r).2 ≠ .ok ∧ (appNvramSave n d r).1.cred = n.cred) ∨
    ((appNvramSave n d r).2 = .ok ∧
      (appNvramSave n d r).1.cred = some {r.terminate with pad := 0}) := by
  have hcred := appNvsInit_cred n d
  unfold appNvramSave nvsWrite
  split
  case h_1 n' hinit =>
      rw [hinit] at hcred
      by_cases hfault : d.opRc < 0
      · left
        simpa [hfault] using hcred
      · right
        by_cases hsame : n'.cred = some {r.terminate with pad := 0}
        · simp [hfault, hsame]
        · simp [hfault, hsame, SIZEOF_APP_NVRAM_DATA]
  case h_2 n' rc _ hinit =>
      rw [hinit] at hcred
      exact Or.inl ⟨by simp, hcred⟩

/-- Deleting succeeds and leaves no record behind, or changes nothing. -/
theorem appNvramReset_cases (n : Nvs) (d : NvsAnswer) :
    ((appNvramReset n d).2 = .ok ∧ (appNvramReset n d).1.cred = none) ∨
      (appNvramReset n d).1.cred = n.cred := by
  have hcred := appNvsInit_cred n d
  unfold appNvramReset nvsDelete
  split
  case h_1 n' hinit =>
      rw [hinit] at hcred
      by_cases hfault : d.opRc < 0
      · right
        simp only [hfault, if_true]
        split_ifs <;> exact hcred
      · left
        simp [hfault]
  case h_2 n' rc _ hinit =>
      rw [hinit] at hcred
      exact Or.inr hcred

theorem appNvramReset_cred (n : Nvs) (d : NvsAnswer) :
    (appNvramReset n d).1.cred = none ∨ (appNvramReset n d).1.cred = n.cred :=
  (appNvramReset_cases n d).imp_left And.right

end Rw612.Prov
