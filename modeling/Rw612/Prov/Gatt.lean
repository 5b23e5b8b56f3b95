import Mathlib.Data.List.Basic
import Rw612.Prov.Nvram

/-!
The provisioning service of `svc_prov.c`: five characteristics that fill the
staging record, and COMMIT, which stores or deletes it.

`Entry` is the history of the service as its client and the flash see it.
`wanted` reads from such a history what the next COMMIT ought to store: the
last accepted write of each field since the last RESET or start of the service,
over the record that was loaded at that start.
-/

namespace Rw612.Prov

def APP_PROV_STATE_IDLE : UInt8 := 0
def APP_PROV_STATE_COMMITTED : UInt8 := 1
def APP_PROV_STATE_INVALID : UInt8 := 2
def APP_PROV_STATE_IO_ERROR : UInt8 := 3

def APP_PROV_OP_COMMIT : UInt8 := 0x01
def APP_PROV_OP_RESET : UInt8 := 0xFF

/-- The events of `app_prov_evt_t` that are emitted. -/
inductive ProvEvt where
  | commitOk
  | commitInvalid
  | commitIoError
  | reset
  deriving DecidableEq, Repr

/-- The ATT errors that the write handlers return. -/
inductive AttErr where
  | invalidOffset
  | invalidAttributeLen
  | valueNotAllowed
  deriving DecidableEq, Repr

/-- The characteristics with a write handler. -/
inductive Chr where
  | ssid
  | password
  | security
  | hostIp
  | port
  | commit
  deriving DecidableEq, Repr

/-- The static variables of `svc_prov.c`, with the flash behind them. -/
structure SvcProv where
  nvs : Nvs
  staging : AppNvramData
  state : UInt8
  cb : Option Nat
  cbArg : Option Nat
  deriving DecidableEq, Repr

/-- What a write handler returns, the events it passes to the callback and the
state values it notifies. -/
structure Response where
  rc : Except AttErr Nat
  events : List ProvEvt
  notified : List UInt8

def Response.plain (rc : Except AttErr Nat) : Response := ⟨rc, [], []⟩

/-- `memset(dst, 0, n)` and then `memcpy(dst, buf, len)` -/
def padded (n : Nat) (buf : List UInt8) : Vector UInt8 n :=
  Vector.ofFn (fun i => buf.getD i 0)

def writeStringField (maxlen : Nat) (dst : Vector UInt8 (maxlen + 1))
    (buf : List UInt8) (offset : UInt16) :
    Vector UInt8 (maxlen + 1) × Except AttErr Nat :=
  if offset ≠ 0 then (dst, .error .invalidOffset)
  else if maxlen < buf.length then (dst, .error .invalidAttributeLen)
  else (padded (maxlen + 1) buf, .ok buf.length)

def writeSsid (s : SvcProv) (buf : List UInt8) (offset : UInt16) : SvcProv × Response :=
  let (ssid, rc) :=
    writeStringField APP_NVRAM_SSID_MAXLEN s.staging.ssid buf offset
  ({s with staging := {s.staging with ssid := ssid}}, .plain rc)

def writePass (s : SvcProv) (buf : List UInt8) (offset : UInt16) : SvcProv × Response :=
  let (password, rc) :=
    writeStringField APP_NVRAM_PASS_MAXLEN s.staging.password buf offset
  ({s with staging := {s.staging with password := password}}, .plain rc)

def writeSec (s : SvcProv) (buf : List UInt8) (offset : UInt16) : SvcProv × Response :=
  let (security, rc) :=
    writeStringField APP_NVRAM_SEC_MAXLEN s.staging.security buf offset
  ({s with staging := {s.staging with security := security}}, .plain rc)

def writeHost (s : SvcProv) (buf : List UInt8) (offset : UInt16) : SvcProv × Response :=
  let (hostIp, rc) :=
    writeStringField APP_NVRAM_HOST_MAXLEN s.staging.hostIp buf offset
  ({s with staging := {s.staging with hostIp := hostIp}}, .plain rc)

/-- `memcpy(&p, buf, sizeof(p))` on a little-endian machine. -/
def portOf (buf : List UInt8) : UInt16 :=
  UInt16.ofNat ((buf.getD 0 0).toNat + 256 * (buf.getD 1 0).toNat)

def writePort (s : SvcProv) (buf : List UInt8) (offset : UInt16) : SvcProv × Response :=
  if offset ≠ 0 then (s, .plain (.error .invalidOffset))
  else if buf.length ≠ 2 then (s, .plain (.error .invalidAttributeLen))
  else
    ({s with staging := {s.staging with port := portOf buf}},
      .plain (.ok buf.length))

/-- `emit`: the events that reach the callback. -/
def emit (s : SvcProv) (evt : ProvEvt) (state : UInt8) : SvcProv × List ProvEvt :=
  ({s with state := state}, if s.cb.isSome then [evt] else [])

/-- `app_prov_set_state`, with the value that is notified. -/
def appProvSetState (s : SvcProv) (state : UInt8) : SvcProv × UInt8 :=
  ({s with state := state}, state)

/-- How `write_commit` ends: `emit`, `app_prov_set_state`, `return len`. -/
def SvcProv.report (s : SvcProv) (evt : ProvEvt) (state : UInt8) (len : Nat) :
    SvcProv × Response :=
  let (s, events) := emit s evt state
  let (s, value) := appProvSetState s state
  (s, ⟨.ok len, events, [value]⟩)

def writeCommit (s : SvcProv) (d : NvsAnswer) (buf : List UInt8) (offset : UInt16) :
    SvcProv × Response :=
  if offset ≠ 0 then (s, .plain (.error .invalidOffset))
  else
    match buf with
    | [] => (s, .plain (.error .invalidAttributeLen))
    | op :: _ =>
        if op = APP_PROV_OP_RESET then
          {s with nvs := (appNvramReset s.nvs d).1, staging := .zero}.report
            .reset APP_PROV_STATE_IDLE buf.length
        else if op ≠ APP_PROV_OP_COMMIT then
          (s, .plain (.error .valueNotAllowed))
        else if !appNvramIsValid s.staging then
          s.report .commitInvalid APP_PROV_STATE_INVALID buf.length
        else
          match appNvramSave s.nvs d s.staging with
          | (nvs, .ok) =>
              {s with nvs := nvs}.report .commitOk APP_PROV_STATE_COMMITTED
                buf.length
          | (nvs, _) =>
              {s with nvs := nvs}.report .commitIoError APP_PROV_STATE_IO_ERROR
                buf.length

def Chr.write (s : SvcProv) (d : NvsAnswer) (buf : List UInt8) (offset : UInt16) :
    Chr → SvcProv × Response
  | .ssid => writeSsid s buf offset
  | .password => writePass s buf offset
  | .security => writeSec s buf offset
  | .hostIp => writeHost s buf offset
  | .port => writePort s buf offset
  | .commit => writeCommit s d buf offset

/-- `app_prov_init`, with what its load of the stored record returned. -/
def appProvInit (s : SvcProv) (d : NvsAnswer) (cb userArg : Option Nat) :
    SvcProv × NvramRc :=
  let (nvs, staging, rc) := appNvramLoad s.nvs d .zero
  ({s with
      nvs := nvs
      staging := staging
      state := APP_PROV_STATE_IDLE
      cb := cb
      cbArg := userArg}, rc)

/-- The state after a power cycle: only the flash survives. -/
def SvcProv.powerUp (cred : Option AppNvramData) : SvcProv where
  nvs := ⟨false, cred⟩
  staging := .zero
  state := 0
  cb := none
  cbArg := none

/-! What happened, and what is to be stored. -/

/-- An observable step: a handled write, a start of the service with the result
of its load and the record in flash, or a power cycle. -/
inductive Entry where
  | wrote (chr : Chr) (buf : List UInt8) (rc : Except AttErr Nat)
  | started (rc : NvramRc) (cred : Option AppNvramData)
  | powered

/-- Forgets all earlier writes: RESET, a start of the service, a power cycle. -/
def Entry.clears : Entry → Bool
  | .wrote .commit (op :: _) (.ok _) => op == APP_PROV_OP_RESET
  | .wrote _ _ _ => false
  | .started _ _ => true
  | .powered => true

/-- The value that an accepted write gives to `chr`. -/
def Entry.accepted (chr : Chr) : Entry → Option (List UInt8)
  | .wrote c buf (.ok _) => if c = chr then some buf else none
  | _ => none

/-- The last accepted write to `chr` since the last entry that clears. -/
def lastWrite (chr : Chr) (log : List Entry) : Option (List UInt8) :=
  log.foldl (fun last e => if e.clears then none else (e.accepted chr).or last)
    none

/-- The record that a start of the service loads; all zero after any other
entry that clears. -/
def Entry.base : Entry → AppNvramData
  | .started .ok (some r) => r
  | _ => .zero

/-- The record under the writes since the last entry that clears. -/
def baseRecord (log : List Entry) : AppNvramData :=
  log.foldl (fun base e => if e.clears then e.base else base) .zero

/-- What a COMMIT is to store, field by field. -/
def wanted (log : List Entry) : AppNvramData where
  ssid := ((lastWrite .ssid log).map (padded _)).getD (baseRecord log).ssid
  password :=
    ((lastWrite .password log).map (padded _)).getD (baseRecord log).password
  security :=
    ((lastWrite .security log).map (padded _)).getD (baseRecord log).security
  hostIp := ((lastWrite .hostIp log).map (padded _)).getD (baseRecord log).hostIp
  port := ((lastWrite .port log).map portOf).getD (baseRecord log).port
  pad := 0

end Rw612.Prov
