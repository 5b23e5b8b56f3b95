import Rw612.Lib.Transition
import Rw612.Prov.Nvram

/-!
The Matter hub of `matter_hub_core.c` and its preferences in NVS
(`matter_prefs.c`). The preferences are kept in RAM and in a record of their
own; the commissioning window is in RAM only. A restart clears the RAM.
-/

namespace Rw612.Matter

open Lib
open Prov (NvsAnswer)

/-- `matter_commissioning_state_t`; preferences hold these as 32-bit words. -/
def MATTER_CMP_READY : UInt32 := 1
def MATTER_CMP_WINDOW_OPEN : UInt32 := 2
def MATTER_CMP_COMMISSIONED : UInt32 := 3

def MATTER_MAX_FABRIC_COUNT : UInt8 := 8
def APP_MATTER_DEFAULT_COMMISSION_SECONDS : UInt32 := 180

/-- `matter_prefs_payload_t` -/
structure MatterPrefs where
  commissioningState : UInt32
  fabricCount : UInt8
  deriving DecidableEq, Repr

def SIZEOF_MATTER_PREFS : Int := 160

/-- `memset(&prefs, 0, sizeof(prefs))` -/
def MatterPrefs.zero : MatterPrefs := ⟨0, 0⟩

/-- `payload_default` -/
def MatterPrefs.default : MatterPrefs :=
  {MatterPrefs.zero with commissioningState := MATTER_CMP_READY}

/-- The mounted file system and the entry `APP_NVS_ID_MATTER_PREFS`. -/
structure Flash where
  nvs : Prov.Nvs
  record : Option MatterPrefs
  deriving DecidableEq, Repr

/-- `nvs_read` of the entry: the buffer and the length, or an error. -/
def Flash.read (f : Flash) (d : NvsAnswer) (out : MatterPrefs) : MatterPrefs × Int :=
  if d.opRc < 0 then (out, d.opRc)
  else
    match f.record with
    | none => (out, -Prov.ENOENT)
    | some p => (p, SIZEOF_MATTER_PREFS)

/-- `nvs_write` of the entry, which answers 0 when it already holds the data. -/
def Flash.write (f : Flash) (d : NvsAnswer) (payload : MatterPrefs) : Flash × Int :=
  if d.opRc < 0 then (f, d.opRc)
  else if f.record = some payload then (f, 0)
  else ({f with record := some payload}, SIZEOF_MATTER_PREFS)

def matterPrefsSave (f : Flash) (d : NvsAnswer) (payload : MatterPrefs) : Flash × Int :=
  match Prov.appNvsInit f.nvs d with
  | (nvs, 0) =>
      let (f, rc) := {f with nvs := nvs}.write d payload
      (f, if rc < 0 then -3 else 0)
  | (nvs, _) => ({f with nvs := nvs}, -2)

def matterPrefsLoad (f : Flash) (d : NvsAnswer) (out : MatterPrefs) :
    Flash × MatterPrefs × Int :=
  match Prov.appNvsInit f.nvs d with
  | (nvs, 0) =>
      let f := {f with nvs := nvs}
      let (out, rc) := f.read d out
      if rc = -Prov.ENOENT then (f, .default, -3)
      else if rc < 0 then (f, .default, -4)
      else if rc ≠ SIZEOF_MATTER_PREFS then (f, .default, -5)
      else (f, out, 0)
  | (nvs, _) => ({f with nvs := nvs}, .default, -2)

/-- The flash and the static variables of `matter_hub_core.c`. -/
structure Hub where
  flash : Flash
  prefs : MatterPrefs
  inited : Bool
  windowActive : Bool
  windowEndUptimeS : UInt32
  cachedUptimeS : UInt32
  deriving DecidableEq, Repr

/-- The RAM after power-up, over some flash. -/
def Hub.powerUp (flash : Flash) : Hub where
  flash := {flash with nvs := {flash.nvs with mounted := false}}
  prefs := .zero
  inited := false
  windowActive := false
  windowEndUptimeS := 0
  cachedUptimeS := 0

/-- `matter_hub_init`; `dl` answers the load and `ds` the save. -/
def matterHubInit (s : Hub) (dl ds : NvsAnswer) : Hub × Int :=
  if s.inited then (s, 0)
  else
    let (flash, prefs, rc) := matterPrefsLoad s.flash dl s.prefs
    let s := {s with flash := flash, prefs := prefs}
    if rc ≠ 0 then
      let (flash, rc) := matterPrefsSave s.flash ds s.prefs
      let s := {s with flash := flash}
      if rc ≠ 0 then (s, -2) else ({s with windowEndUptimeS := 0, inited := true}, 0)
    else ({s with windowEndUptimeS := 0, inited := true}, 0)

def matterHubOnTick (s : Hub) (uptimeS : UInt32) : Hub :=
  if !s.inited then s
  else
    let s := {s with cachedUptimeS := uptimeS}
    if !s.windowActive || s.windowEndUptimeS = 0 then s
    else if uptimeS < s.windowEndUptimeS then s
    else {s with windowActive := false, windowEndUptimeS := 0}

def matterHubCommissionWindowOpen (s : Hub) (durationS uptimeS : UInt32) : Hub × Int :=
  if !s.inited then (s, -2)
  else
    let durationS := if durationS = 0 then APP_MATTER_DEFAULT_COMMISSION_SECONDS else durationS
    ({s with
      cachedUptimeS := uptimeS
      windowActive := true
      windowEndUptimeS := uptimeS + durationS}, 0)

def matterHubCommissionWindowClose (s : Hub) : Hub × Int :=
  if !s.inited then (s, -2)
  else ({s with windowActive := false, windowEndUptimeS := 0}, 0)

/-- `persist_prefs` -/
def Hub.persistPrefs (s : Hub) (d : NvsAnswer) : Hub × Int :=
  let (flash, rc) := matterPrefsSave s.flash d s.prefs
  ({s with flash := flash}, rc)

/-- `matter_hub_factory_reset`, which does not ask whether the hub is initialised. -/
def matterHubFactoryReset (s : Hub) (d : NvsAnswer) : Hub × Int :=
  {s with
    prefs := {MatterPrefs.zero with commissioningState := MATTER_CMP_READY}
    windowActive := false
    windowEndUptimeS := 0}.persistPrefs d

/-- `matter_hub_dev_simulate_fabric_commissioned` -/
def matterHubDevSimulateFabric (s : Hub) (d : NvsAnswer) : Hub × Int :=
  if !s.inited then (s, -2)
  else
    let count := if s.prefs.fabricCount < MATTER_MAX_FABRIC_COUNT then s.prefs.fabricCount + 1
      else s.prefs.fabricCount
    {s with
      prefs := ⟨MATTER_CMP_COMMISSIONED, count⟩
      windowActive := false
      windowEndUptimeS := 0}.persistPrefs d

inductive HubAct where
  /-- The device restarts. -/
  | reboot
  | init (dl ds : NvsAnswer)
  | tick (uptimeS : UInt32)
  | windowOpen (durationS uptimeS : UInt32)
  | windowClose
  | factoryReset (d : NvsAnswer)
  | simulateFabric (d : NvsAnswer)
  deriving DecidableEq

def hubSystem : System Hub HubAct where
  step s
    | .reboot => some (.powerUp s.flash)
    | .init dl ds => some (matterHubInit s dl ds).1
    | .tick uptimeS => some (matterHubOnTick s uptimeS)
    | .windowOpen durationS uptimeS =>
        some (matterHubCommissionWindowOpen s durationS uptimeS).1
    | .windowClose => some (matterHubCommissionWindowClose s).1
    | .factoryReset d => some (matterHubFactoryReset s d).1
    | .simulateFabric d => some (matterHubDevSimulateFabric s d).1

/-- Preferences as they may stand in flash. -/
structure MatterPrefs.WellFormed (p : MatterPrefs) : Prop where
  state : p.commissioningState = MATTER_CMP_READY ∨
    p.commissioningState = MATTER_CMP_COMMISSIONED
  count : p.fabricCount ≤ MATTER_MAX_FABRIC_COUNT
  commissioned : p.commissioningState = MATTER_CMP_COMMISSIONED ↔ 0 < p.fabricCount

/-- The record is well formed, if there is one. -/
def Flash.WellFormed (f : Flash) : Prop := ∀ p, f.record = some p → p.WellFormed

/-! What loading and saving do. -/

theorem MatterPrefs.wellFormed_default : MatterPrefs.default.WellFormed := by
  constructor
  · exact Or.inl rfl
  · decide
  · decide

theorem Flash.write_record (f : Flash) (d : NvsAnswer) (p : MatterPrefs) :
    (f.write d p).1.record = f.record ∨ (f.write d p).1.record = some p := by
  unfold Flash.write
  split
  · exact Or.inl rfl
  · split
    · exact Or.inl rfl
    · exact Or.inr rfl

theorem matterPrefsSave_record (f : Flash) (d : NvsAnswer) (p : MatterPrefs) :
    (matterPrefsSave f d p).1.record = f.record ∨
      (matterPrefsSave f d p).1.record = some p := by
  unfold matterPrefsSave
  split
  · rename_i nvs _
    exact Flash.write_record {f with nvs := nvs} d p
  · exact Or.inl rfl

theorem Flash.WellFormed.save {f : Flash} (h : f.WellFormed) {p : MatterPrefs}
    (hp : p.WellFormed) (d : NvsAnswer) : (matterPrefsSave f d p).1.WellFormed := by
  intro p' hp'
  rcases matterPrefsSave_record f d p with hsame | hnew
  · exact h p' (hsame.symm.trans hp')
  · obtain rfl := Option.some.inj (hnew.symm.trans hp')
    exact hp

/-- Loading leaves the record alone and fills the buffer with it, or with the
default preferences. -/
theorem matterPrefsLoad_spec (f : Flash) (d : NvsAnswer) (out : MatterPrefs) :
    (matterPrefsLoad f d out).1.record = f.record ∧
      ((matterPrefsLoad f d out).2.1 = .default ∨
        f.record = some (matterPrefsLoad f d out).2.1) := by
  unfold matterPrefsLoad
  split
  · rename_i nvs hinit
    dsimp only [Flash.read]
    by_cases hfault : d.opRc < 0
    · rw [if_pos hfault]
      split_ifs <;> exact ⟨rfl, Or.inl rfl⟩
    · rw [if_neg hfault]
      split
      · exact ⟨rfl, Or.inl rfl⟩
      · rename_i p hrecord
        exact ⟨rfl, Or.inr hrecord⟩
  · exact ⟨rfl, Or.inl rfl⟩

theorem Flash.WellFormed.load {f : Flash} (h : f.WellFormed) (d : NvsAnswer)
    (out : MatterPrefs) :
    (matterPrefsLoad f d out).1.WellFormed ∧ (matterPrefsLoad f d out).2.1.WellFormed := by
  obtain ⟨hrecord, hout⟩ := matterPrefsLoad_spec f d out
  constructor
  · intro p hp
    exact h p (hrecord.symm.trans hp)
  · rcases hout with hdefault | hload
    · rw [hdefault]
      exact MatterPrefs.wellFormed_default
    · exact h _ hload

/-! The invariant. -/

/-- The preferences in RAM may be ahead of the record, but once the hub is
initialised they could be stored at any time. -/
structure Hub.Inv (s : Hub) : Prop where
  flash : s.flash.WellFormed
  prefs : s.inited = true → s.prefs.WellFormed

theorem Hub.Inv.init {s : Hub} (h : s.Inv) (dl ds : NvsAnswer) :
    (matterHubInit s dl ds).1.Inv := by
  unfold matterHubInit
  split
  · exact h
  · obtain ⟨hflash, hprefs⟩ := h.flash.load dl s.prefs
    dsimp only
    split
    · split
      · exact ⟨hflash.save hprefs ds, fun _ => hprefs⟩
      · exact ⟨hflash.save hprefs ds, fun _ => hprefs⟩
    · exact ⟨hflash, fun _ => hprefs⟩

theorem Hub.Inv.tick {s : Hub} (h : s.Inv) (uptimeS : UInt32) :
    (matterHubOnTick s uptimeS).Inv := by
  unfold matterHubOnTick
  dsimp only
  split_ifs <;> exact ⟨h.flash, h.prefs⟩

/-- A fabric is added to well-formed preferences. -/
theorem MatterPrefs.WellFormed.commission {p : MatterPrefs} (h : p.WellFormed) :
    MatterPrefs.WellFormed ⟨MATTER_CMP_COMMISSIONED,
      if p.fabricCount < MATTER_MAX_FABRIC_COUNT then p.fabricCount + 1 else p.fabricCount⟩ := by
  have hcount := UInt8.le_iff_toNat_le.mp h.count
  have hmax : MATTER_MAX_FABRIC_COUNT.toNat = 8 := rfl
  rw [hmax] at hcount
  constructor
  · exact Or.inr rfl
  · dsimp only
    rw [UInt8.le_iff_toNat_le, hmax]
    split
    · rename_i hlt
      rw [UInt8.lt_iff_toNat_lt, hmax] at hlt
      rw [UInt8.toNat_add, UInt8.toNat_one]
      omega
    · exact hcount
  · apply iff_of_true rfl
    dsimp only
    rw [UInt8.lt_iff_toNat_lt, UInt8.toNat_zero]
    split
    · rename_i hlt
      rw [UInt8.lt_iff_toNat_lt, hmax] at hlt
      rw [UInt8.toNat_add, UInt8.toNat_one]
      omega
    · rename_i hge
      rw [UInt8.lt_iff_toNat_lt, hmax] at hge
      omega

theorem Hub.Inv.simulate {s : Hub} (h : s.Inv) (d : NvsAnswer) :
    (matterHubDevSimulateFabric s d).1.Inv := by
  unfold matterHubDevSimulateFabric
  split
  · exact h
  · rename_i hinited
    have hprefs := h.prefs (by simpa using hinited)
    exact ⟨h.flash.save hprefs.commission d, fun _ => hprefs.commission⟩

theorem Hub.Inv.step {s s' : Hub} {a : HubAct} (h : s.Inv)
    (hstep : hubSystem.step s a = some s') : s'.Inv := by
  cases a with
  | reboot =>
      cases hstep
      exact ⟨h.flash, by simp [Hub.powerUp]⟩
  | init dl ds =>
      cases hstep
      exact h.init dl ds
  | tick uptimeS =>
      cases hstep
      exact h.tick uptimeS
  | windowOpen durationS uptimeS =>
      cases hstep
      unfold matterHubCommissionWindowOpen
      split <;> exact ⟨h.flash, h.prefs⟩
  | windowClose =>
      cases hstep
      unfold matterHubCommissionWindowClose
      split <;> exact ⟨h.flash, h.prefs⟩
  | factoryReset d =>
      cases hstep
      exact ⟨h.flash.save MatterPrefs.wellFormed_default d,
        fun _ => MatterPrefs.wellFormed_default⟩
  | simulateFabric d =>
      cases hstep
      exact h.simulate d

/-- From a flash without a record, and with any failures of NVS and any number of
restarts, the stored preferences are well formed. -/
theorem stored_prefs_well_formed (nvs : Prov.Nvs) (acts : List HubAct) :
    hubSystem.Always (fun s => s.flash.WellFormed) (.powerUp ⟨nvs, none⟩) acts := by
  have hstart : (Hub.powerUp ⟨nvs, none⟩).Inv := ⟨by simp [Flash.WellFormed, Hub.powerUp],
    by simp [Hub.powerUp]⟩
  have hinv := System.always_of_inv (fun _ _ _ h hs => Hub.Inv.step h hs) hstart acts
  exact hinv.mono fun _ h => h.flash

end Rw612.Matter
