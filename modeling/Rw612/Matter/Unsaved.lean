import Rw612.Matter.Window

/-!
What a factory reset or a simulated fabric leaves behind when the preferences
cannot be saved. Both change the RAM first and then call `persist_prefs`, so an
error does not mean that nothing has happened.
-/

namespace Rw612.Matter

open Lib
open Prov (NvsAnswer)

/-- The flash holds the preferences of the RAM. -/
def Hub.Stored (s : Hub) : Prop := s.flash.record = some s.prefs

/-- Nothing that a failed call may not change has changed. -/
structure Hub.Unchanged (s s' : Hub) : Prop where
  prefs : s'.prefs = s.prefs
  windowActive : s'.windowActive = s.windowActive
  windowEnd : s'.windowEndUptimeS = s.windowEndUptimeS
  status : matterHubPackStatus s' = matterHubPackStatus s
  stored : s.Stored → s'.Stored

/-- A factory reset or a simulated fabric that returns an error has no effect. -/
def ErrorKeeps (s : Hub) : HubAct → Prop
  | .factoryReset d =>
      (matterHubFactoryReset s d).2 ≠ 0 → s.Unchanged (matterHubFactoryReset s d).1
  | .simulateFabric d =>
      (matterHubDevSimulateFabric s d).2 ≠ 0 → s.Unchanged (matterHubDevSimulateFabric s d).1
  | _ => True

/-- NVS can be mounted and the write does not fail. -/
def Hub.Saves (s : Hub) (d : NvsAnswer) : Prop := s.flash.nvs.Mounts d ∧ 0 ≤ d.opRc

def Hub.NoWindow (s : Hub) : Prop := s.windowActive = false ∧ s.windowEndUptimeS = 0

/-- The preferences can be saved, or the call has nothing to change. -/
def SavesOrIdle (s : Hub) : HubAct → Prop
  | .factoryReset d => s.Saves d ∨ (s.prefs = .default ∧ s.NoWindow)
  | .simulateFabric d =>
      s.inited = false ∨ s.Saves d ∨
        (s.prefs.commissioningState = MATTER_CMP_COMMISSIONED ∧
          MATTER_MAX_FABRIC_COUNT ≤ s.prefs.fabricCount ∧ s.NoWindow)
  | _ => True

/-! Saving. -/

theorem Flash.write_failure {f : Flash} {d : NvsAnswer} (h : d.opRc < 0) (p : MatterPrefs) :
    f.write d p = (f, d.opRc) :=
  if_pos h

theorem Flash.write_ok {f : Flash} {d : NvsAnswer} (h : 0 ≤ d.opRc) (p : MatterPrefs) :
    ¬(f.write d p).2 < 0 := by
  rw [Flash.write, if_neg (Int.not_lt.mpr h)]
  split
  · exact Int.lt_irrefl 0
  · have hsize : ¬SIZEOF_MATTER_PREFS < 0 := by decide
    exact hsize

/-- A save succeeds, or returns an error and leaves the record as it was. -/
theorem matterPrefsSave_cases (f : Flash) (d : NvsAnswer) (p : MatterPrefs) :
    ((f.nvs.Mounts d ∧ 0 ≤ d.opRc) ∧ (matterPrefsSave f d p).2 = 0) ∨
    (¬(f.nvs.Mounts d ∧ 0 ≤ d.opRc) ∧ (matterPrefsSave f d p).2 ≠ 0 ∧
      (matterPrefsSave f d p).1.record = f.record) := by
  have hmounts := Prov.appNvsInit_ok_iff f.nvs d
  unfold matterPrefsSave
  split
  · rename_i nvs hinit
    rw [hinit] at hmounts
    rcases Int.lt_or_le d.opRc 0 with hfault | hok
    · right
      rw [Flash.write_failure hfault]
      refine ⟨fun h => ?_, ?_, rfl⟩
      · exact absurd h.2 (Int.not_le.mpr hfault)
      · dsimp only
        rw [if_pos hfault]
        decide
    · left
      exact ⟨⟨hmounts.mp rfl, hok⟩, if_neg (Flash.write_ok hok p)⟩
  · rename_i nvs rc hrc hinit
    rw [hinit] at hmounts
    right
    have hcode : (-2 : Int) ≠ 0 := by decide
    exact ⟨fun h => hrc (hmounts.mpr h.1), hcode, rfl⟩

/-! The two calls have one shape: an edit of the RAM, then `persist_prefs`. -/

/-- Other preferences and no window. -/
def Hub.edited (s : Hub) (p : MatterPrefs) : Hub :=
  {s with prefs := p, windowActive := false, windowEndUptimeS := 0}

theorem Hub.edited_eq_self_iff (s : Hub) (p : MatterPrefs) :
    s.edited p = s ↔ s.prefs = p ∧ s.NoWindow := by
  constructor
  · intro h
    refine ⟨?_, ?_, ?_⟩
    · exact (congrArg Hub.prefs h).symm
    · exact (congrArg Hub.windowActive h).symm
    · exact (congrArg Hub.windowEndUptimeS h).symm
  · rintro ⟨rfl, hactive, hend⟩
    rw [edited, ← hactive, ← hend]

theorem Hub.persist_unchanged_iff (s : Hub) (p : MatterPrefs) (d : NvsAnswer) :
    (((s.edited p).persistPrefs d).2 ≠ 0 → s.Unchanged ((s.edited p).persistPrefs d).1) ↔
      s.Saves d ∨ (s.prefs = p ∧ s.NoWindow) := by
  rcases matterPrefsSave_cases s.flash d p with ⟨hsaves, hrc⟩ | ⟨hsaves, hrc, hrecord⟩
  · apply iff_of_true
    · exact fun hfail => absurd hrc hfail
    · exact Or.inl hsaves
  · constructor
    · intro h
      have hsame := h hrc
      exact Or.inr ⟨hsame.prefs.symm, hsame.windowActive.symm, hsame.windowEnd.symm⟩
    · intro h _
      have hself : s.edited p = s := (s.edited_eq_self_iff p).mpr (h.resolve_left hsaves)
      have hprefs : p = s.prefs := congrArg Hub.prefs hself
      rw [hprefs] at hrecord
      rw [hself]
      constructor
      · rfl
      · rfl
      · rfl
      · rfl
      · exact fun hstored => hrecord.trans hstored

theorem errorKeeps_factoryReset (s : Hub) (d : NvsAnswer) :
    ErrorKeeps s (.factoryReset d) ↔ SavesOrIdle s (.factoryReset d) :=
  s.persist_unchanged_iff .default d

theorem errorKeeps_simulateFabric (s : Hub) (d : NvsAnswer) :
    ErrorKeeps s (.simulateFabric d) ↔ SavesOrIdle s (.simulateFabric d) := by
  simp only [ErrorKeeps, SavesOrIdle]
  cases hinited : s.inited with
  | false =>
      apply iff_of_true
      · intro _
        have hsame : (matterHubDevSimulateFabric s d).1 = s := by
          simp [matterHubDevSimulateFabric, hinited]
        rw [hsame]
        exact ⟨rfl, rfl, rfl, rfl, fun hstored => hstored⟩
      · exact Or.inl rfl
  | true =>
      have hcall : matterHubDevSimulateFabric s d =
          (s.edited ⟨MATTER_CMP_COMMISSIONED,
            if s.prefs.fabricCount < MATTER_MAX_FABRIC_COUNT then s.prefs.fabricCount + 1
            else s.prefs.fabricCount⟩).persistPrefs d := by
        simp [matterHubDevSimulateFabric, hinited, Hub.edited]
      rw [hcall, s.persist_unchanged_iff]
      have hsame : s.prefs = ⟨MATTER_CMP_COMMISSIONED,
          if s.prefs.fabricCount < MATTER_MAX_FABRIC_COUNT then s.prefs.fabricCount + 1
          else s.prefs.fabricCount⟩ ↔
          s.prefs.commissioningState = MATTER_CMP_COMMISSIONED ∧
            MATTER_MAX_FABRIC_COUNT ≤ s.prefs.fabricCount := by
        constructor
        · intro h
          have hcount := congrArg MatterPrefs.fabricCount h
          refine ⟨congrArg MatterPrefs.commissioningState h, ?_⟩
          by_contra hlt
          rw [UInt8.not_le] at hlt
          simp only [hlt, if_true] at hcount
          have hroom : s.prefs.fabricCount.toNat < 8 := UInt8.lt_iff_toNat_lt.mp hlt
          have hnat := congrArg UInt8.toNat hcount
          rw [UInt8.toNat_add, UInt8.toNat_one] at hnat
          omega
        · rintro ⟨hstate, hmax⟩
          rw [if_neg (UInt8.not_lt.mpr hmax), ← hstate]
      rw [hsame, and_assoc]
      simp

theorem errorKeeps_step_iff (s : Hub) (a : HubAct) : ErrorKeeps s a ↔ SavesOrIdle s a := by
  cases a with
  | factoryReset d => exact errorKeeps_factoryReset s d
  | simulateFabric d => exact errorKeeps_simulateFabric s d
  | reboot | init | tick | windowOpen | windowClose => exact Iff.rfl

/-- Along any run from a flash without a record, an error of either call means
that nothing has changed if and only if in each call the preferences can be
saved or there is nothing to change. -/
theorem error_keeps_iff (nvs : Prov.Nvs) (acts : List HubAct) :
    hubSystem.Meets ErrorKeeps (.powerUp ⟨nvs, none⟩) acts ↔
      hubSystem.Meets SavesOrIdle (.powerUp ⟨nvs, none⟩) acts := by
  constructor
  · exact System.Meets.mono fun s a => (errorKeeps_step_iff s a).mp
  · exact System.Meets.mono fun s a => (errorKeeps_step_iff s a).mpr

/-- A fabric is stored, and a factory reset whose `nvs_write` fails with -5 is
answered with -3: the RAM says READY and no fabric, the flash still one. -/
theorem failed_reset_shows :
    ¬hubSystem.Meets ErrorKeeps (.powerUp ⟨⟨false, none⟩, none⟩)
      [.init .success .success, .simulateFabric .success, .factoryReset ⟨true, 0, 0, -5⟩] := by
  intro h
  have hlast := ((h _ rfl).2 _ rfl).2 _ rfl
  have hprefs := (hlast.1 (by decide)).prefs
  revert hprefs
  decide

end Rw612.Matter
