import Rw612.Matter.Hub

/-!
The commissioning window, as the commands of `svc_matter.c` and the tick of the
main loop move it, and as `matter_hub_pack_status` reports it. Uptimes do not
run backwards and stay 65536 s below the end of the 32-bit clock.
-/

namespace Rw612.Matter

open Lib
open Prov (NvsAnswer)

def APP_MATTER_OP_FACTORY_RESET : UInt8 := 0x01
def APP_MATTER_OP_WINDOW_OPEN : UInt8 := 0x02
def APP_MATTER_OP_WINDOW_CLOSE : UInt8 := 0x03
def APP_MATTER_OP_DEV_SIM_FABRIC : UInt8 := 0x04

def APP_MATTER_VENDOR_ID : UInt16 := 0xFFF1
def APP_MATTER_PRODUCT_ID : UInt16 := 0x8001
def APP_MATTER_HARDWARE_VERSION : UInt16 := 1
def APP_MATTER_SOFTWARE_VERSION : UInt16 := 1

def matterHubCommissionWindowRemainingS (s : Hub) (uptimeS : UInt32) : UInt32 :=
  if !s.windowActive then 0
  else if s.windowEndUptimeS ≤ uptimeS then 0
  else s.windowEndUptimeS - uptimeS

def matterHubGetPrefsView (s : Hub) : MatterPrefs :=
  if s.windowActive then {s.prefs with commissioningState := MATTER_CMP_WINDOW_OPEN}
  else s.prefs

/-- The two bytes of a 16-bit field, low byte first. -/
def bytes16 (v : UInt16) : List UInt8 :=
  [(v &&& 0xFF).toUInt8, ((v >>> 8) &&& 0xFF).toUInt8]

/-- `matter_hub_pack_status` -/
def matterHubPackStatus (s : Hub) : List UInt8 :=
  let vw := matterHubGetPrefsView s
  let wr := (matterHubCommissionWindowRemainingS s s.cachedUptimeS).toUInt16
  [(vw.commissioningState &&& 0xFF).toUInt8, vw.fabricCount] ++ bytes16 wr ++
    bytes16 APP_MATTER_VENDOR_ID ++ bytes16 APP_MATTER_PRODUCT_ID ++
    bytes16 APP_MATTER_HARDWARE_VERSION ++ bytes16 APP_MATTER_SOFTWARE_VERSION ++
    [0, 0, 0, 0]

/-- The ATT errors of `write_cmd`. -/
inductive AttErr where
  | invalidOffset
  | invalidAttributeLen
  | unlikely
  deriving DecidableEq, Repr

/-- The duration that a WINDOW_OPEN command carries, 0 if none. -/
def commandDurationS (buf : List UInt8) : UInt32 :=
  match buf with
  | _ :: lo :: hi :: _ => lo.toUInt32 ||| (hi.toUInt32 <<< (8 : UInt32))
  | _ => 0

/-- The switch of `write_cmd`. -/
def matterCommand (s : Hub) (op : UInt8) (buf : List UInt8) (d : NvsAnswer) : Hub × Int :=
  if op = APP_MATTER_OP_FACTORY_RESET then matterHubFactoryReset s d
  else if op = APP_MATTER_OP_WINDOW_OPEN then
    matterHubCommissionWindowOpen s (commandDurationS buf) s.cachedUptimeS
  else if op = APP_MATTER_OP_WINDOW_CLOSE then matterHubCommissionWindowClose s
  else if op = APP_MATTER_OP_DEV_SIM_FABRIC then matterHubDevSimulateFabric s d
  else (s, -2)

/-- `write_cmd` of `svc_matter.c` -/
def matterWriteCmd (s : Hub) (buf : List UInt8) (offset : Nat) (d : NvsAnswer) :
    Hub × Except AttErr Nat :=
  if offset ≠ 0 then (s, .error .invalidOffset)
  else
    match buf with
    | [] => (s, .error .invalidAttributeLen)
    | op :: _ =>
        let (s, rc) := matterCommand s op buf d
        (s, if rc ≠ 0 then .error .unlikely else .ok buf.length)

inductive HubEvent where
  | write (buf : List UInt8) (offset : Nat) (d : NvsAnswer)
  | tick (uptimeS : UInt32)
  deriving DecidableEq

/-- 65536 below 2 ^ 32. -/
def UPTIME_LIMIT : Nat := 0xFFFF0000

/-- Commands and ticks in any order, with uptimes that do not run backwards. -/
def windowSystem : System Hub HubEvent where
  step s
    | .write buf offset d => some (matterWriteCmd s buf offset d).1
    | .tick uptimeS =>
        if s.cachedUptimeS ≤ uptimeS ∧ uptimeS.toNat < UPTIME_LIMIT then
          some (matterHubOnTick s uptimeS)
        else none

/-- A hub that has been initialised: no window, and a stored state that is not
WINDOW_OPEN in the byte that is reported. -/
structure Hub.Started (s : Hub) : Prop where
  inited : s.inited = true
  inactive : s.windowActive = false
  noEnd : s.windowEndUptimeS = 0
  clock : s.cachedUptimeS.toNat < UPTIME_LIMIT
  state : s.prefs.commissioningState &&& 0xFF ≠ MATTER_CMP_WINDOW_OPEN

/-- Byte 0 of the packed status. -/
def Hub.ReportsOpen (s : Hub) : Prop :=
  (matterHubPackStatus s).getD 0 0 = MATTER_CMP_WINDOW_OPEN.toUInt8

/-- Bytes 2 and 3 of the packed status. -/
def Hub.reportedRemaining (s : Hub) : Nat :=
  ((matterHubPackStatus s).getD 2 0).toNat + 256 * ((matterHubPackStatus s).getD 3 0).toNat

structure StatusAgrees (s : Hub) : Prop where
  nonzero : s.ReportsOpen ↔ s.reportedRemaining ≠ 0
  exact : s.reportedRemaining =
    if s.windowActive then s.windowEndUptimeS.toNat - s.cachedUptimeS.toNat else 0
  notPast : s.windowActive = true → s.cachedUptimeS < s.windowEndUptimeS

/-- A write that reaches one of the four commands. -/
def HubEvent.isCommand : HubEvent → Bool
  | .write (op :: _) 0 _ => decide (0x01 ≤ op ∧ op ≤ 0x04)
  | _ => false

/-- The seconds for which a WINDOW_OPEN command opens the window. -/
def windowDurationS (buf : List UInt8) : Nat :=
  if commandDurationS buf = 0 then 180 else (commandDurationS buf).toNat

/-! The packed bytes. -/

theorem and_255 (n : Nat) : n &&& 255 = n % 256 := Nat.and_two_pow_sub_one_eq_mod n 8

theorem bytes16_value (v : UInt16) :
    ((bytes16 v).getD 0 0).toNat + 256 * ((bytes16 v).getD 1 0).toNat = v.toNat := by
  have hlow : ((v &&& 0xFF).toUInt8).toNat = v.toNat % 256 := by
    rw [UInt16.toNat_toUInt8, UInt16.toNat_and]
    change (v.toNat &&& 255) % 256 = v.toNat % 256
    rw [and_255, Nat.mod_mod]
  have hhigh : (((v >>> 8) &&& 0xFF).toUInt8).toNat = v.toNat / 256 % 256 := by
    rw [UInt16.toNat_toUInt8, UInt16.toNat_and, UInt16.toNat_shiftRight]
    change (v.toNat >>> 8 &&& 255) % 256 = v.toNat / 256 % 256
    rw [and_255, Nat.mod_mod, Nat.shiftRight_eq_div_pow]
  have hlt := v.toNat_lt
  change ((v &&& 0xFF).toUInt8).toNat + 256 * (((v >>> 8) &&& 0xFF).toUInt8).toNat = v.toNat
  rw [hlow, hhigh]
  omega

theorem Hub.reportedRemaining_eq (s : Hub) :
    s.reportedRemaining =
      (matterHubCommissionWindowRemainingS s s.cachedUptimeS).toUInt16.toNat :=
  bytes16_value _

/-- Byte 0 is the low byte of the state. -/
theorem lowByte_eq_iff (x : UInt32) :
    (x &&& 0xFF).toUInt8 = MATTER_CMP_WINDOW_OPEN.toUInt8 ↔
      x &&& 0xFF = MATTER_CMP_WINDOW_OPEN := by
  constructor
  · intro h
    have hnat := congrArg UInt8.toNat h
    rw [UInt32.toNat_toUInt8, UInt32.toNat_and] at hnat
    change (x.toNat &&& 255) % 256 = 2 at hnat
    rw [and_255, Nat.mod_mod] at hnat
    apply UInt32.toNat_inj.mp
    rw [UInt32.toNat_and]
    change x.toNat &&& 255 = 2
    rw [and_255, hnat]
  · intro h
    rw [h]

theorem Hub.reportsOpen_iff (s : Hub)
    (h : s.prefs.commissioningState &&& 0xFF ≠ MATTER_CMP_WINDOW_OPEN) :
    s.ReportsOpen ↔ s.windowActive = true := by
  change ((matterHubGetPrefsView s).commissioningState &&& 0xFF).toUInt8 =
    MATTER_CMP_WINDOW_OPEN.toUInt8 ↔ _
  rw [lowByte_eq_iff, matterHubGetPrefsView]
  cases hactive : s.windowActive
  · simpa using h
  · simp only [if_true, iff_true]
    decide

theorem commandDurationS_lt (buf : List UInt8) : (commandDurationS buf).toNat < 65536 := by
  unfold commandDurationS
  split
  · rename_i lo hi _
    rw [UInt32.toNat_or, UInt32.toNat_shiftLeft, UInt8.toNat_toUInt32, UInt8.toNat_toUInt32]
    have hlo := lo.toNat_lt
    have hhi := hi.toNat_lt
    have hshift : hi.toNat <<< ((8 : UInt32).toNat % 32) % 2 ^ 32 < 2 ^ 16 := by
      change hi.toNat <<< 8 % 2 ^ 32 < 2 ^ 16
      rw [Nat.shiftLeft_eq]
      omega
    exact Nat.or_lt_two_pow (Nat.lt_trans hlo (by decide)) hshift
  · decide

theorem windowDurationS_bounds (buf : List UInt8) :
    0 < windowDurationS buf ∧ windowDurationS buf < 65536 := by
  have hlt := commandDurationS_lt buf
  unfold windowDurationS
  split
  · omega
  · rename_i hne
    have hpos : (commandDurationS buf).toNat ≠ 0 := fun h => hne (UInt32.toNat_inj.mp h)
    omega

/-! The invariant. -/

/-- An open window ends after the cached uptime, by less than 65536 s. -/
structure Hub.WindowOk (s : Hub) : Prop where
  inited : s.inited = true
  clock : s.cachedUptimeS.toNat < UPTIME_LIMIT
  state : s.prefs.commissioningState &&& 0xFF ≠ MATTER_CMP_WINDOW_OPEN
  opened : s.windowActive = true → s.cachedUptimeS.toNat < s.windowEndUptimeS.toNat ∧
    s.windowEndUptimeS.toNat < s.cachedUptimeS.toNat + 65536
  shut : s.windowActive = false → s.windowEndUptimeS = 0

theorem MatterPrefs.WellFormed.not_open {p : MatterPrefs} (h : p.WellFormed) :
    p.commissioningState &&& 0xFF ≠ MATTER_CMP_WINDOW_OPEN := by
  rcases h.state with hstate | hstate <;> rw [hstate] <;> decide

/-- A start-up that succeeds over a flash with a well-formed record, or with none,
leaves the hub so. -/
theorem matterHubInit_started {flash : Flash} (h : flash.WellFormed) {dl ds : NvsAnswer}
    (hok : (matterHubInit (.powerUp flash) dl ds).2 = 0) :
    (matterHubInit (.powerUp flash) dl ds).1.Started := by
  have hpower : Flash.WellFormed (Hub.powerUp flash).flash := h
  have hstate := (hpower.load dl (Hub.powerUp flash).prefs).2.not_open
  have hclock : (0 : UInt32).toNat < UPTIME_LIMIT := by decide
  unfold matterHubInit at hok ⊢
  rw [if_neg (by simp [Hub.powerUp])] at hok ⊢
  dsimp only at hok ⊢
  split_ifs at hok ⊢
  · cases hok
  · exact ⟨rfl, rfl, rfl, hclock, hstate⟩
  · exact ⟨rfl, rfl, rfl, hclock, hstate⟩

theorem Hub.Started.windowOk {s : Hub} (h : s.Started) : s.WindowOk where
  inited := h.inited
  clock := h.clock
  state := h.state
  opened hactive := by
    rw [h.inactive] at hactive
    cases hactive
  shut _ := h.noEnd

theorem Hub.WindowOk.agrees {s : Hub} (h : s.WindowOk) : StatusAgrees s := by
  have hopen := s.reportsOpen_iff h.state
  have hremaining := s.reportedRemaining_eq
  cases hactive : s.windowActive
  · have hzero : s.reportedRemaining = 0 := by
      rw [hremaining, matterHubCommissionWindowRemainingS, hactive]
      rfl
    refine ⟨?_, ?_, by simp [hactive]⟩
    · rw [hopen, hactive, hzero]
      simp
    · simp [hactive, hzero]
  · obtain ⟨hlt, hbound⟩ := h.opened hactive
    have hle : ¬s.windowEndUptimeS ≤ s.cachedUptimeS := by
      rw [UInt32.le_iff_toNat_le]
      omega
    have hsub : (s.windowEndUptimeS - s.cachedUptimeS).toNat =
        s.windowEndUptimeS.toNat - s.cachedUptimeS.toNat := by
      apply UInt32.toNat_sub_of_le
      rw [UInt32.le_iff_toNat_le]
      omega
    have hvalue : s.reportedRemaining =
        s.windowEndUptimeS.toNat - s.cachedUptimeS.toNat := by
      rw [hremaining, matterHubCommissionWindowRemainingS, hactive]
      simp only [Bool.not_true, Bool.false_eq_true, if_false, if_neg hle]
      rw [UInt32.toNat_toUInt16, hsub]
      omega
    refine ⟨?_, ?_, fun _ => UInt32.lt_iff_toNat_lt.mpr hlt⟩
    · rw [hopen, hactive, hvalue]
      apply iff_of_true rfl
      omega
    · simp [hactive, hvalue]

/-! One step. -/

theorem Hub.WindowOk.close {s : Hub} (h : s.WindowOk) (flash : Flash) {prefs : MatterPrefs}
    (hstate : prefs.commissioningState &&& 0xFF ≠ MATTER_CMP_WINDOW_OPEN) :
    Hub.WindowOk {s with
      flash := flash, prefs := prefs, windowActive := false, windowEndUptimeS := 0} :=
  ⟨h.inited, h.clock, hstate, by simp, fun _ => rfl⟩

/-- WINDOW_OPEN: the clock does not wrap. -/
theorem Hub.WindowOk.open_eq {s : Hub} (h : s.WindowOk) (buf : List UInt8) :
    ∃ windowEnd : UInt32, windowEnd.toNat = s.cachedUptimeS.toNat + windowDurationS buf ∧
      matterHubCommissionWindowOpen s (commandDurationS buf) s.cachedUptimeS =
        ({s with windowActive := true, windowEndUptimeS := windowEnd}, 0) := by
  have hbounds := windowDurationS_bounds buf
  have hclock := h.clock
  have hduration : (if commandDurationS buf = 0 then APP_MATTER_DEFAULT_COMMISSION_SECONDS
      else commandDurationS buf).toNat = windowDurationS buf := by
    unfold windowDurationS
    split <;> rfl
  refine ⟨s.cachedUptimeS + (if commandDurationS buf = 0 then
    APP_MATTER_DEFAULT_COMMISSION_SECONDS else commandDurationS buf), ?_, ?_⟩
  · rw [UInt32.toNat_add, hduration]
    rw [UPTIME_LIMIT] at hclock
    omega
  · simp [matterHubCommissionWindowOpen, h.inited]

theorem Hub.WindowOk.opened_ok {s : Hub} (h : s.WindowOk) {buf : List UInt8}
    {windowEnd : UInt32} (hend : windowEnd.toNat = s.cachedUptimeS.toNat + windowDurationS buf) :
    Hub.WindowOk {s with windowActive := true, windowEndUptimeS := windowEnd} := by
  have hbounds := windowDurationS_bounds buf
  refine ⟨h.inited, h.clock, h.state, fun _ => ?_, by simp⟩
  dsimp only
  omega

theorem Hub.WindowOk.command {s : Hub} (h : s.WindowOk) (op : UInt8) (buf : List UInt8)
    (d : NvsAnswer) : (matterCommand s op buf d).1.WindowOk := by
  unfold matterCommand
  have hinited : ¬(!s.inited) = true := by simp [h.inited]
  split_ifs
  · exact @Hub.WindowOk.close s h _ MatterPrefs.default (by decide)
  · obtain ⟨windowEnd, hend, heq⟩ := h.open_eq buf
    rw [heq]
    exact h.opened_ok hend
  · rw [matterHubCommissionWindowClose, if_neg hinited]
    exact h.close s.flash h.state
  · rw [matterHubDevSimulateFabric, if_neg hinited]
    have hstate : MATTER_CMP_COMMISSIONED &&& 0xFF ≠ MATTER_CMP_WINDOW_OPEN := by decide
    exact h.close _ hstate
  · exact h

/-- A tick stores the uptime, and shuts the window when its end is reached. -/
theorem Hub.WindowOk.tick_eq {s : Hub} (h : s.WindowOk) (uptimeS : UInt32) :
    matterHubOnTick s uptimeS =
      if s.windowActive = true ∧ s.windowEndUptimeS.toNat ≤ uptimeS.toNat then
        {s with cachedUptimeS := uptimeS, windowActive := false, windowEndUptimeS := 0}
      else {s with cachedUptimeS := uptimeS} := by
  cases hactive : s.windowActive
  · simp [matterHubOnTick, h.inited, hactive]
  · have hend : s.windowEndUptimeS ≠ 0 := by
      intro hzero
      have hopened := (h.opened hactive).1
      rw [hzero] at hopened
      cases hopened
    by_cases hpast : s.windowEndUptimeS.toNat ≤ uptimeS.toNat
    · have hlt : ¬uptimeS < s.windowEndUptimeS := by
        rw [UInt32.lt_iff_toNat_lt]
        omega
      simp [matterHubOnTick, h.inited, hactive, hend, hlt, hpast]
    · have hlt : uptimeS < s.windowEndUptimeS := by
        rw [UInt32.lt_iff_toNat_lt]
        omega
      simp [matterHubOnTick, h.inited, hactive, hend, hlt, hpast]

theorem Hub.WindowOk.tick {s : Hub} (h : s.WindowOk) {uptimeS : UInt32}
    (hforward : s.cachedUptimeS ≤ uptimeS) (hlimit : uptimeS.toNat < UPTIME_LIMIT) :
    (matterHubOnTick s uptimeS).WindowOk := by
  rw [h.tick_eq]
  rw [UInt32.le_iff_toNat_le] at hforward
  split
  · exact ⟨h.inited, hlimit, h.state, by simp, fun _ => rfl⟩
  · rename_i hbefore
    refine ⟨h.inited, hlimit, h.state, fun hactive => ?_, h.shut⟩
    have hopened := h.opened hactive
    have hend : ¬s.windowEndUptimeS.toNat ≤ uptimeS.toNat := fun hle => hbefore ⟨hactive, hle⟩
    dsimp only
    omega

theorem Hub.WindowOk.step {s s' : Hub} {e : HubEvent} (h : s.WindowOk)
    (hstep : windowSystem.step s e = some s') : s'.WindowOk := by
  cases e with
  | write buf offset d =>
      obtain rfl := Option.some.inj hstep
      unfold matterWriteCmd
      split
      · exact h
      · split
        · exact h
        · exact h.command _ _ d
  | tick uptimeS =>
      simp only [windowSystem] at hstep
      split_ifs at hstep with hclock
      obtain rfl := Option.some.inj hstep
      exact h.tick hclock.1 hclock.2

/-! From a WINDOW_OPEN on. -/

/-- The window is open until the uptime `until`. -/
structure Hub.OpenUntil (s : Hub) (until_ : Nat) : Prop where
  ok : s.WindowOk
  active : s.windowActive = true ↔ s.cachedUptimeS.toNat < until_
  ends : s.windowActive = true → s.windowEndUptimeS.toNat = until_

theorem matterWriteCmd_refused {s : Hub} {buf : List UInt8} {offset : Nat} {d : NvsAnswer}
    (h : HubEvent.isCommand (.write buf offset d) = false) :
    (matterWriteCmd s buf offset d).1 = s := by
  unfold matterWriteCmd
  split
  · rfl
  · rename_i hoffset
    obtain rfl := not_not.mp hoffset
    split
    · rfl
    · rename_i op rest
      simp only [HubEvent.isCommand, decide_eq_false_iff_not] at h
      have hne {k : UInt8} (hk : 0x01 ≤ k ∧ k ≤ 0x04) : op ≠ k := by
        rintro rfl
        exact h hk
      simp [matterCommand, hne (k := APP_MATTER_OP_FACTORY_RESET) (by decide),
        hne (k := APP_MATTER_OP_WINDOW_OPEN) (by decide),
        hne (k := APP_MATTER_OP_WINDOW_CLOSE) (by decide),
        hne (k := APP_MATTER_OP_DEV_SIM_FABRIC) (by decide)]

theorem Hub.OpenUntil.step {s s' : Hub} {e : HubEvent} {until_ : Nat}
    (h : s.OpenUntil until_) (hquiet : e.isCommand = false)
    (hstep : windowSystem.step s e = some s') : s'.OpenUntil until_ := by
  have hok := h.ok.step hstep
  cases e with
  | write buf offset d =>
      obtain rfl := Option.some.inj hstep
      rw [matterWriteCmd_refused hquiet]
      exact h
  | tick uptimeS =>
      simp only [windowSystem] at hstep
      split_ifs at hstep with hclock
      obtain rfl := Option.some.inj hstep
      have hforward := UInt32.le_iff_toNat_le.mp hclock.1
      refine ⟨hok, ?_, ?_⟩
      · rw [h.ok.tick_eq]
        split
        · rename_i hpast
          have hends := h.ends hpast.1
          simp only [Bool.false_eq_true, false_iff]
          omega
        · rename_i hbefore
          have hactive := h.active
          constructor
          · intro hopen
            have hends := h.ends hopen
            have hlt : ¬s.windowEndUptimeS.toNat ≤ uptimeS.toNat :=
              fun hle => hbefore ⟨hopen, hle⟩
            dsimp only
            omega
          · intro hlt
            apply hactive.mpr
            dsimp only at hlt
            omega
      · rw [h.ok.tick_eq]
        split
        · simp
        · exact h.ends

theorem Hub.OpenUntil.quiet {s s' : Hub} {es : List HubEvent} {until_ : Nat}
    (h : s.OpenUntil until_) (hquiet : ∀ e ∈ es, e.isCommand = false)
    (hrun : windowSystem.exec s es = some s') : s'.OpenUntil until_ := by
  induction es generalizing s with
  | nil =>
      obtain rfl := Option.some.inj hrun
      exact h
  | cons e es ih =>
      obtain ⟨mid, hstep, hrest⟩ := System.exec_cons_some hrun
      exact ih (h.step (hquiet e (by simp)) hstep) (fun e he => hquiet e (by simp [he])) hrest

theorem windowSystem_tick {s s' : Hub} {uptimeS : UInt32} (h : s.WindowOk)
    (hstep : windowSystem.step s (.tick uptimeS) = some s') : s'.cachedUptimeS = uptimeS := by
  simp only [windowSystem] at hstep
  split_ifs at hstep
  obtain rfl := Option.some.inj hstep
  rw [h.tick_eq]
  split <;> rfl

/-- In every reachable state the reported state and the reported seconds agree,
and after a WINDOW_OPEN every tick before its end finds the window open and
every other one shut, as long as no further command is handled. -/
theorem window_status_agrees {s₀ s : Hub} {es : List HubEvent} (hstart : s₀.Started)
    (hrun : windowSystem.exec s₀ es = some s) :
    StatusAgrees s ∧
      ∀ (buf : List UInt8) (d : NvsAnswer) (quiet : List HubEvent) (uptimeS : UInt32)
        (s' : Hub), buf.head? = some APP_MATTER_OP_WINDOW_OPEN →
        (∀ e ∈ quiet, e.isCommand = false) →
        windowSystem.exec s (.write buf 0 d :: quiet ++ [.tick uptimeS]) = some s' →
        (s'.ReportsOpen ↔ uptimeS.toNat < s.cachedUptimeS.toNat + windowDurationS buf) := by
  have hok := System.exec_invariant (fun _ _ _ h hs => Hub.WindowOk.step h hs)
    hstart.windowOk hrun
  refine ⟨hok.agrees, ?_⟩
  intro buf d quiet uptimeS s' hop hquiet hexec
  obtain ⟨windowEnd, hend, hopen⟩ := hok.open_eq buf
  rw [List.cons_append] at hexec
  obtain ⟨opened, hstep, hrest⟩ := System.exec_cons_some hexec
  have hopened : opened = {s with windowActive := true, windowEndUptimeS := windowEnd} := by
    obtain rfl := Option.some.inj hstep
    cases buf with
    | nil => cases hop
    | cons op rest =>
        obtain rfl := Option.some.inj hop
        change (matterHubCommissionWindowOpen s (commandDurationS _) s.cachedUptimeS).1 = _
        rw [hopen]
  have hbounds := windowDurationS_bounds buf
  have huntil : opened.OpenUntil (s.cachedUptimeS.toNat + windowDurationS buf) := by
    rw [hopened]
    refine ⟨hok.opened_ok hend, ?_, fun _ => hend⟩
    apply iff_of_true rfl
    dsimp only
    omega
  rw [System.exec_append] at hrest
  obtain ⟨last, hquietRun, htick⟩ := Option.bind_eq_some_iff.mp hrest
  obtain ⟨s'', htick', hnil⟩ := System.exec_cons_some htick
  obtain rfl := Option.some.inj hnil
  have hlast := huntil.quiet hquiet hquietRun
  have hfinal := hlast.step rfl htick'
  rw [s''.reportsOpen_iff hfinal.ok.state, hfinal.active, windowSystem_tick hlast.ok htick']

/-- A window of five seconds, from an uptime of ten. -/
def Hub.ready : Hub where
  flash := ⟨⟨true, none⟩, some .default⟩
  prefs := .default
  inited := true
  windowActive := false
  windowEndUptimeS := 0
  cachedUptimeS := 0

theorem window_status_agrees_five_seconds :
    ∃ s s', windowSystem.exec .ready [.tick 10] = some s ∧
      windowSystem.exec s [.write [0x02, 5, 0] 0 .success, .tick 12, .tick 14] = some s' ∧
      StatusAgrees s ∧ (s'.ReportsOpen ↔ 14 < 10 + 5) := by
  have hflash : Flash.WellFormed ⟨⟨true, none⟩, some .default⟩ := by
    rintro _ ⟨⟩
    exact MatterPrefs.wellFormed_default
  have hstart : Hub.ready.Started := @matterHubInit_started _ hflash .success .success rfl
  obtain ⟨hagrees, hopen⟩ := window_status_agrees hstart
    (rfl : windowSystem.exec .ready [.tick 10] = some _)
  exact ⟨_, _, rfl, rfl, hagrees,
    hopen [0x02, 5, 0] .success [.tick 12] 14 _ rfl (by simp [HubEvent.isCommand]) rfl⟩

end Rw612.Matter
