import Rw612.Audio.Es8388

/-!
The player, `audio_player.c`: a thread asks for the volume and for pauses, the work queue
brings the codec up, and other tasks use the bus in between.
-/

namespace Rw612.Audio

open Lib Sensors

def EAGAIN : Int := 11

/-- `audio_player_state_t` -/
inductive PlayerState where
  | idle
  | ready
  | connected
  | playing
  | paused
  | error
  deriving DecidableEq

/-- `queued` is whether `s_init_work` waits, `told` what the state callback was called
with, `answer` what the last call returned. `volRc` and `muteRc` are what the codec
driver ended with when it last set the volume and the mute bit. -/
structure Player where
  state : PlayerState
  stateCb : Bool
  inited : Bool
  vol : UInt8
  addr : UInt8
  queued : Bool
  told : List PlayerState
  answer : Int
  volRc : Int
  muteRc : Int

def Player.powerUp : Player where
  state := .idle
  stateCb := false
  inited := false
  vol := 0
  addr := 0
  queued := false
  told := []
  answer := 0
  volRc := 0
  muteRc := 0

def Player.setState (p : Player) (st : PlayerState) : Player :=
  {p with state := st, told := if p.stateCb then p.told ++ [st] else p.told}

def es8388InitWorkFn (ready : Bool) (p : Player) : BusProg Player := do
  let (rc, addr) ← es8388Init ready ⟨ES8388_I2C_ADDR_LOW, p.vol⟩ p.addr
  let p := {p with addr := addr}
  if rc = 0 then return {p with inited := true, volRc := 0, muteRc := 0}.setState .ready
  else return p.setState .error

def audioPlayerInit (vol : UInt8) (stateCb : Bool) (p : Player) : Player :=
  {p with stateCb := stateCb, vol := vol, inited := false, queued := true, answer := 0}

def audioPlayerPause (p : Player) : BusProg Player := do
  if !p.inited then return {p with answer := -EAGAIN}
  else
    let rc ← es8388SetMute p.addr true
    return {p with muteRc := rc, answer := 0}.setState .paused

def audioPlayerResume (p : Player) : BusProg Player := do
  if !p.inited then return {p with answer := -EAGAIN}
  else
    let rc ← es8388SetMute p.addr false
    return {p with muteRc := rc, answer := 0}.setState .playing

def audioPlayerSetVolume (vol : UInt8) (p : Player) : BusProg Player := do
  if !p.inited then return {p with answer := -EAGAIN}
  else
    let rc ← es8388SetVolume p.addr vol
    return {p with vol := vol, volRc := rc, answer := rc}

/-- A call of the player, or a turn of the work queue. -/
inductive Command where
  | init (vol : UInt8) (stateCb : Bool)
  | initWork
  | pause
  | resume
  | setVolume (vol : UInt8)

def Command.run (ready : Bool) (p : Player) : Command → BusProg Player
  | .init vol stateCb => return audioPlayerInit vol stateCb p
  | .initWork => if p.queued then es8388InitWorkFn ready {p with queued := false} else return p
  | .pause => audioPlayerPause p
  | .resume => audioPlayerResume p
  | .setVolume vol => audioPlayerSetVolume vol p

/-- A player that is up and its codec: the registers are as the initialisation leaves
them, except the volume and the mute bit. The volume is the player's unless setting it
has failed, and the codec is muted while the player is paused unless that has failed. -/
structure Player.Agrees (p : Player) (regs : UInt8 → UInt8) : Prop where
  isUp : p.state = .ready ∨ p.state = .playing ∨ p.state = .paused
  told : p.stateCb = true → p.told.getLast? = some p.state
  routed : ∀ w ∈ routing, regs w.1 = w.2
  powered : regs ES8388_DACPOWER = 0x3C
  muteBit : regs ES8388_DACCONTROL3 = 0 ∨ regs ES8388_DACCONTROL3 = 0x04
  volume : p.volRc = 0 → regs ES8388_LOUT1VOL = p.vol ∧ regs ES8388_ROUT1VOL = p.vol
  muted : p.muteRc = 0 → (regs ES8388_DACCONTROL3 = 0x04 ↔ p.state = .paused)

structure Player.Inv (p : Player) (regs : UInt8 → UInt8) : Prop where
  waits : p.queued = true → p.inited = false
  addr : p.inited = true → p.addr = ES8388_I2C_ADDR_LOW
  agrees : p.inited = true → p.Agrees regs

theorem Player.Inv.down {p : Player} {regs : UInt8 → UInt8} (h : p.inited = false) :
    p.Inv regs where
  waits _ := h
  addr hup := absurd (h.symm.trans hup) Bool.false_ne_true
  agrees hup := absurd (h.symm.trans hup) Bool.false_ne_true

theorem Player.setState_told (p : Player) (st : PlayerState) :
    (p.setState st).stateCb = true → (p.setState st).told.getLast? = some st := by
  intro hcb
  have hcb' : p.stateCb = true := hcb
  simp [Player.setState, hcb']

/-- The codec's address is known to a player that is up. -/
def Player.Knows (p : Player) : Prop := p.inited = true → p.addr = ES8388_I2C_ADDR_LOW

theorem Command.keeps (ready : Bool) {p : Player} (h : p.Knows) (c : Command) :
    (c.run ready p).Keeps ToCodec Player.Knows := by
  cases c with
  | init vol stateCb => exact fun hup => by cases hup
  | initWork =>
      unfold Command.run
      dsimp only
      split
      · apply (init_keeps ready p.vol p.addr).bind
        rintro ⟨rc, addr⟩ haddr
        have hlow : p.inited = true → addr = ES8388_I2C_ADDR_LOW :=
          fun hup => haddr.elim id (fun hkept => hkept.2.trans (h hup))
        dsimp only at haddr ⊢
        split
        case isTrue hrc => exact fun _ => haddr.resolve_right (fun hkept => hkept.1 hrc)
        case isFalse => exact hlow
      · exact h
  | pause =>
      change (audioPlayerPause p).Keeps ToCodec Player.Knows
      unfold audioPlayerPause
      split
      · exact h
      · next hup =>
        rw [h (by simpa using hup)]
        exact (setMute_keeps true).bind (fun _ _ _ => rfl)
  | resume =>
      change (audioPlayerResume p).Keeps ToCodec Player.Knows
      unfold audioPlayerResume
      split
      · exact h
      · next hup =>
        rw [h (by simpa using hup)]
        exact (setMute_keeps false).bind (fun _ _ _ => rfl)
  | setVolume vol =>
      change (audioPlayerSetVolume vol p).Keeps ToCodec Player.Knows
      unfold audioPlayerSetVolume
      split
      · exact h
      · next hup =>
        rw [h (by simpa using hup)]
        exact (setVolume_keeps vol).bind (fun _ _ _ => rfl)

section

variable {τ : Type} {codec : Attached τ} {regs : τ → UInt8 → UInt8} (hcodec : IsCodec codec regs)
include hcodec

theorem initWork_inv (ready : Bool) (p : Player) (d : τ) (hqueued : p.queued = false)
    (hdown : p.inited = false) :
    ((es8388InitWorkFn ready p).run codec d).1.Inv
      (regs ((es8388InitWorkFn ready p).run codec d).2) := by
  have htaken := init_taken hcodec ready p.vol p.addr d
  have haddr := (init_keeps ready p.vol p.addr).result codec d
  unfold es8388InitWorkFn
  rw [Prog.run_bind]
  generalize (es8388Init ready ⟨ES8388_I2C_ADDR_LOW, p.vol⟩ p.addr).run codec d = after at *
  obtain ⟨⟨rc, addr⟩, d'⟩ := after
  dsimp only at htaken haddr ⊢
  by_cases hrc : rc = 0
  · have hregs := htaken hrc
    obtain ⟨hrouting, houtputs⟩ := List.forall_mem_append.mp hregs
    obtain ⟨hleft, houtputs⟩ := List.forall_mem_cons.mp houtputs
    obtain ⟨hright, houtputs⟩ := List.forall_mem_cons.mp houtputs
    obtain ⟨hpower, houtputs⟩ := List.forall_mem_cons.mp houtputs
    have hmute : regs d' ES8388_DACCONTROL3 = 0 := (List.forall_mem_cons.mp houtputs).1
    rw [if_pos hrc]
    constructor
    · intro hwaits
      exact absurd (hqueued.symm.trans hwaits) Bool.false_ne_true
    · intro _
      exact haddr.resolve_right (fun hkept => hkept.1 hrc)
    · intro _
      constructor
      · exact .inl rfl
      · exact Player.setState_told _ _
      · exact hrouting
      · exact hpower
      · exact .inl hmute
      · exact fun _ => ⟨hleft, hright⟩
      · intro _
        rw [Prog.run_pure, hmute]
        exact iff_of_false (by decide) (by simp [Player.setState])
  · rw [if_neg hrc]
    exact Player.Inv.down hdown

/-- The mute bit of a player that is up, and the state that goes with it. -/
theorem Player.Inv.mute {p : Player} {d : τ} (h : p.Inv (regs d)) (hup : p.inited = true)
    (mute : Bool) (st : PlayerState) (hst : st = if mute then .paused else .playing) :
    let after := (es8388SetMute p.addr mute).run codec d
    Player.Inv ({p with muteRc := after.1, answer := 0}.setState st) (regs after.2) := by
  have hagrees := h.agrees hup
  obtain ⟨hkept, hbit, htaken⟩ := setMute_taken hcodec mute d hagrees.muteBit
  rw [h.addr hup]
  generalize (es8388SetMute ES8388_I2C_ADDR_LOW mute).run codec d = after at *
  dsimp only at hkept hbit htaken ⊢
  refine ⟨h.waits, fun _ => rfl, fun _ => ⟨?_, Player.setState_told _ _, fun w hw => ?_, ?_, hbit,
    fun hrc => ?_, fun hrc => ?_⟩⟩
  · subst hst
    cases mute with
    | false => exact .inr (.inl rfl)
    | true => exact .inr (.inr rfl)
  · have hne : ES8388_DACCONTROL3 ∉ routing.map Prod.fst := by decide
    rw [hkept w.1 (fun h => hne (h ▸ List.mem_map_of_mem hw)), hagrees.routed w hw]
  · rw [hkept _ (by decide), hagrees.powered]
  · rw [hkept _ (by decide), hkept _ (by decide)]
    exact hagrees.volume hrc
  · rw [htaken hrc]
    subst hst
    cases mute with
    | false => exact iff_of_false (by decide) (by simp [Player.setState])
    | true => exact iff_of_true rfl rfl

theorem Player.Inv.setVolume {p : Player} {d : τ} (h : p.Inv (regs d)) (hup : p.inited = true)
    (vol : UInt8) :
    let after := (es8388SetVolume p.addr vol).run codec d
    Player.Inv {p with vol := vol, volRc := after.1, answer := after.1} (regs after.2) := by
  have hagrees := h.agrees hup
  obtain ⟨hkept, htaken⟩ := setVolume_taken hcodec vol d
  rw [h.addr hup]
  generalize (es8388SetVolume ES8388_I2C_ADDR_LOW vol).run codec d = after at *
  dsimp only at hkept htaken ⊢
  have hmute : regs after.2 ES8388_DACCONTROL3 = regs d ES8388_DACCONTROL3 :=
    hkept _ (by decide) (by decide)
  refine ⟨h.waits, fun _ => rfl, fun _ => ⟨hagrees.isUp, hagrees.told, fun w hw => ?_, ?_, ?_,
    htaken, fun hrc => ?_⟩⟩
  · have hleft : ES8388_LOUT1VOL ∉ routing.map Prod.fst := by decide
    have hright : ES8388_ROUT1VOL ∉ routing.map Prod.fst := by decide
    rw [hkept w.1 (fun h => hleft (h ▸ List.mem_map_of_mem hw))
      (fun h => hright (h ▸ List.mem_map_of_mem hw)), hagrees.routed w hw]
  · rw [hkept _ (by decide) (by decide), hagrees.powered]
  · rw [hmute]
    exact hagrees.muteBit
  · rw [hmute]
    exact hagrees.muted hrc

/-- A command keeps the player and its codec in agreement. -/
theorem Player.Inv.command (ready : Bool) {p : Player} {d : τ} (h : p.Inv (regs d))
    (c : Command) :
    ((c.run ready p).run codec d).1.Inv (regs ((c.run ready p).run codec d).2) := by
  cases c with
  | init vol stateCb => exact Player.Inv.down rfl
  | initWork =>
      unfold Command.run
      dsimp only
      split
      · next hqueued => exact initWork_inv hcodec ready _ d rfl (h.waits hqueued)
      · exact h
  | pause =>
      change ((audioPlayerPause p).run codec d).1.Inv (regs ((audioPlayerPause p).run codec d).2)
      unfold audioPlayerPause
      by_cases hup : p.inited = true
      · rw [if_neg (by simp [hup]), Prog.run_bind]
        exact h.mute hcodec hup true .paused rfl
      · rw [if_pos (by simp [hup])]
        exact Player.Inv.down (Bool.eq_false_iff.mpr hup)
  | resume =>
      change ((audioPlayerResume p).run codec d).1.Inv (regs ((audioPlayerResume p).run codec d).2)
      unfold audioPlayerResume
      by_cases hup : p.inited = true
      · rw [if_neg (by simp [hup]), Prog.run_bind]
        exact h.mute hcodec hup false .playing rfl
      · rw [if_pos (by simp [hup])]
        exact Player.Inv.down (Bool.eq_false_iff.mpr hup)
  | setVolume vol =>
      change ((audioPlayerSetVolume vol p).run codec d).1.Inv
        (regs ((audioPlayerSetVolume vol p).run codec d).2)
      unfold audioPlayerSetVolume
      by_cases hup : p.inited = true
      · rw [if_neg (by simp [hup]), Prog.run_bind]
        exact h.setVolume hcodec hup vol
      · rw [if_pos (by simp [hup])]
        exact Player.Inv.down (Bool.eq_false_iff.mpr hup)

end

end Rw612.Audio
