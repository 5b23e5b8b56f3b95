import Rw612.Audio.Player

/-!
The player's calls on the shared bus. The bus is locked for one transfer only, so that
other tasks may come in between any two transfers of a call.
-/

namespace Rw612.Audio

open Lib Sensors

/-- Who asks the bus: the player, or one of the other tasks. -/
inductive Party where
  | player
  | others
  deriving DecidableEq

/-- What is still to come: the player's commands, and the transfers of the others. -/
def Party.State : Party → Type
  | .player => Player × List Command
  | .others => List Transfer

def Party.uses : Party → UInt8 → Bool
  | .player, a => a == ES8388_I2C_ADDR_LOW
  | .others, a => a != ES8388_I2C_ADDR_LOW

def playerTurn (ready : Bool) : Player × List Command → BusProg (Player × List Command)
  | (p, []) => return (p, [])
  | (p, c :: rest) => do
      let p ← c.run ready p
      return (p, rest)

def othersTurn : List Transfer → BusProg (List Transfer)
  | [] => return []
  | t :: rest => .ask t fun _ => .done rest

def Party.turn (ready : Bool) : ∀ i : Party, i.State → BusProg i.State
  | .player => playerTurn ready
  | .others => othersTurn

def Party.Part (τ : Type) : Party → Type
  | .player => τ
  | .others => UInt8 → τ

section

variable {τ : Type} (device : UInt8 → Attached τ) (blank : τ)

/-- The player sees the codec, the others see the rest of the board. -/
def Party.view : ∀ i : Party, (UInt8 → τ) → i.Part τ
  | .player, d => d ES8388_I2C_ADDR_LOW
  | .others, d => Function.update d ES8388_I2C_ADDR_LOW blank

def Party.part : ∀ i : Party, Attached (i.Part τ)
  | .player => device ES8388_I2C_ADDR_LOW
  | .others => board device

def Elsewhere (ts : List Transfer) : Prop := ∀ t ∈ ts, Party.uses .others t.addr = true

/-- Between two commands the player knows the codec's address, and the others keep to
other addresses. -/
def Party.Ok : ∀ i : Party, i.State → Prop
  | .player => fun x : Player × List Command => x.1.Knows
  | .others => Elsewhere

theorem Party.parted :
    Parted (board device) (fun i t => Party.uses i t.addr = true) (Party.view blank)
      (Party.part device) := by
  constructor
  · intro i d t ht
    cases i with
    | player =>
        have haddr : t.addr = ES8388_I2C_ADDR_LOW := eq_of_beq ht
        simp [board, Party.view, Party.part, haddr]
    | others =>
        have haddr : t.addr ≠ ES8388_I2C_ADDR_LOW := bne_iff_ne.mp ht
        simp [board, Party.view, Party.part, Function.update_of_ne haddr]
  · intro i d t ht
    cases i with
    | player =>
        have haddr : t.addr = ES8388_I2C_ADDR_LOW := eq_of_beq ht
        simp [board, Party.view, Party.part, haddr]
        rfl
    | others =>
        have haddr : t.addr ≠ ES8388_I2C_ADDR_LOW := bne_iff_ne.mp ht
        simp only [board, Party.view, Party.part, Function.update_of_ne haddr]
        exact Function.update_comm haddr _ _ _
  · intro i j d t hne ht
    cases i with
    | player =>
        cases j with
        | player => exact absurd rfl hne
        | others =>
            have haddr : t.addr ≠ ES8388_I2C_ADDR_LOW := bne_iff_ne.mp ht
            exact Function.update_of_ne (Ne.symm haddr) _ _
    | others =>
        cases j with
        | player =>
            have haddr : t.addr = ES8388_I2C_ADDR_LOW := eq_of_beq ht
            simp [board, Party.view, haddr]
            rfl
        | others => exact absurd rfl hne

variable {device blank}

theorem Party.turn_keeps (ready : Bool) (i : Party) (x : i.State) (hx : i.Ok x) :
    (Party.turn ready i x).Keeps (fun t => i.uses t.addr = true) i.Ok := by
  cases i with
  | player =>
      obtain ⟨p, commands⟩ := x
      cases commands with
      | nil => exact hx
      | cons c rest =>
          refine Prog.Keeps.bind (((Command.keeps ready hx c).mono ?_ fun _ h => h)) ?_
          · intro t ht
            exact beq_iff_eq.mpr ht
          · exact fun p' hp' => hp'
  | others =>
      cases x with
      | nil => exact hx
      | cons t rest =>
          obtain ⟨ht, hrest⟩ := List.forall_mem_cons.mp hx
          exact ⟨ht, fun _ => hrest⟩

/-- The commands and the transfers of the others are still to come. -/
def Party.start (commands : List Command) (others : List Transfer) :
    ∀ i : Party, BusProg i.State
  | .player => .done (Player.powerUp, commands)
  | .others => .done others

/-- Whole commands keep the player and its codec in agreement. -/
theorem playerTurns_inv {codec : Attached τ} {regs : τ → UInt8 → UInt8}
    (hcodec : IsCodec codec regs) (ready : Bool) (k : Nat) {x : (Player × List Command) × τ}
    (hx : x.1.1.Inv (regs x.2)) :
    ((taskTurn codec (playerTurn ready))^[k] x).1.1.Inv
      (regs ((taskTurn codec (playerTurn ready))^[k] x).2) := by
  induction k generalizing x with
  | zero => exact hx
  | succ k ih =>
      rw [Function.iterate_succ_apply]
      apply ih
      obtain ⟨⟨p, commands⟩, d⟩ := x
      cases commands with
      | nil => exact hx
      | cons c rest =>
          have hnext := hx.command hcodec ready c
          rw [taskTurn, playerTurn, Prog.run_bind, Prog.run_pure]
          exact hnext

end

/-- Whatever the codec answers, and whatever others do on the bus in between: when no
call is under way, the codec of a player that is up agrees with it. -/
theorem player_agrees_with_codec {τ : Type} (device : UInt8 → Attached τ)
    (regs : τ → UInt8 → UInt8) (ready : Bool) (d : UInt8 → τ) (commands rest : List Command)
    (others : List Transfer) (schedule : List Party) (p : Player)
    (hcodec : IsCodec (device ES8388_I2C_ADDR_LOW) regs)
    (helsewhere : ∀ t ∈ others, t.addr ≠ ES8388_I2C_ADDR_LOW)
    (hidle : (schedule.foldl (Tasks.step (board device) (Party.turn ready))
      ⟨Party.start commands others, d⟩).places .player = .done (p, rest)) (hup : p.inited = true) :
    p.Agrees (regs ((schedule.foldl (Tasks.step (board device) (Party.turn ready))
      ⟨Party.start commands others, d⟩).resource ES8388_I2C_ADDR_LOW)) := by
  have hstart (i : Party) :
      (Party.start commands others i).Keeps (fun t => i.uses t.addr = true) i.Ok := by
    cases i with
    | player => exact fun h => by cases h
    | others => exact fun t ht => bne_iff_ne.mpr (helsewhere t ht)
  obtain ⟨-, k, hk⟩ := (Party.parted device (d ES8388_I2C_ADDR_LOW)).between
    (Party.turn_keeps ready) schedule hstart .player hidle
  have hinv := playerTurns_inv hcodec ready k
    (x := ((Player.powerUp, commands), d ES8388_I2C_ADDR_LOW)) (Player.Inv.down rfl)
  have hthere : (taskTurn (device ES8388_I2C_ADDR_LOW) (playerTurn ready))^[k]
      ((Player.powerUp, commands), d ES8388_I2C_ADDR_LOW) = ((p, rest), _) := hk
  rw [hthere] at hinv
  exact hinv.agrees hup

/-- A codec that takes every transfer. -/
def takingCodec : Attached (UInt8 → UInt8)
  | regs, .write _ [reg, val] => (⟨0, []⟩, Function.update regs reg val)
  | regs, .writeRead _ [reg] _ => (⟨0, [regs reg]⟩, regs)
  | regs, _ => (⟨0, []⟩, regs)

theorem takingCodec_isCodec : IsCodec takingCodec id where
  written _ _ _ _ := .inl rfl
  read _ _ := ⟨rfl, fun _ => rfl⟩

/-- The codec is brought up and muted while a light sensor is read. -/
def mutedSchedule : List Party :=
  List.replicate 12 .player ++ [.others, .others] ++ List.replicate 10 .player ++ [.others] ++
    [.player]

theorem player_agrees_with_codec_muted : ∃ p : Player, p.state = .paused ∧ p.muteRc = 0 ∧
    p.Agrees (id ((mutedSchedule.foldl (Tasks.step (board fun _ => takingCodec) (Party.turn true))
      ⟨Party.start [.init 0x10 true, .initWork, .pause] [.read 0x23 2], fun _ _ => 0⟩).resource
        ES8388_I2C_ADDR_LOW)) :=
  ⟨_, rfl, rfl, player_agrees_with_codec (fun _ => takingCodec) id true (fun _ _ => 0)
    [.init 0x10 true, .initWork, .pause] [] [.read 0x23 2] mutedSchedule _ takingCodec_isCodec
    (by decide) rfl rfl⟩

end Rw612.Audio
