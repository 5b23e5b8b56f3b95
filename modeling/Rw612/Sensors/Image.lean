import Rw612.Lib.Transition
import Rw612.Sensors.Frame

/-!
The thermal image of `mlx90640_task.c`: which pixels `mlx90640_calculate_to` takes
from a frame, and the iteration of `mlx_task`, which reads two frames and publishes.
The temperatures are left out. In the place of one, an entry of an image has the
number of the frame that it was computed from.
-/

namespace Rw612.Sensors

open Lib

abbrev MLX90640_PIXELS : Nat := 768

instance : NeZero MLX90640_PIXELS := ⟨by decide⟩

abbrev Frame := Fin MLX90640_FRAME_WORDS → UInt16

/-- The frames are counted from one; zero is an entry never computed. -/
abbrev Image := Fin MLX90640_PIXELS → Nat

def ilPattern (pix : Nat) : Nat := pix / 32 - pix / 64 * 2

def chessPattern (pix : Nat) : Nat := ilPattern pix ^^^ (pix - pix / 2 * 2)

/-- `mode`, from bit 12 of control register 1. -/
def readoutMode (frame : Frame) : UInt8 := ((frame 832 &&& 0x1000) >>> 5).toUInt8

def pattern (mode : UInt8) (pix : Nat) : Nat :=
  if mode = 0 then ilPattern pix else chessPattern pix

/-- `mlx90640_calculate_to` on the frame number `n`: the pixels of the other sub-page
are skipped. -/
def calculateTo (n : Nat) (frame : Frame) (To : Image) : Image := fun pix =>
  if pattern (readoutMode frame) pix ≠ (frame 833).toNat then To pix else n

/-- A call of `mlx90640_get_frame` that has returned, with the frame it leaves. -/
structure Acquisition where
  rc : Int
  frame : Frame
  returns : IsError rc ∨ rc = (frame 833).toNat ∧ (rc = 0 ∨ rc = 1)

/-- A call on some bus. -/
def Acquisition.ofBus {σ : Type*} (i2c : Attached σ) (dev : Mlx90640) (bus : Bus σ) :
    Acquisition where
  rc := (mlx90640GetFrame i2c dev bus).1
  frame := (mlx90640GetFrame i2c dev bus).2.1.frame
  returns := mlx90640GetFrame_returns dev bus

/-- `mlx_sample_t` -/
structure MlxSample where
  To : Image
  err : Int8
  seq : UInt16

/-- The variables of `mlx90640_task.c`; `reads` counts the frames read. -/
structure MlxTask where
  frame : Frame
  To : Image
  last : MlxSample
  hasFrame : Bool
  seq : UInt16
  reads : Nat

/-- Behind `mlx90640_init`, which clears the device. -/
def MlxTask.start (last : MlxSample) : MlxTask := ⟨fun _ => 0, fun _ => 0, last, false, 0, 0⟩

def publish (err : Int8) (seq : UInt16) (s : MlxTask) : MlxTask :=
  { s with
    last := ⟨if err = 0 then s.To else s.last.To, err, seq⟩
    hasFrame := err == 0 || s.hasFrame }

/-- `mlx90640_calculate_to` on the frame just read. -/
def MlxTask.calculate (s : MlxTask) : MlxTask :=
  { s with To := calculateTo (s.reads + 1) s.frame s.To, reads := s.reads + 1 }

/-- The inner loop of `mlx_task`, with what is still to come: the call of
`mlx90640_get_frame`, or `none` if `s_running` is cleared by then. -/
def acquire : List (Option Acquisition) → MlxTask → Int8 × MlxTask
  | [], s => (0, s)
  | none :: _, s => (0, s)
  | some a :: rest, s =>
      let s := { s with frame := a.frame }
      if a.rc < 0 then (Int8.ofInt a.rc, s) else acquire rest s.calculate

/-- What happens at the two rounds of the inner loop. -/
abbrev Turn := Option Acquisition × Option Acquisition

/-- An iteration of `mlx_task` up to its publication. -/
def mlxTurn (s : MlxTask) (turn : Turn) : MlxTask :=
  let (err, s) := acquire [turn.1, turn.2] s
  let seq := s.seq + 1
  publish err seq { s with seq := seq }

def mlxTask : System MlxTask Turn := ⟨fun s turn => some (mlxTurn s turn)⟩

/-! The sub-pages -/

theorem ilPattern_lt_two (pix : Nat) : ilPattern pix < 2 := by
  unfold ilPattern
  omega

theorem chessPattern_lt_two (pix : Nat) : chessPattern pix < 2 := by
  have hcol : pix - pix / 2 * 2 < 2 := by omega
  exact Nat.xor_lt_two_pow (n := 1) (ilPattern_lt_two pix) hcol

theorem pattern_lt_two (mode : UInt8) (pix : Nat) : pattern mode pix < 2 := by
  unfold pattern
  split
  · exact ilPattern_lt_two pix
  · exact chessPattern_lt_two pix

/-- The pixel belongs to the frame's sub-page. -/
def Selects (frame : Frame) (pix : Nat) : Prop :=
  pattern (readoutMode frame) pix = (frame 833).toNat

/-- The two patterns are independent of each other. -/
theorem patterns_independent {a b : Nat} (ha : a < 2) (hb : b < 2) :
    ∃ pix : Fin MLX90640_PIXELS, ilPattern pix = a ∧ chessPattern pix = b := by
  interval_cases a <;> interval_cases b
  · exact ⟨0, by decide, by decide⟩
  · exact ⟨1, by decide, by decide⟩
  · exact ⟨33, by decide, by decide⟩
  · exact ⟨32, by decide, by decide⟩

/-- Only whether the mode is zero matters. -/
theorem pattern_same {m m' : UInt8} (hmode : m = 0 ↔ m' = 0) (pix : Nat) :
    pattern m pix = pattern m' pix := by
  unfold pattern
  simp only [hmode]

theorem exists_pattern (m : UInt8) {a : Nat} (ha : a < 2) :
    ∃ pix : Fin MLX90640_PIXELS, pattern m pix = a := by
  obtain ⟨pix, hil, hchess⟩ := patterns_independent ha ha
  refine ⟨pix, ?_⟩
  unfold pattern
  split
  · exact hil
  · exact hchess

theorem exists_patterns {m m' : UInt8} (hmode : ¬(m = 0 ↔ m' = 0)) {a b : Nat} (ha : a < 2)
    (hb : b < 2) : ∃ pix : Fin MLX90640_PIXELS, pattern m pix = a ∧ pattern m' pix = b := by
  unfold pattern
  by_cases hm : m = 0
  · obtain ⟨pix, hil, hchess⟩ := patterns_independent ha hb
    have hm' : ¬m' = 0 := fun h => hmode (iff_of_true hm h)
    exact ⟨pix, by rw [if_pos hm, hil], by rw [if_neg hm', hchess]⟩
  · obtain ⟨pix, hil, hchess⟩ := patterns_independent hb ha
    have hm' : m' = 0 := by
      by_contra h
      exact hmode (iff_of_false hm h)
    exact ⟨pix, by rw [if_neg hm, hchess], by rw [if_pos hm', hil]⟩

/-- Two frames have all pixels exactly if they are the two sub-pages in one mode. -/
theorem selects_iff {f g : Frame} (hf : (f 833).toNat < 2) (hg : (g 833).toNat < 2) :
    (∀ pix : Fin MLX90640_PIXELS, Selects f pix ∨ Selects g pix) ↔
      (f 833).toNat ≠ (g 833).toNat ∧ (readoutMode f = 0 ↔ readoutMode g = 0) := by
  unfold Selects
  generalize (f 833).toNat = a at hf
  generalize (g 833).toNat = b at hg
  have ha : 1 - a < 2 := by omega
  have hb : 1 - b < 2 := by omega
  constructor
  · intro hall
    have hmode : readoutMode f = 0 ↔ readoutMode g = 0 := by
      by_contra hmode
      obtain ⟨pix, hpix, hpix'⟩ := exists_patterns hmode ha hb
      have hsome := hall pix
      omega
    refine ⟨?_, hmode⟩
    intro hab
    obtain ⟨pix, hpix⟩ := exists_pattern (readoutMode f) ha
    have hsame := pattern_same hmode pix
    have hsome := hall pix
    omega
  · rintro ⟨hab, hmode⟩ pix
    have hsame := pattern_same hmode pix
    have hlt := pattern_lt_two (readoutMode f) pix
    omega

/-! The images -/

theorem calculateTo_selected {n : Nat} {frame : Frame} {To : Image} {pix : Fin MLX90640_PIXELS}
    (h : Selects frame pix) : calculateTo n frame To pix = n :=
  if_neg (not_not.mpr h)

theorem calculateTo_skipped {n : Nat} {frame : Frame} {To : Image} {pix : Fin MLX90640_PIXELS}
    (h : ¬Selects frame pix) : calculateTo n frame To pix = To pix :=
  if_pos h

/-- If the iteration publishes without an error, every entry was computed from a frame
read since the publication before. -/
def Complete (s : MlxTask) (turn : Turn) : Prop :=
  (mlxTurn s turn).last.err = 0 → ∀ pix, s.reads < (mlxTurn s turn).last.To pix

/-- A call fails, or both are made and read the two sub-pages in one mode. -/
def BothSubPages : Turn → Prop
  | (none, _) => False
  | (some a, none) => a.rc < 0
  | (some a, some b) => a.rc < 0 ∨ b.rc < 0 ∨
      a.rc ≠ b.rc ∧ (readoutMode a.frame = 0 ↔ readoutMode b.frame = 0)

/-- No entry is from a frame that is yet to be read. -/
def MlxTask.Sound (s : MlxTask) : Prop := ∀ pix, s.To pix ≤ s.reads

theorem Acquisition.error_code (a : Acquisition) (hrc : a.rc < 0) : Int8.ofInt a.rc ≠ 0 := by
  rcases a.returns with ⟨hmin, -⟩ | ⟨-, hsub⟩
  · obtain h | h | h | h : a.rc = -4 ∨ a.rc = -3 ∨ a.rc = -2 ∨ a.rc = -1 := by omega
    all_goals
      rw [h]
      decide
  · omega

theorem Acquisition.read (a : Acquisition) (hrc : ¬a.rc < 0) :
    a.rc = (a.frame 833).toNat ∧ (a.frame 833).toNat < 2 := by
  rcases a.returns with herr | ⟨hsub, hrange⟩
  · exact absurd herr.2 hrc
  · exact ⟨hsub, by omega⟩

/-- `s` with a frame that has been read and computed. -/
def MlxTask.taken (s : MlxTask) (a : Acquisition) : MlxTask :=
  MlxTask.calculate { s with frame := a.frame }

@[simp] theorem acquire_nil (s : MlxTask) : acquire [] s = (0, s) := rfl

theorem acquire_read {a : Acquisition} (hrc : ¬a.rc < 0) (rest : List (Option Acquisition))
    (s : MlxTask) : acquire (some a :: rest) s = acquire rest (s.taken a) :=
  if_neg hrc

theorem acquire_error {a : Acquisition} (hrc : a.rc < 0) (rest : List (Option Acquisition))
    (s : MlxTask) : (acquire (some a :: rest) s).1 ≠ 0 := by
  have h : acquire (some a :: rest) s = (Int8.ofInt a.rc, { s with frame := a.frame }) := if_pos hrc
  rw [h]
  exact a.error_code hrc

theorem MlxTask.Sound.taken {s : MlxTask} (h : s.Sound) (a : Acquisition) : (s.taken a).Sound := by
  intro pix
  show calculateTo (s.reads + 1) a.frame s.To pix ≤ s.reads + 1
  unfold calculateTo
  split
  · exact Nat.le_succ_of_le (h pix)
  · exact Nat.le_refl _

/-- An entry is newer than before the frame exactly if its sub-page has it. -/
theorem MlxTask.Sound.taken_newer {s : MlxTask} (h : s.Sound) (a : Acquisition)
    (pix : Fin MLX90640_PIXELS) : s.reads < (s.taken a).To pix ↔ Selects a.frame pix := by
  by_cases hsel : Selects a.frame pix
  · have hTo : (s.taken a).To pix = s.reads + 1 := calculateTo_selected hsel
    exact iff_of_true (by omega) hsel
  · have hTo : (s.taken a).To pix = s.To pix := calculateTo_skipped hsel
    have hold := h pix
    exact iff_of_false (by omega) hsel

theorem acquire_sound {s : MlxTask} (h : s.Sound) (calls : List (Option Acquisition)) :
    (acquire calls s).2.Sound := by
  induction calls generalizing s with
  | nil => exact h
  | cons call rest ih =>
      cases call with
      | none => exact h
      | some a =>
          by_cases hrc : a.rc < 0
          · have hstop : acquire (some a :: rest) s =
                (Int8.ofInt a.rc, { s with frame := a.frame }) := if_pos hrc
            rw [hstop]
            exact h
          · rw [acquire_read hrc]
            exact ih (h.taken a)

theorem complete_iff_acquire (s : MlxTask) (turn : Turn) :
    Complete s turn ↔ ((acquire [turn.1, turn.2] s).1 = 0 →
      ∀ pix, s.reads < (acquire [turn.1, turn.2] s).2.To pix) := by
  apply imp_congr_right
  intro herr
  have hTo : (mlxTurn s turn).last.To = (acquire [turn.1, turn.2] s).2.To := if_pos herr
  rw [hTo]

/-- Two frames that have been read. -/
theorem MlxTask.Sound.taken_both {s : MlxTask} (h : s.Sound) (a b : Acquisition)
    (pix : Fin MLX90640_PIXELS) :
    s.reads < ((s.taken a).taken b).To pix ↔ Selects a.frame pix ∨ Selects b.frame pix := by
  by_cases hsel : Selects b.frame pix
  · have hTo : ((s.taken a).taken b).To pix = (s.taken a).reads + 1 := calculateTo_selected hsel
    have hreads : (s.taken a).reads = s.reads + 1 := rfl
    exact iff_of_true (by omega) (Or.inr hsel)
  · have hTo : ((s.taken a).taken b).To pix = (s.taken a).To pix := calculateTo_skipped hsel
    rw [hTo, h.taken_newer a pix]
    exact (or_iff_left hsel).symm

theorem MlxTask.Sound.nothing_newer {s : MlxTask} (h : s.Sound) :
    ¬∀ pix, s.reads < s.To pix := by
  intro hall
  have hnew := hall 0
  have hold := h 0
  omega

theorem MlxTask.Sound.one_not_all {s : MlxTask} (h : s.Sound) {a : Acquisition}
    (ha : (a.frame 833).toNat < 2) : ¬∀ pix, s.reads < (s.taken a).To pix := by
  intro hall
  have hother : 1 - (a.frame 833).toNat < 2 := by omega
  obtain ⟨pix, hpix⟩ := exists_pattern (readoutMode a.frame) hother
  have hsel : Selects a.frame pix := (h.taken_newer a pix).mp (hall pix)
  unfold Selects at hsel
  omega

theorem MlxTask.Sound.both_all_iff {s : MlxTask} (h : s.Sound) {a b : Acquisition}
    (ha : ¬a.rc < 0) (hb : ¬b.rc < 0) :
    (∀ pix, s.reads < ((s.taken a).taken b).To pix) ↔
      a.rc ≠ b.rc ∧ (readoutMode a.frame = 0 ↔ readoutMode b.frame = 0) := by
  obtain ⟨harc, haSub⟩ := a.read ha
  obtain ⟨hbrc, hbSub⟩ := b.read hb
  have hne : a.rc ≠ b.rc ↔ (a.frame 833).toNat ≠ (b.frame 833).toNat := by omega
  simp only [h.taken_both a b]
  rw [selects_iff haSub hbSub, hne]

/-- One iteration. -/
theorem MlxTask.Sound.complete_iff {s : MlxTask} (h : s.Sound) (turn : Turn) :
    Complete s turn ↔ BothSubPages turn := by
  rw [complete_iff_acquire]
  rcases turn with ⟨_ | a, second⟩
  · exact iff_of_false (fun hall => h.nothing_newer (hall rfl)) id
  · by_cases ha : a.rc < 0
    · refine iff_of_true (fun hok => absurd hok (acquire_error ha _ s)) ?_
      cases second with
      | none => exact ha
      | some b => exact Or.inl ha
    · simp only [acquire_read ha]
      rcases second with _ | b
      · exact iff_of_false (fun hall => h.one_not_all (a.read ha).2 (hall rfl)) ha
      · by_cases hb : b.rc < 0
        · exact iff_of_true (fun hok => absurd hok (acquire_error hb _ _)) (Or.inr (Or.inl hb))
        · rw [acquire_read hb, acquire_nil]
          simp only [forall_const, BothSubPages, ha, hb, false_or]
          exact h.both_all_iff ha hb

theorem mlxTurn_sound {s : MlxTask} (h : s.Sound) (turn : Turn) : (mlxTurn s turn).Sound :=
  acquire_sound h [turn.1, turn.2]

/-- In every run of the task, a publication without an error is complete exactly if
the iteration reads both sub-pages. -/
theorem mlxTask_complete_iff (last : MlxSample) (turns : List Turn) :
    mlxTask.Meets (fun s turn => Complete s turn ↔ BothSubPages turn) (.start last) turns := by
  have hstart : (MlxTask.start last).Sound := fun _ => Nat.le_refl 0
  apply System.meets_of_inv _ hstart
  intro s turn s' h hs'
  obtain rfl := Option.some.inj hs'
  exact ⟨h.complete_iff turn, mlxTurn_sound h turn⟩

/-- A frame of the first sub-page in chess mode. -/
def firstSubPage : Acquisition where
  rc := 0
  frame := Function.update (fun _ => 0) 832 0x1901
  returns := Or.inr ⟨by decide, Or.inl rfl⟩

/-- The second sub-page is missed: half of the first image was never computed. -/
theorem repeated_subPage :
    ¬∀ (last : MlxSample) (turns : List Turn), mlxTask.Meets Complete (.start last) turns := by
  intro hall
  have hmeets := hall ⟨fun _ => 0, 0, 0⟩ [(some firstSubPage, some firstSubPage)]
  have hcomplete := (hmeets _ rfl).1 (by decide)
  exact absurd (hcomplete 1) (by decide)

end Rw612.Sensors
