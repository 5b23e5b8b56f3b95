import Mathlib.Logic.Relation
import Rw612.Ota.Threads
import Rw612.Http.Message

/-!
What `http_task` runs in: the static variables of `app_ota_http.c`, the OTA core
with its other callers, and the network. Wherever the task does something that
other threads can observe, any number of their steps may come first. These steps,
together with the answers of the flash driver, are read off a tape, `slots`; the
answers of the network are read off the connections in `conns`.

`Runs` is what any piece of the task does to its world: steps of other threads,
changes to variables of its own, and calls into the OTA core. A run of the task
is in particular a run of the system of `Ota.otaSystem`.
-/

namespace Rw612.Http

open Lib Ota

/-- `app_ota_http_state_t` -/
inductive HttpState where
  | idle
  | resolving
  | connecting
  | requesting
  | downloading
  | headerDl
  | committing
  | done
  | failed
  deriving DecidableEq, Repr

/-- A step of a thread other than the task: a part of one of its OTA calls, or
`app_ota_http_stop`. -/
inductive Other where
  | ota (a : Act)
  | stop

/-- What other threads do before one step of the task, and what the drivers
answer if this step is a locked section. -/
structure Slot where
  others : List Other
  driver : Driver

/-- One connection: the results of `socket`, of `connect` and of the calls of
`send`, and the received segments. The end of a list, like an empty segment, is
a failure. -/
structure Conn where
  sock : Int
  connectRc : Int
  sends : List Int
  recvs : List (List UInt8)
  deriving DecidableEq, Repr

/-- What does not change: the upload slot, and which hosts are numeric. -/
structure Board where
  slot : FlashArea
  inetPton : List UInt8 → Bool

/-- The moment at which the first body byte of an image is about to be read: the
offset of its first chunk, the core at that time, the bytes that are going to
arrive, and the length of the body. -/
structure StreamStart where
  offset : UInt32
  sys : Sys
  incoming : List UInt8
  bodyTotal : Nat

/-- `sent`, `stream` and `streamEnd` record what happened: the requests that
were sent, and for the last image body that was read how it began, its result and
its final offset. -/
structure World where
  sys : Sys
  running : Bool
  state : HttpState
  imageUrl : List UInt8
  headerUrl : List UInt8
  hasHeaderUrl : Bool
  autoCommit : Bool
  otaCoreInited : Bool
  hdrbuf : List UInt8
  conns : List Conn
  slots : List Slot
  sent : List (List UInt8)
  stream : Option StreamStart
  streamEnd : Option (Int × UInt32)

/-- The thread of `http_task`. -/
def httpTid : Nat := 0

def appOtaHttpStop (w : World) : World := {w with running := false}

def World.other (b : Board) (w : World) : Other → World
  | .ota a =>
      if a.tid = httpTid then w
      else
        match (otaSystem b.slot).step w.sys a with
        | some sys => {w with sys := sys}
        | none => w
  | .stop => appOtaHttpStop w

/-- Other threads run; the drivers' answers to what follows. -/
def World.tick (b : Board) (w : World) : World × Driver :=
  match w.slots with
  | [] => (w, .success)
  | s :: slots => (s.others.foldl (World.other b) {w with slots := slots}, s.driver)

/-- The task waits for the lock. -/
def World.entering (w : World) (call : Call) : World :=
  {w with sys := w.sys.enter httpTid call}

/-- The rest of an OTA call of the task once its checks have passed. -/
def World.lockedCall (b : Board) (w : World) (call : Call) : World × Err :=
  let (w, d) := (w.entering call).tick b
  ({w with sys := w.sys.locked b.slot httpTid call d},
    (call.locked b.slot w.sys.core d).2)

/-- An OTA call of the task. -/
def World.otaCall (b : Board) (w : World) (call : Call) : World × Err :=
  let (w, _) := w.tick b
  match call.precheck w.sys.core with
  | some rc => (w, rc)
  | none => w.lockedCall b call

/-- `app_ota_get_status` -/
def World.getStatus (b : Board) (w : World) : World × Status :=
  let (w, _) := w.tick b
  (w, w.sys.core.st)

inductive Micro (b : Board) (C : Call → Prop) : World → World → Prop
  | tick (w : World) : Micro b C w (w.tick b).1
  | own (w w' : World) (hsys : w'.sys = w.sys) (hslots : w'.slots = w.slots) :
      Micro b C w w'
  | call (w : World) (call : Call) (hC : C call)
      (hcheck : call.precheck w.sys.core = none) :
      Micro b C w (w.lockedCall b call).1

/-- Any number of steps in which the task makes only OTA calls from `C`. -/
def Runs (b : Board) (C : Call → Prop) : World → World → Prop :=
  Relation.ReflTransGen (Micro b C)

/-- No other thread uses the OTA core; the task may be told to stop. -/
def World.Alone (w : World) : Prop := ∀ s ∈ w.slots, ∀ o ∈ s.others, o = .stop

/-- The task is not inside an OTA call. -/
def World.Ready (w : World) : Prop := w.sys.pending httpTid = none

namespace Runs

variable {b : Board} {C : Call → Prop} {w w' w'' : World}

theorem refl (w : World) : Runs b C w w := Relation.ReflTransGen.refl

theorem trans (h : Runs b C w w') (h' : Runs b C w' w'') : Runs b C w w'' :=
  Relation.ReflTransGen.trans h h'

theorem tick (w : World) : Runs b C w (w.tick b).1 :=
  Relation.ReflTransGen.single (Micro.tick w)

theorem own (hsys : w'.sys = w.sys) (hslots : w'.slots = w.slots) :
    Runs b C w w' :=
  Relation.ReflTransGen.single (Micro.own w w' hsys hslots)

theorem mono {C' : Call → Prop} (hC : ∀ call, C call → C' call)
    (h : Runs b C w w') : Runs b C' w w' := by
  refine Relation.ReflTransGen.mono (fun v v' hstep => ?_) _ _ h
  cases hstep with
  | tick => exact Micro.tick _
  | own _ hsys hslots => exact Micro.own _ _ hsys hslots
  | call call hcall hcheck => exact Micro.call _ call (hC call hcall) hcheck

theorem otaCall (w : World) (call : Call) (hC : C call) :
    Runs b C w (w.otaCall b call).1 := by
  unfold World.otaCall
  refine (tick w).trans ?_
  cases hcheck : call.precheck (w.tick b).1.sys.core with
  | some rc =>
      simp only [hcheck]
      exact refl _
  | none =>
      simp only [hcheck]
      exact Relation.ReflTransGen.single (Micro.call _ call hC hcheck)

theorem getStatus (w : World) : Runs b C w (w.getStatus b).1 := tick w

end Runs

/-! Every run of the task is a run of the OTA system. -/

theorem World.other_exec (b : Board) (w : World) (o : Other) :
    ∃ acts, (otaSystem b.slot).exec w.sys acts = some (w.other b o).sys ∧
      (∀ a ∈ acts, a.tid ≠ httpTid) := by
  cases o with
  | ota a =>
      unfold World.other
      by_cases htid : a.tid = httpTid
      · exact ⟨[], by simp [htid], by simp⟩
      · cases hstep : (otaSystem b.slot).step w.sys a with
        | none =>
            refine ⟨[], ?_, by simp⟩
            simp only [if_neg htid, hstep]
            rfl
        | some sys =>
            refine ⟨[a], ?_, by simpa using htid⟩
            simp only [if_neg htid, hstep]
            simp [hstep]
  | stop => exact ⟨[], rfl, by simp⟩

theorem World.others_exec (b : Board) (w : World) (os : List Other) :
    ∃ acts, (otaSystem b.slot).exec w.sys acts =
        some (os.foldl (World.other b) w).sys ∧
      (∀ a ∈ acts, a.tid ≠ httpTid) := by
  induction os generalizing w with
  | nil => exact ⟨[], rfl, by simp⟩
  | cons o os ih =>
      obtain ⟨front, hfront, hftid⟩ := w.other_exec b o
      obtain ⟨back, hback, hbtid⟩ := ih (w.other b o)
      refine ⟨front ++ back, ?_, ?_⟩
      · rw [System.exec_append, hfront]
        exact hback
      · intro a member
        rcases List.mem_append.mp member with h | h
        · exact hftid a h
        · exact hbtid a h

theorem World.tick_exec (b : Board) (w : World) :
    ∃ acts, (otaSystem b.slot).exec w.sys acts = some (w.tick b).1.sys ∧
      (∀ a ∈ acts, a.tid ≠ httpTid) := by
  unfold World.tick
  cases hslots : w.slots with
  | nil => exact ⟨[], rfl, by simp⟩
  | cons s slots => exact World.others_exec b {w with slots := slots} s.others

/-- The steps of other threads leave the task's own call alone. -/
theorem pending_of_exec {slot : FlashArea} {s s' : Sys} {acts : List Act}
    (hrun : (otaSystem slot).exec s acts = some s')
    (htid : ∀ a ∈ acts, a.tid ≠ httpTid) :
    s'.pending httpTid = s.pending httpTid := by
  induction acts generalizing s with
  | nil =>
      obtain rfl : s = s' := Option.some.inj hrun
      rfl
  | cons a acts ih =>
      obtain ⟨mid, hmid, hrest⟩ := System.exec_cons_some hrun
      rw [ih hrest (fun a' h => htid a' (by simp [h]))]
      have hne : httpTid ≠ a.tid := (htid a (by simp)).symm
      rcases Sys.step_cases hmid with ⟨tid, call, rfl, rfl⟩ | ⟨tid, call, d, rfl, _, rfl⟩
      · unfold Sys.enter
        split
        · rfl
        · exact Function.update_of_ne hne _ _
      · exact Function.update_of_ne hne _ _

theorem World.tick_pending (b : Board) (w : World) :
    (w.tick b).1.sys.pending httpTid = w.sys.pending httpTid := by
  obtain ⟨acts, hrun, htid⟩ := w.tick_exec b
  exact pending_of_exec hrun htid

theorem World.tick_log (b : Board) (w : World) :
    w.sys.log <+: (w.tick b).1.sys.log := by
  obtain ⟨acts, hrun, _⟩ := w.tick_exec b
  exact Sys.log_grows_of_exec hrun

theorem World.lockedCall_exec (b : Board) {w : World} {call : Call}
    (hready : w.Ready) (hcheck : call.precheck w.sys.core = none) :
    ∃ acts, (otaSystem b.slot).exec w.sys acts =
        some (w.lockedCall b call).1.sys ∧
      (w.lockedCall b call).1.Ready := by
  have henter : (otaSystem b.slot).step w.sys (.enter httpTid call) =
      some (w.sys.enter httpTid call) := by
    simp only [otaSystem, show w.sys.pending httpTid = none from hready]
  obtain ⟨acts, hacts, _⟩ := (w.entering call).tick_exec b
  have hcall : ((w.entering call).tick b).1.sys.pending httpTid = some call :=
    ((w.entering call).tick_pending b).trans (Sys.enter_pending hcheck)
  refine ⟨.enter httpTid call ::
    (acts ++ [.locked httpTid ((w.entering call).tick b).2]), ?_, ?_⟩
  · rw [System.exec_cons, henter, Option.bind_some, System.exec_append]
    rw [show (w.sys.enter httpTid call) = (w.entering call).sys from rfl, hacts]
    simp [otaSystem, hcall, World.lockedCall]
  · simp [World.Ready, World.lockedCall, Sys.locked]

theorem Micro.exec {b : Board} {C : Call → Prop} {w w' : World}
    (h : Micro b C w w') (hready : w.Ready) :
    ∃ acts, (otaSystem b.slot).exec w.sys acts = some w'.sys ∧ w'.Ready := by
  cases h with
  | tick =>
      obtain ⟨acts, hacts, _⟩ := w.tick_exec b
      exact ⟨acts, hacts, (w.tick_pending b).trans hready⟩
  | own _ hsys hslots =>
      exact ⟨[], by rw [hsys]; rfl, by rw [World.Ready, hsys]; exact hready⟩
  | call call hC hcheck => exact World.lockedCall_exec b hready hcheck

namespace Runs

variable {b : Board} {C : Call → Prop} {w w' : World}

theorem exec (h : Runs b C w w') (hready : w.Ready) :
    ∃ acts, (otaSystem b.slot).exec w.sys acts = some w'.sys ∧ w'.Ready := by
  induction h with
  | refl => exact ⟨[], rfl, hready⟩
  | tail _ hstep ih =>
      obtain ⟨front, hfront, hmid⟩ := ih
      obtain ⟨back, hback, hlast⟩ := hstep.exec hmid
      refine ⟨front ++ back, ?_, hlast⟩
      rw [System.exec_append, hfront]
      exact hback

theorem inv (h : Runs b C w w') (hready : w.Ready) (hinv : w.sys.Inv b.slot) :
    w'.sys.Inv b.slot := by
  obtain ⟨acts, hacts, _⟩ := h.exec hready
  exact System.exec_invariant (fun _ _ _ hs hstep => hs.step hstep) hinv hacts

theorem log_grows (h : Runs b C w w') : w.sys.log <+: w'.sys.log := by
  induction h with
  | refl => exact List.prefix_refl _
  | @tail mid last _ hstep ih =>
      apply ih.trans
      cases hstep with
      | tick => exact mid.tick_log b
      | own _ hsys _ =>
          simp [hsys]
      | call call _ _ =>
          have htick := (mid.entering call).tick_log b
          rw [World.entering, Sys.enter_log] at htick
          exact htick.trans (List.prefix_append _ _)

end Runs

/-- Other threads do not touch the variables of the task. -/
theorem World.other_own (b : Board) (w : World) (o : Other) :
    w.other b o = {w with
      sys := (w.other b o).sys
      running := (w.other b o).running} := by
  cases o with
  | ota a =>
      by_cases htid : a.tid = httpTid
      · simp only [World.other, if_pos htid]
      · cases hstep : (otaSystem b.slot).step w.sys a with
        | none => simp only [World.other, if_neg htid, hstep]
        | some sys => simp only [World.other, if_neg htid, hstep]
  | stop => rfl

theorem World.others_own (b : Board) (w : World) (os : List Other) :
    os.foldl (World.other b) w = {w with
      sys := (os.foldl (World.other b) w).sys
      running := (os.foldl (World.other b) w).running} := by
  induction os generalizing w with
  | nil => rfl
  | cons o os ih =>
      rw [List.foldl_cons, ih, w.other_own b o]

theorem World.tick_own (b : Board) (w : World) :
    (w.tick b).1 = {w with
      sys := (w.tick b).1.sys
      running := (w.tick b).1.running
      slots := (w.tick b).1.slots} := by
  unfold World.tick
  cases hslots : w.slots with
  | nil => rfl
  | cons s slots =>
      have hown := World.others_own b {w with slots := slots} s.others
      have hrest : (s.others.foldl (World.other b)
          {w with slots := slots}).slots = slots := by rw [hown]
      simp only [hrest]
      exact hown

/-! When nobody else acts, the core changes by the task's own calls only. -/

theorem World.stops_sys (b : Board) (w : World) {os : List Other}
    (hos : ∀ o ∈ os, o = .stop) :
    (os.foldl (World.other b) w).sys = w.sys ∧
      (os.foldl (World.other b) w).slots = w.slots := by
  induction os generalizing w with
  | nil => exact ⟨rfl, rfl⟩
  | cons o os ih =>
      obtain rfl : o = .stop := hos o (by simp)
      exact ih (w.other b .stop) (fun o' h => hos o' (by simp [h]))

theorem World.Alone.tick {w : World} (h : w.Alone) (b : Board) :
    (w.tick b).1.sys = w.sys ∧ (w.tick b).1.Alone := by
  unfold World.tick
  cases hslots : w.slots with
  | nil => exact ⟨rfl, h⟩
  | cons s slots =>
      obtain ⟨hsys, hrest⟩ := World.stops_sys b {w with slots := slots}
        (h s (by simp [hslots]))
      refine ⟨hsys, fun s' member => h s' ?_⟩
      dsimp only at member hrest
      rw [hrest] at member
      simp [hslots, member]

theorem Micro.alone {b : Board} {C : Call → Prop} {w w' : World}
    (h : Micro b C w w') (halone : w.Alone) : w'.Alone := by
  cases h with
  | tick => exact (halone.tick b).2
  | own _ hsys hslots => rwa [World.Alone, hslots]
  | call call hC hcheck =>
      exact (World.Alone.tick (w := w.entering call) halone b).2

theorem Runs.alone {b : Board} {C : Call → Prop} {w w' : World}
    (h : Runs b C w w') (halone : w.Alone) : w'.Alone := by
  induction h with
  | refl => exact halone
  | tail _ hstep ih => exact hstep.alone ih

/-- The locked part of an OTA call of the task when nobody else acts. -/
theorem World.Alone.lockedCall {w : World} (h : w.Alone) (b : Board) (call : Call) :
    ∃ d, (w.lockedCall b call).1.sys =
        (w.sys.enter httpTid call).locked b.slot httpTid call d ∧
      (w.lockedCall b call).2 =
        (call.locked b.slot (w.sys.enter httpTid call).core d).2 := by
  obtain ⟨hsys, _⟩ := World.Alone.tick (w := w.entering call) h b
  refine ⟨((w.entering call).tick b).2, ?_, ?_⟩
  · simp only [World.lockedCall, hsys]
    rfl
  · simp only [World.lockedCall, hsys]
    rfl

/-- Without others, the log grows by the task's own calls. -/
theorem Runs.own_log {b : Board} {C : Call → Prop} {w w' : World}
    (h : Runs b C w w') (halone : w.Alone) :
    ∃ since, w'.sys.log = w.sys.log ++ since ∧
      ∀ ev ∈ since, ev.tid = httpTid ∧ C ev.call := by
  induction h with
  | refl => exact ⟨[], by simp, by simp⟩
  | @tail mid last hmid hstep ih =>
      obtain ⟨since, hlog, hsince⟩ := ih
      cases hstep with
      | tick =>
          rw [((Runs.alone hmid halone).tick b).1]
          exact ⟨since, hlog, hsince⟩
      | own _ hsys _ =>
          rw [hsys]
          exact ⟨since, hlog, hsince⟩
      | call call hC _ =>
          obtain ⟨d, hsys, _⟩ := (Runs.alone hmid halone).lockedCall b call
          refine ⟨since ++ [⟨httpTid, call,
            (call.locked b.slot (mid.sys.enter httpTid call).core d).2⟩], ?_, ?_⟩
          · rw [hsys, Sys.locked, Sys.enter_log, hlog, List.append_assoc]
          · intro ev member
            rcases List.mem_append.mp member with hold | hnew
            · exact hsince ev hold
            · rw [List.mem_singleton.mp hnew]
              exact ⟨rfl, hC⟩

/-- An OTA call of the task when nobody else acts. -/
theorem World.Alone.otaCall {w : World} (h : w.Alone) (b : Board) (call : Call) :
    (∃ rc, call.precheck w.sys.core = some rc ∧ (w.otaCall b call).2 = rc) ∨
    (call.precheck w.sys.core = none ∧ ∃ d,
      (w.otaCall b call).1.sys.core =
        (call.locked b.slot (call.entered w.sys.core) d).1 ∧
      (w.otaCall b call).2 =
        (call.locked b.slot (call.entered w.sys.core) d).2) := by
  obtain ⟨hsys, halone⟩ := h.tick b
  obtain ⟨d, hlocked, hrc⟩ := halone.lockedCall b call
  unfold World.otaCall
  simp only [hsys] at hlocked hrc ⊢
  cases hcheck : call.precheck w.sys.core with
  | some rc => exact Or.inl ⟨rc, rfl, rfl⟩
  | none =>
      have hcore : (w.sys.enter httpTid call).core = call.entered w.sys.core := by
        simp [Sys.enter, hcheck]
      refine Or.inr ⟨rfl, d, ?_, ?_⟩
      · simp only [hlocked, Sys.locked, hcore]
      · simp only [hrc, hcore]

/-- A call that returns `APP_OTA_OK` has held the lock, unless it is an abort. -/
theorem World.Alone.otaCall_ok {w : World} (h : w.Alone) (b : Board) {call : Call}
    (hcall : call ≠ .abort) (hrc : (w.otaCall b call).2 = .ok) :
    ∃ d, (w.otaCall b call).1.sys.core =
        (call.locked b.slot (call.entered w.sys.core) d).1 ∧
      (call.locked b.slot (call.entered w.sys.core) d).2 = .ok := by
  rcases h.otaCall b call with ⟨rc, hcheck, hrc'⟩ | ⟨_, d, hcore, hrc'⟩
  · rw [hrc'] at hrc
    subst hrc
    exact absurd hcheck (Call.precheck_ne_ok _ hcall)
  · exact ⟨d, hcore, by rw [← hrc', hrc]⟩

/-- Without calls of its own and without others the task leaves the core alone. -/
theorem Runs.still {b : Board} {w w' : World}
    (h : Runs b (fun _ => False) w w') (halone : w.Alone) : w'.sys = w.sys := by
  induction h with
  | refl => rfl
  | @tail mid last hmid hstep ih =>
      rw [← ih]
      cases hstep with
      | tick => exact ((Runs.alone hmid halone).tick b).1
      | own _ hsys hslots => exact hsys
      | call call hC hcheck => exact hC.elim

/-- A world with a running task, in which nobody but the task acts and all
drivers succeed. -/
def World.start (sys : Sys) (imageUrl : List UInt8) (conns : List Conn) : World where
  sys := sys
  running := true
  state := .resolving
  imageUrl := imageUrl
  headerUrl := []
  hasHeaderUrl := false
  autoCommit := false
  otaCoreInited := true
  hdrbuf := []
  conns := conns
  slots := []
  sent := []
  stream := none
  streamEnd := none

end Rw612.Http
