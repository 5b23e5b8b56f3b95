import Rw612.Ir.Capture

/-!
What a captured frame says about the waveform. The symbols are put together
across two edges: the end of a mark appends a symbol, and the edge after it
fills in its space. `assemble` states this on lists, over whole marks and spaces.

Once the buffer is full, marks are dropped but spaces still go into the last
symbol, so that its space is the last one that was measured.
-/

namespace Rw612.Ir

open Lib

/-- The durations of the marks of an alternating sequence. -/
def marks : List UInt32 → List UInt32
  | [] => []
  | [m] => [m]
  | m :: _ :: rest => m :: marks rest

/-- The durations of the spaces. -/
def spaces : List UInt32 → List UInt32
  | [] => []
  | [_] => []
  | _ :: sp :: rest => sp :: spaces rest

/-- Edges with alternating levels, each a number of cycles after the last. -/
def edgesFrom (now : UInt32) (rawLevel : Int) : List UInt32 → List RxAct
  | [] => []
  | c :: cs => .edge (now + c) rawLevel :: edgesFrom (now + c) (1 - rawLevel) cs

/-- An alternating sequence that begins with a falling edge, and the handler. -/
def captureActs (now : UInt32) (cycles : List UInt32) : List RxAct :=
  .edge now 0 :: edgesFrom now 1 cycles ++ [.flip, .deliver]

/-- A frame reports the measured durations `us` of a sequence. -/
structure TrueWaveform (us : List UInt32) (frame : List Symbol) : Prop where
  count : frame.length = min (marks us).length APP_IR_RX_MAX_SYMBOLS
  marks : frame.map (·.markUs.toNat) =
    ((Ir.marks us).take APP_IR_RX_MAX_SYMBOLS).map (min ·.toNat 65535)
  spaces : (frame.map (·.spaceUs.toNat)).dropLast =
    ((Ir.spaces us).take (frame.length - 1)).map (min ·.toNat 65535)
  last : (frame.getLast?.map Symbol.spaceUs) = some 0

/-- The spaces that were measured after the last mark that is recorded. -/
def lateSpaces (us : List UInt32) : List UInt32 :=
  (spaces us).drop (min (marks us).length APP_IR_RX_MAX_SYMBOLS - 1)

theorem marks_map (f : UInt32 → UInt32) (us : List UInt32) :
    marks (us.map f) = (marks us).map f := by
  induction us using marks.induct with
  | case1 | case2 => rfl
  | case3 m sp rest ih => simp [marks, ih]

/-! Assembling a frame from whole marks and spaces. -/

def pushMark (frame : List Symbol) (us : UInt32) : List Symbol :=
  if frame.length < APP_IR_RX_MAX_SYMBOLS then frame ++ [⟨clampUs us, 0⟩] else frame

def patchSpace (frame : List Symbol) (us : UInt32) : List Symbol :=
  match frame.getLast? with
  | none => frame
  | some x => frame.dropLast ++ [{x with spaceUs := clampUs us}]

def assemble (frame : List Symbol) : List UInt32 → List Symbol
  | [] => frame
  | [m] => pushMark frame m
  | m :: sp :: rest => assemble (patchSpace (pushMark frame m) sp) rest

theorem clampUs_toNat (us : UInt32) : (clampUs us).toNat = min us.toNat 65535 := by
  unfold clampUs
  rw [UInt32.toNat_toUInt16]
  split
  · rename_i h
    have hlt : us.toNat < 65535 := UInt32.lt_iff_toNat_lt.mp h
    omega
  · rename_i h
    have hge : ¬us.toNat < 65535 := fun hlt => h (UInt32.lt_iff_toNat_lt.mpr hlt)
    rw [Nat.min_eq_right (by omega)]
    rfl

theorem clampUs_eq_zero {us : UInt32} : clampUs us = 0 ↔ us = 0 := by
  rw [← UInt16.toNat_inj, ← UInt32.toNat_inj, clampUs_toNat]
  simp

theorem take_take_append {α : Type*} (n : Nat) (front back : List α) :
    (front.take n ++ back).take n = (front ++ back).take n := by
  rw [List.take_append, List.take_append, List.take_take, Nat.min_self, List.length_take]
  by_cases hfull : n ≤ front.length
  · rw [Nat.min_eq_left hfull, Nat.sub_self, Nat.sub_eq_zero_of_le hfull]
  · rw [Nat.min_eq_right (by omega)]

theorem patchSpace_concat (front : List Symbol) (x : Symbol) (us : UInt32) :
    patchSpace (front ++ [x]) us = front ++ [{x with spaceUs := clampUs us}] := by
  simp [patchSpace]

theorem pushMark_ne_nil (frame : List Symbol) (us : UInt32) : pushMark frame us ≠ [] := by
  unfold pushMark
  split
  · simp
  · rename_i hfull
    intro hnil
    simp [hnil, APP_IR_RX_MAX_SYMBOLS] at hfull

theorem pushMark_length (frame : List Symbol) (us : UInt32) :
    (pushMark frame us).length ≤ max frame.length APP_IR_RX_MAX_SYMBOLS := by
  unfold pushMark
  split
  · simp only [List.length_append, List.length_singleton]
    omega
  · omega

theorem patchSpace_marks (frame : List Symbol) (us : UInt32) :
    (patchSpace frame us).map Symbol.markUs = frame.map Symbol.markUs := by
  rcases List.eq_nil_or_concat frame with rfl | ⟨front, x, rfl⟩
  · rfl
  · rw [List.concat_eq_append, patchSpace_concat]
    simp

theorem patchSpace_length (frame : List Symbol) (us : UInt32) :
    (patchSpace frame us).length = frame.length := by
  have h := congrArg List.length (patchSpace_marks frame us)
  simpa using h

theorem pushMark_marks {frame : List Symbol} (us : UInt32)
    (hlen : frame.length ≤ APP_IR_RX_MAX_SYMBOLS) :
    (pushMark frame us).map Symbol.markUs =
      (frame.map Symbol.markUs ++ [clampUs us]).take APP_IR_RX_MAX_SYMBOLS := by
  unfold pushMark
  split
  · rename_i hroom
    rw [List.take_of_length_le (by simp; omega)]
    simp
  · rename_i hfull
    rw [List.take_append_of_le_length (by simp; omega), List.take_of_length_le (by simpa)]

/-- Marks are recorded in order until the buffer is full. -/
theorem assemble_marks {frame : List Symbol} (us : List UInt32)
    (hlen : frame.length ≤ APP_IR_RX_MAX_SYMBOLS) :
    (assemble frame us).map Symbol.markUs =
      (frame.map Symbol.markUs ++ (marks us).map clampUs).take APP_IR_RX_MAX_SYMBOLS := by
  induction us using marks.induct generalizing frame with
  | case1 =>
      rw [assemble, marks, List.map_nil, List.append_nil,
        List.take_of_length_le (by simpa)]
  | case2 m => exact pushMark_marks m hlen
  | case3 m sp rest ih =>
      have hpush : (patchSpace (pushMark frame m) sp).length ≤ APP_IR_RX_MAX_SYMBOLS := by
        rw [patchSpace_length]
        have h := pushMark_length frame m
        omega
      rw [assemble, ih hpush, patchSpace_marks, pushMark_marks m hlen, marks,
        List.map_cons]
      rw [take_take_append, List.append_assoc, List.singleton_append]

theorem assemble_length {frame : List Symbol} (us : List UInt32)
    (hlen : frame.length ≤ APP_IR_RX_MAX_SYMBOLS) :
    (assemble frame us).length =
      min (frame.length + (marks us).length) APP_IR_RX_MAX_SYMBOLS := by
  have h := congrArg List.length (assemble_marks us hlen)
  simp only [List.length_map, List.length_take, List.length_append] at h
  omega

/-- The spaces as the symbols hold them: those of all symbols but the last, and
in the last one whatever was measured after its mark. -/
def heldSpaces (all : List UInt16) (len : Nat) : List UInt16 :=
  all.take (len - 1) ++ [(all.drop (len - 1)).getLastD 0]

theorem heldSpaces_full (front : List UInt16) (last late : UInt16) (rest : List UInt16) :
    heldSpaces (front ++ last :: late :: rest) (front.length + 1) =
      heldSpaces (front ++ late :: rest) (front.length + 1) := by
  simp [heldSpaces]

/-- A frame that nothing is added to. -/
theorem heldSpaces_self {frame : List Symbol} (h : frame ≠ []) :
    heldSpaces (frame.map Symbol.spaceUs) frame.length = frame.map Symbol.spaceUs := by
  rcases List.eq_nil_or_concat frame with rfl | ⟨front, x, rfl⟩
  · exact absurd rfl h
  · have hlen : (front ++ [x]).length - 1 = (front.map Symbol.spaceUs).length := by simp
    rw [List.concat_eq_append, heldSpaces, hlen]
    simp

/-- A mark that fits has a symbol of its own, and the space goes into it. -/
theorem patchSpace_pushMark_of_room {frame : List Symbol}
    (hroom : frame.length < APP_IR_RX_MAX_SYMBOLS) (m sp : UInt32) :
    patchSpace (pushMark frame m) sp = frame ++ [⟨clampUs m, clampUs sp⟩] := by
  rw [pushMark, if_pos hroom, patchSpace_concat]

/-- Otherwise it is dropped, and the space goes into the last symbol. -/
theorem patchSpace_pushMark_of_full {front : List Symbol} {x : Symbol}
    (hfull : ¬(front ++ [x]).length < APP_IR_RX_MAX_SYMBOLS) (m sp : UInt32) :
    patchSpace (pushMark (front ++ [x]) m) sp =
      front ++ [{x with spaceUs := clampUs sp}] := by
  rw [pushMark, if_neg hfull, patchSpace_concat]

theorem pushMark_spaces {frame : List Symbol} (m : UInt32) :
    (pushMark frame m).map Symbol.spaceUs =
      heldSpaces (frame.map Symbol.spaceUs) (pushMark frame m).length := by
  unfold pushMark
  split
  · have htake := List.take_length (l := frame.map Symbol.spaceUs)
    have hdrop := List.drop_length (l := frame.map Symbol.spaceUs)
    rw [List.length_map] at htake hdrop
    simp [heldSpaces, htake, hdrop]
  · rename_i hfull
    apply Eq.symm
    apply heldSpaces_self
    intro hnil
    simp [hnil, APP_IR_RX_MAX_SYMBOLS] at hfull

/-- With a full buffer the late space takes the place of the last one. -/
theorem assemble_late {front : List Symbol} {x : Symbol} (sp : UInt32) (rest : List UInt32)
    (hfull : (front ++ [x]).length = APP_IR_RX_MAX_SYMBOLS) :
    heldSpaces ((front ++ [{x with spaceUs := clampUs sp}]).map Symbol.spaceUs ++
        (spaces rest).map clampUs)
      (assemble (front ++ [{x with spaceUs := clampUs sp}]) rest).length =
    heldSpaces ((front ++ [x]).map Symbol.spaceUs ++ (sp :: spaces rest).map clampUs)
      (assemble (front ++ [{x with spaceUs := clampUs sp}]) rest).length := by
  simp only [List.length_append, List.length_singleton] at hfull
  have hcount : (assemble (front ++ [{x with spaceUs := clampUs sp}]) rest).length =
      (front.map Symbol.spaceUs).length + 1 := by
    rw [assemble_length rest (by simp; omega), List.length_map]
    simp only [List.length_append, List.length_singleton]
    omega
  have hlate := heldSpaces_full (front.map Symbol.spaceUs) x.spaceUs (clampUs sp)
    ((spaces rest).map clampUs)
  rw [hcount]
  simpa using hlate.symm

theorem assemble_spaces {frame : List Symbol} (us : List UInt32)
    (hlen : frame.length ≤ APP_IR_RX_MAX_SYMBOLS) (hne : frame ≠ [] ∨ us ≠ []) :
    (assemble frame us).map Symbol.spaceUs =
      heldSpaces (frame.map Symbol.spaceUs ++ (spaces us).map clampUs)
        (assemble frame us).length := by
  induction us using marks.induct generalizing frame with
  | case1 =>
      have hframe : frame ≠ [] := hne.resolve_right (by simp)
      simp [assemble, spaces, heldSpaces_self hframe]
  | case2 m =>
      simp only [assemble, spaces, List.map_nil, List.append_nil]
      exact pushMark_spaces m
  | case3 m sp rest ih =>
      have hpush := pushMark_length frame m
      have hlen' : (patchSpace (pushMark frame m) sp).length ≤ APP_IR_RX_MAX_SYMBOLS := by
        rw [patchSpace_length]
        omega
      have hne' : patchSpace (pushMark frame m) sp ≠ [] := by
        rw [← List.length_pos_iff, patchSpace_length, List.length_pos_iff]
        exact pushMark_ne_nil frame m
      rw [assemble, ih hlen' (Or.inl hne')]
      by_cases hroom : frame.length < APP_IR_RX_MAX_SYMBOLS
      · rw [patchSpace_pushMark_of_room hroom]
        simp [spaces]
      · rcases List.eq_nil_or_concat frame with rfl | ⟨front, x, rfl⟩
        · simp [APP_IR_RX_MAX_SYMBOLS] at hroom
        rw [List.concat_eq_append] at hlen hroom ⊢
        rw [patchSpace_pushMark_of_full hroom, spaces]
        apply assemble_late
        omega

/-- What a frame reports, and the one thing in which it can be wrong. -/
theorem trueWaveform_assemble {us : List UInt32} (hne : us ≠ []) :
    TrueWaveform us (assemble [] us) ↔ (lateSpaces us).getLastD 0 = 0 := by
  have hlength := @assemble_length [] us (Nat.zero_le _)
  have hmarks := @assemble_marks [] us (Nat.zero_le _)
  have hspaces := @assemble_spaces [] us (Nat.zero_le _) (Or.inr hne)
  rw [List.length_nil, Nat.zero_add] at hlength
  rw [List.map_nil, List.nil_append] at hmarks hspaces
  have hlast : (assemble [] us).getLast?.map Symbol.spaceUs =
      some (clampUs ((lateSpaces us).getLastD 0)) := by
    rw [← List.getLast?_map, hspaces, heldSpaces, List.getLast?_concat, hlength,
      ← List.map_drop, lateSpaces]
    exact congrArg some (List.getLastD_map (f := clampUs) (a := 0))
  constructor
  · intro h
    have hzero := hlast.symm.trans h.last
    exact clampUs_eq_zero.mp (Option.some.inj hzero)
  · intro h
    refine ⟨hlength, ?_, ?_, ?_⟩
    · have hnat := congrArg (List.map UInt16.toNat) hmarks
      rw [← List.map_take] at hnat
      simpa [Function.comp_def, clampUs_toNat] using hnat
    · have hnat := congrArg (List.map UInt16.toNat) hspaces
      rw [heldSpaces, List.map_append, ← List.map_take] at hnat
      simp only [List.map_map, List.map_cons, List.map_nil, Function.comp_def,
        clampUs_toNat] at hnat
      rw [hnat, List.dropLast_concat]
    · rw [hlast, h]
      rfl

/-! The interrupts assemble the frame. -/

/-- The interrupt state between two edges, with the frame so far. -/
structure Rx.At (s : Rx) (phase : RxPhase) (now : UInt32) (frame : List Symbol) : Prop where
  active : s.active = true
  phase : s.phase = phase
  now : s.lastCyc = now
  len : s.wrLen ≤ APP_IR_RX_MAX_SYMBOLS
  frame : s.frame s.wrIdx s.wrLen = frame

theorem Rx.frame_succ (s : Rx) (half : Bool) (len : Nat) :
    s.frame half (len + 1) = s.frame half len ++ [s.buf half len] := by
  simp [Rx.frame, List.range_succ]

theorem Rx.frame_store (s : Rx) (len : Nat) (x : Symbol) :
    (s.store len x).frame s.wrIdx (len + 1) = s.frame s.wrIdx len ++ [x] := by
  rw [Rx.frame_succ]
  congr 1
  · apply List.map_congr_left
    intro i hi
    change Function.update s.buf s.wrIdx _ s.wrIdx i = s.buf s.wrIdx i
    rw [Function.update_self, Function.update_of_ne (Nat.ne_of_lt (List.mem_range.mp hi))]
  · simp [Rx.store]

theorem elapsed (now c : UInt32) : now + c - now = c := by
  rw [UInt32.add_comm, UInt32.add_sub_cancel]

/-- The fields that no edge changes. -/
structure Rx.Kept (s s' : Rx) : Prop where
  inited : s'.inited = s.inited
  cycPerUs : s'.cycPerUs = s.cycPerUs
  cb : s'.cb = s.cb
  gap : s'.gap = s.gap
  delivered : s'.delivered = s.delivered

/-- The edge `c` cycles after the last one measures `c`. -/
theorem Rx.At.edge {s : Rx} {phase : RxPhase} {now : UInt32} {frame : List Symbol}
    (h : s.At phase now frame) (c : UInt32) (rawLevel : Int) :
    gpioEdgeCb s (now + c) rawLevel =
      if rawLevel = 0 then
        Rx.fall {s with lastCyc := now + c} (clampUs (cycToUs s.cycPerUs c))
      else Rx.rise {s with lastCyc := now + c} (clampUs (cycToUs s.cycPerUs c)) := by
  rw [gpioEdgeCb, h.active, h.now, elapsed]
  rfl

theorem Rx.At.rise {s : Rx} {now : UInt32} {frame : List Symbol}
    (h : s.At .mark now frame) (c : UInt32) :
    ∃ s', rxSystem.step s (.edge (now + c) 1) = some s' ∧ s.Kept s' ∧
      s'.At .space (now + c) (pushMark frame (cycToUs s.cycPerUs c)) := by
  have hlen : frame.length = s.wrLen := by simp [← h.frame, Rx.frame]
  refine ⟨_, rfl, ?_⟩
  rw [h.edge c 1]
  simp only [one_ne_zero, if_false, Rx.rise, h.phase]
  unfold pushMark
  split
  · rename_i hroom
    rw [if_pos (hlen ▸ hroom)]
    refine ⟨⟨rfl, rfl, rfl, rfl, rfl⟩, h.active, rfl, rfl, hroom, ?_⟩
    rw [← h.frame]
    exact Rx.frame_store s s.wrLen _
  · rename_i hfull
    rw [if_neg (hlen ▸ hfull)]
    exact ⟨⟨rfl, rfl, rfl, rfl, rfl⟩, h.active, rfl, rfl, h.len, h.frame⟩

theorem Rx.At.fall {s : Rx} {now : UInt32} {frame : List Symbol}
    (h : s.At .space now frame) (c : UInt32) :
    ∃ s', rxSystem.step s (.edge (now + c) 0) = some s' ∧ s.Kept s' ∧
      s'.At .mark (now + c) (patchSpace frame (cycToUs s.cycPerUs c)) := by
  refine ⟨_, rfl, ?_⟩
  rw [h.edge c 0]
  simp only [if_true, Rx.fall, h.phase]
  split
  · rename_i hpos
    refine ⟨⟨rfl, rfl, rfl, rfl, rfl⟩, h.active, rfl, rfl, h.len, ?_⟩
    obtain ⟨len, hlen⟩ := Nat.exists_eq_succ_of_ne_zero (Nat.ne_of_gt hpos)
    have hlen : s.wrLen = len + 1 := hlen
    rw [← h.frame, hlen, Rx.frame_succ, patchSpace_concat]
    have hstore := Rx.frame_store s len
      {s.buf s.wrIdx len with spaceUs := clampUs (cycToUs s.cycPerUs c)}
    rw [← hstore]
    simp [Rx.frame, Rx.store, hlen]
  · rename_i hzero
    refine ⟨⟨rfl, rfl, rfl, rfl, rfl⟩, h.active, rfl, rfl, h.len, ?_⟩
    have hnil : frame = [] := by
      have hlen : s.wrLen = 0 := Nat.eq_zero_of_not_pos hzero
      rw [← h.frame, hlen]
      rfl
    rw [hnil]
    exact h.frame.trans hnil

theorem Rx.Kept.trans {s s' s'' : Rx} (h : s.Kept s') (h' : s'.Kept s'') : s.Kept s'' :=
  ⟨h'.inited.trans h.inited, h'.cycPerUs.trans h.cycPerUs, h'.cb.trans h.cb,
    h'.gap.trans h.gap, h'.delivered.trans h.delivered⟩

/-- The edges after the first one assemble the frame. -/
theorem Rx.At.edges {s : Rx} {now : UInt32} {frame : List Symbol}
    (h : s.At .mark now frame) (cycles : List UInt32) :
    ∃ s' phase last, rxSystem.exec s (edgesFrom now 1 cycles) = some s' ∧ s.Kept s' ∧
      s'.At phase last (assemble frame (cycles.map (cycToUs s.cycPerUs))) := by
  induction cycles using marks.induct generalizing s now frame with
  | case1 => exact ⟨s, _, _, rfl, ⟨rfl, rfl, rfl, rfl, rfl⟩, h⟩
  | case2 c =>
      obtain ⟨s', hstep, hkept, hat⟩ := h.rise c
      refine ⟨s', _, _, ?_, hkept, hat⟩
      rw [edgesFrom, edgesFrom, System.exec_cons_of_step hstep, System.exec_nil]
  | case3 c d cycles ih =>
      obtain ⟨s₁, hstep₁, hkept₁, hat₁⟩ := h.rise c
      obtain ⟨s₂, hstep₂, hkept₂, hat₂⟩ := hat₁.fall d
      obtain ⟨s', phase, last, hexec, hkept, hat⟩ := ih hat₂
      refine ⟨s', phase, last, ?_, (hkept₁.trans hkept₂).trans hkept, ?_⟩
      · rw [edgesFrom, edgesFrom, System.exec_cons_of_step hstep₁]
        exact (System.exec_cons_of_step hstep₂ _).trans hexec
      · rw [hkept₂.cycPerUs, hkept₁.cycPerUs] at hat
        exact hat

/-- The whole sequence: the handler passes the assembled frame on. -/
theorem Rx.Inv.capture {s : Rx} (h : s.Inv) (hactive : s.active = true)
    (hidle : s.phase = .idle) (hcb : s.cb = true) (hgap : s.gap = .out) (now : UInt32)
    {cycles : List UInt32} (hmin : APP_IR_RX_MIN_SYMBOLS ≤ (marks cycles).length) :
    ∃ s', rxSystem.exec s (captureActs now cycles) = some s' ∧
      s'.delivered = s.delivered ++
        [assemble [] (cycles.map (cycToUs s.cycPerUs))] := by
  have hfirst : rxSystem.step s (.edge now 0) =
      some {s with lastCyc := now, phase := .mark} := by
    simp [rxSystem, gpioEdgeCb, Rx.fall, hactive, hidle]
  have hat : Rx.At {s with lastCyc := now, phase := .mark} .mark now [] := by
    refine ⟨hactive, rfl, rfl, h.len, ?_⟩
    change s.frame s.wrIdx s.wrLen = []
    rw [h.idle hidle]
    rfl
  obtain ⟨s', phase, last, hexec, hkept, hat'⟩ := hat.edges cycles
  have hlen : APP_IR_RX_MIN_SYMBOLS ≤ s'.wrLen := by
    have hlength := congrArg List.length hat'.frame
    rw [Rx.frame, List.length_map, List.length_range, assemble_length _ (Nat.zero_le _),
      marks_map, List.length_map] at hlength
    rw [hlength, APP_IR_RX_MAX_SYMBOLS]
    rw [APP_IR_RX_MIN_SYMBOLS] at hmin ⊢
    simp only [List.length_nil]
    omega
  have hinited : s'.inited = true := hkept.inited.trans (h.active hactive)
  have hflip : rxSystem.step s' .flip = some s'.flip := by
    simp [rxSystem, hinited, hkept.gap, hgap]
  have hdeliver : rxSystem.step s'.flip .deliver =
      some (s'.flip.deliver s'.wrIdx s'.wrLen) := rfl
  refine ⟨s'.flip.deliver s'.wrIdx s'.wrLen, ?_, ?_⟩
  · rw [captureActs, List.cons_append, System.exec_cons_of_step hfirst, System.exec_append,
      hexec, Option.bind_some, System.exec_cons_of_step hflip,
      System.exec_cons_of_step hdeliver, System.exec_nil]
  · have hcb' : s'.flip.cb = true := hkept.cb.trans hcb
    rw [Rx.deliver, if_pos ⟨hlen, hcb'⟩]
    change s'.delivered ++ [s'.frame s'.wrIdx s'.wrLen] = _
    rw [hkept.delivered, hat'.frame]

/-- A frame reports the true waveform if and only if no space but one of no
length was measured after its last recorded mark. -/
theorem capture_true_iff {acts : List RxAct} {s : Rx}
    (hreach : rxSystem.exec .powerUp acts = some s) (hactive : s.active = true)
    (hidle : s.phase = .idle) (hcb : s.cb = true) (hgap : s.gap = .out) (now : UInt32)
    (cycles : List UInt32) (hmin : APP_IR_RX_MIN_SYMBOLS ≤ (marks cycles).length) :
    ∃ s' frame, rxSystem.exec s (captureActs now cycles) = some s' ∧
      s'.delivered = s.delivered ++ [frame] ∧
      (TrueWaveform (cycles.map (cycToUs s.cycPerUs)) frame ↔
        (lateSpaces (cycles.map (cycToUs s.cycPerUs))).getLastD 0 = 0) := by
  have hinv := System.exec_invariant (fun _ _ _ h hstep => Rx.Inv.step h hstep)
    Rx.inv_powerUp hreach
  obtain ⟨s', hexec, hdelivered⟩ := hinv.capture hactive hidle hcb hgap now hmin
  refine ⟨s', _, hexec, hdelivered, trueWaveform_assemble ?_⟩
  intro hnil
  rw [List.map_eq_nil_iff] at hnil
  rw [hnil, APP_IR_RX_MIN_SYMBOLS] at hmin
  cases hmin

/-- A receiver at 260 MHz that has been started, with a callback. -/
def Rx.listening : Rx :=
  irRxStart {Rx.powerUp with cb := true} ⟨260000000, true, 0, 0, 0⟩ 0

theorem Rx.exec_listening :
    rxSystem.exec .powerUp [.setCallback true, .start ⟨260000000, true, 0, 0, 0⟩ 0] =
      some .listening := rfl

/-- Three marks of 600 µs. -/
theorem capture_true_iff_three_marks :
    ∃ s' frame, rxSystem.exec .listening
        (captureActs 0 [156000, 143000, 156000, 416000, 156000]) = some s' ∧
      s'.delivered = [frame] ∧
      (TrueWaveform [600, 550, 600, 1600, 600] frame ↔ (0 : UInt32) = 0) :=
  capture_true_iff Rx.exec_listening rfl rfl rfl rfl 0
    [156000, 143000, 156000, 416000, 156000] (by decide)

/-- With 385 marks of 600 µs the last symbol has the 384th space, and not 0. -/
theorem capture_full_buffer :
    ∃ s' frame, rxSystem.exec .listening (captureActs 0 (List.replicate 769 156000)) = some s' ∧
      s'.delivered = [frame] ∧ ¬TrueWaveform (List.replicate 769 600) frame := by
  have hinv := System.exec_invariant (fun _ _ _ h hstep => Rx.Inv.step h hstep)
    Rx.inv_powerUp Rx.exec_listening
  have hmarks : APP_IR_RX_MIN_SYMBOLS ≤ (marks (List.replicate 769 156000)).length := by
    decide +kernel
  obtain ⟨s', hexec, hdelivered⟩ := hinv.capture rfl rfl rfl rfl 0 hmarks
  refine ⟨s', _, hexec, hdelivered, ?_⟩
  have hus : (List.replicate 769 156000).map (cycToUs Rx.listening.cycPerUs) =
      List.replicate 769 600 := by
    rw [List.map_replicate]
    rfl
  rw [hus]
  intro htrue
  have hne : List.replicate 769 (600 : UInt32) ≠ [] := by
    rw [ne_eq, List.replicate_eq_nil_iff]
    decide
  have hlate := (trueWaveform_assemble hne).mp htrue
  have hspace : (lateSpaces (List.replicate 769 600)).getLastD 0 = 600 := by
    decide +kernel
  rw [hspace] at hlate
  cases hlate

end Rw612.Ir
