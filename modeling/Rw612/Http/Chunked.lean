import Rw612.Http.ChunkedFormat
import Rw612.Http.FixedBody

/-!
`stream_chunked_body` against the chunked format. Each reader is given in two
directions: what a result of 0 says about the stream, and that a stream of the
format is read to its end while nobody stops the task.
-/

namespace Rw612.Http

open Lib Lib.CString Ota

/-- The task is running, and no other thread is going to stop it. -/
def World.KeepsRunning (w : World) : Prop :=
  w.running = true ∧ ∀ s ∈ w.slots, ∀ o ∈ s.others, o ≠ .stop

theorem World.others_running (b : Board) (w : World) {os : List Other}
    (hos : ∀ o ∈ os, o ≠ .stop) :
    (os.foldl (World.other b) w).running = w.running ∧
      (os.foldl (World.other b) w).slots = w.slots := by
  induction os generalizing w with
  | nil => exact ⟨rfl, rfl⟩
  | cons o os ih =>
      obtain ⟨ho, hrest⟩ := List.forall_mem_cons.mp hos
      have hone : (w.other b o).running = w.running ∧ (w.other b o).slots = w.slots := by
        cases o with
        | ota a =>
            unfold World.other
            dsimp only
            split
            · exact ⟨rfl, rfl⟩
            · split <;> exact ⟨rfl, rfl⟩
        | stop => exact absurd rfl ho
      obtain ⟨hrunning, hslots⟩ := ih (w.other b o) hrest
      exact ⟨hrunning.trans hone.1, hslots.trans hone.2⟩

theorem World.KeepsRunning.tick {w : World} (h : w.KeepsRunning) (b : Board) :
    (w.tick b).1.KeepsRunning := by
  unfold World.tick
  cases hslots : w.slots with
  | nil => exact h
  | cons s slots =>
      have hall := h.2
      rw [hslots, List.forall_mem_cons] at hall
      obtain ⟨hrunning, hrest⟩ := World.others_running b {w with slots := slots} hall.1
      constructor
      · exact hrunning.trans h.1
      · dsimp only at hrest ⊢
        rw [hrest]
        exact hall.2

/-- What a sink was given: these slices, one after another, with nothing but
steps of other threads in between. -/
inductive Fed (b : Board) : World → SinkCtx → List (List UInt8) → World → SinkCtx → Prop where
  | still {w w' : World} {sink : SinkCtx} (h : Runs b (fun _ => False) w w') :
      Fed b w sink [] w' sink
  | slice {w v v' w' : World} {sink sink' sink'' : SinkCtx} {data : List UInt8}
      {slices : List (List UInt8)} (h : Runs b (fun _ => False) w v)
      (hwrite : sinkWrite b v sink data = (0, v', sink'))
      (hrest : Fed b v' sink' slices w' sink'') : Fed b w sink (data :: slices) w' sink''

section

variable {b : Board} {w v w' : World} {sink sink' sink'' : SinkCtx}
  {slices slices' : List (List UInt8)}

theorem Fed.after (h : Runs b (fun _ => False) w v) (hfed : Fed b v sink slices w' sink') :
    Fed b w sink slices w' sink' := by
  cases hfed with
  | still hruns => exact .still (h.trans hruns)
  | slice hruns hwrite hrest => exact .slice (h.trans hruns) hwrite hrest

theorem Fed.append (h : Fed b w sink slices v sink')
    (h' : Fed b v sink' slices' w' sink'') : Fed b w sink (slices ++ slices') w' sink'' := by
  induction h with
  | still hruns => exact h'.after hruns
  | slice hruns hwrite hrest ih => exact .slice hruns hwrite (ih h')

theorem Fed.before (h : Fed b w sink slices v sink') (hruns : Runs b (fun _ => False) v w') :
    Fed b w sink slices w' sink' := by
  have happend := h.append (.still hruns)
  rwa [List.append_nil] at happend

/-- A buffer holds what it was given. -/
theorem sinkWrite_buffer_ok {data : List UInt8} (hmode : sink.mode = .buffer)
    (h : sinkWrite b w sink data = (0, w', sink')) :
    w' = w ∧ sink' = {sink with buf := sink.buf ++ data} ∧
      sink.buf.length + data.length ≤ sink.bufCap := by
  simp only [sinkWrite, hmode] at h
  split at h
  · cases h
  case isFalse hfits =>
      cases h
      exact ⟨rfl, by rw [hmode], Nat.le_of_not_lt hfits⟩

theorem sinkWrite_buffer {data : List UInt8} (hmode : sink.mode = .buffer)
    (hfits : sink.buf.length + data.length ≤ sink.bufCap) :
    sinkWrite b w sink data = (0, w, {sink with buf := sink.buf ++ data}) := by
  simp only [sinkWrite, hmode]
  exact if_neg (Nat.not_lt.mpr hfits)

theorem Fed.buffer (h : Fed b w sink slices w' sink') (hmode : sink.mode = .buffer) :
    sink' = {sink with buf := sink.buf ++ slices.flatten} := by
  induction h with
  | still hruns => simp
  | slice hruns hwrite hrest ih =>
      obtain ⟨-, rfl, -⟩ := sinkWrite_buffer_ok hmode hwrite
      rw [ih hmode]
      simp

end

/-! `bs_read_line` -/

theorem bsReadSome_one {bs bs' : ByteStream} {got : List UInt8}
    (h : bsReadSome bs 1 = some (got, bs')) : bs.bytes = deref got :: bs'.bytes := by
  obtain ⟨hbytes, hne, hlength⟩ := bsReadSome_some h Nat.one_pos
  match got, hne, hlength with
  | [c], _, _ => exact hbytes

/-- The drain loop stops behind the next line end. -/
theorem bsDrainLine_split (b : Board) (w : World) (bs : ByteStream) (prevCr : Bool) :
    let r := bsDrainLine b w bs prevCr
    (r.rc = -2 → ∃ l, splitFrom prevCr bs.bytes = some (l, r.bs.bytes)) ∧ r.rc ≠ 0 ∧
      (w.KeepsRunning → (splitFrom prevCr bs.bytes).isSome →
        r.rc = -2 ∧ r.world.KeepsRunning) := by
  fun_induction bsDrainLine b w bs prevCr with
  | case1 w bs prevCr w₁ hstop =>
      refine ⟨by simp, by simp, fun hkeeps => ?_⟩
      simp [(hkeeps.tick b).1, w₁] at hstop
  | case2 w bs prevCr w₁ _ hnone =>
      refine ⟨by simp, by simp, fun _ hsplit => ?_⟩
      simp [bsReadSome_none Nat.one_pos hnone, splitFrom] at hsplit
  | case3 w bs prevCr w₁ _ got bs' hread d hend =>
      refine ⟨fun _ => ⟨[], ?_⟩, by simp, fun hkeeps _ => ⟨rfl, hkeeps.tick b⟩⟩
      rw [bsReadSome_one hread, splitFrom, if_pos hend]
  | case4 w bs prevCr w₁ _ got bs' hread d hend ih =>
      obtain ⟨hsplit, hne, hkeep⟩ := ih
      have hcons := splitFrom_cons prevCr d bs'.bytes hend
      rw [bsReadSome_one hread, hcons]
      refine ⟨fun hrc => ?_, hne, fun hkeeps hsome => ?_⟩
      · obtain ⟨l, hl⟩ := hsplit hrc
        exact ⟨d :: l, by rw [hl]; rfl⟩
      · exact hkeep (hkeeps.tick b) (by simpa using hsome)

/-- The loop over one line with `line` stored so far: the result is 0 if the
line fits with its CR, and -2 if it does not. -/
theorem bsReadLineFrom_split (b : Board) (cap : Nat) (w : World) (bs : ByteStream)
    (line : List UInt8) (prevCr : Bool) (hprev : prevCr = true → line.getLast? = some 13)
    (hfits : line.length ≤ cap - 1) (hcap : 0 < cap) :
    let r := bsReadLineFrom b cap w bs line prevCr
    (r.rc = 0 → ∃ l, splitFrom prevCr bs.bytes = some (l, r.bs.bytes) ∧
      (line ++ l).length ≤ cap - 1 ∧ r.out = (line ++ l).dropLast) ∧
    (r.rc = -2 → ∃ l, splitFrom prevCr bs.bytes = some (l, r.bs.bytes) ∧
      cap - 1 < (line ++ l).length) ∧
    (w.KeepsRunning → (splitFrom prevCr bs.bytes).isSome →
      (r.rc = 0 ∨ r.rc = -2) ∧ r.world.KeepsRunning) := by
  fun_induction bsReadLineFrom b cap w bs line prevCr with
  | case1 w bs line prevCr w₁ hstop =>
      refine ⟨by simp, by simp, fun hkeeps => ?_⟩
      simp [(hkeeps.tick b).1, w₁] at hstop
  | case2 w bs line prevCr w₁ _ hnone =>
      refine ⟨by simp, by simp, fun _ hsplit => ?_⟩
      simp [bsReadSome_none Nat.one_pos hnone, splitFrom] at hsplit
  | case3 w bs line prevCr w₁ _ got bs' hread c hend line' =>
      have hsplit : splitFrom prevCr bs.bytes = some ([], bs'.bytes) := by
        rw [bsReadSome_one hread, splitFrom, if_pos hend]
      have hlast := hprev hend.2
      have hline' : line' = line.dropLast := if_pos hlast
      have hshort : ¬cap ≤ line'.length := by
        rw [hline', List.length_dropLast]
        omega
      refine ⟨fun _ => ⟨[], hsplit, by simpa using hfits, by simpa using hline'⟩, ?_, ?_⟩
      · simp [hshort]
      · exact fun hkeeps _ => ⟨.inl (if_neg hshort), hkeeps.tick b⟩
  | case4 w bs line prevCr w₁ _ got bs' hread c hend hroom ih =>
      have hcons := splitFrom_cons prevCr c bs'.bytes hend
      have hfits' : (line ++ [c]).length ≤ cap - 1 := by
        rw [List.length_append, List.length_singleton]
        omega
      obtain ⟨hok, hlong, hkeep⟩ := ih (by simp) hfits'
      rw [bsReadSome_one hread, hcons]
      refine ⟨fun hrc => ?_, fun hrc => ?_, fun hkeeps hsome => ?_⟩
      · obtain ⟨l, hl, hlen, hout⟩ := hok hrc
        refine ⟨c :: l, by rw [hl]; rfl, ?_, ?_⟩
        · simpa using hlen
        · simpa using hout
      · obtain ⟨l, hl, hlen⟩ := hlong hrc
        exact ⟨c :: l, by rw [hl]; rfl, by simpa using hlen⟩
      · exact hkeep (hkeeps.tick b) (by simpa using hsome)
  | case5 w bs line prevCr w₁ _ got bs' hread c hend hfull r =>
      have hcons := splitFrom_cons prevCr c bs'.bytes hend
      obtain ⟨hlong, hne, hkeep⟩ := bsDrainLine_split b w₁ bs' (c == 13)
      rw [bsReadSome_one hread, hcons]
      refine ⟨fun hrc => absurd hrc hne, fun hrc => ?_, fun hkeeps hsome => ?_⟩
      · obtain ⟨l, hl⟩ := hlong hrc
        refine ⟨c :: l, by rw [hl]; rfl, ?_⟩
        rw [List.length_append, List.length_cons]
        omega
      · obtain ⟨hrc, hworld⟩ := hkeep (hkeeps.tick b) (by simpa using hsome)
        exact ⟨.inr hrc, hworld⟩

/-- One line of the body: its bytes up to CR LF, or -2 if there are too many. -/
theorem bsReadLine_split (b : Board) (w : World) (bs : ByteStream) :
    let r := bsReadLine b w bs 40
    (r.rc = 0 → splitLine bs.bytes = some (r.out, r.bs.bytes) ∧ r.out.length ≤ LINE_MAX) ∧
    (r.rc = -2 → ∃ line, splitLine bs.bytes = some (line, r.bs.bytes) ∧
      LINE_MAX < line.length) ∧
    (w.KeepsRunning → (splitLine bs.bytes).isSome →
      (r.rc = 0 ∨ r.rc = -2) ∧ r.world.KeepsRunning) := by
  obtain ⟨hok, hlong, hkeep⟩ := bsReadLineFrom_split b 40 w bs [] false (by simp)
    (Nat.zero_le _) (by decide)
  refine ⟨fun hrc => ?_, fun hrc => ?_, fun hkeeps hsome => ?_⟩
  · obtain ⟨l, hl, hlen, hout⟩ := hok hrc
    rw [List.nil_append] at hlen hout
    change (bsReadLine b w bs 40).out = _ at hout
    rw [hout]
    refine ⟨?_, ?_⟩
    · rw [splitLine, hl]
      rfl
    · rw [List.length_dropLast, LINE_MAX]
      omega
  · obtain ⟨l, hl, hlen⟩ := hlong hrc
    rw [List.nil_append] at hlen
    refine ⟨l.dropLast, ?_, ?_⟩
    · rw [splitLine, hl]
      rfl
    · rw [List.length_dropLast, LINE_MAX]
      omega
  · apply hkeep hkeeps
    simpa [splitLine] using hsome

/-- A line that is there and fits is read. -/
theorem bsReadLine_reads {b : Board} {w : World} {bs : ByteStream} {line rest : List UInt8}
    (hkeeps : w.KeepsRunning) (hsplit : splitLine bs.bytes = some (line, rest)) :
    let r := bsReadLine b w bs 40
    r.world.KeepsRunning ∧ r.bs.bytes = rest ∧
      (line.length ≤ LINE_MAX → r.rc = 0 ∧ r.out = line) ∧
      (LINE_MAX < line.length → r.rc = -2) := by
  obtain ⟨hok, hlong, hkeep⟩ := bsReadLine_split b w bs
  obtain ⟨hrc, hworld⟩ := hkeep hkeeps (by rw [hsplit]; rfl)
  refine ⟨hworld, ?_⟩
  rcases hrc with hrc | hrc
  · obtain ⟨hread, hshort⟩ := hok hrc
    rw [hsplit, Option.some.injEq, Prod.mk.injEq] at hread
    obtain ⟨hline, hrest⟩ := hread
    rw [← hline] at hshort
    exact ⟨hrest.symm, fun _ => ⟨hrc, hline.symm⟩, fun hover => by omega⟩
  · obtain ⟨line', hread, hover⟩ := hlong hrc
    rw [hsplit, Option.some.injEq, Prod.mk.injEq] at hread
    obtain ⟨rfl, hrest⟩ := hread
    exact ⟨hrest.symm, fun hshort => by omega, fun _ => hrc⟩

/-! The trailer. -/

theorem streamTrailer_ok {b : Board} {w : World} {bs : ByteStream}
    (h : (streamTrailer b w bs).rc = 0) :
    ∃ term, Trailer lenient bs.bytes term (streamTrailer b w bs).bs.bytes := by
  fun_induction streamTrailer b w bs with
  | case1 w bs l hlong ih =>
      obtain ⟨line, hline, hover⟩ := (bsReadLine_split b w bs).2.1 hlong
      obtain ⟨term, hterm⟩ := ih h
      exact ⟨term, .skip hline (by simp [lenient, Nat.not_le.mpr hover]) hterm⟩
  | case2 w bs l hlong hrc hnul =>
      obtain ⟨hline, hshort⟩ := (bsReadLine_split b w bs).1 hrc
      exact ⟨l.out, .ends hline (by simpa [lenient, hnul] using hshort)⟩
  | case3 w bs l hlong hrc hnul ih =>
      obtain ⟨hline, hshort⟩ := (bsReadLine_split b w bs).1 hrc
      obtain ⟨term, hterm⟩ := ih h
      have hnul' : (deref l.out == 0) = false := beq_eq_false_iff_ne.mpr hnul
      exact ⟨term, .skip hline (by simp [lenient, l, hnul']) hterm⟩
  | case4 => simp at h

theorem streamTrailer_reads {b : Board} {p term rest : List UInt8}
    (h : Trailer lenient p term rest) {w : World} {bs : ByteStream} (hkeeps : w.KeepsRunning)
    (hbytes : bs.bytes = p) :
    let r := streamTrailer b w bs
    r.rc = 0 ∧ r.bs.bytes = rest ∧ r.world.KeepsRunning := by
  induction h generalizing w bs with
  | @ends p line rest hline hends =>
      rw [← hbytes] at hline
      obtain ⟨hworld, hrest, hread, -⟩ := bsReadLine_reads (b := b) hkeeps hline
      simp only [lenient, Bool.and_eq_true, decide_eq_true_eq, beq_iff_eq] at hends
      obtain ⟨hrc, hout⟩ := hread hends.1
      have hnul : deref (bsReadLine b w bs 40).out = 0 := by
        rw [hout]
        exact hends.2
      rw [streamTrailer, dif_neg (by rw [hrc]; decide), dif_pos hrc, if_pos hnul]
      exact ⟨rfl, hrest, hworld⟩
  | @skip p line q term rest hline hends htrailer ih =>
      rw [← hbytes] at hline
      obtain ⟨hworld, hrest, hread, hlong⟩ := bsReadLine_reads (b := b) hkeeps hline
      rw [streamTrailer]
      rcases Nat.lt_or_ge LINE_MAX line.length with hover | hshort
      · rw [dif_pos (hlong hover)]
        exact ih hworld hrest
      · obtain ⟨hrc, hout⟩ := hread hshort
        have hnul : ¬deref (bsReadLine b w bs 40).out = 0 := by
          rw [hout]
          simpa [lenient, hshort] using hends
        rw [dif_neg (by rw [hrc]; decide), dif_pos hrc, if_neg hnul]
        exact ih hworld hrest

/-! The two bytes behind the data, and the data. -/

theorem bsReadExact_ok {b : Board} {w : World} {bs : ByteStream} {want : Nat}
    {out : List UInt8} (h : (bsReadExact b w bs want out).rc = 0) :
    ∃ got, got.length = want ∧ (bsReadExact b w bs want out).out = out ++ got ∧
      bs.bytes = got ++ (bsReadExact b w bs want out).bs.bytes := by
  fun_induction bsReadExact b w bs want out with
  | case1 => simp at h
  | case2 => simp at h
  | case3 w bs want out hwant w₁ _ got bs' hread ih =>
      obtain ⟨hbytes, hne, hlength⟩ := bsReadSome_some hread hwant
      obtain ⟨more, hmore, hout, hrest⟩ := ih h
      refine ⟨got ++ more, ?_, ?_, ?_⟩
      · rw [List.length_append]
        omega
      · rw [hout, List.append_assoc]
      · rw [hbytes, List.append_assoc, ← hrest]
  | case4 w bs want out hwant =>
      exact ⟨[], by simp; omega, by simp, rfl⟩

theorem bsReadExact_reads (b : Board) {w : World} (bs : ByteStream) (want : Nat)
    (out : List UInt8) (hkeeps : w.KeepsRunning) (hthere : want ≤ bs.bytes.length) :
    (bsReadExact b w bs want out).rc = 0 ∧
      (bsReadExact b w bs want out).world.KeepsRunning := by
  fun_induction bsReadExact b w bs want out with
  | case1 w bs want out hwant w₁ hstop => simp [(hkeeps.tick b).1, w₁] at hstop
  | case2 w bs want out hwant w₁ _ hnone =>
      rw [bsReadSome_none hwant hnone, List.length_nil] at hthere
      omega
  | case3 w bs want out hwant w₁ _ got bs' hread ih =>
      obtain ⟨hbytes, hne, hlength⟩ := bsReadSome_some hread hwant
      apply ih (hkeeps.tick b)
      rw [hbytes, List.length_append] at hthere
      omega
  | case4 => exact ⟨rfl, hkeeps⟩

theorem streamChunkData_ok {b : Board} {w : World} {bs : ByteStream} {sink : SinkCtx}
    {sz : Nat} (h : (streamChunkData b w bs sink sz).rc = 0) :
    let r := streamChunkData b w bs sink sz
    ∃ slices, slices.flatten.length = sz ∧ bs.bytes = slices.flatten ++ r.bs.bytes ∧
      Fed b w sink slices r.world r.out := by
  fun_induction streamChunkData b w bs sink sz with
  | case1 => simp at h
  | case2 => simp at h
  | case3 => simp at h
  | case4 w bs sink sz hsz w₁ _ got bs' hread wrc w' sink' hwrite hwrc ih =>
      obtain rfl : wrc = 0 := not_not.mp hwrc
      obtain ⟨hbytes, hne, hlength⟩ := bsReadSome_some hread
        (by simp [APP_OTA_HTTP_RX_CHUNK]; omega)
      have hfits : got.length ≤ sz := Nat.le_trans hlength (Nat.min_le_left _ _)
      obtain ⟨slices, hlen, hrest, hfed⟩ := ih h
      refine ⟨got :: slices, ?_, ?_, .slice (Runs.tick w) hwrite hfed⟩
      · rw [List.flatten_cons, List.length_append]
        omega
      · rw [List.flatten_cons, List.append_assoc, ← hrest]
        exact hbytes
  | case5 w bs sink sz hsz =>
      exact ⟨[], by simp; omega, rfl, .still (Runs.refl w)⟩

theorem streamChunkData_reads {b : Board} {w : World} {bs : ByteStream} {sink : SinkCtx}
    {sz : Nat} (hkeeps : w.KeepsRunning) (hmode : sink.mode = .buffer)
    (hthere : sz ≤ bs.bytes.length) (hroom : sink.buf.length + sz ≤ sink.bufCap) :
    let r := streamChunkData b w bs sink sz
    r.rc = 0 ∧ r.world.KeepsRunning := by
  fun_induction streamChunkData b w bs sink sz with
  | case1 w bs sink sz hsz w₁ hstop => simp [(hkeeps.tick b).1, w₁] at hstop
  | case2 w bs sink sz hsz w₁ _ hnone =>
      rw [bsReadSome_none (by simp [APP_OTA_HTTP_RX_CHUNK]; omega) hnone,
        List.length_nil] at hthere
      omega
  | case3 w bs sink sz hsz w₁ _ got bs' hread wrc w' sink' hwrite hwrc =>
      obtain ⟨-, -, hlength⟩ := bsReadSome_some hread (by simp [APP_OTA_HTTP_RX_CHUNK]; omega)
      have hfits : got.length ≤ sz := Nat.le_trans hlength (Nat.min_le_left _ _)
      rw [sinkWrite_buffer hmode (by omega)] at hwrite
      cases hwrite
      exact absurd rfl hwrc
  | case4 w bs sink sz hsz w₁ _ got bs' hread wrc w' sink' hwrite hwrc ih =>
      obtain ⟨hbytes, -, hlength⟩ := bsReadSome_some hread
        (by simp [APP_OTA_HTTP_RX_CHUNK]; omega)
      have hfits : got.length ≤ sz := Nat.le_trans hlength (Nat.min_le_left _ _)
      rw [sinkWrite_buffer hmode (by omega)] at hwrite
      cases hwrite
      rw [hbytes, List.length_append] at hthere
      apply ih (hkeeps.tick b) hmode (by omega)
      simp only [List.length_append]
      omega
  | case5 => exact ⟨rfl, hkeeps⟩

/-! The whole body. -/

/-- What the decoder makes of a size line. -/
theorem lenient_size_of_strtoul {line endp : List UInt8} {sz : UInt32}
    (hshort : line.length ≤ LINE_MAX) (hread : strtoul 16 line = (sz, endp)) (hend : endp ≠ line) :
    lenient.size line = some sz.toNat := by
  have hmoved : number 16 line ≠ none := by
    rw [ne_eq, ← strtoul_end_eq_iff, hread]
    exact hend
  obtain ⟨found, hfound⟩ := Option.ne_none_iff_exists'.mp hmoved
  simp only [lenient, if_pos hshort, hfound, Option.map_some, hread]

theorem lenient_size_strtoul {line : List UInt8} {n : Nat} (h : lenient.size line = some n) :
    (strtoul 16 line).2 ≠ line ∧ (strtoul 16 line).1.toNat = n := by
  simp only [lenient, if_pos (lenient_size_short h)] at h
  obtain ⟨found, hfound, hn⟩ := Option.map_eq_some_iff.mp h
  refine ⟨?_, hn⟩
  rw [ne_eq, strtoul_end_eq_iff, hfound]
  simp

/-- A result of 0: the stream began with a body, as the decoder understands the
lines, and the sink was given its data. -/
theorem streamChunkedBody_ok {b : Board} {w : World} {bs : ByteStream} {sink : SinkCtx}
    (h : (streamChunkedBody b w bs sink).rc = 0) :
    let r := streamChunkedBody b w bs sink
    ∃ lines term slices, Body lenient bs.bytes lines term slices.flatten r.bs.bytes ∧
      Fed b w sink slices r.world r.out := by
  fun_induction streamChunkedBody b w bs sink with
  | case1 => simp at h
  | case2 => simp at h
  | case3 w bs sink w₁ _ l hrc endp hend r hread =>
      obtain ⟨hline, hshort⟩ := (bsReadLine_split b w₁ bs).1 hrc
      obtain ⟨term, hterm⟩ := streamTrailer_ok h
      have hsize := lenient_size_of_strtoul hshort hread hend
      have hruns : Runs b (fun _ => False) w r.world :=
        ((Runs.tick w).trans (bsReadLine_runs b _ w₁ bs 40)).trans
          (streamTrailer_runs b _ l.world l.bs)
      exact ⟨[l.out], term, [], .last hline hsize hterm, .still hruns⟩
  | case4 w bs sink w₁ _ l hrc sz endp hread hend hzero r hne => exact absurd h hne
  | case5 => simp at h
  | case6 => simp at h
  | case7 w bs sink w₁ _ l hrc sz endp hread hend hzero r hr c hc hcrlf ih =>
      obtain ⟨hline, hshort⟩ := (bsReadLine_split b w₁ bs).1 hrc
      have hsize := lenient_size_of_strtoul hshort hread hend
      obtain ⟨slices, hlen, hdata, hfed⟩ := streamChunkData_ok (not_not.mp hr)
      obtain ⟨got, -, hout, hrest⟩ := bsReadExact_ok (not_not.mp hc)
      obtain ⟨lines, term, more, hbody, hmore⟩ := ih h
      have hgot : got = [13, 10] := hout.symm.trans (not_not.mp hcrlf)
      rw [hgot] at hrest
      rw [← hlen] at hsize
      have hne : slices.flatten ≠ [] := by
        intro hnil
        rw [hnil, List.length_nil] at hlen
        exact hzero (UInt32.toNat_inj.mp hlen.symm)
      rw [hdata, hrest] at hline
      refine ⟨l.out :: lines, term, slices ++ more, ?_, ?_⟩
      · rw [List.flatten_append]
        exact .chunk hline hsize hne hbody
      · have hlineRuns : Runs b (fun _ => False) w l.world :=
          (Runs.tick w).trans (bsReadLine_runs b _ w₁ bs 40)
        exact ((hfed.after hlineRuns).before (bsReadExact_runs b _ _ _ _ _)).append hmore
  | case8 => simp at h

/-- A body in the stream is read to its end into a buffer with room for it, while
nobody stops the task. -/
theorem streamChunkedBody_reads {p term data rest : List UInt8}
    {lines : List (List UInt8)} (h : Body lenient p lines term data rest) (b : Board) (w : World)
    (bs : ByteStream) (sink : SinkCtx) (hkeeps : w.KeepsRunning) (hbytes : bs.bytes = p)
    (hmode : sink.mode = .buffer) (hroom : sink.buf.length + data.length ≤ sink.bufCap) :
    (streamChunkedBody b w bs sink).rc = 0 := by
  induction h generalizing w bs sink with
  | @last p line q term rest hline hsize htrailer =>
      rw [← hbytes] at hline
      obtain ⟨hworld, hrest, hread, -⟩ := bsReadLine_reads (b := b) (hkeeps.tick b) hline
      obtain ⟨hrc, hout⟩ := hread (lenient_size_short hsize)
      obtain ⟨hmoved, hzero⟩ := lenient_size_strtoul hsize
      obtain ⟨hdone, -, -⟩ := streamTrailer_reads htrailer hworld hrest
      rw [← hout] at hmoved hzero
      have hsz : (strtoul 16 (bsReadLine b (w.tick b).1 bs 40).out).1 = 0 :=
        UInt32.toNat_inj.mp hzero
      rw [streamChunkedBody]
      simp only [(hkeeps.tick b).1, Bool.not_true, Bool.false_eq_true, if_false]
      rw [dif_pos hrc, if_neg hmoved, if_pos hsz]
      exact hdone
  | @chunk p line data q term more rest lines hline hsize hdata hrest ih =>
      rw [← hbytes] at hline
      obtain ⟨hworld, hbehind, hread, -⟩ := bsReadLine_reads (b := b) (hkeeps.tick b) hline
      obtain ⟨hrc, hout⟩ := hread (lenient_size_short hsize)
      obtain ⟨hmoved, hlen⟩ := lenient_size_strtoul hsize
      rw [← hout] at hmoved hlen
      rw [List.length_append] at hroom
      have hsz : (strtoul 16 (bsReadLine b (w.tick b).1 bs 40).out).1 ≠ 0 := by
        intro hzero
        rw [hzero] at hlen
        exact hdata (List.length_eq_zero_iff.mp hlen.symm)
      rw [streamChunkedBody]
      simp only [(hkeeps.tick b).1, Bool.not_true, Bool.false_eq_true, if_false]
      rw [dif_pos hrc, if_neg hmoved, if_neg hsz, hlen]
      generalize bsReadLine b (w.tick b).1 bs 40 = l at hworld hbehind
      -- the data
      have hthere : data.length ≤ l.bs.bytes.length := by
        rw [hbehind, List.length_append]
        omega
      obtain ⟨hdone, hkeeps'⟩ := streamChunkData_reads (b := b) hworld hmode hthere (by omega)
      obtain ⟨slices, hslices, hcut, hfed⟩ := streamChunkData_ok hdone
      have hsink := hfed.buffer hmode
      rw [if_neg (not_not.mpr hdone)]
      generalize streamChunkData b l.world l.bs sink data.length = r at hcut hkeeps' hsink
      rw [hbehind] at hcut
      obtain ⟨hflat, hcrlf⟩ := List.append_inj hcut hslices.symm
      -- its CR LF
      obtain ⟨hexact, hkeeps''⟩ := bsReadExact_reads b r.bs 2 [] hkeeps'
        (by rw [← hcrlf]; simp)
      obtain ⟨got, hgot, hout', hrest'⟩ := bsReadExact_ok hexact
      rw [if_neg (not_not.mpr hexact)]
      generalize bsReadExact b r.world r.bs 2 [] = c at hkeeps'' hout' hrest'
      rw [← hcrlf] at hrest'
      have hrest'' : [13, 10] ++ q = got ++ c.bs.bytes := hrest'
      obtain ⟨hgot', hq⟩ := List.append_inj hrest'' hgot.symm
      have hcrlf' : c.out = crlf := by
        rw [hout', ← hgot']
        rfl
      rw [if_neg (not_not.mpr hcrlf')]
      apply ih _ _ _ hkeeps'' hq.symm
      · rw [hsink]
        exact hmode
      · rw [hsink, ← hflat]
        dsimp only
        rw [List.length_append]
        omega

/-! The capacity of a buffer. -/

theorem sinkWrite_bounded (b : Board) (w : World) (data : List UInt8) {sink : SinkCtx}
    (hmode : sink.mode = .buffer) (hbound : sink.buf.length ≤ sink.bufCap) :
    let sink' := (sinkWrite b w sink data).2.2
    sink'.mode = .buffer ∧ sink'.bufCap = sink.bufCap ∧ sink'.buf.length ≤ sink.bufCap := by
  simp only [sinkWrite, hmode]
  split
  · exact ⟨hmode, rfl, hbound⟩
  · refine ⟨rfl, rfl, ?_⟩
    dsimp only
    rw [List.length_append]
    omega

theorem streamChunkData_bounded (b : Board) (w : World) (bs : ByteStream) {sink : SinkCtx}
    (sz : Nat) (hmode : sink.mode = .buffer) (hbound : sink.buf.length ≤ sink.bufCap) :
    let sink' := (streamChunkData b w bs sink sz).out
    sink'.mode = .buffer ∧ sink'.bufCap = sink.bufCap ∧ sink'.buf.length ≤ sink.bufCap := by
  fun_induction streamChunkData b w bs sink sz with
  | case1 => exact ⟨hmode, rfl, hbound⟩
  | case2 => exact ⟨hmode, rfl, hbound⟩
  | case3 w bs sink sz hsz w₁ _ got bs' hread wrc w' sink' hwrite hwrc =>
      have hstep := sinkWrite_bounded b w₁ got hmode hbound
      rw [hwrite] at hstep
      exact hstep
  | case4 w bs sink sz hsz w₁ _ got bs' hread wrc w' sink' hwrite hwrc ih =>
      have hstep := sinkWrite_bounded b w₁ got hmode hbound
      rw [hwrite] at hstep
      obtain ⟨hmode', hcap', hbound'⟩ := hstep
      have hrest := ih hmode' (hcap' ▸ hbound')
      rw [hcap'] at hrest
      exact hrest
  | case5 => exact ⟨hmode, rfl, hbound⟩

theorem streamChunkedBody_bounded (b : Board) (w : World) (bs : ByteStream) {sink : SinkCtx}
    (hmode : sink.mode = .buffer) (hbound : sink.buf.length ≤ sink.bufCap) :
    (streamChunkedBody b w bs sink).out.buf.length ≤ sink.bufCap := by
  fun_induction streamChunkedBody b w bs sink with
  | case1 => exact hbound
  | case2 => exact hbound
  | case3 => exact hbound
  | case4 w bs sink w₁ _ l hrc sz endp hread hend hzero r =>
      exact (streamChunkData_bounded b l.world l.bs _ hmode hbound).2.2
  | case5 w bs sink w₁ _ l hrc sz endp hread hend hzero r =>
      exact (streamChunkData_bounded b l.world l.bs _ hmode hbound).2.2
  | case6 w bs sink w₁ _ l hrc sz endp hread hend hzero r =>
      exact (streamChunkData_bounded b l.world l.bs _ hmode hbound).2.2
  | case7 w bs sink w₁ _ l hrc sz endp hread hend hzero r hr c hc hcrlf ih =>
      obtain ⟨hmode', hcap', hbound'⟩ := streamChunkData_bounded b l.world l.bs sz.toNat
        hmode hbound
      have hrest := ih hmode' (hcap' ▸ hbound')
      exact hcap' ▸ hrest
  | case8 => exact hbound

/-- The buffer of a sink is an object in memory, and stays clear of the largest
addresses by a slice. -/
def BufferSize (cap : Nat) : Prop := cap + APP_OTA_HTTP_RX_CHUNK < 0x100000000

/-- Every encoding of a body, cut into segments in any way, is decoded to its
data if the buffer has room for it, and is refused otherwise. -/
theorem chunked_round_trip (b : Board) (w : World) (hkeeps : w.KeepsRunning)
    (e : EncodedBody) (rest : List UInt8) (bs : ByteStream)
    (hbytes : bs.bytes = e.bytes ++ rest) (otaOffset : UInt32) (cap : Nat)
    (hcap : BufferSize cap) :
    let r := streamChunkedBody b w bs ⟨.buffer, otaOffset, [], cap⟩
    (e.data.length ≤ cap → r.rc = 0 ∧ r.bs.bytes = rest ∧ r.out.buf = e.data) ∧
      (cap < e.data.length → r.rc ≠ 0) ∧ r.out.buf.length ≤ cap := by
  have hsmall : cap < 0xFFFFFFFF := by
    unfold BufferSize APP_OTA_HTTP_RX_CHUNK at hcap
    omega
  refine ⟨fun hfits => ?_, fun hlong hzero => ?_,
    streamChunkedBody_bounded b w bs rfl (Nat.zero_le _)⟩
  · obtain ⟨lines, hbody⟩ := e.decodes rest (by omega)
    have hrc := streamChunkedBody_reads hbody b w bs ⟨.buffer, otaOffset, [], cap⟩ hkeeps hbytes
      rfl (by simpa using hfits)
    obtain ⟨lines', term, slices, hread, hfed⟩ := streamChunkedBody_ok hrc
    rw [hbytes] at hread
    obtain ⟨-, -, hdata, hrest⟩ := hread.unique hbody
    refine ⟨hrc, hrest, ?_⟩
    rw [hfed.buffer rfl, hdata]
    rfl
  · obtain ⟨lines, term, slices, hread, hfed⟩ := streamChunkedBody_ok hzero
    rw [hbytes] at hread
    have hover := e.decodes_long rest cap hsmall hlong hread
    have hbound : (streamChunkedBody b w bs ⟨.buffer, otaOffset, [], cap⟩).out.buf.length ≤ cap :=
      streamChunkedBody_bounded b w bs rfl (Nat.zero_le _)
    rw [hfed.buffer rfl] at hbound
    simp only [List.nil_append] at hbound
    omega

/-- The size line "01;x" and two bytes split behind the head. -/
def oneByteBody : EncodedBody where
  chunks := [⟨⟨ascii "01", ascii ";x", by decide, List.all_eq_true.mp (by decide), by decide,
    by decide, by decide⟩, ascii "a", by decide, by decide⟩]
  last := ⟨ascii "0", [], by decide, List.all_eq_true.mp (by decide), by decide, by decide,
    by decide⟩
  zero := by decide
  trailer := [⟨ascii "t", by decide, by decide, by decide⟩]

theorem chunked_round_trip_one :
    let r := streamChunkedBody ⟨⟨8⟩, fun _ => true⟩ (World.start (Sys.powerUp .blank) [] [])
      ⟨ascii "01;x\r", [ascii "\na\r\n0\r", ascii "\nt\r\n\r\n"]⟩ ⟨.buffer, 0, [], 512⟩
    (oneByteBody.data.length ≤ 512 → r.rc = 0 ∧ r.bs.bytes = [] ∧
        r.out.buf = oneByteBody.data) ∧
      (512 < oneByteBody.data.length → r.rc ≠ 0) ∧ r.out.buf.length ≤ 512 :=
  chunked_round_trip _ _ ⟨rfl, by simp [World.start]⟩ oneByteBody [] _ (by decide) 0 512
    (by unfold BufferSize APP_OTA_HTTP_RX_CHUNK; decide)

/-! What the decoder accepts. -/

/-- The consumed bytes are a body of the grammar, and the sink was given its data. -/
def ReadStrictly (b : Board) (w : World) (bs : ByteStream) (sink : SinkCtx) : Prop :=
  let r := streamChunkedBody b w bs sink
  ∃ lines slices, Body strict bs.bytes lines [] slices.flatten r.bs.bytes ∧
    Fed b w sink slices r.world r.out

/-- A stream is accepted as the grammar has it, in every run, exactly if each
line that is read as a size is one of the grammar, and the line that ends the
trailer is empty. -/
theorem chunked_accepts_iff (p : List UInt8) :
    (∀ (b : Board) (w : World) (bs : ByteStream) (sink : SinkCtx), bs.bytes = p →
        (streamChunkedBody b w bs sink).rc = 0 → ReadStrictly b w bs sink) ↔
      ∀ lines term data rest, Body lenient p lines term data rest →
        (∀ line ∈ lines, StrictSize line) ∧ term = [] := by
  constructor
  · intro hstrict lines term data rest hbody
    have hbytes : (⟨p, []⟩ : ByteStream).bytes = p := List.append_nil p
    have hrc := streamChunkedBody_reads hbody ⟨⟨8⟩, fun _ => true⟩
      (World.start (Sys.powerUp .blank) [] []) ⟨p, []⟩ ⟨.buffer, 0, [], data.length⟩
      ⟨rfl, by simp [World.start]⟩ hbytes rfl (by simp)
    obtain ⟨lines', slices, hread, -⟩ := hstrict _ _ _ _ hbytes hrc
    -- the two readings end at the same place
    obtain ⟨lines'', term', slices', hread', -⟩ := streamChunkedBody_ok hrc
    rw [hbytes] at hread hread'
    obtain ⟨-, -, -, hrest⟩ := hread'.unique hbody
    rw [hrest] at hread
    exact hbody.lines_strict hread
  · rintro hlines b w bs sink rfl hrc
    obtain ⟨lines, term, slices, hbody, hfed⟩ := streamChunkedBody_ok hrc
    obtain ⟨hsizes, hterm⟩ := hlines _ _ _ _ hbody
    exact ⟨lines, slices, hbody.strict hsizes hterm, hfed⟩

/-- A size with a sign. -/
def signedSize : List UInt8 := ascii "+1\r\na\r\n0\r\n\r\n"

theorem signedSize_accepted :
    ¬∀ (b : Board) (w : World) (bs : ByteStream) (sink : SinkCtx),
        (streamChunkedBody b w bs sink).rc = 0 → ReadStrictly b w bs sink := by
  intro hstrict
  have hbody : Body lenient signedSize [ascii "+1", ascii "0"] [] (ascii "a" ++ []) [] :=
    .chunk (q := ascii "0\r\n\r\n") (by decide) (by decide) (by decide)
      (.last (q := crlf) (by decide) (by decide) (.ends (by decide) (by decide)))
  have hkeeps : (World.start (Sys.powerUp .blank) [] []).KeepsRunning :=
    ⟨rfl, by simp [World.start]⟩
  have hrc := streamChunkedBody_reads hbody ⟨⟨8⟩, fun _ => true⟩ _ ⟨signedSize, []⟩
    ⟨.buffer, 0, [], 512⟩ hkeeps (by decide) rfl (by decide)
  obtain ⟨lines, slices, hread, -⟩ := hstrict _ _ _ _ hrc
  have hline : splitLine (⟨signedSize, []⟩ : ByteStream).bytes =
      some (ascii "+1", ascii "a\r\n0\r\n\r\n") := by decide
  have hsign : strict.size (ascii "+1") = none := by decide
  generalize slices.flatten = data at hread
  cases hread with
  | last hline' hsize' htrailer' =>
      cases hline.symm.trans hline'
      cases hsign.symm.trans hsize'
  | chunk hline' hsize' hdata' hrest' =>
      rw [hline, Option.some.injEq, Prod.mk.injEq] at hline'
      obtain ⟨rfl, -⟩ := hline'
      cases hsign.symm.trans hsize'

end Rw612.Http
