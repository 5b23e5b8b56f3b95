import Rw612.Http.World

/-!
Response bodies. The bytes behind the head come first from the rest of the
header buffer and then from the socket; a body is read either up to a known
length or as a sequence of chunks, and handed slice by slice to a sink. All loops
poll `s_running`, so other threads run before each poll.
-/

namespace Rw612.Http

open Lib Lib.CString Ota

/-- `zsock_recv`: at most `want` bytes of the next segment, unless it fails. -/
def recv (recvs : List (List UInt8)) (want : Nat) :
    Option (List UInt8 × List (List UInt8)) :=
  match recvs with
  | [] => none
  | seg :: rest =>
      if seg.take want = [] then none
      else
        some (seg.take want,
          if seg.drop want = [] then rest else seg.drop want :: rest)

/-- The bytes that arrive before the connection fails. -/
def arriving : List (List UInt8) → List UInt8
  | [] => []
  | seg :: rest => if seg = [] then [] else seg ++ arriving rest

/-- `byte_stream_t`: what is left of the header buffer, and the socket. -/
structure ByteStream where
  pre : List UInt8
  recvs : List (List UInt8)
  deriving DecidableEq, Repr

def ByteStream.bytes (bs : ByteStream) : List UInt8 := bs.pre ++ arriving bs.recvs

def bsReadSome (bs : ByteStream) (want : Nat) :
    Option (List UInt8 × ByteStream) :=
  if bs.pre ≠ [] then
    some (bs.pre.take want, {bs with pre := bs.pre.drop want})
  else
    (recv bs.recvs want).map (fun (got, recvs) => (got, {bs with recvs := recvs}))

theorem recv_some {recvs rest : List (List UInt8)} {want : Nat}
    {got : List UInt8} (h : recv recvs want = some (got, rest)) :
    arriving recvs = got ++ arriving rest ∧ got ≠ [] ∧ got.length ≤ want := by
  cases recvs with
  | nil => cases h
  | cons seg tail =>
      simp only [recv] at h
      split at h
      · cases h
      · rename_i hgot
        simp only [Option.some.injEq, Prod.mk.injEq] at h
        obtain ⟨rfl, rfl⟩ := h
        have hseg : seg ≠ [] := by
          rintro rfl
          exact hgot (List.take_nil)
        refine ⟨?_, hgot, List.length_take_le _ _⟩
        by_cases hdrop : seg.drop want = []
        · have htake : seg.take want = seg :=
            List.take_of_length_le (List.drop_eq_nil_iff.mp hdrop)
          rw [if_pos hdrop, htake, arriving, if_neg hseg]
        · rw [if_neg hdrop, arriving, arriving, if_neg hseg, if_neg hdrop,
            ← List.append_assoc, List.take_append_drop]

/-- A successful read takes some bytes off the front of the stream. -/
theorem bsReadSome_some {bs bs' : ByteStream} {want : Nat} {got : List UInt8}
    (h : bsReadSome bs want = some (got, bs')) (hwant : 0 < want) :
    bs.bytes = got ++ bs'.bytes ∧ got ≠ [] ∧ got.length ≤ want := by
  unfold bsReadSome at h
  split at h
  · rename_i hpre
    simp only [Option.some.injEq, Prod.mk.injEq] at h
    obtain ⟨rfl, rfl⟩ := h
    refine ⟨?_, ?_, List.length_take_le _ _⟩
    · simp only [ByteStream.bytes]
      rw [← List.append_assoc, List.take_append_drop]
    · intro htake
      rw [List.take_eq_nil_iff] at htake
      rcases htake with hzero | hnil
      · omega
      · exact hpre hnil
  · rename_i hpre
    rw [not_not] at hpre
    obtain ⟨⟨got', recvs⟩, hrecv, heq⟩ := Option.map_eq_some_iff.mp h
    simp only [Prod.mk.injEq] at heq
    obtain ⟨rfl, rfl⟩ := heq
    simpa [ByteStream.bytes, hpre] using recv_some hrecv

theorem bsReadSome_length {bs bs' : ByteStream} {want : Nat} {got : List UInt8}
    (h : bsReadSome bs want = some (got, bs')) (hwant : 0 < want) :
    bs'.bytes.length < bs.bytes.length := by
  obtain ⟨hbytes, hne, _⟩ := bsReadSome_some h hwant
  have hpos := List.length_pos_iff.mpr hne
  rw [hbytes, List.length_append]
  omega

/-- What a piece of the body reader returns, with all that it may change. -/
structure Read (α : Type) where
  rc : Int
  world : World
  bs : ByteStream
  out : α

/-- `bs_read_exact`, with `out` read so far. -/
def bsReadExact (b : Board) (w : World) (bs : ByteStream) (want : Nat)
    (out : List UInt8) : Read (List UInt8) :=
  if _hwant : 0 < want then
    let w := (w.tick b).1
    if !w.running then ⟨-1, w, bs, out⟩
    else
      match _h : bsReadSome bs want with
      | none => ⟨-2, w, bs, out⟩
      | some (got, bs') =>
          bsReadExact b w bs' (want - got.length) (out ++ got)
  else ⟨0, w, bs, out⟩
  termination_by bs.bytes.length
  decreasing_by exact bsReadSome_length _h _hwant

/-- The inner loop of `bs_read_line`: bytes are dropped up to CR LF. -/
def bsDrainLine (b : Board) (w : World) (bs : ByteStream) (prevCr : Bool) :
    Read Unit :=
  let w := (w.tick b).1
  if !w.running then ⟨-1, w, bs, ()⟩
  else
    match _h : bsReadSome bs 1 with
    | none => ⟨-3, w, bs, ()⟩
    | some (got, bs') =>
        let d := deref got
        if d = 10 ∧ prevCr = true then ⟨-2, w, bs', ()⟩
        else bsDrainLine b w bs' (d == 13)
  termination_by bs.bytes.length
  decreasing_by exact bsReadSome_length _h Nat.one_pos

/-- The loop of `bs_read_line`; `line` holds the bytes stored so far. -/
def bsReadLineFrom (b : Board) (cap : Nat) (w : World) (bs : ByteStream)
    (line : List UInt8) (prevCr : Bool) : Read (List UInt8) :=
  let w := (w.tick b).1
  if !w.running then ⟨-1, w, bs, line⟩
  else
    match _h : bsReadSome bs 1 with
    | none => ⟨-3, w, bs, line⟩
    | some (got, bs') =>
        let c := deref got
        if c = 10 ∧ prevCr = true then
          let line := if line.getLast? = some 13 then line.dropLast else line
          ⟨if cap ≤ line.length then -2 else 0, w, bs', line⟩
        else if line.length < cap - 1 then
          bsReadLineFrom b cap w bs' (line ++ [c]) (c == 13)
        else
          let r := bsDrainLine b w bs' (c == 13)
          ⟨r.rc, r.world, r.bs, line⟩
  termination_by bs.bytes.length
  decreasing_by exact bsReadSome_length _h Nat.one_pos

def bsReadLine (b : Board) (w : World) (bs : ByteStream) (cap : Nat) :
    Read (List UInt8) :=
  bsReadLineFrom b cap w bs [] false

/-- `sink_mode_t` -/
inductive SinkMode where
  | otaChunk
  | buffer
  deriving DecidableEq, Repr

/-- `sink_ctx_t`; `buf` is the filled part of the buffer. -/
structure SinkCtx where
  mode : SinkMode
  otaOffset : UInt32
  buf : List UInt8
  bufCap : Nat
  deriving DecidableEq, Repr

def sinkWrite (b : Board) (w : World) (s : SinkCtx) (data : List UInt8) :
    Int × World × SinkCtx :=
  match s.mode with
  | .otaChunk =>
      match w.otaCall b (.chunk s.otaOffset data) with
      | (w, .ok) =>
          (0, w, {s with otaOffset := s.otaOffset + UInt32.ofNat data.length})
      | (w, rc) => (rc.code, w, s)
  | .buffer =>
      if s.bufCap < s.buf.length + data.length then (-1, w, s)
      else (0, w, {s with buf := s.buf ++ data})

/-- The loop of `stream_fixed_body`, when `seen` bytes of the body have been
handed to the sink. -/
def streamFixedBodyFrom (b : Board) (bodyTotal : Nat) (w : World)
    (bs : ByteStream) (sink : SinkCtx) (seen : Nat) : Read SinkCtx :=
  if _hseen : seen < bodyTotal then
    let w := (w.tick b).1
    if !w.running then ⟨-1, w, bs, sink⟩
    else
      match _h : bsReadSome bs (min (bodyTotal - seen) APP_OTA_HTTP_RX_CHUNK) with
      | none => ⟨-2, w, bs, sink⟩
      | some (got, bs') =>
          match sinkWrite b w sink got with
          | (wrc, w, sink) =>
              if wrc ≠ 0 then ⟨-3, w, bs', sink⟩
              else streamFixedBodyFrom b bodyTotal w bs' sink (seen + got.length)
  else ⟨0, w, bs, sink⟩
  termination_by bs.bytes.length
  decreasing_by
    exact bsReadSome_length _h (by simp [APP_OTA_HTTP_RX_CHUNK]; omega)

def streamFixedBody (b : Board) (w : World) (bs : ByteStream) (sink : SinkCtx)
    (bodyTotal : UInt32) : Read SinkCtx :=
  streamFixedBodyFrom b bodyTotal.toNat w bs sink 0

theorem bsReadExact_length (b : Board) (w : World) (bs : ByteStream)
    (want : Nat) (out : List UInt8) :
    (bsReadExact b w bs want out).bs.bytes.length ≤ bs.bytes.length := by
  fun_induction bsReadExact b w bs want out with
  | case1 => exact Nat.le_refl _
  | case2 => exact Nat.le_refl _
  | case3 _ _ _ _ hwant _ _ _ _ hread ih =>
      exact Nat.le_trans ih (Nat.le_of_lt (bsReadSome_length hread hwant))
  | case4 => exact Nat.le_refl _

theorem bsDrainLine_length (b : Board) (w : World) (bs : ByteStream)
    (prevCr : Bool) :
    (bsDrainLine b w bs prevCr).bs.bytes.length ≤ bs.bytes.length := by
  fun_induction bsDrainLine b w bs prevCr with
  | case1 => exact Nat.le_refl _
  | case2 => exact Nat.le_refl _
  | case3 _ _ _ _ _ _ _ hread =>
      exact Nat.le_of_lt (bsReadSome_length hread Nat.one_pos)
  | case4 _ _ _ _ _ _ _ hread _ _ ih =>
      exact Nat.le_trans ih (Nat.le_of_lt (bsReadSome_length hread Nat.one_pos))

/-- A line that was read, or skipped for its length, has left the stream. -/
theorem bsReadLine_length (b : Board) (w : World) (bs : ByteStream) (cap : Nat)
    (hrc : (bsReadLine b w bs cap).rc = 0 ∨ (bsReadLine b w bs cap).rc = -2) :
    (bsReadLine b w bs cap).bs.bytes.length < bs.bytes.length := by
  unfold bsReadLine at hrc ⊢
  generalize ([] : List UInt8) = line at hrc ⊢
  generalize false = prevCr at hrc ⊢
  fun_induction bsReadLineFrom b cap w bs line prevCr with
  | case1 => simp at hrc
  | case2 => simp at hrc
  | case3 _ _ _ _ _ _ _ _ hread =>
      exact bsReadSome_length hread Nat.one_pos
  | case4 _ _ _ _ _ _ _ _ hread _ _ _ ih =>
      exact Nat.lt_trans (ih hrc) (bsReadSome_length hread Nat.one_pos)
  | case5 _ _ _ _ _ _ _ _ hread =>
      exact Nat.lt_of_le_of_lt (bsDrainLine_length b _ _ _)
        (bsReadSome_length hread Nat.one_pos)

/-- The data of one chunk, of which `sz` bytes are still to come. -/
def streamChunkData (b : Board) (w : World) (bs : ByteStream) (sink : SinkCtx)
    (sz : Nat) : Read SinkCtx :=
  if _hsz : 0 < sz then
    let w := (w.tick b).1
    if !w.running then ⟨-5, w, bs, sink⟩
    else
      match _h : bsReadSome bs (min sz APP_OTA_HTTP_RX_CHUNK) with
      | none => ⟨-6, w, bs, sink⟩
      | some (got, bs') =>
          match sinkWrite b w sink got with
          | (wrc, w, sink) =>
              if wrc ≠ 0 then ⟨-7, w, bs', sink⟩
              else streamChunkData b w bs' sink (sz - got.length)
  else ⟨0, w, bs, sink⟩
  termination_by bs.bytes.length
  decreasing_by
    exact bsReadSome_length _h (by simp [APP_OTA_HTTP_RX_CHUNK]; omega)

theorem streamChunkData_length (b : Board) (w : World) (bs : ByteStream)
    (sink : SinkCtx) (sz : Nat) :
    (streamChunkData b w bs sink sz).bs.bytes.length ≤ bs.bytes.length := by
  fun_induction streamChunkData b w bs sink sz with
  | case1 => exact Nat.le_refl _
  | case2 => exact Nat.le_refl _
  | case3 _ _ _ _ hsz _ _ _ _ hread =>
      exact Nat.le_of_lt (bsReadSome_length hread
        (by simp [APP_OTA_HTTP_RX_CHUNK]; omega))
  | case4 _ _ _ _ hsz _ _ _ _ hread _ _ _ _ _ ih =>
      exact Nat.le_trans ih (Nat.le_of_lt (bsReadSome_length hread
        (by simp [APP_OTA_HTTP_RX_CHUNK]; omega)))
  | case5 => exact Nat.le_refl _

/-- The trailer lines after the last chunk, up to an empty one. -/
def streamTrailer (b : Board) (w : World) (bs : ByteStream) : Read Unit :=
  let l := bsReadLine b w bs 40
  if _hlong : l.rc = -2 then streamTrailer b l.world l.bs
  else if _hrc : l.rc = 0 then
    if deref l.out = 0 then ⟨0, l.world, l.bs, ()⟩
    else streamTrailer b l.world l.bs
  else ⟨-4, l.world, l.bs, ()⟩
  termination_by bs.bytes.length
  decreasing_by
    · exact bsReadLine_length b w bs 40 (Or.inr _hlong)
    · exact bsReadLine_length b w bs 40 (Or.inl _hrc)

/-- `stream_chunked_body` -/
def streamChunkedBody (b : Board) (w : World) (bs : ByteStream)
    (sink : SinkCtx) : Read SinkCtx :=
  let w := (w.tick b).1
  if !w.running then ⟨-1, w, bs, sink⟩
  else
    let l := bsReadLine b w bs 40
    if _hrc : l.rc = 0 then
      let (sz, endp) := strtoul 16 l.out
      if endp = l.out then ⟨-3, l.world, l.bs, sink⟩
      else if sz = 0 then
        let r := streamTrailer b l.world l.bs
        ⟨r.rc, r.world, r.bs, sink⟩
      else
        let r := streamChunkData b l.world l.bs sink sz.toNat
        if r.rc ≠ 0 then r
        else
          let c := bsReadExact b r.world r.bs 2 []
          if c.rc ≠ 0 then ⟨-8, c.world, c.bs, r.out⟩
          else if c.out ≠ crlf then ⟨-9, c.world, c.bs, r.out⟩
          else streamChunkedBody b c.world c.bs r.out
    else ⟨-2, l.world, l.bs, sink⟩
  termination_by bs.bytes.length
  decreasing_by
    have hline := bsReadLine_length b w bs 40 (Or.inl _hrc)
    have hdata := streamChunkData_length b l.world l.bs sink sz.toNat
    have hcrlf := bsReadExact_length b r.world r.bs 2 []
    exact Nat.lt_of_le_of_lt (Nat.le_trans hcrlf hdata) hline

/-! What the body readers do to the world: the only OTA calls among their steps
are the chunks of an OTA sink. -/

/-- The OTA calls a sink may make. -/
def SinkMode.calls (mode : SinkMode) (call : Call) : Prop :=
  mode = .otaChunk ∧ ∃ offset data, call = .chunk offset data

theorem sinkWrite_runs (b : Board) (w : World) (s : SinkCtx)
    (data : List UInt8) :
    Runs b s.mode.calls w (sinkWrite b w s data).2.1 ∧
      (sinkWrite b w s data).2.2.mode = s.mode := by
  unfold sinkWrite
  cases hmode : s.mode with
  | otaChunk =>
      have hcall := Runs.otaCall (b := b) (C := SinkMode.otaChunk.calls) w
        (.chunk s.otaOffset data) ⟨rfl, _, _, rfl⟩
      cases hrun : w.otaCall b (.chunk s.otaOffset data) with
      | mk w' rc =>
          rw [hrun] at hcall
          cases rc with
          | ok => exact ⟨hcall, rfl⟩
          | _ => exact ⟨hcall, hmode⟩
  | buffer =>
      simp only
      split
      · exact ⟨Runs.refl w, hmode⟩
      · exact ⟨Runs.refl w, rfl⟩

/-- An OTA sink that takes its data has made one accepted call. -/
theorem sinkWrite_ota_ok {b : Board} {w w' : World} {s s' : SinkCtx}
    {data : List UInt8} (hmode : s.mode = .otaChunk)
    (h : sinkWrite b w s data = (0, w', s')) :
    w.otaCall b (.chunk s.otaOffset data) = (w', .ok) ∧
      s' = {s with otaOffset := s.otaOffset + UInt32.ofNat data.length} := by
  simp only [sinkWrite, hmode] at h
  obtain ⟨v, rc, hcall⟩ : ∃ v rc, w.otaCall b (.chunk s.otaOffset data) = (v, rc) :=
    ⟨_, _, rfl⟩
  rw [hcall] at h ⊢
  cases rc <;> simp_all [Err.code]

section Reads

variable (b : Board) (C : Call → Prop)

theorem bsReadExact_runs (w : World) (bs : ByteStream) (want : Nat)
    (out : List UInt8) : Runs b C w (bsReadExact b w bs want out).world := by
  fun_induction bsReadExact b w bs want out with
  | case1 w => exact Runs.tick w
  | case2 w => exact Runs.tick w
  | case3 w _ _ _ _ _ _ _ _ _ ih => exact (Runs.tick w).trans ih
  | case4 w => exact Runs.refl w

theorem bsDrainLine_runs (w : World) (bs : ByteStream) (prevCr : Bool) :
    Runs b C w (bsDrainLine b w bs prevCr).world := by
  fun_induction bsDrainLine b w bs prevCr with
  | case1 w => exact Runs.tick w
  | case2 w => exact Runs.tick w
  | case3 w => exact Runs.tick w
  | case4 w _ _ _ _ _ _ _ _ _ ih => exact (Runs.tick w).trans ih

theorem bsReadLine_runs (w : World) (bs : ByteStream) (cap : Nat) :
    Runs b C w (bsReadLine b w bs cap).world := by
  unfold bsReadLine
  generalize ([] : List UInt8) = line
  generalize false = prevCr
  fun_induction bsReadLineFrom b cap w bs line prevCr with
  | case1 w => exact Runs.tick w
  | case2 w => exact Runs.tick w
  | case3 w => exact Runs.tick w
  | case4 w _ _ _ _ _ _ _ _ _ _ _ ih => exact (Runs.tick w).trans ih
  | case5 w =>
      exact (Runs.tick w).trans (bsDrainLine_runs b C _ _ _)

theorem streamTrailer_runs (w : World) (bs : ByteStream) :
    Runs b C w (streamTrailer b w bs).world := by
  fun_induction streamTrailer b w bs with
  | case1 w bs _ _ ih => exact (bsReadLine_runs b C w bs 40).trans ih
  | case2 w bs => exact bsReadLine_runs b C w bs 40
  | case3 w bs _ _ _ _ ih => exact (bsReadLine_runs b C w bs 40).trans ih
  | case4 w bs => exact bsReadLine_runs b C w bs 40

end Reads

/-- One turn of a loop that polls, reads and writes. -/
theorem sinkWrite_runs_turn {b : Board} {w w' : World} {s s' : SinkCtx}
    {data : List UInt8} {rc : Int}
    (h : sinkWrite b (w.tick b).1 s data = (rc, w', s')) :
    Runs b s.mode.calls w w' ∧ s'.mode = s.mode := by
  obtain ⟨hruns, hmode⟩ := sinkWrite_runs b (w.tick b).1 s data
  rw [h] at hruns hmode
  exact ⟨(Runs.tick w).trans hruns, hmode⟩

theorem streamFixedBodyFrom_runs (b : Board) (bodyTotal : Nat) (w : World)
    (bs : ByteStream) (sink : SinkCtx) (seen : Nat) :
    let r := streamFixedBodyFrom b bodyTotal w bs sink seen
    Runs b sink.mode.calls w r.world ∧ r.out.mode = sink.mode := by
  fun_induction streamFixedBodyFrom b bodyTotal w bs sink seen with
  | case1 w => exact ⟨Runs.tick w, rfl⟩
  | case2 w => exact ⟨Runs.tick w, rfl⟩
  | case3 w _ sink _ _ _ _ _ _ _ _ _ _ hwrite =>
      exact sinkWrite_runs_turn hwrite
  | case4 w _ sink _ _ _ _ _ _ _ _ w' sink' hwrite _ ih =>
      obtain ⟨hturn, hmode⟩ := sinkWrite_runs_turn hwrite
      rw [hmode] at ih
      exact ⟨hturn.trans ih.1, ih.2⟩
  | case5 w => exact ⟨Runs.refl w, rfl⟩

theorem streamChunkData_runs (b : Board) (w : World) (bs : ByteStream)
    (sink : SinkCtx) (sz : Nat) :
    let r := streamChunkData b w bs sink sz
    Runs b sink.mode.calls w r.world ∧ r.out.mode = sink.mode := by
  fun_induction streamChunkData b w bs sink sz with
  | case1 w => exact ⟨Runs.tick w, rfl⟩
  | case2 w => exact ⟨Runs.tick w, rfl⟩
  | case3 w _ sink _ _ _ _ _ _ _ _ _ _ hwrite =>
      exact sinkWrite_runs_turn hwrite
  | case4 w _ sink _ _ _ _ _ _ _ _ w' sink' hwrite _ ih =>
      obtain ⟨hturn, hmode⟩ := sinkWrite_runs_turn hwrite
      rw [hmode] at ih
      exact ⟨hturn.trans ih.1, ih.2⟩
  | case5 w => exact ⟨Runs.refl w, rfl⟩

/-- The size line and the data of one chunk. -/
theorem streamChunk_runs (b : Board) (w : World) (bs : ByteStream)
    (sink : SinkCtx) (sz : Nat) :
    let l := bsReadLine b (w.tick b).1 bs 40
    let r := streamChunkData b l.world l.bs sink sz
    Runs b sink.mode.calls w l.world ∧ Runs b sink.mode.calls w r.world ∧
      r.out.mode = sink.mode := by
  intro l r
  have hline : Runs b sink.mode.calls w l.world :=
    (Runs.tick w).trans (bsReadLine_runs b _ _ bs 40)
  obtain ⟨hdata, hmode⟩ := streamChunkData_runs b l.world l.bs sink sz
  exact ⟨hline, hline.trans hdata, hmode⟩

theorem streamChunkedBody_runs (b : Board) (w : World) (bs : ByteStream)
    (sink : SinkCtx) :
    let r := streamChunkedBody b w bs sink
    Runs b sink.mode.calls w r.world ∧ r.out.mode = sink.mode := by
  fun_induction streamChunkedBody b w bs sink with
  | case1 w => exact ⟨Runs.tick w, rfl⟩
  | case2 w bs sink =>
      exact ⟨(streamChunk_runs b w bs sink 0).1, rfl⟩
  | case3 w bs sink =>
      exact ⟨(streamChunk_runs b w bs sink 0).1.trans
        (streamTrailer_runs b _ _ _), rfl⟩
  | case4 w bs sink _ _ _ _ sz =>
      exact (streamChunk_runs b w bs sink sz.toNat).2
  | case5 w bs sink _ _ _ _ sz =>
      obtain ⟨_, hdata, hmode⟩ := streamChunk_runs b w bs sink sz.toNat
      exact ⟨hdata.trans (bsReadExact_runs b _ _ _ _ _), hmode⟩
  | case6 w bs sink _ _ _ _ sz =>
      obtain ⟨_, hdata, hmode⟩ := streamChunk_runs b w bs sink sz.toNat
      exact ⟨hdata.trans (bsReadExact_runs b _ _ _ _ _), hmode⟩
  | case7 w bs sink _ _ _ _ sz _ _ _ _ r _ _ _ _ ih =>
      obtain ⟨_, hdata, hmode⟩ := streamChunk_runs b w bs sink sz.toNat
      have hr : r.out.mode = sink.mode := hmode
      rw [hr] at ih
      exact ⟨(hdata.trans (bsReadExact_runs b _ _ _ _ _)).trans ih.1, ih.2⟩
  | case8 w bs sink =>
      exact ⟨(streamChunk_runs b w bs sink 0).1, rfl⟩

end Rw612.Http
