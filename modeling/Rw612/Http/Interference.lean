import Rw612.Http.Delivery
import Rw612.Http.Resume

/-!
An image download while other transports use the OTA core. The core knows no
owner of a session: a chunk is accepted when its offset is the number of bytes
accepted since the last `begin`, whoever sent them. So a download that ends well
has delivered its body if no `begin` came in between, and a `begin` goes unnoticed
if foreign chunks bring the count back to where it was.
-/

namespace Rw612.Http

open Lib Ota

/-- A live core stands at what it has received. -/
theorem Stands.of_live {slot : FlashArea} {s : Sys} (hinv : s.Inv slot)
    (hlive : s.core.live) :
    Stands slot s.log s.core.st.totalSize
      (readRange s.core.flash.bytes 0 s.core.st.bytesReceived.toNat) s := by
  obtain ⟨ses, hses, hholds⟩ := hinv.core.live hlive
  have hdata : readRange s.core.flash.bytes 0 s.core.st.bytesReceived.toNat =
      ses.data := by
    rw [hholds.received]
    exact hholds.bytes
  refine ⟨hinv, ⟨[], [], by simp, ?_, by simp, by simp⟩, by simp⟩
  rw [List.append_nil, hses, hdata, hholds.total]

/-- Where a chunk is accepted, exactly `offset` bytes have been accepted since the
last successful `begin`, by whichever thread. -/
theorem chunk_offset {slot : FlashArea} {s : Sys} (hinv : s.Inv slot)
    {offset : UInt32} {data : List UInt8} {d : Driver}
    (hrc : ((Call.chunk offset data).locked slot s.core d).2 = .ok) :
    ∃ ses, session s.log = some ses ∧ ses.data.length = offset.toNat := by
  obtain ⟨hlive, hoff, _⟩ := appOtaChunkLocked_ok hrc
  obtain ⟨ses, hses, hholds⟩ := hinv.core.live hlive
  exact ⟨ses, hses, by rw [hoff, hholds.received]⟩

/-- The image body that `start` describes lies in the slot, above what was there
before, and the task's chunks were stored before any others. -/
structure Delivered (start : StreamStart) (s : Sys) : Prop where
  complete : start.bodyTotal ≤ start.incoming.length
  body : readRange s.core.flash.bytes start.offset.toNat start.bodyTotal =
    start.incoming.take start.bodyTotal
  below : readRange s.core.flash.bytes 0 start.offset.toNat =
    readRange start.sys.core.flash.bytes 0 start.offset.toNat
  order : ∃ own rest, s.log = start.sys.log ++ own ++ rest ∧
    (∀ ev ∈ own, stored ev ≠ [] → ev.tid = httpTid) ∧
    ∀ ev ∈ rest, stored ev ≠ [] → ev.tid ≠ httpTid

/-- The session accepts the first chunk of the body. -/
def StreamStart.Standing (start : StreamStart) : Prop :=
  start.sys.core.live ∧ start.sys.core.st.bytesReceived = start.offset

/-- The body that was read follows what the session held. -/
theorem Download.stands {b : Board} {w : World} {imageUrl : List UInt8}
    {resumeFrom : UInt32} (d : Download b w imageUrl resumeFrom)
    (hinv : d.start.sys.Inv b.slot) (hrc : d.stream.rc = 0)
    (hstanding : d.start.Standing)
    (hund : Undisturbed d.start.sys.log d.final.sys.log) :
    Stands b.slot d.start.sys.log d.start.sys.core.st.totalSize
        (readRange d.start.sys.core.flash.bytes 0 d.start.offset.toNat ++
          d.start.incoming.take d.start.bodyTotal) d.final.sys ∧
      d.start.bodyTotal ≤ d.start.incoming.length ∧
      d.stream.world.sys.core.live := by
  obtain ⟨hlive, hreceived⟩ := hstanding
  have hstart := Stands.of_live hinv hlive
  rw [hreceived] at hstart
  have hlast : Undisturbed d.start.sys.log d.stream.world.sys.log :=
    hund.mono (World.tick_log b
      (d.stream.world.recordStream d.start d.stream.rc d.stream.out.otaOffset))
  obtain ⟨hstream, hcomplete, hend⟩ := streamFixedBodyFrom_stands
    d.bodyTotal.toNat d.begun d.bs d.sink 0 hstart d.hmode
    (by rw [readRange_length]; rfl) hrc hlast
  rw [Nat.sub_zero] at hstream hcomplete
  have hpos : 0 < d.bodyTotal.toNat := by
    refine Nat.pos_of_ne_zero fun hzero => d.hpos ?_
    exact UInt32.toNat_inj.mp hzero
  exact ⟨Stands.tick
    (w := d.stream.world.recordStream d.start d.stream.rc d.stream.out.otaOffset)
    hstream hund, hcomplete, hend hpos⟩

theorem Download.delivered {b : Board} {w : World} {imageUrl : List UInt8}
    {resumeFrom : UInt32} (d : Download b w imageUrl resumeFrom)
    (hinv : d.start.sys.Inv b.slot) (hrc : d.stream.rc = 0)
    (hstanding : d.start.Standing)
    (hund : Undisturbed d.start.sys.log d.final.sys.log) :
    Delivered d.start d.final.sys := by
  obtain ⟨hfinal, hcomplete, _⟩ := d.stands hinv hrc hstanding hund
  have hflash := hfinal.flash
  rw [List.length_append, readRange_length, List.length_take_of_le hcomplete,
    readRange_add, Nat.zero_add] at hflash
  obtain ⟨hbelow, hbody⟩ := List.append_inj hflash (by simp)
  obtain ⟨own, rest, hlog, _, hown, hrest⟩ := hfinal.log
  exact ⟨hcomplete, hbody, hbelow, own, rest, hlog, hown, hrest⟩

/-- No mixed image. An image request that returns 0 has streamed some body; if
the session stood at its first chunk and no `begin` held the lock from then on,
the body is in the slot, nothing below it has changed, and no foreign chunk was
accepted before the last one of the body. In general a chunk is accepted only
where the count of accepted bytes agrees with its offset. -/
theorem undisturbed_download_delivered (b : Board) :
    (∀ w : World, w.Ready → w.sys.Reached b.slot →
      ∀ imageUrl resumeFrom w' sink,
        httpRequest b w (imageReq b imageUrl resumeFrom) = (0, w', sink) →
        ∃ start, w'.stream = some start ∧
          (start.Standing → Undisturbed start.sys.log w'.sys.log →
            Delivered start w'.sys)) ∧
    ∀ s : Sys, s.Reached b.slot → ∀ tid offset data d,
      s.pending tid = some (.chunk offset data) →
      ((Call.chunk offset data).locked b.slot s.core d).2 = .ok →
      ∃ ses, session s.log = some ses ∧ ses.data.length = offset.toNat := by
  refine ⟨fun w hready hreached imageUrl resumeFrom w' sink hrun => ?_, ?_⟩
  · obtain ⟨d, hrc, hfinal⟩ := imageRequest_ok
      (show (httpRequest b w (imageReq b imageUrl resumeFrom)).1 = 0 by rw [hrun])
    obtain rfl : d.final = w' := by rw [← hfinal, hrun]
    refine ⟨d.start, ?_, fun hstanding hund =>
      d.delivered (d.runs.inv hready hreached.inv) hrc hstanding hund⟩
    rw [Download.final, World.tick_own]
    rfl
  · intro s hreached tid offset data d _ hrc
    exact chunk_offset hreached.inv hrc

/-- A two-byte image in two segments. -/
def twoSegments : World :=
  World.start (initedSys none) (ascii "http://h/")
    [⟨0, 0, [1000], [ascii "HTTP/1.1 200 OK\r\nContent-Length: 2\r\n\r\na",
      ascii "b"]⟩]

def twoSegmentsRun : Int × World × SinkCtx :=
  httpRequest board twoSegments (imageReq board (ascii "http://h/") 0)

theorem undisturbed_download_delivered_alone :
    ∃ w' sink start, httpRequest board twoSegments
        (imageReq board (ascii "http://h/") 0) = (0, w', sink) ∧
      w'.stream = some start ∧ Delivered start w'.sys := by
  have hrun : (twoSegmentsRun.1,
      twoSegmentsRun.2.1.stream.map (fun start => (start.sys.core.st.state,
        start.sys.core.st.bytesReceived, start.offset, start.sys.log.length)),
      (twoSegmentsRun.2.1.sys.log.drop 2).map Done.call) =
        (0, some (.ready, 0, 0, 2), [.chunk 0 (ascii "a"), .chunk 1 (ascii "b")]) := by
    decide +kernel
  simp only [Prod.mk.injEq] at hrun
  obtain ⟨hrc, hbegun, hlog⟩ := hrun
  have hreturned : httpRequest board twoSegments
      (imageReq board (ascii "http://h/") 0) =
        (0, twoSegmentsRun.2.1, twoSegmentsRun.2.2) := Prod.ext hrc rfl
  obtain ⟨start, hstart, hdelivered⟩ := (undisturbed_download_delivered board).1
    twoSegments rfl (initedSys_reached none) (ascii "http://h/") 0 _ _ hreturned
  rw [hstart] at hbegun
  simp only [Option.map_some, Option.some.injEq, Prod.mk.injEq] at hbegun
  obtain ⟨hstate, hreceived, hoffset, hlength⟩ := hbegun
  refine ⟨_, _, start, hreturned, hstart, hdelivered
    ⟨Or.inl hstate, by rw [hreceived, hoffset]⟩ fun ev member n hev => ?_⟩
  rw [hlength] at member
  have hcall := List.mem_map_of_mem (f := Done.call) member
  rw [hlog, hev] at hcall
  simp at hcall

/-- Between the two chunks another thread opens a session of its own and stores
one byte. -/
def mixedDownload : World :=
  {twoSegments with
    slots := List.replicate 5 ⟨[], .success⟩ ++
      [⟨[.ota (.enter 3 (.begin 2)), .ota (.locked 3 .success),
        .ota (.enter 3 (.chunk 0 [99])), .ota (.locked 3 .success)], .success⟩]}

def mixedRun : Int × World × SinkCtx :=
  httpRequest board mixedDownload (imageReq board (ascii "http://h/") 0)

/-- The request returns 0 although the slot holds a mixed image. -/
theorem download_not_delivered :
    ¬ ∀ (b : Board) (w : World), w.Ready → w.sys.Reached b.slot →
      ∀ imageUrl resumeFrom w' sink,
        httpRequest b w (imageReq b imageUrl resumeFrom) = (0, w', sink) →
        ∃ start, w'.stream = some start ∧
          readRange w'.sys.core.flash.bytes start.offset.toNat start.bodyTotal =
            start.incoming.take start.bodyTotal ∧
          readRange w'.sys.core.flash.bytes 0 start.offset.toNat =
            readRange start.sys.core.flash.bytes 0 start.offset.toNat := by
  intro h
  have hrun : (mixedRun.1, mixedRun.2.1.stream.map (fun start =>
        (start.offset.toNat, start.bodyTotal, start.incoming)),
      readRange mixedRun.2.1.sys.core.flash.bytes 0 2) =
        (0, some (0, 2, ascii "ab"), ascii "cb") := by decide +kernel
  simp only [Prod.mk.injEq] at hrun
  obtain ⟨hrc, hbody, hslot⟩ := hrun
  obtain ⟨start, hstart, hmixed, _⟩ := h board mixedDownload rfl
    (initedSys_reached none) (ascii "http://h/") 0 mixedRun.2.1 mixedRun.2.2
    (Prod.ext hrc rfl)
  rw [hstart] at hbody
  simp only [Option.map_some, Option.some.injEq, Prod.mk.injEq] at hbody
  obtain ⟨hoffset, htotal, hincoming⟩ := hbody
  rw [hoffset, htotal, hincoming, hslot] at hmixed
  exact absurd hmixed (by decide)

end Rw612.Http
