import Rw612.Http.Message
import Rw612.Lib.Format
import Rw612.Radar.Reception

/-!
What the console shows of the radar: `radar_rx_cb` of `app_main_zephyr.c` writes each
chunk that it is called with, its length and at most its first 64 bytes, into a static
array and prints it. Chunks of less than five bytes are not shown.
-/

namespace Rw612.Radar

open Lib Lib.CString Http

def RADAR_HEX_DUMP_MAX_BYTES : Nat := 64

/-- `sizeof(s_hex_buf)` -/
def HEX_BUF_SIZE : Nat := 256

/-- `hexBuf` is `s_hex_buf`, `lines` what has been printed. -/
structure Console where
  hexBuf : List UInt8
  lines : List (List UInt8)

def Console.powerUp : Console := ⟨List.replicate HEX_BUF_SIZE 0, []⟩

/-- `printk("%s\n", s_hex_buf)`, or `none` when the array holds no NUL. -/
def Console.print (c : Console) : Option Console :=
  if 0 ∈ c.hexBuf then some {c with lines := c.lines ++ [text c.hexBuf ++ [10]]} else none

/-- The loop over the bytes that are shown. -/
def dumpLoop (buf : List UInt8) (pos : Nat) : List UInt8 → Option (List UInt8 × Nat)
  | [] => some (buf, pos)
  | b :: rest =>
      (snprintk buf pos (HEX_BUF_SIZE - pos) (32 :: hexByte b)).bind
        fun (buf, n) => dumpLoop buf (pos + n) rest

/-- `none` when a byte is stored behind `s_hex_buf`. -/
def radarRxCb (c : Console) (data : List UInt8) : Option Console :=
  if data.length < 5 then some c
  else do
    let dumpLen :=
      if RADAR_HEX_DUMP_MAX_BYTES < data.length then RADAR_HEX_DUMP_MAX_BYTES else data.length
    let (buf, pos) ← snprintk c.hexBuf 0 HEX_BUF_SIZE
      (ascii "RADAR[" ++ decimal (UInt32.ofNat data.length) ++ ascii "]:")
    let (buf, pos) ← dumpLoop buf pos (data.take dumpLen)
    let buf ← (if dumpLen < data.length then
      (snprintk buf pos (HEX_BUF_SIZE - pos) (ascii " ...")).map Prod.fst else some buf)
    Console.print {c with hexBuf := buf}

/-! What a reader of the console makes of a line. -/

/-- `more` is set when the chunk is longer than what is shown. -/
structure Dump where
  len : Nat
  bytes : List UInt8
  more : Bool
deriving DecidableEq

def Dump.of (data : List UInt8) : Dump :=
  ⟨data.length, data.take RADAR_HEX_DUMP_MAX_BYTES,
    decide (RADAR_HEX_DUMP_MAX_BYTES < data.length)⟩

/-- Behind the length. -/
def Dump.ofTail (len : Nat) (p : List UInt8) : Option Dump :=
  let (bytes, rest) := readHexBytes p
  if rest = [10] then some ⟨len, bytes, false⟩
  else if rest = ascii " ..." ++ [10] then some ⟨len, bytes, true⟩
  else none

def Dump.ofLine (line : List UInt8) : Option Dump :=
  if (ascii "RADAR[").isPrefixOf line then
    let p := line.drop (ascii "RADAR[").length
    let rest := p.dropWhile (isDigit 10)
    if (ascii "]:").isPrefixOf rest then
      Dump.ofTail (digitsValue 10 (p.takeWhile (isDigit 10))) (rest.drop (ascii "]:").length)
    else none
  else none

/-- The text of a line, without its end. -/
def Dump.text (d : Dump) : List UInt8 :=
  ascii "RADAR[" ++ decimal (UInt32.ofNat d.len) ++ ascii "]:" ++ hexBytes d.bytes ++
    if d.more then ascii " ..." else []

theorem Dump.ofTail_text (len : Nat) (bytes : List UInt8) (more : Bool) :
    Dump.ofTail len (hexBytes bytes ++ ((if more then ascii " ..." else []) ++ [10])) =
      some ⟨len, bytes, more⟩ := by
  have hend : readHexBytes [10] = ([], [10]) := rfl
  have hmore : readHexBytes (ascii " ..." ++ [10]) = ([], ascii " ..." ++ [10]) := by decide
  rw [Dump.ofTail, readHexBytes_append]
  cases more with
  | false => simp [hend]
  | true =>
      have hne : ascii " ..." ++ [10] ≠ [10] := by decide
      simp [hmore, hne]

/-- The line is read as it was meant. -/
theorem Dump.ofLine_text (d : Dump) (hlen : d.len < 2 ^ 32) :
    Dump.ofLine (d.text ++ [10]) = some d := by
  have hdigits : ∀ b ∈ decimal (UInt32.ofNat d.len), isDigit 10 b = true := isDigit_toDigits _
  have hvalue : digitsValue 10 (decimal (UInt32.ofNat d.len)) = d.len := by
    rw [decimal, digitsValue_toDigits, UInt32.toNat_ofNat_of_lt' hlen]
  have htext : d.text ++ [10] = ascii "RADAR[" ++ (decimal (UInt32.ofNat d.len) ++
      (ascii "]:" ++ (hexBytes d.bytes ++ ((if d.more then ascii " ..." else []) ++ [10])))) := by
    simp [Dump.text]
  have htail := Dump.ofTail_text d.len d.bytes d.more
  generalize hexBytes d.bytes ++ ((if d.more then ascii " ..." else []) ++ [10]) = tail at *
  have hclose : (ascii "]:" ++ tail).takeWhile (isDigit 10) = [] ∧
      (ascii "]:" ++ tail).dropWhile (isDigit 10) = ascii "]:" ++ tail := ⟨rfl, rfl⟩
  have htaken : (decimal (UInt32.ofNat d.len) ++ (ascii "]:" ++ tail)).takeWhile (isDigit 10) =
      decimal (UInt32.ofNat d.len) := by
    rw [List.takeWhile_append_of_pos hdigits, hclose.1, List.append_nil]
  have hdropped : (decimal (UInt32.ofNat d.len) ++ (ascii "]:" ++ tail)).dropWhile (isDigit 10) =
      ascii "]:" ++ tail := by
    rw [List.dropWhile_append_of_pos hdigits, hclose.2]
  have hopening (front back : List UInt8) : front.isPrefixOf (front ++ back) = true :=
    List.isPrefixOf_iff_prefix.mpr (List.prefix_append front back)
  rw [htext, Dump.ofLine, if_pos (hopening _ _), List.drop_left]
  dsimp only
  rw [htaken, hdropped, if_pos (hopening _ _), List.drop_left, hvalue, htail]

/-! The callback. -/

theorem dumpLoop_appends {front buf : List UInt8} (bytes : List UInt8) (hfront : front <+: buf)
    (hbuf : buf.length = HEX_BUF_SIZE) (hroom : front.length + 3 * bytes.length < HEX_BUF_SIZE)
    (hnul : bytes = [] → front ++ [0] <+: buf) :
    ∃ buf', dumpLoop buf front.length bytes = some (buf', (front ++ hexBytes bytes).length) ∧
      buf'.length = HEX_BUF_SIZE ∧ front ++ hexBytes bytes ++ [0] <+: buf' := by
  induction bytes generalizing front buf with
  | nil => exact ⟨buf, by simp [dumpLoop, hexBytes], hbuf, by simpa [hexBytes] using hnul rfl⟩
  | cons b rest ih =>
      rw [List.length_cons] at hroom
      obtain ⟨next, hstored, hnext, hprefix⟩ := snprintk_append hfront
        (HEX_BUF_SIZE - front.length) (32 :: hexByte b) (by rw [hbuf]) (by rw [hbuf]; decide) (by
          rw [hbuf]
          simp only [hexByte, List.length_cons, List.length_nil]
          omega)
      have hpos : front.length + (32 :: hexByte b).length = (front ++ 32 :: hexByte b).length :=
        List.length_append.symm
      obtain ⟨buf', hloop, hbuf', hholds⟩ := ih
        ((List.prefix_append (front ++ 32 :: hexByte b) [0]).trans hprefix) (hnext.trans hbuf) (by
          simp only [hexByte, List.length_append, List.length_cons, List.length_nil]
          omega) (fun _ => hprefix)
      have hcons : front ++ hexBytes (b :: rest) = front ++ 32 :: hexByte b ++ hexBytes rest := by
        simp [hexBytes_cons, hexByte]
      refine ⟨buf', ?_, hbuf', hcons ▸ hholds⟩
      rw [dumpLoop, hstored, Option.bind_some]
      dsimp only
      rw [hpos, hloop, hcons]

theorem Dump.zero_notMem (d : Dump) : (0 : UInt8) ∉ d.text := by
  have hnumber : (0 : UInt8) ∉ decimal (UInt32.ofNat d.len) :=
    fun hmem => absurd (isDigit_toDigits _ 0 hmem) (by decide)
  have hfixed : (0 : UInt8) ∉ ascii "RADAR[" ∧ (0 : UInt8) ∉ ascii "]:" ∧
      (0 : UInt8) ∉ ascii " ..." := by decide
  simp only [Dump.text, List.mem_append, not_or]
  refine ⟨⟨⟨⟨hfixed.1, hnumber⟩, hfixed.2.1⟩, zero_notMem_hexBytes _⟩, ?_⟩
  split
  · exact hfixed.2.2
  · exact List.not_mem_nil

theorem length_decimal (n : UInt32) : (decimal n).length ≤ 10 := by
  have hlt := n.toNat_lt
  rw [decimal, List.length_map, Nat.length_toDigits_le_iff (by decide) (by decide)]
  omega

theorem Console.print_text {c : Console} {s : List UInt8} (h : s ++ [0] <+: c.hexBuf)
    (hs : (0 : UInt8) ∉ s) : c.print = some {c with lines := c.lines ++ [s ++ [10]]} := by
  have hmem : (0 : UInt8) ∈ c.hexBuf := h.subset (by simp)
  rw [Console.print, if_pos hmem, text_of_isPrefix h hs]

/-- `dump_len` is at most the length, so that the bytes shown are the first ones. -/
theorem take_dumpLen (data : List UInt8) :
    data.take (if RADAR_HEX_DUMP_MAX_BYTES < data.length then RADAR_HEX_DUMP_MAX_BYTES
      else data.length) = data.take RADAR_HEX_DUMP_MAX_BYTES := by
  split
  · rfl
  · next hall => rw [List.take_length, List.take_of_length_le (Nat.le_of_not_lt hall)]

theorem dumpLen_lt_iff (n : Nat) :
    (if RADAR_HEX_DUMP_MAX_BYTES < n then RADAR_HEX_DUMP_MAX_BYTES else n) < n ↔
      RADAR_HEX_DUMP_MAX_BYTES < n := by
  split
  case isTrue hmore => exact iff_of_true hmore hmore
  case isFalse hall => exact iff_of_false (Nat.lt_irrefl n) hall

/-- Whatever the array holds, the line of a chunk fits into it and is printed. -/
theorem radarRxCb_line {c : Console} {data : List UInt8} (hbuf : c.hexBuf.length = HEX_BUF_SIZE)
    (hlen : 5 ≤ data.length) :
    ∃ buf, radarRxCb c data = some ⟨buf, c.lines ++ [(Dump.of data).text ++ [10]]⟩ ∧
      buf.length = HEX_BUF_SIZE := by
  have hdigits := length_decimal (UInt32.ofNat data.length)
  have hfixed : (ascii "RADAR[").length = 6 ∧ (ascii "]:").length = 2 ∧
      (ascii " ...").length = 4 := by decide
  obtain ⟨start, hdef⟩ : ∃ start,
      ascii "RADAR[" ++ decimal (UInt32.ofNat data.length) ++ ascii "]:" = start := ⟨_, rfl⟩
  have hstart : start.length ≤ 18 := by
    simp only [← hdef, List.length_append]
    omega
  have hshown : (data.take RADAR_HEX_DUMP_MAX_BYTES).length ≤ 64 := List.length_take_le _ _
  have hne : data.take RADAR_HEX_DUMP_MAX_BYTES ≠ [] := by
    apply List.ne_nil_of_length_pos
    rw [List.length_take]
    exact Nat.lt_min.mpr ⟨by decide, by omega⟩
  obtain ⟨buf₁, hhead, hbuf₁, hprefix₁⟩ := snprintk_append
    (List.nil_prefix : [] <+: c.hexBuf) HEX_BUF_SIZE start (by simp [hbuf])
    (by rw [hbuf]; decide) (by rw [hbuf, List.length_nil]; unfold HEX_BUF_SIZE; omega)
  rw [hbuf] at hbuf₁
  obtain ⟨buf₂, hloop, hbuf₂, hprefix₂⟩ := dumpLoop_appends (data.take RADAR_HEX_DUMP_MAX_BYTES)
    ((List.prefix_append _ _).trans hprefix₁) hbuf₁
    (by rw [List.nil_append]; unfold HEX_BUF_SIZE; omega) (fun hnil => absurd hnil hne)
  rw [List.nil_append] at hloop hprefix₂
  have hsoFar : (start ++ hexBytes (data.take RADAR_HEX_DUMP_MAX_BYTES)).length ≤ 210 := by
    rw [List.length_append, length_hexBytes]
    omega
  have hshort : ¬data.length < 5 := by omega
  rw [List.length_nil] at hhead
  simp only [radarRxCb, if_neg hshort, take_dumpLen, dumpLen_lt_iff, hdef, hhead, hloop,
    Option.bind_eq_bind, Option.bind_some]
  have hnul := Dump.zero_notMem (Dump.of data)
  by_cases hmore : RADAR_HEX_DUMP_MAX_BYTES < data.length
  · obtain ⟨buf₃, hdots, hbuf₃, hprefix₃⟩ := snprintk_append
      ((List.prefix_append _ _).trans hprefix₂)
      (HEX_BUF_SIZE - (start ++ hexBytes (data.take RADAR_HEX_DUMP_MAX_BYTES)).length)
      (ascii " ...") (by rw [hbuf₂]) (by rw [hbuf₂]; decide)
      (by rw [hbuf₂]; unfold HEX_BUF_SIZE; omega)
    have htext : (Dump.of data).text =
        start ++ hexBytes (data.take RADAR_HEX_DUMP_MAX_BYTES) ++ ascii " ..." := by
      simp [Dump.text, Dump.of, hmore, ← hdef]
    refine ⟨buf₃, ?_, hbuf₃.trans hbuf₂⟩
    rw [← htext] at hprefix₃
    rw [if_pos hmore, hdots, Option.map_some, Option.bind_some]
    exact Console.print_text (c := ⟨buf₃, c.lines⟩) hprefix₃ hnul
  · have htext : (Dump.of data).text = start ++ hexBytes (data.take RADAR_HEX_DUMP_MAX_BYTES) := by
      simp [Dump.text, Dump.of, hmore, ← hdef]
    refine ⟨buf₂, ?_, hbuf₂⟩
    rw [← htext] at hprefix₂
    rw [if_neg hmore, Option.bind_some]
    exact Console.print_text (c := ⟨buf₂, c.lines⟩) hprefix₂ hnul

/-- The chunks that are shown. -/
def shown (chunks : List (List UInt8)) : List (List UInt8) :=
  chunks.filter fun d => decide (5 ≤ d.length)

theorem foldlM_radarRxCb (chunks : List (List UInt8)) {c : Console}
    (hbuf : c.hexBuf.length = HEX_BUF_SIZE) :
    ∃ c', chunks.foldlM radarRxCb c = some c' ∧ c'.hexBuf.length = HEX_BUF_SIZE ∧
      c'.lines = c.lines ++ (shown chunks).map fun d => (Dump.of d).text ++ [10] := by
  induction chunks generalizing c with
  | nil => exact ⟨c, rfl, hbuf, by simp [shown]⟩
  | cons d chunks ih =>
      by_cases hlen : d.length < 5
      · obtain ⟨c', hrest, hbuf', hlines⟩ := ih hbuf
        have hhidden : shown (d :: chunks) = shown chunks := by
          simp [shown, Nat.not_le.mpr hlen]
        refine ⟨c', ?_, hbuf', hhidden ▸ hlines⟩
        rw [List.foldlM_cons, radarRxCb, if_pos hlen]
        exact hrest
      · obtain ⟨buf, hline, hnext⟩ := radarRxCb_line hbuf (Nat.le_of_not_lt hlen)
        obtain ⟨c', hrest, hbuf', hlines⟩ :=
          ih (c := ⟨buf, c.lines ++ [(Dump.of d).text ++ [10]]⟩) hnext
        have hshown : shown (d :: chunks) = d :: shown chunks := by
          simp [shown, Nat.le_of_not_lt hlen]
        refine ⟨c', ?_, hbuf', ?_⟩
        · rw [List.foldlM_cons, hline]
          exact hrest
        · rw [hlines, hshown, List.map_cons, List.append_assoc, List.singleton_append]

/-- The lengths on the lines and those of the chunks that are not shown. -/
theorem sum_shown (chunks : List (List UInt8)) :
    ((shown chunks).map List.length).sum +
        ((chunks.filter fun d => decide (d.length < 5)).map List.length).sum =
      chunks.flatten.length := by
  induction chunks with
  | nil => rfl
  | cons d chunks ih =>
      rw [List.flatten_cons, List.length_append, ← ih]
      unfold shown
      by_cases hlen : d.length < 5
      · rw [List.filter_cons_of_neg (by simpa using hlen), List.filter_cons_of_pos (by simpa),
          List.map_cons, List.sum_cons]
        omega
      · rw [List.filter_cons_of_pos (by simpa using hlen),
          List.filter_cons_of_neg (by simpa using hlen), List.map_cons, List.sum_cons]
        omega

/-- The callback has never written behind its array; a reader of the console knows the
length and the first bytes of every chunk of at least five bytes, in order; the lengths
account for every byte but those of the shorter chunks; and where no chunk is longer than
what a line shows, the lines hold all that was received. -/
def RadarUart.Told (s : RadarUart) : Prop :=
  ∃ c, s.delivered.foldlM radarRxCb .powerUp = some c ∧
    c.lines.map Dump.ofLine = (shown s.delivered).map (fun d => some (Dump.of d)) ∧
    (((c.lines.filterMap Dump.ofLine).map Dump.len).sum +
        ((s.delivered.filter fun d => decide (d.length < 5)).map List.length).sum +
      s.rx.owed.length = s.rx.received.length) ∧
    ((∀ d ∈ s.delivered, 5 ≤ d.length ∧ d.length ≤ RADAR_HEX_DUMP_MAX_BYTES) →
      (c.lines.filterMap Dump.ofLine).flatMap Dump.bytes ++ s.rx.owed = s.rx.received)

theorem RadarUart.Exact.told {s : RadarUart} (h : s.Exact) : s.Told := by
  obtain ⟨c, hrun, -, hlines⟩ :=
    foldlM_radarRxCb s.delivered (c := .powerUp) (List.length_replicate ..)
  have hread : c.lines.map Dump.ofLine = (shown s.delivered).map (fun d => some (Dump.of d)) := by
    rw [hlines, Console.powerUp, List.nil_append, List.map_map]
    refine List.map_congr_left (fun d hd => Dump.ofLine_text _ ?_)
    have hsize := (h.chunks d (List.mem_of_mem_filter hd)).2
    exact Nat.lt_of_le_of_lt hsize (by decide)
  have hdumps : c.lines.filterMap Dump.ofLine = (shown s.delivered).map Dump.of := by
    have hid : c.lines.filterMap Dump.ofLine = (c.lines.map Dump.ofLine).filterMap id := by
      rw [List.filterMap_map]
      rfl
    rw [hid, hread, List.filterMap_map]
    exact congrFun List.filterMap_eq_map' _
  refine ⟨c, hrun, hread, ?_, fun hall => ?_⟩
  · have hsum := sum_shown s.delivered
    rw [hdumps, List.map_map, ← h.stream, List.length_append, ← hsum]
    rfl
  · have hevery : shown s.delivered = s.delivered :=
      List.filter_eq_self.mpr (fun d hd => decide_eq_true (hall d hd).1)
    have hwhole : s.delivered.map (fun d => (Dump.of d).bytes) = s.delivered := by
      calc s.delivered.map (fun d => (Dump.of d).bytes)
        _ = s.delivered.map id :=
          List.map_congr_left (fun d hd => List.take_of_length_le (hall d hd).2)
        _ = s.delivered := List.map_id _
    rw [hdumps, hevery, List.flatMap_map, ← h.stream, List.flatMap_def, hwhole]

/-- The console tells of the reception, however it runs. -/
theorem console_tells_reception (acts : List RadarAct)
    (hquiet : radarSystem.Meets StartsQuiet .powerUp acts) :
    radarSystem.Always RadarUart.Told .powerUp acts :=
  (System.always_of_meets (fun _ _ _ h hq hstep => h.step hq hstep) RadarUart.inv_powerUp
    hquiet).mono (fun _ h => h.exact.told)

/-- A report of six bytes, a stray byte, and a stop. -/
def strayReception : List RadarAct :=
  [.start true ⟨true, 0, 0⟩, .serve 0, .store 0xF4, .store 0xF3, .store 0xF2, .store 0xF1,
    .store 2, .store 0, .timeout, .serve 0, .store 0xFF, .stop, .serve 0, .serve 0, .serve 0]

theorem console_tells_reception_stray :
    radarSystem.Always RadarUart.Told .powerUp strayReception := by
  refine console_tells_reception strayReception (fun _ _ => ⟨⟨rfl, rfl, rfl⟩, ?_⟩)
  repeat' first | exact trivial | refine fun _ _ => ⟨trivial, ?_⟩

end Rw612.Radar
