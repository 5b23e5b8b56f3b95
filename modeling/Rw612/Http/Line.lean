import Rw612.Http.Chunked

/-!
`bs_read_line` over the array it is given. The function is embedded a second time,
with the index `n` and with stores and loads that answer `none` outside the array;
it never goes there and leaves in the array the line that the reader on lists
returns.
-/

namespace Rw612.Http

open Lib Lib.CString

/-! The reader on an array. -/

def store (mem : List UInt8) (i : Nat) (c : UInt8) : Option (List UInt8) :=
  if i < mem.length then some (mem.set i c) else none

/-- The drain loop; its one store ends the string. -/
def bsDrainLineAt (b : Board) (cap : Nat) (w : World) (bs : ByteStream) (prevCr : Bool)
    (line : List UInt8) : Option (Read (List UInt8)) :=
  let w := (w.tick b).1
  if !w.running then some ⟨-1, w, bs, line⟩
  else
    match _h : bsReadSome bs 1 with
    | none => some ⟨-3, w, bs, line⟩
    | some (got, bs') =>
        let d := deref got
        if d = 10 ∧ prevCr = true then
          (store line (cap - 1) 0).map fun line => ⟨-2, w, bs', line⟩
        else bsDrainLineAt b cap w bs' (d == 13) line
  termination_by bs.bytes.length
  decreasing_by exact bsReadSome_length _h Nat.one_pos

/-- The index without the CR in front of it. -/
def stripCr (mem : List UInt8) (n : Nat) : Option Nat :=
  if 0 < n then mem[n - 1]?.map fun c => if c = 13 then n - 1 else n else some n

/-- The loop of `bs_read_line`. -/
def bsReadLineAt (b : Board) (cap : Nat) (w : World) (bs : ByteStream) (line : List UInt8)
    (n : Nat) (prevCr : Bool) : Option (Read (List UInt8)) :=
  let w := (w.tick b).1
  if !w.running then some ⟨-1, w, bs, line⟩
  else
    match _h : bsReadSome bs 1 with
    | none => some ⟨-3, w, bs, line⟩
    | some (got, bs') =>
        let c := deref got
        if c = 10 ∧ prevCr = true then
          (stripCr line n).bind fun n =>
            if cap ≤ n then some ⟨-2, w, bs', line⟩
            else (store line n 0).map fun line => ⟨0, w, bs', line⟩
        else
          -- an index of `cap` marks a line that is too long
          (if n < cap - 1 then (store line n c).map fun line => (line, n + 1)
            else some (line, cap)).bind fun (line, n) =>
              if n = cap then bsDrainLineAt b cap w bs' (c == 13) line
              else bsReadLineAt b cap w bs' line n (c == 13)
  termination_by bs.bytes.length
  decreasing_by exact bsReadSome_length _h Nat.one_pos

theorem store_inside {mem : List UInt8} {i : Nat} (c : UInt8) (h : i < mem.length) :
    store mem i c = some (mem.set i c) :=
  if_pos h

/-- While the task runs, a round of each loop depends on what is read. -/
theorem bsDrainLineAt_running {b : Board} {cap : Nat} {w : World} {bs : ByteStream}
    {prevCr : Bool} {line : List UInt8} (hrun : ¬(!(w.tick b).1.running) = true) :
    bsDrainLineAt b cap w bs prevCr line =
      match bsReadSome bs 1 with
      | none => some ⟨-3, (w.tick b).1, bs, line⟩
      | some (got, bs') =>
          if deref got = 10 ∧ prevCr = true then
            (store line (cap - 1) 0).map fun line => ⟨-2, (w.tick b).1, bs', line⟩
          else bsDrainLineAt b cap (w.tick b).1 bs' (deref got == 13) line := by
  rw [bsDrainLineAt, if_neg hrun]
  split
  case h_1 hnone => rw [hnone]
  case h_2 got bs' hread => rw [hread]

theorem bsReadLineAt_running {b : Board} {cap : Nat} {w : World} {bs : ByteStream}
    {line : List UInt8} {n : Nat} {prevCr : Bool} (hrun : ¬(!(w.tick b).1.running) = true) :
    bsReadLineAt b cap w bs line n prevCr =
      match bsReadSome bs 1 with
      | none => some ⟨-3, (w.tick b).1, bs, line⟩
      | some (got, bs') =>
          if deref got = 10 ∧ prevCr = true then
            (stripCr line n).bind fun n =>
              if cap ≤ n then some ⟨-2, (w.tick b).1, bs', line⟩
              else (store line n 0).map fun line => ⟨0, (w.tick b).1, bs', line⟩
          else
            (if n < cap - 1 then (store line n (deref got)).map fun line => (line, n + 1)
              else some (line, cap)).bind fun (line, n) =>
                if n = cap then bsDrainLineAt b cap (w.tick b).1 bs' (deref got == 13) line
                else bsReadLineAt b cap (w.tick b).1 bs' line n (deref got == 13) := by
  rw [bsReadLineAt, if_neg hrun]
  split
  case h_1 hnone => rw [hnone]
  case h_2 got bs' hread => rw [hread]

/-- The drain loop stores inside the array and leaves its length. -/
theorem bsDrainLineAt_eq (b : Board) {cap : Nat} (w : World) (bs : ByteStream) (prevCr : Bool)
    {line : List UInt8} (hcap : 0 < cap) (hline : line.length = cap) :
    let r := bsDrainLine b w bs prevCr
    ∃ mem, bsDrainLineAt b cap w bs prevCr line = some ⟨r.rc, r.world, r.bs, mem⟩ ∧
      mem.length = cap := by
  fun_induction bsDrainLine b w bs prevCr with
  | case1 w bs prevCr w₁ hstop =>
      refine ⟨line, ?_, hline⟩
      rw [bsDrainLineAt, if_pos hstop]
  | case2 w bs prevCr w₁ hrun hnone =>
      refine ⟨line, ?_, hline⟩
      rw [bsDrainLineAt_running hrun, hnone]
  | case3 w bs prevCr w₁ hrun got bs' hread d hend =>
      refine ⟨line.set (cap - 1) 0, ?_, by rw [List.length_set, hline]⟩
      rw [bsDrainLineAt_running hrun, hread]
      dsimp only
      rw [if_pos hend, store_inside _ (by omega)]
      rfl
  | case4 w bs prevCr w₁ hrun got bs' hread d hend ih =>
      obtain ⟨mem, hmem, hlength⟩ := ih
      refine ⟨mem, ?_, hlength⟩
      rw [bsDrainLineAt_running hrun, hread]
      dsimp only
      rw [if_neg hend]
      exact hmem

/-- With `n` bytes stored, `stripCr` is the `dropLast` of the reader on lists. -/
theorem stripCr_eq {mem : List UInt8} {n : Nat} (hn : n ≤ mem.length) :
    let stored := mem.take n
    let kept := if stored.getLast? = some 13 then stored.dropLast else stored
    stripCr mem n = some kept.length ∧ mem.take kept.length = kept ∧ kept.length ≤ n := by
  cases n with
  | zero => simp [stripCr]
  | succ n =>
      have hlast : (mem.take (n + 1)).getLast? = mem[n]? := by
        rw [List.getLast?_take, if_neg (Nat.succ_ne_zero n), Nat.add_sub_cancel]
        simp [List.getElem?_eq_getElem hn]
      have hdrop : (mem.take (n + 1)).dropLast = mem.take n := by
        rw [List.dropLast_eq_take, List.length_take, Nat.min_eq_left hn, Nat.add_sub_cancel,
          List.take_take, Nat.min_eq_left (Nat.le_succ n)]
      have hlength : ∀ m ≤ n + 1, (mem.take m).length = m := by
        intro m hm
        rw [List.length_take]
        omega
      simp only [stripCr, Nat.zero_lt_succ, if_true, Nat.add_sub_cancel, hlast, hdrop]
      rw [List.getElem?_eq_getElem hn]
      simp only [Option.map_some, Option.some.injEq]
      split
      · rw [hlength n (Nat.le_succ n)]
        exact ⟨rfl, rfl, Nat.le_succ n⟩
      · rw [hlength (n + 1) (Nat.le_refl _)]
        exact ⟨rfl, rfl, Nat.le_refl _⟩

/-- The reader on the array does what the reader on lists does, with the stored
bytes at the front of the array and the result behind them closed by a 0. -/
theorem bsReadLineAt_eq (b : Board) {cap : Nat} (w : World) (bs : ByteStream) (prevCr : Bool)
    (stored : List UInt8) :
    ∀ line n, line.length = cap → n < cap → stored = line.take n →
      let r := bsReadLineFrom b cap w bs stored prevCr
      ∃ mem, bsReadLineAt b cap w bs line n prevCr = some ⟨r.rc, r.world, r.bs, mem⟩ ∧
        mem.length = cap ∧
        (r.rc = 0 → mem.take r.out.length = r.out ∧ mem[r.out.length]? = some 0) := by
  fun_induction bsReadLineFrom b cap w bs stored prevCr with
  | case1 w bs stored prevCr w₁ hstop =>
      intro line n hline hn hstored
      refine ⟨line, ?_, hline, by simp⟩
      rw [bsReadLineAt, if_pos hstop]
  | case2 w bs stored prevCr w₁ hrun hnone =>
      intro line n hline hn hstored
      refine ⟨line, ?_, hline, by simp⟩
      rw [bsReadLineAt_running hrun, hnone]
  | case3 w bs stored prevCr w₁ hrun got bs' hread c hend kept =>
      intro line n hline hn hstored
      have hkeptIs : kept = if stored.getLast? = some 13 then stored.dropLast else stored := rfl
      obtain ⟨hstrip, hkept, hle⟩ := stripCr_eq (Nat.le_of_lt (hline ▸ hn))
      rw [← hstored, ← hkeptIs] at hstrip hkept hle
      have hinside : kept.length < line.length := by
        rw [hline]
        exact Nat.lt_of_le_of_lt hle hn
      have hshort : ¬cap ≤ kept.length := by omega
      refine ⟨line.set kept.length 0, ?_, by rw [List.length_set, hline], fun _ => ⟨?_, ?_⟩⟩
      · rw [bsReadLineAt_running hrun, hread]
        dsimp only
        rw [if_pos hend, hstrip, Option.bind_some, if_neg hshort, store_inside _ hinside,
          if_neg hshort]
        rfl
      · rw [List.take_set_of_le (Nat.le_refl _)]
        exact hkept
      · exact List.getElem?_set_self hinside
  | case4 w bs stored prevCr w₁ hrun got bs' hread c hend hroom ih =>
      intro line n hline hn hstored
      have hlength : stored.length = n := by
        rw [hstored, List.length_take]
        omega
      rw [hlength] at hroom
      have hinside : n < line.length := by omega
      have hnext : stored ++ [c] = (line.set n c).take (n + 1) := by
        rw [hstored, List.take_add_one, List.take_set_of_le (Nat.le_refl _),
          List.getElem?_set_self hinside]
        rfl
      obtain ⟨mem, hmem, hrest⟩ := ih (line.set n c) (n + 1)
        (by rw [List.length_set, hline]) (by omega) hnext
      refine ⟨mem, ?_, hrest⟩
      rw [bsReadLineAt_running hrun, hread]
      dsimp only
      rw [if_neg hend, if_pos hroom, store_inside _ hinside, Option.map_some, Option.bind_some,
        if_neg (by omega)]
      exact hmem
  | case5 w bs stored prevCr w₁ hrun got bs' hread c hend hfull r =>
      intro line n hline hn hstored
      have hlength : stored.length = n := by
        rw [hstored, List.length_take]
        omega
      rw [hlength] at hfull
      obtain ⟨-, hne, -⟩ := bsDrainLine_split b w₁ bs' (c == 13)
      obtain ⟨mem, hmem, hmemlength⟩ := bsDrainLineAt_eq b w₁ bs' (c == 13) (by omega) hline
      refine ⟨mem, ?_, hmemlength, fun hrc => absurd hrc hne⟩
      rw [bsReadLineAt_running hrun, hread]
      dsimp only
      rw [if_neg hend, if_neg hfull, Option.bind_some, if_pos rfl]
      exact hmem

/-! What is read of a stream, for an array of any length. -/

/-- Where there is no CR LF, no line ends. -/
theorem splitFrom_none {p : List UInt8} (hfree : CrlfFree p) : splitFrom false p = none := by
  cases hsplit : splitFrom false p with
  | none => rfl
  | some lr =>
      obtain ⟨l, rest⟩ := lr
      have hline : splitLine p = some (l.dropLast, rest) := by
        rw [splitLine, hsplit]
        rfl
      exact absurd ⟨l.dropLast, rest, by simp [splitLine_some hline]⟩ hfree

theorem bsDrainLine_ends {b : Board} {w : World} {bs : ByteStream} {prevCr : Bool}
    (hkeeps : w.KeepsRunning) (hnone : splitFrom prevCr bs.bytes = none) :
    (bsDrainLine b w bs prevCr).rc = -3 := by
  fun_induction bsDrainLine b w bs prevCr with
  | case1 w bs prevCr w₁ hstop => simp [(hkeeps.tick b).1, w₁] at hstop
  | case2 => rfl
  | case3 w bs prevCr w₁ _ got bs' hread d hend =>
      rw [bsReadSome_one hread, splitFrom, if_pos hend] at hnone
      cases hnone
  | case4 w bs prevCr w₁ _ got bs' hread d hend ih =>
      rw [bsReadSome_one hread, splitFrom_cons _ _ _ hend, Option.map_eq_none_iff] at hnone
      exact ih (hkeeps.tick b) hnone

/-- A stream that ends within a line. -/
theorem bsReadLineFrom_ends {b : Board} {cap : Nat} {w : World} {bs : ByteStream}
    {line : List UInt8} {prevCr : Bool} (hkeeps : w.KeepsRunning)
    (hnone : splitFrom prevCr bs.bytes = none) :
    (bsReadLineFrom b cap w bs line prevCr).rc = -3 := by
  fun_induction bsReadLineFrom b cap w bs line prevCr with
  | case1 w bs line prevCr w₁ hstop => simp [(hkeeps.tick b).1, w₁] at hstop
  | case2 => rfl
  | case3 w bs line prevCr w₁ _ got bs' hread c hend =>
      rw [bsReadSome_one hread, splitFrom, if_pos hend] at hnone
      cases hnone
  | case4 w bs line prevCr w₁ _ got bs' hread c hend hroom ih =>
      rw [bsReadSome_one hread, splitFrom_cons _ _ _ hend, Option.map_eq_none_iff] at hnone
      exact ih (hkeeps.tick b) hnone
  | case5 w bs line prevCr w₁ _ got bs' hread c hend hfull r =>
      rw [bsReadSome_one hread, splitFrom_cons _ _ _ hend, Option.map_eq_none_iff] at hnone
      exact bsDrainLine_ends (hkeeps.tick b) hnone

/-- A line in front of the stream, with `cap - 2` bytes of room for it. -/
theorem bsReadLine_front {b : Board} {cap : Nat} {w : World} {bs : ByteStream}
    {line rest : List UInt8} (hcap : 2 ≤ cap) (hkeeps : w.KeepsRunning)
    (hfree : CrlfFree line) (hbytes : bs.bytes = line ++ 13 :: 10 :: rest) :
    let r := bsReadLine b w bs cap
    r.bs.bytes = rest ∧ (line.length ≤ cap - 2 → r.rc = 0 ∧ r.out = line) ∧
      (cap - 2 < line.length → r.rc = -2) := by
  have hsplit : splitFrom false bs.bytes = some (line ++ [13], rest) := by
    rw [hbytes, splitFrom_append rest hfree (by simp)]
  obtain ⟨hok, hlong, hkeep⟩ := bsReadLineFrom_split b cap w bs [] false (by simp)
    (Nat.zero_le _) (by omega)
  obtain ⟨hrc, -⟩ := hkeep hkeeps (by rw [hsplit]; rfl)
  rw [bsReadLine]
  rcases hrc with hrc | hrc
  · obtain ⟨l, hl, hlength, hout⟩ := hok hrc
    rw [hsplit, Option.some.injEq, Prod.mk.injEq] at hl
    obtain ⟨rfl, hrest⟩ := hl
    rw [List.nil_append, List.length_append, List.length_singleton] at hlength
    rw [List.nil_append, List.dropLast_concat] at hout
    refine ⟨hrest.symm, fun _ => ⟨hrc, hout⟩, fun hover => ?_⟩
    omega
  · obtain ⟨l, hl, hlength⟩ := hlong hrc
    rw [hsplit, Option.some.injEq, Prod.mk.injEq] at hl
    obtain ⟨rfl, hrest⟩ := hl
    rw [List.nil_append, List.length_append, List.length_singleton] at hlength
    refine ⟨hrest.symm, fun hshort => ?_, fun _ => hrc⟩
    omega

/-- `bs_read_line` keeps the stream in sync, for an array of any length from 2 on:
it never stores or loads outside it, a line in front of the stream is taken off
with its CR LF whether it fits or not, and a stream without CR LF gives -3. -/
theorem bsReadLineAt_in_sync (b : Board) (cap : Nat) (w : World) (bs : ByteStream)
    (mem : List UInt8) (hcap : 2 ≤ cap) (hmem : mem.length = cap) :
    ∃ r, bsReadLineAt b cap w bs mem 0 false = some r ∧ r.out.length = cap ∧
      (w.KeepsRunning →
        (∀ line rest, CrlfFree line → bs.bytes = line ++ 13 :: 10 :: rest →
          r.bs.bytes = rest ∧
          (line.length ≤ cap - 2 →
            r.rc = 0 ∧ r.out.take line.length = line ∧ r.out[line.length]? = some 0) ∧
          (cap - 2 < line.length → r.rc = -2)) ∧
        (CrlfFree bs.bytes → r.rc = -3)) := by
  obtain ⟨out, hrun, hlength, hclosed⟩ := bsReadLineAt_eq b w bs false [] mem 0 hmem
    (by omega) rfl
  refine ⟨_, hrun, hlength, fun hkeeps => ⟨?_, ?_⟩⟩
  · intro line rest hfree hbytes
    obtain ⟨hrest, hfits, hlong⟩ := bsReadLine_front (b := b) hcap hkeeps hfree hbytes
    refine ⟨hrest, fun hshort => ?_, hlong⟩
    obtain ⟨hrc, hout⟩ := hfits hshort
    obtain ⟨htake, hend⟩ := hclosed hrc
    rw [← hout]
    exact ⟨hrc, htake, hend⟩
  · intro hfree
    exact bsReadLineFrom_ends hkeeps (splitFrom_none hfree)

/-- One byte too many for an array of 4, with the CR at the hand-over to the drain loop. -/
theorem bsReadLineAt_in_sync_long :
    ∃ r, bsReadLineAt ⟨⟨8⟩, fun _ => true⟩ 4 (World.start (Ota.Sys.powerUp .blank) [] [])
        ⟨ascii "ab", [ascii "c\r", ascii "\nx"]⟩ [0, 0, 0, 0] 0 false = some r ∧
      r.rc = -2 ∧ r.bs.bytes = ascii "x" := by
  obtain ⟨r, hrun, -, hsync⟩ := bsReadLineAt_in_sync ⟨⟨8⟩, fun _ => true⟩ 4
    (World.start (Ota.Sys.powerUp .blank) [] []) ⟨ascii "ab", [ascii "c\r", ascii "\nx"]⟩
    [0, 0, 0, 0] (by decide) rfl
  obtain ⟨hline, -⟩ := hsync ⟨rfl, by simp [World.start]⟩
  obtain ⟨hrest, -, hlong⟩ := hline (ascii "abc") (ascii "x") (by decide) (by decide)
  exact ⟨r, hrun, hlong (by decide), hrest⟩

end Rw612.Http
