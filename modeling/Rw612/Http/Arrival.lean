import Rw612.Http.Head
import Rw612.Http.FixedBody
import Rw612.Http.Url

/-!
The head of a response as it arrives. TCP cuts an answer into segments wherever it
likes, and behind what has been received the buffer holds older bytes. A prefix of
a head is not taken for a head, so that the head is parsed at the first moment at
which it is whole, and the stream that is left begins with the body.
-/

namespace Rw612.Http

open Lib Lib.CString Ota

/-- A head whose numbers stand in their own lines, without a NUL. -/
structure Head.Plain (head : Head) : Prop where
  version : (ascii "HTTP/1.").isPrefixOf head.first = true
  firstNul : 0 ∉ head.first
  linesNul : ∀ line ∈ head.lines, 0 ∉ line
  status : StatusInLine head.first
  values : ∀ line ∈ head.lines, ValueInLine line

/-- What its lines say. -/
def Head.response (head : Head) : HttpResponse :=
  {head.lines.foldl lineAlone .zero with status := (statusAt head.bytes).getD 0}

/-- A plain head is read alike, whatever follows it in the buffer. -/
theorem Head.Plain.parse {head : Head} (h : head.Plain) (tail : List UInt8) {n : Nat}
    (hn : head.bytes.length ≤ n) :
    parseResponseHeaders (head.bytes ++ tail) n = .ok (head.bytes.length, head.response) := by
  obtain ⟨status, hstatus⟩ := (statusAt_within_iff h.firstNul).mp h.status
  have hown : statusAt head.bytes = some status := by
    rw [← List.append_nil head.bytes, head.bytes_append, hstatus]
  have hshown : head.lines.takeWhile (fun line => !line.contains 0) = head.lines := by
    rw [List.takeWhile_eq_self_iff]
    intro line hline
    simpa using h.linesNul line hline
  have hwithin : ∀ line ∈ head.lines.takeWhile fun line => !line.contains 0, ∀ p out,
      parseHeaderLine (line ++ 13 :: 10 :: p) (13 :: 10 :: p) out = lineAlone out line := by
    rw [hshown]
    intro line hline
    exact (parseHeaderLine_within_iff (h.linesNul line hline)).mp (h.values line hline)
  rw [head.parse_eq tail hn, h.version, if_neg (by decide), head.bytes_append, hstatus]
  dsimp only
  rw [if_neg h.firstNul, parseHeaderLines_eq head.linesFree tail _ hwithin, hshown,
    foldl_lineAlone_status, Head.response, hown, Option.getD_some]

/-- A part of a head is not taken for one. -/
theorem Head.parse_part {head : Head} {buf tail : List UInt8} {n : Nat}
    (hbuf : buf.take n ++ tail = head.bytes) (hpart : n < head.bytes.length) :
    parseResponseHeaders buf n = .error (-1) := by
  have hnone : Http.findHdrEnd n buf = none := by
    by_contra hsome
    obtain ⟨hdrEnd, hend⟩ := Option.ne_none_iff_exists'.mp hsome
    obtain ⟨inner, hsplit, hlen⟩ := Head.of_findHdrEnd hend
    have hprefix : inner.bytes <+: head.bytes := by
      rw [← hbuf, hsplit, List.take_append, List.take_of_length_le hlen, List.append_assoc]
      exact List.prefix_append _ _
    obtain ⟨rest, hrest⟩ := hprefix
    have hsame : inner = head := by
      have hbytes : inner.bytes ++ rest = head.bytes ++ [] := by
        rw [hrest, List.append_nil]
      exact Head.unique hbytes
    rw [hsame] at hlen
    omega
  rw [parseResponseHeaders, hnone]

theorem overwrite_take {buf data : List UInt8} {off : Nat} (hoff : off ≤ buf.length) :
    (overwrite buf off data).take (off + data.length) = buf.take off ++ data ∧
      off + data.length ≤ (overwrite buf off data).length := by
  have hfront : (buf.take off ++ data).length = off + data.length := by
    rw [List.length_append, List.length_take_of_le hoff]
  have hshape : overwrite buf off data =
      buf.take off ++ data ++ buf.drop (off + data.length) := by
    rw [overwrite, Nat.sub_eq_zero_of_le hoff, List.replicate_zero, List.append_nil]
  rw [hshape]
  constructor
  · rw [← hfront, List.take_left]
  · rw [List.length_append, hfront]
    exact Nat.le_add_right _ _

/-- Nothing is received only when nothing arrives any more. -/
theorem recv_none {recvs : List (List UInt8)} {want : Nat} (hwant : 0 < want)
    (h : recv recvs want = none) : arriving recvs = [] := by
  have hread : bsReadSome ⟨[], recvs⟩ want = none := by
    simp [bsReadSome, h]
  have hbytes := bsReadSome_none hwant hread
  simpa [ByteStream.bytes] using hbytes

/-- What the buffer holds and what is still to come, together, are a head and `after`. -/
theorem readHead_arrives {head : Head} (h : head.Plain)
    (hfits : head.bytes.length ≤ APP_OTA_HTTP_HEADER_MAX) {after hdrbuf : List UInt8}
    {filled : Nat} {recvs : List (List UInt8)} (hbuf : filled ≤ hdrbuf.length)
    (hmore : filled < head.bytes.length)
    (harrives : hdrbuf.take filled ++ arriving recvs = head.bytes ++ after) :
    ∃ bs, (readHead hdrbuf filled recvs).2 = .ok (head.response, bs) ∧ bs.bytes = after := by
  have hroom {filled : Nat} (hlt : filled < head.bytes.length) :
      0 < APP_OTA_HTTP_HEADER_MAX - filled := by omega
  -- the buffer behind one more piece
  have hpiece {hdrbuf got : List UInt8} {filled : Nat} {recvs rest : List (List UInt8)}
      (hbuf : filled ≤ hdrbuf.length)
      (harrives : hdrbuf.take filled ++ arriving recvs = head.bytes ++ after)
      (hgot : arriving recvs = got ++ arriving rest) :
      (overwrite hdrbuf filled got).take (filled + got.length) ++ arriving rest =
        head.bytes ++ after := by
    rw [(overwrite_take hbuf).1, List.append_assoc, ← hgot, harrives]
  have hparse {buf : List UInt8} {n : Nat} {rest : List (List UInt8)} (hn : n ≤ buf.length)
      (hsum : buf.take n ++ arriving rest = head.bytes ++ after) :
      (n < head.bytes.length ∧ parseResponseHeaders buf n = .error (-1)) ∨
      (parseResponseHeaders buf n = .ok (head.bytes.length, head.response) ∧
        (buf.drop head.bytes.length).take (n - head.bytes.length) ++ arriving rest = after) := by
    rcases Nat.lt_or_ge n head.bytes.length with hpart | hwhole
    · left
      have htake : buf.take n = head.bytes.take n := by
        have hfront := congrArg (List.take n) hsum
        rwa [List.take_append_of_le_length (by rw [List.length_take_of_le hn]),
          List.take_of_length_le (List.length_take_le n buf),
          List.take_append_of_le_length (Nat.le_of_lt hpart)] at hfront
      exact ⟨hpart, Head.parse_part (htake ▸ List.take_append_drop n head.bytes) hpart⟩
    · right
      have hfront : buf.take head.bytes.length = head.bytes := by
        have hcut := congrArg (List.take head.bytes.length) hsum
        rwa [List.take_append_of_le_length (by rw [List.length_take_of_le hn]; exact hwhole),
          List.take_take, Nat.min_eq_left hwhole, List.take_left] at hcut
      have hsplit : head.bytes ++ buf.drop head.bytes.length = buf := by
        nth_rewrite 1 [← hfront]
        exact List.take_append_drop _ buf
      refine ⟨?_, ?_⟩
      · rw [← hsplit]
        exact h.parse _ hwhole
      · have hcut := hsum
        rw [← hsplit, List.take_append, List.take_of_length_le hwhole, List.append_assoc]
          at hcut
        exact List.append_cancel_left hcut
  fun_induction readHead hdrbuf filled recvs with
  | case1 hdrbuf filled recvs hfull hnone =>
      have hlength := congrArg List.length harrives
      rw [recv_none (hroom hmore) hnone, List.append_nil, List.length_take_of_le hbuf,
        List.length_append] at hlength
      omega
  | case2 hdrbuf filled recvs hfull got rest hrecv buf parsed rsp hok =>
      have hgot := (recv_some hrecv).1
      rcases hparse (overwrite_take hbuf).2 (hpiece hbuf harrives hgot) with
        ⟨-, herror⟩ | ⟨hhead, hafter⟩
      · rw [herror] at hok
        cases hok
      · cases hhead.symm.trans hok
        exact ⟨_, rfl, hafter⟩
  | case3 hdrbuf filled recvs hfull got rest hrecv buf herror ih =>
      have hgot := (recv_some hrecv).1
      rcases hparse (overwrite_take hbuf).2 (hpiece hbuf harrives hgot) with
        ⟨hpart, -⟩ | ⟨hhead, -⟩
      · exact ih (overwrite_take hbuf).2 hpart (hpiece hbuf harrives hgot)
      · rw [hhead] at herror
        cases herror
  | case4 hdrbuf filled recvs hfull got rest hrecv buf rc herror hrc =>
      have hgot := (recv_some hrecv).1
      rcases hparse (overwrite_take hbuf).2 (hpiece hbuf harrives hgot) with
        ⟨-, hone⟩ | ⟨hhead, -⟩
      · rw [hone] at herror
        cases herror
        exact absurd rfl hrc
      · rw [hhead] at herror
        cases herror
  | case5 hdrbuf filled recvs hfull => omega

/-! The request, and a connection that answers it. -/

/-- What is sent for a URL fits into the buffer. -/
theorem requestText_fits {url : List UInt8} {u : UrlParts} (hurl : parseUrl (text url) = .ok u)
    (rangeFrom : UInt32) : (requestText u rangeFrom).length < APP_OTA_HTTP_HEADER_MAX := by
  obtain ⟨-, -, -, path, -, -, hhost, -, hpath⟩ :=
    (parseUrl_ok_iff (zero_notMem_text url) u).mp hurl
  have hdecimal : (decimal rangeFrom).length ≤ 10 := by
    have hlt := rangeFrom.toNat_lt
    rw [decimal, List.length_map, Nat.length_toDigits_le_iff (by decide) (by decide)]
    omega
  have hrange : (if 0 < rangeFrom then
      ascii "Range: bytes=" ++ decimal rangeFrom ++ ascii "-\r\n" else []).length ≤ 26 := by
    have hname : (ascii "Range: bytes=").length = 13 ∧ (ascii "-\r\n").length = 3 := by decide
    split
    · simp only [List.length_append]
      omega
    · simp
  have hlength : u.path.length ≤ 159 := by
    generalize u.path = upath at hpath
    cases hpath with
    | absent => decide
    | given hshort => exact hshort
  have hfits := hhost.fits
  have hget : (ascii "GET ").length = 4 := by decide
  have hversion : (ascii " HTTP/1.1\r\nHost: ").length = 17 := by decide
  have hfields : (ascii "\r\nUser-Agent: zcube/1\r\nConnection: close\r\nAccept: */*\r\n").length =
      55 := by decide
  have hmax : APP_OTA_HTTP_HEADER_MAX = 1024 := rfl
  simp only [requestText, List.length_append, hget, hversion, hfields, crlf, List.length_cons,
    List.length_nil]
  omega

theorem sendAll_takes {sends : List Int} {len : Nat} (hpos : ∀ n ∈ sends, 0 < n)
    (henough : len ≤ (sends.map Int.toNat).sum) : sendAll sends len = true := by
  induction sends generalizing len with
  | nil =>
      obtain rfl : len = 0 := Nat.le_zero.mp henough
      rfl
  | cons n sends ih =>
      obtain ⟨hn, hrest⟩ := List.forall_mem_cons.mp hpos
      rw [List.map_cons, List.sum_cons] at henough
      cases len with
      | zero => rfl
      | succ len =>
          rw [sendAll, if_neg (Int.not_le.mpr hn)]
          · exact ih hrest (by omega)
          · exact Nat.succ_ne_zero len

/-- The connection comes about, takes the request, and carries this answer. -/
structure Conn.Carries (conn : Conn) (request answer : List UInt8) : Prop where
  sock : 0 ≤ conn.sock
  connected : conn.connectRc = 0
  sends : ∀ n ∈ conn.sends, 0 < n
  taken : request.length ≤ (conn.sends.map Int.toNat).sum
  answered : arriving conn.recvs = answer

/-- The head of an answer, and behind it `after`. -/
theorem requestHead_carried {b : Board} {w : World} {url : List UInt8} {u : UrlParts}
    {rangeFrom : UInt32} {conn : Conn} {conns : List Conn} {head : Head} {after : List UInt8}
    (hplain : head.Plain) (hfits : head.bytes.length ≤ APP_OTA_HTTP_HEADER_MAX)
    (hurl : parseUrl (text url) = .ok u) (hhost : b.inetPton u.host = true)
    (hconns : w.conns = conn :: conns)
    (hcarries : conn.Carries (requestText u rangeFrom) (head.bytes ++ after)) :
    ∃ w' bs, requestHead b w (text url) rangeFrom = (w', .ok (head.response, bs)) ∧
      bs.bytes = after ∧ w' = {w with
        conns := conns
        state := w'.state
        hdrbuf := w'.hdrbuf
        sent := w'.sent} := by
  have hnumeric : ¬b.inetPton u.host = false := by
    rw [hhost]
    exact Bool.true_eq_false_eq_False
  have hsent : ¬sendAll conn.sends (requestText u rangeFrom).length = false := by
    rw [sendAll_takes hcarries.sends hcarries.taken]
    exact Bool.true_eq_false_eq_False
  have hshort := Nat.not_le_of_lt (requestText_fits hurl rangeFrom)
  have hopen : openRequest b w (text url) rangeFrom = ({w with
      conns := conns
      state := .requesting
      hdrbuf := overwrite w.hdrbuf 0
        ((requestText u rangeFrom).take (APP_OTA_HTTP_HEADER_MAX - 1) ++ [0])
      sent := w.sent ++ [requestText u rangeFrom]}, .ok conn.recvs) := by
    simp only [openRequest, hurl, if_neg hnumeric, hconns, if_neg (Int.not_lt.mpr hcarries.sock),
      if_neg (not_not.mpr hcarries.connected), if_neg hshort, if_neg hsent]
  have hpos : 0 < head.bytes.length := by simp [Head.bytes, crlf]
  let hdrbuf := overwrite w.hdrbuf 0
    ((requestText u rangeFrom).take (APP_OTA_HTTP_HEADER_MAX - 1) ++ [0])
  have hanswered : hdrbuf.take 0 ++ arriving conn.recvs = head.bytes ++ after := by
    rw [List.take_zero, List.nil_append, hcarries.answered]
  obtain ⟨bs, hread, hbytes⟩ := readHead_arrives hplain hfits (Nat.zero_le _) hpos hanswered
  simp only [requestHead, hopen]
  exact ⟨_, bs, Prod.ext rfl hread, hbytes, rfl⟩

end Rw612.Http
