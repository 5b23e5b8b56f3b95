import Mathlib.Data.List.Chain
import Rw612.Http.Head
import Rw612.Http.Request

/-!
Where `http_request` is led. The value of a `Location` line is cut to what fits
into the response before its length is tested, so the test never fails, and a
long value is followed as far as it fits if that is a URL.
-/

namespace Rw612.Http

open Lib Lib.CString Ota

/-! The Location of a response. -/

/-- The value of a `Location` line, or what an earlier one said if it has none. -/
def locationFrom (location line : List UInt8) : List UInt8 :=
  if hdrMatch line (ascii "location") then
    match hdrValue line with
    | none => location
    | some v => if v = [] then location else v.rdropWhile fun b => b == 13 || b == 10
  else location

/-- The Location of a header section, in full. -/
def Head.location (head : Head) : List UInt8 := head.shown.foldl locationFrom []

/-- What a response keeps of a Location. -/
structure HttpResponse.Keeps (rsp : HttpResponse) (location : List UInt8) : Prop where
  noNul : 0 ∉ location
  cut : rsp.location = location.take APP_OTA_HTTP_URL_MAX
  has : rsp.hasLocation = decide (deref rsp.location ≠ 0)

theorem hdrMatch_location {line : List UInt8} (h : hdrMatch line (ascii "location") = true) :
    hdrMatch line (ascii "content-length") = false ∧
      hdrMatch line (ascii "content-range") = false := by
  simp only [hdrMatch, Bool.and_eq_true, beq_iff_eq] at h
  have hone := congrArg (List.take 1) h.1
  rw [← List.map_take, List.take_take] at hone
  have hdiffers (name : List UInt8) (hname : ¬(ascii "location").take 1 = name.take 1)
      (hlower : name.map toLower = name) (hlen : min 1 name.length = 1) :
      hdrMatch line name = false := by
    rw [← Bool.not_eq_true]
    intro hmatch
    simp only [hdrMatch, Bool.and_eq_true, beq_iff_eq] at hmatch
    have hother := congrArg (List.take 1) hmatch.1
    rw [← List.map_take, List.take_take, hlen, hlower] at hother
    exact hname (hone.symm.trans hother)
  exact ⟨hdiffers _ (by decide) (by decide) (by decide),
    hdiffers _ (by decide) (by decide) (by decide)⟩

theorem locationFrom_noNul {location line : List UInt8} (hline : 0 ∉ line)
    (hlocation : 0 ∉ location) : 0 ∉ locationFrom location line := by
  unfold locationFrom
  split
  · cases hvalue : hdrValue line with
    | none => exact hlocation
    | some v =>
        dsimp only
        split
        · exact hlocation
        · intro hin
          apply hline
          obtain ⟨p, hp, rfl⟩ := Option.map_eq_some_iff.mp hvalue
          obtain ⟨front, back, hback, rfl, -⟩ := strchr_eq_some hp
          have hv := (List.rdropWhile_prefix _ _).subset hin
          have htail := (List.dropWhile_suffix _).subset hv
          rw [hback]
          exact List.mem_append_right front (List.mem_cons_of_mem _ htail)
  · exact hlocation

theorem parseHeaderLine_location {line : List UInt8} (nl : List UInt8) (out : HttpResponse)
    (h : hdrMatch line (ascii "location") = false) :
    (parseHeaderLine line nl out).location = out.location ∧
      (parseHeaderLine line nl out).hasLocation = out.hasLocation := by
  have hrange (v : List UInt8) : (parseContentRange v out).location = out.location ∧
      (parseContentRange v out).hasLocation = out.hasLocation := by
    rw [parseContentRange_eq]
    by_cases hdash : deref (strtoul 10 (skipUnit v)).2 = 45
    · simp only [rangeFields, if_pos hdash, and_self]
    · simp only [rangeFields, if_neg hdash, and_self]
  unfold parseHeaderLine
  rw [h, if_neg Bool.false_ne_true]
  split
  · split <;> exact ⟨rfl, rfl⟩
  · split
    · split
      · exact ⟨rfl, rfl⟩
      · exact hrange _
    · split
      · split
        · exact ⟨rfl, rfl⟩
        · split <;> exact ⟨rfl, rfl⟩
      · exact ⟨rfl, rfl⟩

/-- One line of the section. -/
theorem HttpResponse.Keeps.line {rsp : HttpResponse} {location line : List UInt8}
    (h : rsp.Keeps location) (hnul : 0 ∉ line) (q : List UInt8) :
    (parseHeaderLine (line ++ 13 :: q) (13 :: q) rsp).Keeps (locationFrom location line) := by
  by_cases hlocation : hdrMatch line (ascii "location") = true
  · obtain ⟨hlength, hrange⟩ := hdrMatch_location hlocation
    obtain ⟨v, hv, hread⟩ := hdrValue_of_match hnul hlocation
    have hfree := locationFrom_noNul hnul h.noNul
    have hcut : hdrCopyLine (line ++ 13 :: q) (13 :: q) rsp.location (APP_OTA_HTTP_URL_MAX + 1) =
        (locationFrom location line).take APP_OTA_HTTP_URL_MAX := by
      rw [hdrCopyLine_append hread, locationFrom, if_pos hlocation, hv, h.cut]
      dsimp only
      split <;> rfl
    rw [parseHeaderLine, hdrMatch_line (by decide), hlength, hdrMatch_line (by decide), hrange,
      hdrMatch_line (by decide), hlocation, if_neg Bool.false_ne_true, if_neg Bool.false_ne_true,
      if_pos rfl]
    exact ⟨hfree, hcut, rfl⟩
  · have hname : hdrMatch (line ++ 13 :: q) (ascii "location") = false := by
      rw [hdrMatch_line (by decide)]
      exact Bool.eq_false_iff.mpr hlocation
    obtain ⟨hlocation', hhas⟩ := parseHeaderLine_location (13 :: q) rsp hname
    rw [locationFrom, if_neg hlocation]
    exact ⟨h.noNul, hlocation'.trans h.cut, by rw [hlocation', hhas, h.has]⟩

theorem parseHeaderLines_location {lines : List (List UInt8)}
    (hlines : ∀ line ∈ lines, line ≠ [] ∧ CrlfFree line) (tail : List UInt8)
    {out : HttpResponse} {location : List UInt8} (hout : out.Keeps location) :
    (parseHeaderLines tail (sectionBytes lines ++ tail) out).Keeps
      ((lines.takeWhile fun line => !line.contains 0).foldl locationFrom location) := by
  induction lines generalizing out location with
  | nil =>
      rw [parseHeaderLines_nil]
      exact hout
  | cons line lines ih =>
      obtain ⟨⟨-, hfree⟩, hrest⟩ := List.forall_mem_cons.mp hlines
      rw [parseHeaderLines_cons hfree]
      dsimp only
      by_cases hnul : 0 ∈ line
      · rw [if_pos hnul, List.takeWhile_cons_of_neg (by simpa using hnul)]
        exact hout
      · rw [if_neg hnul, List.takeWhile_cons_of_pos (by simpa using hnul), List.foldl_cons]
        exact ih hrest (hout.line hnul _)

/-- A response keeps what fits of the Location of its head. -/
theorem Head.parse_location {head : Head} {tail : List UInt8} {n len : Nat} {rsp : HttpResponse}
    (hn : head.bytes.length ≤ n)
    (hparse : parseResponseHeaders (head.bytes ++ tail) n = .ok (len, rsp)) :
    rsp.Keeps head.location := by
  have hstart (status : Int) : {HttpResponse.zero with status := status}.Keeps [] :=
    ⟨by simp, rfl, rfl⟩
  rw [head.parse_eq tail hn] at hparse
  split at hparse
  · cases hparse
  · split at hparse
    · cases hparse
    · split at hparse
      · cases hparse
      · rw [Except.ok.injEq, Prod.mk.injEq] at hparse
        obtain ⟨-, rfl⟩ := hparse
        exact parseHeaderLines_location head.linesFree tail (hstart _)

/-! The requests. -/

/-- Whether `http_request_once` goes on to connect for a URL. -/
def accepts (b : Board) (url : List UInt8) : Bool :=
  match parseUrl url with
  | .error _ => false
  | .ok u => b.inetPton u.host

/-- A request, with the world and the head after it. -/
structure Ask where
  url : List UInt8
  world : World
  answer : Except Int (HttpResponse × ByteStream)

/-- The requests of `http_request_once` and of the redirects it returns, with
`hops` more of them allowed. -/
def asks (b : Board) (rangeFrom : UInt32) (hops : Nat) (w : World) (url : List UInt8) :
    List Ask :=
  if accepts b url then
    let (w, answer) := requestHead b w url rangeFrom
    ⟨url, w, answer⟩ ::
      match answer with
      | .error _ => []
      | .ok (rsp, _) =>
          if isRedirect rsp.status = true ∧ rsp.hasLocation = true then
            match hops with
            | 0 => []
            | hops + 1 =>
                if APP_OTA_HTTP_URL_MAX < strlen rsp.location then []
                else asks b rangeFrom hops (w.tick b).1 (text rsp.location)
          else []
  else []

/-- A request for `url` was answered with a redirect that has this Location. -/
def Ask.Redirects (a : Ask) (location : List UInt8) : Prop :=
  ∃ rsp bs head rest, a.answer = .ok (rsp, bs) ∧ isRedirect rsp.status = true ∧
    a.world.hdrbuf = Head.bytes head ++ rest ∧ location = head.location

/-- The requests of one `http_request`. -/
def requested (b : Board) (w : World) (r : HttpReq) : List Ask :=
  if APP_OTA_HTTP_URL_MAX < strlen r.url then []
  else asks b r.rangeFrom APP_OTA_HTTP_MAX_REDIRECTS w (text r.url)

theorem readHead_parsed {hdrbuf : List UInt8} {filled : Nat} {recvs : List (List UInt8)}
    {rsp : HttpResponse} {bs : ByteStream}
    (h : (readHead hdrbuf filled recvs).2 = .ok (rsp, bs)) :
    ∃ n len, parseResponseHeaders (readHead hdrbuf filled recvs).1 n = .ok (len, rsp) := by
  fun_induction readHead hdrbuf filled recvs with
  | case1 => cases h
  | case2 hdrbuf filled recvs hfull got rest hrecv hdrbuf' parsed rsp' hparse =>
      rw [Except.ok.injEq, Prod.mk.injEq] at h
      obtain ⟨rfl, -⟩ := h
      exact ⟨_, parsed, hparse⟩
  | case3 _ _ _ _ _ _ _ _ _ ih => exact ih h
  | case4 => cases h
  | case5 => cases h

/-- A head that was parsed stands at the beginning of the buffer. -/
theorem requestHead_received {b : Board} {w w' : World} {url : List UInt8} {rangeFrom : UInt32}
    {rsp : HttpResponse} {bs : ByteStream}
    (h : requestHead b w url rangeFrom = (w', .ok (rsp, bs))) :
    ∃ head rest, w'.hdrbuf = Head.bytes head ++ rest ∧ rsp.Keeps head.location := by
  unfold requestHead at h
  split at h
  · cases h
  case h_2 w₁ recvs hopen =>
      obtain ⟨hworld, hhead⟩ := Prod.mk.inj h
      obtain ⟨n, len, hparse⟩ := readHead_parsed hhead
      have hbuf : w'.hdrbuf = (readHead w₁.hdrbuf 0 recvs).1 := by rw [← hworld]
      rw [← hbuf] at hparse
      obtain ⟨hdrEnd, hend⟩ : ∃ hdrEnd, findHdrEnd n w'.hdrbuf = some hdrEnd := by
        unfold parseResponseHeaders at hparse
        split at hparse
        · cases hparse
        case h_2 hdrEnd hfound => exact ⟨hdrEnd, hfound⟩
      obtain ⟨head, hbytes, hlen⟩ := Head.of_findHdrEnd hend
      rw [hbytes] at hparse
      exact ⟨head, hdrEnd, hbytes, Head.parse_location hlen hparse⟩

/-- Without a URL that is accepted, there is no head. -/
theorem requestHead_not_accepted {b : Board} {url : List UInt8} (h : accepts b url = false)
    (w : World) (rangeFrom : UInt32) :
    ∃ w' rc, requestHead b w url rangeFrom = (w', .error rc) := by
  unfold accepts at h
  unfold requestHead openRequest
  cases hurl : parseUrl url with
  | error rc => exact ⟨_, _, rfl⟩
  | ok u =>
      rw [hurl] at h
      dsimp only at h ⊢
      rw [if_pos h]
      exact ⟨_, _, rfl⟩

/-- What a redirect says, whatever section it is read from. -/
theorem Ask.redirects_iff {a : Ask} {rsp : HttpResponse} {bs : ByteStream} {head : Head}
    {rest : List UInt8} (hanswer : a.answer = .ok (rsp, bs))
    (hredirect : isRedirect rsp.status = true) (hbuf : a.world.hdrbuf = head.bytes ++ rest)
    (location : List UInt8) : a.Redirects location ↔ location = head.location := by
  constructor
  · rintro ⟨rsp', bs', head', rest', -, -, hbuf', rfl⟩
    rw [Head.unique (hbuf.symm.trans hbuf')]
  · rintro rfl
    exact ⟨rsp, bs, head, rest, hanswer, hredirect, hbuf, rfl⟩

/-- A redirect to what the first bytes of a Location say, of which there are more. -/
def Ask.Cut (b : Board) (a : Ask) : Prop :=
  ∃ location, a.Redirects location ∧ APP_OTA_HTTP_URL_MAX < location.length ∧
    accepts b (location.take APP_OTA_HTTP_URL_MAX) = true

theorem HttpResponse.Keeps.text {rsp : HttpResponse} {location : List UInt8}
    (h : rsp.Keeps location) : text rsp.location = location.take APP_OTA_HTTP_URL_MAX := by
  rw [h.cut]
  apply text_eq_self
  intro hin
  exact h.noNul (List.mem_of_mem_take hin)

theorem HttpResponse.Keeps.strlen {rsp : HttpResponse} {location : List UInt8}
    (h : rsp.Keeps location) : ¬APP_OTA_HTTP_URL_MAX < strlen rsp.location := by
  rw [CString.strlen, h.text, List.length_take]
  omega

/-- Without a Location there is none that is too long. -/
theorem HttpResponse.Keeps.none {rsp : HttpResponse} {location : List UInt8}
    (h : rsp.Keeps location) (hhas : rsp.hasLocation = false) : location = [] := by
  cases location with
  | nil => rfl
  | cons c location =>
      have hderef : deref rsp.location = c := by
        rw [h.cut]
        rfl
      have hzero := h.has
      rw [hhas, hderef, eq_comm, decide_eq_false_iff_not, not_not] at hzero
      exact absurd (hzero ▸ List.mem_cons_self) h.noNul

/-- The walk, one hop at a time. -/
theorem asks_not_accepted {b : Board} {url : List UInt8} (h : accepts b url = false)
    (rangeFrom : UInt32) (hops : Nat) (w : World) : asks b rangeFrom hops w url = [] := by
  unfold asks
  rw [h, if_neg Bool.false_ne_true]

theorem asks_error {b : Board} {url : List UInt8} (h : accepts b url = true)
    {rangeFrom : UInt32} {w w' : World} {rc : Int}
    (hhead : requestHead b w url rangeFrom = (w', .error rc)) (hops : Nat) :
    asks b rangeFrom hops w url = [⟨url, w', .error rc⟩] := by
  unfold asks
  rw [if_pos h, hhead]

theorem asks_final {b : Board} {url : List UInt8} (h : accepts b url = true)
    {rangeFrom : UInt32} {w w' : World} {rsp : HttpResponse} {bs : ByteStream}
    (hhead : requestHead b w url rangeFrom = (w', .ok (rsp, bs)))
    (hfinal : ¬(isRedirect rsp.status = true ∧ rsp.hasLocation = true)) (hops : Nat) :
    asks b rangeFrom hops w url = [⟨url, w', .ok (rsp, bs)⟩] := by
  unfold asks
  rw [if_pos h, hhead]
  dsimp only
  rw [if_neg hfinal]

theorem asks_redirect {b : Board} {url : List UInt8} (h : accepts b url = true)
    {rangeFrom : UInt32} {w w' : World} {rsp : HttpResponse} {bs : ByteStream}
    {location : List UInt8} (hhead : requestHead b w url rangeFrom = (w', .ok (rsp, bs)))
    (hkeeps : rsp.Keeps location)
    (hredirect : isRedirect rsp.status = true ∧ rsp.hasLocation = true) (hops : Nat) :
    asks b rangeFrom hops w url = ⟨url, w', .ok (rsp, bs)⟩ ::
      match hops with
      | 0 => []
      | hops + 1 => asks b rangeFrom hops (w'.tick b).1 (location.take APP_OTA_HTTP_URL_MAX) := by
  rw [asks, if_pos h, hhead]
  dsimp only
  rw [if_pos hredirect]
  cases hops with
  | zero => rfl
  | succ hops =>
      dsimp only
      rw [if_neg hkeeps.strlen, hkeeps.text]

theorem asks_accepted {b : Board} {url : List UInt8} (h : accepts b url = true)
    (rangeFrom : UInt32) (hops : Nat) (w : World) :
    ∃ a ∈ (asks b rangeFrom hops w url).head?, a.url = url := by
  unfold asks
  rw [if_pos h]
  exact ⟨_, rfl, rfl⟩

theorem asks_head {b : Board} {rangeFrom : UInt32} {hops : Nat} {w : World}
    {url : List UInt8} {a : Ask} (ha : a ∈ (asks b rangeFrom hops w url).head?) :
    a.url = url ∧ accepts b url = true := by
  unfold asks at ha
  split at ha
  case isTrue haccepts =>
      obtain rfl := Option.some.inj ha
      exact ⟨rfl, haccepts⟩
  case isFalse => cases ha

/-- How one hop goes: the URL is refused, no head comes, the head leads nowhere, or
it is a redirect. -/
theorem hop_cases (b : Board) (rangeFrom : UInt32) (w : World) (url : List UInt8) :
    (accepts b url = false ∧ ∃ w' rc, requestHead b w url rangeFrom = (w', .error rc)) ∨
    (accepts b url = true ∧ ∃ w' rc, requestHead b w url rangeFrom = (w', .error rc)) ∨
    (accepts b url = true ∧ ∃ w' rsp bs head rest,
      requestHead b w url rangeFrom = (w', .ok (rsp, bs)) ∧
        w'.hdrbuf = Head.bytes head ++ rest ∧ rsp.Keeps head.location ∧
        ¬(isRedirect rsp.status = true ∧ rsp.hasLocation = true)) ∨
    (accepts b url = true ∧ ∃ w' rsp bs head rest,
      requestHead b w url rangeFrom = (w', .ok (rsp, bs)) ∧
        w'.hdrbuf = Head.bytes head ++ rest ∧ rsp.Keeps head.location ∧
        isRedirect rsp.status = true ∧ rsp.hasLocation = true) := by
  cases haccepts : accepts b url with
  | false => exact .inl ⟨rfl, requestHead_not_accepted haccepts w rangeFrom⟩
  | true =>
      rcases hhead : requestHead b w url rangeFrom with ⟨w', rc | ⟨rsp, bs⟩⟩
      · exact .inr (.inl ⟨rfl, w', rc, rfl⟩)
      · obtain ⟨head, rest, hbuf, hkeeps⟩ := requestHead_received hhead
        by_cases hredirect : isRedirect rsp.status = true ∧ rsp.hasLocation = true
        · exact .inr (.inr (.inr ⟨rfl, w', rsp, bs, head, rest, rfl, hbuf, hkeeps, hredirect⟩))
        · exact .inr (.inr (.inl ⟨rfl, w', rsp, bs, head, rest, rfl, hbuf, hkeeps, hredirect⟩))

theorem asks_length (b : Board) (rangeFrom : UInt32) (hops : Nat) (w : World)
    (url : List UInt8) : (asks b rangeFrom hops w url).length ≤ hops + 1 := by
  induction hops generalizing w url with
  | zero =>
      rcases hop_cases b rangeFrom w url with ⟨hno, -⟩ | ⟨hyes, w', rc, hhead⟩ |
        ⟨hyes, w', rsp, bs, head, rest, hhead, -, -, hfinal⟩ |
        ⟨hyes, w', rsp, bs, head, rest, hhead, -, hkeeps, hredirect⟩
      · simp [asks_not_accepted hno]
      · simp [asks_error hyes hhead]
      · simp [asks_final hyes hhead hfinal]
      · simp [asks_redirect hyes hhead hkeeps hredirect]
  | succ hops ih =>
      rcases hop_cases b rangeFrom w url with ⟨hno, -⟩ | ⟨hyes, w', rc, hhead⟩ |
        ⟨hyes, w', rsp, bs, head, rest, hhead, -, -, hfinal⟩ |
        ⟨hyes, w', rsp, bs, head, rest, hhead, -, hkeeps, hredirect⟩
      · simp [asks_not_accepted hno]
      · simp [asks_error hyes hhead]
      · simp [asks_final hyes hhead hfinal]
      · rw [asks_redirect hyes hhead hkeeps hredirect, List.length_cons]
        exact Nat.succ_le_succ (ih _ _)

/-- Each request goes where the redirect before it says, exactly if none is cut
while there are hops left. -/
theorem asks_follow_iff (b : Board) (rangeFrom : UInt32) (hops : Nat) (w : World)
    (url : List UInt8) :
    (asks b rangeFrom hops w url).IsChain (fun a a' => a.Redirects a'.url) ↔
      ∀ a ∈ (asks b rangeFrom hops w url).take hops, ¬a.Cut b := by
  induction hops generalizing w url with
  | zero =>
      have hlen := asks_length b rangeFrom 0 w url
      rw [List.take_zero]
      generalize asks b rangeFrom 0 w url = l at hlen
      cases l with
      | nil => simp
      | cons a l =>
          obtain rfl : l = [] := List.length_eq_zero_iff.mp (by simpa using hlen)
          simp
  | succ hops ih =>
      rcases hop_cases b rangeFrom w url with ⟨hno, -⟩ | ⟨hyes, w', rc, hhead⟩ |
        ⟨hyes, w', rsp, bs, head, rest, hhead, hbuf, hkeeps, hfinal⟩ |
        ⟨hyes, w', rsp, bs, head, rest, hhead, hbuf, hkeeps, hredirect⟩
      · simp [asks_not_accepted hno]
      · have hnot : ¬Ask.Cut b ⟨url, w', .error rc⟩ := by
          rintro ⟨location, ⟨rsp, bs, head, rest, hanswer, -⟩, -⟩
          cases hanswer
        simp [asks_error hyes hhead, hnot]
      · have hnot : ¬Ask.Cut b ⟨url, w', .ok (rsp, bs)⟩ := by
          rintro ⟨location, hredirects, hlong, -⟩
          obtain ⟨rsp', bs', head', rest', hanswer, hstatus, -⟩ := id hredirects
          cases hanswer
          have hnone : rsp.hasLocation = false := by
            rw [← Bool.not_eq_true]
            exact fun hhas => hfinal ⟨hstatus, hhas⟩
          rw [(Ask.redirects_iff rfl hstatus hbuf _).mp hredirects, hkeeps.none hnone] at hlong
          simp at hlong
        simp [asks_final hyes hhead hfinal, hnot]
      · have hredirects := Ask.redirects_iff (a := ⟨url, w', .ok (rsp, bs)⟩) rfl hredirect.1 hbuf
        rw [asks_redirect hyes hhead hkeeps hredirect, List.take_succ_cons, List.isChain_cons,
          List.forall_mem_cons, ih]
        dsimp only
        refine and_congr_left fun _ => ?_
        constructor
        · rintro hnext ⟨location, hto, hlong, haccepts⟩
          obtain rfl := (hredirects location).mp hto
          obtain ⟨a', ha', hurl⟩ := asks_accepted haccepts rangeFrom hops (w'.tick b).1
          have hfollows := (hredirects _).mp (hnext a' ha')
          rw [← hfollows, hurl, List.length_take] at hlong
          omega
        · intro hcut a' ha'
          obtain ⟨hurl, haccepts⟩ := asks_head ha'
          rw [hredirects, hurl, List.take_eq_self_iff]
          by_contra hlong
          exact hcut ⟨head.location, (hredirects _).mpr rfl, Nat.lt_of_not_le hlong, haccepts⟩

theorem finalHead_no_location {b : Board} {rangeFrom : UInt32} {w w' : World}
    {url : List UInt8} {rsp : HttpResponse} {bs : ByteStream}
    (hhead : requestHead b w url rangeFrom = (w', .ok (rsp, bs)))
    (hstatus : isRedirect rsp.status = true) (hnone : rsp.hasLocation = false) (hops : Nat) :
    ∃ w' rc, finalHead b rangeFrom hops w url = (w', .error rc) := by
  cases hops with
  | zero => simp [finalHead, hhead, hstatus, hnone]
  | succ hops => simp [finalHead, hhead, hstatus, hnone]

/-- A head that is no redirect ends the walk and the list of requests. -/
theorem finalHead_final {b : Board} {rangeFrom : UInt32} {w w' : World} {url : List UInt8}
    {rsp : HttpResponse} {bs : ByteStream} (haccepts : accepts b url = true)
    (hhead : requestHead b w url rangeFrom = (w', .ok (rsp, bs)))
    (hstatus : isRedirect rsp.status = false) (hops : Nat) :
    (asks b rangeFrom hops w url).getLast? = some ⟨url, w', .ok (rsp, bs)⟩ ∧
      finalHead b rangeFrom hops w url = (w', .ok (rsp, bs)) := by
  have hfinal : ¬(isRedirect rsp.status = true ∧ rsp.hasLocation = true) := by
    rw [hstatus]
    exact fun h => Bool.false_ne_true h.1
  apply And.intro
  · rw [asks_final haccepts hhead hfinal, List.getLast?_singleton]
  · cases hops with
    | zero => simp [finalHead, hhead, hstatus]
    | succ hops => simp [finalHead, hhead, hstatus]

/-- The walk of `http_request` ends at the last of these requests, or fails. -/
theorem finalHead_asks (b : Board) (rangeFrom : UInt32) (hops : Nat) (w : World)
    (url : List UInt8) :
    (∃ w' rc, finalHead b rangeFrom hops w url = (w', .error rc)) ∨
      ∃ a rsp bs, (asks b rangeFrom hops w url).getLast? = some a ∧ a.answer = .ok (rsp, bs) ∧
        isRedirect rsp.status = false ∧
        finalHead b rangeFrom hops w url = (a.world, .ok (rsp, bs)) := by
  induction hops generalizing w url with
  | zero =>
      rcases hop_cases b rangeFrom w url with ⟨-, w', rc, hhead⟩ | ⟨-, w', rc, hhead⟩ |
        ⟨hyes, w', rsp, bs, head, rest, hhead, -, -, hfinal⟩ |
        ⟨-, w', rsp, bs, head, rest, hhead, -, hkeeps, hredirect, hhas⟩
      · simp [finalHead, hhead]
      · simp [finalHead, hhead]
      · cases hstatus : isRedirect rsp.status with
        | true =>
            have hnone : rsp.hasLocation = false := by simpa [hstatus] using hfinal
            exact .inl (finalHead_no_location hhead hstatus hnone _)
        | false =>
            obtain ⟨hlast, heq⟩ := finalHead_final hyes hhead hstatus _
            exact .inr ⟨⟨url, w', .ok (rsp, bs)⟩, rsp, bs, hlast, rfl, hstatus, heq⟩
      · simp [finalHead, hhead, hredirect, hhas]
  | succ hops ih =>
      rcases hop_cases b rangeFrom w url with ⟨-, w', rc, hhead⟩ | ⟨-, w', rc, hhead⟩ |
        ⟨hyes, w', rsp, bs, head, rest, hhead, -, -, hfinal⟩ |
        ⟨hyes, w', rsp, bs, head, rest, hhead, -, hkeeps, hredirect, hhas⟩
      · simp [finalHead, hhead]
      · simp [finalHead, hhead]
      · cases hstatus : isRedirect rsp.status with
        | true =>
            have hnone : rsp.hasLocation = false := by simpa [hstatus] using hfinal
            exact .inl (finalHead_no_location hhead hstatus hnone _)
        | false =>
            obtain ⟨hlast, heq⟩ := finalHead_final hyes hhead hstatus _
            exact .inr ⟨⟨url, w', .ok (rsp, bs)⟩, rsp, bs, hlast, rfl, hstatus, heq⟩
      · have hstep : finalHead b rangeFrom (hops + 1) w url =
            finalHead b rangeFrom hops (w'.tick b).1
              (head.location.take APP_OTA_HTTP_URL_MAX) := by
          rw [finalHead, hhead]
          simp only [hredirect, hhas, if_true, Bool.true_eq_false, if_false, hkeeps.text,
            if_neg hkeeps.strlen]
        rw [hstep, asks_redirect hyes hhead hkeeps ⟨hredirect, hhas⟩]
        rcases ih (w'.tick b).1 (head.location.take APP_OTA_HTTP_URL_MAX) with
          herror | ⟨a, rsp', bs', hlast, hanswer, hstatus, heq⟩
        · exact .inl herror
        · exact .inr ⟨a, rsp', bs', by simp [List.getLast?_cons, hlast], hanswer, hstatus, heq⟩

theorem asks_url {b : Board} {rangeFrom : UInt32} {hops : Nat} {w : World} {url : List UInt8}
    (hurl : url.length ≤ APP_OTA_HTTP_URL_MAX) :
    ∀ a ∈ asks b rangeFrom hops w url, a.url.length ≤ APP_OTA_HTTP_URL_MAX := by
  induction hops generalizing w url with
  | zero =>
      rcases hop_cases b rangeFrom w url with ⟨hno, -⟩ | ⟨hyes, w', rc, hhead⟩ |
        ⟨hyes, w', rsp, bs, head, rest, hhead, -, -, hfinal⟩ |
        ⟨hyes, w', rsp, bs, head, rest, hhead, -, hkeeps, hredirect⟩
      · simp [asks_not_accepted hno]
      · simpa [asks_error hyes hhead] using hurl
      · simpa [asks_final hyes hhead hfinal] using hurl
      · simpa [asks_redirect hyes hhead hkeeps hredirect] using hurl
  | succ hops ih =>
      rcases hop_cases b rangeFrom w url with ⟨hno, -⟩ | ⟨hyes, w', rc, hhead⟩ |
        ⟨hyes, w', rsp, bs, head, rest, hhead, -, -, hfinal⟩ |
        ⟨hyes, w', rsp, bs, head, rest, hhead, -, hkeeps, hredirect⟩
      · simp [asks_not_accepted hno]
      · simpa [asks_error hyes hhead] using hurl
      · simpa [asks_final hyes hhead hfinal] using hurl
      · rw [asks_redirect hyes hhead hkeeps hredirect, List.forall_mem_cons]
        exact ⟨hurl, ih (List.length_take_le _ _)⟩

/-! The whole of `http_request`. -/

/-- The answer to the last request, if it is no redirect; and otherwise an error
that leaves the sink as it was and does not depend on the hook. -/
def Ends (b : Board) (w : World) (r : HttpReq) : Prop :=
  (∃ a rsp bs, (requested b w r).getLast? = some a ∧ a.answer = .ok (rsp, bs) ∧
    isRedirect rsp.status = false ∧
    let (rc, w', sink) := httpAnswer b a.world r rsp bs
    httpRequest b w r = (rc, (w'.tick b).1, sink)) ∨
  ((httpRequest b w r).1 < 0 ∧ (httpRequest b w r).2.2 = r.sink ∧
    ∀ preCb, httpRequest b w {r with preCb := preCb} = httpRequest b w r)

/-- Each request but the first goes where the redirect before it says, the last one
decides about the result, and a Location that is too long ends in an error. -/
structure Faithful (b : Board) (w : World) (r : HttpReq) : Prop where
  count : (requested b w r).length ≤ APP_OTA_HTTP_MAX_REDIRECTS + 1
  first : ∀ a ∈ (requested b w r).head?, a.url = text r.url
  follows : (requested b w r).IsChain fun a a' => a.Redirects a'.url
  ends : Ends b w r
  long : ∀ a ∈ requested b w r, ∀ location, a.Redirects location →
    APP_OTA_HTTP_URL_MAX < location.length → (httpRequest b w r).1 < 0

theorem httpRequest_ends (b : Board) (w : World) (r : HttpReq) : Ends b w r := by
  by_cases hlong : APP_OTA_HTTP_URL_MAX < strlen r.url
  · right
    simp only [httpRequest, if_pos hlong]
    exact ⟨by decide, trivial, fun _ => trivial⟩
  have heq (preCb : Option PreStreamCb) : httpRequest b w {r with preCb := preCb} =
      httpFinish b {r with preCb := preCb} r.sink
        (finalHead b r.rangeFrom APP_OTA_HTTP_MAX_REDIRECTS w (text r.url)) := by
    rw [httpRequest, if_neg hlong, httpRequestFrom_eq]
  have hasked : requested b w r = asks b r.rangeFrom APP_OTA_HTTP_MAX_REDIRECTS w (text r.url) :=
    if_neg hlong
  have hrequest : httpRequest b w r = _ := heq r.preCb
  rcases finalHead_asks b r.rangeFrom APP_OTA_HTTP_MAX_REDIRECTS w (text r.url) with
    ⟨w', rc, hfinal⟩ | ⟨a, rsp, bs, hlast, hanswer, hstatus, hfinal⟩
  · right
    have hneg := (finalHead_spec b r.rangeFrom APP_OTA_HTTP_MAX_REDIRECTS w (text r.url)).1 rc
      (by rw [hfinal])
    rw [hrequest, hfinal]
    refine ⟨hneg, rfl, fun preCb => ?_⟩
    rw [heq, hfinal]
    rfl
  · left
    refine ⟨a, rsp, bs, by rw [hasked, hlast], hanswer, hstatus, ?_⟩
    rw [hrequest, hfinal]
    rfl

/-- In a chain, an element is the last one or related to another. -/
theorem chain_next {R : Ask → Ask → Prop} {l : List Ask} (h : l.IsChain R) {a z : Ask}
    (ha : a ∈ l) (hlast : l.getLast? = some z) : a = z ∨ ∃ a' ∈ l, R a a' := by
  induction h with
  | nil => cases ha
  | singleton x =>
      rw [List.mem_singleton] at ha
      rw [List.getLast?_singleton, Option.some.injEq] at hlast
      exact .inl (ha.trans hlast)
  | cons_cons hxy hrest ih =>
      rcases List.mem_cons.mp ha with rfl | hin
      · exact .inr ⟨_, by simp, hxy⟩
      · rw [List.getLast?_cons_cons] at hlast
        rcases ih hin hlast with heq | ⟨a', ha', hnext⟩
        · exact .inl heq
        · exact .inr ⟨a', List.mem_cons_of_mem _ ha', hnext⟩

theorem Ask.Redirects.unique {a : Ask} {location location' : List UInt8}
    (h : a.Redirects location) (h' : a.Redirects location') : location = location' := by
  obtain ⟨rsp, bs, head, rest, hanswer, hstatus, hbuf, rfl⟩ := h
  exact ((Ask.redirects_iff hanswer hstatus hbuf _).mp h').symm

/-- Redirects are followed faithfully exactly if no Location is cut to a URL that
is accepted while there are hops left. -/
theorem redirects_faithful_iff (b : Board) (w : World) (r : HttpReq) :
    Faithful b w r ↔
      ∀ a ∈ (requested b w r).take APP_OTA_HTTP_MAX_REDIRECTS, ¬a.Cut b := by
  by_cases hlong : APP_OTA_HTTP_URL_MAX < strlen r.url
  · have hnone : requested b w r = [] := if_pos hlong
    rw [hnone]
    constructor
    · simp
    · intro _
      exact ⟨by simp [hnone], by simp [hnone], by simp [hnone], httpRequest_ends b w r,
        by simp [hnone]⟩
  have hasked : requested b w r = asks b r.rangeFrom APP_OTA_HTTP_MAX_REDIRECTS w (text r.url) :=
    if_neg hlong
  rw [hasked, ← asks_follow_iff, ← hasked]
  constructor
  · exact fun h => h.follows
  · intro hfollows
    have hends := httpRequest_ends b w r
    refine ⟨?_, ?_, hfollows, hends, ?_⟩
    · rw [hasked]
      exact asks_length _ _ _ _ _
    · rw [hasked]
      exact fun a ha => (asks_head ha).1
    · intro a ha location hto hover
      rcases hends with ⟨z, rsp, bs, hlast, hanswer, hfinal, -⟩ | ⟨hneg, -, -⟩
      · rcases chain_next hfollows ha hlast with rfl | ⟨a', ha', hnext⟩
        · -- the last head is no redirect
          obtain ⟨rsp', bs', -, -, hanswer', hredirect, -, -⟩ := hto
          rw [hanswer, Except.ok.injEq, Prod.mk.injEq] at hanswer'
          rw [hanswer'.1, hredirect] at hfinal
          cases hfinal
        · rw [hto.unique hnext] at hover
          rw [hasked] at ha'
          have hshort := asks_url (Nat.le_of_not_lt hlong) a' ha'
          omega
      · exact hneg

/-- A Location of 246 bytes: port 8080 behind many zeros. -/
def longLocation : List UInt8 :=
  ascii "http://10.0.0.2:" ++ List.replicate 222 48 ++ ascii "8080/img"

def longRedirect : Head where
  first := ascii "HTTP/1.1 302 Found"
  lines := [ascii "Location: " ++ longLocation]
  firstFree := by decide
  linesFree := List.forall_mem_singleton.mpr ⟨by decide +kernel, by decide +kernel⟩

def redirectedRequest : HttpReq := ⟨ascii "http://10.0.0.1/", 0, ⟨.buffer, 0, [], 512⟩, none⟩

/-- A server that answers with this redirect; it accepts one connection. -/
def redirectingServer : World :=
  World.start (Sys.powerUp .blank) [] [⟨3, 0, [1024], [longRedirect.bytes]⟩]

/-- The first 240 bytes are a URL with port 80, and the request goes on there. -/
theorem longLocation_followed_cut :
    ¬∀ (b : Board) (w : World) (r : HttpReq), Faithful b w r := by
  intro hall
  let b : Board := ⟨⟨8⟩, fun _ => true⟩
  let w' := (requestHead b redirectingServer (ascii "http://10.0.0.1/") 0).1
  let rsp : HttpResponse := {HttpResponse.zero with
    status := 302
    location := longLocation.take 240
    hasLocation := true}
  have hanswer : (requestHead b redirectingServer (ascii "http://10.0.0.1/") 0).2 =
      .ok (rsp, ⟨[], []⟩) := by decide +kernel
  have hhead : requestHead b redirectingServer (ascii "http://10.0.0.1/") 0 =
      (w', .ok (rsp, ⟨[], []⟩)) := Prod.ext rfl hanswer
  have htaken : w'.hdrbuf.take longRedirect.bytes.length = longRedirect.bytes := by
    decide +kernel
  have hbuf : w'.hdrbuf = longRedirect.bytes ++ w'.hdrbuf.drop longRedirect.bytes.length := by
    rw [← congrArg (· ++ w'.hdrbuf.drop longRedirect.bytes.length) htaken]
    exact (List.take_append_drop _ _).symm
  obtain ⟨head, rest, hbuf', hkeeps⟩ := requestHead_received hhead
  have hfollows := (hall b redirectingServer redirectedRequest).follows
  have hshort : ¬APP_OTA_HTTP_URL_MAX < strlen redirectedRequest.url := by decide +kernel
  have htext : text redirectedRequest.url = ascii "http://10.0.0.1/" := by decide +kernel
  have hasked : requested b redirectingServer redirectedRequest =
      asks b 0 APP_OTA_HTTP_MAX_REDIRECTS redirectingServer (ascii "http://10.0.0.1/") := by
    rw [requested, if_neg hshort, htext]
    rfl
  have haccepts : accepts b (ascii "http://10.0.0.1/") = true := by decide +kernel
  rw [hasked, asks_follow_iff, asks_redirect haccepts hhead hkeeps ⟨rfl, rfl⟩] at hfollows
  apply hfollows _ List.mem_cons_self
  exact ⟨longRedirect.location, ⟨rsp, _, longRedirect, _, rfl, rfl, hbuf, rfl⟩, by decide +kernel,
    by decide +kernel⟩

end Rw612.Http
