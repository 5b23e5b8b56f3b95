import Rw612.Http.Message

/-!
Which URLs `parse_url` accepts. The grammar is scheme, host, port and path, with
the port field as a parameter: what stands behind the colon goes through
`strtol`, which takes more than digits.
-/

namespace Rw612.Http

open Lib.CString

structure HostField (host : List UInt8) : Prop where
  notEmpty : 1 ≤ host.length
  fits : host.length ≤ 63
  noSlash : 47 ∉ host
  noColon : 58 ∉ host

/-- What stands between host and path, and the port it means: nothing, or a
colon and a decimal number. -/
inductive PortField : List UInt8 → UInt16 → Prop where
  | absent : PortField [] 80
  | digits {digits : List UInt8} : digits ≠ [] → (∀ d ∈ digits, isDigit 10 d = true) →
      1 ≤ digitsValue 10 digits → digitsValue 10 digits ≤ 65535 →
      PortField (58 :: digits) (UInt16.ofNat (digitsValue 10 digits))

inductive PathField : List UInt8 → List UInt8 → Prop where
  | absent : PathField [] (ascii "/")
  | given {rest : List UInt8} : (47 :: rest).length ≤ 159 → PathField (47 :: rest) (47 :: rest)

/-- `url` is `[http://] host [port] [path]` with the parts `u`. -/
def UrlForm (Port : List UInt8 → UInt16 → Prop) (url : List UInt8) (u : UrlParts) : Prop :=
  ¬ascii "https://" <+: url ∧
  ∃ scheme port path, (scheme = [] ∨ scheme = ascii "http://") ∧
    url = scheme ++ (u.host ++ (port ++ path)) ∧
    HostField u.host ∧ Port port u.port ∧ PathField path u.path

/-- A number as `strtol` reads it, behind the colon. -/
inductive LenientPort : List UInt8 → UInt16 → Prop where
  | absent : LenientPort [] 80
  | number {text : List UInt8} {n : Nat} : 47 ∉ text → Reads text n → 1 ≤ n → n ≤ 65535 →
      LenientPort (58 :: text) (UInt16.ofNat n)

/-- Such a number with white space or a sign in front of it, or with other
characters behind it. -/
inductive SloppyPort : List UInt8 → UInt16 → Prop where
  | mk {text : List UInt8} {n : Nat} : 47 ∉ text → Reads text n → 1 ≤ n → n ≤ 65535 →
      (∃ c ∈ text, isDigit 10 c = false) → SloppyPort (58 :: text) (UInt16.ofNat n)

theorem PortField.lenient {port : List UInt8} {n : UInt16} (h : PortField port n) :
    LenientPort port n := by
  cases h with
  | absent => exact LenientPort.absent
  | digits hne hdigits hpos hmax =>
      apply LenientPort.number _ (reads_digits hne hdigits) hpos hmax
      intro hslash
      exact absurd (hdigits 47 hslash) (by decide)

theorem SloppyPort.lenient {port : List UInt8} {n : UInt16} (h : SloppyPort port n) :
    LenientPort port n := by
  obtain ⟨hslash, hreads, hpos, hmax, -⟩ := h
  exact LenientPort.number hslash hreads hpos hmax

theorem LenientPort.cases {port : List UInt8} {n : UInt16} (h : LenientPort port n) :
    PortField port n ∨ SloppyPort port n := by
  cases h with
  | absent => exact Or.inl PortField.absent
  | number hslash hreads hpos hmax =>
      rename_i text n
      by_cases hdigits : ∀ d ∈ text, isDigit 10 d = true
      · obtain rfl := hreads.digits_value hdigits
        exact Or.inl (PortField.digits hreads.ne_nil hdigits hpos hmax)
      · obtain ⟨c, hc⟩ := not_forall.mp hdigits
        obtain ⟨hin, hother⟩ := Classical.not_imp.mp hc
        apply Or.inr
        apply SloppyPort.mk hslash hreads hpos hmax
        exact Exists.intro c (And.intro hin (Bool.eq_false_iff.mpr hother))

theorem SloppyPort.not_portField {port : List UInt8} {n m : UInt16} (h : SloppyPort port n) :
    ¬PortField port m := by
  obtain ⟨hslash, hreads, hpos, hmax, c, hc, hother⟩ := h
  intro hport
  cases hport with
  | digits hne hdigits hpos hmax =>
      rw [hdigits c hc] at hother
      cases hother

/-! The fields of what follows the scheme. -/

/-- Host, port field and path, with the characters that separate them. -/
structure Fields (host port path : List UInt8) : Prop where
  hostFree : ∀ c ∈ host, c ≠ 47 ∧ c ≠ 58
  portFree : ∀ c ∈ port, c ≠ 47
  colon : port = [] ∨ ∃ text, port = 58 :: text
  slash : path = [] ∨ ∃ rest, path = 47 :: rest

theorem dropWhile_starts (c : UInt8) (p : List UInt8) :
    p.dropWhile (· != c) = [] ∨ ∃ rest, p.dropWhile (· != c) = c :: rest := by
  induction p with
  | nil => exact Or.inl rfl
  | cons b p ih =>
      by_cases hb : b = c
      · subst hb
        exact Or.inr (Exists.intro p (by simp))
      · rw [List.dropWhile_cons_of_pos (by simp [hb])]
        exact ih

theorem exists_fields (p : List UInt8) :
    ∃ host port path, p = host ++ (port ++ path) ∧ Fields host port path := by
  exists (p.takeWhile (· != 47)).takeWhile (· != 58), (p.takeWhile (· != 47)).dropWhile (· != 58),
    p.dropWhile (· != 47)
  apply And.intro
  · rw [← List.append_assoc, List.takeWhile_append_dropWhile, List.takeWhile_append_dropWhile]
  · constructor
    · intro c hc
      have hcolon := List.mem_takeWhile_imp hc
      have hslash := List.mem_takeWhile_imp ((List.takeWhile_prefix _).subset hc)
      exact And.intro (bne_iff_ne.mp hslash) (bne_iff_ne.mp hcolon)
    · intro c hc
      have hslash := List.mem_takeWhile_imp ((List.dropWhile_suffix _).subset hc)
      exact bne_iff_ne.mp hslash
    · exact dropWhile_starts 58 _
    · exact dropWhile_starts 47 p

/-- The port field lies between the first colon and the first slash. -/
theorem Fields.port_eq {host port path : List UInt8} (h : Fields host port path) :
    port = ((host ++ (port ++ path)).takeWhile (· != 47)).dropWhile (· != 58) := by
  have hfront : ∀ c ∈ host ++ port, (c != 47) = true := by
    intro c hc
    rw [bne_iff_ne]
    rcases List.mem_append.mp hc with hin | hin
    · exact (h.hostFree c hin).1
    · exact h.portFree c hin
  have hpath : path.takeWhile (· != 47) = [] := by
    rcases h.slash with rfl | ⟨rest, rfl⟩
    · rfl
    · rfl
  have hhost : ∀ c ∈ host, (c != 58) = true := by
    intro c hc
    exact bne_iff_ne.mpr (h.hostFree c hc).2
  rw [← List.append_assoc, List.takeWhile_append_of_pos hfront, hpath, List.append_nil,
    List.dropWhile_append_of_pos hhost]
  rcases h.colon with rfl | ⟨text, rfl⟩
  · rfl
  · rfl

theorem Fields.port_unique {host port path host' port' path' : List UInt8}
    (h : Fields host port path) (h' : Fields host' port' path')
    (heq : host ++ (port ++ path) = host' ++ (port' ++ path')) : port = port' := by
  rw [h.port_eq, heq, ← h'.port_eq]

/-- `p` behind the scheme, if there is one. -/
def afterScheme (url : List UInt8) : List UInt8 :=
  if (ascii "http://").isPrefixOf url then url.drop 7 else url

/-- A scheme that is left out is not taken for one that is there: it would read
as the host `http` with nothing behind the colon. -/
theorem Fields.no_scheme {host port path : List UInt8} (h : Fields host port path)
    (hport : port ≠ [58]) : (ascii "http://").isPrefixOf (host ++ (port ++ path)) = false := by
  rw [Bool.eq_false_iff, ne_eq, List.isPrefixOf_iff_prefix]
  rintro ⟨rest, hrest⟩
  have hhost : (ascii "http").all (fun c => c != 47 && c != 58) = true := by decide
  have hscheme : Fields (ascii "http") [58] (47 :: 47 :: rest) := by
    constructor
    · intro c hc
      simpa using List.all_eq_true.mp hhost c hc
    · simp
    · exact Or.inr (Exists.intro [] rfl)
    · exact Or.inr (Exists.intro (47 :: rest) rfl)
  exact hport (h.port_unique hscheme hrest.symm)

theorem Fields.scheme_dropped {host port path scheme : List UInt8} (h : Fields host port path)
    (hport : port ≠ [58]) (hscheme : scheme = [] ∨ scheme = ascii "http://") :
    afterScheme (scheme ++ (host ++ (port ++ path))) = host ++ (port ++ path) := by
  rcases hscheme with rfl | rfl
  · rw [List.nil_append, afterScheme, h.no_scheme hport]
    rfl
  · rw [afterScheme, if_pos (List.isPrefixOf_iff_prefix.mpr (List.prefix_append _ _))]
    change (ascii "http://" ++ _).drop (ascii "http://").length = _
    exact List.drop_left

/-! What `parse_url` makes of the fields. -/

theorem mem_afterScheme {url : List UInt8} {c : UInt8} (h : c ∈ afterScheme url) : c ∈ url := by
  unfold afterScheme at h
  split at h
  · exact List.mem_of_mem_drop h
  · exact h

theorem parseUrl_https {url : List UInt8} (h : ascii "https://" <+: url) :
    parseUrl url = .error (-2) := by
  obtain ⟨rest, rfl⟩ := h
  rfl

theorem refused_iff {rc : Int} {u : UrlParts} {P : Prop} (h : ¬P) :
    (.error rc : Except Int UrlParts) = .ok u ↔ P := by
  apply iff_of_false
  · intro hok
    cases hok
  · exact h

theorem parseUrlPath_ok_iff {host path : List UInt8} {port : UInt16} {u : UrlParts}
    (hslash : path = [] ∨ ∃ rest, path = 47 :: rest) (hnul : 0 ∉ path) :
    parseUrlPath host port path = .ok u ↔
      u.host = host ∧ u.port = port ∧ PathField path u.path := by
  obtain ⟨uhost, upath, uport⟩ := u
  rcases hslash with rfl | ⟨rest, rfl⟩
  · have hok : parseUrlPath host port [] = .ok ⟨host, ascii "/", port⟩ := rfl
    rw [hok]
    apply Iff.intro
    · intro h
      cases h
      exact And.intro rfl (And.intro rfl PathField.absent)
    · rintro ⟨rfl, rfl, hpath⟩
      cases hpath
      rfl
  · have hpath : ¬deref (47 :: rest) = 0 := by
      change ¬(47 : UInt8) = 0
      decide
    rw [parseUrlPath, if_neg hpath, strlen, text_eq_self hnul]
    split
    case isTrue hlong =>
        apply refused_iff
        rintro ⟨-, -, hpath⟩
        cases hpath with
        | given hfits => omega
    case isFalse hfits =>
        apply Iff.intro
        · intro h
          cases h
          exact And.intro rfl (And.intro rfl (PathField.given (by omega)))
        · rintro ⟨rfl, rfl, hpath⟩
          cases hpath
          rfl

/-- `strtol` does not read across the slash. -/
theorem strtol_before_slash (text rest : List UInt8) :
    strtol 10 (text ++ 47 :: rest) = strtol 10 text := by
  by_cases hblank : Blank text
  · have hnothing := hblank.strtol 10 []
    rw [List.append_nil] at hnothing
    rw [hblank.strtol, hnothing]
    rfl
  · exact strtol_append hblank (by decide) rest

theorem Fields.strchr_slash {host port path : List UInt8} (h : Fields host port path)
    (hnul : 0 ∉ host ++ (port ++ path)) :
    strchr 47 (host ++ (port ++ path)) = if path = [] then none else some path := by
  rw [← List.append_assoc] at hnul ⊢
  have hfront : ∀ c ∈ host ++ port, c ≠ 0 ∧ c ≠ 47 := by
    intro c hc
    apply And.intro
    · intro hzero
      rw [hzero] at hc
      exact hnul (List.mem_append_left path hc)
    · rcases List.mem_append.mp hc with hin | hin
      · exact (h.hostFree c hin).1
      · exact h.portFree c hin
  rcases h.slash with rfl | ⟨rest, rfl⟩
  · rw [List.append_nil, if_pos rfl]
    exact strchr_eq_none (fun c hc => (hfront c hc).2)
  · rw [strchr_append rest hfront, if_neg (List.cons_ne_nil 47 rest)]

theorem plain_scheme {url : List UInt8} (hsecure : ¬ascii "https://" <+: url) :
    ¬((ascii "http://").isPrefixOf url = false ∧ (ascii "https://").isPrefixOf url = true) := by
  rintro ⟨-, hprefix⟩
  exact hsecure (List.isPrefixOf_iff_prefix.mp hprefix)

/-- Without a port field, the first colon is in the path. -/
theorem Fields.colon_in_path {host path colon : List UInt8} (h : Fields host [] path)
    (hcolon : strchr 58 (host ++ path) = some colon) : colon.length ≤ path.length := by
  obtain ⟨front, back, hsplit, rfl, -⟩ := strchr_eq_some hcolon
  rcases List.append_eq_append_iff.mp hsplit with ⟨mid, -, rfl⟩ | ⟨mid, hhost, hback⟩
  · rw [List.length_append]
    exact Nat.le_add_left _ _
  · cases mid with
    | nil =>
        rw [hback]
        exact Nat.le_refl _
    | cons c mid =>
        cases hback
        have hin : 58 ∈ host := by
          rw [hhost]
          exact List.mem_append_right front List.mem_cons_self
        exact absurd rfl (h.hostFree 58 hin).2

theorem Fields.parseUrl_without_port {url host path : List UInt8} (h : Fields host [] path)
    (hsecure : ¬ascii "https://" <+: url) (hafter : afterScheme url = host ++ path)
    (hnul : 0 ∉ host ++ path) :
    parseUrl url = if host.length = 0 ∨ 64 ≤ host.length then .error (-3)
      else parseUrlPath host 80 path := by
  have hslash : strchr 47 (host ++ path) = if path = [] then none else some path :=
    h.strchr_slash hnul
  rw [afterScheme] at hafter
  rw [parseUrl, if_neg (plain_scheme hsecure), hafter]
  rcases h.slash with rfl | ⟨rest, rfl⟩
  · have hcolon : strchr 58 (host ++ []) = none := by
      rw [List.append_nil]
      exact strchr_eq_none (fun c hc => (h.hostFree c hc).2)
    have hlen : strlen (host ++ []) = host.length := by
      rw [strlen, text_eq_self hnul, List.append_nil]
    simp only [hslash, hcolon, hlen, if_true, Option.getD_none, List.take_left, List.drop_left]
  · have hlen : (host ++ 47 :: rest).length - (47 :: rest).length = host.length := by
      rw [List.length_append, Nat.add_sub_cancel]
    simp only [hslash, if_neg (List.cons_ne_nil 47 rest), hlen, Option.getD_some, List.take_left,
      Option.map_some]
    split
    · rfl
    · rename_i colon hcolon
      rw [if_neg (Nat.not_lt.mpr (h.colon_in_path hcolon))]

theorem Fields.parseUrl_with_port {url host text path : List UInt8}
    (h : Fields host (58 :: text) path) (hsecure : ¬ascii "https://" <+: url)
    (hafter : afterScheme url = host ++ (58 :: text ++ path))
    (hnul : 0 ∉ host ++ (58 :: text ++ path)) :
    parseUrl url = if host.length = 0 ∨ 64 ≤ host.length then .error (-3)
      else if strtol 10 text ≤ 0 ∨ 65535 < strtol 10 text then .error (-4)
      else parseUrlPath host (UInt16.ofNat (strtol 10 text).toNat) path := by
  have hslash := h.strchr_slash hnul
  have hcolon : strchr 58 (host ++ (58 :: text ++ path)) = some (58 :: (text ++ path)) := by
    apply strchr_append
    intro c hc
    apply And.intro
    · intro hzero
      rw [hzero] at hc
      exact hnul (List.mem_append_left _ hc)
    · exact (h.hostFree c hc).2
  have hlen : (host ++ (58 :: text ++ path)).length - (58 :: (text ++ path)).length =
      host.length := by
    rw [← List.cons_append, List.length_append, Nat.add_sub_cancel]
  have hport : strtol 10 (text ++ path) = strtol 10 text := by
    rcases h.slash with rfl | ⟨rest, rfl⟩
    · rw [List.append_nil]
    · exact strtol_before_slash text rest
  have hbefore : ((strchr 47 (host ++ (58 :: text ++ path))).map List.length).getD 0 <
      (58 :: (text ++ path)).length := by
    rw [hslash]
    split_ifs with hpath
    · exact Nat.succ_pos _
    · change path.length < (58 :: (text ++ path)).length
      rw [List.length_cons, List.length_append]
      omega
  have hrest : (strchr 47 (host ++ (58 :: text ++ path))).getD
      ((58 :: (text ++ path)).drop (strlen (58 :: (text ++ path)))) = path := by
    rw [hslash]
    split_ifs with hpath
    · subst hpath
      have hfree : 0 ∉ 58 :: (text ++ []) := fun hin => hnul (List.mem_append_right host hin)
      rw [strlen, text_eq_self hfree, List.drop_length]
      rfl
    · rfl
  rw [afterScheme] at hafter
  rw [parseUrl, if_neg (plain_scheme hsecure), hafter]
  simp only [hcolon, hlen, hrest, hbefore, List.take_left, List.drop_succ_cons, List.drop_zero,
    hport, if_true]

/-! The URLs that are accepted. -/

theorem lenientPort_number_iff {text : List UInt8} (hslash : 47 ∉ text) (n : UInt16) :
    LenientPort (58 :: text) n ↔
      ¬(strtol 10 text ≤ 0 ∨ 65535 < strtol 10 text) ∧ UInt16.ofNat (strtol 10 text).toNat = n := by
  apply Iff.intro
  · intro h
    cases h with
    | @number _ value _ hreads hpos hmax =>
        have hvalue : strtol 10 text = (value : Int) :=
          (strtol_eq_iff hpos (by omega)).mpr hreads
        rw [hvalue, Int.toNat_natCast]
        apply And.intro
        · omega
        · rfl
  · rintro ⟨hrange, rfl⟩
    obtain ⟨value, hvalue⟩ := Int.eq_ofNat_of_zero_le (show 0 ≤ strtol 10 text by omega)
    have hpos : 0 < value := by omega
    have hreads : Reads text value := (strtol_eq_iff hpos (by omega)).mp hvalue
    rw [hvalue]
    exact LenientPort.number hslash hreads hpos (by omega)

theorem lenientPort_absent_iff (n : UInt16) : LenientPort [] n ↔ n = 80 := by
  apply Iff.intro
  · intro h
    cases h
    rfl
  · rintro rfl
    exact LenientPort.absent

theorem Fields.accepted_iff {url host port path : List UInt8} (h : Fields host port path)
    (hsecure : ¬ascii "https://" <+: url) (hafter : afterScheme url = host ++ (port ++ path))
    (hnul : 0 ∉ host ++ (port ++ path)) (u : UrlParts) :
    parseUrl url = .ok u ↔
      ¬(host.length = 0 ∨ 64 ≤ host.length) ∧ u.host = host ∧ LenientPort port u.port ∧
        PathField path u.path := by
  have hpath : 0 ∉ path := fun hin =>
    hnul (List.mem_append_right host (List.mem_append_right port hin))
  rcases h.colon with rfl | ⟨text, rfl⟩
  · rw [h.parseUrl_without_port hsecure hafter hnul, lenientPort_absent_iff]
    split
    case isTrue hbad =>
        exact refused_iff (fun hform => hform.1 hbad)
    case isFalse hfits => rw [parseUrlPath_ok_iff h.slash hpath, and_iff_right hfits]
  · have htext : 47 ∉ text := fun hin => h.portFree 47 (List.mem_cons_of_mem 58 hin) rfl
    rw [h.parseUrl_with_port hsecure hafter hnul, lenientPort_number_iff htext]
    split
    case isTrue hbad =>
        exact refused_iff (fun hform => hform.1 hbad)
    case isFalse hfits =>
        rw [and_iff_right hfits]
        split
        case isTrue hrange =>
            exact refused_iff (fun hform => hform.2.1.1 hrange)
        case isFalse hrange =>
            rw [parseUrlPath_ok_iff h.slash hpath, and_iff_right hrange, eq_comm (b := u.port)]

theorem LenientPort.starts {port : List UInt8} {n : UInt16} (h : LenientPort port n) :
    (∀ c ∈ port, c ≠ 47) ∧ (port = [] ∨ ∃ text, port = 58 :: text) ∧ port ≠ [58] := by
  cases h with
  | absent => simp
  | @number text n hslash hreads _ _ =>
      apply And.intro
      · intro c hc
        rcases List.mem_cons.mp hc with rfl | hin
        · decide
        · rintro rfl
          exact hslash hin
      apply And.intro
      · exact Or.inr (Exists.intro text rfl)
      · intro hbare
        exact hreads.ne_nil (List.cons.inj hbare).2

theorem PathField.starts {path upath : List UInt8} (h : PathField path upath) :
    path = [] ∨ ∃ rest, path = 47 :: rest := by
  cases h with
  | absent => exact Or.inl rfl
  | @given rest _ => exact Or.inr (Exists.intro rest rfl)

theorem HostField.fields {host port path upath : List UInt8} {n : UInt16} (hhost : HostField host)
    (hport : LenientPort port n) (hpath : PathField path upath) : Fields host port path where
  hostFree := by
    intro c hc
    apply And.intro
    · rintro rfl
      exact hhost.noSlash hc
    · rintro rfl
      exact hhost.noColon hc
  portFree := hport.starts.1
  colon := hport.starts.2.1
  slash := hpath.starts

theorem scheme_append_afterScheme (url : List UInt8) :
    ∃ scheme, (scheme = [] ∨ scheme = ascii "http://") ∧ url = scheme ++ afterScheme url := by
  unfold afterScheme
  split
  case isTrue hprefix =>
      obtain ⟨rest, rfl⟩ := List.isPrefixOf_iff_prefix.mp hprefix
      exact Exists.intro (ascii "http://") (And.intro (Or.inr rfl) rfl)
  case isFalse =>
      exact Exists.intro [] (And.intro (Or.inl rfl) rfl)

/-- The grammar that `parse_url` accepts. -/
theorem parseUrl_ok_iff {url : List UInt8} (hnul : 0 ∉ url) (u : UrlParts) :
    parseUrl url = .ok u ↔ UrlForm LenientPort url u := by
  apply Iff.intro
  · intro hok
    have hsecure : ¬ascii "https://" <+: url := by
      intro hprefix
      rw [parseUrl_https hprefix] at hok
      cases hok
    obtain ⟨scheme, hscheme, hurl⟩ := scheme_append_afterScheme url
    obtain ⟨host, port, path, hsplit, hfields⟩ := exists_fields (afterScheme url)
    have hfree : 0 ∉ host ++ (port ++ path) := by
      rw [← hsplit]
      exact fun hin => hnul (mem_afterScheme hin)
    obtain ⟨hfits, rfl, hport, hpath⟩ := (hfields.accepted_iff hsecure hsplit hfree u).mp hok
    rw [hsplit] at hurl
    apply And.intro hsecure
    exists scheme, port, path
    apply And.intro hscheme
    apply And.intro hurl
    apply And.intro _ (And.intro hport hpath)
    constructor
    · omega
    · omega
    · exact fun hin => (hfields.hostFree 47 hin).1 rfl
    · exact fun hin => (hfields.hostFree 58 hin).2 rfl
  · rintro ⟨hsecure, scheme, port, path, hscheme, hurl, hhost, hport, hpath⟩
    have hfields := hhost.fields hport hpath
    have hafter : afterScheme url = u.host ++ (port ++ path) := by
      rw [hurl]
      exact hfields.scheme_dropped hport.starts.2.2 hscheme
    have hfree : 0 ∉ u.host ++ (port ++ path) := by
      rw [← hafter]
      exact fun hin => hnul (mem_afterScheme hin)
    apply (hfields.accepted_iff hsecure hafter hfree u).mpr
    have hmin := hhost.notEmpty
    have hmax := hhost.fits
    exact ⟨by omega, rfl, hport, hpath⟩

theorem UrlForm.mono {Port Port' : List UInt8 → UInt16 → Prop}
    (h : ∀ port n, Port port n → Port' port n) {url : List UInt8} {u : UrlParts}
    (hform : UrlForm Port url u) : UrlForm Port' url u := by
  obtain ⟨hsecure, scheme, port, path, hscheme, hurl, hhost, hport, hpath⟩ := hform
  exact ⟨hsecure, scheme, port, path, hscheme, hurl, hhost, h port u.port hport, hpath⟩

/-- A URL has one port field. -/
theorem UrlForm.sloppy_exclusive {url : List UInt8} {u v : UrlParts}
    (h : UrlForm SloppyPort url u) : ¬UrlForm PortField url v := by
  obtain ⟨-, scheme, port, path, hscheme, hurl, hhost, hport, hpath⟩ := h
  rintro ⟨-, scheme', port', path', hscheme', hurl', hhost', hport', hpath'⟩
  have hfields := hhost.fields hport.lenient hpath
  have hfields' := hhost'.fields hport'.lenient hpath'
  have hafter := hfields.scheme_dropped hport.lenient.starts.2.2 hscheme
  have hafter' := hfields'.scheme_dropped hport'.lenient.starts.2.2 hscheme'
  rw [← hurl] at hafter
  rw [← hurl', hafter] at hafter'
  obtain rfl := hfields.port_unique hfields' hafter'
  exact hport.not_portField hport'

/-- `parse_url` is exact on a URL unless its port number has white space or a
plus in front of it or other characters behind it. -/
theorem parse_url_exact_iff {url : List UInt8} (hnul : 0 ∉ url) :
    (∀ u, parseUrl url = .ok u ↔ UrlForm PortField url u) ↔ ∀ u, ¬UrlForm SloppyPort url u := by
  apply Iff.intro
  · intro hexact u hsloppy
    have hok := (parseUrl_ok_iff hnul u).mpr (hsloppy.mono (fun _ _ => SloppyPort.lenient))
    exact hsloppy.sloppy_exclusive ((hexact u).mp hok)
  · intro hnone u
    rw [parseUrl_ok_iff hnul u]
    apply Iff.intro
    · rintro ⟨hsecure, scheme, port, path, hscheme, hurl, hhost, hport, hpath⟩
      rcases hport.cases with hdigits | hsloppy
      · exact ⟨hsecure, scheme, port, path, hscheme, hurl, hhost, hdigits, hpath⟩
      · exact absurd ⟨hsecure, scheme, port, path, hscheme, hurl, hhost, hsloppy, hpath⟩ (hnone u)
    · intro hform
      exact hform.mono (fun _ _ => PortField.lenient)

theorem plain_port_exact :
    (∀ u, parseUrl (ascii "http://h:80/a") = .ok u ↔ UrlForm PortField (ascii "http://h:80/a") u) ↔
      ∀ u, ¬UrlForm SloppyPort (ascii "http://h:80/a") u :=
  parse_url_exact_iff (by decide)

/-- A character behind the port number is passed over. -/
theorem trailing_port_accepted :
    ¬∀ u, parseUrl (ascii "http://h:80x/") = .ok u ↔
      UrlForm PortField (ascii "http://h:80x/") u := by
  intro hexact
  have hsloppy : UrlForm SloppyPort (ascii "http://h:80x/") ⟨ascii "h", ascii "/", 80⟩ := by
    apply And.intro (by decide)
    exists ascii "http://", ascii ":80x", ascii "/"
    have hreads : Reads (ascii "80x") 80 := (strtol_eq_iff (by decide) (by decide)).mp (by decide)
    refine ⟨Or.inr rfl, rfl, ⟨by decide, by decide, by decide, by decide⟩, ?_,
      PathField.given (by decide)⟩
    apply SloppyPort.mk (by decide) hreads (by decide) (by decide)
    exact Exists.intro 120 (And.intro (by decide) (by decide))
  have haccepted : parseUrl (ascii "http://h:80x/") = .ok ⟨ascii "h", ascii "/", 80⟩ := by
    decide +kernel
  exact hsloppy.sloppy_exclusive ((hexact _).mp haccepted)

end Rw612.Http
