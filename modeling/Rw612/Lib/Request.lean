import Mathlib.Data.List.TakeWhile
import Rw612.Lib.Lines

/-!
The text of a request in the style of HTTP/1.1: a line of three words, the
fields, and an empty line. The reader is strict: a line ends in CR LF and holds
neither character before, and the words are separated by single blanks.
-/

namespace Rw612.Lib

structure LineRequest where
  method : List UInt8
  target : List UInt8
  version : List UInt8
  fields : List (List UInt8 × List UInt8)
  deriving DecidableEq, Repr

/-- The bytes before and behind the first `sep`. -/
def cut (sep : UInt8) (p : List UInt8) : Option (List UInt8 × List UInt8) :=
  match p.dropWhile (· != sep) with
  | [] => none
  | _ :: rest => some (p.takeWhile (· != sep), rest)

def readLine (p : List UInt8) : Option (List UInt8 × List UInt8) := do
  let (line, rest) ← splitLine p
  if 13 ∈ line ∨ 10 ∈ line then none else some (line, rest)

/-- Method, target and version. -/
def readRequestLine (line : List UInt8) : Option (List UInt8 × List UInt8 × List UInt8) := do
  let (method, rest) ← cut 32 line
  let (target, version) ← cut 32 rest
  if method = [] ∨ target = [] ∨ version = [] ∨ 32 ∈ version then none
  else some (method, target, version)

/-- A name, a colon and a value, which blanks may stand in front of. -/
def readField (line : List UInt8) : Option (List UInt8 × List UInt8) := do
  let (name, value) ← cut 58 line
  if name = [] ∨ 32 ∈ name then none
  else some (name, value.dropWhile (fun c => c == 32 || c == 9))

/-- The fields up to the empty line, at most `fuel` lines. -/
def readFields : (fuel : Nat) → List UInt8 → Option (List (List UInt8 × List UInt8) × List UInt8)
  | 0, _ => none
  | fuel + 1, p => do
      let (line, rest) ← readLine p
      if line = [] then some ([], rest)
      else do
        let field ← readField line
        let (fields, rest) ← readFields fuel rest
        some (field :: fields, rest)

/-- A request, and the bytes behind it. -/
def readRequest (p : List UInt8) : Option (LineRequest × List UInt8) := do
  let (line, rest) ← readLine p
  let (method, target, version) ← readRequestLine line
  let (fields, rest) ← readFields rest.length rest
  some (⟨method, target, version, fields⟩, rest)

/-! The text of a request. -/

def fieldText (field : List UInt8 × List UInt8) : List UInt8 :=
  field.1 ++ 58 :: 32 :: field.2 ++ [13, 10]

def LineRequest.text (r : LineRequest) : List UInt8 :=
  (r.method ++ 32 :: (r.target ++ 32 :: r.version)) ++ 13 :: 10 ::
    (r.fields.flatMap fieldText ++ [13, 10])

/-- Bytes that stay on their line. -/
def Inline (l : List UInt8) : Prop := ∀ c ∈ l, c ≠ 13 ∧ c ≠ 10

/-- Bytes that stay in their word. -/
def Unbroken (l : List UInt8) : Prop := ∀ c ∈ l, c ≠ 13 ∧ c ≠ 10 ∧ c ≠ 32

instance (l : List UInt8) : Decidable (Inline l) :=
  decidable_of_iff (l.all fun c => c != 13 && c != 10) (by simp [Inline])

instance (l : List UInt8) : Decidable (Unbroken l) :=
  decidable_of_iff (l.all fun c => c != 13 && c != 10 && c != 32) (by
    simp [Unbroken, and_assoc])

structure FieldOk (field : List UInt8 × List UInt8) : Prop where
  named : field.1 ≠ []
  name : Unbroken field.1
  noColon : 58 ∉ field.1
  value : Inline field.2
  trimmed : field.2.dropWhile (fun c => c == 32 || c == 9) = field.2

instance (field : List UInt8 × List UInt8) : Decidable (FieldOk field) :=
  decidable_of_iff
    (field.1 ≠ [] ∧ Unbroken field.1 ∧ 58 ∉ field.1 ∧ Inline field.2 ∧
      field.2.dropWhile (fun c => c == 32 || c == 9) = field.2)
    ⟨fun ⟨named, name, noColon, value, trimmed⟩ => ⟨named, name, noColon, value, trimmed⟩,
      fun h => ⟨h.named, h.name, h.noColon, h.value, h.trimmed⟩⟩

structure LineRequest.Ok (r : LineRequest) : Prop where
  method : r.method ≠ [] ∧ Unbroken r.method
  target : r.target ≠ [] ∧ Unbroken r.target
  version : r.version ≠ [] ∧ Unbroken r.version
  fields : ∀ field ∈ r.fields, FieldOk field

theorem Unbroken.inline {l : List UInt8} (h : Unbroken l) : Inline l :=
  fun c hc => And.intro (h c hc).1 (h c hc).2.1

theorem Inline.append {l m : List UInt8} (hl : Inline l) (hm : Inline m) : Inline (l ++ m) := by
  intro c hc
  rcases List.mem_append.mp hc with hin | hin
  · exact hl c hin
  · exact hm c hin

theorem Inline.cons {l : List UInt8} {c : UInt8} (hc : c ≠ 13 ∧ c ≠ 10) (hl : Inline l) :
    Inline (c :: l) := by
  intro d hd
  rcases List.mem_cons.mp hd with rfl | hin
  · exact hc
  · exact hl d hin

theorem cut_append {sep : UInt8} {front : List UInt8} (h : sep ∉ front) (back : List UInt8) :
    cut sep (front ++ sep :: back) = some (front, back) := by
  have hfront : ∀ c ∈ front, (c != sep) = true := by
    intro c hc
    rw [bne_iff_ne]
    rintro rfl
    exact h hc
  have htake : (front ++ sep :: back).takeWhile (· != sep) = front := by
    rw [List.takeWhile_append_of_pos hfront, List.takeWhile_cons_of_neg (by simp),
      List.append_nil]
  have hdrop : (front ++ sep :: back).dropWhile (· != sep) = sep :: back := by
    rw [List.dropWhile_append_of_pos hfront, List.dropWhile_cons_of_neg (by simp)]
  rw [cut, hdrop, htake]

theorem cut_some {sep : UInt8} {p front back : List UInt8} (h : cut sep p = some (front, back)) :
    p = front ++ sep :: back ∧ sep ∉ front := by
  have hsplit := List.takeWhile_append_dropWhile (p := (· != sep)) (l := p)
  unfold cut at h
  split at h
  · cases h
  · rename_i c rest hdrop
    cases h
    have hc : c = sep := by
      have hhead := List.head?_dropWhile_not (· != sep) p
      rw [hdrop] at hhead
      simpa using hhead
    rw [hdrop, hc] at hsplit
    apply And.intro hsplit.symm
    intro hin
    simpa using List.mem_takeWhile_imp hin

theorem readLine_append {line : List UInt8} (h : Inline line) (rest : List UInt8) :
    readLine (line ++ 13 :: 10 :: rest) = some (line, rest) := by
  have hcr : 13 ∉ line := fun hin => (h 13 hin).1 rfl
  have hlf : 10 ∉ line := fun hin => (h 10 hin).2 rfl
  have hfree : CrlfFree line := fun hin => hcr (hin.subset List.mem_cons_self)
  rw [readLine, splitLine_append rest hfree]
  simp [hcr, hlf]

theorem readLine_some {p line rest : List UInt8} (h : readLine p = some (line, rest)) :
    Inline line := by
  obtain ⟨⟨line', rest'⟩, -, hguard⟩ := Option.bind_eq_some_iff.mp h
  dsimp only at hguard
  split at hguard
  case isTrue => cases hguard
  case isFalse hfree =>
      cases hguard
      intro c hc
      apply And.intro
      · rintro rfl
        exact hfree (Or.inl hc)
      · rintro rfl
        exact hfree (Or.inr hc)

/-! What was written is read. -/

theorem readRequestLine_text {method target version : List UInt8}
    (hmethod : method ≠ [] ∧ Unbroken method) (htarget : target ≠ [] ∧ Unbroken target)
    (hversion : version ≠ [] ∧ Unbroken version) :
    readRequestLine (method ++ 32 :: (target ++ 32 :: version)) =
      some (method, target, version) := by
  have hword (word : List UInt8) (h : Unbroken word) : 32 ∉ word := fun hin => (h 32 hin).2.2 rfl
  have hgood : ¬(method = [] ∨ target = [] ∨ version = [] ∨ 32 ∈ version) := by
    rintro (h | h | h | h)
    · exact hmethod.1 h
    · exact htarget.1 h
    · exact hversion.1 h
    · exact hword version hversion.2 h
  rw [readRequestLine, cut_append (hword method hmethod.2)]
  simp only [Option.bind_eq_bind, Option.bind_some, cut_append (hword target htarget.2),
    if_neg hgood]

theorem readField_text {field : List UInt8 × List UInt8} (h : FieldOk field) :
    readField (field.1 ++ 58 :: 32 :: field.2) = some field := by
  have hgood : ¬(field.1 = [] ∨ 32 ∈ field.1) := by
    rintro (hempty | hin)
    · exact h.named hempty
    · exact (h.name 32 hin).2.2 rfl
  have htrim : (32 :: field.2).dropWhile (fun c => c == 32 || c == 9) = field.2 := by
    rw [List.dropWhile_cons_of_pos (by decide), h.trimmed]
  rw [readField, cut_append h.noColon]
  simp only [Option.bind_eq_bind, Option.bind_some, if_neg hgood, htrim]

theorem FieldOk.inline {field : List UInt8 × List UInt8} (h : FieldOk field) :
    Inline (field.1 ++ 58 :: 32 :: field.2) := by
  apply Inline.append h.name.inline
  apply Inline.cons (by decide)
  exact Inline.cons (by decide) h.value

theorem readFields_text {fields : List (List UInt8 × List UInt8)}
    (h : ∀ field ∈ fields, FieldOk field) (rest : List UInt8) {fuel : Nat}
    (hfuel : fields.length < fuel) :
    readFields fuel (fields.flatMap fieldText ++ 13 :: 10 :: rest) = some (fields, rest) := by
  induction fields generalizing fuel with
  | nil =>
      cases fuel with
      | zero => cases hfuel
      | succ fuel =>
          have hempty : Inline [] := by
            intro c hc
            cases hc
          have hline := readLine_append hempty rest
          rw [List.nil_append] at hline
          rw [List.flatMap_nil, List.nil_append, readFields, hline]
          rfl
  | cons field fields ih =>
      cases fuel with
      | zero => cases hfuel
      | succ fuel =>
          have hfield := h field List.mem_cons_self
          have hrest := ih (fun f hf => h f (List.mem_cons_of_mem field hf))
            (Nat.lt_of_succ_lt_succ hfuel)
          have hline := readLine_append hfield.inline
            (fields.flatMap fieldText ++ 13 :: 10 :: rest)
          have hbytes : (field :: fields).flatMap fieldText ++ 13 :: 10 :: rest =
              (field.1 ++ 58 :: 32 :: field.2) ++ 13 :: 10 ::
                (fields.flatMap fieldText ++ 13 :: 10 :: rest) := by
            simp [fieldText]
          have hne : field.1 ++ 58 :: 32 :: field.2 ≠ [] := by simp
          rw [hbytes, readFields, hline]
          simp only [Option.bind_eq_bind, Option.bind_some, if_neg hne, readField_text hfield,
            hrest]

theorem length_le_fieldsText (fields : List (List UInt8 × List UInt8)) :
    fields.length ≤ (fields.flatMap fieldText).length := by
  induction fields with
  | nil => exact Nat.le_refl 0
  | cons field fields ih =>
      rw [List.flatMap_cons, List.length_append, List.length_cons, fieldText, List.length_append]
      have hend : ([13, 10] : List UInt8).length = 2 := rfl
      omega

theorem LineRequest.Ok.read {r : LineRequest} (h : r.Ok) (rest : List UInt8) :
    readRequest (r.text ++ rest) = some (r, rest) := by
  have hline : Inline (r.method ++ 32 :: (r.target ++ 32 :: r.version)) := by
    apply Inline.append h.method.2.inline
    apply Inline.cons (by decide)
    apply Inline.append h.target.2.inline
    exact Inline.cons (by decide) h.version.2.inline
  have hbytes : r.text ++ rest = (r.method ++ 32 :: (r.target ++ 32 :: r.version)) ++
      13 :: 10 :: (r.fields.flatMap fieldText ++ 13 :: 10 :: rest) := by
    simp [LineRequest.text]
  have hfuel : r.fields.length < (r.fields.flatMap fieldText ++ 13 :: 10 :: rest).length := by
    have hle := length_le_fieldsText r.fields
    rw [List.length_append, List.length_cons]
    omega
  rw [readRequest, hbytes, readLine_append hline]
  simp only [Option.bind_eq_bind, Option.bind_some,
    readRequestLine_text h.method h.target h.version, readFields_text h.fields rest hfuel]

/-! What is read stays where it was read. -/

theorem readRequestLine_target {line method target version : List UInt8} (hline : Inline line)
    (h : readRequestLine line = some (method, target, version)) : Unbroken target := by
  obtain ⟨⟨method', rest⟩, hfirst, h⟩ := Option.bind_eq_some_iff.mp h
  obtain ⟨⟨target', version'⟩, hsecond, h⟩ := Option.bind_eq_some_iff.mp h
  dsimp only at hfirst hsecond h
  split at h
  case isTrue => cases h
  case isFalse =>
      cases h
      obtain ⟨hsplit, -⟩ := cut_some hfirst
      obtain ⟨hsplit', hblank⟩ := cut_some hsecond
      intro c hc
      have hin : c ∈ line := by
        rw [hsplit, hsplit']
        exact List.mem_append_right _ (List.mem_cons_of_mem 32 (List.mem_append_left _ hc))
      obtain ⟨hcr, hlf⟩ := hline c hin
      apply And.intro hcr
      apply And.intro hlf
      rintro rfl
      exact hblank hc

theorem readRequest_target {p rest : List UInt8} {r : LineRequest}
    (h : readRequest p = some (r, rest)) : Unbroken r.target := by
  obtain ⟨⟨line, behind⟩, hline, h⟩ := Option.bind_eq_some_iff.mp h
  obtain ⟨⟨method, target, version⟩, hwords, h⟩ := Option.bind_eq_some_iff.mp h
  obtain ⟨⟨fields, rest'⟩, -, h⟩ := Option.bind_eq_some_iff.mp h
  cases h
  exact readRequestLine_target (readLine_some hline) hwords

end Rw612.Lib
