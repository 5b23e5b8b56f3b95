import Mathlib.Data.List.Basic

/-!
Runs of deterministic labelled transition systems. A label that is not enabled
leads to `none`. `Always` and `Meets` speak about every state and about every
step of one run, so a property that holds only while the environment keeps to
a condition is stated without naming the intermediate states.

The last part is about machines that answer every input: deleting the inputs
whose answers are to be ignored yields a run with the same remaining answers.
-/

namespace Rw612.Lib

structure System (σ ε : Type*) where
  step : σ → ε → Option σ

namespace System

variable {σ ε : Type*} (S : System σ ε)

/-- The state after the labels `es`, if each of them is enabled in its turn. -/
def exec (s : σ) (es : List ε) : Option σ := es.foldlM S.step s

@[simp] theorem exec_nil (s : σ) : S.exec s [] = some s := rfl

@[simp] theorem exec_cons (s : σ) (e : ε) (es : List ε) :
    S.exec s (e :: es) = (S.step s e).bind (S.exec · es) := rfl

theorem exec_append (s : σ) (front back : List ε) :
    S.exec s (front ++ back) = (S.exec s front).bind (S.exec · back) :=
  List.foldlM_append

/-- `P` holds in every state of the run, its first and last one included. -/
def Always (P : σ → Prop) (s : σ) : List ε → Prop
  | [] => P s
  | e :: es => P s ∧ ∀ s', S.step s e = some s' → Always P s' es

/-- Every step the run takes satisfies `C` in the state it is taken in. -/
def Meets (C : σ → ε → Prop) (s : σ) : List ε → Prop
  | [] => True
  | e :: es => ∀ s', S.step s e = some s' → C s e ∧ Meets C s' es

variable {S}

theorem exec_cons_some {s s' : σ} {e : ε} {es : List ε}
    (h : S.exec s (e :: es) = some s') :
    ∃ mid, S.step s e = some mid ∧ S.exec mid es = some s' := by
  rw [exec_cons] at h
  exact Option.bind_eq_some_iff.mp h

theorem exec_cons_of_step {s s' : σ} {e : ε} (h : S.step s e = some s')
    (es : List ε) : S.exec s (e :: es) = S.exec s' es := by
  rw [exec_cons, h, Option.bind_some]

/-- An invariant of every enabled step holds after every run. -/
theorem exec_invariant {Inv : σ → Prop}
    (hstep : ∀ s e s', Inv s → S.step s e = some s' → Inv s')
    {s s' : σ} {es : List ε} (hs : Inv s) (h : S.exec s es = some s') :
    Inv s' := by
  induction es generalizing s with
  | nil =>
      obtain rfl : s = s' := Option.some.inj h
      exact hs
  | cons e es ih =>
      obtain ⟨mid, hmid, hrest⟩ := exec_cons_some h
      exact ih (hstep s e mid hs hmid) hrest

theorem Always.head {P : σ → Prop} {s : σ} {es : List ε}
    (h : S.Always P s es) : P s := by
  cases es with
  | nil => exact h
  | cons e es => exact h.1

/-- The rest of a run that stays inside `P` stays inside `P`. -/
theorem Always.of_append {P : σ → Prop} {s s' : σ} {front back : List ε}
    (h : S.Always P s (front ++ back)) (hrun : S.exec s front = some s') :
    S.Always P s' back := by
  induction front generalizing s with
  | nil =>
      obtain rfl : s = s' := Option.some.inj hrun
      exact h
  | cons e front ih =>
      obtain ⟨mid, hmid, hrest⟩ := exec_cons_some hrun
      exact ih (h.2 mid hmid) hrest

/-- A property of every state of a run holds in the state after any prefix. -/
theorem Always.of_exec {P : σ → Prop} {s s' : σ} (front back : List ε)
    (h : S.Always P s (front ++ back)) (hrun : S.exec s front = some s') :
    P s' :=
  (h.of_append hrun).head

theorem Always.mono {P Q : σ → Prop} (hPQ : ∀ s, P s → Q s) {s : σ}
    {es : List ε} (h : S.Always P s es) : S.Always Q s es := by
  induction es generalizing s with
  | nil => exact hPQ s h
  | cons e es ih => exact ⟨hPQ s h.1, fun s' hs' => ih (h.2 s' hs')⟩

/-- The conditional invariant rule: a step that meets `C` keeps `Inv`, so a run
whose steps all meet `C` stays inside `Inv`. -/
theorem always_of_meets {Inv : σ → Prop} {C : σ → ε → Prop}
    (hstep : ∀ s e s', Inv s → C s e → S.step s e = some s' → Inv s')
    {s : σ} {es : List ε} (hs : Inv s) (hC : S.Meets C s es) :
    S.Always Inv s es := by
  induction es generalizing s with
  | nil => exact hs
  | cons e es ih =>
      refine ⟨hs, fun s' hs' => ?_⟩
      obtain ⟨hhead, htail⟩ := hC s' hs'
      exact ih (hstep s e s' hs hhead hs') htail

/-- The invariant rule without a condition. -/
theorem always_of_inv {Inv : σ → Prop}
    (hstep : ∀ s e s', Inv s → S.step s e = some s' → Inv s')
    {s : σ} (hs : Inv s) (es : List ε) : S.Always Inv s es := by
  induction es generalizing s with
  | nil => exact hs
  | cons e es ih => exact ⟨hs, fun s' hs' => ih (hstep s e s' hs hs')⟩

/-- What every step from a state of the invariant meets, every run meets. -/
theorem meets_of_inv {Inv : σ → Prop} {Good : σ → ε → Prop}
    (hstep : ∀ s e s', Inv s → S.step s e = some s' → Good s e ∧ Inv s')
    {s : σ} (hs : Inv s) (es : List ε) : S.Meets Good s es := by
  induction es generalizing s with
  | nil => trivial
  | cons e es ih =>
      intro s' hs'
      obtain ⟨hgood, hinv⟩ := hstep s e s' hs hs'
      exact ⟨hgood, ih hinv⟩

/-- A condition that keeps an invariant under which its steps are good. -/
theorem meets_of_meets {Inv : σ → Prop} {C Good : σ → ε → Prop}
    (hstep : ∀ s e s', Inv s → C s e → S.step s e = some s' → Good s e ∧ Inv s')
    {s : σ} {es : List ε} (hs : Inv s) (hC : S.Meets C s es) :
    S.Meets Good s es := by
  induction es generalizing s with
  | nil => trivial
  | cons e es ih =>
      intro s' hs'
      obtain ⟨hhead, htail⟩ := hC s' hs'
      obtain ⟨hgood, hinv⟩ := hstep s e s' hs hhead hs'
      exact ⟨hgood, ih hinv htail⟩

theorem Meets.mono {C D : σ → ε → Prop} (hCD : ∀ s e, C s e → D s e) {s : σ}
    {es : List ε} (h : S.Meets C s es) : S.Meets D s es := by
  induction es generalizing s with
  | nil => trivial
  | cons e es ih => exact fun s' hs' => ⟨hCD s e (h s' hs').1, ih (h s' hs').2⟩

theorem Meets.and {C D : σ → ε → Prop} {s : σ} {es : List ε}
    (hC : S.Meets C s es) (hD : S.Meets D s es) :
    S.Meets (fun s e => C s e ∧ D s e) s es := by
  induction es generalizing s with
  | nil => trivial
  | cons e es ih =>
      intro s' hs'
      obtain ⟨hCe, hCes⟩ := hC s' hs'
      obtain ⟨hDe, hDes⟩ := hD s' hs'
      exact ⟨⟨hCe, hDe⟩, ih hCes hDes⟩

/-- The rest of a run that meets `C` meets `C`. -/
theorem Meets.of_append {C : σ → ε → Prop} {s s' : σ} {front back : List ε}
    (h : S.Meets C s (front ++ back)) (hrun : S.exec s front = some s') :
    S.Meets C s' back := by
  induction front generalizing s with
  | nil =>
      obtain rfl : s = s' := Option.some.inj hrun
      exact h
  | cons e front ih =>
      obtain ⟨mid, hmid, hrest⟩ := exec_cons_some hrun
      exact ih (h mid hmid).2 hrest

/-- A condition on the steps is one on what may follow each prefix of the run. -/
theorem meets_iff_prefix {C : σ → ε → Prop} {s : σ} {es : List ε} :
    S.Meets C s es ↔ ∀ before e after mid s', es = before ++ e :: after →
      S.exec s before = some mid → S.step mid e = some s' → C mid e := by
  induction es generalizing s with
  | nil =>
      refine iff_of_true trivial fun before e after mid s' hes => ?_
      exact absurd hes (List.ne_nil_of_mem (by simp : e ∈ before ++ e :: after)).symm
  | cons e es ih =>
      constructor
      · intro h before e' after mid s' hes hrun hs'
        cases before with
        | nil =>
            obtain ⟨rfl, rfl⟩ := List.cons.inj hes
            obtain rfl := Option.some.inj hrun
            exact (h s' hs').1
        | cons e₀ before =>
            obtain ⟨rfl, rfl⟩ := List.cons.inj hes
            obtain ⟨next, hnext, hrest⟩ := exec_cons_some hrun
            exact ih.mp (h next hnext).2 before e' after mid s' rfl hrest hs'
      · intro h s' hs'
        refine ⟨h [] e es s s' rfl rfl hs', ih.mpr ?_⟩
        intro before e' after mid s'' hes hrun hs''
        apply h (e :: before) e' after mid s'' (by rw [hes]; rfl) _ hs''
        rw [exec_cons_of_step hs']
        exact hrun

/-- Conversely, if a step between two states of `P` always meets `C`, a run
that stays inside `P` meets `C` throughout. -/
theorem meets_of_always {P : σ → Prop} {C : σ → ε → Prop}
    (hstep : ∀ s e s', P s → P s' → S.step s e = some s' → C s e)
    {s : σ} {es : List ε} (h : S.Always P s es) : S.Meets C s es := by
  induction es generalizing s with
  | nil => trivial
  | cons e es ih =>
      intro s' hs'
      exact ⟨hstep s e s' h.1 (h.2 s' hs').head hs', ih (h.2 s' hs')⟩

end System

section Answers

variable {σ ε ω : Type*} (step : σ → ε → σ × ω)

/-- The state after a list of inputs. -/
def finish (s : σ) (es : List ε) : σ := es.foldl (fun s e => (step s e).1) s

/-- The answers given along a list of inputs. -/
def answers (s : σ) : List ε → List ω
  | [] => []
  | e :: es => (step s e).2 :: answers (step s e).1 es

variable (drop : ε → ω → Bool)

/-- The inputs whose own answer is not to be dropped. -/
def erase (s : σ) : List ε → List ε
  | [] => []
  | e :: es =>
      if drop e (step s e).2 then erase (step s e).1 es
      else e :: erase (step s e).1 es

/-- The answers that remain when the dropped inputs are deleted. -/
def keptAnswers (s : σ) : List ε → List ω
  | [] => []
  | e :: es =>
      if drop e (step s e).2 then keptAnswers (step s e).1 es
      else (step s e).2 :: keptAnswers (step s e).1 es

variable {step drop}

/-- Let `R` be a bisimulation on which every dropped input stutters. Then
deleting the dropped inputs leads to a related state and leaves all other
answers as they were. -/
theorem erase_simulates {R : σ → σ → Prop}
    (hstep : ∀ s t e, R s t →
      R (step s e).1 (step t e).1 ∧ (step s e).2 = (step t e).2)
    (hdrop : ∀ s t e, R s t → drop e (step s e).2 = true → R (step s e).1 t)
    {s t : σ} (hR : R s t) (es : List ε) :
    R (finish step s es) (finish step t (erase step drop s es)) ∧
      answers step t (erase step drop s es) = keptAnswers step drop s es := by
  induction es generalizing s t with
  | nil => exact ⟨hR, rfl⟩
  | cons e es ih =>
      by_cases hd : drop e (step s e).2 = true
      · simpa only [finish, List.foldl_cons, erase, keptAnswers, hd, if_true]
          using ih (hdrop s t e hR hd)
      · obtain ⟨hnext, hanswer⟩ := hstep s t e hR
        obtain ⟨hfinal, hanswers⟩ := ih hnext
        simp only [finish, List.foldl_cons, erase, keptAnswers, hd,
          Bool.false_eq_true, if_false, answers]
        exact ⟨hfinal, by rw [hanswer, hanswers]⟩

end Answers

end Rw612.Lib
