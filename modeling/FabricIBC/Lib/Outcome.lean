import Mathlib.Logic.Basic
import Mathlib.Data.List.Basic

/-!
# Outcomes of Go calls

A Go function that takes its turn either returns its results, or returns a
non-nil error, or panics. `Outcome ε α` keeps the three apart: an error is a
value the caller can inspect and forward, a panic unwinds the goroutine and
no caller of the code modelled here recovers from it.

`Outcome ε` is a monad whose bind is Go's `if err != nil { return err }`.
The lemmas give the shape every proof about sequenced calls needs:

* `bind_eq_ok_iff` — a sequence succeeds exactly when both halves do;
* `panics_bind_iff` — a sequence panics in its first half, or in its second
  half after the first one succeeded;
* `Safe.bind` — a sequence is safe when both halves are;
* `Rel.bind` — two sequences agree when both halves do: they fail alike, or
  their results are related;
* `forEach_eq_ok_iff`, `panics_forEach_iff` — the same for a loop that
  checks the elements of a slice one by one and stops at the first error;
* `exists_of_mem_collect`, `collect_eq_ok_map`, `collect_filter_map` — what a loop
  that computes one result per element returns.
-/

namespace Go

/-- What a panic is about. -/
inductive Panic
  | indexOutOfRange
  | nilDereference
  | typeAssertion
  | explicit (msg : String)
  deriving DecidableEq, Repr

/-- The outcome of a Go call with results `α` and errors `ε`. -/
inductive Outcome (ε α : Type)
  | ok (a : α)
  | err (e : ε)
  | panic (p : Panic)
  deriving DecidableEq, Repr

namespace Outcome

variable {ε α β γ : Type}

/-- Run `f` on the result of `x`; errors and panics are passed on. -/
protected def bind (x : Outcome ε α) (f : α → Outcome ε β) : Outcome ε β :=
  match x with
  | ok a => f a
  | err e => err e
  | panic p => panic p

instance : Monad (Outcome ε) where
  pure := ok
  bind := Outcome.bind

/-- A call into code that reports failures as errors only. -/
def ofExcept : Except ε α → Outcome ε α
  | .ok a => ok a
  | .error e => err e

/-- Forward an error under another error type. -/
def mapErr {ε' : Type} (f : ε → ε') : Outcome ε α → Outcome ε' α
  | ok a => ok a
  | err e => err (f e)
  | panic p => panic p

/-- The call succeeds. -/
def isOk : Outcome ε α → Bool
  | ok _ => true
  | err _ => false
  | panic _ => false

/-- The call panics. -/
def Panics (x : Outcome ε α) : Prop := ∃ p, x = panic p

/-! ## Sequencing -/

@[simp] theorem pure_eq_ok (a : α) : (pure a : Outcome ε α) = ok a := rfl

@[simp] theorem ok_bind (a : α) (f : α → Outcome ε β) : (ok a >>= f) = f a := rfl

@[simp] theorem err_bind (e : ε) (f : α → Outcome ε β) :
    ((err e : Outcome ε α) >>= f) = err e := rfl

@[simp] theorem panic_bind (p : Panic) (f : α → Outcome ε β) :
    ((panic p : Outcome ε α) >>= f) = panic p := rfl

theorem bind_bind (x : Outcome ε α) (f : α → Outcome ε β) (g : β → Outcome ε γ) :
    (x >>= f >>= g) = x >>= fun a => f a >>= g := by
  cases x <;> rfl

theorem bind_eq_ok_iff {x : Outcome ε α} {f : α → Outcome ε β} {b : β} :
    (x >>= f) = ok b ↔ ∃ a, x = ok a ∧ f a = ok b := by
  cases x <;> simp

/-- A check that has to pass before `y`. -/
theorem check_bind_eq_ok_iff {x : Outcome ε Unit} {y : Outcome ε β} {b : β} :
    (x >>= fun _ => y) = ok b ↔ x = ok () ∧ y = ok b := by
  cases x <;> simp

theorem isOk_iff {x : Outcome ε α} : x.isOk = true ↔ ∃ a, x = ok a := by
  cases x <;> simp [isOk]

theorem ofExcept_eq_ok_iff {x : Except ε α} {a : α} :
    (ofExcept x : Outcome ε α) = ok a ↔ x = .ok a := by
  cases x <;> simp [ofExcept]

theorem mapErr_eq_ok_iff {ε' : Type} {f : ε → ε'} {x : Outcome ε α} {a : α} :
    mapErr f x = ok a ↔ x = ok a := by
  cases x <;> simp [mapErr]

theorem mapErr_bind_ok {ε' : Type} (f : ε → ε') (x : Outcome ε α) (g : α → β) :
    mapErr f (x >>= fun a => ok (g a)) = mapErr f x >>= fun a => ok (g a) := by
  cases x <;> rfl

/-! ## Panics -/

@[simp] theorem not_panics_ok (a : α) : ¬ (ok a : Outcome ε α).Panics := by
  simp [Panics]

@[simp] theorem not_panics_err (e : ε) : ¬ (err e : Outcome ε α).Panics := by
  simp [Panics]

@[simp] theorem panics_panic (p : Panic) : (panic p : Outcome ε α).Panics := ⟨p, rfl⟩

@[simp] theorem not_panics_ofExcept (x : Except ε α) :
    ¬ (ofExcept x : Outcome ε α).Panics := by
  cases x <;> simp [ofExcept]

@[simp] theorem panics_mapErr_iff {ε' : Type} {f : ε → ε'} {x : Outcome ε α} :
    (mapErr f x).Panics ↔ x.Panics := by
  cases x <;> simp [mapErr]

theorem panics_bind_iff {x : Outcome ε α} {f : α → Outcome ε β} :
    (x >>= f).Panics ↔ x.Panics ∨ ∃ a, x = ok a ∧ (f a).Panics := by
  cases x <;> simp

theorem panics_check_bind_iff {x : Outcome ε Unit} {y : Outcome ε β} :
    (x >>= fun _ => y).Panics ↔ x.Panics ∨ x = ok () ∧ y.Panics := by
  cases x <;> simp

/-! ## Safe outcomes -/

/-- No panic, and a result with the property `P` where there is one. -/
def Safe (P : α → Prop) : Outcome ε α → Prop
  | ok a => P a
  | err _ => True
  | panic _ => False

theorem Safe.bind {P : α → Prop} {Q : β → Prop} {x : Outcome ε α} {f : α → Outcome ε β}
    (hx : x.Safe P) (hf : ∀ a, P a → (f a).Safe Q) : (x >>= f).Safe Q :=
  match x, hx with
  | ok a, hx => hf a hx
  | err _, _ => trivial

theorem Safe.mono {P Q : α → Prop} {x : Outcome ε α} (hx : x.Safe P) (h : ∀ a, P a → Q a) :
    x.Safe Q :=
  match x, hx with
  | ok a, hx => h a hx
  | err _, _ => trivial

theorem Safe.not_panics {P : α → Prop} {x : Outcome ε α} (hx : x.Safe P) : ¬ x.Panics := by
  rintro ⟨p, rfl⟩
  exact hx

/-! ## Outcomes that agree -/

/-- The same failure, or related results. -/
def Rel (R : α → β → Prop) : Outcome ε α → Outcome ε β → Prop
  | ok a, ok b => R a b
  | err e, err e' => e = e'
  | panic p, panic p' => p = p'
  | _, _ => False

theorem Rel.refl {R : α → α → Prop} (h : ∀ a, R a a) : (x : Outcome ε α) → Rel R x x
  | ok a => h a
  | err _ => rfl
  | panic _ => rfl

theorem Rel.bind {δ : Type} {R : α → β → Prop} {S : γ → δ → Prop} {x : Outcome ε α}
    {y : Outcome ε β} {f : α → Outcome ε γ} {g : β → Outcome ε δ} (h : Rel R x y)
    (hfg : ∀ a b, R a b → Rel S (f a) (g b)) : Rel S (x >>= f) (y >>= g) :=
  match x, y, h with
  | ok a, ok b, h => hfg a b h
  | err _, err _, h => h
  | panic _, panic _, h => h

theorem Rel.cases {R : α → β → Prop} {x : Outcome ε α} {y : Outcome ε β} (h : Rel R x y) :
    (∃ a b, x = ok a ∧ y = ok b ∧ R a b) ∨ (∃ e, x = err e ∧ y = err e) ∨
      ∃ p, x = panic p ∧ y = panic p :=
  match x, y, h with
  | ok a, ok b, h => Or.inl ⟨a, b, rfl, rfl, h⟩
  | err e, err _, h => Or.inr (Or.inl ⟨e, rfl, congrArg err h.symm⟩)
  | panic p, panic _, h => Or.inr (Or.inr ⟨p, rfl, congrArg panic h.symm⟩)

theorem Rel.mono {R S : α → β → Prop} (hRS : ∀ a b, R a b → S a b) {x : Outcome ε α}
    {y : Outcome ε β} (h : Rel R x y) : Rel S x y :=
  match x, y, h with
  | ok a, ok b, h => hRS a b h
  | err _, err _, h => h
  | panic _, panic _, h => h

/-- Where the related results come from. -/
theorem Rel.of_result {R : α → β → Prop} {x : Outcome ε α} {y : Outcome ε β} (h : Rel R x y) :
    Rel (fun a b => x = ok a ∧ y = ok b ∧ R a b) x y :=
  match x, y, h with
  | ok _, ok _, h => ⟨rfl, rfl, h⟩
  | err _, err _, h => h
  | panic _, panic _, h => h

/-- The result on one side is a function of that on the other. -/
theorem Rel.of_eq_map {x : Outcome ε α} {y : Outcome ε β} {f : α → β}
    (h : y = x >>= fun a => ok (f a)) : Rel (fun a b => b = f a) x y := by
  subst h
  cases x <;> exact rfl

/-- Two calls that begin with the same. -/
theorem Rel.bind_same {δ : Type} {S : γ → δ → Prop} {x : Outcome ε α} {f : α → Outcome ε γ}
    {g : α → Outcome ε δ} (hfg : ∀ a, x = ok a → Rel S (f a) (g a)) : Rel S (x >>= f) (x >>= g) :=
  match x, hfg with
  | ok a, hfg => hfg a rfl
  | err _, _ => rfl
  | panic _, _ => rfl

/-- One of two calls goes on, and does not fail. -/
theorem Rel.bind_left {R : α → β → Prop} {S : γ → β → Prop} {x : Outcome ε α} {y : Outcome ε β}
    {f : α → Outcome ε γ} (h : Rel R x y) (hf : ∀ a b, R a b → ∃ c, f a = ok c ∧ S c b) :
    Rel S (x >>= f) y :=
  match x, y, h with
  | ok a, ok b, h => by
    obtain ⟨c, hc, hS⟩ := hf a b h
    rw [ok_bind, hc]
    exact hS
  | err _, err _, h => h
  | panic _, panic _, h => h

/-- After related results the rest of both calls is the same. -/
theorem Rel.bind_eq {R : α → β → Prop} {x : Outcome ε α} {y : Outcome ε β}
    {f : α → Outcome ε γ} {g : β → Outcome ε γ} (h : Rel R x y)
    (hfg : ∀ a b, R a b → f a = g b) : (x >>= f) = y >>= g :=
  match x, y, h with
  | ok a, ok b, h => hfg a b h
  | err _, err _, h => congrArg err h
  | panic _, panic _, h => congrArg panic h

/-! ## Loops -/

/-- `for _, a := range l { if err := f(a); err != nil { return err } }`. -/
def forEach (f : α → Outcome ε Unit) : List α → Outcome ε Unit
  | [] => ok ()
  | a :: l => do
    f a
    forEach f l

theorem forEach_eq_ok_iff {f : α → Outcome ε Unit} {l : List α} :
    forEach f l = ok () ↔ ∀ a ∈ l, f a = ok () := by
  induction l with
  | nil => simp [forEach]
  | cons a l ih =>
    rw [forEach, check_bind_eq_ok_iff, List.forall_mem_cons, ← ih]

/-- A checking loop panics at the first element that panics, provided every
element before it passed. -/
theorem panics_forEach_iff {f : α → Outcome ε Unit} {l : List α} :
    (forEach f l).Panics ↔
      ∃ pre a post, l = pre ++ a :: post ∧ (∀ b ∈ pre, f b = ok ()) ∧ (f a).Panics := by
  induction l with
  | nil => simp [forEach]
  | cons a l ih =>
    rw [forEach, panics_bind_iff, ih]
    constructor
    · rintro (ha | ⟨_, hok, pre, b, post, rfl, hpre, hb⟩)
      · exact ⟨[], a, l, rfl, by simp, ha⟩
      · refine ⟨a :: pre, b, post, rfl, ?_, hb⟩
        intro c hc
        rcases List.mem_cons.mp hc with rfl | hc
        · exact hok
        · exact hpre c hc
    · rintro ⟨pre, b, post, hl, hpre, hb⟩
      cases pre with
      | nil =>
        simp only [List.nil_append, List.cons.injEq] at hl
        exact Or.inl (hl.1 ▸ hb)
      | cons c pre =>
        simp only [List.cons_append, List.cons.injEq] at hl
        obtain ⟨rfl, rfl⟩ := hl
        exact Or.inr ⟨(), hpre a (by simp), pre, b, post, rfl,
          fun d hd => hpre d (by simp [hd]), hb⟩

/-- `for _, a := range l { b, err := f(a); …; res = append(res, b) }`. -/
def collect (f : α → Outcome ε β) : List α → Outcome ε (List β)
  | [] => ok []
  | a :: l => do
    let b ← f a
    let bs ← collect f l
    ok (b :: bs)

theorem exists_of_mem_collect {f : α → Outcome ε β} {l : List α} {bs : List β}
    (h : collect f l = ok bs) {b : β} (hb : b ∈ bs) : ∃ a ∈ l, f a = ok b := by
  induction l generalizing bs with
  | nil =>
    rw [collect, ok.injEq] at h
    rw [← h] at hb
    exact absurd hb List.not_mem_nil
  | cons a l ih =>
    simp only [collect, bind_eq_ok_iff, ok.injEq] at h
    obtain ⟨b', hb', bs', hbs', rfl⟩ := h
    rcases List.mem_cons.mp hb with rfl | hb
    · exact ⟨a, List.mem_cons_self, hb'⟩
    · obtain ⟨c, hc, hfc⟩ := ih hbs' hb
      exact ⟨c, List.mem_cons_of_mem _ hc, hfc⟩

theorem collect_eq_ok_map {f : α → Outcome ε β} {g : α → β} {l : List α}
    (h : ∀ a ∈ l, f a = ok (g a)) : collect f l = ok (l.map g) := by
  induction l with
  | nil => rfl
  | cons a l ih =>
    obtain ⟨ha, hl⟩ := List.forall_mem_cons.mp h
    rw [collect, ha, ok_bind, ih hl, ok_bind, List.map_cons]

theorem collect_append (f : α → Outcome ε β) (l l' : List α) :
    collect f (l ++ l') = (do
      let bs ← collect f l
      let bs' ← collect f l'
      ok (bs ++ bs')) := by
  induction l with
  | nil =>
    show collect f l' = collect f l' >>= fun bs' => ok ([] ++ bs')
    cases collect f l' <;> rfl
  | cons a l ih =>
    rw [List.cons_append, collect, ih, collect, bind_bind]
    refine bind_congr fun b => ?_
    rw [bind_bind, bind_bind]
    refine bind_congr fun bs => ?_
    rw [bind_bind]
    rfl

/-- A loop that skips the elements of other kinds, over a list of known origin. -/
theorem collect_filter_map {ι : Type} {f : α → Outcome ε β} {p : α → Bool} {origin : ι → α}
    {pick : ι → Option β} {l : List ι}
    (hpick : ∀ i ∈ l, ∀ b, pick i = some b → p (origin i) = true ∧ f (origin i) = ok b)
    (hskip : ∀ i ∈ l, pick i = none → p (origin i) = false) :
    collect f ((l.map origin).filter p) = ok (l.filterMap pick) := by
  induction l with
  | nil => rfl
  | cons i l ih =>
    obtain ⟨hpick₀, hpick⟩ := List.forall_mem_cons.mp hpick
    obtain ⟨hskip₀, hskip⟩ := List.forall_mem_cons.mp hskip
    cases hi : pick i with
    | some b =>
      obtain ⟨hp, hf⟩ := hpick₀ b hi
      rw [List.map_cons, List.filter_cons_of_pos hp, collect, hf, ok_bind, ih hpick hskip, ok_bind,
        List.filterMap_cons_some hi]
    | none =>
      have hp : ¬ p (origin i) = true := by simp [hskip₀ hi]
      rw [List.map_cons, List.filter_cons_of_neg hp, ih hpick hskip, List.filterMap_cons_none hi]

end Outcome

end Go
