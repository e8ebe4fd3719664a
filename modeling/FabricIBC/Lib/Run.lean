import Mathlib.Data.List.Basic

/-!
# Runs of a step function

A run applies a step function to the elements of a list one after the other.
What a step preserves, a run preserves:

* `run_invariant` — a property that every step keeps holds after every run;
* `run_related` — a reflexive and transitive relation that every step respects
  relates the ends of every run;
* `transcript_eq` — machines whose steps simulate each other give the same
  replies to the same requests;
* `transcript_filter` — steps that lead to a related state can be left out;
* `Along` — every step of a run meets a condition on the state before it and
  its input; `run_log_along` is the rule for a log that such steps extend.
-/

namespace Run

variable {σ α : Type} (step : σ → α → σ)

/-- The state after a run. -/
def run (s : σ) (l : List α) : σ := l.foldl step s

@[simp] theorem run_nil (s : σ) : run step s [] = s := rfl

@[simp] theorem run_cons (s : σ) (a : α) (l : List α) :
    run step s (a :: l) = run step (step s a) l := rfl

theorem run_append (s : σ) (l l' : List α) :
    run step s (l ++ l') = run step (run step s l) l' := List.foldl_append

/-- Every step of the run meets the condition. -/
def Along (cond : σ → α → Prop) : σ → List α → Prop
  | _, [] => True
  | s, a :: l => cond s a ∧ Along cond (step s a) l

instance decidableAlong (cond : σ → α → Prop) [∀ s a, Decidable (cond s a)] :
    (s : σ) → (l : List α) → Decidable (Along step cond s l)
  | _, [] => .isTrue trivial
  | s, a :: l =>
    match (inferInstance : Decidable (cond s a)), decidableAlong cond (step s a) l with
    | .isTrue ha, .isTrue hl => .isTrue ⟨ha, hl⟩
    | .isFalse ha, _ => .isFalse fun h => ha h.1
    | _, .isFalse hl => .isFalse fun h => hl h.2

variable {step}

theorem along_append {cond : σ → α → Prop} {s : σ} {l l' : List α} :
    Along step cond s (l ++ l') ↔
      Along step cond s l ∧ Along step cond (run step s l) l' := by
  induction l generalizing s with
  | nil => simp [Along]
  | cons a l ih => simp [Along, ih, and_assoc]

theorem Along.mono {cond cond' : σ → α → Prop} (himp : ∀ s a, cond s a → cond' s a) {s : σ}
    {l : List α} (h : Along step cond s l) : Along step cond' s l := by
  induction l generalizing s with
  | nil => trivial
  | cons a l ih => exact ⟨himp s a h.1, ih h.2⟩

/-- A log of the states is only extended by a run whose steps meet the condition. -/
theorem run_log_along {β : Type} {cond : σ → α → Prop} {L : σ → List β → Prop}
    (hstep : ∀ s a log, cond s a → L s log → ∃ log', log <+: log' ∧ L (step s a) log') {s : σ}
    {l : List α} {log : List β} (hl : Along step cond s l) (h : L s log) :
    ∃ log', log <+: log' ∧ L (run step s l) log' := by
  induction l generalizing s log with
  | nil => exact ⟨log, List.prefix_rfl, h⟩
  | cons a l ih =>
    obtain ⟨log₁, hle₁, h₁⟩ := hstep s a log hl.1 h
    obtain ⟨log₂, hle₂, h₂⟩ := ih hl.2 h₁
    exact ⟨log₂, hle₁.trans hle₂, h₂⟩

theorem run_invariant {P : σ → Prop} (hstep : ∀ s a, P s → P (step s a)) {s : σ} (hs : P s)
    (l : List α) : P (run step s l) := by
  induction l generalizing s with
  | nil => exact hs
  | cons a l ih => exact ih (hstep s a hs)

theorem run_related {R : σ → σ → Prop} (hrefl : ∀ s, R s s)
    (htrans : ∀ {a b c}, R a b → R b c → R a c) (hstep : ∀ s a, R s (step s a)) (s : σ)
    (l : List α) : R s (run step s l) := by
  induction l generalizing s with
  | nil => exact hrefl s
  | cons a l ih => exact htrans (hstep s a) (ih (step s a))

/-! ## Machines that reply -/

/-- The replies to a list of requests, and the state after them. -/
def transcript {β : Type} (step : σ → α → β × σ) : σ → List α → List β × σ
  | s, [] => ([], s)
  | s, a :: l =>
    ((step s a).1 :: (transcript step (step s a).2 l).1, (transcript step (step s a).2 l).2)

theorem transcript_concat {β : Type} (step : σ → α → β × σ) (s : σ) (l : List α) (a : α) :
    transcript step s (l ++ [a]) =
      ((transcript step s l).1 ++ [(step (transcript step s l).2 a).1],
        (step (transcript step s l).2 a).2) := by
  induction l generalizing s with
  | nil => rfl
  | cons b l ih => rw [List.cons_append, transcript, ih, transcript, List.cons_append]

theorem transcript_map {β γ : Type} (step : σ → γ → β × σ) (f : α → γ) (s : σ) (l : List α) :
    transcript (fun s a => step s (f a)) s l = transcript step s (l.map f) := by
  induction l generalizing s with
  | nil => rfl
  | cons a l ih => rw [transcript, ih, List.map_cons, transcript]

theorem transcript_eq {τ β γ : Type} {step : σ → α → β × σ} {step' : τ → α → γ × τ} {f : γ → β}
    {R : σ → τ → Prop}
    (hstep : ∀ s t a, R s t → (step s a).1 = f (step' t a).1 ∧ R (step s a).2 (step' t a).2)
    {s : σ} {t : τ} (h : R s t) (l : List α) :
    (transcript step s l).1 = (transcript step' t l).1.map f ∧
      R (transcript step s l).2 (transcript step' t l).2 := by
  induction l generalizing s t with
  | nil => exact ⟨rfl, h⟩
  | cons a l ih =>
    obtain ⟨hreply, hnext⟩ := hstep s t a h
    obtain ⟨hreplies, hend⟩ := ih hnext
    refine ⟨?_, hend⟩
    rw [transcript, transcript, List.map_cons, hreply, hreplies]

/-- The replies to the requests that meet the condition. -/
def repliesTo {β : Type} (p : α → Bool) (requests : List α) (replies : List β) : List β :=
  ((requests.zip replies).filter fun r => p r.1).map Prod.snd

/-- Requests that leave the state where it was, up to the relation, can be left out. -/
theorem transcript_filter {β : Type} (step : σ → α → β × σ) (p : α → Bool) {R : σ → σ → Prop}
    (hskip : ∀ s t a, p a = false → R s t → R (step s a).2 t)
    (hkeep : ∀ s t a, p a = true → R s t →
      (step s a).1 = (step t a).1 ∧ R (step s a).2 (step t a).2)
    {s t : σ} (h : R s t) (l : List α) :
    repliesTo p l (transcript step s l).1 = (transcript step t (l.filter p)).1 ∧
      R (transcript step s l).2 (transcript step t (l.filter p)).2 := by
  induction l generalizing s t with
  | nil => exact ⟨rfl, h⟩
  | cons a l ih =>
    cases hp : p a with
    | false =>
      have hrest := ih (hskip s t a hp h)
      have hskipped : (a :: l).filter p = l.filter p := by simp [hp]
      rw [hskipped]
      refine ⟨?_, hrest.2⟩
      rw [← hrest.1]
      simp [repliesTo, transcript, hp]
    | true =>
      obtain ⟨hreply, hnext⟩ := hkeep s t a hp h
      have hrest := ih hnext
      have hkept : (a :: l).filter p = a :: l.filter p := by simp [hp]
      rw [hkept]
      refine ⟨?_, hrest.2⟩
      show repliesTo p (a :: l) ((step s a).1 :: _) = (step t a).1 :: _
      rw [← hrest.1, ← hreply]
      simp [repliesTo, hp]

end Run
