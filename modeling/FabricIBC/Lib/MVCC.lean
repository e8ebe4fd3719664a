import Mathlib.Data.Option.Basic
import FabricIBC.Lib.Run

/-!
# Multi-version concurrency control

Transactions are simulated on a snapshot of a ledger, which gives a read set
with versions and a write set. A later commit applies the write set if every
key that was read still has the version that was read.

The ledger counts its commits; the version of a key is the number of the commit
that wrote its value, and a key without a value has none. So two ledgers of one
history in which a key has the same version hold the same value under it
(`Later.get_eq`), and a valid commit does what running the transaction on the
spot would have done (`run_of_valid`).

* `run_serial` — whatever the interleaving of simulations and commits, the
  ledger is that of the committed transactions run one after the other, and what
  was true of each of them when it was simulated is true when it takes effect.
-/

namespace MVCC

/-- States that are read by key and changed by write sets. -/
structure Store (σ K V W : Type) where
  get : σ → K → Option V
  apply : σ → W → σ
  keys : W → List K
  frame : ∀ {s w k}, k ∉ keys w → get (apply s w) k = get s k

variable {σ K V W α : Type} {S : Store σ K V W}

/-! ## Ledgers -/

structure Ledger (S : Store σ K V W) where
  state : σ
  version : K → Option Nat
  commits : Nat
  bound : ∀ {k n}, version k = some n → n < commits
  absent : ∀ {k}, version k = none ↔ S.get state k = none

/-- The second ledger comes later in the history of the first: a key has its
value still, or it was written since. -/
def Later (L₀ L : Ledger S) : Prop :=
  L₀.commits ≤ L.commits ∧
  ∀ k, (L.version k = L₀.version k ∧ S.get L.state k = S.get L₀.state k) ∨
    ∀ n, L.version k = some n → L₀.commits ≤ n

theorem Later.refl (L : Ledger S) : Later L L := ⟨Nat.le_refl _, fun _ => Or.inl ⟨rfl, rfl⟩⟩

/-- The same version is the same value. -/
theorem Later.get_eq {L₀ L : Ledger S} (h : Later L₀ L) {k : K}
    (hversion : L.version k = L₀.version k) : S.get L.state k = S.get L₀.state k := by
  rcases h.2 k with ⟨-, hsame⟩ | hwritten
  · exact hsame
  · cases hv : L.version k with
    | none => rw [L.absent.mp hv, L₀.absent.mp (hversion.symm.trans hv)]
    | some n =>
      -- a version since the snapshot is not one of the snapshot
      have hlt := L₀.bound (hversion.symm.trans hv)
      have hle := hwritten n hv
      omega

/-! ## Transactions -/

/-- A kind of transactions: the keys one reads in a state, and its write set if
it succeeds. The keys it reads determine the outcome. -/
structure Program (S : Store σ K V W) (α : Type) where
  reads : σ → α → List K
  run : σ → α → Option W
  reads_suffice : ∀ {s s' a}, (∀ k ∈ reads s a, S.get s' k = S.get s k) → run s' a = run s a

/-- An endorsed simulation. -/
structure Proposal (W K α : Type) where
  tx : α
  readSet : List (K × Option Nat)
  writes : W

/-- Simulate a transaction on a ledger. -/
def simulate (P : Program S α) (L : Ledger S) (a : α) : Option (Proposal W K α) :=
  (P.run L.state a).map fun w => ⟨a, (P.reads L.state a).map fun k => (k, L.version k), w⟩

/-- Every key still has the version that was read. -/
def valid (L : Ledger S) (p : Proposal W K α) : Bool :=
  p.readSet.all fun r => L.version r.1 == r.2

/-- What a valid proposal read is what the ledger holds. -/
theorem reads_of_valid {P : Program S α} {L₀ L : Ledger S} {a : α} {p : Proposal W K α}
    (hlater : Later L₀ L) (hsim : simulate P L₀ a = some p) (hvalid : valid L p = true) :
    ∀ k ∈ P.reads L₀.state a, S.get L.state k = S.get L₀.state k := by
  obtain ⟨w, -, rfl⟩ := Option.map_eq_some_iff.mp hsim
  intro k hk
  have hread := List.all_eq_true.mp hvalid (k, L₀.version k) (List.mem_map_of_mem hk)
  exact hlater.get_eq (by simpa using hread)

/-- **A valid commit acts as if the transaction were run on the spot.** -/
theorem run_of_valid {P : Program S α} {L₀ L : Ledger S} {a : α} {p : Proposal W K α}
    (hlater : Later L₀ L) (hsim : simulate P L₀ a = some p) (hvalid : valid L p = true) :
    P.run L.state a = some p.writes := by
  rw [P.reads_suffice (reads_of_valid hlater hsim hvalid)]
  obtain ⟨w, hw, rfl⟩ := Option.map_eq_some_iff.mp hsim
  exact hw

/-! ## Commits -/

variable [DecidableEq K]

/-- Apply a write set; the keys it leaves with a value get the new version. -/
def Ledger.commit (L : Ledger S) (w : W) : Ledger S where
  state := S.apply L.state w
  version k :=
    if k ∈ S.keys w then (S.get (S.apply L.state w) k).map fun _ => L.commits else L.version k
  commits := L.commits + 1
  bound {k n} h := by
    by_cases hk : k ∈ S.keys w
    · rw [if_pos hk] at h
      obtain ⟨v, -, rfl⟩ := Option.map_eq_some_iff.mp h
      omega
    · rw [if_neg hk] at h
      have := L.bound h
      omega
  absent {k} := by
    by_cases hk : k ∈ S.keys w
    · rw [if_pos hk, Option.map_eq_none_iff]
    · rw [if_neg hk, S.frame hk, L.absent]

theorem Later.commit {L₀ L : Ledger S} (h : Later L₀ L) (w : W) : Later L₀ (L.commit w) := by
  refine ⟨Nat.le_succ_of_le h.1, fun k => ?_⟩
  by_cases hk : k ∈ S.keys w
  · right
    intro n hn
    have hversion : (L.commit w).version k = (S.get (L.commit w).state k).map fun _ => L.commits :=
      if_pos hk
    rw [hversion] at hn
    obtain ⟨v, -, rfl⟩ := Option.map_eq_some_iff.mp hn
    exact h.1
  · have hversion : (L.commit w).version k = L.version k := if_neg hk
    have hget : S.get (L.commit w).state k = S.get L.state k := S.frame hk
    rw [hversion, hget]
    exact h.2 k

/-! ## A network -/

/-- The ledger, the proposals endorsed so far, and the transactions committed. -/
structure Network (S : Store σ K V W) (α : Type) where
  ledger : Ledger S
  proposals : List (Proposal W K α)
  chain : List α

inductive Event (α : Type)
  | simulate (a : α)
  -- the proposal of this number is ordered and validated
  | commit (i : Nat)

def Network.step (P : Program S α) (N : Network S α) : Event α → Network S α
  | .simulate a =>
    match MVCC.simulate P N.ledger a with
    | none => N
    | some p => { N with proposals := N.proposals ++ [p] }
  | .commit i =>
    match N.proposals[i]? with
    | none => N
    | some p =>
      if valid N.ledger p then
        { N with ledger := N.ledger.commit p.writes, chain := N.chain ++ [p.tx] }
      else N

/-- Everything an event can do. -/
theorem Network.step_eq (P : Program S α) (N : Network S α) (e : Event α) :
    N.step P e = N ∨
    (∃ a p, e = .simulate a ∧ MVCC.simulate P N.ledger a = some p ∧
      N.step P e = { N with proposals := N.proposals ++ [p] }) ∨
    ∃ i p, e = .commit i ∧ N.proposals[i]? = some p ∧ valid N.ledger p = true ∧
      N.step P e = { N with ledger := N.ledger.commit p.writes, chain := N.chain ++ [p.tx] } := by
  cases e with
  | simulate a =>
    cases hsim : MVCC.simulate P N.ledger a with
    | none => exact Or.inl (by simp only [Network.step, hsim])
    | some p => exact Or.inr (Or.inl ⟨a, p, rfl, hsim, by simp only [Network.step, hsim]⟩)
  | commit i =>
    cases hp : N.proposals[i]? with
    | none => exact Or.inl (by simp only [Network.step, hp])
    | some p =>
      by_cases hvalid : valid N.ledger p = true
      · exact Or.inr (Or.inr ⟨i, p, rfl, hp, hvalid, by simp only [Network.step, hp, hvalid, if_true]⟩)
      · exact Or.inl (by simp only [Network.step, hp, hvalid, Bool.false_eq_true, if_false])

/-- Run a transaction on a state. -/
def exec (P : Program S α) (s : σ) (a : α) : σ :=
  match P.run s a with
  | none => s
  | some w => S.apply s w

section Serial

variable {P : Program S α} {Q : σ → α → Prop}

/-- Every proposal was simulated, under the condition `Q`, on an earlier ledger. -/
def Network.Sound (P : Program S α) (Q : σ → α → Prop) (N : Network S α) : Prop :=
  ∀ p ∈ N.proposals, ∃ L₀, Later L₀ N.ledger ∧ MVCC.simulate P L₀ p.tx = some p ∧ Q L₀.state p.tx

/-- The transaction succeeds in a state that meets the condition. -/
def Succeeds (P : Program S α) (Q : σ → α → Prop) (s : σ) (a : α) : Prop :=
  Q s a ∧ ∃ w, P.run s a = some w

/-- What one event does to the ledger: nothing, or what its transaction does on
the spot. -/
theorem Network.step_cases {N : Network S α} (hsound : N.Sound P Q)
    (hQ : ∀ {s s' a}, (∀ k ∈ P.reads s a, S.get s' k = S.get s k) → Q s a → Q s' a)
    (e : Event α) :
    ((N.step P e).ledger = N.ledger ∧ (N.step P e).chain = N.chain) ∨
      ∃ a, Succeeds P Q N.ledger.state a ∧ (N.step P e).chain = N.chain ++ [a] ∧
        (N.step P e).ledger.state = exec P N.ledger.state a := by
  rcases N.step_eq P e with heq | ⟨a, p, -, -, heq⟩ | ⟨i, p, -, hp, hvalid, heq⟩ <;> rw [heq]
  · exact Or.inl ⟨rfl, rfl⟩
  · exact Or.inl ⟨rfl, rfl⟩
  · -- the proposal read what the ledger still holds
    obtain ⟨L₀, hlater, hsim, hq⟩ := hsound p (List.mem_of_getElem? hp)
    have hrun := run_of_valid hlater hsim hvalid
    have hq' := hQ (reads_of_valid hlater hsim hvalid) hq
    refine Or.inr ⟨p.tx, ⟨hq', _, hrun⟩, rfl, ?_⟩
    rw [exec, hrun]
    rfl

theorem Network.Sound.step {N : Network S α} (hsound : N.Sound P Q) {e : Event α}
    (hsim : ∀ a, e = .simulate a → Q N.ledger.state a) : (N.step P e).Sound P Q := by
  rcases N.step_eq P e with heq | ⟨a, p, rfl, hs, heq⟩ | ⟨i, p, -, -, -, heq⟩ <;> rw [heq]
  · exact hsound
  · intro p' hp'
    rcases List.mem_append.mp hp' with hp' | hp'
    · exact hsound p' hp'
    · rw [List.mem_singleton.mp hp']
      have htx : p.tx = a := by
        obtain ⟨w, -, rfl⟩ := Option.map_eq_some_iff.mp hs
        rfl
      rw [htx]
      exact ⟨N.ledger, .refl _, hs, hsim a rfl⟩
  · intro p' hp'
    obtain ⟨L₀, hlater, hrest⟩ := hsound p' hp'
    exact ⟨L₀, hlater.commit p.writes, hrest⟩

/-- **Every interleaving is serial.** -/
theorem run_serial {N : Network S α} (hsound : N.Sound P Q)
    (hQ : ∀ {s s' a}, (∀ k ∈ P.reads s a, S.get s' k = S.get s k) → Q s a → Q s' a)
    {events : List (Event α)}
    (hsim : Run.Along (Network.step P) (fun N e => ∀ a, e = .simulate a → Q N.ledger.state a) N
      events) :
    ∃ txs, (Run.run (Network.step P) N events).chain = N.chain ++ txs ∧
      Run.Along (exec P) (Succeeds P Q) N.ledger.state txs ∧
      (Run.run (Network.step P) N events).ledger.state = Run.run (exec P) N.ledger.state txs := by
  induction events generalizing N with
  | nil => exact ⟨[], (List.append_nil _).symm, trivial, rfl⟩
  | cons e events ih =>
    obtain ⟨txs, hchain, halong, hstate⟩ := ih (hsound.step hsim.1) hsim.2
    rcases N.step_cases hsound hQ e with ⟨hledger, hsame⟩ | ⟨a, hsucc, hnew, hexec⟩
    · rw [hledger] at halong hstate
      exact ⟨txs, by rw [Run.run_cons, hchain, hsame], halong, hstate⟩
    · rw [hexec] at halong hstate
      refine ⟨a :: txs, ?_, ⟨hsucc, halong⟩, hstate⟩
      rw [Run.run_cons, hchain, hnew, List.append_assoc, List.singleton_append]

end Serial

end MVCC
