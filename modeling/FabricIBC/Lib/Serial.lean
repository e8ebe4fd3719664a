import Mathlib.Logic.Relation
import FabricIBC.Lib.MVCC
import FabricIBC.Lib.Outcome

/-!
# Concurrency control with queries

Transactions that read a ledger by queries, of which one may go through many keys,
as a query of a range does. Whoever simulates a transaction records queries, and for
each of them the keys it went through, with their versions. Before the commit the
queries are repeated: they have to go through the same keys in the same versions, so
that a key which has come into a range since is noticed too.

Of the recorded queries it is assumed that their answers determine what the
transaction does (`Suffices`), as those of all the queries it asks do. A peer may
simulate on any past ledger of the channel.

* `Simulated.run_of_valid` — a transaction that is valid does what it would do on the
  spot;
* `Steps.serial` — whatever the order of simulations and commits, the committed
  transactions have got the replies of a serial run, and its state;
* `Simulated.exists_answer_ne` — a state in which the transaction does something else
  answers one of the recorded queries differently;
* `Simulated.stale` — a transaction that read a key is not valid after another one
  wrote it.
-/

namespace MVCC

open Go (Outcome)

variable {σ K V W Q ε α β : Type} {S : Store σ K V W}

/-! ## Versions -/

/-- A version that is gone does not come back. -/
theorem Later.version_ne [DecidableEq K] {L₀ L₁ L : Ledger S} (h₀ : Later L₀ L₁) {w : W} {k : K}
    (hk : k ∈ S.keys w) (h : Later (L₁.commit w) L) {n : Nat} (hn : L₀.version k = some n) :
    L.version k ≠ some n := by
  intro hL
  have hlt := L₀.bound hn
  have hle := h₀.1
  rcases h.2 k with ⟨hversion, -⟩ | hwritten
  · -- the commit gave the key a version of its own, if it has a value
    have hcommit : (L₁.commit w).version k = (S.get (L₁.commit w).state k).map fun _ => L₁.commits :=
      if_pos hk
    rw [hL, hcommit] at hversion
    obtain ⟨v, -, hv⟩ := Option.map_eq_some_iff.mp hversion.symm
    omega
  · have hnew : (L₁.commit w).commits ≤ n := hwritten n hL
    have hcount : (L₁.commit w).commits = L₁.commits + 1 := rfl
    omega

/-! ## Services -/

/-- The keys a query goes through in a state, and transactions; one that succeeds has
a reply and a write set. -/
structure Service (S : Store σ K V W) (Q ε α β : Type) where
  scan : σ → Q → List K
  run : σ → α → Outcome ε (β × W)

/-- An endorsed simulation. -/
structure Endorsed (Q K W α β : Type) where
  tx : α
  reply : β
  reads : List (Q × List (K × Option Nat))
  writes : W

namespace Service

variable (P : Service S Q ε α β)

/-- A query on a state. -/
def answer (s : σ) (q : Q) : List (K × Option V) := (P.scan s q).map fun k => (k, S.get s k)

/-- What is recorded of a query. -/
def record (L : Ledger S) (q : Q) : List (K × Option Nat) :=
  (P.scan L.state q).map fun k => (k, L.version k)

/-- Run a transaction on the spot. -/
def serve (s : σ) (a : α) : Outcome ε β × σ :=
  match P.run s a with
  | .ok res => (.ok res.1, S.apply s res.2)
  | .err e => (.err e, s)
  | .panic p => (.panic p, s)

/-- Where the queries have the same answers, the transaction does the same. -/
def Suffices (s : σ) (a : α) (queries : List Q) : Prop :=
  ∀ s', (∀ q ∈ queries, P.answer s' q = P.answer s q) → P.run s' a = P.run s a

/-- A simulation on a ledger: it succeeds, and what is recorded determines the outcome. -/
structure Simulated (L : Ledger S) (p : Endorsed Q K W α β) : Prop where
  run : P.run L.state p.tx = .ok (p.reply, p.writes)
  record : ∀ r ∈ p.reads, r.2 = P.record L r.1
  enough : P.Suffices L.state p.tx (p.reads.map Prod.fst)

variable {P}

theorem serve_of_run {s : σ} {a : α} {b : β} {w : W} (h : P.run s a = .ok (b, w)) :
    P.serve s a = (.ok b, S.apply s w) := by
  simp only [serve, h]

/-- The same record is the same answer. -/
theorem answer_eq {L₀ L : Ledger S} (h : Later L₀ L) {q : Q} (hq : P.record L q = P.record L₀ q) :
    P.answer L.state q = P.answer L₀.state q := by
  have hscan : P.scan L.state q = P.scan L₀.state q := by
    have hkeys := congrArg (List.map Prod.fst) hq
    simpa [record, Function.comp_def] using hkeys
  rw [answer, answer, hscan]
  refine List.map_congr_left fun k hk => ?_
  -- both records list the key, with one version
  rw [record, record, hscan] at hq
  have hversion : L.version k = L₀.version k :=
    (Prod.mk.inj (List.map_inj_left.mp hq k hk)).2
  rw [h.get_eq hversion]

/-- **What a transaction depends on has been recorded.** -/
theorem Simulated.exists_answer_ne {L : Ledger S} {p : Endorsed Q K W α β} (h : P.Simulated L p)
    {s : σ} (hne : P.run s p.tx ≠ .ok (p.reply, p.writes)) :
    ∃ r ∈ p.reads, P.answer s r.1 ≠ P.answer L.state r.1 := by
  by_contra hsame
  push Not at hsame
  refine hne (Eq.trans (h.enough s fun q hq => ?_) h.run)
  obtain ⟨r, hr, rfl⟩ := List.mem_map.mp hq
  exact hsame r hr

variable [DecidableEq K]

/-- The queries still go through the same keys in the same versions. -/
def valid (P : Service S Q ε α β) (L : Ledger S) (p : Endorsed Q K W α β) : Bool :=
  p.reads.all fun r => decide (P.record L r.1 = r.2)

theorem Simulated.record_of_valid {L₀ L : Ledger S} {p : Endorsed Q K W α β}
    (hsim : P.Simulated L₀ p) (hvalid : P.valid L p = true) {r : Q × List (K × Option Nat)}
    (hr : r ∈ p.reads) : P.record L r.1 = P.record L₀ r.1 := by
  have hread : P.record L r.1 = r.2 := by simpa using List.all_eq_true.mp hvalid r hr
  rw [hread, hsim.record r hr]

/-- **A transaction that is valid does what it would do on the spot.** -/
theorem Simulated.run_of_valid {L₀ L : Ledger S} {p : Endorsed Q K W α β} (hsim : P.Simulated L₀ p)
    (hlater : Later L₀ L) (hvalid : P.valid L p = true) :
    P.run L.state p.tx = .ok (p.reply, p.writes) := by
  rw [← hsim.run]
  refine hsim.enough _ fun q hq => ?_
  obtain ⟨r, hr, rfl⟩ := List.mem_map.mp hq
  exact answer_eq hlater (hsim.record_of_valid hvalid hr)

/-- A transaction that read a version of a key is not valid once the key was written. -/
theorem Simulated.stale {L₀ L₁ L : Ledger S} {p : Endorsed Q K W α β} (hsim : P.Simulated L₀ p)
    {r : Q × List (K × Option Nat)} (hr : r ∈ p.reads) {k : K} (hk : k ∈ P.scan L₀.state r.1)
    {n : Nat} (hn : L₀.version k = some n) (h₁ : Later L₀ L₁) {w : W} (hw : k ∈ S.keys w)
    (h : Later (L₁.commit w) L) : P.valid L p = false := by
  by_contra hvalid
  rw [Bool.not_eq_false] at hvalid
  have hread : (k, some n) ∈ P.record L₀ r.1 := by
    rw [Service.record, ← hn]
    exact List.mem_map_of_mem hk
  -- a transaction that is still valid finds the version it has read
  rw [← hsim.record_of_valid hvalid hr, Service.record, List.mem_map] at hread
  obtain ⟨k', -, heq⟩ := hread
  obtain ⟨rfl, hversion⟩ := Prod.mk.inj heq
  exact h₁.version_ne hw h hn hversion

end Service

/-! ## A channel -/

/-- The ledgers so far and the last one, the endorsed transactions, and those that
were committed, with their replies. -/
structure Channel (S : Store σ K V W) (Q α β : Type) where
  past : List (Ledger S)
  ledger : Ledger S
  endorsed : List (Endorsed Q K W α β)
  chain : List (α × β)

/-- A channel that begins with a ledger. -/
def Channel.start (L : Ledger S) : Channel S Q α β := ⟨[L], L, [], []⟩

namespace Channel

variable {P : Service S Q ε α β}

/-- Everything comes from the history of the ledger. -/
structure Consistent (P : Service S Q ε α β) (N : Channel S Q α β) : Prop where
  past : ∀ L ∈ N.past, Later L N.ledger
  endorsed : ∀ p ∈ N.endorsed, ∃ L₀, Later L₀ N.ledger ∧ P.Simulated L₀ p

theorem consistent_start (L : Ledger S) : (start L : Channel S Q α β).Consistent P where
  past L' hL' := by
    rw [List.mem_singleton.mp hL']
    exact Later.refl L
  endorsed p hp := absurd hp List.not_mem_nil

/-- A transaction is endorsed. -/
def endorse (N : Channel S Q α β) (p : Endorsed Q K W α β) : Channel S Q α β :=
  { N with endorsed := N.endorsed ++ [p] }

variable [DecidableEq K]

/-- A transaction is committed. -/
def accept (N : Channel S Q α β) (p : Endorsed Q K W α β) : Channel S Q α β where
  past := N.past ++ [N.ledger.commit p.writes]
  ledger := N.ledger.commit p.writes
  endorsed := N.endorsed
  chain := N.chain ++ [(p.tx, p.reply)]

/-- A transaction is simulated on a ledger of the past, or an endorsed one is ordered
and found valid. One that is found invalid changes nothing. -/
inductive Step (P : Service S Q ε α β) : Channel S Q α β → Channel S Q α β → Prop
  | simulate {N : Channel S Q α β} {L : Ledger S} {p : Endorsed Q K W α β} (hL : L ∈ N.past)
      (hp : P.Simulated L p) : Step P N (N.endorse p)
  | commit {N : Channel S Q α β} {p : Endorsed Q K W α β} (hp : p ∈ N.endorsed)
      (hvalid : P.valid N.ledger p = true) : Step P N (N.accept p)

/-- Simulations and commits in any order. -/
def Steps (P : Service S Q ε α β) : Channel S Q α β → Channel S Q α β → Prop :=
  Relation.ReflTransGen (Step P)

theorem Consistent.step {N N' : Channel S Q α β} (h : N.Consistent P) (hstep : Step P N N') :
    N'.Consistent P := by
  cases hstep with
  | simulate hL hsim =>
    refine ⟨h.past, fun p' hp' => ?_⟩
    rcases List.mem_append.mp hp' with hp' | hp'
    · exact h.endorsed p' hp'
    · rw [List.mem_singleton.mp hp']
      exact ⟨_, h.past _ hL, hsim⟩
  | @commit p _ _ =>
    -- the new ledger comes after all the others
    refine ⟨fun L hL => ?_, fun p' hp' => ?_⟩
    · rcases List.mem_append.mp hL with hL | hL
      · exact (h.past L hL).commit p.writes
      · rw [List.mem_singleton.mp hL]
        exact Later.refl _
    · obtain ⟨L₀, hlater, hsim⟩ := h.endorsed p' hp'
      exact ⟨L₀, hlater.commit p.writes, hsim⟩

theorem Steps.consistent {L : Ledger S} {N : Channel S Q α β} (h : Steps P (start L) N) :
    N.Consistent P := by
  induction h with
  | refl => exact consistent_start L
  | tail _ hstep ih => exact ih.step hstep

/-- The ledger after some steps comes later than that before them. -/
theorem Steps.later {N N' : Channel S Q α β} (h : Steps P N N') : Later N.ledger N'.ledger := by
  induction h with
  | refl => exact Later.refl _
  | tail _ hstep ih =>
    cases hstep with
    | simulate _ _ => exact ih
    | commit _ _ => exact ih.commit _

/-- The committed transactions are a serial run from `s` with these replies. -/
def Serial (P : Service S Q ε α β) (s : σ) (N : Channel S Q α β) : Prop :=
  Run.transcript P.serve s (N.chain.map Prod.fst) =
    (N.chain.map fun x => .ok x.2, N.ledger.state)

theorem Serial.step {s : σ} {N N' : Channel S Q α β} (hN : N.Consistent P) (h : N.Serial P s)
    (hstep : Step P N N') : N'.Serial P s := by
  cases hstep with
  | simulate _ _ => exact h
  | @commit p hp hvalid =>
    -- on the spot the transaction would reply and write the same
    obtain ⟨L₀, hlater, hsim⟩ := hN.endorsed p hp
    have hserve := Service.serve_of_run (hsim.run_of_valid hlater hvalid)
    show Run.transcript P.serve s ((N.chain ++ [(p.tx, p.reply)]).map Prod.fst) = _
    rw [List.map_append, List.map_singleton, Run.transcript_concat, h, hserve, accept,
      List.map_append]
    rfl

/-- **Every order of simulations and commits is serial.** -/
theorem Steps.serial {L : Ledger S} {N : Channel S Q α β} (h : Steps P (start L) N) :
    N.Serial P L.state := by
  induction h with
  | refl => rfl
  | tail hsteps hstep ih => exact ih.step (Steps.consistent hsteps) hstep

end Channel

end MVCC
