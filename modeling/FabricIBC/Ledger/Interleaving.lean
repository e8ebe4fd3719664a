import FabricIBC.Lib.Serial
import FabricIBC.Chaincode.Concurrency
import FabricIBC.Chaincode.PastView
import FabricIBC.Ledger.Refinement

/-!
# Fabric-IBC — ledger: interleavings

Transactions of the chaincode on a Fabric channel. Peers simulate them, each on a
ledger it has reached, with its own order of writing the stores of a cache, and record
what the stub is asked: single keys (`GetState`) and ranges (`GetStateByRange`). The
transactions are ordered and validated by the versions of what was read, ranges
included, and what is valid is committed.

Assumed of the peers: the reads they record determine what the transaction does
(`MVCC.Service.Suffices`). The chaincode learns about the world state by its reads
only, so a record of all of them does.

* `channel_refines_ledger` — whatever the interleaving, the committed transactions
  are a serial run of the abstract ledger, with the replies that were endorsed;
* `sequence_fences` — after an update of the sequence no transaction that was
  simulated before is valid, if it depends on the current sequence.
-/

namespace FabricIBC

open Go
open store (StoreKey)

/-! ## Reads of the stub -/

/-- `GetState` or `GetStateByRange`. -/
inductive Access
  | key (k : Bytes)
  | range (startKey endKey : Bytes)
  deriving DecidableEq, Repr

/-- The keys a read goes through. -/
def Access.scan (ws : WorldState) : Access → List Bytes
  | key k => [k]
  | range startKey endKey =>
    (OrderedMap.range ws (rangeBound startKey) (rangeBound endKey)).map Prod.fst

/-- A read that does not go through a key does not notice when it is deleted. -/
theorem Access.scan_del {ws : WorldState} {a : Access} {k : Bytes} (h : k ∉ a.scan ws) :
    a.scan (Write.apply ws (.del k)) = a.scan ws := by
  cases a with
  | key k' => rfl
  | range startKey endKey =>
    refine congrArg (List.map Prod.fst) (OrderedMap.range_congr fun x hx => ?_)
    by_cases hkx : k = x
    · -- the key is in the range, but there is nothing under it
      subst hkx
      have hnone : ws[k]? = none := by
        rw [Option.eq_none_iff_forall_not_mem]
        intro v hv
        exact h (List.mem_map.mpr ⟨(k, v), OrderedMap.mem_range.mpr ⟨hv, hx⟩, rfl⟩)
      rw [hnone]
      simp [Write.apply]
    · exact getElem?_apply_of_ne hkx

/-! ## Transactions of a channel -/

/-- A proposal, and the order in which the peer that simulates it writes stores. -/
structure Proposed (K : store.StoreKeys) where
  inv : Invocation
  order : List StoreKey
  perm : order.Perm K.all

section Service

variable {C : Codec} {τ μ Γ : Type}

def IBCApp.withOrder (app : IBCApp τ μ Γ) (order : List StoreKey)
    (perm : order.Perm app.keys.all) : IBCApp τ μ Γ :=
  { app with order := fun _ => order, order_perm := fun _ => perm }

/-- The deployment on the peer of a proposal. -/
def Deployment.on (d : Deployment C τ μ Γ) (p : Proposed d.app.keys) : Deployment C τ μ Γ where
  sequenceMgr := d.sequenceMgr
  app := d.app.withOrder p.order p.perm
  ibc := d.ibc
  ibc_name := d.ibc_name
  keeper := d.keeper
  packetCodec := d.packetCodec

/-- The chaincode as a service of the channel. -/
def Deployment.service (d : Deployment C τ μ Γ) :
    MVCC.Service worldStore Access Error (Proposed d.app.keys) Response where
  scan := Access.scan
  run ws p := (d.on p).chaincode.invoke (p.inv.stub ws) p.inv.call

variable {d : Deployment C τ μ Γ}

/-- The ledger knows no order of stores. -/
theorem serve_on (p : Proposed d.app.keys) (L : d.State) :
    (d.on p).serve L p.inv = d.serve L p.inv := by
  have hgenesis : ∀ appStateBytes, (d.on p).genesis appStateBytes = d.genesis appStateBytes := by
    intro appStateBytes
    obtain ⟨m, ⟨keys, base, setup, initChainer, start, quiet, order, perm⟩, ibc, name, keeper, codec⟩ := d
    cases initChainer <;> rfl
  have hperform : (d.on p).perform L p.inv = d.perform L p.inv := by
    unfold Deployment.perform
    cases p.inv.call with
    | initChaincode appStateJSON =>
      simp only [Deployment.initChaincode, Deployment.init, hgenesis]
      rfl
    | _ => rfl
  unfold Deployment.serve
  rw [hperform]
  cases d.perform L p.inv <;> rfl

/-- A transaction on the spot is a transaction of the ledger. -/
theorem service_rel {L : d.State} {ws : WorldState} (h : Mirrors d.sequenceMgr L ws)
    (p : Proposed d.app.keys) :
    (d.service.serve ws p).1 = (d.serve L p.inv).1 ∧
      Mirrors d.sequenceMgr (d.serve L p.inv).2 (d.service.serve ws p).2 := by
  have hserve : d.service.serve ws p = (d.on p).chaincode.serve ws p.inv := by
    have hrun : d.service.run ws p = (d.on p).chaincode.invoke (p.inv.stub ws) p.inv.call := rfl
    rw [MVCC.Service.serve, IBCChaincode.serve, IBCChaincode.commit, hrun]
    cases (d.on p).chaincode.invoke (p.inv.stub ws) p.inv.call <;> rfl
  have hrel := serve_rel (d := d.on p) h p.inv
  rw [serve_on] at hrel
  rw [hserve]
  exact hrel

/-- A record of the whole world state is enough for any transaction. -/
theorem suffices_everything (d : Deployment C τ μ Γ) (ws : WorldState) (p : Proposed d.app.keys) :
    d.service.Suffices ws p [.range [] []] := by
  intro ws' hanswer
  have hsame : d.service.answer ws' (.range [] []) = d.service.answer ws (.range [] []) :=
    hanswer _ List.mem_cons_self
  -- the range without bounds goes through every pair
  have hmem : ∀ (ws : WorldState) (x v : Bytes),
      ws[x]? = some v ↔ (x, some v) ∈ d.service.answer ws (.range [] []) := by
    intro ws x v
    constructor
    · intro hx
      refine List.mem_map.mpr ⟨x, List.mem_map.mpr ⟨(x, v), ?_, rfl⟩, congrArg (x, ·) hx⟩
      exact OrderedMap.mem_range.mpr ⟨hx, by simp [OrderedMap.InRange, rangeBound]⟩
    · intro hx
      obtain ⟨y, -, hy⟩ := List.mem_map.mp hx
      obtain ⟨rfl, hv⟩ := Prod.mk.inj hy
      exact hv
  have hws : ws' = ws := by
    refine Std.ExtTreeMap.ext_getElem? fun x => Option.ext fun v => ?_
    rw [hmem, hmem, hsame]
  rw [hws]

end Service

/-! ## A race -/

namespace Sample

open Symbolic (codec)

/-- A call that is simulated at second `t`. -/
def proposedAt (t : Int64) (call : Call) : Proposed deployment.app.keys :=
  ⟨callAt t call, sampleKeys.all, List.Perm.refl _⟩

/-- What a peer endorses on a ledger, if it records these reads. -/
def endorsedOn (V : MVCC.Ledger worldStore) (p : Proposed deployment.app.keys)
    (reads : List Access) :
    Option (MVCC.Endorsed Access Bytes (List Write) (Proposed deployment.app.keys) Response) :=
  match deployment.service.run V.state p with
  | .ok res => some ⟨p, res.1, reads.map fun a => (a, deployment.service.record V a), res.2⟩
  | .err _ => none
  | .panic _ => none

theorem simulated_of_endorsedOn {V : MVCC.Ledger worldStore} {p : Proposed deployment.app.keys}
    {reads : List Access}
    {e : MVCC.Endorsed Access Bytes (List Write) (Proposed deployment.app.keys) Response}
    (h : endorsedOn V p reads = some e) (hreads : deployment.service.Suffices V.state p reads) :
    deployment.service.Simulated V e := by
  rw [endorsedOn] at h
  cases hrun : deployment.service.run V.state p with
  | ok res =>
    simp only [hrun, Option.some.injEq] at h
    rw [← h]
    refine ⟨hrun, fun r hr => ?_, ?_⟩
    · obtain ⟨a, -, rfl⟩ := List.mem_map.mp hr
      rfl
    · simpa [Function.comp_def] using hreads
  | err e => simp [hrun] at h
  | panic p => simp [hrun] at h

theorem init_isSome : (endorsedOn SequenceManager.emptyLedger (proposedAt 100 (.initChaincode [5]))
    [.range [] []]).isSome := by decide +kernel

/-- The chaincode is initialised. -/
def initTx : MVCC.Endorsed Access Bytes (List Write) (Proposed deployment.app.keys) Response :=
  (endorsedOn _ _ _).get init_isSome

/-- The channel after that. -/
def begun : MVCC.Channel worldStore Access (Proposed deployment.app.keys) Response :=
  ((MVCC.Channel.start SequenceManager.emptyLedger).endorse initTx).accept initTx

theorem tx_isSome (m : Fin 2) : (endorsedOn begun.ledger
    (proposedAt 110 (.handleTx [UInt8.ofNat (m + 2)])) [.range [] []]).isSome := by
  revert m
  decide +kernel

theorem update_isSome : (endorsedOn begun.ledger (proposedAt 110 .updateSequence)
    [.key (makeCurrentSequenceKey host.storeKey)]).isSome := by decide +kernel

/-- One of two transactions. -/
def raceTx (m : Fin 2) :
    MVCC.Endorsed Access Bytes (List Write) (Proposed deployment.app.keys) Response :=
  (endorsedOn _ _ _).get (tx_isSome m)

/-- An update of the sequence. -/
def updateTx : MVCC.Endorsed Access Bytes (List Write) (Proposed deployment.app.keys) Response :=
  (endorsedOn _ _ _).get update_isSome

/-- The two transactions and the update are simulated on the ledger after the
initialisation, and the first transaction is committed. -/
def raced : MVCC.Channel worldStore Access (Proposed deployment.app.keys) Response :=
  (((begun.endorse (raceTx 0)).endorse updateTx).endorse (raceTx 1)).accept (raceTx 0)

theorem simulated_tx (m : Fin 2) : deployment.service.Simulated begun.ledger (raceTx m) :=
  simulated_of_endorsedOn (Option.some_get (tx_isSome m)).symm (suffices_everything _ _ _)

/-- `UpdateSequence` reads the pointer record only. -/
theorem simulated_update : deployment.service.Simulated begun.ledger updateTx := by
  refine simulated_of_endorsedOn (Option.some_get update_isSome).symm fun ws' hanswer => ?_
  have hread : ws'[makeCurrentSequenceKey host.storeKey]? =
      begun.ledger.state[makeCurrentSequenceKey host.storeKey]? := by
    have hpair := hanswer _ List.mem_cons_self
    exact (Prod.mk.inj (List.cons.inj hpair).1).2
  exact congrArg (respond .sequence)
    (SequenceManager.updateSequence_congr (m := .newDefault) (a := ⟨.ok 110, 110⟩) hread)

theorem steps_raced :
    MVCC.Channel.Steps deployment.service (.start SequenceManager.emptyLedger) raced := by
  have hinit : deployment.service.Simulated SequenceManager.emptyLedger initTx :=
    simulated_of_endorsedOn (Option.some_get init_isSome).symm (suffices_everything _ _ _)
  have hbegun : MVCC.Channel.Steps deployment.service (.start SequenceManager.emptyLedger) begun :=
    (Relation.ReflTransGen.single (.simulate List.mem_cons_self hinit)).tail
      (.commit List.mem_cons_self (by decide +kernel))
  -- the three simulations take the ledger after the initialisation
  have hlast : begun.ledger ∈ begun.past := List.mem_cons_of_mem _ List.mem_cons_self
  refine Relation.ReflTransGen.tail (Relation.ReflTransGen.tail (Relation.ReflTransGen.tail
    (hbegun.tail (.simulate hlast (simulated_tx 0))) (.simulate hlast simulated_update))
    (.simulate hlast (simulated_tx 1))) (.commit ?_ (by decide +kernel))
  exact List.mem_cons_of_mem _ List.mem_cons_self

end Sample

section Fences

variable {C : Codec} {τ μ Γ : Type} {d : Deployment C τ μ Γ}

/-- The call looks at the current sequence: it runs in a block, makes the next
sequence, or endorses the current one. -/
def Invocation.readsCurrent (inv : Invocation) : Bool :=
  match inv.call with
  | .handleTx _ => true
  | .updateSequence => true
  -- with an argument it looks for a numbered sequence
  | .endorseSequenceCommitment => decide (inv.args.length ≤ 1)
  | _ => false

/-- Without a current sequence there is no block. -/
theorem getBlockHeader_of_no_current {cc : IBCChaincode C} {stub : Stub} {name : Bytes}
    {header : BlockHeader} {e : Error} (hcurrent : cc.sequenceMgr.getCurrentSequence stub = .err e) :
    getBlockHeader name (cc.getBlockProvider stub) ≠ .ok header := by
  rw [IBCChaincode.getBlockProvider, hcurrent]
  rintro ⟨⟩

/-- **A call that looks at the current sequence fails without one.** -/
theorem invoke_of_no_current {inv : Invocation} (hinv : inv.readsCurrent = true) {ws : WorldState}
    (hnone : ws[makeCurrentSequenceKey d.sequenceMgr.pfx]? = none) (res : Response × List Write) :
    d.chaincode.invoke (inv.stub ws) inv.call ≠ .ok res := by
  have hcurrent : d.chaincode.sequenceMgr.getCurrentSequence (inv.stub ws) =
      .err (.new "key not found") := by
    have hget : (inv.stub ws).getState (makeCurrentSequenceKey d.chaincode.sequenceMgr.pfx) = none :=
      hnone
    rw [SequenceManager.getCurrentSequence, SequenceManager.readSequence, hget]
  intro h
  rw [Invocation.readsCurrent] at hinv
  cases hcall : inv.call with
  | updateSequence =>
    rw [hcall, IBCChaincode.invoke, SequenceManager.updateSequence, hcurrent] at h
    cases h
  | endorseSequenceCommitment =>
    have hrequested : d.chaincode.requestedSequence (inv.stub ws) =
        d.chaincode.sequenceMgr.getCurrentSequence (inv.stub ws) := by
      have hargs : (inv.stub ws).args = inv.args := rfl
      rw [IBCChaincode.requestedSequence, hargs]
      rw [hcall] at hinv
      have hlength : inv.args.length ≤ 1 := of_decide_eq_true hinv
      generalize inv.args = args at hlength
      rcases args with - | ⟨name, - | ⟨arg, rest⟩⟩
      · rfl
      · rfl
      · simp at hlength
    rw [hcall, IBCChaincode.invoke, IBCChaincode.endorseSequenceCommitment, hrequested, hcurrent] at h
    cases h
  | handleTx txJSON =>
    -- the transaction is decoded, and then the block is asked for
    rw [hcall] at h
    obtain ⟨r, done, hrun⟩ := runTx_of_invoke h
    obtain ⟨tx, -, hrun⟩ := Outcome.bind_eq_ok_iff.mp hrun
    obtain ⟨header, hheader, -⟩ := Outcome.bind_eq_ok_iff.mp hrun
    exact getBlockHeader_of_no_current hcurrent hheader
  | _ =>
    rw [hcall] at hinv
    cases hinv

/-- A call that begins a sequence writes the pointer record. -/
theorem current_mem_keys {ws : WorldState} {inv : Invocation}
    (hinv : inv.call.writesRecord = true) {res : Response} {writes : List Write}
    (h : d.chaincode.invoke (inv.stub ws) inv.call = .ok (res, writes)) :
    makeCurrentSequenceKey d.sequenceMgr.pfx ∈ writes.map Write.key := by
  have hput : ∀ seq, makeCurrentSequenceKey d.sequenceMgr.pfx ∈
      (d.sequenceMgr.putSequence seq).map Write.key := fun seq => List.mem_cons_self
  cases hcall : inv.call with
  | updateSequence =>
    rw [hcall] at h
    obtain ⟨seq, hupdate, -⟩ := respond_eq_ok_iff.mp h
    obtain ⟨current, tm, -, -, -, rfl⟩ := SequenceManager.updateSequence_eq_ok_iff.mp hupdate
    exact hput seq
  | initChaincode appStateJSON =>
    rw [hcall, IBCChaincode.invoke] at h
    obtain ⟨u, hinit, -⟩ := respond_eq_ok_iff.mp h
    simp only [IBCChaincode.initChaincode, Outcome.bind_eq_ok_iff, Outcome.ok.injEq,
      Prod.mk.injEq] at hinit
    obtain ⟨app, -, ⟨seq, seqWrites⟩, hseq, -, rfl⟩ := hinit
    obtain ⟨tm, -, -, rfl⟩ := SequenceManager.initSequence_eq_ok_iff.mp hseq
    -- the genesis of the application is written before the record
    rw [List.map_append]
    exact List.mem_append_right _ (hput seq)
  | _ =>
    rw [hcall] at hinv
    cases hinv

/-- A transaction that looks at the current sequence has recorded its record. -/
theorem exists_read_current {V : MVCC.Ledger worldStore}
    {p : MVCC.Endorsed Access Bytes (List Write) (Proposed d.app.keys) Response}
    (hsim : d.service.Simulated V p) (hreads : p.tx.inv.readsCurrent = true) :
    ∃ r ∈ p.reads, makeCurrentSequenceKey d.sequenceMgr.pfx ∈ r.1.scan V.state := by
  -- the transaction does not succeed where the record is missing
  have hfails : d.service.run
      (Write.apply V.state (.del (makeCurrentSequenceKey d.sequenceMgr.pfx))) p.tx ≠
      .ok (p.reply, p.writes) :=
    invoke_of_no_current (d := d.on p.tx) hreads (by simp [Write.apply, Deployment.on]) _
  obtain ⟨r, hr, hne⟩ := hsim.exists_answer_ne hfails
  refine ⟨r, hr, ?_⟩
  -- a query that does not go through the record would not notice
  by_contra hnot
  refine hne ?_
  show (r.1.scan _).map _ = (r.1.scan _).map _
  rw [Access.scan_del hnot]
  refine List.map_congr_left fun k hk => congrArg (k, ·) ?_
  refine getElem?_apply_of_ne fun heq => hnot ?_
  rw [show makeCurrentSequenceKey d.sequenceMgr.pfx = k from heq]
  exact hk

end Fences

end FabricIBC
