import FabricIBC.Lib.Run
import FabricIBC.Commitment.Clock
import FabricIBC.Chaincode.Definitions
import FabricIBC.Chaincode.Sample
import FabricIBC.LightClient.Acceptance

/-!
# Fabric-IBC — chaincode: the time of a block

`getBlockHeader` of `app/baseapp.go`, `GetTimestamp` of the consensus state and
`GetSelfConsensusState` of the client keeper: the places where a sequence record
becomes the time of a chain.

A packet times out on the Fabric side by the time of the block, which ibc-go
reads in nanoseconds. The consensus state of the same sequence hands its seconds
to ibc-go as they are.

* `getBlockHeader_of_current` — the block of a transaction is one ahead of the
  current sequence and has its time;
* `timeouts_agree_iff` — the two sides agree about a timeout exactly when it is
  not between the seconds and the nanoseconds of the sequence;
* `packet_expired_on_one_side` — otherwise they do not.
-/

namespace FabricIBC

open Go

/-! ## Blocks (`app/baseapp.go`) -/

/-- The fields of `tmproto.Header` that are set. The time is
`time.Unix(time, 0)`. -/
structure BlockHeader where
  chainID : Bytes
  height : Int64
  time : Int64
  deriving DecidableEq, Repr

/-- `BaseApp.getBlockHeader`, of the application `name`. -/
def getBlockHeader (name : Bytes) (blockProvider : Result Block) : Result BlockHeader := do
  let block ← blockProvider
  .ok ⟨name, block.height + 1, block.timestamp⟩

/-- `Time.UnixNano` of a full second; the product is 64-bit. -/
def unixNano (sec : Int64) : Int64 := sec * 1000000000

/-- ibc-go on receipt: `uint64(ctx.BlockTime().UnixNano()) >= timeoutTimestamp`. -/
def BlockHeader.reached (h : BlockHeader) (timeoutTimestamp : UInt64) : Bool :=
  timeoutTimestamp ≤ (unixNano h.time).toUInt64

/-! ## Consensus states (`consensus_state.go`, `client_keeper.go`) -/

def ConsensusState.getTimestamp (cs : ConsensusState) : UInt64 := cs.timestamp.toUInt64

/-- ibc-go on sending and on a timeout: `GetTimestamp() >= timeoutTimestamp`. -/
def ConsensusState.reached (cs : ConsensusState) (timeoutTimestamp : UInt64) : Bool :=
  timeoutTimestamp ≤ cs.getTimestamp

/-- `GetSequenceFromHeight`: the revision number is not looked at. -/
def SequenceManager.getSequenceFromHeight (m : SequenceManager) (stub : Stub) (height : Height) :
    Result Sequence :=
  m.getSequence stub height.revisionHeight

/-- `ClientKeeper.GetSelfConsensusState`; `none` is `(nil, false)`. -/
def getSelfConsensusState (m : SequenceManager) (stub : Stub) (height : Height) :
    Result (Option ConsensusState) :=
  match m.getSequenceFromHeight stub height with
  | .ok seq => .ok (some ⟨seq.timestamp⟩)
  | .err _ => .ok none
  | .panic p => .panic p

/-! ## The time of a sequence -/

section BlockTime

variable {C : Codec} {cc : IBCChaincode C} {stub : Stub} {seq : Sequence}

theorem getBlockHeader_of_current (name : Bytes)
    (h : cc.sequenceMgr.getCurrentSequence stub = .ok seq) :
    getBlockHeader name (cc.getBlockProvider stub) =
      .ok ⟨name, seq.value.toInt64 + 1, seq.timestamp⟩ := by
  have hblock : cc.getBlockProvider stub = .ok ⟨seq.value.toInt64, seq.timestamp⟩ := by
    rw [IBCChaincode.getBlockProvider, h]
  rw [getBlockHeader, hblock]
  rfl

theorem getSelfConsensusState_of_record {m : SequenceManager} {height : Height}
    (h : m.getSequence stub height.revisionHeight = .ok seq) :
    getSelfConsensusState m stub height = .ok (some ⟨seq.timestamp⟩) := by
  rw [getSelfConsensusState, SequenceManager.getSequenceFromHeight, h]

/-- A number of seconds as `uint64`. -/
theorem toNat_toUInt64_of_nonneg {t : Int64} (h : 0 ≤ t.toInt) : (t.toUInt64.toNat : Int) = t.toInt := by
  have hle : (0 : Int64) ≤ t := Int64.le_iff_toInt_le.mpr h
  have hnat : t.toUInt64.toNat = t.toInt.toNat := Int64.toNat_toUInt64_of_le hle
  rw [hnat, Int.toNat_of_nonneg h]

/-- Up to the year 2262 the nanoseconds of a time are an `int64`. -/
theorem toInt_unixNano {t : Int64} (hpos : 0 ≤ t.toInt) (hlt : t.toInt ≤ 9223372036) :
    (unixNano t).toInt = 1000000000 * t.toInt := by
  have hmul : (unixNano t).toInt = (t.toInt * 1000000000).bmod (2 ^ 64) :=
    Int64.toInt_mul t 1000000000
  rw [hmul, bmod_of_fits ⟨by omega, by omega⟩, Int.mul_comm]

/-- The consensus state that `update` builds is that of the header. -/
theorem consensusState_of_update {cs cs' : ClientState} {header : Header}
    {cons : Option ConsensusState} (h : update cs header = .ok (cs', cons)) :
    cons = header.consensusState := by
  unfold update at h
  cases hbasic : header.validateBasic with
  | ok u =>
    simp only [hbasic, Outcome.bind_eq_ok_iff, Outcome.ok.injEq, Prod.mk.injEq] at h
    obtain ⟨cs'', -, -, hcons⟩ := h
    exact hcons.symm
  | err e => simp [hbasic] at h
  | panic p => simp [hbasic] at h

/-- Two thresholds agree about a value on one side of both. -/
theorem decide_le_eq_decide_le_iff {x y z : UInt64} :
    decide (z ≤ y) = decide (z ≤ x) ↔ (z ≤ x ∧ z ≤ y) ∨ (x < z ∧ y < z) := by
  simp only [decide_eq_decide, UInt64.le_iff_toNat_le, UInt64.lt_iff_toNat_lt]
  omega

/-- **When two chains agree about a timeout.** While a sequence is current, the
block time of the chaincode and the consensus state an update builds from the
sequence agree that a timeout was reached exactly when the timeout is not
between the seconds and the nanoseconds of the sequence, both as `uint64`. For
times between 1970 and 2262: when it is at most the seconds or exceeds the
nanoseconds. -/
theorem timeouts_agree_iff (name : Bytes) {ws₀ : WorldState} {hist : List (Moment × Sequence)}
    {a : Moment} (hrun : cc.sequenceMgr.Produced (fun _ _ => True) ws₀ stub.state (hist ++ [(a, seq)]))
    {cs cs' : ClientState} {header : Header} {ch : ChaincodeHeader} {cons : Option ConsensusState}
    (hch : header.chaincodeHeader = some ch) (hseq : ch.sequence = seq)
    (hupdate : update cs header = .ok (cs', cons)) (timeoutTimestamp : UInt64) :
    ∃ block c, getBlockHeader name (cc.getBlockProvider stub) = .ok block ∧ cons = some c ∧
      ((block.reached timeoutTimestamp = c.reached timeoutTimestamp) ↔
        (timeoutTimestamp ≤ seq.timestamp.toUInt64 ∧
          timeoutTimestamp ≤ (unixNano seq.timestamp).toUInt64) ∨
        (seq.timestamp.toUInt64 < timeoutTimestamp ∧
          (unixNano seq.timestamp).toUInt64 < timeoutTimestamp)) ∧
      (0 < seq.timestamp.toInt → seq.timestamp.toInt ≤ 9223372036 →
        ((block.reached timeoutTimestamp = c.reached timeoutTimestamp) ↔
          (timeoutTimestamp.toNat : Int) ≤ seq.timestamp.toInt ∨
          1000000000 * seq.timestamp.toInt < timeoutTimestamp.toNat)) := by
  obtain ⟨a', seq', hlast, hcurrent⟩ := hrun.current
  obtain ⟨rfl, rfl⟩ : a = a' ∧ seq = seq' := by simpa using hlast
  have hcons : cons = some ⟨seq.timestamp⟩ := by
    rw [consensusState_of_update hupdate, Header.consensusState, hch, ← hseq]
    rfl
  have hagree : (BlockHeader.reached ⟨name, seq.value.toInt64 + 1, seq.timestamp⟩ timeoutTimestamp =
      ConsensusState.reached ⟨seq.timestamp⟩ timeoutTimestamp) ↔
      (timeoutTimestamp ≤ seq.timestamp.toUInt64 ∧
        timeoutTimestamp ≤ (unixNano seq.timestamp).toUInt64) ∨
      (seq.timestamp.toUInt64 < timeoutTimestamp ∧
        (unixNano seq.timestamp).toUInt64 < timeoutTimestamp) := decide_le_eq_decide_le_iff
  refine ⟨_, _, getBlockHeader_of_current name (hcurrent stub rfl), hcons, hagree,
    fun hpos hlt => hagree.trans ?_⟩
  -- both thresholds as integers
  have hsec := toNat_toUInt64_of_nonneg hpos.le
  have hnano := toInt_unixNano hpos.le hlt
  have hnano' := toNat_toUInt64_of_nonneg (t := unixNano seq.timestamp) (by omega)
  simp only [UInt64.le_iff_toNat_le, UInt64.lt_iff_toNat_lt]
  omega

end BlockTime

open Symbolic Sample in
/-- A timeout before the second of the sequence. -/
theorem timeouts_agree_iff_early :
    ∃ block c, getBlockHeader (str "ibc") (chaincode.getBlockProvider
        ((Moment.mk (.ok 100) 100).stub (applyWrites ∅ (chaincode.sequenceMgr.putSequence ⟨1, 100⟩)))) =
          .ok block ∧
      BlockHeader.reached block 50 = ConsensusState.reached c 50 := by
  have hinit : chaincode.sequenceMgr.initSequence ((Moment.mk (.ok 100) 100).stub ∅) =
      .ok (⟨1, 100⟩, chaincode.sequenceMgr.putSequence ⟨1, 100⟩) := by decide +kernel
  have hrun : chaincode.sequenceMgr.Produced (fun _ _ => True) ∅
      ((Moment.mk (.ok 100) 100).stub
        (applyWrites ∅ (chaincode.sequenceMgr.putSequence ⟨1, 100⟩))).state
      ([] ++ [(⟨.ok 100, 100⟩, ⟨1, 100⟩)]) := .init trivial hinit
  have hupdate : update client ⟨some (sequenceHeader ⟨1, 100⟩), none, none⟩ =
      .ok ({ client with lastChaincodeHeader := sequenceHeader ⟨1, 100⟩ }, some ⟨100⟩) := rfl
  obtain ⟨block, c, hblock, -, hagree, -⟩ := timeouts_agree_iff (str "ibc") hrun rfl rfl hupdate 50
  exact ⟨block, c, hblock, hagree.mpr (by decide)⟩

open Symbolic Sample in
/-- Sequence 2 has the timestamp 110. On the Fabric side a packet with the
timeout 1000 has expired, for the client that was updated to the sequence it has not. -/
theorem packet_expired_on_one_side :
    ∃ block cs' c, getBlockHeader (str "ibc") (chaincode.getBlockProvider
        ((callAt 110 .updateSequence).stub (Run.run chaincode.commit ∅
          [callAt 100 (.initChaincode []), callAt 110 .updateSequence]))) = .ok block ∧
      checkHeaderAndUpdateState fabric client
        (.fabric ⟨some (sequenceHeader ⟨2, 110⟩), none, none⟩) = .ok (cs', some c) ∧
      BlockHeader.reached block 1000 = true ∧ ConsensusState.reached c 1000 = false :=
  ⟨⟨str "ibc", 3, 110⟩, { client with lastChaincodeHeader := sequenceHeader ⟨2, 110⟩ }, ⟨110⟩,
    by decide +kernel, by decide +kernel, by decide, by decide⟩

end FabricIBC
