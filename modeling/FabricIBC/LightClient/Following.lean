import FabricIBC.Commitment.Clock
import FabricIBC.LightClient.History

/-!
# Fabric-IBC — light client: following the chain

The sequence manager lets a sequence follow another after its minimum interval,
cut to whole seconds. The light client wants a later timestamp, and it cannot
skip a sequence.

* `follows_of_ascending` — a client is updated one header at a time, as long as
  the timestamps ascend;
* `client_follows_iff` — a configuration lets every client follow every run
  exactly if its minimum interval is at least a second, or nothing passes its
  timestamp check at all;
* `equal_timestamps_stop_client` — the configuration of the test chain.
-/

namespace FabricIBC

open Go

/-! ## Following -/

/-- The header with a sequence and nothing else. -/
def Header.ofSequence (ch : ChaincodeHeader) : Header := ⟨some ch, none, none⟩

/-- The endorsed sequences `chs` come after the one of the client and end at
`last`; the client takes them all. -/
def Catches (F : Fabric) (C : Codec) (client : Client) (chs : List ChaincodeHeader)
    (last : Sequence) : Prop :=
  acceptedHeaders F C client (chs.map Header.ofSequence) = chs.map Header.ofSequence ∧
  (runClient F C client (chs.map Header.ofSequence)).state.lastChaincodeHeader.sequence = last

/-- A client at any of the sequences can be updated to the last one, with a
valid endorsement of each sequence in between. -/
def Followable (seqs : List Sequence) : Prop :=
  ∀ (F : Fabric) (C : Codec) (client : Client) (i : Nat) (chs : List ChaincodeHeader)
    (last : Sequence),
    seqs[i]? = some client.state.lastChaincodeHeader.sequence →
    seqs.getLast? = some last →
    chs.map ChaincodeHeader.sequence = seqs.drop (i + 1) →
    (∀ ch ∈ chs, verifyChaincodeHeader F client.state ch = .ok ()) →
    Catches F C client chs last

/-- The next sequence, and a later one. -/
def Sequence.Before (x y : Sequence) : Prop := y.value = x.value + 1 ∧ x.timestamp < y.timestamp

section Following

variable {F : Fabric} {C : Codec} {client : Client} {ch : ChaincodeHeader}

/-- What the checks of the height and of the timestamp leave to ask. -/
theorem checkHeader_ofSequence_isOk_iff
    (hverify : verifyChaincodeHeader F client.state ch = .ok ()) :
    (checkHeaderAndUpdateState F client.state (.fabric (.ofSequence ch))).isOk = true ↔
      client.state.lastChaincodeHeader.sequence.Before ch.sequence := by
  constructor
  · intro hok
    obtain ⟨⟨cs', cons⟩, hok⟩ := Outcome.isOk_iff.mp hok
    obtain ⟨hacc, -, -⟩ := accepted_spec hok
    obtain ⟨htime, hvalue, -⟩ := hacc.chaincodeHeader ch rfl
    exact ⟨hvalue, htime⟩
  · rintro ⟨hvalue, htime⟩
    have hacc : (Header.ofSequence ch).Acceptable F client.state := by
      refine ⟨Or.inl rfl, ?_, by simp [Header.ofSequence], by simp [Header.ofSequence, Header.batch],
        List.Pairwise.nil, by simp [Header.ofSequence, Header.batch]⟩
      intro ch' hch'
      obtain rfl : ch = ch' := Option.some.inj hch'
      exact ⟨htime, hvalue, verifyChaincodeHeader_eq_ok_iff.mp hverify⟩
    obtain ⟨cs', hupd, -⟩ := update_of_acceptable hacc
    exact Outcome.isOk_iff.mpr ⟨_, accepted_iff.mpr ⟨hacc, hupd⟩⟩

/-- An accepted sequence replaces the last one and changes nothing else. -/
theorem state_submitUpdate_ofSequence
    (hok : (checkHeaderAndUpdateState F client.state (.fabric (.ofSequence ch))).isOk = true) :
    (submitUpdate F C client (.ofSequence ch)).state =
      { client.state with lastChaincodeHeader := ch } := by
  obtain ⟨⟨cs', cons⟩, hok⟩ := Outcome.isOk_iff.mp hok
  obtain ⟨hacc, hupd⟩ := accepted_iff.mp hok
  have hcs' : (({ client.state with lastChaincodeHeader := ch } : ClientState),
      some (⟨ch.sequence.timestamp⟩ : ConsensusState)) = (cs', cons) := Outcome.ok.inj hupd
  obtain ⟨rfl, rfl⟩ := Prod.mk.inj hcs'
  obtain ⟨bz, hbz⟩ := C.marshal_fabric ⟨ch.sequence.timestamp⟩
  have hheight : (Header.ofSequence ch).getHeight = .ok ⟨0, ch.sequence.value⟩ := rfl
  unfold submitUpdate updateClient
  simp only [hok, Outcome.ok_bind, hheight, hbz]

/-- A header without a sequence changes nothing: the keeper panics or rejects it. -/
theorem submitUpdate_of_no_sequence {header : Header} (h : header.chaincodeHeader = none) :
    submitUpdate F C client header = client := by
  by_cases hok : (checkHeaderAndUpdateState F client.state (.fabric header)).isOk = true
  · obtain ⟨⟨cs', cons⟩, hok⟩ := Outcome.isOk_iff.mp hok
    have hheight : header.getHeight = .panic .nilDereference := by rw [Header.getHeight, h]
    unfold submitUpdate updateClient
    simp only [hok, Outcome.ok_bind, hheight]
    rfl
  · exact submitUpdate_of_rejected hok

/-- The headers without a sequence can be left out of a run, and the rest is accepted
as before. -/
theorem runClient_filter_carrying (headers : List Header) (client : Client) :
    runClient F C client (headers.filter (·.chaincodeHeader.isSome)) = runClient F C client headers ∧
    (acceptedHeaders F C client (headers.filter (·.chaincodeHeader.isSome))).length ≤
      (acceptedHeaders F C client headers).length := by
  induction headers generalizing client with
  | nil => exact ⟨rfl, le_rfl⟩
  | cons header headers ih =>
    cases hch : header.chaincodeHeader with
    | none =>
      have hskip : submitUpdate F C client header = client := submitUpdate_of_no_sequence hch
      rw [List.filter_cons_of_neg (by simp [hch]), runClient_cons, hskip, acceptedHeaders, hskip]
      obtain ⟨hrun, hlen⟩ := ih client
      refine ⟨hrun, hlen.trans ?_⟩
      -- its check may pass before the keeper panics
      split
      · exact Nat.le_succ _
      · exact le_rfl
    | some ch =>
      rw [List.filter_cons_of_pos (by simp [hch]), runClient_cons, runClient_cons, acceptedHeaders,
        acceptedHeaders]
      obtain ⟨hrun, hlen⟩ := ih (submitUpdate F C client header)
      refine ⟨hrun, ?_⟩
      split
      · exact Nat.succ_le_succ hlen
      · exact hlen

/-- **Where the timestamps ascend, a client follows.** -/
theorem follows_of_ascending {seqs : List Sequence} (h : seqs.IsChain Sequence.Before) :
    Followable seqs := by
  intro F C client i chs last hat hlast hseqs hverify
  -- header by header: each one moves the client to the next sequence of the list
  induction chs generalizing client i with
  | nil =>
    refine ⟨rfl, ?_⟩
    obtain ⟨hlt, -⟩ := List.getElem?_eq_some_iff.mp hat
    have hend : seqs.length ≤ i + 1 := List.drop_eq_nil_iff.mp hseqs.symm
    have hi : i = seqs.length - 1 := by omega
    rw [hi, ← List.getLast?_eq_getElem?, hlast, Option.some.injEq] at hat
    exact hat.symm
  | cons ch chs ih =>
    obtain ⟨hlt, hi⟩ := List.getElem?_eq_some_iff.mp hat
    have hlt' : i + 1 < seqs.length := by
      by_contra hge
      rw [List.drop_eq_nil_iff.mpr (by omega)] at hseqs
      exact absurd hseqs (by simp)
    rw [List.drop_eq_getElem_cons hlt', List.map_cons, List.cons.injEq] at hseqs
    obtain ⟨hch, hrest⟩ := hseqs
    have hbefore : client.state.lastChaincodeHeader.sequence.Before ch.sequence := by
      rw [← hi, hch]
      exact h.getElem i hlt'
    have hok := (checkHeader_ofSequence_isOk_iff (hverify ch List.mem_cons_self)).mpr hbefore
    have hstate := state_submitUpdate_ofSequence (C := C) hok
    have hat' : seqs[i + 1]? =
        some (submitUpdate F C client (.ofSequence ch)).state.lastChaincodeHeader.sequence := by
      rw [hstate, List.getElem?_eq_getElem hlt', hch]
    -- the policies the endorsements are checked against are the same
    have hverify' : ∀ ch' ∈ chs, verifyChaincodeHeader F
        (submitUpdate F C client (.ofSequence ch)).state ch' = .ok () := by
      intro ch' hmem
      rw [hstate]
      exact hverify ch' (List.mem_cons_of_mem _ hmem)
    obtain ⟨haccepted, hrun⟩ := ih _ (i + 1) hat' hrest hverify'
    refine ⟨?_, hrun⟩
    rw [List.map_cons, acceptedHeaders, if_pos hok, haccepted]

end Following

/-! ## Configurations -/

/-- A network whose only endorsement is that of one write. -/
def Fabric.lenient (id : ChaincodeID) (w : KVWrite) : Fabric where
  MSPConfig := Unit
  MSP := Unit
  MSPManager := Unit
  SignaturePolicy := Unit
  Policy := Unit
  unmarshalMSPConfig _ := .ok ()
  unmarshalApplicationPolicy _ := .ok (some (.signaturePolicy ()))
  setupMSP _ := .ok ()
  setupMSPManager _ := .ok ()
  newPolicy _ _ := .ok ()
  evaluateSignedData _ _ := .ok ()
  unmarshalProposalResponsePayload _ := .ok []
  unmarshalChaincodeAction _ := .ok ⟨[], some id⟩
  txRwSetFromProtoBytes _ := .ok [⟨id.name, [w]⟩]

/-- Where two sequences of the list do not ascend, a client stops. -/
theorem before_of_followable {x y : Sequence} (h : Followable [x, y]) : x.Before y := by
  let proof : CommitmentProof := ⟨[], 0, 0, [], []⟩
  let cs : ClientState := { Symbolic.client with lastChaincodeHeader := ⟨x, proof⟩ }
  let F := Fabric.lenient cs.lastChaincodeInfo.chaincodeId
    ⟨makeSequenceCommitmentEntryKey y.value, false, y.bytes⟩
  have hverify : verifyChaincodeHeader F cs ⟨y, proof⟩ = .ok () :=
    verifyChaincodeHeader_eq_ok_iff.mpr ⟨⟨_, false, _⟩, ⟨[(), ()], rfl, [], _, _, rfl, ⟨(), rfl, rfl⟩,
      rfl, rfl, rfl⟩, rfl, rfl⟩
  obtain ⟨haccepted, -⟩ := h F Symbolic.codec ⟨cs, ∅⟩ 0 [⟨y, proof⟩] y rfl rfl rfl
    (fun ch hmem => by rw [List.mem_singleton.mp hmem]; exact hverify)
  -- the one header was accepted
  by_contra hnot
  have hrejected : ¬ (checkHeaderAndUpdateState F (Client.mk cs ∅).state
      (.fabric (.ofSequence ⟨y, proof⟩))).isOk = true :=
    mt (checkHeader_ofSequence_isOk_iff hverify).mp hnot
  rw [List.map_singleton, acceptedHeaders, if_neg hrejected] at haccepted
  exact absurd haccepted (by simp [acceptedHeaders])

namespace SequenceManager

variable {m : SequenceManager}

/-- A minimum interval of a second separates the timestamps. -/
theorem Produced.ascending {ws₀ ws : WorldState} {hist : List (Moment × Sequence)}
    (h : Produced m m.Regular ws₀ ws hist) (hmin : 1 ≤ m.minInterval.toInt) :
    (hist.map Prod.snd).IsChain Sequence.Before := by
  rw [List.isChain_map, List.isChain_iff_getElem]
  intro i hi
  have hspaced := h.spaced.getElem i hi
  refine ⟨(h.consecutive.getElem i hi).1, Int64.lt_iff_toInt_lt.mpr ?_⟩
  omega

/-- A negative difference admits no timestamp. -/
theorem Produced.maxDiff_nonneg {ws₀ ws : WorldState} {hist : List (Moment × Sequence)}
    (h : Produced m m.Regular ws₀ ws hist) : 0 ≤ m.maxDiff.toInt := by
  obtain ⟨a, seq, hlast, -⟩ := h.current
  have hnear := h.near _ (List.mem_of_getLast? hlast)
  exact le_trans (abs_nonneg _) hnear

/-- A timestamp that is the time of the clock is only compared with the previous one. -/
theorem timely_at_clock {t prevSec : Int64} {ws : WorldState} (hdiff : 0 ≤ m.maxDiff.toInt)
    (hsub : FitsInt64 (t.toInt - m.maxDiff.toInt)) (hadd : FitsInt64 (t.toInt + m.maxDiff.toInt))
    (hprev : 0 < prevSec → prevSec + m.minInterval ≤ t) :
    m.Timely (Moment.stub ⟨.ok t, t⟩ ws) prevSec t := by
  refine ⟨rfl, validateTimestamp_eq_ok_iff.mpr ⟨?_, ?_, hprev⟩⟩
  · show t ≤ t + m.maxDiff
    rw [Int64.le_iff_toInt_le, toInt_add_of_fits hadd]
    omega
  · show t - m.maxDiff ≤ t
    rw [Int64.le_iff_toInt_le, toInt_sub_of_fits hsub]
    omega

/-- Without a minimum interval there can be two sequences at the same second. -/
theorem produced_twice {t : Int64} (hdiff : 0 ≤ m.maxDiff.toInt) (hmin : m.minInterval.toInt ≤ 0)
    (hpos : 0 < t.toInt - m.maxDiff.toInt) (hadd : FitsInt64 (t.toInt + m.maxDiff.toInt)) :
    ∃ ws, Produced m m.Regular ∅ ws [(⟨.ok t, t⟩, ⟨1, t⟩), (⟨.ok t, t⟩, ⟨2, t⟩)] := by
  have hmin_ge : -9223372036 ≤ m.minInterval.toInt := (toInt_div_second_bounds _).1
  have hlt := Int64.toInt_lt t
  have hsub : FitsInt64 (t.toInt - m.maxDiff.toInt) := ⟨by omega, by omega⟩
  have hsum : FitsInt64 (t.toInt + m.minInterval.toInt) := ⟨by omega, by omega⟩
  have hclock : m.AfterEpoch ⟨.ok t, t⟩ := ⟨hpos, hsub, hadd⟩
  have hsame : t + m.minInterval ≤ t := by
    rw [Int64.le_iff_toInt_le, toInt_add_of_fits hsum]
    omega
  -- `InitSequence` compares with the timestamp 0, which is not checked
  have hinit : m.initSequence (Moment.stub ⟨.ok t, t⟩ ∅) = .ok (⟨1, t⟩, m.putSequence ⟨1, t⟩) :=
    initSequence_eq_ok_iff.mpr
      ⟨t, timely_at_clock hdiff hsub hadd (fun h => absurd h (by decide)), rfl, rfl⟩
  have hempty : m.Regular ∅ ⟨.ok t, t⟩ := by
    refine ⟨hclock, fun current hcurrent => ?_⟩
    obtain ⟨bz, hbz, -⟩ := readSequence_eq_ok_iff.mp hcurrent
    exact absurd hbz (by simp [Moment.stub])
  have hfirst := Produced.init (m := m) hempty hinit
  have hcurrent : m.getCurrentSequence (Moment.stub ⟨.ok t, t⟩
      (applyWrites ∅ (m.putSequence ⟨1, t⟩))) = .ok ⟨1, t⟩ := getCurrentSequence_putSequence rfl
  have hupdate := updateSequence_eq_ok_iff.mpr
    ⟨⟨1, t⟩, t, hcurrent, timely_at_clock hdiff hsub hadd (fun _ => hsame), rfl, rfl⟩
  exact ⟨_, hfirst.update (regular_of_current hclock hcurrent hsum) hupdate⟩

/-- **Which configurations a client can follow.** Every client can be updated
header by header to the current sequence of every run, from any sequence of it,
exactly when the minimum interval is at least a second, or the allowed
difference is negative and the manager produces nothing. -/
theorem client_follows_iff (m : SequenceManager) :
    (∀ ws₀ ws hist, Produced m m.Regular ws₀ ws hist → Followable (hist.map Prod.snd)) ↔
      second ≤ m.config.minTimeInterval ∨ m.config.maxTimestampDiff ≤ -second := by
  have hsecond : second.toInt = 1000000000 := rfl
  have hneg : (-second).toInt = -1000000000 := rfl
  rw [Int64.le_iff_toInt_le, Int64.le_iff_toInt_le, hsecond, hneg]
  have hmin : 1 ≤ m.minInterval.toInt ↔ 1000000000 ≤ m.config.minTimeInterval.toInt := by
    rcases toInt_div_second m.config.minTimeInterval with ⟨hsign, hdiv⟩ | ⟨hsign, hdiv⟩ <;>
      rw [minInterval, hdiv] <;> omega
  have hdiff : m.maxDiff.toInt < 0 ↔ m.config.maxTimestampDiff.toInt ≤ -1000000000 := by
    rcases toInt_div_second m.config.maxTimestampDiff with ⟨hsign, hdiv⟩ | ⟨hsign, hdiv⟩ <;>
      rw [maxDiff, hdiv] <;> omega
  constructor
  · intro hfollow
    by_contra hnot
    rw [not_or, not_le, not_le] at hnot
    -- the interval is cut to nothing, and the clock admits the first second after the difference
    have hle : m.maxDiff.toInt ≤ 9223372036 := (toInt_div_second_bounds _).2
    have hone : (m.maxDiff + 1).toInt = m.maxDiff.toInt + 1 :=
      toInt_add_of_fits (b := 1) ⟨by simp; omega, by simp; omega⟩
    obtain ⟨ws, hprod⟩ := produced_twice (m := m) (t := m.maxDiff + 1) (by omega) (by omega)
      (by omega) ⟨by omega, by omega⟩
    have hbefore := before_of_followable (hfollow ∅ ws _ hprod)
    exact Int64.lt_irrefl hbefore.2
  · rintro hconfig ws₀ ws hist hprod
    have hnonneg := hprod.maxDiff_nonneg
    rcases hconfig with hconfig | hconfig
    · exact follows_of_ascending (hprod.ascending (by omega))
    · omega

end SequenceManager

/-- The configuration of the test chain: no minimum interval. -/
def SequenceManager.testChain : SequenceManager := ⟨⟨0, 30 * second⟩, host.storeKey⟩

open Symbolic in
/-- Two sequences of the test chain in one second. The second one is endorsed
as the client wants it, and the client never accepts it. -/
theorem equal_timestamps_stop_client :
    (∃ ws a, SequenceManager.testChain.Produced SequenceManager.testChain.Regular ∅ ws
      [(a, ⟨1, 100⟩), (a, ⟨2, 100⟩)]) ∧
    client.lastChaincodeHeader.sequence = ⟨1, 100⟩ ∧
    verifyChaincodeHeader fabric client (sequenceHeader ⟨2, 100⟩) = .ok () ∧
    checkValidity fabric client (.ofSequence (sequenceHeader ⟨2, 100⟩)) =
      .err (wrapInvalidHeader (.errorf
        "header blocktime ≤ latest client state block time (%v ≤ %v)" [.int 100, .int 100])) ∧
    ∀ headers : List Header, (∀ h ∈ headers, ∀ ch, h.chaincodeHeader = some ch →
      ch.sequence ∈ [(⟨1, 100⟩ : Sequence), ⟨2, 100⟩]) →
      runClient fabric codec createdClient headers = createdClient := by
  have hreject : ∀ header : Header, (∀ ch, header.chaincodeHeader = some ch →
      ch.sequence ∈ [(⟨1, 100⟩ : Sequence), ⟨2, 100⟩]) →
      submitUpdate fabric codec createdClient header = createdClient := by
    intro header hseq
    cases hch : header.chaincodeHeader with
    | none => exact submitUpdate_of_no_sequence hch
    | some ch =>
      refine submitUpdate_of_rejected fun hok => ?_
      have htime := (updateClient_of_accepted (C := codec) hch hok).1.1
      have hmem := hseq ch hch
      have htimestamp : ch.sequence.timestamp = 100 := by
        rcases List.mem_cons.mp hmem with heq | hmem
        · rw [heq]
        · rw [List.mem_singleton.mp hmem]
      rw [htimestamp] at htime
      exact absurd htime (by decide)
  refine ⟨?_, rfl, by decide +kernel, by decide +kernel, fun headers hseqs => ?_⟩
  · obtain ⟨ws, hprod⟩ := SequenceManager.produced_twice (m := .testChain) (t := 100) (by decide)
      (by decide) (by decide) (by decide)
    exact ⟨ws, _, hprod⟩
  · induction headers with
    | nil => rfl
    | cons header headers ih =>
      rw [runClient_cons, hreject header (hseqs header List.mem_cons_self)]
      exact ih fun h hmem => hseqs h (List.mem_cons_of_mem _ hmem)

end FabricIBC
