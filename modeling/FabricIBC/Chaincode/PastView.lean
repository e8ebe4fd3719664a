import FabricIBC.Chaincode.BlockTime
import FabricIBC.Chaincode.HeightBinding
import FabricIBC.Chaincode.SequenceLog
import FabricIBC.LightClient.Following

/-!
# Fabric-IBC — both chains: the client sees the past

The chaincode, its endorsements and a client of the counterparty move
independently. Abstractly there is the log of the chain (`SequenceLog`), and the
client holds a segment of it.

* `ChainLog` — the chain's side: the records are those of an ascending log, and
  so is every endorsed sequence;
* `View` — the client's side: its history consists of records of the log;
* `System.step_tracks` — a step extends the log and keeps both;
* `view_is_past_state` — so whatever the client knows is a past state of the
  chain, now and later, and the next block of the chain is ahead of it.
-/

namespace FabricIBC

open Go

/-! ## Assumptions -/

/-- The documented range of the seconds of a `google.protobuf.Timestamp`, the
years 1 to 9999. -/
def WellFormedTimestamp (sec : Int64) : Prop :=
  -62135596800 ≤ sec.toInt ∧ sec.toInt ≤ 253402300799

instance (sec : Int64) : Decidable (WellFormedTimestamp sec) := inferInstanceAs (Decidable (_ ∧ _))

/-- The call writes a sequence record. -/
def Call.writesRecord : Call → Bool
  | .initChaincode _ | .updateSequence => true
  | _ => false

/-- A call that succeeds initialises the chaincode for the first time if at all,
gives a record a positive timestamp, and keeps the sequence below `2 ^ 63 - 1`. -/
structure IBCChaincode.Disciplined {C : Codec} (cc : IBCChaincode C) (ws : WorldState)
    (inv : Invocation) : Prop where
  once : orderly cc ws inv = true
  timestamp : inv.call.writesRecord = true → ∀ tm, inv.txTimestamp = .ok tm →
    WellFormedTimestamp tm ∧ 0 < tm.toInt
  room : inv.call = .updateSequence → ∀ current,
    cc.sequenceMgr.getCurrentSequence (inv.stub ws) = .ok current →
      current.value.toNat + 1 < 2 ^ 63 - 1

/-- The write set of `EndorseSequenceCommitment`. -/
def sequenceEndorsement (seq : Sequence) : List Write :=
  [.put (makeSequenceCommitmentEntryKey seq.value) seq.bytes]

namespace System

variable {C : Codec} (F : Fabric) (cc : IBCChaincode C)

/-- What is committed on the chain is disciplined. -/
def Regular (s : System) : SystemStep → Prop
  | .transact inv => ∀ res writes, cc.invoke (inv.stub s.ws) inv.call = .ok (res, writes) →
      cc.Disciplined s.ws inv
  | .endorse _ | .updateClient _ => True

/-- Honest endorsers: a sequence that passes `VerifyChaincodeHeader` was
endorsed by `EndorseSequenceCommitment`. -/
def Honest (s : System) : SystemStep → Prop
  | .updateClient header => ∀ ch, header.chaincodeHeader = some ch →
      verifyChaincodeHeader F s.client.state ch = .ok () →
        sequenceEndorsement ch.sequence ∈ s.endorsements
  | .transact _ | .endorse _ => True

end System

/-- The client as its creation from a sequence leaves it. -/
structure Client.CreatedFrom (C : Codec) (client : Client) (seq : Sequence) : Prop where
  sequence : client.state.lastChaincodeHeader.sequence = seq
  stored : getConsensusState C client.store ⟨0, seq.value⟩ = .ok ⟨seq.timestamp⟩
  only : ∀ height, (client.store[host.consensusStatePath height]?).isSome → height = ⟨0, seq.value⟩

/-! ## The chain's side -/

/-- The records are those of a log of positive, ascending timestamps, and every
endorsed sequence is a record. -/
structure ChainLog {C : Codec} (cc : IBCChaincode C) (s : System) (log : List Int64) : Prop where
  records : Records cc.sequenceMgr s.ws log
  bound : log.length < 2 ^ 63 - 1
  timestamps : ∀ t ∈ log, WellFormedTimestamp t ∧ 0 < t.toInt
  ascending : log.Pairwise (· ≤ ·)
  endorsed : ∀ seq, sequenceEndorsement seq ∈ s.endorsements →
    SequenceLog.record log seq.value = some seq

section Chain

variable {C : Codec} {F : Fabric} {cc : IBCChaincode C} {s : System} {log : List Int64}

/-- No other call has the write set of `EndorseSequenceCommitment`. -/
theorem Effect.endorsed_sequence {stub : Stub} {call : Call} {seq : Sequence}
    (heff : Effect cc stub call (sequenceEndorsement seq)) : cc.requestedSequence stub = .ok seq := by
  have hkey : (Write.put (makeSequenceCommitmentEntryKey seq.value) seq.bytes).key =
      (EntryID.sequence seq.value).key host.storeKey := rfl
  rcases heff.source List.mem_cons_self hkey with ⟨stmt, bz, -, -, -, hw⟩ | ⟨seq', -, hseq', hw⟩
  · rw [Write.put.injEq] at hw
    have hsame : (EntryID.sequence seq.value).Same stmt.id := EntryID.key_inj (hkey.symm.trans hw.1)
    cases stmt <;> exact hsame.elim
  · rw [Write.put.injEq] at hw
    rwa [Sequence.bytes_injective hw.2]

/-- The timestamp of the next record is not earlier than the last one. -/
theorem ChainLog.append {tm : Int64} {stub : Stub} (h : ChainLog cc s log)
    (hmin : 0 ≤ cc.sequenceMgr.minInterval.toInt) (hpos : WellFormedTimestamp tm ∧ 0 < tm.toInt)
    (htime : cc.sequenceMgr.Timely stub (log.getLast?.getD 0) tm) :
    (∀ t ∈ log ++ [tm], WellFormedTimestamp t ∧ 0 < t.toInt) ∧ (log ++ [tm]).Pairwise (· ≤ ·) := by
  have hle : cc.sequenceMgr.minInterval.toInt ≤ 9223372036 := (toInt_div_second_bounds _).2
  constructor
  · intro t ht
    rcases List.mem_append.mp ht with ht | ht
    · exact h.timestamps t ht
    · rwa [List.mem_singleton.mp ht]
  · rw [List.pairwise_append]
    refine ⟨h.ascending, List.pairwise_singleton _ _, fun t ht t' ht' => ?_⟩
    rw [List.mem_singleton.mp ht']
    -- the last timestamp is the largest, and the new one keeps the interval from it
    have hne : log ≠ [] := List.ne_nil_of_mem ht
    rw [List.getLast?_eq_getLast_of_ne_nil hne, Option.getD_some] at htime
    obtain ⟨⟨-, hlast⟩, hlast'⟩ := h.timestamps _ (List.getLast_mem hne)
    have hspaced := htime.spaced hlast' ⟨by omega, by omega⟩
    have hmax := Int64.le_iff_toInt_le.mp
      (h.ascending.rel_getLast_of_rel_getLast_getLast ht (Int64.le_refl _))
    rw [Int64.le_iff_toInt_le]
    omega

/-- What is endorsed on the chain is a record. -/
theorem ChainLog.endorsed_simulate (h : ChainLog cc s log) {inv : Invocation} {seq : Sequence}
    (hmem : sequenceEndorsement seq ∈ cc.simulate s.ws inv ++ s.endorsements) :
    SequenceLog.record log seq.value = some seq := by
  rcases List.mem_append.mp hmem with hmem | hmem
  · have hstub : Records cc.sequenceMgr (inv.stub s.ws).state log := h.records
    exact hstub.requestedSequence (mem_simulate hmem).endorsed_sequence
  · exact h.endorsed seq hmem

/-- The current sequence is the last one of the log. -/
theorem ChainLog.getCurrentSequence (h : ChainLog cc s log) (hne : log ≠ []) (inv : Invocation) :
    cc.sequenceMgr.getCurrentSequence (inv.stub s.ws) =
      .ok ⟨log.length.toUInt64, log.getLast hne⟩ := by
  have hstub : Records cc.sequenceMgr (inv.stub s.ws).state log := h.records
  rw [hstub.getCurrentSequence_iff, SequenceLog.current, List.getLast?_eq_getLast_of_ne_nil hne]
  rfl

/-- **One step extends the log or leaves it.** -/
theorem ChainLog.step (h : ChainLog cc s log) (hmin : 0 ≤ cc.sequenceMgr.minInterval.toInt)
    {st : SystemStep} (hregular : s.Regular cc st) :
    ∃ log', log <+: log' ∧ ChainLog cc (s.step F cc st) log' := by
  cases st with
  | updateClient header =>
    exact ⟨log, List.prefix_rfl, h.records, h.bound, h.timestamps, h.ascending, h.endorsed⟩
  | endorse inv =>
    exact ⟨log, List.prefix_rfl, h.records, h.bound, h.timestamps, h.ascending,
      fun seq hmem => h.endorsed_simulate hmem⟩
  | transact inv =>
    have hend : ∀ seq, sequenceEndorsement seq ∈ cc.simulate s.ws inv ++ s.endorsements →
        SequenceLog.record log seq.value = some seq := fun seq hmem => h.endorsed_simulate hmem
    cases hok : cc.invoke (inv.stub s.ws) inv.call with
    | err e | panic p =>
      have hws : cc.commit s.ws inv = s.ws := by rw [IBCChaincode.commit, hok]
      refine ⟨log, List.prefix_rfl, ?_, h.bound, h.timestamps, h.ascending, hend⟩
      show Records cc.sequenceMgr (cc.commit s.ws inv) log
      rw [hws]
      exact h.records
    | ok r =>
      obtain ⟨res, writes⟩ := r
      have hws : cc.commit s.ws inv = applyWrites s.ws writes := by rw [IBCChaincode.commit, hok]
      have hdisc := hregular res writes hok
      rcases (invoke_effect hok).log_cases hdisc.once h.records with hsame | ⟨tm, htime, hcall, hnew⟩
      · refine ⟨log, List.prefix_rfl, ?_, h.bound, h.timestamps, h.ascending, hend⟩
        show Records cc.sequenceMgr (cc.commit s.ws inv) log
        rwa [hws]
      · -- a new record: `InitChaincode` on an empty log, or `UpdateSequence`
        have hrecord : inv.call.writesRecord = true := by
          rcases hcall with ⟨⟨appState, hcall⟩, -⟩ | ⟨hcall, -⟩ <;> rw [hcall] <;> rfl
        obtain ⟨htimes, hasc⟩ := h.append hmin (hdisc.timestamp hrecord tm htime.1) htime
        refine ⟨log ++ [tm], List.prefix_append _ _, ?_, ?_, htimes, hasc, fun seq hmem =>
          SequenceLog.record_of_isPrefix (List.prefix_append _ _) (hend seq hmem)⟩
        · show Records cc.sequenceMgr (cc.commit s.ws inv) _
          rwa [hws]
        · rcases hcall with ⟨-, hnil⟩ | ⟨hcall, hne⟩
          · simp [hnil]
          · -- the current sequence is the length of the log
            have hroom := hdisc.room hcall _ (h.getCurrentSequence hne inv)
            rw [SequenceLog.toNat_length h.records.bound] at hroom
            rwa [List.length_append, List.length_singleton]

end Chain

/-! ## The client's side -/

/-- The history of the client consists of records of the log. -/
structure View (C : Codec) (h₀ : UInt64) (ts log : List Int64) (client : Client) : Prop where
  history : History C h₀ ts client
  past : ∀ i t, ts[i]? = some t →
    SequenceLog.record log (heightAt h₀ i).revisionHeight = some ⟨(heightAt h₀ i).revisionHeight, t⟩

section Client

variable {C : Codec} {F : Fabric} {cc : IBCChaincode C} {s : System} {h₀ : UInt64}
  {ts log log' : List Int64} {client : Client}

theorem View.mono (h : View C h₀ ts log client) (hle : log <+: log') : View C h₀ ts log' client :=
  ⟨h.history, fun i t ht => SequenceLog.record_of_isPrefix hle (h.past i t ht)⟩

theorem View.created {seq : Sequence} (hcreated : client.CreatedFrom C seq)
    (hrecord : SequenceLog.record log seq.value = some seq) :
    View C seq.value [seq.timestamp] log client := by
  refine ⟨History.created ?_ ?_ hcreated.stored hcreated.only, fun i t ht => ?_⟩
  · rw [ClientState.getLatestHeight, hcreated.sequence]
  · rw [ClientState.getLatestTimestamp, hcreated.sequence]
  · obtain ⟨rfl, rfl⟩ : i = 0 ∧ seq.timestamp = t := by
      cases i <;> simp_all
    have hzero : (heightAt seq.value 0).revisionHeight = seq.value := by simp [heightAt]
    rw [hzero]
    exact hrecord

/-- The client is never ahead of the log. -/
theorem View.length_le (h : View C h₀ ts log client) :
    0 < h₀.toNat ∧ h₀.toNat + ts.length ≤ log.length + 1 := by
  obtain ⟨n, hlen, -, hlast⟩ := h.history.latest
  have hhist := h.history.bound
  -- the first height has a record, so it is not 0; the latest has one, so it is in the log
  have hfirst := h.past 0 _ (List.getElem?_eq_getElem (by omega))
  obtain ⟨hpos, -, -⟩ := SequenceLog.record_eq_some_iff.mp hfirst
  obtain ⟨-, hlatest, -⟩ := SequenceLog.record_eq_some_iff.mp (h.past n _ hlast)
  obtain ⟨hlt, -⟩ := List.getElem?_eq_some_iff.mp hlatest
  rw [heightAt_toNat (by omega)] at hpos hlt
  omega

theorem View.step (h : View C h₀ ts log s.client) (hchain : ChainLog cc s log) {header : Header}
    (hhonest : s.Honest F (.updateClient header)) :
    ∃ ts', View C h₀ ts' log (submitUpdate F C s.client header) := by
  cases hch : header.chaincodeHeader with
  | none =>
    rw [submitUpdate_of_no_sequence hch]
    exact ⟨ts, h⟩
  | some ch =>
    by_cases hok : (checkHeaderAndUpdateState F s.client.state (.fabric header)).isOk = true
    · obtain ⟨hacc, -⟩ := updateClient_of_accepted (C := C) hch hok
      -- the endorsed sequence is a record, and it is the next one
      have hmem := hhonest ch hch (verifyChaincodeHeader_eq_ok_iff.mpr hacc.2.2)
      have hrecord := hchain.endorsed ch.sequence hmem
      have hnext := h.history.next_height hacc
      have hlen := h.length_le
      have hbound := hchain.bound
      refine ⟨ts ++ [ch.sequence.timestamp], h.history.step (by omega) hch hok, fun i t ht => ?_⟩
      rcases Nat.lt_or_ge i ts.length with hlt | hge
      · rw [List.getElem?_append_left hlt] at ht
        exact h.past i t ht
      · rw [List.getElem?_append_right hge, List.getElem?_singleton] at ht
        obtain ⟨rfl, rfl⟩ : i = ts.length ∧ ch.sequence.timestamp = t := by
          split at ht
          · exact ⟨by omega, Option.some.inj ht⟩
          · exact absurd ht (by simp)
        rw [← hnext]
        exact hrecord
    · rw [submitUpdate_of_rejected hok]
      exact ⟨ts, h⟩

end Client

/-! ## Whole runs -/

section Runs

variable {C : Codec} {F : Fabric} {cc : IBCChaincode C} {s : System} {h₀ : UInt64}
  {ts log : List Int64}

/-- **One step keeps both sides.** -/
theorem System.step_tracks (hmin : 0 ≤ cc.sequenceMgr.minInterval.toInt) (hchain : ChainLog cc s log)
    (hview : View C h₀ ts log s.client) {st : SystemStep} (hregular : s.Regular cc st)
    (hhonest : s.Honest F st) :
    ∃ log' ts', log <+: log' ∧ ChainLog cc (s.step F cc st) log' ∧
      View C h₀ ts' log' (s.step F cc st).client := by
  obtain ⟨log', hle, hchain'⟩ := hchain.step (F := F) hmin hregular
  cases st with
  | transact inv | endorse inv => exact ⟨log', ts, hle, hchain', hview.mono hle⟩
  | updateClient header =>
    obtain ⟨ts', hview'⟩ := hview.step hchain hhonest
    exact ⟨log', ts', hle, hchain', hview'.mono hle⟩

/-- A run of the chain. -/
theorem ChainLog.run (h : ChainLog cc s log) (hmin : 0 ≤ cc.sequenceMgr.minInterval.toInt)
    {steps : List SystemStep}
    (hregular : Run.Along (System.step F cc) (System.Regular cc) s steps) :
    ∃ log', log <+: log' ∧ ChainLog cc (Run.run (System.step F cc) s steps) log' :=
  Run.run_log_along (fun _ _ _ hreg h => h.step hmin hreg) hregular h

/-- A run of the chain and the client. -/
theorem System.run_tracks (hmin : 0 ≤ cc.sequenceMgr.minInterval.toInt) (hchain : ChainLog cc s log)
    (hview : View C h₀ ts log s.client) {steps : List SystemStep}
    (hrun : Run.Along (System.step F cc) (fun s st => s.Regular cc st ∧ s.Honest F st) s steps) :
    ∃ log' ts', ChainLog cc (Run.run (System.step F cc) s steps) log' ∧
      View C h₀ ts' log' (Run.run (System.step F cc) s steps).client := by
  induction steps generalizing s log ts with
  | nil => exact ⟨log, ts, hchain, hview⟩
  | cons st steps ih =>
    obtain ⟨⟨hregular, hhonest⟩, hrest⟩ := hrun
    obtain ⟨log', ts', -, hchain', hview'⟩ := System.step_tracks hmin hchain hview hregular hhonest
    exact ih hchain' hview' hrest

theorem chainLog_start (cc : IBCChaincode C) (client : Client) :
    ChainLog cc (System.start client) [] where
  records := records_empty cc.sequenceMgr
  bound := by simp
  timestamps := by simp
  ascending := List.Pairwise.nil
  endorsed := by simp [System.start]

/-- The chain's current sequence, and the header of its next block. -/
theorem ChainLog.block (h : ChainLog cc s log) (hne : log ≠ []) (name : Bytes) (inv : Invocation) :
    ∃ current block, cc.sequenceMgr.getCurrentSequence (inv.stub s.ws) = .ok current ∧
      getBlockHeader name (cc.getBlockProvider (inv.stub s.ws)) = .ok block ∧
      current.value.toNat = log.length ∧ block.height.toInt = log.length + 1 ∧
      block.time = current.timestamp ∧ ∀ t ∈ log, t ≤ block.time := by
  have hcurrent := h.getCurrentSequence hne inv
  refine ⟨_, _, hcurrent, getBlockHeader_of_current name hcurrent,
    SequenceLog.toNat_length h.records.bound, ?_, rfl, fun t ht =>
    h.ascending.rel_getLast_of_rel_getLast_getLast ht (Int64.le_refl _)⟩
  -- `int64(seq.Value) + 1` does not overflow
  have hbound := h.bound
  have hint : (log.length.toUInt64.toInt64).toInt = log.length :=
    Int64.toInt_ofNat_of_lt (by omega)
  show (log.length.toUInt64.toInt64 + 1).toInt = _
  rw [toInt_add_of_fits (b := 1) (by rw [hint]; exact ⟨by simp; omega, by simp; omega⟩), hint]
  rfl

/-- **The light client's view is always a past state of the chain.** The
chaincode is initialised once, its minimum interval is not negative, its records
have positive timestamps and stay below `2 ^ 63 - 1`; endorsers are honest, and
the client was created from a record after some steps of the chain. Then take
any state of the run, and any state after it. The client's latest height in the
first is at most the chain's current sequence in the second; where the client
has a consensus state, the chain's `GetSelfConsensusState` has the same
timestamp; and the header of the chain's next block is strictly higher and not
earlier than all of them. -/
theorem view_is_past_state (name : Bytes) (inv : Invocation) {other client : Client}
    {setup before after : List SystemStep} {seq₀ : Sequence}
    (hmin : 0 ≤ cc.sequenceMgr.config.minTimeInterval)
    (hsetup : Run.Along (System.step F cc) (System.Regular cc) (System.start other) setup)
    (hrecord : cc.sequenceMgr.getSequence (inv.stub (System.run F cc other setup).ws) seq₀.value =
      .ok seq₀)
    (hcreated : client.CreatedFrom C seq₀)
    (hrun : Run.Along (System.step F cc) (fun s st => s.Regular cc st ∧ s.Honest F st)
      { System.run F cc other setup with client := client } (before ++ after))
    {s s' : System}
    (hs : s = Run.run (System.step F cc) { System.run F cc other setup with client := client } before)
    (hs' : s' = Run.run (System.step F cc) s after) :
    ∃ current block, cc.sequenceMgr.getCurrentSequence (inv.stub s'.ws) = .ok current ∧
      getBlockHeader name (cc.getBlockProvider (inv.stub s'.ws)) = .ok block ∧
      block.height.toInt = current.value.toNat + 1 ∧ block.time = current.timestamp ∧
      s.client.state.getLatestHeight.revisionNumber = 0 ∧
      s.client.state.getLatestHeight.revisionHeight ≤ current.value ∧
      s.client.state.getLatestTimestamp ≤ block.time ∧
      ∀ height, (s.client.store[host.consensusStatePath height]?).isSome →
        ∃ cons, getConsensusState C s.client.store height = .ok cons ∧
          getSelfConsensusState cc.sequenceMgr (inv.stub s'.ws) height = .ok (some cons) ∧
          height.revisionNumber = 0 ∧ (height.revisionHeight.toNat : Int) < block.height.toInt ∧
          cons.timestamp ≤ block.time := by
  have hinterval : 0 ≤ cc.sequenceMgr.minInterval.toInt := by
    have hnonneg : 0 ≤ cc.sequenceMgr.config.minTimeInterval.toInt := Int64.le_iff_toInt_le.mp hmin
    rcases toInt_div_second cc.sequenceMgr.config.minTimeInterval with ⟨-, hdiv⟩ | ⟨hneg, -⟩
    · rw [SequenceManager.minInterval, hdiv]
      omega
    · omega
  rw [Run.along_append, ← hs] at hrun
  -- the log when the client is created, at `s`, and at `s'`
  obtain ⟨log₀, -, hchain₀⟩ := (chainLog_start cc other).run hinterval hsetup
  have hcreation : ChainLog cc { System.run F cc other setup with client := client } log₀ :=
    ⟨hchain₀.records, hchain₀.bound, hchain₀.timestamps, hchain₀.ascending, hchain₀.endorsed⟩
  have hstub₀ : Records cc.sequenceMgr (inv.stub (System.run F cc other setup).ws).state log₀ :=
    hchain₀.records
  have hview₀ := View.created hcreated (hstub₀.getSequence_iff.mp hrecord)
  obtain ⟨log, ts, hchain, hview⟩ := System.run_tracks hinterval hcreation hview₀ hrun.1
  rw [← hs] at hchain hview
  have hregular := Run.Along.mono (fun _ _ h => h.1) hrun.2
  obtain ⟨log', hle, hchain'⟩ := hchain.run hinterval hregular
  rw [← hs'] at hchain'
  have hview' := hview.mono hle
  obtain ⟨hpos, hlen⟩ := hview'.length_le
  obtain ⟨n, hn, hlatest, hlast⟩ := hview.history.latest
  have hbound := hchain'.bound
  have hne : log' ≠ [] := List.ne_nil_of_length_pos (by omega)
  obtain ⟨current, block, hcurrent, hblock, hvalue, hheight, htime, hafter⟩ :=
    hchain'.block hne name inv
  -- a timestamp of the client is one of the log
  have hmem : ∀ i t, ts[i]? = some t → t ≤ block.time := fun i t ht =>
    hafter t (List.mem_of_getElem? (SequenceLog.record_eq_some_iff.mp (hview'.past i t ht)).2.1)
  refine ⟨current, block, hcurrent, hblock, by omega, htime, by rw [hlatest]; rfl, ?_,
    hmem n _ hlast, fun height hsome => ?_⟩
  · rw [hlatest, UInt64.le_iff_toNat_le, heightAt_toNat (by omega)]
    omega
  · obtain ⟨i, hi, rfl⟩ := hview.history.exact height hsome
    have ht := List.getElem?_eq_getElem hi
    have hstub' : Records cc.sequenceMgr (inv.stub s'.ws).state log' := hchain'.records
    refine ⟨⟨ts[i]⟩, hview.history.stored i _ ht,
      getSelfConsensusState_of_record (hstub'.getSequence_iff.mpr (hview'.past i _ ht)), rfl, ?_,
      hmem i _ ht⟩
    rw [heightAt_toNat (by omega)]
    omega

end Runs

namespace Sample

open Symbolic

/-- A call of the sample is disciplined, given its room. -/
theorem disciplined_callAt (current : Sequence) {ws : WorldState} {t : Int64} {call : Call}
    (honce : orderly chaincode ws (callAt t call) = true)
    (htime : WellFormedTimestamp t ∧ 0 < t.toInt)
    (hcurrent : call = .updateSequence →
      chaincode.sequenceMgr.getCurrentSequence ((callAt t call).stub ws) = .ok current)
    (hroom : current.value.toNat + 1 < 2 ^ 63 - 1) : chaincode.Disciplined ws (callAt t call) := by
  refine ⟨honce, fun _ tm htm => ?_, fun hcall current' hcurrent' => ?_⟩
  · rwa [← Except.ok.inj htm]
  · rw [hcurrent hcall, Outcome.ok.injEq] at hcurrent'
    rwa [← hcurrent']

/-- The second sequence is made, endorsed and shown to the client. -/
def followedSteps : List SystemStep :=
  [.transact (callAt 105 .updateSequence), .endorse (callAt 105 .endorseSequenceCommitment),
    .updateClient (.ofSequence (sequenceHeader ⟨2, 105⟩))]

end Sample

open Symbolic Sample in
/-- The client follows to sequence 2, the chain goes on to sequence 3. -/
theorem view_is_past_state_two_sequences :
    ∃ current block, chaincode.sequenceMgr.getCurrentSequence ((callAt 0 .updateSequence).stub
        (System.run fabric chaincode createdClient ([.transact (callAt 100 (.initChaincode []))] ++
          followedSteps ++ [.transact (callAt 110 .updateSequence)])).ws) = .ok current ∧
      getBlockHeader (str "ibc") (chaincode.getBlockProvider ((callAt 0 .updateSequence).stub
        (System.run fabric chaincode createdClient ([.transact (callAt 100 (.initChaincode []))] ++
          followedSteps ++ [.transact (callAt 110 .updateSequence)])).ws)) = .ok block ∧
      (System.run fabric chaincode createdClient ([.transact (callAt 100 (.initChaincode []))] ++
        followedSteps)).client.state.getLatestHeight.revisionHeight ≤ current.value := by
  have hcreated : createdClient.CreatedFrom codec ⟨1, 100⟩ :=
    ⟨rfl, by decide +kernel, height_of_createdClient⟩
  have hsetup : Run.Along (System.step fabric chaincode) (System.Regular chaincode)
      (System.start createdClient) [.transact (callAt 100 (.initChaincode []))] :=
    ⟨fun _ _ _ => disciplined_callAt ⟨0, 0⟩ (by decide +kernel) (by decide)
      (fun h => by cases h) (by decide), trivial⟩
  have hmem : sequenceEndorsement ⟨2, 105⟩ ∈ (System.run fabric chaincode createdClient
      [.transact (callAt 100 (.initChaincode [])), .transact (callAt 105 .updateSequence),
        .endorse (callAt 105 .endorseSequenceCommitment)]).endorsements := by decide +kernel
  have hrun : Run.Along (System.step fabric chaincode)
      (fun s st => s.Regular chaincode st ∧ s.Honest fabric st)
      { System.run fabric chaincode createdClient [.transact (callAt 100 (.initChaincode []))] with
        client := createdClient }
      (followedSteps ++ [.transact (callAt 110 .updateSequence)]) := by
    refine ⟨⟨fun _ _ _ => ?_, trivial⟩, ⟨trivial, trivial⟩, ⟨trivial, fun ch hch _ => ?_⟩,
      ⟨fun _ _ _ => ?_, trivial⟩, trivial⟩
    · exact disciplined_callAt ⟨1, 100⟩ (by decide +kernel) (by decide)
        (fun _ => by decide +kernel) (by decide)
    · rw [← Option.some.inj hch]
      exact hmem
    · exact disciplined_callAt ⟨2, 105⟩ (by decide +kernel) (by decide)
        (fun _ => by decide +kernel) (by decide)
  obtain ⟨current, block, hcurrent, hblock, -, -, -, hle, -⟩ := view_is_past_state (str "ibc")
    (callAt 0 .updateSequence) (by decide) hsetup (by decide +kernel) hcreated hrun rfl rfl
  exact ⟨current, block, hcurrent, hblock, hle⟩

end FabricIBC
