import FabricIBC.Lib.Run
import FabricIBC.Chaincode.Effects
import FabricIBC.Chaincode.Sample

/-!
# Fabric-IBC — chaincode: the sequence records are a log

Abstractly the sequence manager keeps a list of timestamps: entry `n` of it,
counted from one, is sequence `n`, and the last one is the current sequence.
`Records` says that a world state holds the records of such a log and no others.

* `commit_extends` — an orderly call keeps the records those of a log, which it
  leaves as it is or extends at its end;
* `no_equivocation` — so in a run whose committed calls are orderly no record changes,
  the current sequence does not go back, and endorsed commitments of one sequence agree.

Orderly means that `InitChaincode` is not invoked again and that the current
sequence is not the last 64-bit number: `InitSequence` overwrites the records
without looking at them (`reinitialised_chaincode_equivocates`).
-/

namespace FabricIBC

open Go

/-! ## The log -/

namespace SequenceLog

/-- Sequence `n` of the log. -/
def record (log : List Int64) (n : UInt64) : Option Sequence :=
  if n = 0 then none else log[n.toNat - 1]?.map (Sequence.mk n)

/-- The last sequence of the log. -/
def current (log : List Int64) : Option Sequence :=
  log.getLast?.map (Sequence.mk log.length.toUInt64)

/-- The number of the next sequence. -/
def next (log : List Int64) : UInt64 := log.length.toUInt64 + 1

theorem toNat_length {log : List Int64} (h : log.length < 2 ^ 64) :
    log.length.toUInt64.toNat = log.length := Wire.toUInt64_toNat h

theorem toNat_next {log : List Int64} (h : log.length + 1 < 2 ^ 64) :
    (next log).toNat = log.length + 1 := by
  rw [next, UInt64.toNat_add, toNat_length (by omega)]
  exact Nat.mod_eq_of_lt h

theorem record_append {log : List Int64} (h : log.length + 1 < 2 ^ 64) (t : Int64) (n : UInt64) :
    record (log ++ [t]) n = if n = next log then some ⟨n, t⟩ else record log n := by
  have hnext := toNat_next h
  unfold record
  by_cases hzero : n = 0
  · have hne : n ≠ next log := by
      rintro rfl
      rw [hzero] at hnext
      exact absurd hnext (by simp)
    rw [if_pos hzero, if_neg hne, if_pos hzero]
  · have hpos : 0 < n.toNat := Nat.pos_of_ne_zero fun h0 => hzero (UInt64.toNat_inj.mp h0)
    by_cases hn : n = next log
    · rw [if_neg hzero, if_pos hn, hn, hnext, Nat.add_sub_cancel, List.getElem?_concat_length]
      rfl
    · have hne : n.toNat ≠ log.length + 1 := fun heq => hn (UInt64.toNat_inj.mp (heq.trans hnext.symm))
      rw [if_neg hzero, if_neg hn, if_neg hzero]
      by_cases hlt : n.toNat - 1 < log.length
      · rw [List.getElem?_append_left hlt]
      · rw [List.getElem?_eq_none (by simp; omega), List.getElem?_eq_none (by omega)]

theorem current_append (log : List Int64) (t : Int64) :
    current (log ++ [t]) = some ⟨next log, t⟩ := by
  simp [current, next]

theorem record_of_current {log : List Int64} (h : log.length < 2 ^ 64) {seq : Sequence}
    (hseq : current log = some seq) : record log seq.value = some seq := by
  obtain ⟨t, ht, rfl⟩ := Option.map_eq_some_iff.mp hseq
  have hlen := toNat_length h
  have hne : log ≠ [] := by
    rintro rfl
    simp at ht
  have hpos : 0 < log.length := List.length_pos_iff.mpr hne
  have hzero : log.length.toUInt64 ≠ 0 := by
    intro h0
    rw [h0] at hlen
    exact absurd hlen.symm (by simpa using hne)
  show record log log.length.toUInt64 = _
  rw [record, if_neg hzero, hlen, ← List.getLast?_eq_getElem?, ht]
  rfl

theorem record_eq_some_iff {log : List Int64} {n : UInt64} {seq : Sequence} :
    record log n = some seq ↔
      0 < n.toNat ∧ log[n.toNat - 1]? = some seq.timestamp ∧ seq.value = n := by
  unfold record
  by_cases hzero : n = 0
  · simp [hzero]
  · have hpos : 0 < n.toNat := Nat.pos_of_ne_zero fun h0 => hzero (UInt64.toNat_inj.mp h0)
    rw [if_neg hzero, Option.map_eq_some_iff]
    constructor
    · rintro ⟨t, ht, rfl⟩
      exact ⟨hpos, ht, rfl⟩
    · rintro ⟨-, ht, rfl⟩
      exact ⟨_, ht, rfl⟩

theorem value_of_record {log : List Int64} {n : UInt64} {seq : Sequence}
    (h : record log n = some seq) : seq.value = n := (record_eq_some_iff.mp h).2.2

/-- A longer log has the old records. -/
theorem record_of_isPrefix {log log' : List Int64} (h : log <+: log') {n : UInt64} {seq : Sequence}
    (hseq : record log n = some seq) : record log' n = some seq := by
  obtain ⟨hpos, ht, hvalue⟩ := record_eq_some_iff.mp hseq
  obtain ⟨rest, rfl⟩ := h
  obtain ⟨hlt, -⟩ := List.getElem?_eq_some_iff.mp ht
  exact record_eq_some_iff.mpr ⟨hpos, by rw [List.getElem?_append_left hlt, ht], hvalue⟩

end SequenceLog

/-! ## World states that hold a log -/

/-- The sequence records of the world state are those of the log. -/
structure Records (m : SequenceManager) (ws : WorldState) (log : List Int64) : Prop where
  bound : log.length < 2 ^ 64
  current : ws[makeCurrentSequenceKey m.pfx]? = (SequenceLog.current log).map Sequence.bytes
  record : ∀ n, ws[makeSequenceKey m.pfx n]? = (SequenceLog.record log n).map Sequence.bytes

section Records

variable {m : SequenceManager} {ws : WorldState} {log : List Int64}

theorem records_empty (m : SequenceManager) : Records m ∅ [] where
  bound := by simp
  current := by simp [SequenceLog.current]
  record n := by simp [SequenceLog.record]

/-- Reading a stored sequence gives it back. -/
theorem readSequence_of_stored {stub : Stub} {key : Bytes} {r : Option Sequence} {seq : Sequence}
    (hstored : stub.state[key]? = r.map Sequence.bytes) :
    SequenceManager.readSequence stub key = .ok seq ↔ r = some seq := by
  rw [SequenceManager.readSequence_eq_ok_iff, hstored]
  constructor
  · rintro ⟨bz, hbz, hseq⟩
    obtain ⟨seq', rfl, rfl⟩ := Option.map_eq_some_iff.mp hbz
    rw [Sequence.unmarshal_bytes, Outcome.ok.injEq] at hseq
    rw [hseq]
  · rintro rfl
    exact ⟨seq.bytes, rfl, seq.unmarshal_bytes⟩

theorem Records.getCurrentSequence_iff {stub : Stub} (h : Records m stub.state log)
    {seq : Sequence} :
    m.getCurrentSequence stub = .ok seq ↔ SequenceLog.current log = some seq :=
  readSequence_of_stored h.current

theorem Records.getSequence_iff {stub : Stub} (h : Records m stub.state log) {n : UInt64}
    {seq : Sequence} : m.getSequence stub n = .ok seq ↔ SequenceLog.record log n = some seq :=
  readSequence_of_stored (h.record n)

/-- Writes to other keys leave the log alone. -/
theorem Records.frame (h : Records m ws log) {writes : List Write}
    (hcurrent : ∀ w ∈ writes, w.key ≠ makeCurrentSequenceKey m.pfx)
    (hrecord : ∀ w ∈ writes, ∀ n, w.key ≠ makeSequenceKey m.pfx n) :
    Records m (applyWrites ws writes) log where
  bound := h.bound
  current := by rw [getElem?_applyWrites_of_ne hcurrent, h.current]
  record n := by rw [getElem?_applyWrites_of_ne fun w hw => hrecord w hw n, h.record]

theorem Records.app (h : Records m ws log) {writes : List Write}
    (happ : ApplicationWrites writes) : Records m (applyWrites ws writes) log := by
  refine h.frame (fun w hw heq => ?_) fun w hw n heq => ?_
  · exact (makeCurrentSequenceKey_recordKey m.pfx).not_applicationKey (heq ▸ happ w hw)
  · exact (makeSequenceKey_recordKey m.pfx n).not_applicationKey (heq ▸ happ w hw)

theorem Records.entry (h : Records m ws log) (id : EntryID) (pfx value : Bytes) :
    Records m (applyWrites ws [.put (id.key pfx) value]) log := by
  refine h.frame ?_ ?_ <;> intro w hw <;> rw [List.mem_singleton.mp hw]
  · exact id.key_ne_current pfx m.pfx
  · exact id.key_ne_sequence pfx m.pfx

/-- The two records of the next sequence extend the log. -/
theorem Records.putSequence (h : Records m ws log) (hroom : log.length + 1 < 2 ^ 64) (t : Int64) :
    Records m (applyWrites ws (m.putSequence ⟨SequenceLog.next log, t⟩)) (log ++ [t]) := by
  have hne (n : UInt64) : makeCurrentSequenceKey m.pfx ≠ makeSequenceKey m.pfx n :=
    current_ne_sequence m.pfx m.pfx n
  -- the pointer record is written first, then the historical one
  have hputs : applyWrites ws (m.putSequence ⟨SequenceLog.next log, t⟩) =
      Write.apply (Write.apply ws (.put (makeCurrentSequenceKey m.pfx)
        (Sequence.bytes ⟨SequenceLog.next log, t⟩)))
        (.put (makeSequenceKey m.pfx (SequenceLog.next log))
          (Sequence.bytes ⟨SequenceLog.next log, t⟩)) := rfl
  rw [hputs]
  refine ⟨by simpa using hroom, ?_, fun n => ?_⟩
  · rw [getElem?_apply_put_of_ne (hne _).symm, getElem?_apply_self, SequenceLog.current_append]
    rfl
  · rw [SequenceLog.record_append hroom]
    by_cases hn : n = SequenceLog.next log
    · rw [if_pos hn, hn, getElem?_apply_self]
      rfl
    · have hkey : makeSequenceKey m.pfx (SequenceLog.next log) ≠ makeSequenceKey m.pfx n :=
        fun heq => hn (makeSequenceKey_inj heq).symm
      rw [if_neg hn, getElem?_apply_put_of_ne hkey, getElem?_apply_put_of_ne (hne n), h.record]

end Records

/-! ## Orderly calls -/

/-- The largest 64-bit number. -/
def maxUint64 : UInt64 := 0xffffffffffffffff

/-- `InitChaincode` finds no current sequence, and `UpdateSequence` finds one
that has a successor. -/
def orderly {C : Codec} (cc : IBCChaincode C) (ws : WorldState) (inv : Invocation) : Bool :=
  match inv.call with
  | .initChaincode _ => ws[makeCurrentSequenceKey cc.sequenceMgr.pfx]?.isNone
  | .updateSequence =>
    match cc.sequenceMgr.getCurrentSequence (inv.stub ws) with
    | .ok current => current.value != maxUint64
    | .err _ => true
    | .panic _ => true
  | _ => true

/-- The call succeeds, so its writes are committed. -/
def IBCChaincode.commits {C : Codec} (cc : IBCChaincode C) (ws : WorldState) (inv : Invocation) :
    Bool := (cc.invoke (inv.stub ws) inv.call).isOk

section Commit

variable {C : Codec} {cc : IBCChaincode C} {ws : WorldState} {log : List Int64}

theorem current_eq_none_iff {log : List Int64} : SequenceLog.current log = none ↔ log = [] := by
  simp [SequenceLog.current]

/-- What an orderly call that succeeds does to the log: it leaves it, or it adds
the timestamp of its transaction. -/
theorem Effect.log_cases {inv : Invocation} {writes : List Write}
    (heff : Effect cc (inv.stub ws) inv.call writes) (horderly : orderly cc ws inv = true)
    (h : Records cc.sequenceMgr ws log) :
    Records cc.sequenceMgr (applyWrites ws writes) log ∨
      ∃ tm, cc.sequenceMgr.Timely (inv.stub ws) (log.getLast?.getD 0) tm ∧
        ((∃ appState, inv.call = .initChaincode appState) ∧ log = [] ∨
          inv.call = .updateSequence ∧ log ≠ []) ∧
        Records cc.sequenceMgr (applyWrites ws writes) (log ++ [tm]) := by
  unfold orderly at horderly
  generalize hcall : inv.call = call at heff horderly
  cases heff with
  | init happ htime =>
    rename_i appState app tm
    -- there is no record yet
    simp only [Option.isNone_iff_eq_none, h.current, Option.map_eq_none_iff] at horderly
    obtain rfl := current_eq_none_iff.mp horderly
    refine Or.inr ⟨tm, htime, Or.inl ⟨⟨appState, rfl⟩, rfl⟩, ?_⟩
    rw [applyWrites_append]
    exact (h.app happ).putSequence (by simp) tm
  | tx happ => exact Or.inl (h.app happ)
  | update hcurrent htime =>
    rename_i current tm
    simp only [hcurrent, bne_iff_ne, ne_eq] at horderly
    have hstub : Records cc.sequenceMgr (inv.stub ws).state log := h
    have hlast := hstub.getCurrentSequence_iff.mp hcurrent
    obtain ⟨t, ht, rfl⟩ := Option.map_eq_some_iff.mp hlast
    -- the current sequence is not the last number, so the log has room
    have hroom : log.length + 1 < 2 ^ 64 := by
      have hlen := SequenceLog.toNat_length h.bound
      have hbound := h.bound
      have hne : log.length ≠ 2 ^ 64 - 1 := by
        intro heq
        apply horderly
        rw [← UInt64.toNat_inj, hlen, heq]
        rfl
      omega
    have hne : log ≠ [] := by
      rintro rfl
      exact absurd ht (by simp)
    refine Or.inr ⟨tm, ?_, Or.inr ⟨rfl, hne⟩, h.putSequence hroom tm⟩
    rw [ht]
    exact htime
  | sequence hseq =>
    -- the commitment of a sequence is an entry, not a record
    rename_i seq
    exact Or.inl (h.entry (.sequence seq.value) host.storeKey seq.bytes)
  | statement hstmt hheld hbytes happ =>
    refine Or.inl ?_
    rw [applyWrites_append]
    exact (h.app happ).entry _ _ _

/-- **One call that is orderly if it is committed extends the log or leaves it.** -/
theorem commit_extends {inv : Invocation}
    (horderly : cc.commits ws inv = true → orderly cc ws inv = true) (h : Records cc.sequenceMgr ws log) :
    ∃ log', log <+: log' ∧ Records cc.sequenceMgr (cc.commit ws inv) log' := by
  unfold IBCChaincode.commit
  cases hok : cc.invoke (inv.stub ws) inv.call with
  | ok r =>
    have hcommits : cc.commits ws inv = true := Outcome.isOk_iff.mpr ⟨r, hok⟩
    rcases (invoke_effect hok).log_cases (horderly hcommits) h with hsame | ⟨tm, -, -, hnew⟩
    · exact ⟨log, List.prefix_rfl, hsame⟩
    · exact ⟨log ++ [tm], List.prefix_append _ _, hnew⟩
  | err e => exact ⟨log, List.prefix_rfl, h⟩
  | panic p => exact ⟨log, List.prefix_rfl, h⟩

end Commit

/-! ## Runs -/

/-- In an orderly run every log there is extends the logs before it. -/
theorem run_extends {C : Codec} {cc : IBCChaincode C} {ws : WorldState} {invs : List Invocation}
    (horderly : Run.Along cc.commit
      (fun s inv => cc.commits s inv = true → orderly cc s inv = true) ws invs)
    {log : List Int64} (h : Records cc.sequenceMgr ws log) :
    ∃ log', log <+: log' ∧ Records cc.sequenceMgr (Run.run cc.commit ws invs) log' :=
  Run.run_log_along (fun _ _ _ hord h => commit_extends hord h) horderly h

/-- An endorsed sequence is one of the log. -/
theorem Records.requestedSequence {C : Codec} {cc : IBCChaincode C} {stub : Stub} {log : List Int64}
    (h : Records cc.sequenceMgr stub.state log) {seq : Sequence}
    (hseq : cc.requestedSequence stub = .ok seq) : SequenceLog.record log seq.value = some seq := by
  have hcurrent : cc.sequenceMgr.getCurrentSequence stub = .ok seq →
      SequenceLog.record log seq.value = some seq := fun hok =>
    SequenceLog.record_of_current h.bound (h.getCurrentSequence_iff.mp hok)
  unfold IBCChaincode.requestedSequence at hseq
  split at hseq
  · -- a sequence asked for by its number
    rw [Outcome.bind_eq_ok_iff] at hseq
    obtain ⟨n, -, hseq⟩ := hseq
    have hrecord := h.getSequence_iff.mp hseq
    rwa [SequenceLog.value_of_record hrecord]
  · exact hcurrent hseq

theorem endorseSequenceCommitment_eq_ok {C : Codec} {cc : IBCChaincode C} {stub : Stub}
    {seq : Sequence} {writes : List Write}
    (h : cc.endorseSequenceCommitment stub = .ok (makeSequenceCommitmentEntry seq, writes)) :
    cc.requestedSequence stub = .ok seq := by
  simp only [IBCChaincode.endorseSequenceCommitment, Outcome.bind_eq_ok_iff, Outcome.ok.injEq,
    Prod.mk.injEq] at h
  obtain ⟨seq', hseq', hentry, -⟩ := h
  rwa [← Sequence.bytes_injective (congrArg Entry.value hentry)]

/-- **No equivocation.** In a run from the empty world state whose committed calls are
orderly, a sequence record that exists never changes, the value of the current sequence
never decreases, and any two endorsed commitments of one sequence number, made
at any two times, carry the same timestamp. -/
theorem no_equivocation {C : Codec} (cc : IBCChaincode C) (before after : List Invocation)
    (horderly : Run.Along cc.commit
      (fun s inv => cc.commits s inv = true → orderly cc s inv = true) ∅ (before ++ after)) :
    (∀ n bz, (Run.run cc.commit ∅ before)[makeSequenceKey cc.sequenceMgr.pfx n]? = some bz →
      (Run.run cc.commit ∅ (before ++ after))[makeSequenceKey cc.sequenceMgr.pfx n]? = some bz) ∧
    (∀ (inv : Invocation) current,
      cc.sequenceMgr.getCurrentSequence (inv.stub (Run.run cc.commit ∅ before)) = .ok current →
      ∃ current', cc.sequenceMgr.getCurrentSequence
          (inv.stub (Run.run cc.commit ∅ (before ++ after))) = .ok current' ∧
        current.value ≤ current'.value) ∧
    ∀ (inv inv' : Invocation) seq seq' writes writes',
      cc.endorseSequenceCommitment (inv.stub (Run.run cc.commit ∅ before)) =
        .ok (makeSequenceCommitmentEntry seq, writes) →
      cc.endorseSequenceCommitment (inv'.stub (Run.run cc.commit ∅ (before ++ after))) =
        .ok (makeSequenceCommitmentEntry seq', writes') →
      seq.value = seq'.value → seq.timestamp = seq'.timestamp := by
  rw [Run.along_append] at horderly
  -- the log after `before`, and the longer one after the whole run
  obtain ⟨log, -, h⟩ := run_extends horderly.1 (records_empty cc.sequenceMgr)
  obtain ⟨log', hle, h'⟩ := run_extends horderly.2 h
  rw [← Run.run_append] at h'
  refine ⟨?_, ?_, ?_⟩
  · intro n bz hbz
    rw [h.record] at hbz
    obtain ⟨seq, hseq, rfl⟩ := Option.map_eq_some_iff.mp hbz
    rw [h'.record, SequenceLog.record_of_isPrefix hle hseq]
    rfl
  · intro inv current hcurrent
    have hstub : Records cc.sequenceMgr (inv.stub (Run.run cc.commit ∅ before)).state log := h
    have hstub' : Records cc.sequenceMgr
      (inv.stub (Run.run cc.commit ∅ (before ++ after))).state log' := h'
    have hlast := hstub.getCurrentSequence_iff.mp hcurrent
    obtain ⟨t, ht, rfl⟩ := Option.map_eq_some_iff.mp hlast
    have hne : log' ≠ [] := by
      rintro rfl
      rw [List.prefix_nil.mp hle] at ht
      exact absurd ht (by simp)
    refine ⟨⟨log'.length.toUInt64, log'.getLast hne⟩, hstub'.getCurrentSequence_iff.mpr ?_, ?_⟩
    · rw [SequenceLog.current, List.getLast?_eq_getLast_of_ne_nil hne]
      rfl
    · show log.length.toUInt64 ≤ log'.length.toUInt64
      rw [UInt64.le_iff_toNat_le, SequenceLog.toNat_length h.bound,
        SequenceLog.toNat_length h'.bound]
      exact hle.length_le
  · intro inv inv' seq seq' writes writes' hend hend' hvalue
    have hstub : Records cc.sequenceMgr (inv.stub (Run.run cc.commit ∅ before)).state log := h
    have hstub' : Records cc.sequenceMgr
      (inv'.stub (Run.run cc.commit ∅ (before ++ after))).state log' := h'
    have hrec := hstub.requestedSequence (endorseSequenceCommitment_eq_ok hend)
    have hrec' := hstub'.requestedSequence (endorseSequenceCommitment_eq_ok hend')
    have hlater := SequenceLog.record_of_isPrefix hle hrec
    rw [hvalue, hrec', Option.some.injEq] at hlater
    rw [hlater]

open Sample in
/-- The first sequence after the second one was made. -/
theorem no_equivocation_two_sequences :
    (Run.run chaincode.commit ∅ ([callAt 100 (.initChaincode [])] ++ [callAt 105 .updateSequence])
      )[makeSequenceKey host.storeKey 1]? = some (Sequence.bytes ⟨1, 100⟩) := by
  refine (no_equivocation chaincode _ _ ?_).1 1 _ ?_ <;> decide +kernel

open Sample in
/-- `InitChaincode` a second time: sequence 1 gets another timestamp, both
versions of it can be endorsed, and the current sequence goes back to it. -/
theorem reinitialised_chaincode_equivocates :
    (Run.run chaincode.commit ∅ [callAt 100 (.initChaincode []), callAt 105 .updateSequence]
      )[makeSequenceKey host.storeKey 1]? = some (Sequence.bytes ⟨1, 100⟩) ∧
    (Run.run chaincode.commit ∅ [callAt 100 (.initChaincode []), callAt 105 .updateSequence,
      callAt 110 (.initChaincode [])])[makeSequenceKey host.storeKey 1]? =
        some (Sequence.bytes ⟨1, 110⟩) ∧
    chaincode.sequenceMgr.getCurrentSequence ((callAt 0 .updateSequence).stub
      (Run.run chaincode.commit ∅ [callAt 100 (.initChaincode []), callAt 105 .updateSequence])) =
        .ok ⟨2, 105⟩ ∧
    chaincode.sequenceMgr.getCurrentSequence ((callAt 0 .updateSequence).stub
      (Run.run chaincode.commit ∅ [callAt 100 (.initChaincode []), callAt 105 .updateSequence,
        callAt 110 (.initChaincode [])])) = .ok ⟨1, 110⟩ ∧
    chaincode.invoke ((endorseSequence 1).stub (Run.run chaincode.commit ∅
      [callAt 100 (.initChaincode []), callAt 105 .updateSequence])) .endorseSequenceCommitment =
        .ok (.entry (makeSequenceCommitmentEntry ⟨1, 100⟩),
          [.put (makeSequenceCommitmentEntryKey 1) (Sequence.bytes ⟨1, 100⟩)]) ∧
    chaincode.invoke ((endorseSequence 1).stub (Run.run chaincode.commit ∅
      [callAt 100 (.initChaincode []), callAt 105 .updateSequence,
        callAt 110 (.initChaincode [])])) .endorseSequenceCommitment =
        .ok (.entry (makeSequenceCommitmentEntry ⟨1, 110⟩),
          [.put (makeSequenceCommitmentEntryKey 1) (Sequence.bytes ⟨1, 110⟩)]) := by
  decide +kernel

end FabricIBC
