import FabricIBC.Lib.MVCC
import FabricIBC.Commitment.Clock
import FabricIBC.Chaincode.SequenceLog

/-!
# Fabric-IBC — chaincode: concurrent updates of the sequence

On a Fabric channel many calls of `UpdateSequence` are simulated against the
same ledger, and they are committed in some order under Fabric's rule of read
versions. Here `UpdateSequence` is a program of `MVCC`: it reads the pointer
record and nothing else (`updateSequence_congr`).

* `Produced.records` — the records of a run of the manager are a log;
* `Produced.exec` — a serial run of updates is a run of the manager;
* `sequence_history` — so under any interleaving the history of sequences is
  complete, numbered without gaps, spaced, and near the clocks of the simulations.
-/

namespace FabricIBC

open Go

/-! ## Updates as transactions of the ledger -/

/-- World states under the writes of transactions. -/
def worldStore : MVCC.Store WorldState Bytes Bytes (List Write) where
  get ws key := ws[key]?
  apply := applyWrites
  keys writes := writes.map Write.key
  frame h := getElem?_applyWrites_of_ne fun w hw heq =>
    h (List.mem_map.mpr ⟨w, hw, heq⟩)

namespace SequenceManager

variable {m : SequenceManager} {a : Moment} {ws ws' : WorldState}

theorem getCurrentSequence_congr
    (h : ws'[makeCurrentSequenceKey m.pfx]? = ws[makeCurrentSequenceKey m.pfx]?) :
    m.getCurrentSequence (a.stub ws') = m.getCurrentSequence (a.stub ws) := by
  have hget : (a.stub ws').getState (makeCurrentSequenceKey m.pfx) =
      (a.stub ws).getState (makeCurrentSequenceKey m.pfx) := h
  unfold getCurrentSequence readSequence
  rw [hget]

/-- `UpdateSequence` reads the pointer record only. -/
theorem updateSequence_congr
    (h : ws'[makeCurrentSequenceKey m.pfx]? = ws[makeCurrentSequenceKey m.pfx]?) :
    m.updateSequence (a.stub ws') = m.updateSequence (a.stub ws) := by
  unfold updateSequence
  rw [getCurrentSequence_congr h]
  rfl

/-- The write set of an update that succeeds. -/
def updateWrites (m : SequenceManager) (ws : WorldState) (a : Moment) : Option (List Write) :=
  match m.updateSequence (a.stub ws) with
  | .ok (_, writes) => some writes
  | .err _ => none
  | .panic _ => none

theorem updateWrites_eq_some_iff {writes : List Write} :
    m.updateWrites ws a = some writes ↔ ∃ seq, m.updateSequence (a.stub ws) = .ok (seq, writes) := by
  unfold updateWrites
  cases m.updateSequence (a.stub ws) with
  | ok r => simp [Prod.ext_iff, eq_comm]
  | err e => simp
  | panic p => simp

theorem updateWrites_eq_none (h : (m.updateSequence (a.stub ws)).isOk = false) :
    m.updateWrites ws a = none := by
  unfold updateWrites
  cases hok : m.updateSequence (a.stub ws) with
  | ok r => rw [hok] at h; exact absurd h (by simp [Outcome.isOk])
  | err e => rfl
  | panic p => rfl

/-- `UpdateSequence` as a program: a transaction is given by its moment. -/
def updates (m : SequenceManager) : MVCC.Program worldStore Moment where
  reads _ _ := [makeCurrentSequenceKey m.pfx]
  run := m.updateWrites
  reads_suffice {ws ws' a} h := by
    have hread : ws'[makeCurrentSequenceKey m.pfx]? = ws[makeCurrentSequenceKey m.pfx]? :=
      h _ List.mem_cons_self
    rw [updateWrites, updateWrites, updateSequence_congr hread]

/-- Regularity depends on the pointer record only. -/
theorem Regular.congr (h : m.Regular ws a)
    (hread : ws'[makeCurrentSequenceKey m.pfx]? = ws[makeCurrentSequenceKey m.pfx]?) :
    m.Regular ws' a :=
  ⟨h.clock, fun current hcurrent => h.sum current (getCurrentSequence_congr hread ▸ hcurrent)⟩

/-! ## Serial runs -/

section Serial

variable {admits : WorldState → Moment → Prop} {ws₀ : WorldState} {hist : List (Moment × Sequence)}

/-- The records of a run of the manager are a log. -/
theorem Produced.records (h : Produced m admits ws₀ ws hist) (hempty : Records m ws₀ [])
    (hlen : hist.length < 2 ^ 64) : Records m ws (hist.map fun x => x.2.timestamp) := by
  induction h with
  | init hadmits h =>
    obtain ⟨tm, -, rfl, rfl⟩ := initSequence_eq_ok_iff.mp h
    exact hempty.putSequence (by simp) tm
  | update hprod hadmits h ih =>
    rename_i ws hist a seq writes
    rw [List.length_append, List.length_singleton] at hlen
    have hrecords := ih (by omega)
    obtain ⟨current, tm, hcurrent, -, rfl, rfl⟩ := updateSequence_eq_ok_iff.mp h
    have hstub : Records m (a.stub ws).state (hist.map fun x => x.2.timestamp) := hrecords
    obtain ⟨t, -, rfl⟩ := Option.map_eq_some_iff.mp (hstub.getCurrentSequence_iff.mp hcurrent)
    rw [List.map_append]
    exact hrecords.putSequence (by rw [List.length_map]; omega) tm

/-- The number of a call is its place. -/
theorem Produced.value_at (h : Produced m admits ws₀ ws hist) {i : UInt64} (hpos : 0 < i.toNat)
    {x : Moment × Sequence} (hx : hist[i.toNat - 1]? = some x) : x.2.value = i := by
  have hplace := h.value hx
  rwa [show i.toNat - 1 + 1 = i.toNat by omega, UInt64.ofNat_toNat] at hplace

section Reading

variable (h : Produced m admits ws₀ ws hist) (hempty : Records m ws₀ []) (hlen : hist.length < 2 ^ 64)

include h hempty hlen

/-- The record of a number is the sequence of that call. -/
theorem Produced.getSequence_iff {stub : Stub} (hstate : stub.state = ws) {i : UInt64}
    {seq : Sequence} :
    m.getSequence stub i = .ok seq ↔ 0 < i.toNat ∧ ∃ b, hist[i.toNat - 1]? = some (b, seq) := by
  have hrecords : Records m stub.state (hist.map fun x => x.2.timestamp) := by
    rw [hstate]
    exact h.records hempty hlen
  rw [hrecords.getSequence_iff, SequenceLog.record_eq_some_iff, List.getElem?_map]
  constructor
  · rintro ⟨hpos, ht, hvalue⟩
    obtain ⟨⟨b, seq'⟩, hx, htime⟩ := Option.map_eq_some_iff.mp ht
    have hvalue' : seq'.value = i := h.value_at hpos hx
    -- number and timestamp are all there is to a sequence
    obtain rfl : seq = seq' := by
      cases seq
      cases seq'
      simp_all
    exact ⟨hpos, b, hx⟩
  · rintro ⟨hpos, b, hx⟩
    exact ⟨hpos, by rw [hx]; rfl, h.value_at hpos hx⟩

/-- There are no other records. -/
theorem Produced.isSome_record_iff {i : UInt64} :
    (ws[makeSequenceKey m.pfx i]?).isSome ↔ 1 ≤ i.toNat ∧ i.toNat ≤ hist.length := by
  rw [(h.records hempty hlen).record, Option.isSome_map, Option.isSome_iff_exists]
  simp only [SequenceLog.record_eq_some_iff, List.getElem?_map]
  constructor
  · rintro ⟨seq, hpos, ht, -⟩
    obtain ⟨x, hx, -⟩ := Option.map_eq_some_iff.mp ht
    obtain ⟨hlt, -⟩ := List.getElem?_eq_some_iff.mp hx
    omega
  · rintro ⟨hpos, hle⟩
    have hlt : i.toNat - 1 < hist.length := by omega
    exact ⟨⟨i, hist[i.toNat - 1].2.timestamp⟩, hpos, by rw [List.getElem?_eq_getElem hlt]; rfl, rfl⟩

/-- The number of the current sequence is the number of calls. -/
theorem Produced.toNat_value {b : Moment} {n : Sequence} (hlast : hist.getLast? = some (b, n)) :
    n.value.toNat = hist.length ∧
      ∀ stub : Stub, stub.state = ws → m.getSequence stub n.value = .ok n := by
  have hpos := List.length_pos_of_mem (List.mem_of_getLast? hlast)
  rw [List.getLast?_eq_getElem?] at hlast
  have hvalue : n.value.toNat = hist.length := by
    rw [h.value hlast, show hist.length - 1 + 1 = hist.length by omega]
    exact Wire.toUInt64_toNat hlen
  refine ⟨hvalue, fun stub hstate => (h.getSequence_iff hempty hlen hstate).mpr ⟨by omega, b, ?_⟩⟩
  rw [hvalue, hlast]

end Reading

/-- Consecutive records keep the minimum interval. -/
theorem Produced.spaced_records (h : Produced m m.Regular ws₀ ws hist) (hempty : Records m ws₀ [])
    (hlen : hist.length < 2 ^ 64) {stub : Stub} (hstate : stub.state = ws) {i : UInt64}
    {seq seq' : Sequence} (hseq : m.getSequence stub i = .ok seq)
    (hseq' : m.getSequence stub (i + 1) = .ok seq') :
    seq.timestamp.toInt + m.minInterval.toInt ≤ seq'.timestamp.toInt := by
  obtain ⟨hpos, b, hx⟩ := (h.getSequence_iff hempty hlen hstate).mp hseq
  obtain ⟨hpos', b', hx'⟩ := (h.getSequence_iff hempty hlen hstate).mp hseq'
  -- the next number has not wrapped around, since there is no record 0
  have hsucc : (i + 1).toNat - 1 = i.toNat - 1 + 1 := by
    have hlt := i.toNat_lt
    rw [UInt64.toNat_add, UInt64.toNat_one] at hpos' ⊢
    omega
  rw [hsucc] at hx'
  obtain ⟨hlt', hx'⟩ := List.getElem?_eq_some_iff.mp hx'
  obtain ⟨hlt, hx⟩ := List.getElem?_eq_some_iff.mp hx
  have hspaced := h.spaced.getElem _ hlt'
  rw [hx, hx'] at hspaced
  exact hspaced

/-- A record, its call, and the clock of the call. -/
theorem Produced.exists_record (h : Produced m m.Regular ws₀ ws hist) (hempty : Records m ws₀ [])
    (hlen : hist.length < 2 ^ 64) {stub : Stub} (hstate : stub.state = ws) {i : UInt64}
    (hpos : 1 ≤ i.toNat) (hle : i.toNat ≤ hist.length) :
    ∃ seq b, m.getSequence stub i = .ok seq ∧ seq.value = i ∧
      (hist.map Prod.fst)[i.toNat - 1]? = some b ∧ b.txTimestamp = .ok seq.timestamp ∧
      |seq.timestamp.toInt - b.now.toInt| ≤ m.maxDiff.toInt := by
  have hlt : i.toNat - 1 < hist.length := by omega
  have hx := List.getElem?_eq_getElem hlt
  have hmem := List.getElem_mem hlt
  obtain ⟨ws', prevSec, -, htime⟩ := h.timely _ hmem
  refine ⟨hist[i.toNat - 1].2, hist[i.toNat - 1].1,
    (h.getSequence_iff hempty hlen hstate).mpr ⟨hpos, _, hx⟩, h.value_at hpos hx, ?_, htime.1,
    h.near _ hmem⟩
  rw [List.getElem?_map, hx]
  rfl

/-- Updates run one after the other continue a run of the manager. -/
theorem Produced.exec (h : Produced m admits ws₀ ws hist) {txs : List Moment}
    (halong : Run.Along (MVCC.exec m.updates) (MVCC.Succeeds m.updates admits) ws txs) :
    ∃ hist', Produced m admits ws₀ (Run.run (MVCC.exec m.updates) ws txs) (hist ++ hist') ∧
      hist'.map Prod.fst = txs := by
  -- each update that succeeds appends one call to the history
  induction txs generalizing ws hist with
  | nil => exact ⟨[], by rwa [List.append_nil], rfl⟩
  | cons a txs ih =>
    obtain ⟨⟨hadmits, writes, hrun⟩, hrest⟩ := halong
    obtain ⟨seq, hok⟩ := updateWrites_eq_some_iff.mp hrun
    have hexec : MVCC.exec m.updates ws a = applyWrites ws writes := by
      have hrun' : m.updates.run ws a = some writes := hrun
      rw [MVCC.exec, hrun']
      rfl
    rw [hexec] at hrest
    obtain ⟨hist', hprod, hmap⟩ := ih (h.update hadmits hok) hrest
    refine ⟨(a, seq) :: hist', ?_, by rw [List.map_cons, hmap]⟩
    rw [Run.run_cons, hexec]
    simpa using hprod

end Serial

/-! ## Concurrent runs -/

/-- The network after `InitSequence` was committed. -/
def initialised (L : MVCC.Ledger worldStore) (writes : List Write) :
    MVCC.Network worldStore Moment :=
  ⟨L.commit writes, [], []⟩

/-- **The history of sequences under concurrency.** After one committed
`InitSequence`, take any interleaving of simulations of `UpdateSequence` and of
commits, with the clock past the allowed difference after the epoch at each
simulation and sums that are 64-bit, and fewer than `2 ^ 64 - 1` committed
updates. Let `n` be the current sequence. There are records of exactly the
sequences 1 to `n`; record `i` has the value `i`, the timestamp of the `i`-th
committed transaction, and is within the allowed difference of the clock at
whose reading that transaction was simulated; record `n` is the current one;
consecutive records keep the minimum interval. A call that is rejected changes
nothing, and neither does a proposal that is invalid when its turn comes. -/
theorem sequence_history {L : MVCC.Ledger worldStore} (hempty : Records m L.state [])
    {a₀ : Moment} {seq₀ : Sequence} {writes₀ : List Write} (hclock₀ : m.AfterEpoch a₀)
    (hinit : m.initSequence (a₀.stub L.state) = .ok (seq₀, writes₀))
    {events : List (MVCC.Event Moment)}
    (hclock : Run.Along (MVCC.Network.step m.updates)
      (fun N e => ∀ a, e = .simulate a → m.Regular N.ledger.state a) (initialised L writes₀) events)
    {N : MVCC.Network worldStore Moment}
    (hN : N = Run.run (MVCC.Network.step m.updates) (initialised L writes₀) events)
    (hcount : N.chain.length < 2 ^ 64 - 1) (a : Moment) :
    ∃ n, m.getCurrentSequence (a.stub N.ledger.state) = .ok n ∧
      n.value.toNat = N.chain.length + 1 ∧
      m.getSequence (a.stub N.ledger.state) n.value = .ok n ∧
      (∀ i : UInt64, (N.ledger.state[makeSequenceKey m.pfx i]?).isSome ↔
        1 ≤ i.toNat ∧ i.toNat ≤ n.value.toNat) ∧
      (∀ i : UInt64, 1 ≤ i.toNat → i.toNat ≤ n.value.toNat →
        ∃ seq ai, m.getSequence (a.stub N.ledger.state) i = .ok seq ∧ seq.value = i ∧
          (a₀ :: N.chain)[i.toNat - 1]? = some ai ∧ ai.txTimestamp = .ok seq.timestamp ∧
          |seq.timestamp.toInt - ai.now.toInt| ≤ m.maxDiff.toInt) ∧
      (∀ (i : UInt64) seq seq', m.getSequence (a.stub N.ledger.state) i = .ok seq →
        m.getSequence (a.stub N.ledger.state) (i + 1) = .ok seq' →
        seq.timestamp.toInt + m.minInterval.toInt ≤ seq'.timestamp.toInt) ∧
      (∀ b, (m.updateSequence (b.stub N.ledger.state)).isOk = false →
        N.step m.updates (.simulate b) = N) ∧
      ∀ j p, N.proposals[j]? = some p → MVCC.valid N.ledger p = false →
        N.step m.updates (.commit j) = N := by
  -- without a record there is no sum to overflow
  have hregular₀ : m.Regular L.state a₀ := by
    refine ⟨hclock₀, fun current hcurrent => ?_⟩
    have hstub : Records m (a₀.stub L.state).state [] := hempty
    exact absurd (hstub.getCurrentSequence_iff.mp hcurrent) (by simp [SequenceLog.current])
  -- the ledger is that of the committed updates in their order
  obtain ⟨txs, hchain, halong, hstate⟩ := MVCC.run_serial (Q := m.Regular)
    (fun p hp => absurd hp List.not_mem_nil)
    (fun hread hq => hq.congr (hread _ List.mem_cons_self)) hclock
  rw [← hN] at hchain hstate
  obtain ⟨hist', hprod, hmap⟩ := (Produced.init hregular₀ hinit).exec halong
  obtain rfl : N.chain = txs := hchain
  have hprod' : Produced m m.Regular L.state N.ledger.state ([(a₀, seq₀)] ++ hist') := by
    rw [hstate]
    exact hprod
  set hist := [(a₀, seq₀)] ++ hist' with hhist
  have hmoments : hist.map Prod.fst = a₀ :: N.chain := by rw [hhist, List.map_append, hmap]; rfl
  have hlength : hist.length = N.chain.length + 1 := by
    rw [← List.length_map (f := Prod.fst), hmoments, List.length_cons]
  have hlen : hist.length < 2 ^ 64 := by omega
  obtain ⟨b, n, hlast, hcurrent⟩ := hprod'.current
  obtain ⟨hvalue, hrecord⟩ := hprod'.toNat_value hempty hlen hlast
  refine ⟨n, hcurrent _ rfl, by omega, hrecord _ rfl, fun i => ?_, fun i hpos hle => ?_,
    fun i seq seq' hseq hseq' => hprod'.spaced_records hempty hlen rfl hseq hseq',
    fun c hreject => ?_, fun j p hp hinvalid => ?_⟩
  · rw [hprod'.isSome_record_iff hempty hlen, hvalue]
  · rw [← hmoments]
    exact hprod'.exists_record hempty hlen rfl hpos (by omega)
  · have hrun : m.updates.run N.ledger.state c = none := updateWrites_eq_none hreject
    have hsim : MVCC.simulate m.updates N.ledger c = none := by rw [MVCC.simulate, hrun]; rfl
    simp only [MVCC.Network.step, hsim]
  · simp only [MVCC.Network.step, hp, hinvalid, Bool.false_eq_true, if_false]

/-- The ledger of a new channel. -/
def emptyLedger : MVCC.Ledger worldStore where
  state := ∅
  version _ := none
  commits := 0
  bound h := by cases h
  absent := by simp [worldStore]

/-- Two updates are simulated against the first sequence. The second one is
committed first, and then the other one is invalid. -/
def racing : List (MVCC.Event Moment) :=
  [.simulate ⟨.ok 110, 110⟩, .simulate ⟨.ok 112, 113⟩, .commit 1, .commit 0]

/-- The race of two updates. -/
theorem sequence_history_race :
    ∃ n, newDefault.getCurrentSequence (Moment.stub ⟨.ok 0, 0⟩ (Run.run
        (MVCC.Network.step newDefault.updates)
        (initialised emptyLedger (newDefault.putSequence ⟨1, 100⟩)) racing).ledger.state) = .ok n ∧
      n.value.toNat = 2 := by
  have hsum : FitsInt64 ((⟨1, 100⟩ : Sequence).timestamp.toInt + newDefault.minInterval.toInt) := by
    decide
  have hclock : Run.Along (MVCC.Network.step newDefault.updates)
      (fun N e => ∀ a, e = .simulate a → newDefault.Regular N.ledger.state a)
      (initialised emptyLedger (newDefault.putSequence ⟨1, 100⟩)) racing := by
    refine ⟨fun a ha => ?_, fun a ha => ?_, fun a ha => ?_, fun a ha => ?_, trivial⟩ <;> cases ha
    · exact regular_of_current ⟨by decide, by decide, by decide⟩ (by decide +kernel) hsum
    · exact regular_of_current ⟨by decide, by decide, by decide⟩ (by decide +kernel) hsum
  have hchain : (Run.run (MVCC.Network.step newDefault.updates)
      (initialised emptyLedger (newDefault.putSequence ⟨1, 100⟩)) racing).chain.length = 1 := by
    decide +kernel
  have hinit : newDefault.initSequence (Moment.stub ⟨.ok 100, 100⟩ emptyLedger.state) =
      .ok (⟨1, 100⟩, newDefault.putSequence ⟨1, 100⟩) := by decide +kernel
  obtain ⟨n, hcurrent, hvalue, -⟩ := sequence_history (records_empty newDefault)
    ⟨by decide, by decide, by decide⟩ hinit hclock rfl (by rw [hchain]; decide) ⟨.ok 0, 0⟩
  exact ⟨n, hcurrent, by rw [hvalue, hchain]⟩

end SequenceManager

end FabricIBC
