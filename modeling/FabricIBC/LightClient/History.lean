import FabricIBC.LightClient.LifeCycle
import FabricIBC.Commitment.Sequence

/-!
# Fabric-IBC — light client: the history of a client

The client keeper stores the client state and the consensus states; the height
of a header, the consensus state it brings and the client state after it come
from three different functions. `History` ties them together over whole runs:
the heights advance by one, every height between the first and the latest has
its consensus state, and the timestamps ascend with the heights
(`client_history`).
-/

namespace FabricIBC

open Go

/-! ## Runs of the keeper -/

/-- The client after a header was submitted to the keeper, accepted or not. -/
def submitUpdate (F : Fabric) (C : Codec) (client : Client) (header : Header) : Client :=
  match updateClient F C client header with
  | .ok client' => client'
  | .err _ => client
  | .panic _ => client

def runClient (F : Fabric) (C : Codec) (client : Client) (headers : List Header) : Client :=
  Run.run (submitUpdate F C) client headers

theorem runClient_cons (F : Fabric) (C : Codec) (client : Client) (header : Header)
    (headers : List Header) :
    runClient F C client (header :: headers) =
      runClient F C (submitUpdate F C client header) headers := rfl

/-- The headers of a run that were accepted. -/
def acceptedHeaders (F : Fabric) (C : Codec) : Client → List Header → List Header
  | _, [] => []
  | client, header :: headers =>
    if (checkHeaderAndUpdateState F client.state (.fabric header)).isOk then
      header :: acceptedHeaders F C (submitUpdate F C client header) headers
    else acceptedHeaders F C (submitUpdate F C client header) headers

/-- The keeper's update of an accepted header that carries a sequence. -/
theorem updateClient_eq_ok {F : Fabric} {C : Codec} {client : Client} {header : Header}
    {cs' : ClientState} {cons : Option ConsensusState} {ch : ChaincodeHeader}
    (hch : header.chaincodeHeader = some ch)
    (hok : checkHeaderAndUpdateState F client.state (.fabric header) = .ok (cs', cons)) :
    ∃ bz, C.consensusState.marshal (.fabric ⟨ch.sequence.timestamp⟩) = .ok bz ∧
      updateClient F C client header =
        .ok ⟨cs', client.store.insert (host.consensusStatePath ⟨0, ch.sequence.value⟩) bz⟩ := by
  obtain ⟨-, -, rfl⟩ := accepted_spec hok
  obtain ⟨bz, hbz⟩ := C.marshal_fabric ⟨ch.sequence.timestamp⟩
  have hcons : header.consensusState = some ⟨ch.sequence.timestamp⟩ := by
    rw [Header.consensusState, hch]
    rfl
  have hheight : header.getHeight = .ok ⟨0, ch.sequence.value⟩ := by
    rw [Header.getHeight, hch]
  refine ⟨bz, hbz, ?_⟩
  unfold updateClient
  simp only [hok, Outcome.ok_bind, hheight, hcons, hbz]

/-- The client after it. -/
theorem updateClient_of_accepted {F : Fabric} {C : Codec} {client : Client} {header : Header}
    {ch : ChaincodeHeader} (hch : header.chaincodeHeader = some ch)
    (hok : (checkHeaderAndUpdateState F client.state (.fabric header)).isOk = true) :
    ch.Acceptable F client.state ∧
    ∃ bz, C.consensusState.marshal (.fabric ⟨ch.sequence.timestamp⟩) = .ok bz ∧
      (submitUpdate F C client header).state.lastChaincodeHeader = ch ∧
      (submitUpdate F C client header).store =
        client.store.insert (host.consensusStatePath ⟨0, ch.sequence.value⟩) bz := by
  obtain ⟨⟨state, cons⟩, hok⟩ := Outcome.isOk_iff.mp hok
  obtain ⟨hacc, hupd, -⟩ := accepted_spec hok
  obtain ⟨bz, hbz, hupdate⟩ := updateClient_eq_ok (C := C) hch hok
  have hsubmit : submitUpdate F C client header =
      ⟨state, client.store.insert (host.consensusStatePath ⟨0, ch.sequence.value⟩) bz⟩ := by
    rw [submitUpdate, hupdate]
  refine ⟨hacc.chaincodeHeader ch hch, bz, hbz, ?_, ?_⟩
  · rw [hsubmit, hupd.chaincodeHeader, hch]
    rfl
  · rw [hsubmit]

/-- A header that is not accepted changes nothing. -/
theorem submitUpdate_of_rejected {F : Fabric} {C : Codec} {client : Client} {header : Header}
    (hok : ¬ (checkHeaderAndUpdateState F client.state (.fabric header)).isOk = true) :
    submitUpdate F C client header = client := by
  unfold submitUpdate updateClient
  cases hres : checkHeaderAndUpdateState F client.state (.fabric header) with
  | ok r => rw [hres] at hok; exact absurd rfl hok
  | err e => rfl
  | panic p => rfl

/-! ## Heights -/

/-- The height `i` steps after `(0, h₀)`. -/
def heightAt (h₀ : UInt64) (i : Nat) : Height := ⟨0, h₀ + UInt64.ofNat i⟩

theorem heightAt_toNat {h₀ : UInt64} {i : Nat} (h : h₀.toNat + i < 2 ^ 64) :
    (heightAt h₀ i).revisionHeight.toNat = h₀.toNat + i := by
  have hi : (UInt64.ofNat i).toNat = i := Wire.toUInt64_toNat (by omega)
  rw [heightAt, UInt64.toNat_add, hi, Nat.mod_eq_of_lt h]

theorem heightAt_inj {h₀ : UInt64} {i j : Nat} (hi : h₀.toNat + i < 2 ^ 64)
    (hj : h₀.toNat + j < 2 ^ 64) (h : heightAt h₀ i = heightAt h₀ j) : i = j := by
  have := congrArg (fun x : Height => x.revisionHeight.toNat) h
  simp only [heightAt_toNat hi, heightAt_toNat hj] at this
  omega

theorem heightAt_succ (h₀ : UInt64) (i : Nat) :
    heightAt h₀ (i + 1) = ⟨0, (heightAt h₀ i).revisionHeight + 1⟩ := by
  simp [heightAt, UInt64.ofNat_add, UInt64.add_assoc]

theorem consensusStatePath_inj {a b : Height}
    (h : host.consensusStatePath a = host.consensusStatePath b) : a = b :=
  height_string_inj (List.append_cancel_left h)

/-- Reading the store after one consensus state was added. -/
theorem getElem?_insert_consensusState (store : ClientStore) (a b : Height) (bz : Bytes) :
    (store.insert (host.consensusStatePath a) bz)[host.consensusStatePath b]? =
      if b = a then some bz else store[host.consensusStatePath b]? := by
  rw [Std.ExtTreeMap.getElem?_insert]
  by_cases hab : b = a
  · subst hab
    simp
  · have hne : compare (host.consensusStatePath a) (host.consensusStatePath b) ≠ .eq := by
      intro hcmp
      exact hab (consensusStatePath_inj (Std.LawfulEqOrd.eq_of_compare hcmp)).symm
    rw [if_neg hne, if_neg hab]

/-! ## The invariant -/

/-- The timestamps `ts` from height `(0, h₀)` on are the history of the client. -/
structure History (C : Codec) (h₀ : UInt64) (ts : List Int64) (client : Client) : Prop where
  bound : h₀.toNat + ts.length ≤ 2 ^ 64
  latest : ∃ n, ts.length = n + 1 ∧ client.state.getLatestHeight = heightAt h₀ n ∧
    ts[n]? = some client.state.getLatestTimestamp
  stored : ∀ i t, ts[i]? = some t →
    getConsensusState C client.store (heightAt h₀ i) = .ok ⟨t⟩
  exact : ∀ height, (client.store[host.consensusStatePath height]?).isSome →
    ∃ i, i < ts.length ∧ height = heightAt h₀ i
  ascending : ts.Pairwise (· < ·)

theorem getConsensusState_congr {C : Codec} {store store' : ClientStore} {height : Height}
    (h : store'[host.consensusStatePath height]? = store[host.consensusStatePath height]?) :
    getConsensusState C store' height = getConsensusState C store height := by
  rw [getConsensusState, h, getConsensusState]

theorem getConsensusState_of_marshal {C : Codec} {store : ClientStore} {height : Height}
    {cons : ConsensusState} {bz : Bytes} (h : store[host.consensusStatePath height]? = some bz)
    (hbz : C.consensusState.marshal (.fabric cons) = .ok bz) :
    getConsensusState C store height = .ok cons := by
  rw [getConsensusState, h]
  simp only [C.consensusState.unmarshal_marshal _ _ hbz]

/-- What is stored stays. -/
def Keeps (client client' : Client) : Prop :=
  ∀ (height : Height) bz, client.store[host.consensusStatePath height]? = some bz →
    client'.store[host.consensusStatePath height]? = some bz

/-- A client just created, with the consensus state of its height and no other. -/
theorem History.created {C : Codec} {h₀ : UInt64} {t₀ : Int64} {client : Client}
    (hheight : client.state.getLatestHeight = ⟨0, h₀⟩)
    (htime : client.state.getLatestTimestamp = t₀)
    (hstored : getConsensusState C client.store ⟨0, h₀⟩ = .ok ⟨t₀⟩)
    (hone : ∀ height, (client.store[host.consensusStatePath height]?).isSome → height = ⟨0, h₀⟩) :
    History C h₀ [t₀] client := by
  have hzero : heightAt h₀ 0 = ⟨0, h₀⟩ := by simp [heightAt]
  have hlt : h₀.toNat < 2 ^ 64 := h₀.toNat_lt
  refine ⟨by rw [List.length_singleton]; omega,
    ⟨0, rfl, by rw [hheight, hzero], by simp [htime]⟩, ?_, ?_, List.pairwise_singleton _ _⟩
  · intro i t hi
    obtain ⟨rfl, rfl⟩ : i = 0 ∧ t₀ = t := by
      cases i <;> simp_all
    rwa [hzero]
  · intro height hsome
    exact ⟨0, by simp, by rw [hzero]; exact hone height hsome⟩

/-- Exactly the heights of the history hold a consensus state. -/
theorem History.isSome_iff {C : Codec} {h₀ : UInt64} {ts : List Int64} {client : Client}
    (hist : History C h₀ ts client) (height : Height) :
    (client.store[host.consensusStatePath height]?).isSome ↔
      ∃ i < ts.length, height = heightAt h₀ i := by
  constructor
  · exact hist.exact height
  · rintro ⟨i, hi, rfl⟩
    have hcons := hist.stored i ts[i] (List.getElem?_eq_getElem hi)
    by_contra hnone
    rw [Option.not_isSome_iff_eq_none] at hnone
    rw [getConsensusState, hnone] at hcons
    exact absurd hcons (by simp)

/-- The stored timestamps ascend with the heights. -/
theorem History.timestamp_lt {C : Codec} {h₀ : UInt64} {ts : List Int64} {client : Client}
    (hist : History C h₀ ts client) {i j : Nat} {ci cj : ConsensusState} (hij : i < j)
    (hj : j < ts.length) (hci : getConsensusState C client.store (heightAt h₀ i) = .ok ci)
    (hcj : getConsensusState C client.store (heightAt h₀ j) = .ok cj) :
    ci.timestamp < cj.timestamp := by
  have hi : i < ts.length := by omega
  rw [hist.stored i ts[i] (List.getElem?_eq_getElem hi), Outcome.ok.injEq] at hci
  rw [hist.stored j ts[j] (List.getElem?_eq_getElem hj), Outcome.ok.injEq] at hcj
  subst hci hcj
  exact List.pairwise_iff_getElem.mp hist.ascending i j hi hj hij

section Step

variable {F : Fabric} {C : Codec} {h₀ : UInt64} {ts : List Int64} {client : Client}
  {header : Header} {ch : ChaincodeHeader}

/-- The height of the next accepted header. -/
theorem History.next_height (hist : History C h₀ ts client) (hacc : ch.Acceptable F client.state) :
    (⟨0, ch.sequence.value⟩ : Height) = heightAt h₀ ts.length := by
  obtain ⟨n, hlen, hheight, -⟩ := hist.latest
  rw [hlen, heightAt_succ, ← hheight, hacc.2.1]

/-- The next height holds no consensus state yet. -/
theorem History.next_free (hist : History C h₀ ts client)
    (hbound : h₀.toNat + ts.length < 2 ^ 64) :
    client.store[host.consensusStatePath (heightAt h₀ ts.length)]? = none := by
  by_contra hne
  obtain ⟨i, hi, heq⟩ := hist.exact _ (Option.isSome_iff_ne_none.mpr hne)
  have := heightAt_inj hbound (by omega) heq
  omega

theorem History.step_keeps (hist : History C h₀ ts client)
    (hbound : h₀.toNat + ts.length < 2 ^ 64) (hch : header.chaincodeHeader = some ch)
    (hok : (checkHeaderAndUpdateState F client.state (.fabric header)).isOk = true) :
    Keeps client (submitUpdate F C client header) := by
  obtain ⟨hacc, bz, -, -, hstore⟩ := updateClient_of_accepted hch hok
  intro height bz' hbz'
  rw [hstore, hist.next_height hacc, getElem?_insert_consensusState, if_neg]
  · exact hbz'
  · rintro rfl
    rw [hist.next_free hbound] at hbz'
    exact absurd hbz' (by simp)

/-- The next timestamp exceeds the last one, which exceeds all others. -/
theorem History.lt_next (hist : History C h₀ ts client) (hacc : ch.Acceptable F client.state) :
    ∀ t ∈ ts, t < ch.sequence.timestamp := by
  intro t ht
  obtain ⟨n, hlen, -, hlatest⟩ := hist.latest
  obtain ⟨hn, hlast⟩ := List.getElem?_eq_some_iff.mp hlatest
  obtain ⟨i, hi, rfl⟩ := List.mem_iff_getElem.mp ht
  rcases Nat.lt_or_ge i n with hin | hin
  · refine Int64.lt_trans (List.pairwise_iff_getElem.mp hist.ascending i n hi hn hin) ?_
    rw [hlast]
    exact hacc.1
  · obtain rfl : i = n := by omega
    rw [hlast]
    exact hacc.1

/-- **One accepted header extends the history by one height.** -/
theorem History.step (hist : History C h₀ ts client) (hbound : h₀.toNat + ts.length < 2 ^ 64)
    (hch : header.chaincodeHeader = some ch)
    (hok : (checkHeaderAndUpdateState F client.state (.fabric header)).isOk = true) :
    History C h₀ (ts ++ [ch.sequence.timestamp]) (submitUpdate F C client header) := by
  obtain ⟨hacc, bz, hbz, hlast, hstore⟩ := updateClient_of_accepted (C := C) hch hok
  have hnext := hist.next_height hacc
  rw [hnext] at hstore
  -- the store changes at the next height only
  have hread : ∀ height, (submitUpdate F C client header).store[host.consensusStatePath height]? =
      if height = heightAt h₀ ts.length then some bz
      else client.store[host.consensusStatePath height]? := by
    intro height
    rw [hstore, getElem?_insert_consensusState]
  refine ⟨by simp; omega, ⟨ts.length, by simp, ?_, ?_⟩, ?_, ?_, ?_⟩
  · rw [ClientState.getLatestHeight, hlast, hnext]
  · rw [ClientState.getLatestTimestamp, hlast]
    simp
  · intro i t hi
    -- an old height, the new one, or none
    rcases Nat.lt_trichotomy i ts.length with hlt | rfl | hgt
    · rw [List.getElem?_append_left hlt] at hi
      rw [← hist.stored i t hi]
      refine getConsensusState_congr ?_
      rw [hread, if_neg]
      intro heq
      have := heightAt_inj (by omega) hbound heq
      omega
    · have ht : t = ch.sequence.timestamp := by simpa using hi.symm
      subst ht
      refine getConsensusState_of_marshal ?_ hbz
      rw [hread, if_pos rfl]
    · rw [List.getElem?_eq_none (by simp; omega)] at hi
      exact absurd hi (by simp)
  · intro height hsome
    rw [hread] at hsome
    by_cases heq : height = heightAt h₀ ts.length
    · exact ⟨ts.length, by simp, heq⟩
    · rw [if_neg heq] at hsome
      obtain ⟨i, hi, heq⟩ := hist.exact height hsome
      exact ⟨i, by simp; omega, heq⟩
  · rw [List.pairwise_append]
    refine ⟨hist.ascending, List.pairwise_singleton _ _, ?_⟩
    intro t ht t' ht'
    rw [List.mem_singleton.mp ht']
    exact hist.lt_next hacc t ht

end Step

/-! ## Whole runs -/

/-- The timestamp a header brings. -/
def Header.timestamp (h : Header) : Int64 :=
  match h.chaincodeHeader with
  | none => 0
  | some ch => ch.sequence.timestamp

theorem runClient_history {F : Fabric} {C : Codec} {h₀ : UInt64} {headers : List Header}
    (hcarry : ∀ h ∈ headers, h.chaincodeHeader.isSome) {ts : List Int64} {client : Client}
    (hist : History C h₀ ts client)
    (hbound : h₀.toNat + ts.length + (acceptedHeaders F C client headers).length ≤ 2 ^ 64) :
    History C h₀ (ts ++ (acceptedHeaders F C client headers).map Header.timestamp)
      (runClient F C client headers) ∧
    Keeps client (runClient F C client headers) := by
  -- the history grows with the accepted headers only, so it is generalised
  induction headers generalizing ts client with
  | nil => simpa [acceptedHeaders, runClient] using ⟨hist, fun _ _ h => h⟩
  | cons header headers ih =>
    obtain ⟨ch, hch⟩ := Option.isSome_iff_exists.mp (hcarry header List.mem_cons_self)
    have hcarry' : ∀ h ∈ headers, h.chaincodeHeader.isSome :=
      fun h hm => hcarry h (List.mem_cons_of_mem _ hm)
    rw [runClient_cons]
    rw [acceptedHeaders] at hbound ⊢
    by_cases hok : (checkHeaderAndUpdateState F client.state (.fabric header)).isOk = true
    · rw [if_pos hok] at hbound ⊢
      rw [List.length_cons] at hbound
      have htime : header.timestamp = ch.sequence.timestamp := by rw [Header.timestamp, hch]
      obtain ⟨hist', hkeeps⟩ := ih hcarry' (hist.step (by omega) hch hok)
        (by rw [List.length_append, List.length_singleton]; omega)
      refine ⟨?_, fun height bz h => hkeeps height bz
        (hist.step_keeps (by omega) hch hok height bz h)⟩
      simpa [htime] using hist'
    · rw [if_neg hok] at hbound ⊢
      rw [submitUpdate_of_rejected hok] at hbound ⊢
      exact ih hcarry' hist hbound

theorem acceptedHeaders_append (F : Fabric) (C : Codec) (client : Client) (pre post : List Header) :
    acceptedHeaders F C client (pre ++ post) =
      acceptedHeaders F C client pre ++ acceptedHeaders F C (runClient F C client pre) post := by
  induction pre generalizing client with
  | nil => rfl
  | cons header pre ih =>
    rw [List.cons_append, acceptedHeaders, acceptedHeaders, ih, runClient_cons]
    split <;> rfl

/-- The `i`-th accepted header carries the sequence `i + 1` heights after the
start, covered by the endorsement it was accepted with. -/
theorem acceptedHeaders_sequence {F : Fabric} {C : Codec} {headers : List Header}
    (hcarry : ∀ h ∈ headers, h.chaincodeHeader.isSome) {client : Client} {i : Nat} {h : Header}
    (hi : (acceptedHeaders F C client headers)[i]? = some h) :
    ∃ pre post ch w, headers = pre ++ h :: post ∧ h.chaincodeHeader = some ch ∧
      ch.sequence.value =
        client.state.getLatestHeight.revisionHeight + UInt64.ofNat (i + 1) ∧
      (runClient F C client pre).state.Endorsed F ch.proof w ∧
      w.key = makeSequenceCommitmentEntryKey ch.sequence.value ∧
      w.value = ch.sequence.bytes := by
  induction headers generalizing client i with
  | nil => simp [acceptedHeaders] at hi
  | cons header headers ih =>
    obtain ⟨ch, hch⟩ := Option.isSome_iff_exists.mp (hcarry header List.mem_cons_self)
    have hcarry' : ∀ h ∈ headers, h.chaincodeHeader.isSome :=
      fun h hm => hcarry h (List.mem_cons_of_mem _ hm)
    rw [acceptedHeaders] at hi
    by_cases hok : (checkHeaderAndUpdateState F client.state (.fabric header)).isOk = true
    · rw [if_pos hok] at hi
      obtain ⟨⟨-, hvalue, w, hw, hkey, hval⟩, bz, -, hlast, -⟩ :=
        updateClient_of_accepted (C := C) hch hok
      cases i with
      | zero =>
        have heq : header = h := by simpa using hi
        subst heq
        exact ⟨[], headers, ch, w, rfl, hch, hvalue, hw, hkey, hval⟩
      | succ i =>
        rw [List.getElem?_cons_succ] at hi
        obtain ⟨pre, post, ch', w', rfl, hch', hvalue', hrest⟩ := ih hcarry' hi
        refine ⟨header :: pre, post, ch', w', rfl, hch', ?_, hrest⟩
        -- the rest of the run starts one height later
        rw [hvalue', ClientState.getLatestHeight, hlast, hvalue, UInt64.ofNat_add (i + 1) 1,
          UInt64.add_assoc, UInt64.add_comm 1]
        rfl
    · rw [if_neg hok, submitUpdate_of_rejected hok] at hi
      obtain ⟨pre, post, ch', w', rfl, hch', hvalue', hw', hrest⟩ := ih hcarry' hi
      refine ⟨header :: pre, post, ch', w', rfl, hch', hvalue', ?_, hrest⟩
      rw [runClient_cons, submitUpdate_of_rejected hok]
      exact hw'

/-- **The history of a light client.** A client is created at `(0, h₀)` with one
consensus state of the same timestamp. After any run of headers that carry a
sequence, `k` of them accepted and the heights not exhausted: the latest height
is `(0, h₀ + k)`; exactly the heights from `(0, h₀)` on to it hold a consensus
state, and none was ever overwritten; the consensus state of an accepted header
has the timestamp of its sequence, the one its endorsement covers; the
timestamps ascend with the heights, up to that of the client state. -/
theorem client_history {F : Fabric} {C : Codec} {h₀ : UInt64} {t₀ : Int64} {client : Client}
    {headers : List Header} (hheight : client.state.getLatestHeight = ⟨0, h₀⟩)
    (htime : client.state.getLatestTimestamp = t₀)
    (hstored : getConsensusState C client.store ⟨0, h₀⟩ = .ok ⟨t₀⟩)
    (hone : ∀ height, (client.store[host.consensusStatePath height]?).isSome → height = ⟨0, h₀⟩)
    (hcarry : ∀ h ∈ headers, h.chaincodeHeader.isSome)
    (hbound : h₀.toNat + (acceptedHeaders F C client headers).length < 2 ^ 64) :
    (runClient F C client headers).state.getLatestHeight =
      heightAt h₀ (acceptedHeaders F C client headers).length ∧
    (∀ height, ((runClient F C client headers).store[host.consensusStatePath height]?).isSome ↔
      ∃ i ≤ (acceptedHeaders F C client headers).length, height = heightAt h₀ i) ∧
    (∀ pre post, headers = pre ++ post →
      Keeps (runClient F C client pre) (runClient F C client headers)) ∧
    (∀ i h, (acceptedHeaders F C client headers)[i]? = some h →
      ∃ pre post ch w, headers = pre ++ h :: post ∧ h.chaincodeHeader = some ch ∧
        ⟨0, ch.sequence.value⟩ = heightAt h₀ (i + 1) ∧
        getConsensusState C (runClient F C client headers).store (heightAt h₀ (i + 1)) =
          .ok ⟨ch.sequence.timestamp⟩ ∧
        (runClient F C client pre).state.Endorsed F ch.proof w ∧
        w.key = makeSequenceCommitmentEntryKey ch.sequence.value ∧
        w.value = ch.sequence.bytes ∧ ∀ seq : Sequence, seq.bytes = w.value → seq = ch.sequence) ∧
    (∀ i j ci cj, i < j → j ≤ (acceptedHeaders F C client headers).length →
      getConsensusState C (runClient F C client headers).store (heightAt h₀ i) = .ok ci →
      getConsensusState C (runClient F C client headers).store (heightAt h₀ j) = .ok cj →
      ci.timestamp < cj.timestamp) ∧
    getConsensusState C (runClient F C client headers).store
        (runClient F C client headers).state.getLatestHeight =
      .ok ⟨(runClient F C client headers).state.getLatestTimestamp⟩ := by
  have hinit : History C h₀ [t₀] client := History.created hheight htime hstored hone
  obtain ⟨hist, -⟩ := runClient_history (F := F) hcarry hinit (by simp; omega)
  set acc := acceptedHeaders F C client headers with hacc
  have hlen : ([t₀] ++ acc.map Header.timestamp).length = acc.length + 1 := by simp
  obtain ⟨n, hn, hlatest, hlast⟩ := hist.latest
  have hnk : n = acc.length := by omega
  subst hnk
  refine ⟨hlatest, ?_, ?_, ?_, ?_, ?_⟩
  · intro height
    rw [hist.isSome_iff, hlen]
    simp only [Nat.lt_succ_iff]
  · -- what was stored after `pre` is kept by the rest of the run
    rintro pre post rfl
    have hsplit := acceptedHeaders_append F C client pre post
    rw [← hacc] at hsplit
    rw [hsplit, List.length_append] at hbound
    obtain ⟨hist', -⟩ := runClient_history (F := F)
      (fun h hm => hcarry h (List.mem_append_left _ hm)) hinit (by simp; omega)
    have hkeeps := (runClient_history (F := F)
      (fun h hm => hcarry h (List.mem_append_right _ hm)) hist' (by simp; omega)).2
    have hrun : runClient F C client (pre ++ post) =
        runClient F C (runClient F C client pre) post := Run.run_append _ _ _ _
    rwa [hrun]
  · intro i h hi
    obtain ⟨pre, post, ch, w, hsplit, hch, hvalue, hw, hkey, hval⟩ :=
      acceptedHeaders_sequence hcarry hi
    rw [hheight] at hvalue
    refine ⟨pre, post, ch, w, hsplit, hch, by rw [hvalue]; rfl, ?_, hw, hkey, hval, ?_⟩
    · refine hist.stored (i + 1) _ ?_
      rw [List.singleton_append, List.getElem?_cons_succ, List.getElem?_map, hi, Option.map_some,
        Header.timestamp, hch]
    · intro seq hseq
      exact Sequence.bytes_injective (hseq.trans hval)
  · intro i j ci cj hij hj hci hcj
    exact hist.timestamp_lt hij (by omega) hci hcj
  · rw [hlatest]
    exact hist.stored _ _ hlast

/-- The client is created with one consensus state. -/
theorem Symbolic.height_of_createdClient (height : Height)
    (h : (createdClient.store[host.consensusStatePath height]?).isSome) : height = ⟨0, 1⟩ := by
  rw [createdClient, getElem?_insert_consensusState] at h
  by_contra hne
  rw [if_neg hne] at h
  simp at h

open Symbolic in
/-- Three headers, of which the second repeats the first and is rejected. -/
theorem client_history_three_headers :
    (runClient fabric codec createdClient [⟨some (sequenceHeader ⟨2, 110⟩), none, none⟩,
        ⟨some (sequenceHeader ⟨2, 110⟩), none, none⟩,
        ⟨some (sequenceHeader ⟨3, 120⟩), none, none⟩]).state.getLatestHeight = heightAt 1 2 := by
  have hcarry : ∀ h ∈ [(⟨some (sequenceHeader ⟨2, 110⟩), none, none⟩ : Header),
      ⟨some (sequenceHeader ⟨2, 110⟩), none, none⟩, ⟨some (sequenceHeader ⟨3, 120⟩), none, none⟩],
      h.chaincodeHeader.isSome := by decide +kernel
  have hlen : (acceptedHeaders fabric codec createdClient
      [⟨some (sequenceHeader ⟨2, 110⟩), none, none⟩,
        ⟨some (sequenceHeader ⟨2, 110⟩), none, none⟩,
        ⟨some (sequenceHeader ⟨3, 120⟩), none, none⟩]).length = 2 := by decide +kernel
  have hheight : createdClient.state.getLatestHeight = ⟨0, 1⟩ := rfl
  have hist := client_history (F := fabric) (C := codec) hheight rfl (by decide +kernel)
    height_of_createdClient hcarry
    (by rw [hlen]; decide)
  rw [hlen] at hist
  exact hist.1

end FabricIBC
