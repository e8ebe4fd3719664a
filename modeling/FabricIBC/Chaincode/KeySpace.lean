import FabricIBC.Lib.Run
import FabricIBC.Commitment.Keys
import FabricIBC.Chaincode.Effects

/-!
# Fabric-IBC — chaincode: the key space

Everything the chaincode stores lies in one flat key space: commitment entries
and sequence records behind a prefix of the caller's choice, packets and
acknowledgements, and the data of the application under hex strings.

`StateKey` is a key together with what it was made from. A prefix may contain
slashes, so a key cannot be read from the left; it is read from the right
(`append_path_inj`). The family of a key can be told from its scheme and from
words at fixed places of its tail, whatever stands before them
(`readFamily_segments`), and within a family all tails have the same number of
segments.

* `stateKey_injective` — keys of the chaincode never collide;
* `invoke_stateKey`, `reachable_stateKey` — there are no other keys: whatever a
  call writes, and so whatever a reachable world state holds, is under one of
  these. Hex dumps are written through the database only.
-/

namespace FabricIBC

open Go

/-- A key of the world state, with its prefix and its arguments. -/
inductive StateKey
  | clientState (pfx clientID : Bytes)
  | consensusState (pfx clientID : Bytes) (height : Height)
  | sequence (seq : UInt64)
  | connection (pfx connectionID : Bytes)
  | channel (pfx portID channelID : Bytes)
  | packetCommitment (pfx portID channelID : Bytes) (sequence : UInt64)
  | packetAcknowledgement (pfx portID channelID : Bytes) (sequence : UInt64)
  | packetReceiptAbsence (pfx portID channelID : Bytes) (sequence : UInt64)
  | nextSequenceRecv (pfx portID channelID : Bytes)
  | currentSequence (pfx : Bytes)
  | sequenceRecord (pfx : Bytes) (seq : UInt64)
  | packet (portID channelID : Bytes) (sequence : UInt64)
  | acknowledgement (portID channelID : Bytes) (sequence : UInt64)
  | database (key : Bytes)
  deriving DecidableEq, Repr

namespace StateKey

/-- The key, by the function of the source that makes it. -/
def bytes : StateKey → Bytes
  | clientState pfx clientID => makeClientStateCommitmentEntryKey pfx clientID
  | consensusState pfx clientID height => makeConsensusStateCommitmentEntryKey pfx clientID height
  | sequence seq => makeSequenceCommitmentEntryKey seq
  | connection pfx connectionID => makeConnectionStateCommitmentEntryKey pfx connectionID
  | channel pfx portID channelID => makeChannelStateCommitmentEntryKey pfx portID channelID
  | packetCommitment pfx portID channelID seq =>
    makePacketCommitmentEntryKey pfx portID channelID seq
  | packetAcknowledgement pfx portID channelID seq =>
    makePacketAcknowledgementEntryKey pfx portID channelID seq
  | packetReceiptAbsence pfx portID channelID seq =>
    makePacketReceiptAbsenceEntryKey pfx portID channelID seq
  | nextSequenceRecv pfx portID channelID => makeNextSequenceRecvEntryKey pfx portID channelID
  | currentSequence pfx => makeCurrentSequenceKey pfx
  | sequenceRecord pfx seq => makeSequenceKey pfx seq
  | packet portID channelID seq => makePacketKey packetEventKeyPrefix portID channelID seq
  | acknowledgement portID channelID seq =>
    makePacketAcknowledgementKey packetAcknowledgementEventKeyPrefix portID channelID seq
  -- `DB.Get`, `Set` and `Delete` all use the hex dump of the key
  | database key => hexEncode key

/-- No identifier contains a slash; prefixes and database keys may. -/
def SlashFree : StateKey → Prop
  | clientState _ a | consensusState _ a _ | connection _ a => slash ∉ a
  | channel _ p c | packetCommitment _ p c _ | packetAcknowledgement _ p c _
  | packetReceiptAbsence _ p c _ | nextSequenceRecv _ p c | packet p c _
  | acknowledgement p c _ => slash ∉ p ∧ slash ∉ c
  | sequence _ | currentSequence _ | sequenceRecord .. | database _ => True

/-! ## Keys as paths -/

def scheme : StateKey → Bytes
  | sequence _ => str "h/_"
  | clientState .. | consensusState .. | connection .. | channel .. | currentSequence _
  | sequenceRecord .. => str "h/k:"
  | packetCommitment .. | packetAcknowledgement .. | packetReceiptAbsence ..
  | nextSequenceRecv .. => str "e/k:"
  | packet .. => packetEventKeyPrefix
  | acknowledgement .. => packetAcknowledgementEventKeyPrefix
  | database _ => []

/-- The prefix, in the families that have one. -/
def pfx : StateKey → Bytes
  | clientState pfx _ | consensusState pfx _ _ | connection pfx _ | channel pfx _ _
  | packetCommitment pfx _ _ _ | packetAcknowledgement pfx _ _ _ | packetReceiptAbsence pfx _ _ _
  | nextSequenceRecv pfx _ _ | currentSequence pfx | sequenceRecord pfx _ => pfx
  | sequence _ | packet .. | acknowledgement .. | database _ => []

/-- `ports/{port}/channels/{channel}`, from the right. -/
def portChannelSegments (portID channelID : Bytes) : List Bytes :=
  [channelID, str "channels", portID, str "ports"]

/-- What follows the prefix, from the right. -/
def segments : StateKey → List Bytes
  | clientState _ a => [str "clientState", a, str "clients"]
  | consensusState _ a h => [str "commitment", h.string, str "consensusStates", a, str "clients"]
  | sequence n => [str "commitment", dec n.toNat, str "seq"]
  | connection _ a => [str "commitment", a, str "connections"]
  | channel _ p c => str "commitment" :: portChannelSegments p c ++ [str "channelEnds"]
  | packetCommitment _ p c n =>
    dec n.toNat :: str "sequences" :: portChannelSegments p c ++ [str "commitments"]
  | packetAcknowledgement _ p c n =>
    dec n.toNat :: str "sequences" :: portChannelSegments p c ++ [str "acks"]
  | packetReceiptAbsence _ p c n =>
    dec n.toNat :: str "sequences" :: portChannelSegments p c ++ [str "receipts"]
  | nextSequenceRecv _ p c => portChannelSegments p c ++ [str "nextSequenceRecv"]
  | currentSequence _ => [str "current"]
  | sequenceRecord _ n => [dec n.toNat, str "seq"]
  | packet p c n | acknowledgement p c n => [dec n.toNat, c, p]
  | database _ => []

/-- Every key but those of the database is a scheme, a prefix and a path. -/
theorem bytes_eq {k : StateKey} (hk : ∀ key, k ≠ database key) :
    k.bytes = k.scheme ++ (k.pfx ++ path k.segments) := by
  have hslash : ∀ s : Bytes, slash :: s = str "/" ++ s := fun _ => rfl
  -- the fixed texts of the formats, cut at their slashes
  have hclients : str "/clients/" = str "/" ++ (str "clients" ++ str "/") := by decide +kernel
  have hclientState : str "/clientState" = str "/" ++ str "clientState" := by decide +kernel
  have hcommitment : str "/commitment" = str "/" ++ str "commitment" := by decide +kernel
  have hconsensus : str "consensusStates/" = str "consensusStates" ++ str "/" := by decide +kernel
  have hconnections : str "connections/" = str "connections" ++ str "/" := by decide +kernel
  have hchannelEnds : str "channelEnds/" = str "channelEnds" ++ str "/" := by decide +kernel
  have hports : str "ports/" = str "ports" ++ str "/" := by decide +kernel
  have hchannels : str "/channels/" = str "/" ++ (str "channels" ++ str "/") := by decide +kernel
  have hsequences : str "/sequences/" = str "/" ++ (str "sequences" ++ str "/") := by decide +kernel
  have hcommitments : str "commitments/" = str "commitments" ++ str "/" := by decide +kernel
  have hacks : str "acks/" = str "acks" ++ str "/" := by decide +kernel
  have hreceipts : str "receipts/" = str "receipts" ++ str "/" := by decide +kernel
  have hnext : str "nextSequenceRecv/" = str "nextSequenceRecv" ++ str "/" := by decide +kernel
  have hcurrent : str "/current" = str "/" ++ str "current" := by decide +kernel
  have hseq : str "/seq/" = str "/" ++ (str "seq" ++ str "/") := by decide +kernel
  have hsequence : str "h/_/seq/" = str "h/_" ++ (str "/" ++ (str "seq" ++ str "/")) := by
    decide +kernel
  cases k with
  | database key => exact absurd rfl (hk key)
  | _ =>
    simp only [bytes, makeClientStateCommitmentEntryKey, makeConsensusStateCommitmentEntryKey,
      makeSequenceCommitmentEntryKey, makeConnectionStateCommitmentEntryKey,
      makeChannelStateCommitmentEntryKey, makePacketCommitmentEntryKey,
      makePacketAcknowledgementEntryKey, makePacketReceiptAbsenceEntryKey,
      makeNextSequenceRecvEntryKey, makeEntryKey, makeCurrentSequenceKey, makeSequenceKey,
      makePacketKey, makePacketAcknowledgementKey, eventKey, host.consensusStatePath,
      host.connectionPath, host.channelPath, host.packetCommitmentPath,
      host.packetAcknowledgementPath, host.packetReceiptPath, host.nextSequenceRecvPath,
      host.packetTail, host.portChannel, scheme, pfx, segments, portChannelSegments, path, hslash, hclients, hclientState, hcommitment, hconsensus,
      hconnections, hchannelEnds, hports, hchannels, hsequences, hcommitments, hacks, hreceipts,
      hnext, hcurrent, hseq, hsequence, List.cons_append, List.nil_append, List.append_assoc]

theorem slash_notMem_segments {k : StateKey} (hk : k.SlashFree) :
    ∀ s ∈ k.segments, slash ∉ s := by
  have hwords : ∀ w ∈ [str "clientState", str "clients", str "commitment", str "consensusStates",
      str "seq", str "connections", str "channelEnds", str "ports", str "channels",
      str "commitments", str "sequences", str "acks", str "receipts", str "nextSequenceRecv",
      str "current"],
      slash ∉ w := by decide +kernel
  simp only [List.forall_mem_cons] at hwords
  cases k <;> simp only [SlashFree] at hk <;>
    simp [segments, portChannelSegments, hk, hwords, slash_notMem_dec, slash_notMem_height_string]

/-! ## Families -/

/-- The families of keys that are paths. -/
inductive Family
  | clientState
  | consensusState
  | sequence
  | connection
  | channel
  | packetCommitment
  | packetAcknowledgement
  | packetReceiptAbsence
  | nextSequenceRecv
  | currentSequence
  | sequenceRecord
  | packet
  | acknowledgement
  deriving DecidableEq, Repr

/-- The family of a path, told from its scheme and from words at fixed places
from the right. -/
def readFamily (scheme : Bytes) (segs : List Bytes) : Family :=
  if scheme = str "h/_" then .sequence
  else if scheme = packetEventKeyPrefix then .packet
  else if scheme = packetAcknowledgementEventKeyPrefix then .acknowledgement
  else if scheme = str "e/k:" then
    -- a channel at the end, or a sequence of one
    if segs[1]? = some (str "channels") then .nextSequenceRecv
    else if segs[6]? = some (str "commitments") then .packetCommitment
    else if segs[6]? = some (str "acks") then .packetAcknowledgement
    else .packetReceiptAbsence
  else if segs[0]? = some (str "current") then .currentSequence
  else if segs[0]? = some (str "clientState") then .clientState
  else if segs[0]? = some (str "commitment") then
    -- the segment before it is an identifier or a height
    if segs[2]? = some (str "consensusStates") then .consensusState
    else if segs[2]? = some (str "connections") then .connection
    else .channel
  -- a number at the end
  else .sequenceRecord

def family : (k : StateKey) → Option Family
  | clientState .. => some .clientState
  | consensusState .. => some .consensusState
  | sequence _ => some .sequence
  | connection .. => some .connection
  | channel .. => some .channel
  | packetCommitment .. => some .packetCommitment
  | packetAcknowledgement .. => some .packetAcknowledgement
  | packetReceiptAbsence .. => some .packetReceiptAbsence
  | nextSequenceRecv .. => some .nextSequenceRecv
  | currentSequence _ => some .currentSequence
  | sequenceRecord .. => some .sequenceRecord
  | packet .. => some .packet
  | acknowledgement .. => some .acknowledgement
  | database _ => none

/-- A number is no word that ends in a letter. -/
theorem dec_ne_word {n : Nat} {w : Bytes} {c : UInt8} (hc : c.toNat < 48 ∨ 57 < c.toNat) :
    dec n ≠ w ++ [c] := by
  have h : [] ++ dec n ≠ w ++ [c] := append_dec_ne hc
  rwa [List.nil_append] at h

/-- The family shows, however the path goes on to the left. -/
theorem readFamily_segments {k : StateKey} (hk : ∀ key, k ≠ database key) (m : List Bytes) :
    k.family = some (readFamily k.scheme (k.segments ++ m)) := by
  cases k with
  | database key => exact absurd rfl (hk key)
  | sequenceRecord pfx n =>
    -- the number at the end is none of the words
    have hcurrent : dec n.toNat ≠ str "current" :=
      dec_ne_word (w := str "curren") (c := 116) (Or.inr (by decide))
    have hclientState : dec n.toNat ≠ str "clientState" :=
      dec_ne_word (w := str "clientStat") (c := 101) (Or.inr (by decide))
    have hcommitment : dec n.toNat ≠ str "commitment" :=
      dec_ne_word (w := str "commitmen") (c := 116) (Or.inr (by decide))
    have hlast : ((sequenceRecord pfx n).segments ++ m)[0]? = some (dec n.toNat) := rfl
    show some Family.sequenceRecord = some (readFamily (str "h/k:") _)
    unfold readFamily
    rw [hlast, if_neg (by decide), if_neg (by decide), if_neg (by decide), if_neg (by decide)]
    simp [hcurrent, hclientState, hcommitment]
  | _ => rfl

/-! ## Injectivity -/

theorem scheme_mem {k : StateKey} (hk : ∀ key, k ≠ database key) :
    k.scheme ∈ [str "h/_", str "h/k:", str "e/k:", packetEventKeyPrefix,
      packetAcknowledgementEventKeyPrefix] := by
  cases k with
  | database key => exact absurd rfl (hk key)
  | _ => simp only [scheme, List.mem_cons, true_or, or_true]

/-- The number of segments in the tails of a family. -/
def Family.depth : Family → Nat
  | .currentSequence => 1
  | .sequenceRecord => 2
  | .clientState | .sequence | .connection | .packet | .acknowledgement => 3
  | .consensusState | .nextSequenceRecv => 5
  | .channel => 6
  | .packetCommitment | .packetAcknowledgement | .packetReceiptAbsence => 7

theorem length_segments {k : StateKey} {f : Family} (h : k.family = some f) :
    k.segments.length = f.depth := by
  cases k <;> cases h <;> rfl

theorem dec_uint64_inj {m n : UInt64} : dec m.toNat = dec n.toNat ↔ m = n :=
  ⟨uint64_of_dec, fun h => h ▸ rfl⟩

theorem height_string_inj_iff {h k : Height} : h.string = k.string ↔ h = k :=
  ⟨height_string_inj, fun h => h ▸ rfl⟩

/-- The family, the prefix and the tail determine a key. -/
theorem ext_segments {k k' : StateKey} {f : Family} (hk : k.family = some f)
    (hk' : k'.family = some f) (hpfx : k.pfx = k'.pfx) (hsegs : k.segments = k'.segments) :
    k = k' := by
  cases k <;> cases hk <;> cases k' <;>
    simp only [family, reduceCtorEq, Option.some.injEq] at hk' <;>
    simp only [pfx, segments, portChannelSegments, List.cons_append, List.nil_append,
      List.cons.injEq, dec_uint64_inj, height_string_inj_iff, and_true, true_and] at hpfx hsegs <;>
    simp [hpfx, hsegs]

/-- A key whose tail continues that of another one is the same key. -/
theorem eq_of_segments_eq_append {k k' : StateKey} (hk : ∀ key, k ≠ database key)
    (hk' : ∀ key, k' ≠ database key) (hscheme : k.scheme = k'.scheme) {m : List Bytes}
    (hsegs : k'.segments = k.segments ++ m) (hpfx : k.pfx = k'.pfx ++ path m) : k = k' := by
  have hfamily : k.family = some (readFamily k.scheme (k.segments ++ m)) := readFamily_segments hk m
  have hfamily' : k'.family = some (readFamily k.scheme (k.segments ++ m)) := by
    rw [readFamily_segments hk' [], List.append_nil, hsegs, hscheme]
  -- one family, one length: nothing continues
  have hlen : k'.segments.length = k.segments.length := by
    rw [length_segments hfamily, length_segments hfamily']
  rw [hsegs, List.length_append] at hlen
  have hm : m = [] := List.length_eq_zero_iff.mp (by omega)
  subst hm
  rw [List.append_nil] at hsegs
  refine ext_segments hfamily hfamily' ?_ hsegs.symm
  rw [hpfx, path, List.append_nil]

/-- Paths with the same bytes are the same key. -/
theorem eq_of_bytes_eq {k k' : StateKey} (hk : ∀ key, k ≠ database key)
    (hk' : ∀ key, k' ≠ database key) (hfree : k.SlashFree) (hfree' : k'.SlashFree)
    (h : k.bytes = k'.bytes) : k = k' := by
  rw [bytes_eq hk, bytes_eq hk'] at h
  obtain ⟨hscheme, htail⟩ :=
    PrefixFree.append_inj (by decide +kernel) (scheme_mem hk) (scheme_mem hk') h
  obtain ⟨m, ⟨hsegs, hpfx⟩ | ⟨hsegs, hpfx⟩⟩ := append_path_inj (slash_notMem_segments hfree)
    (slash_notMem_segments hfree') htail
  · exact eq_of_segments_eq_append hk hk' hscheme hsegs hpfx
  · exact (eq_of_segments_eq_append hk' hk hscheme.symm hsegs hpfx).symm

/-- Every path contains a slash, a hex dump does not. -/
theorem slash_mem_bytes {k : StateKey} (hk : ∀ key, k ≠ database key) : slash ∈ k.bytes := by
  have hscheme : ∀ s ∈ [str "h/_", str "h/k:", str "e/k:", packetEventKeyPrefix,
      packetAcknowledgementEventKeyPrefix], slash ∈ s := by decide
  rw [bytes_eq hk]
  exact List.mem_append_left _ (hscheme k.scheme (scheme_mem hk))

end StateKey

/-- **World-state keys never collide**: the family, the prefix and the arguments
can be told from the bytes. -/
theorem stateKey_injective (k k' : StateKey) (hfree : k.SlashFree) (hfree' : k'.SlashFree) :
    k.bytes = k'.bytes ↔ k = k' := by
  refine ⟨fun h => ?_, fun h => h ▸ rfl⟩
  by_cases hk : ∃ key, k = .database key
  · obtain ⟨key, rfl⟩ := hk
    by_cases hk' : ∃ key', k' = .database key'
    · obtain ⟨key', rfl⟩ := hk'
      rw [hexEncode_injective h]
    · have hmem := StateKey.slash_mem_bytes (not_exists.mp hk')
      rw [← h] at hmem
      exact absurd hmem (slash_notMem_hexEncode key)
  · by_cases hk' : ∃ key', k' = .database key'
    · obtain ⟨key', rfl⟩ := hk'
      have hmem := StateKey.slash_mem_bytes (not_exists.mp hk)
      rw [h] at hmem
      exact absurd hmem (slash_notMem_hexEncode key')
    · exact StateKey.eq_of_bytes_eq (not_exists.mp hk) (not_exists.mp hk') hfree hfree' h

/-- A connection whose prefix and identifier imitate a consensus state. -/
theorem stateKey_injective_imitation :
    (StateKey.consensusState (str "ibc") (str "client") ⟨0, 7⟩).SlashFree ∧
    (StateKey.connection (str "ibc/clients/client/consensusStates") (str "0-7")).SlashFree ∧
    (StateKey.consensusState (str "ibc") (str "client") ⟨0, 7⟩).bytes ≠
      (StateKey.connection (str "ibc/clients/client/consensusStates") (str "0-7")).bytes := by
  have hfree : (StateKey.consensusState (str "ibc") (str "client") ⟨0, 7⟩).SlashFree :=
    (by decide : slash ∉ str "client")
  have hfree' : (StateKey.connection (str "ibc/clients/client/consensusStates")
      (str "0-7")).SlashFree := (by decide : slash ∉ str "0-7")
  refine ⟨hfree, hfree', ?_⟩
  exact fun h => nomatch (stateKey_injective _ _ hfree hfree').mp h

/-! ## What the chaincode writes -/

/-- The key of a commitment entry. -/
def EntryID.stateKey (pfx : Bytes) : EntryID → StateKey
  | clientState a => .clientState pfx a
  | consensusState a h => .consensusState pfx a h
  | sequence n => .sequence n
  | connection a => .connection pfx a
  | channel p c => .channel pfx p c
  | packetCommitment p c n => .packetCommitment pfx p c n
  | packetAcknowledgement p c n => .packetAcknowledgement pfx p c n
  | packetReceiptAbsence p c n => .packetReceiptAbsence pfx p c n
  | nextSequenceRecv p c => .nextSequenceRecv pfx p c

theorem EntryID.bytes_stateKey (pfx : Bytes) (a : EntryID) :
    (a.stateKey pfx).bytes = a.key pfx := by
  cases a <;> rfl

/-- A key the code can come to write: the database refuses the empty key. -/
def WrittenKey (x : Bytes) : Prop := ∃ k : StateKey, k ≠ .database [] ∧ x = k.bytes

theorem writtenKey_entry (pfx : Bytes) (a : EntryID) : WrittenKey (a.key pfx) :=
  ⟨a.stateKey pfx, by cases a <;> exact nofun, (a.bytes_stateKey pfx).symm⟩

theorem writtenKey_of_mem_flush {commands : List compat.Command} {writes : List Write}
    (h : compat.flush commands = .ok writes) {w : Write} (hw : w ∈ writes) : WrittenKey w.key := by
  obtain ⟨key, hne, hkey⟩ := key_of_mem_flush h hw
  exact ⟨.database key, fun heq => hne (StateKey.database.inj heq), hkey⟩

theorem writtenKey_of_mem_putSequence {m : SequenceManager} {seq : Sequence} {w : Write}
    (hw : w ∈ m.putSequence seq) : WrittenKey w.key := by
  rw [SequenceManager.putSequence, List.mem_pair] at hw
  obtain rfl | rfl := hw
  · exact ⟨.currentSequence m.pfx, nofun, rfl⟩
  · exact ⟨.sequenceRecord m.pfx seq.value, nofun, rfl⟩

theorem writtenKey_of_mem_events {P : PacketCodec} {events : List Event} {writes : List Write}
    (h : multiEventHandle (defaultMultiEventHandler P) events = .ok writes) {w : Write}
    (hw : w ∈ writes) : WrittenKey w.key := by
  obtain ⟨packets, acks, hpackets, hacks, rfl⟩ := multiEventHandle_default_eq_ok_iff.mp h
  rcases List.mem_append.mp hw with hw | hw
  · obtain ⟨p, c, n, hkey⟩ := key_of_mem_handlePacketEvent hpackets hw
    exact ⟨.packet p c n, nofun, hkey⟩
  · obtain ⟨p, c, n, hkey⟩ := key_of_mem_handlePacketAcknowledgementEvent hacks hw
    exact ⟨.acknowledgement p c n, nofun, hkey⟩

section Calls

variable {C : Codec} {cc : IBCChaincode C} {stub : Stub}

/-- The endorsing functions but one: the application's start, and the entry. -/
theorem writtenKey_of_endorseEntry {make : KVStore → Result Entry} {call : Call} {res : Response}
    {writes : List Write} (heffect : Effect cc stub call writes) (hsubject : call.subject ≠ none)
    (h : respond .entry (cc.endorseEntry stub make) = .ok (res, writes)) {w : Write}
    (hw : w ∈ writes) : WrittenKey w.key := by
  obtain ⟨e, h, -⟩ := respond_eq_ok_iff.mp h
  obtain ⟨commands, app, ws, happ, hws, hwrites⟩ := runFunc_flush h
  simp only [Outcome.bind_eq_ok_iff, Outcome.ok.injEq, Prod.mk.injEq] at hws
  obtain ⟨e', -, -, rfl⟩ := hws
  cases heffect with
  | init _ _ | tx _ | update _ _ | sequence _ => exact absurd rfl hsubject
  | statement _ _ _ _ =>
    -- the entry is the last write on either account
    obtain ⟨rfl, -⟩ := List.append_inj' hwrites rfl
    rcases List.mem_append.mp hw with hw | hw
    · exact writtenKey_of_mem_flush happ hw
    · rw [List.mem_singleton.mp hw]
      exact writtenKey_entry host.storeKey _

theorem writtenKey_of_initChaincode {appState : Bytes} {u : Unit} {writes : List Write}
    (h : cc.initChaincode stub appState = .ok (u, writes)) {w : Write} (hw : w ∈ writes) :
    WrittenKey w.key := by
  simp only [IBCChaincode.initChaincode, Outcome.bind_eq_ok_iff, Outcome.ok.injEq,
    Prod.mk.injEq] at h
  obtain ⟨⟨_, appWrites⟩, hinit, ⟨seq, seqWrites⟩, hseq, -, rfl⟩ := h
  obtain ⟨_, app, ws, happ, hws, rfl⟩ := runFunc_flush hinit
  simp only [Outcome.bind_eq_ok_iff, Outcome.ok.injEq, Prod.mk.injEq] at hws
  obtain ⟨_, -, ws', hws', -, rfl⟩ := hws
  obtain ⟨tm, -, rfl, rfl⟩ := SequenceManager.initSequence_eq_ok_iff.mp hseq
  simp only [List.mem_append] at hw
  rcases hw with (hw | hw) | hw
  · exact writtenKey_of_mem_flush happ hw
  · exact writtenKey_of_mem_flush hws' hw
  · exact writtenKey_of_mem_putSequence hw

theorem writtenKey_of_handleTx {tx : Bytes} {res : TxResult} {writes : List Write}
    (h : cc.handleTx stub tx = .ok (res, writes)) {w : Write} (hw : w ∈ writes) :
    WrittenKey w.key := by
  simp only [IBCChaincode.handleTx, Outcome.bind_eq_ok_iff, Outcome.ok.injEq, Prod.mk.injEq] at h
  obtain ⟨⟨res', appWrites⟩, hrun, eventWrites, hevents, -, rfl⟩ := h
  obtain ⟨_, app, ws, happ, hws, rfl⟩ := runFunc_flush hrun
  simp only [Outcome.bind_eq_ok_iff, Outcome.ok.injEq, Prod.mk.injEq] at hws
  obtain ⟨_, -, ws', hws', -, rfl⟩ := hws
  simp only [List.mem_append] at hw
  rcases hw with (hw | hw) | hw
  · exact writtenKey_of_mem_flush happ hw
  · exact writtenKey_of_mem_flush hws' hw
  · exact writtenKey_of_mem_events hevents hw

/-- **Every key a call writes is one of the listed ones.** -/
theorem invoke_stateKey {call : Call} {res : Response} {writes : List Write}
    (h : cc.invoke stub call = .ok (res, writes)) {w : Write} (hw : w ∈ writes) :
    WrittenKey w.key := by
  have heffect := invoke_effect h
  cases call with
  | initChaincode appState =>
    rw [IBCChaincode.invoke, respond_eq_ok_iff] at h
    obtain ⟨_, h, -⟩ := h
    exact writtenKey_of_initChaincode h hw
  | handleTx tx =>
    rw [IBCChaincode.invoke, respond_eq_ok_iff] at h
    obtain ⟨_, h, -⟩ := h
    exact writtenKey_of_handleTx h hw
  | updateSequence =>
    rw [IBCChaincode.invoke, respond_eq_ok_iff] at h
    obtain ⟨_, h, -⟩ := h
    obtain ⟨_, _, -, -, -, rfl⟩ := SequenceManager.updateSequence_eq_ok_iff.mp h
    exact writtenKey_of_mem_putSequence hw
  | endorseSequenceCommitment =>
    cases heffect with
    | sequence hseq =>
      rw [List.mem_singleton.mp hw]
      exact writtenKey_entry [] (.sequence _)
    | statement hcall _ _ _ => cases hcall
  | _ => exact writtenKey_of_endorseEntry heffect (Option.some_ne_none _) h hw

/-- What a world state holds after a transaction it held before, or a write put it there. -/
theorem exists_write_of_applyWrites {ws : WorldState} {writes : List Write} {x v : Bytes}
    (h : (applyWrites ws writes)[x]? = some v) :
    ws[x]? = some v ∨ ∃ w ∈ writes, w.key = x := by
  by_cases hw : ∃ w ∈ writes, w.key = x
  · exact Or.inr hw
  · left
    rw [← h, getElem?_applyWrites_of_ne]
    intro w hmem heq
    exact hw ⟨w, hmem, heq⟩

/-- After any run of the chaincode, every key of the world state is one of the listed ones. -/
theorem reachable_stateKey (cc : IBCChaincode C) (invs : List Invocation) {x v : Bytes}
    (h : (Run.run cc.commit ∅ invs)[x]? = some v) : WrittenKey x := by
  refine Run.run_invariant (P := fun ws => ∀ x v, ws[x]? = some v → WrittenKey x)
    ?_ ?_ invs x v h
  · intro ws inv hws x v hx
    unfold IBCChaincode.commit at hx
    split at hx
    · rename_i hinvoke
      rcases exists_write_of_applyWrites hx with hold | ⟨w, hw, rfl⟩
      · exact hws x v hold
      · exact invoke_stateKey hinvoke hw
    · exact hws x v hx
    · exact hws x v hx
  · intro x v hx
    simp at hx

end Calls

end FabricIBC
