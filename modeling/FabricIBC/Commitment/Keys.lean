import FabricIBC.Commitment.Definitions

/-!
# Fabric-IBC — commitments: which keys can be equal

The chaincode keeps its records and its commitment entries in one flat key
space. This module says what an equality between two such keys amounts to.

Results:

* `EntryID.key_inj` — two commitment entries under one prefix have the same
  key only if they are of the same family and about the same subject. Port and
  channel identifiers enter only through their common path
  (`host.portChannel`): with slashes inside the identifiers different pairs
  can share it.
* `portChannel_inj_of_slashFree` — a pair of slash-free identifiers shares
  its path with no other pair, slash-free or not.
* `EntryID.key_ne_current`, `EntryID.key_ne_sequence` — no commitment entry
  has the key of a sequence record, whatever the prefix of either.
* `RecordKey` — what tells all of them from the keys of application data.
-/

namespace FabricIBC

open Go

/-- What a commitment entry is about. -/
inductive EntryID
  | clientState (clientID : Bytes)
  | consensusState (clientID : Bytes) (height : Height)
  | sequence (seq : UInt64)
  | connection (connectionID : Bytes)
  | channel (portID channelID : Bytes)
  | packetCommitment (portID channelID : Bytes) (sequence : UInt64)
  | packetAcknowledgement (portID channelID : Bytes) (sequence : UInt64)
  | packetReceiptAbsence (portID channelID : Bytes) (sequence : UInt64)
  | nextSequenceRecv (portID channelID : Bytes)
  deriving DecidableEq, Repr

namespace EntryID

/-- The key of the entry, by the `Make*EntryKey` function of its family. -/
def key (pfx : Bytes) : EntryID → Bytes
  | clientState clientID => makeClientStateCommitmentEntryKey pfx clientID
  | consensusState clientID height => makeConsensusStateCommitmentEntryKey pfx clientID height
  | sequence seq => makeSequenceCommitmentEntryKey seq
  | connection connectionID => makeConnectionStateCommitmentEntryKey pfx connectionID
  | channel portID channelID => makeChannelStateCommitmentEntryKey pfx portID channelID
  | packetCommitment portID channelID seq => makePacketCommitmentEntryKey pfx portID channelID seq
  | packetAcknowledgement portID channelID seq =>
    makePacketAcknowledgementEntryKey pfx portID channelID seq
  | packetReceiptAbsence portID channelID seq =>
    makePacketReceiptAbsenceEntryKey pfx portID channelID seq
  | nextSequenceRecv portID channelID => makeNextSequenceRecvEntryKey pfx portID channelID

/-- Same family and same subject; ports and channels up to their path. -/
def Same : EntryID → EntryID → Prop
  | clientState a, clientState b => a = b
  | consensusState a h, consensusState b k => a = b ∧ h = k
  | sequence m, sequence n => m = n
  | connection a, connection b => a = b
  | channel p c, channel p' c' => host.portChannel p c = host.portChannel p' c'
  | packetCommitment p c m, packetCommitment p' c' n =>
    host.portChannel p c = host.portChannel p' c' ∧ m = n
  | packetAcknowledgement p c m, packetAcknowledgement p' c' n =>
    host.portChannel p c = host.portChannel p' c' ∧ m = n
  | packetReceiptAbsence p c m, packetReceiptAbsence p' c' n =>
    host.portChannel p c = host.portChannel p' c' ∧ m = n
  | nextSequenceRecv p c, nextSequenceRecv p' c' =>
    host.portChannel p c = host.portChannel p' c'
  | _, _ => False

/-- No identifier contains a slash. -/
def SlashFree : EntryID → Prop
  | clientState a | consensusState a _ | connection a => slash ∉ a
  | sequence _ => True
  | channel p c | packetCommitment p c _ | packetAcknowledgement p c _
  | packetReceiptAbsence p c _ | nextSequenceRecv p c => slash ∉ p ∧ slash ∉ c

end EntryID

/-! ## Numbers at the end of a name -/

theorem uint64_of_dec {m n : UInt64} (h : dec m.toNat = dec n.toNat) : m = n :=
  UInt64.toNat_inj.mp (dec_injective h)

theorem height_string_inj {h k : Height} (heq : h.string = k.string) : h = k := by
  unfold Height.string at heq
  have hdash : ∀ n, (45 : UInt8) ∉ dec n := fun n => notMem_dec (Or.inl (by decide))
  have hstr : str "-" = [45] := rfl
  rw [hstr, List.append_assoc, List.append_assoc] at heq
  obtain ⟨hnum, hht⟩ := append_sep_inj_first (hdash _) (hdash _) heq
  cases h
  cases k
  simp only [Height.mk.injEq]
  exact ⟨uint64_of_dec hnum, uint64_of_dec hht⟩

theorem slash_notMem_height_string (h : Height) : slash ∉ h.string := by
  unfold Height.string
  have hdash : slash ∉ str "-" := by decide
  simp [slash_notMem_dec, hdash]

/-! ## Ports and channels -/

theorem packetTail_inj {p c p' c' : Bytes} {m n : UInt64}
    (h : host.packetTail p c m = host.packetTail p' c' n) :
    host.portChannel p c = host.portChannel p' c' ∧ m = n := by
  unfold host.packetTail at h
  have hstr : str "/sequences/" = str "/sequences" ++ [slash] := rfl
  rw [hstr, ← List.append_assoc, ← List.append_assoc, List.append_assoc _ [slash],
    List.append_assoc _ [slash], List.singleton_append, List.singleton_append] at h
  -- the number is what follows the last slash
  obtain ⟨hpath, hseq⟩ := append_sep_inj_last (slash_notMem_dec _) (slash_notMem_dec _) h
  exact ⟨List.append_cancel_right hpath, uint64_of_dec hseq⟩

/-- Slash-free identifiers can be read off their common path: the number of
slashes leaves none for the other pair's identifiers. -/
theorem portChannel_inj_of_slashFree {p c p' c' : Bytes} (hp : slash ∉ p) (hc : slash ∉ c)
    (h : host.portChannel p' c' = host.portChannel p c) : p' = p ∧ c' = c := by
  have hcount := congrArg (List.count slash) h
  simp only [host.portChannel, List.count_append, List.count_eq_zero_of_not_mem hp,
    List.count_eq_zero_of_not_mem hc] at hcount
  -- both paths have three slashes of their own
  have hp' : slash ∉ p' := List.count_eq_zero.mp (by omega)
  unfold host.portChannel at h
  have hstr : str "/channels/" = slash :: str "channels/" := rfl
  simp only [List.append_assoc, List.append_cancel_left_eq, hstr, List.cons_append] at h
  obtain ⟨hpp, hcc⟩ := append_sep_inj_first hp' hp h
  exact ⟨hpp, List.append_cancel_left hcc⟩

/-! ## Commitment entries

Every key is a scheme, the prefix (which the sequence entries do without), the
first segment of a path and the rest.
-/

namespace EntryID

def scheme : EntryID → Bytes
  | sequence _ => str "h/_"
  | clientState _ | consensusState .. | connection _ | channel .. => str "h/k:"
  | packetCommitment .. | packetAcknowledgement .. | packetReceiptAbsence ..
  | nextSequenceRecv .. => str "e/k:"

def lead : EntryID → Bytes
  | sequence _ => str "/seq/"
  | clientState _ | consensusState .. => str "/clients/"
  | connection _ => str "/connections/"
  | channel .. => str "/channelEnds/"
  | packetCommitment .. => str "/commitments/"
  | packetAcknowledgement .. => str "/acks/"
  | packetReceiptAbsence .. => str "/receipts/"
  | nextSequenceRecv .. => str "/nextSequenceRecv/"

def rest : EntryID → Bytes
  | sequence n => dec n.toNat ++ str "/commitment"
  | clientState a => a ++ str "/clientState"
  | consensusState a h => a ++ str "/" ++ host.consensusStatePath h ++ str "/commitment"
  | connection a => a ++ str "/commitment"
  | channel p c => host.portChannel p c ++ str "/commitment"
  | packetCommitment p c n | packetAcknowledgement p c n | packetReceiptAbsence p c n =>
    host.packetTail p c n
  | nextSequenceRecv p c => host.portChannel p c

theorem key_eq (pfx : Bytes) (a : EntryID) :
    a.key pfx = a.scheme ++ ((if a.scheme = str "h/_" then [] else pfx) ++ (a.lead ++ a.rest)) := by
  have hconn : str "/connections/" = str "/" ++ str "connections/" := by decide +kernel
  have hchan : str "/channelEnds/" = str "/" ++ str "channelEnds/" := by decide +kernel
  have hcomm : str "/commitments/" = str "/" ++ str "commitments/" := by decide +kernel
  have hacks : str "/acks/" = str "/" ++ str "acks/" := by decide +kernel
  have hrecp : str "/receipts/" = str "/" ++ str "receipts/" := by decide +kernel
  have hnext : str "/nextSequenceRecv/" = str "/" ++ str "nextSequenceRecv/" := by decide +kernel
  have hseq : str "h/_/seq/" = str "h/_" ++ str "/seq/" := by decide +kernel
  have hh : str "h/k:" ≠ str "h/_" := by decide +kernel
  have he : str "e/k:" ≠ str "h/_" := by decide +kernel
  cases a <;>
    simp only [key, scheme, lead, rest, makeClientStateCommitmentEntryKey,
      makeConsensusStateCommitmentEntryKey, makeSequenceCommitmentEntryKey,
      makeConnectionStateCommitmentEntryKey, makeChannelStateCommitmentEntryKey,
      makePacketCommitmentEntryKey, makePacketAcknowledgementEntryKey,
      makePacketReceiptAbsenceEntryKey, makeNextSequenceRecvEntryKey, makeEntryKey,
      host.connectionPath, host.channelPath, host.packetCommitmentPath,
      host.packetAcknowledgementPath, host.packetReceiptPath, host.nextSequenceRecvPath,
      hconn, hchan, hcomm, hacks, hrecp, hnext, hseq, hh, he, if_true, if_false,
      List.append_assoc, List.nil_append]

theorem scheme_mem (a : EntryID) : a.scheme ∈ [str "h/_", str "h/k:", str "e/k:"] := by
  cases a <;> simp only [scheme, List.mem_cons, true_or, or_true]

theorem lead_mem (a : EntryID) :
    a.lead ∈ [str "/seq/", str "/clients/", str "/connections/", str "/channelEnds/",
      str "/commitments/", str "/acks/", str "/receipts/", str "/nextSequenceRecv/"] := by
  cases a <;> simp only [lead, List.mem_cons, true_or, or_true]

theorem lead_rest_of_key_eq {pfx : Bytes} {a b : EntryID} (h : a.key pfx = b.key pfx) :
    a.lead = b.lead ∧ a.rest = b.rest := by
  rw [key_eq, key_eq] at h
  obtain ⟨hscheme, htail⟩ := PrefixFree.append_inj (by decide +kernel) a.scheme_mem b.scheme_mem h
  rw [hscheme] at htail
  exact PrefixFree.append_inj (by decide +kernel) a.lead_mem b.lead_mem
    (List.append_cancel_left htail)

theorem consensusState_rest_inj {a b : Bytes} {h k : Height}
    (heq : (consensusState a h).rest = (consensusState b k).rest) : a = b ∧ h = k := by
  simp only [rest, host.consensusStatePath] at heq
  have hcut := List.append_cancel_right heq
  -- cut at the last slash, in front of the height
  have hstr : str "consensusStates/" = str "consensusStates" ++ [slash] := rfl
  simp only [hstr, List.append_assoc, List.singleton_append] at hcut
  simp only [← List.append_assoc] at hcut
  obtain ⟨hleft, hheight⟩ := append_sep_inj_last (slash_notMem_height_string h)
    (slash_notMem_height_string k) hcut
  simp only [List.append_assoc] at hleft
  exact ⟨List.append_cancel_right hleft, height_string_inj hheight⟩

theorem clientState_rest_ne (a b : Bytes) (h : Height) :
    (clientState a).rest ≠ (consensusState b h).rest :=
  append_ne_of_not_isSuffix (by decide) (by decide) _ _

/-- **Commitment entries under one prefix do not collide.** -/
theorem key_inj {pfx : Bytes} {a b : EntryID} (h : a.key pfx = b.key pfx) : a.Same b := by
  obtain ⟨hlead, hrest⟩ := lead_rest_of_key_eq h
  clear h
  -- the leads tell all families apart but the two under `clients/`
  cases a <;> cases b <;> simp only [lead] at hlead <;>
    first | exact absurd hlead (by decide) | skip
  case clientState.clientState => exact List.append_cancel_right hrest
  case clientState.consensusState => exact clientState_rest_ne _ _ _ hrest
  case consensusState.clientState => exact clientState_rest_ne _ _ _ hrest.symm
  case consensusState.consensusState => exact consensusState_rest_inj hrest
  case sequence.sequence => exact uint64_of_dec (List.append_cancel_right hrest)
  case connection.connection => exact List.append_cancel_right hrest
  case channel.channel => exact List.append_cancel_right hrest
  case packetCommitment.packetCommitment => exact packetTail_inj hrest
  case packetAcknowledgement.packetAcknowledgement => exact packetTail_inj hrest
  case packetReceiptAbsence.packetReceiptAbsence => exact packetTail_inj hrest
  case nextSequenceRecv.nextSequenceRecv => exact hrest

/-- Nothing else has the key of an entry about slash-free identifiers. -/
theorem Same.eq_of_slashFree {a b : EntryID} (h : a.Same b) (hb : b.SlashFree) : a = b := by
  cases a <;> cases b <;> simp only [Same] at h <;> simp only [SlashFree] at hb
  case clientState.clientState => rw [h]
  case consensusState.consensusState => rw [h.1, h.2]
  case sequence.sequence => rw [h]
  case connection.connection => rw [h]
  case channel.channel | nextSequenceRecv.nextSequenceRecv =>
    obtain ⟨rfl, rfl⟩ := portChannel_inj_of_slashFree hb.1 hb.2 h
    rfl
  case packetCommitment.packetCommitment | packetAcknowledgement.packetAcknowledgement
      | packetReceiptAbsence.packetReceiptAbsence =>
    obtain ⟨rfl, rfl⟩ := portChannel_inj_of_slashFree hb.1 hb.2 h.1
    rw [h.2]

end EntryID

/-! ## Sequence records -/

theorem makeSequenceKey_inj {pfx : Bytes} {m n : UInt64}
    (h : makeSequenceKey pfx m = makeSequenceKey pfx n) : m = n :=
  uint64_of_dec (List.append_cancel_left h)

theorem current_ne_sequence (pfx pfx' : Bytes) (n : UInt64) :
    makeCurrentSequenceKey pfx ≠ makeSequenceKey pfx' n := by
  have hstr : str "/current" = str "/curren" ++ [116] := rfl
  unfold makeCurrentSequenceKey makeSequenceKey
  rw [hstr, ← List.append_assoc]
  exact (append_dec_ne (by decide)).symm

/-- How a commitment entry begins or ends. -/
theorem EntryID.key_ends (pfx : Bytes) (a : EntryID) :
    (∃ s, a.key pfx = str "e/k:" ++ s) ∨ (∃ s, a.key pfx = s ++ str "/commitment") ∨
      ∃ s, a.key pfx = s ++ str "/clientState" := by
  cases a with
  | clientState => exact Or.inr (Or.inr ⟨_, rfl⟩)
  | consensusState | sequence | connection | channel => exact Or.inr (Or.inl ⟨_, rfl⟩)
  | packetCommitment | packetAcknowledgement | packetReceiptAbsence | nextSequenceRecv =>
    exact Or.inl ⟨_, List.append_assoc ..⟩

theorem EntryID.key_ne_current (pfx pfx' : Bytes) (a : EntryID) :
    a.key pfx ≠ makeCurrentSequenceKey pfx' := by
  unfold makeCurrentSequenceKey
  rcases a.key_ends pfx with ⟨s, hs⟩ | ⟨s, hs⟩ | ⟨s, hs⟩ <;> rw [hs]
  · rw [List.append_assoc]
    exact append_ne_of_not_isPrefix (by decide) (by decide) _ _
  · exact append_ne_of_not_isSuffix (by decide) (by decide) _ _
  · exact append_ne_of_not_isSuffix (by decide) (by decide) _ _

theorem EntryID.key_ne_sequence (pfx pfx' : Bytes) (a : EntryID) (n : UInt64) :
    a.key pfx ≠ makeSequenceKey pfx' n := by
  unfold makeSequenceKey
  -- a number does not end in a letter
  have hcommitment : str "/commitment" = str "/commitmen" ++ [116] := rfl
  have hclientState : str "/clientState" = str "/clientStat" ++ [101] := rfl
  rcases a.key_ends pfx with ⟨s, hs⟩ | ⟨s, hs⟩ | ⟨s, hs⟩ <;> rw [hs]
  · rw [List.append_assoc, List.append_assoc]
    exact append_ne_of_not_isPrefix (by decide) (by decide) _ _
  · rw [hcommitment, ← List.append_assoc]
    exact (append_dec_ne (by decide)).symm
  · rw [hclientState, ← List.append_assoc]
    exact (append_dec_ne (by decide)).symm

/-! ## Records and application data -/

/-- The keys of records and entries: a scheme of one letter and a slash. -/
def RecordKey (k : Bytes) : Prop := ∃ x rest, x ≠ slash ∧ k = x :: slash :: rest

theorem EntryID.recordKey (pfx : Bytes) (a : EntryID) : RecordKey (a.key pfx) := by
  rw [key_eq]
  have hscheme : ∃ x rest, x ≠ slash ∧ a.scheme = x :: slash :: rest := by
    cases a <;> exact ⟨_, _, by decide, rfl⟩
  obtain ⟨x, rest, hx, heq⟩ := hscheme
  exact ⟨x, rest ++ _, hx, by rw [heq]; rfl⟩

theorem makeCurrentSequenceKey_recordKey (pfx : Bytes) : RecordKey (makeCurrentSequenceKey pfx) :=
  ⟨104, str "k:" ++ pfx ++ str "/current", by decide, rfl⟩

theorem makeSequenceKey_recordKey (pfx : Bytes) (n : UInt64) : RecordKey (makeSequenceKey pfx n) :=
  ⟨104, str "k:" ++ pfx ++ str "/seq/" ++ dec n.toNat, by decide, rfl⟩

theorem RecordKey.ne_hexEncode {k : Bytes} (h : RecordKey k) (bz : Bytes) : k ≠ hexEncode bz := by
  obtain ⟨x, rest, -, rfl⟩ := h
  intro heq
  exact slash_notMem_hexEncode bz (heq ▸ by simp)

theorem RecordKey.ne_slash_cons {k : Bytes} (h : RecordKey k) (rest : Bytes) :
    k ≠ slash :: rest := by
  obtain ⟨x, rest', hx, rfl⟩ := h
  intro heq
  exact hx (List.cons.inj heq).1

end FabricIBC
