import FabricIBC.Chaincode.Definitions
import FabricIBC.Commitment.Sequence

/-!
# Fabric-IBC — chaincode: what a call can write

* `Statement` — what an `Endorse*` function vouches for: identifiers and the
  value the IBC store holds for them;
* `Effect` — every way a call can end well, with its writes;
* `invoke_effect` — a call that succeeds has one of these effects. Later
  modules never unfold the chaincode's functions.

Besides the one entry or the two sequence records of its kind, a call writes
application data only (`ApplicationKey`).
-/

namespace FabricIBC

open Go

/-! ## Application data -/

/-- A key of the database, or of a packet or acknowledgement kept for relayers. -/
def ApplicationKey (k : Bytes) : Prop :=
  (∃ bz, k = hexEncode bz) ∨ ∃ rest, k = slash :: rest

theorem RecordKey.not_applicationKey {k : Bytes} (h : RecordKey k) : ¬ ApplicationKey k := by
  rintro (⟨bz, rfl⟩ | ⟨rest, rfl⟩)
  · exact h.ne_hexEncode bz rfl
  · exact h.ne_slash_cons rest rfl

theorem applicationKey_eventKey {keyPrefix : Bytes} (h : ∃ rest, keyPrefix = slash :: rest)
    (portID channelID : Bytes) (sequence : UInt64) :
    ApplicationKey (eventKey keyPrefix portID channelID sequence) := by
  obtain ⟨rest, rfl⟩ := h
  exact Or.inr ⟨_, rfl⟩

/-- All writes are to application data. -/
def ApplicationWrites (writes : List Write) : Prop := ∀ w ∈ writes, ApplicationKey w.key

theorem ApplicationWrites.append {ws ws' : List Write} (h : ApplicationWrites ws)
    (h' : ApplicationWrites ws') : ApplicationWrites (ws ++ ws') := fun w hw =>
  (List.mem_append.mp hw).elim (h w) (h' w)

/-- The database writes under hex dumps of non-empty keys. -/
theorem key_of_mem_flush {commands : List compat.Command} {writes : List Write}
    (h : compat.flush commands = .ok writes) {w : Write} (hw : w ∈ writes) :
    ∃ key, key ≠ [] ∧ w.key = hexEncode key := by
  obtain ⟨cmd, -, hexec⟩ := Outcome.exists_of_mem_collect h hw
  cases cmd with
  | set key value =>
    by_cases hkey : key = []
    · simp [compat.Command.exec, hkey] at hexec
    · cases value with
      | none => simp [compat.Command.exec, hkey] at hexec
      | some bz =>
        simp only [compat.Command.exec, hkey, if_false, Outcome.ok.injEq] at hexec
        exact ⟨key, hkey, by rw [← hexec]; rfl⟩
  | delete key =>
    by_cases hkey : key = []
    · simp [compat.Command.exec, hkey] at hexec
    · simp only [compat.Command.exec, hkey, if_false, Outcome.ok.injEq] at hexec
      exact ⟨key, hkey, by rw [← hexec]; rfl⟩

theorem applicationWrites_flush {commands : List compat.Command} {writes : List Write}
    (h : compat.flush commands = .ok writes) : ApplicationWrites writes := by
  intro w hw
  obtain ⟨key, -, hkey⟩ := key_of_mem_flush h hw
  exact Or.inl ⟨key, hkey⟩

theorem key_of_mem_handlePacketEvent {P : PacketCodec} {events : List Event} {b : Bool}
    {writes : List Write} (h : handlePacketEvent P events = .ok (b, writes)) {w : Write}
    (hw : w ∈ writes) : ∃ p c n, w.key = makePacketKey packetEventKeyPrefix p c n := by
  simp only [handlePacketEvent, Outcome.bind_eq_ok_iff, Outcome.ok.injEq, Prod.mk.injEq] at h
  obtain ⟨packets, -, ws, hws, -, rfl⟩ := h
  obtain ⟨p, -, hput⟩ := Outcome.exists_of_mem_collect hws hw
  simp only [Outcome.bind_eq_ok_iff, Outcome.ok.injEq] at hput
  obtain ⟨bz, -, rfl⟩ := hput
  exact ⟨_, _, _, rfl⟩

theorem key_of_mem_handlePacketAcknowledgementEvent {events : List Event} {b : Bool}
    {writes : List Write} (h : handlePacketAcknowledgementEvent events = .ok (b, writes))
    {w : Write} (hw : w ∈ writes) :
    ∃ p c n, w.key = makePacketAcknowledgementKey packetAcknowledgementEventKeyPrefix p c n := by
  simp only [handlePacketAcknowledgementEvent, Outcome.bind_eq_ok_iff, Outcome.ok.injEq,
    Prod.mk.injEq] at h
  obtain ⟨acks, -, -, rfl⟩ := h
  obtain ⟨a, -, rfl⟩ := List.mem_map.mp hw
  exact ⟨_, _, _, rfl⟩

/-- Both default handlers run, one after the other. -/
theorem multiEventHandle_default_eq_ok_iff {P : PacketCodec} {events : List Event}
    {writes : List Write} :
    multiEventHandle (defaultMultiEventHandler P) events = .ok writes ↔
      ∃ packets acks, handlePacketEvent P events = .ok (true, packets) ∧
        handlePacketAcknowledgementEvent events = .ok (true, acks) ∧ writes = packets ++ acks := by
  have hpackets : ∀ b ws, handlePacketEvent P events = .ok (b, ws) → b = true := by
    intro b ws h
    simp only [handlePacketEvent, Outcome.bind_eq_ok_iff, Outcome.ok.injEq, Prod.mk.injEq] at h
    obtain ⟨_, -, _, -, rfl, -⟩ := h
    rfl
  have hacks : ∀ b ws, handlePacketAcknowledgementEvent events = .ok (b, ws) → b = true := by
    intro b ws h
    simp only [handlePacketAcknowledgementEvent, Outcome.bind_eq_ok_iff, Outcome.ok.injEq,
      Prod.mk.injEq] at h
    obtain ⟨_, -, rfl, -⟩ := h
    rfl
  simp only [defaultMultiEventHandler, multiEventHandle, Outcome.bind_eq_ok_iff]
  constructor
  · rintro ⟨⟨b, ws⟩, hp, hrest⟩
    obtain rfl := hpackets b ws hp
    simp only [if_true, Outcome.bind_eq_ok_iff, Outcome.ok.injEq] at hrest
    obtain ⟨rest, ⟨⟨b', ws'⟩, ha, hend⟩, rfl⟩ := hrest
    obtain rfl := hacks b' ws' ha
    simp only [if_true, Outcome.ok_bind, List.append_nil, Outcome.ok.injEq] at hend
    exact ⟨ws, ws', hp, ha, by rw [hend]⟩
  · rintro ⟨packets, acks, hp, ha, rfl⟩
    refine ⟨(true, packets), hp, ?_⟩
    simp [ha]

theorem applicationWrites_default {P : PacketCodec} {events : List Event} {writes : List Write}
    (h : multiEventHandle (defaultMultiEventHandler P) events = .ok writes) :
    ApplicationWrites writes := by
  obtain ⟨packets, acks, hpackets, hacks, rfl⟩ := multiEventHandle_default_eq_ok_iff.mp h
  have happ : ApplicationWrites packets := by
    intro w hw
    obtain ⟨p, c, n, hkey⟩ := key_of_mem_handlePacketEvent hpackets hw
    exact hkey ▸ applicationKey_eventKey ⟨_, rfl⟩ p c n
  refine happ.append ?_
  intro w hw
  obtain ⟨p, c, n, hkey⟩ := key_of_mem_handlePacketAcknowledgementEvent hacks hw
  exact hkey ▸ applicationKey_eventKey ⟨_, rfl⟩ p c n

/-! ## Statements -/

/-- What an endorsing call is about; sequences are not in the IBC store. -/
def Call.subject : Call → Option EntryID
  | endorseClientState a => some (.clientState a)
  | endorseConsensusStateCommitment a n => some (.consensusState a (IBCChaincode.makeHeight n))
  | endorseConnectionState a => some (.connection a)
  | endorseChannelState p c => some (.channel p c)
  | endorsePacketCommitment p c n => some (.packetCommitment p c n)
  | endorsePacketAcknowledgement p c n => some (.packetAcknowledgement p c n)
  | endorsePacketReceiptAbsence p c n => some (.packetReceiptAbsence p c n)
  | endorseNextSequenceRecv p c => some (.nextSequenceRecv p c)
  | initChaincode _ | handleTx _ | updateSequence | endorseSequenceCommitment => none

/-- What a commitment entry says about the IBC store. -/
inductive Statement (C : Codec)
  | clientState (clientID : Bytes) (cs : C.ClientStateI)
  | consensusState (clientID : Bytes) (height : Height)
      (css : ConsensusStateI C.OtherConsensusState)
  | connection (connectionID : Bytes) (connection : C.ConnectionEnd)
  | channel (portID channelID : Bytes) (channel : C.Channel)
  | packetCommitment (portID channelID : Bytes) (sequence : UInt64) (commitment : Bytes)
  | packetAcknowledgement (portID channelID : Bytes) (sequence : UInt64) (commitment : Bytes)
  | packetReceiptAbsence (portID channelID : Bytes) (sequence : UInt64)
  | nextSequenceRecv (portID channelID : Bytes) (seq : UInt64)

namespace Statement

variable {C : Codec}

/-- What the statement is about. -/
def id : Statement C → EntryID
  | clientState a _ => .clientState a
  | consensusState a h _ => .consensusState a h
  | connection a _ => .connection a
  | channel p c _ => .channel p c
  | packetCommitment p c n _ => .packetCommitment p c n
  | packetAcknowledgement p c n _ => .packetAcknowledgement p c n
  | packetReceiptAbsence p c n => .packetReceiptAbsence p c n
  | nextSequenceRecv p c _ => .nextSequenceRecv p c

/-- The value of the entry. -/
def bytes : Statement C → Result Bytes
  | clientState _ cs => Outcome.ofExcept (C.clientState.marshal cs)
  | consensusState _ _ css => Outcome.ofExcept (C.consensusState.marshal css)
  | connection _ c => Outcome.ofExcept (C.connection.marshal c)
  | channel _ _ c => Outcome.ofExcept (C.channel.marshal c)
  | packetCommitment _ _ _ bz => .ok bz
  | packetAcknowledgement _ _ _ bz => .ok bz
  | packetReceiptAbsence .. => .ok [0]
  | nextSequenceRecv _ _ n => .ok (uint64ToBigEndian n)

/-- The IBC store holds what the statement says. -/
def HeldIn (K : Keeper C) (store : KVStore) : Statement C → Prop
  | clientState a cs => K.getClientState store a = .ok (some cs)
  | consensusState a h css => K.getClientConsensusState store a h = .ok (some css)
  | connection a c => K.getConnection store a = .ok (some c)
  | channel p c ch => K.getChannel store p c = .ok (some ch)
  | packetCommitment p c n bz => K.getPacketCommitment store p c n = .ok (some bz)
  | packetAcknowledgement p c n bz => K.getPacketAcknowledgement store p c n = .ok (some bz)
  | packetReceiptAbsence p c n => K.getPacketReceipt store p c n = .ok none
  | nextSequenceRecv p c n => K.getNextSequenceRecv store p c = .ok (some n)

/-- The call asks for a statement about this subject. -/
def AskedBy (stmt : Statement C) (call : Call) : Prop := call.subject = some stmt.id

end Statement

/-! ## Effects -/

/-- How a call can end well. -/
inductive Effect {C : Codec} (cc : IBCChaincode C) (stub : Stub) : Call → List Write → Prop
  | init {appState : Bytes} {app : List Write} {tm : Int64} (happ : ApplicationWrites app)
      (htime : cc.sequenceMgr.Timely stub 0 tm) :
      Effect cc stub (.initChaincode appState) (app ++ cc.sequenceMgr.putSequence ⟨1, tm⟩)
  | tx {txJSON : Bytes} {app : List Write} (happ : ApplicationWrites app) :
      Effect cc stub (.handleTx txJSON) app
  | update {current : Sequence} {tm : Int64}
      (hcurrent : cc.sequenceMgr.getCurrentSequence stub = .ok current)
      (htime : cc.sequenceMgr.Timely stub current.timestamp tm) :
      Effect cc stub .updateSequence (cc.sequenceMgr.putSequence ⟨current.value + 1, tm⟩)
  | sequence {seq : Sequence} (hseq : cc.requestedSequence stub = .ok seq) :
      Effect cc stub .endorseSequenceCommitment
        [.put (makeSequenceCommitmentEntryKey seq.value) seq.bytes]
  | statement {call : Call} {stmt : Statement C} {bz : Bytes} {app : List Write}
      (hcall : stmt.AskedBy call) (hheld : stmt.HeldIn cc.keeper (ibcStore stub.state))
      (hbytes : stmt.bytes = .ok bz) (happ : ApplicationWrites app) :
      Effect cc stub call (app ++ [.put (stmt.id.key host.storeKey) bz])

section Inversion

variable {C : Codec} {cc : IBCChaincode C} {stub : Stub}

theorem respond_eq_ok_iff {α : Type} {f : α → Response} {r : Result (α × List Write)}
    {res : Response} {writes : List Write} :
    respond f r = .ok (res, writes) ↔ ∃ a, r = .ok (a, writes) ∧ res = f a := by
  simp only [respond, Outcome.bind_eq_ok_iff, Outcome.ok.injEq, Prod.mk.injEq]
  constructor
  · rintro ⟨⟨a, ws⟩, hr, rfl, rfl⟩
    exact ⟨a, hr, rfl⟩
  · rintro ⟨a, hr, rfl⟩
    exact ⟨(a, writes), hr, rfl, rfl⟩

theorem found_eq_ok_iff {α : Type} {e : Error} {r : Result (Option α)} {a : α} :
    found e r = .ok a ↔ r = .ok (some a) := by
  rcases r with (_ | b) | _ | _ <;> simp [found]

/-- `RunFunc` flushes the commands of the application's start, then does as its argument. -/
theorem runFunc_flush {α : Type} {f : Result (α × List Write)} {a : α} {writes : List Write}
    (h : cc.runFunc stub f = .ok (a, writes)) :
    ∃ commands app ws, compat.flush commands = .ok app ∧ f = .ok (a, ws) ∧ writes = app ++ ws := by
  simp only [IBCChaincode.runFunc, Outcome.bind_eq_ok_iff, Outcome.ok.injEq, Prod.mk.injEq] at h
  obtain ⟨commands, -, app, happ, ⟨a', ws⟩, hf, rfl, rfl⟩ := h
  exact ⟨commands, app, ws, happ, hf, rfl⟩

theorem runFunc_eq_ok {α : Type} {f : Result (α × List Write)} {a : α} {writes : List Write}
    (h : cc.runFunc stub f = .ok (a, writes)) :
    ∃ app ws, ApplicationWrites app ∧ f = .ok (a, ws) ∧ writes = app ++ ws := by
  obtain ⟨_, app, ws, happ, hf, hwrites⟩ := runFunc_flush h
  exact ⟨app, ws, applicationWrites_flush happ, hf, hwrites⟩

theorem initChaincode_effect {appState : Bytes} {u : Unit} {writes : List Write}
    (h : cc.initChaincode stub appState = .ok (u, writes)) :
    Effect cc stub (.initChaincode appState) writes := by
  simp only [IBCChaincode.initChaincode, Outcome.bind_eq_ok_iff, Outcome.ok.injEq,
    Prod.mk.injEq] at h
  obtain ⟨⟨_, appWrites⟩, hinit, ⟨seq, seqWrites⟩, hseq, -, rfl⟩ := h
  obtain ⟨app, ws, happ, hws, rfl⟩ := runFunc_eq_ok hinit
  simp only [Outcome.bind_eq_ok_iff, Outcome.ok.injEq, Prod.mk.injEq] at hws
  obtain ⟨commands, -, ws', hws', -, rfl⟩ := hws
  obtain ⟨tm, htime, rfl, rfl⟩ := SequenceManager.initSequence_eq_ok_iff.mp hseq
  exact .init (happ.append (applicationWrites_flush hws')) htime

theorem handleTx_effect {tx : Bytes} {res : TxResult} {writes : List Write}
    (h : cc.handleTx stub tx = .ok (res, writes)) : Effect cc stub (.handleTx tx) writes := by
  simp only [IBCChaincode.handleTx, Outcome.bind_eq_ok_iff, Outcome.ok.injEq, Prod.mk.injEq] at h
  obtain ⟨⟨res', appWrites⟩, hrun, eventWrites, hevents, -, rfl⟩ := h
  obtain ⟨app, ws, happ, hws, rfl⟩ := runFunc_eq_ok hrun
  simp only [Outcome.bind_eq_ok_iff, Outcome.ok.injEq, Prod.mk.injEq] at hws
  obtain ⟨_, -, ws', hws', -, rfl⟩ := hws
  exact .tx ((happ.append (applicationWrites_flush hws')).append
    (applicationWrites_default hevents))

theorem endorseSequenceCommitment_effect {e : Entry} {writes : List Write}
    (h : cc.endorseSequenceCommitment stub = .ok (e, writes)) :
    Effect cc stub .endorseSequenceCommitment writes := by
  simp only [IBCChaincode.endorseSequenceCommitment, Outcome.bind_eq_ok_iff, Outcome.ok.injEq,
    Prod.mk.injEq] at h
  obtain ⟨seq, hseq, -, rfl⟩ := h
  exact .sequence hseq

/-- The endorsing functions, given that the entry they make is that of a
statement they were asked for and that holds. -/
theorem endorseEntry_effect {make : KVStore → Result Entry} {call : Call}
    (hmake : ∀ e, make (ibcStore stub.state) = .ok e → ∃ (stmt : Statement C) (bz : Bytes),
      stmt.AskedBy call ∧ stmt.HeldIn cc.keeper (ibcStore stub.state) ∧ stmt.bytes = .ok bz ∧
        e = ⟨stmt.id.key host.storeKey, bz⟩)
    {res : Response} {writes : List Write}
    (h : respond .entry (cc.endorseEntry stub make) = .ok (res, writes)) :
    Effect cc stub call writes := by
  obtain ⟨e, h, -⟩ := respond_eq_ok_iff.mp h
  obtain ⟨app, ws, happ, hws, rfl⟩ := runFunc_eq_ok h
  simp only [Outcome.bind_eq_ok_iff, Outcome.ok.injEq, Prod.mk.injEq] at hws
  -- the entry is put after the writes of the application's start
  obtain ⟨e', hmk, -, rfl⟩ := hws
  obtain ⟨stmt, bz, hcall, hheld, hbytes, rfl⟩ := hmake e' hmk
  exact .statement hcall hheld hbytes happ

/-- **What a call does.** -/
theorem invoke_effect {call : Call} {res : Response} {writes : List Write}
    (h : cc.invoke stub call = .ok (res, writes)) : Effect cc stub call writes := by
  -- one case per function of the chaincode; an endorsing one names its statement
  cases call with
  | initChaincode appState =>
    rw [IBCChaincode.invoke, respond_eq_ok_iff] at h
    obtain ⟨_, h, -⟩ := h
    exact initChaincode_effect h
  | handleTx tx =>
    rw [IBCChaincode.invoke, respond_eq_ok_iff] at h
    obtain ⟨_, h, -⟩ := h
    exact handleTx_effect h
  | updateSequence =>
    rw [IBCChaincode.invoke, respond_eq_ok_iff] at h
    obtain ⟨_, h, -⟩ := h
    obtain ⟨current, tm, hcurrent, htime, rfl, rfl⟩ := SequenceManager.updateSequence_eq_ok_iff.mp h
    exact .update hcurrent htime
  | endorseSequenceCommitment =>
    rw [IBCChaincode.invoke, respond_eq_ok_iff] at h
    obtain ⟨_, h, -⟩ := h
    exact endorseSequenceCommitment_effect h
  | endorseClientState id =>
    refine endorseEntry_effect (fun e hmk => ?_) h
    simp only [Outcome.bind_eq_ok_iff, found_eq_ok_iff, Outcome.ok.injEq] at hmk
    obtain ⟨cs, hcs, bz, hbz, rfl⟩ := hmk
    exact ⟨.clientState id cs, bz, rfl, hcs, hbz, rfl⟩
  | endorseConsensusStateCommitment id n =>
    refine endorseEntry_effect (fun e hmk => ?_) h
    simp only [Outcome.bind_eq_ok_iff, found_eq_ok_iff, Outcome.ok.injEq] at hmk
    obtain ⟨css, hcss, bz, hbz, rfl⟩ := hmk
    exact ⟨.consensusState id (IBCChaincode.makeHeight n) css, bz, rfl, hcss, hbz, rfl⟩
  | endorseConnectionState id =>
    refine endorseEntry_effect (fun e hmk => ?_) h
    simp only [Outcome.bind_eq_ok_iff, found_eq_ok_iff, Outcome.ok.injEq] at hmk
    obtain ⟨conn, hconn, bz, hbz, rfl⟩ := hmk
    exact ⟨.connection id conn, bz, rfl, hconn, hbz, rfl⟩
  | endorseChannelState p c =>
    refine endorseEntry_effect (fun e hmk => ?_) h
    simp only [Outcome.bind_eq_ok_iff, found_eq_ok_iff, Outcome.ok.injEq] at hmk
    obtain ⟨ch, hch, bz, hbz, rfl⟩ := hmk
    exact ⟨.channel p c ch, bz, rfl, hch, hbz, rfl⟩
  | endorsePacketCommitment p c n =>
    refine endorseEntry_effect (fun e hmk => ?_) h
    simp only [Outcome.bind_eq_ok_iff, found_eq_ok_iff, Outcome.ok.injEq] at hmk
    obtain ⟨bz, hbz, rfl⟩ := hmk
    exact ⟨.packetCommitment p c n bz, bz, rfl, hbz, rfl, rfl⟩
  | endorsePacketAcknowledgement p c n =>
    refine endorseEntry_effect (fun e hmk => ?_) h
    simp only [Outcome.bind_eq_ok_iff, found_eq_ok_iff, Outcome.ok.injEq] at hmk
    obtain ⟨bz, hbz, rfl⟩ := hmk
    exact ⟨.packetAcknowledgement p c n bz, bz, rfl, hbz, rfl, rfl⟩
  | endorsePacketReceiptAbsence p c n =>
    refine endorseEntry_effect (fun e hmk => ?_) h
    -- here it is the empty answer of the keeper that leads to an entry
    cases hr : cc.keeper.getPacketReceipt (ibcStore stub.state) p c n with
    | err e => simp [hr] at hmk
    | panic p => simp [hr] at hmk
    | ok r =>
      cases r with
      | some bz => simp [hr] at hmk
      | none =>
        rw [hr, Outcome.ok.injEq] at hmk
        exact ⟨.packetReceiptAbsence p c n, [0], rfl, hr, rfl, hmk.symm⟩
  | endorseNextSequenceRecv p c =>
    refine endorseEntry_effect (fun e hmk => ?_) h
    simp only [Outcome.bind_eq_ok_iff, found_eq_ok_iff, Outcome.ok.injEq] at hmk
    obtain ⟨n, hn, rfl⟩ := hmk
    exact ⟨.nextSequenceRecv p c n, _, rfl, hn, rfl, rfl⟩

end Inversion

end FabricIBC
