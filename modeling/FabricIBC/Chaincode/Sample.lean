import FabricIBC.Chaincode.Definitions
import FabricIBC.LightClient.Symbolic

/-!
# Fabric-IBC — a chaincode to run

A small application for the network of `Symbolic`, and keepers that read the
paths of ICS-24 as ibc-go does. A transaction of the application names a path
of the IBC store and leaves there the byte ibc-go stores for a received packet.
-/

namespace FabricIBC.Sample

open Go Symbolic

/-- What ibc-go's keepers do with the bytes under a path: `nil` is "not found". -/
def read {α : Type} (decode : Bytes → Result α) : Option Bytes → Result (Option α)
  | none => .ok none
  | some bz => do
    let a ← decode bz
    .ok (some a)

/-- Stored bytes of the codec; the keepers panic if they do not decode. -/
def mustUnmarshal {α : Type} (M : Marshaller α) (bz : Bytes) : Result α :=
  match M.unmarshal bz with
  | .ok a => .ok a
  | .error _ => .panic (.explicit "MustUnmarshal")

/-- The store of one client: `clients/{id}/`. -/
def clientPath (clientID : Bytes) : Bytes := str "clients/" ++ clientID ++ str "/"

def keeper : Keeper codec where
  getClientState store a :=
    read (mustUnmarshal codec.clientState) (store (clientPath a ++ str "clientState"))
  getClientConsensusState store a h :=
    read (mustUnmarshal codec.consensusState) (store (clientPath a ++ host.consensusStatePath h))
  getConnection store a := read (mustUnmarshal codec.connection) (store (host.connectionPath a))
  getChannel store p c := read (mustUnmarshal codec.channel) (store (host.channelPath p c))
  getPacketCommitment store p c n := read .ok (store (host.packetCommitmentPath p c n))
  getPacketAcknowledgement store p c n :=
    match store (host.packetAcknowledgementPath p c n) with
    | none => .ok none
    | some bz => .ok (if bz = [] then none else some bz)
  getPacketReceipt store p c n := read .ok (store (host.packetReceiptPath p c n))
  getNextSequenceRecv store p c := read bigEndianToUint64 (store (host.nextSequenceRecvPath p c))
  by_path h store := by
    simp only [host.channelPath, host.nextSequenceRecvPath, host.packetCommitmentPath,
      host.packetAcknowledgementPath, host.packetReceiptPath, host.packetTail, h, and_self,
      implies_true]

def app : Application where
  provide _ _ := .ok []
  initChain _ _ := .ok []
  runTx _ block path := do
    let _ ← block
    .ok (⟨[], [], []⟩, [.set (storePath host.storeKey ++ path) (some [1])])

def chaincode : IBCChaincode codec := ⟨.newDefault, app, keeper, ⟨fun _ => .ok (), fun _ => .ok []⟩⟩

/-- A call made at second `t`. -/
def callAt (t : Int64) (call : Call) : Invocation := ⟨call, [], .ok t, t, .ok []⟩

/-- `EndorseSequenceCommitment` for sequence `n`. -/
def endorseSequence (n : UInt64) : Invocation :=
  ⟨.endorseSequenceCommitment, [str "EndorseSequenceCommitment", uint64ToBigEndian n], .ok 0, 0, .ok []⟩

def port : Bytes := str "transfer"

def channel : Bytes := str "channel-0"

/-- The entry for the receipt of packet 1 that is not there. -/
def absenceEntry : Entry := makePacketReceiptAbsenceEntry host.storeKey port channel 1

def absence : Write := .put absenceEntry.key absenceEntry.value

end FabricIBC.Sample
