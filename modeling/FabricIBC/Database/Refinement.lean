import FabricIBC.Commitment.Sequence
import FabricIBC.Database.Iterators
import FabricIBC.Database.Reference

/-!
# Fabric-IBC — database: an ordered map

The database refines the reference. A world state that holds the hex dumps of
the keys of a map, and nothing else, represents it (`Represents`), and its ranges
are those of the map (`Represents.getStateByRange`).

* `Simulates.step` — each call does what the call of the reference does;
* `db_refines_reference` — from an empty world state, every sequence of calls
  gets the replies and errors of the reference.
-/

namespace FabricIBC

open Go

/-! ## World states -/

open Reference (Change Contents Fault report)

/-- The key of the world state under which the database keeps a pair. -/
def dbKey (k : Key) : Bytes := hexEncode k.bytes

theorem compare_dbKey (a b : Key) : compare (dbKey a) (dbKey b) = compare a b :=
  compare_hexEncode a.bytes b.bytes

/-- A world state that holds the pairs of a map, and nothing else. -/
structure Represents (ws : WorldState) (m : Contents) : Prop where
  get : ∀ k, ws[dbKey k]? = m[k]?
  isDump : ∀ x v, ws[x]? = some v → ∃ k, x = dbKey k

theorem represents_empty : Represents ∅ ∅ where
  get k := by simp
  isDump x v h := by simp at h

theorem exec_command (c : Change) : c.command.exec = .ok (c.writeAt dbKey) := by
  cases c with
  | put key value => exact if_neg key.nonempty
  | remove key => exact if_neg key.nonempty

namespace Represents

variable {ws : WorldState} {m : Contents}

theorem apply (h : Represents ws m) (c : Change) :
    Represents ((c.writeAt dbKey).apply ws) (c.apply m) where
  get k := Change.getElem?_writeAt compare_dbKey h.get c k
  isDump x v hx := by
    by_cases hkey : (c.writeAt dbKey).key = x
    · exact ⟨c.key, hkey.symm.trans (c.key_writeAt dbKey)⟩
    · exact h.isDump x v ((getElem?_apply_of_ne hkey).symm.trans hx)

theorem foldl_apply (h : Represents ws m) (changes : List Change) :
    Represents (applyWrites ws (changes.map (Change.writeAt dbKey))) (changes.foldl Change.apply m) := by
  induction changes generalizing ws m with
  | nil => exact h
  | cons c changes ih => exact ih (h.apply c)

theorem rangeBound_eq (lo : Option Key) :
    rangeBound (hexEncode ((lo.map Key.bytes).getD [])) = lo.map dbKey := by
  cases lo with
  | none => rfl
  | some k => exact if_neg (mt hexEncode_eq_nil_iff.mp k.nonempty)

/-- **A range query returns the range of the map**, under the hex dumps of the keys. -/
theorem getStateByRange {stub : Stub} (h : Represents stub.state m) (lo hi : Option Key) :
    stub.getStateByRange (hexEncode ((lo.map Key.bytes).getD []))
      (hexEncode ((hi.map Key.bytes).getD [])) =
    (Reference.listing m lo hi).map compat.stored := by
  rw [Stub.getStateByRange, rangeBound_eq, rangeBound_eq, Reference.listing, List.map_map]
  refine OrderedMap.range_eq_map (fun a b hlt => (compare_dbKey a b).trans hlt) ?_ ?_
  · intro k v hk hrange
    exact ⟨(h.get k).trans hk, (OrderedMap.inRange_map compare_dbKey).mpr hrange⟩
  · intro x v hx hrange
    -- whatever the range meets is the dump of a key
    obtain ⟨k, rfl⟩ := h.isDump x v hx
    exact ⟨k, rfl, (h.get k).symm.trans hx, (OrderedMap.inRange_map compare_dbKey).mp hrange⟩

end Represents

/-! ## Calls -/

namespace compat

open Reference (State)

/-- The commands waiting in a batch, unless it is closed. -/
def BatchDB.pending (batch : BatchDB) : Option (List Command) :=
  if batch.closed then none else some batch.commands

/-- A database in use and the reference in the same state. -/
structure Simulates (s : Session) (t : State) : Prop where
  contents : Represents s.stub.state t.map
  batches : s.batches.map BatchDB.pending = t.batches.map (Option.map (List.map Change.command))

/-- A call of the database does what the call of the reference does. -/
def Matches (t : State) (r : Result Reply × Session) (e : Except Fault (Reply × State)) : Prop :=
  r.1 = report (t.settle e).1 ∧ Simulates r.2 (t.settle e).2

theorem exec_set (key : Bytes) (value : Option Bytes) :
    (Command.set key value).exec = report ((Reference.put key value).map (Change.writeAt dbKey)) := by
  by_cases hkey : key = []
  · rw [hkey, Reference.put_nil]
    rfl
  · cases value with
    | none =>
      rw [Reference.put_none hkey]
      exact if_neg hkey
    | some v =>
      rw [Reference.put_some hkey]
      exact if_neg hkey

theorem exec_delete (key : Bytes) :
    (Command.delete key).exec = report ((Reference.remove key).map (Change.writeAt dbKey)) := by
  by_cases hkey : key = []
  · rw [hkey, Reference.remove_nil]
    rfl
  · rw [Reference.remove_of_ne hkey]
    exact if_neg hkey

namespace Simulates

variable {s : Session} {t : State}

/-- A command that reaches the stub. -/
theorem onStub_run (h : Simulates s t) {cmd : Command} {c : Except Fault Change}
    (hexec : cmd.exec = report (c.map (Change.writeAt dbKey))) :
    Matches t (s.onStub fun stub => Command.run stub cmd) (t.change c) := by
  cases c with
  | error f =>
    have hrun : Command.run s.stub cmd = (f.report, s.stub) := by
      rw [Command.run, hexec]
      cases f <;> rfl
    refine ⟨?_, ?_⟩
    · show (Command.run s.stub cmd).1 >>= _ = _
      rw [hrun]
      cases f <;> rfl
    · show Simulates ⟨(Command.run s.stub cmd).2, s.batches⟩ t
      rw [hrun]
      exact h
  | ok c =>
    have hrun : Command.run s.stub cmd = (.ok (), s.stub.write (c.writeAt dbKey)) := by
      rw [Command.run, hexec]
      rfl
    refine ⟨?_, ?_⟩
    · show (Command.run s.stub cmd).1 >>= _ = _
      rw [hrun]
      rfl
    · show Simulates ⟨(Command.run s.stub cmd).2, s.batches⟩ ⟨c.apply t.map, t.batches⟩
      rw [hrun]
      exact ⟨h.contents.apply c, h.batches⟩

theorem length_batches (h : Simulates s t) : s.batches.length = t.batches.length := by
  simpa using congrArg List.length h.batches

/-- A number of a batch, on both sides. -/
theorem batch_cases (h : Simulates s t) (i : Nat) :
    (s.batches[i]? = none ∧ t.batches[i]? = none) ∨
    (∃ batch, s.batches[i]? = some batch ∧ batch.closed = true ∧ t.batches[i]? = some none) ∨
    ∃ changes, s.batches[i]? = some ⟨changes.map Change.command, false⟩ ∧
      t.batches[i]? = some (some changes) := by
  have hi := congrArg (·[i]?) h.batches
  simp only [List.getElem?_map] at hi
  cases hs : s.batches[i]? with
  | none =>
    rw [hs] at hi
    exact Or.inl ⟨rfl, Option.map_eq_none_iff.mp hi.symm⟩
  | some batch =>
    rw [hs] at hi
    obtain ⟨waiting, ht, hwaiting⟩ := Option.map_eq_some_iff.mp hi.symm
    obtain ⟨commands, closed⟩ := batch
    -- the reference keeps `none` for a closed batch, whatever commands are left in it
    cases closed with
    | true =>
      cases waiting with
      | none => exact Or.inr (Or.inl ⟨_, rfl, rfl, ht⟩)
      | some changes => simp [BatchDB.pending] at hwaiting
    | false =>
      cases waiting with
      | none => simp [BatchDB.pending] at hwaiting
      | some changes =>
        obtain rfl : changes.map Change.command = commands := by
          simpa [BatchDB.pending] using hwaiting
        exact Or.inr (Or.inr ⟨changes, rfl, ht⟩)

/-- A new state of one batch. -/
theorem set_batch (h : Simulates s t) {ws : WorldState} {m : Contents} (hws : Represents ws m)
    (i : Nat) {batch : BatchDB} {waiting : Option (List Change)}
    (hbatch : batch.pending = waiting.map (List.map Change.command)) :
    Simulates ⟨{ s.stub with state := ws }, s.batches.set i batch⟩ ⟨m, t.batches.set i waiting⟩ where
  contents := hws
  batches := by
    rw [List.map_set, List.map_set, h.batches, hbatch]

theorem onBatch_eq {i : Nat} {batch batch' : BatchDB} (hs : s.batches[i]? = some batch)
    {f : Stub → BatchDB → Result Unit × Stub × BatchDB} {r : Result Unit} {stub : Stub}
    (hf : f s.stub batch = (r, stub, batch')) :
    s.onBatch i f = (r >>= fun _ => .ok .done, ⟨stub, s.batches.set i batch'⟩) := by
  simp only [Session.onBatch, hs, hf]

/-- A call of a batch that leaves everything as it is. -/
theorem onBatch_eq_of_same {i : Nat} {batch : BatchDB} (hs : s.batches[i]? = some batch)
    {f : Stub → BatchDB → Result Unit × Stub × BatchDB} {r : Result Unit}
    (hf : f s.stub batch = (r, s.stub, batch)) : s.onBatch i f = (r >>= fun _ => .ok .done, s) := by
  obtain ⟨hlt, rfl⟩ := List.getElem?_eq_some_iff.mp hs
  rw [onBatch_eq hs hf, List.set_getElem_self]

theorem onBatch_of_none {i : Nat} (hs : s.batches[i]? = none)
    (f : Stub → BatchDB → Result Unit × Stub × BatchDB) :
    s.onBatch i f = (.panic .nilDereference, s) := by
  simp only [Session.onBatch, hs]

/-- A call of a batch: nothing behind the number, a closed batch, or an open one. -/
theorem onBatch_matches (h : Simulates s t) (i : Nat)
    {f : Stub → BatchDB → Result Unit × Stub × BatchDB}
    {g : List Change → Except Fault (Reply × State)}
    (hclosed : ∀ batch, batch.closed = true →
      f s.stub batch = (.err BatchDB.errClosed, s.stub, batch))
    (hopen : ∀ changes, s.batches[i]? = some ⟨changes.map Change.command, false⟩ →
      Matches t (s.onBatch i f) (g changes)) :
    Matches t (s.onBatch i f) (t.waiting i >>= g) := by
  rcases h.batch_cases i with ⟨hs, ht⟩ | ⟨batch, hs, hbatch, ht⟩ | ⟨changes, hs, ht⟩
  · rw [onBatch_of_none hs, State.waiting, ht]
    exact ⟨rfl, h⟩
  · rw [onBatch_eq_of_same hs (hclosed batch hbatch), State.waiting, ht]
    exact ⟨rfl, h⟩
  · rw [State.waiting, ht]
    exact hopen changes hs

/-- A command that a batch refuses. -/
theorem onBatch_defer_error (h : Simulates s t) (i : Nat) {f : BatchDB → Result Unit × BatchDB}
    {e : Fault} (hclosed : ∀ batch, batch.closed = true → f batch = (.err BatchDB.errClosed, batch))
    (hopen : ∀ commands, f ⟨commands, false⟩ = (e.report, ⟨commands, false⟩)) :
    Matches t (s.onBatch i (Session.inBatch f)) (t.defer i (.error e)) := by
  refine h.onBatch_matches i ?_ ?_
  · intro batch hbatch
    rw [Session.inBatch, hclosed batch hbatch]
  · intro changes hs
    have hf : Session.inBatch f s.stub ⟨changes.map Change.command, false⟩ =
        (e.report, s.stub, ⟨changes.map Change.command, false⟩) := by
      rw [Session.inBatch, hopen]
    rw [onBatch_eq_of_same hs hf]
    exact ⟨by cases e <;> rfl, h⟩

/-- A command that waits in its batch. -/
theorem onBatch_defer_ok (h : Simulates s t) (i : Nat) {f : BatchDB → Result Unit × BatchDB}
    {c : Change} (hclosed : ∀ batch, batch.closed = true → f batch = (.err BatchDB.errClosed, batch))
    (hopen : ∀ commands, f ⟨commands, false⟩ = (.ok (), ⟨commands ++ [c.command], false⟩)) :
    Matches t (s.onBatch i (Session.inBatch f)) (t.defer i (.ok c)) := by
  refine h.onBatch_matches i ?_ ?_
  · intro batch hbatch
    rw [Session.inBatch, hclosed batch hbatch]
  · intro changes hs
    have hf : Session.inBatch f s.stub ⟨changes.map Change.command, false⟩ =
        (.ok (), s.stub, ⟨changes.map Change.command ++ [c.command], false⟩) := by
      rw [Session.inBatch, hopen]
    rw [onBatch_eq hs hf]
    refine ⟨rfl, h.set_batch h.contents i ?_⟩
    simp [BatchDB.pending]

theorem onBatch_set (h : Simulates s t) (i : Nat) (key : Bytes) (value : Option Bytes) :
    Matches t (s.onBatch i (Session.inBatch fun batch => batch.set key value))
      (t.defer i (Reference.put key value)) := by
  by_cases hkey : key = []
  · rw [hkey, Reference.put_nil]
    exact h.onBatch_defer_error i (fun batch hclosed => if_pos hclosed) fun commands => rfl
  · cases value with
    | none =>
      rw [Reference.put_none hkey]
      exact h.onBatch_defer_error i (fun batch hclosed => if_pos hclosed)
        fun commands => if_neg hkey
    | some v =>
      rw [Reference.put_some hkey]
      exact h.onBatch_defer_ok i (fun batch hclosed => if_pos hclosed) fun commands => if_neg hkey

theorem onBatch_delete (h : Simulates s t) (i : Nat) (key : Bytes) :
    Matches t (s.onBatch i (Session.inBatch fun batch => batch.delete key))
      (t.defer i (Reference.remove key)) := by
  by_cases hkey : key = []
  · rw [hkey, Reference.remove_nil]
    exact h.onBatch_defer_error i (fun batch hclosed => if_pos hclosed) fun commands => rfl
  · rw [Reference.remove_of_ne hkey]
    exact h.onBatch_defer_ok i (fun batch hclosed => if_pos hclosed) fun commands => if_neg hkey

theorem matches_newBatch (h : Simulates s t) :
    Matches t (s.step .newBatch) (t.step .newBatch) := by
  refine ⟨congrArg (fun i => Outcome.ok (Reply.batch i)) h.length_batches, h.contents, ?_⟩
  show (s.batches ++ [compat.newBatch]).map _ = (t.batches ++ [some []]).map _
  rw [List.map_append, List.map_append, h.batches]
  rfl

/-- The loop of `Write` over commands that were accepted. -/
theorem execAll_commands (sync : Bool) (stub : Stub) (changes : List Change) :
    execAll sync stub (changes.map Change.command) =
      (.ok (), { stub with state := applyWrites stub.state (changes.map (Change.writeAt dbKey)) }) := by
  induction changes generalizing stub with
  | nil => rfl
  | cons c changes ih =>
    -- the synchronous calls are the plain ones
    have hrun : c.command.execOn sync stub = (.ok (), stub.write (c.writeAt dbKey)) := by
      have hexec : Command.run stub c.command = (.ok (), stub.write (c.writeAt dbKey)) := by
        rw [Command.run, exec_command c]
      cases c <;> cases sync <;> exact hexec
    rw [List.map_cons, execAll, hrun]
    exact ih (stub.write (c.writeAt dbKey))

/-- `Write` and `WriteSync`. -/
theorem onBatch_writeWith (h : Simulates s t) (sync : Bool) (i : Nat) :
    Matches t (s.onBatch i fun stub batch => batch.writeWith sync stub) (t.commit i) := by
  refine h.onBatch_matches i (fun batch hclosed => if_pos hclosed) ?_
  intro changes hs
  have hf : BatchDB.writeWith sync s.stub ⟨changes.map Change.command, false⟩ =
      (.ok (), { s.stub with state := applyWrites s.stub.state (changes.map (Change.writeAt dbKey)) },
        ⟨changes.map Change.command, true⟩) := by
    rw [BatchDB.writeWith, execAll_commands]
    rfl
  rw [onBatch_eq hs hf]
  exact ⟨rfl, h.set_batch (h.contents.foldl_apply changes) i rfl⟩

theorem onBatch_close (h : Simulates s t) (i : Nat) :
    Matches t (s.onBatch i (Session.inBatch BatchDB.close)) (t.close i) := by
  have hlength := h.length_batches
  by_cases hi : i < t.batches.length
  · have hs := List.getElem?_eq_getElem (hlength ▸ hi)
    rw [onBatch_eq hs rfl, State.close, if_pos hi]
    exact ⟨rfl, h.set_batch h.contents i rfl⟩
  · have hs : s.batches[i]? = none := List.getElem?_eq_none (by omega)
    rw [onBatch_of_none hs, State.close, if_neg hi]
    exact ⟨rfl, h⟩

/-! ## Reading -/

theorem get_eq (h : Simulates s t) (key : Bytes) :
    compat.get s.stub key = report ((Reference.key key).map fun k => t.map[k]?) := by
  by_cases hkey : key = []
  · simp [compat.get, Reference.key, hkey]
    rfl
  · simp only [compat.get, Reference.key, hkey, if_false, dite_false]
    exact congrArg Outcome.ok (h.contents.get ⟨key, hkey⟩)

theorem has_eq (h : Simulates s t) (key : Bytes) :
    compat.has s.stub key = report ((Reference.key key).map fun k => t.map[k]?.isSome) := by
  have hget := h.get_eq key
  by_cases hkey : key = []
  · simp [compat.has, Reference.key, hkey]
    rfl
  · simp only [Reference.key, hkey, dite_false] at hget
    simp only [compat.has, Reference.key, hkey, if_false, dite_false, hget]
    rfl

/-- A call that reads under one key. -/
theorem matches_read (h : Simulates s t) {α : Type} {key : Bytes} {r : Result α} {g : Key → α}
    (hr : r = report ((Reference.key key).map g)) (mk : α → Reply) :
    Matches t (r >>= fun a => .ok (mk a), s) (do
      let k ← Reference.key key
      .ok (mk (g k), t)) := by
  rw [hr]
  cases Reference.key key with
  | error f => exact ⟨by cases f <;> rfl, h⟩
  | ok k => exact ⟨rfl, h⟩

theorem ascending_eq_report (h : Simulates s t) (start stop : Option Bytes) :
    ascending s.stub start stop = report (Reference.entries t.map start stop) := by
  rcases Reference.entries_cases t.map start stop with ⟨hempty, he⟩ | ⟨lo, hi, rfl, rfl, he⟩
  · rw [he, ascending_of_empty_bound hempty]
    rfl
  · rw [he]
    exact ascending_eq (Reference.bounds_nonempty lo hi) (h.contents.getStateByRange lo hi)

theorem descending_eq_report (h : Simulates s t) (start stop : Option Bytes) :
    descending s.stub start stop =
      report ((Reference.entries t.map start stop).map List.reverse) := by
  rcases Reference.entries_cases t.map start stop with ⟨hempty, he⟩ | ⟨lo, hi, rfl, rfl, he⟩
  · rw [he, descending_of_empty_bound hempty]
    rfl
  · rw [he]
    exact descending_eq (Reference.bounds_nonempty lo hi) (h.contents.getStateByRange lo hi)

/-- A listing, drained. -/
theorem matches_list (h : Simulates s t) {start stop : Option Bytes}
    {r : Result (List (Bytes × Bytes))} {f : List (Bytes × Bytes) → List (Bytes × Bytes)}
    (hr : r = report ((Reference.entries t.map start stop).map f)) :
    Matches t (r >>= fun items => .ok (.pairs items), s) (t.list start stop f) := by
  rw [hr, State.list]
  cases Reference.entries t.map start stop with
  | error e => exact ⟨by cases e <;> rfl, h⟩
  | ok l => exact ⟨rfl, h⟩

/-- **Each call of the database does what the call of the reference does.** -/
theorem step (h : Simulates s t) (op : Operation) :
    (s.step op).1 = report (t.respond op).1 ∧ Simulates (s.step op).2 (t.respond op).2 := by
  show Matches t (s.step op) (t.step op)
  cases op with
  | get key => exact h.matches_read (h.get_eq key) .value
  | has key => exact h.matches_read (h.has_eq key) .found
  | set key value => exact h.onStub_run (exec_set key value)
  | setSync key value => exact h.onStub_run (exec_set key value)
  | delete key => exact h.onStub_run (exec_delete key)
  | deleteSync key => exact h.onStub_run (exec_delete key)
  | iterator start stop =>
    refine h.matches_list ((h.ascending_eq_report start stop).trans ?_)
    cases Reference.entries t.map start stop <;> rfl
  | reverseIterator start stop => exact h.matches_list (h.descending_eq_report start stop)
  | newBatch => exact h.matches_newBatch
  | batchSet i key value => exact h.onBatch_set i key value
  | batchDelete i key => exact h.onBatch_delete i key
  | batchWrite i => exact h.onBatch_writeWith false i
  | batchWriteSync i => exact h.onBatch_writeWith true i
  | batchClose i => exact h.onBatch_close i

end Simulates

/-- **The database is an ordered map.** -/
theorem db_refines_reference (stub : Stub) (ops : List Operation) :
    (Run.transcript Session.step ⟨{ stub with state := ∅ }, []⟩ ops).1 =
      (Run.transcript State.respond ⟨∅, []⟩ ops).1.map report := by
  have hstart : Simulates ⟨{ stub with state := ∅ }, []⟩ ⟨∅, []⟩ := ⟨represents_empty, rfl⟩
  exact (Run.transcript_eq (R := Simulates) (fun _ _ op h => h.step op) hstart ops).1

end compat

end FabricIBC
