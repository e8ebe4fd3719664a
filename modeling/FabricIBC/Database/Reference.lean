import FabricIBC.Commitment.Sequence
import FabricIBC.Database.Definitions

/-!
# Fabric-IBC — database: the reference

What `x/compat/db.go` is for: a map from non-empty byte strings to byte strings
that is listed in the order of its keys, with batches of changes. `Reference`
says so, without hex dumps, world states and iterators.
-/

namespace FabricIBC

open Go

/-! ## Keys -/

/-- A non-empty byte string. -/
@[ext]
structure Key where
  bytes : Bytes
  nonempty : bytes ≠ []
  deriving DecidableEq

namespace Key

instance : Ord Key := ⟨fun a b => compare a.bytes b.bytes⟩

instance : Std.TransOrd Key where
  eq_swap {a _} := (Std.OrientedOrd.eq_swap : compare a.bytes _ = _)
  isLE_trans {a _ c} hab hbc :=
    (Std.TransCmp.isLE_trans hab hbc : (compare a.bytes c.bytes).isLE)

instance : Std.LawfulEqOrd Key where
  compare_self {a} := (Std.ReflOrd.compare_self : compare a.bytes a.bytes = .eq)
  eq_of_compare {a _} h := Key.ext (Std.LawfulEqOrd.eq_of_compare (a := a.bytes) h)

end Key

/-! ## The reference -/

namespace Reference

open compat (Operation Reply)

/-- What a client can do wrong. -/
inductive Fault
  | keyEmpty
  | valueNil
  | batchClosed
  | noBatch
  deriving DecidableEq, Repr

/-- An ordered map from non-empty byte strings to byte strings. -/
abbrev Contents := Std.ExtTreeMap Key Bytes compare

inductive Change
  | put (key : Key) (value : Bytes)
  | remove (key : Key)
  deriving DecidableEq

def Change.apply (m : Contents) : Change → Contents
  | put key value => m.insert key value
  | remove key => m.erase key

def Change.key : Change → Key
  | put key _ => key
  | remove key => key

/-- The contents, and the changes waiting in each batch; `none` is a closed one. -/
structure State where
  map : Contents
  batches : List (Option (List Change))

def key (bz : Bytes) : Except Fault Key :=
  if h : bz = [] then .error .keyEmpty else .ok ⟨bz, h⟩

def bound : Option Bytes → Except Fault (Option Key)
  | none => .ok none
  | some bz => (key bz).map some

def put (bz : Bytes) (value : Option Bytes) : Except Fault Change := do
  let k ← key bz
  match value with
  | none => .error .valueNil
  | some v => .ok (.put k v)

def remove (bz : Bytes) : Except Fault Change := do
  let k ← key bz
  .ok (.remove k)

/-- The pairs with `start <= key < stop` in ascending order. -/
def listing (m : Contents) (start stop : Option Key) : List (Bytes × Bytes) :=
  (OrderedMap.range m start stop).map fun kv => (kv.1.bytes, kv.2)

/-- The same for the bounds of a client. -/
def entries (m : Contents) (start stop : Option Bytes) : Except Fault (List (Bytes × Bytes)) := do
  let lo ← bound start
  let hi ← bound stop
  .ok (listing m lo hi)

namespace State

/-- The changes waiting in an open batch. -/
def waiting (t : State) (i : Nat) : Except Fault (List Change) :=
  match t.batches[i]? with
  | none => .error .noBatch
  | some none => .error .batchClosed
  | some (some changes) => .ok changes

def change (t : State) (c : Except Fault Change) : Except Fault (Reply × State) := do
  let c ← c
  .ok (.done, { t with map := c.apply t.map })

def defer (t : State) (i : Nat) (c : Except Fault Change) : Except Fault (Reply × State) := do
  let changes ← t.waiting i
  let c ← c
  .ok (.done, { t with batches := t.batches.set i (some (changes ++ [c])) })

/-- Apply the waiting changes in their order. -/
def commit (t : State) (i : Nat) : Except Fault (Reply × State) := do
  let changes ← t.waiting i
  .ok (.done, ⟨changes.foldl Change.apply t.map, t.batches.set i none⟩)

def close (t : State) (i : Nat) : Except Fault (Reply × State) :=
  if i < t.batches.length then .ok (.done, { t with batches := t.batches.set i none })
  else .error .noBatch

def list (t : State) (start stop : Option Bytes)
    (f : List (Bytes × Bytes) → List (Bytes × Bytes)) : Except Fault (Reply × State) := do
  let l ← entries t.map start stop
  .ok (.pairs (f l), t)

def step (t : State) : Operation → Except Fault (Reply × State)
  | .get bz => do
    let k ← key bz
    .ok (.value t.map[k]?, t)
  | .has bz => do
    let k ← key bz
    .ok (.found t.map[k]?.isSome, t)
  | .set bz value => t.change (put bz value)
  | .setSync bz value => t.change (put bz value)
  | .delete bz => t.change (remove bz)
  | .deleteSync bz => t.change (remove bz)
  | .iterator start stop => t.list start stop id
  | .reverseIterator start stop => t.list start stop List.reverse
  | .newBatch => .ok (.batch t.batches.length, { t with batches := t.batches ++ [some []] })
  | .batchSet i bz value => t.defer i (put bz value)
  | .batchDelete i bz => t.defer i (remove bz)
  | .batchWrite i => t.commit i
  | .batchWriteSync i => t.commit i
  | .batchClose i => t.close i

/-- A fault changes nothing. -/
def settle (t : State) : Except Fault (Reply × State) → Except Fault Reply × State
  | .ok r => (.ok r.1, r.2)
  | .error f => (.error f, t)

def respond (t : State) (op : Operation) : Except Fault Reply × State := t.settle (t.step op)

end State

theorem put_nil (value : Option Bytes) : put [] value = .error .keyEmpty := rfl

theorem put_none {bz : Bytes} (h : bz ≠ []) : put bz none = .error .valueNil := by
  rw [put, key, dif_neg h]
  rfl

theorem put_some {bz : Bytes} (h : bz ≠ []) (v : Bytes) : put bz (some v) = .ok (.put ⟨bz, h⟩ v) := by
  rw [put, key, dif_neg h]
  rfl

theorem remove_nil : remove [] = .error .keyEmpty := rfl

theorem remove_of_ne {bz : Bytes} (h : bz ≠ []) : remove bz = .ok (.remove ⟨bz, h⟩) := by
  rw [remove, key, dif_neg h]
  rfl

theorem key_bytes (k : Key) : key k.bytes = .ok k := dif_neg k.nonempty

theorem bound_map_bytes (k : Option Key) : bound (k.map Key.bytes) = .ok k := by
  cases k with
  | none => rfl
  | some k =>
    show (key k.bytes).map some = _
    rw [key_bytes]
    rfl

theorem entries_map_bytes (m : Contents) (lo hi : Option Key) :
    entries m (lo.map Key.bytes) (hi.map Key.bytes) = .ok (listing m lo hi) := by
  rw [entries, bound_map_bytes, bound_map_bytes]
  rfl

theorem bound_cases (bz : Option Bytes) :
    (bz = some [] ∧ bound bz = .error .keyEmpty) ∨
    ∃ k : Option Key, bz = k.map Key.bytes ∧ bound bz = .ok k := by
  cases bz with
  | none => exact Or.inr ⟨none, rfl, rfl⟩
  | some bz =>
    by_cases hbz : bz = []
    · exact Or.inl ⟨by rw [hbz], by simp [bound, key, hbz]; rfl⟩
    · exact Or.inr ⟨some ⟨bz, hbz⟩, rfl, by simp [bound, key, hbz]; rfl⟩

theorem bounds_nonempty (lo hi : Option Key) :
    ¬ (lo.map Key.bytes = some [] ∨ hi.map Key.bytes = some []) := by
  have hnonempty : ∀ k : Option Key, k.map Key.bytes ≠ some [] := by
    intro k hk
    obtain ⟨k, -, hbytes⟩ := Option.map_eq_some_iff.mp hk
    exact k.nonempty hbytes
  exact not_or.mpr ⟨hnonempty lo, hnonempty hi⟩

theorem ne_nil_of_mem_listing {m : Contents} {lo hi : Option Key} :
    ∀ kv ∈ listing m lo hi, kv.1 ≠ [] := by
  intro kv hkv
  obtain ⟨kv', -, rfl⟩ := List.mem_map.mp hkv
  exact kv'.1.nonempty

/-- A listing that is refused for an empty bound, and else is the one between the bounds. -/
theorem entries_cases (m : Contents) (start stop : Option Bytes) :
    ((start = some [] ∨ stop = some []) ∧ entries m start stop = .error .keyEmpty) ∨
    ∃ lo hi : Option Key, start = lo.map Key.bytes ∧ stop = hi.map Key.bytes ∧
      entries m start stop = .ok (listing m lo hi) := by
  rcases bound_cases start with ⟨hstart, hlo⟩ | ⟨lo, hstart, hlo⟩
  · exact Or.inl ⟨Or.inl hstart, by rw [entries, hlo]; rfl⟩
  · rcases bound_cases stop with ⟨hstop, hhi⟩ | ⟨hi, hstop, hhi⟩
    · exact Or.inl ⟨Or.inr hstop, by rw [entries, hlo, hhi]; rfl⟩
    · exact Or.inr ⟨lo, hi, hstart, hstop, by rw [entries, hlo, hhi]; rfl⟩

/-- How the database reports a fault. -/
def Fault.report {α : Type} : Fault → Result α
  | keyEmpty => .err compat.errKeyEmpty
  | valueNil => .err compat.errValueNil
  | batchClosed => .err compat.BatchDB.errClosed
  | noBatch => .panic .nilDereference

def report {α : Type} : Except Fault α → Result α
  | .ok a => .ok a
  | .error f => f.report

/-! ## Changes as calls -/

namespace Change

/-- The call of a database. -/
def command : Change → compat.Command
  | put key value => .set key.bytes (some value)
  | remove key => .delete key.bytes

/-- The call of the stub that keeps each pair under a key of its own. -/
def writeAt (φ : Key → Bytes) : Change → Write
  | put key value => .put (φ key) value
  | remove key => .del (φ key)

theorem key_writeAt (φ : Key → Bytes) (c : Change) : (c.writeAt φ).key = φ c.key := by
  cases c <;> rfl

/-- A map kept inside a world state follows the changes. -/
theorem getElem?_writeAt {φ : Key → Bytes} (hφ : ∀ a b, compare (φ a) (φ b) = compare a b)
    {ws : WorldState} {m : Contents} (h : ∀ k, ws[φ k]? = m[k]?) (c : Change) (k : Key) :
    ((c.writeAt φ).apply ws)[φ k]? = (c.apply m)[k]? := by
  cases c with
  | put key value =>
    show (ws.insert (φ key) value)[φ k]? = (m.insert key value)[k]?
    rw [Std.ExtTreeMap.getElem?_insert, Std.ExtTreeMap.getElem?_insert, hφ, h]
  | remove key =>
    show (ws.erase (φ key))[φ k]? = (m.erase key)[k]?
    rw [Std.ExtTreeMap.getElem?_erase, Std.ExtTreeMap.getElem?_erase, hφ, h]

end Change

end Reference

end FabricIBC
