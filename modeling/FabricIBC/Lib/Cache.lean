import FabricIBC.Lib.Outcome
import FabricIBC.Lib.OrderedMap

/-!
# Write-back caches

A cache over a family of ordered maps keeps the pending writes of each map. It
answers a read from them or else from what it is laid over, and its writes reach
the maps below when it is written back. Caches can be laid over caches.

* `view` — the map one sees through pending writes; `getElem?_view`;
* `writeBack` — a cache is written back into the cache below; through the two one
  sees the same (`view_writeBack`);
* `Shows.cached` — a reader that shows some maps, with a cache over it, shows
  what one sees through the pending writes;
* `Program.run_views` — a program run in a cache does what it would do on the maps
  themselves, and its pending writes are the difference.
-/

namespace Cache

open Go (Outcome Panic)
open Std (ExtTreeMap TransOrd LawfulEqOrd)
open OrderedMap (range InRange ofPairs foldl_toList_seen)

variable {I K V ε α : Type} [Ord K]

/-- Pending writes; `none` is a deletion. -/
abbrev Pending (K V : Type) [Ord K] := ExtTreeMap K (Option V) compare

/-! ## One map -/

section Map

variable [TransOrd K]

/-- Carry out a pending write. -/
def put (m : ExtTreeMap K V compare) (w : K × Option V) : ExtTreeMap K V compare :=
  match w.2 with
  | some v => m.insert w.1 v
  | none => m.erase w.1

/-- The map one sees through pending writes. -/
def view (m : ExtTreeMap K V compare) (p : Pending K V) : ExtTreeMap K V compare :=
  p.toList.foldl put m

/-- Pending writes of a cache reach the cache below. -/
def writeBack (below p : Pending K V) : Pending K V :=
  p.toList.foldl (fun below w => below.insert w.1 w.2) below

theorem getElem?_put (m : ExtTreeMap K V compare) (w : K × Option V) (k : K) :
    (put m w)[k]? = if compare w.1 k = .eq then w.2 else m[k]? := by
  cases hw : w.2 with
  | none => rw [put, hw, Std.ExtTreeMap.getElem?_erase]
  | some v => rw [put, hw, Std.ExtTreeMap.getElem?_insert]

variable [LawfulEqOrd K]

theorem getElem?_view (m : ExtTreeMap K V compare) (p : Pending K V) (k : K) :
    (view m p)[k]? = p[k]?.getD m[k]? := by
  have hseen := foldl_toList_seen (o := fun (m : ExtTreeMap K V compare) k => m[k]?) (g := id)
    getElem?_put p m k
  rwa [Option.map_id] at hseen

theorem getElem?_writeBack (below p : Pending K V) (k : K) :
    (writeBack below p)[k]? = p[k]?.or below[k]? := by
  have hseen := foldl_toList_seen (o := fun (m : Pending K V) k => m[k]?) (g := some)
    (fun s w k => Std.ExtTreeMap.getElem?_insert) p below k
  rw [writeBack, hseen]
  cases p[k]? <;> rfl

theorem view_writeBack (m : ExtTreeMap K V compare) (below p : Pending K V) :
    view m (writeBack below p) = view (view m below) p := by
  apply Std.ExtTreeMap.ext_getElem?
  intro k
  rw [getElem?_view, getElem?_view, getElem?_view, getElem?_writeBack]
  cases p[k]? <;> rfl

@[simp] theorem view_empty (m : ExtTreeMap K V compare) : view m ∅ = m := by
  apply Std.ExtTreeMap.ext_getElem?
  intro k
  simp [getElem?_view]

theorem view_insert (m : ExtTreeMap K V compare) (p : Pending K V) (k : K) (d : Option V) :
    view m (p.insert k d) = put (view m p) (k, d) := by
  apply Std.ExtTreeMap.ext_getElem?
  intro k'
  rw [getElem?_view, getElem?_put, Std.ExtTreeMap.getElem?_insert, getElem?_view]
  by_cases hk : compare k k' = .eq
  · rw [if_pos hk, if_pos hk]
    rfl
  · rw [if_neg hk, if_neg hk]

/-- The pairs of a range of the map below, with the pending writes laid over them. -/
def overlay (pairs : List (K × V)) (p : Pending K V) (lo hi : Option K) : List (K × V) :=
  range (view (ofPairs pairs) p) lo hi

/-- The range of the map below is as good as the whole map. -/
theorem getElem?_ofPairs_range (m : ExtTreeMap K V compare) {lo hi : Option K} {k : K}
    (hk : InRange lo hi k) : (ofPairs (range m lo hi))[k]? = m[k]? := by
  refine Option.ext fun v => ?_
  rw [OrderedMap.getElem?_ofPairs (OrderedMap.pairwise_range m lo hi), OrderedMap.mem_range]
  exact and_iff_left hk

/-- A range seen through pending writes. -/
theorem overlay_range (m : ExtTreeMap K V compare) (p : Pending K V) (lo hi : Option K) :
    overlay (range m lo hi) p lo hi = range (view m p) lo hi := by
  refine (OrderedMap.pairwise_range _ lo hi).eq_of_mem_iff (OrderedMap.pairwise_range _ lo hi) ?_
  intro kv
  rw [OrderedMap.mem_range, OrderedMap.mem_range]
  refine and_congr_left fun hk => ?_
  rw [getElem?_view, getElem?_view, getElem?_ofPairs_range m hk]

end Map

/-! ## Layers -/

/-- The two ways to go through a range. -/
inductive Direction
  | ascending
  | descending
  deriving DecidableEq, Repr

def Direction.arrange : Direction → List α → List α
  | ascending, l => l
  | descending, l => l.reverse

@[simp] theorem Direction.arrange_arrange (dir : Direction) (l : List α) :
    dir.arrange (dir.arrange l) = l := by
  cases dir with
  | ascending => rfl
  | descending => exact List.reverse_reverse l

section Layers

variable [TransOrd K]

/-- How maps are read from outside; a read may fail. -/
structure Reader (I K V ε : Type) where
  get : I → K → Outcome ε (Option V)
  list : I → Direction → (lo hi : Option K) → Outcome ε (List (K × V))

/-- A cache over what a reader shows. -/
def Reader.cached [LawfulEqOrd K] (r : Reader I K V ε) (p : I → Pending K V) : Reader I K V ε where
  get i k :=
    match (p i)[k]? with
    | some d => .ok d
    | none => r.get i k
  list i dir lo hi := do
    let pairs ← r.list i dir lo hi
    .ok (dir.arrange (overlay (dir.arrange pairs) (p i) lo hi))

/-- The reader shows these maps. -/
structure Shows (r : Reader I K V ε) (M : I → ExtTreeMap K V compare) : Prop where
  get : ∀ i k, r.get i k = .ok (M i)[k]?
  list : ∀ i dir lo hi, r.list i dir lo hi = .ok (dir.arrange (range (M i) lo hi))

/-- The maps one sees through pending writes. -/
def views (M : I → ExtTreeMap K V compare) (p : I → Pending K V) : I → ExtTreeMap K V compare :=
  fun i => view (M i) (p i)

variable [LawfulEqOrd K]

theorem Shows.cached {r : Reader I K V ε} {M : I → ExtTreeMap K V compare} (h : Shows r M)
    (p : I → Pending K V) : Shows (r.cached p) (views M p) where
  get i k := by
    rw [views, getElem?_view]
    cases hp : (p i)[k]? with
    | none => simp [Reader.cached, hp, h.get]
    | some d => simp [Reader.cached, hp]
  list i dir lo hi := by
    show (do
      let pairs ← r.list i dir lo hi
      (.ok (dir.arrange (overlay (dir.arrange pairs) (p i) lo hi)) : Outcome ε _)) = _
    rw [h.list, Outcome.ok_bind, Direction.arrange_arrange, overlay_range]
    rfl

theorem views_writeBack (M : I → ExtTreeMap K V compare) (below p : I → Pending K V) :
    views M (fun i => writeBack (below i) (p i)) = views (views M below) p :=
  funext fun i => view_writeBack (M i) (below i) (p i)

theorem views_empty (M : I → ExtTreeMap K V compare) : views M (fun _ => ∅) = M :=
  funext fun i => view_empty (M i)

end Layers

/-! ## Programs -/

/-- A program over a family of maps. Listings are read at once. -/
inductive Program (I K V ε α : Type)
  | done (a : α)
  | fail (e : ε)
  | crash (p : Panic)
  | get (i : I) (k : K) (next : Option V → Program I K V ε α)
  | set (i : I) (k : K) (v : V) (next : Program I K V ε α)
  | delete (i : I) (k : K) (next : Program I K V ε α)
  | list (i : I) (dir : Direction) (lo hi : Option K) (next : List (K × V) → Program I K V ε α)

namespace Program

variable [TransOrd K] [LawfulEqOrd K] [DecidableEq I]

/-- Run on the maps themselves. -/
def run : Program I K V ε α → (I → ExtTreeMap K V compare) →
    Outcome ε (α × (I → ExtTreeMap K V compare))
  | done a, M => .ok (a, M)
  | fail e, _ => .err e
  | crash p, _ => .panic p
  | get i k next, M => (next (M i)[k]?).run M
  | set i k v next, M => next.run (Function.update M i ((M i).insert k v))
  | delete i k next, M => next.run (Function.update M i ((M i).erase k))
  | list i dir lo hi next, M => (next (dir.arrange (range (M i) lo hi))).run M

/-- Run in a cache over a reader. -/
def exec (r : Reader I K V ε) : Program I K V ε α → (I → Pending K V) →
    Outcome ε (α × (I → Pending K V))
  | done a, p => .ok (a, p)
  | fail e, _ => .err e
  | crash c, _ => .panic c
  | get i k next, p => do
    let v ← (r.cached p).get i k
    (next v).exec r p
  | set i k v next, p => next.exec r (Function.update p i ((p i).insert k (some v)))
  | delete i k next, p => next.exec r (Function.update p i ((p i).insert k none))
  | list i dir lo hi next, p => do
    let pairs ← (r.cached p).list i dir lo hi
    (next pairs).exec r p

theorem views_update (M : I → ExtTreeMap K V compare) (p : I → Pending K V) (i : I) (k : K)
    (d : Option V) :
    views M (Function.update p i ((p i).insert k d)) =
      Function.update (views M p) i (put (views M p i) (k, d)) := by
  funext j
  by_cases hj : j = i
  · subst hj
    simp [views, view_insert]
  · simp [views, hj]

/-- **A program in a cache does what it does on the maps.** -/
theorem run_views {r : Reader I K V ε} {M : I → ExtTreeMap K V compare} (h : Shows r M)
    (prog : Program I K V ε α) (p : I → Pending K V) :
    prog.run (views M p) = (do
      let res ← prog.exec r p
      .ok (res.1, views M res.2)) := by
  induction prog generalizing p with
  | done a => rfl
  | fail e => rfl
  | crash c => rfl
  | get i k next ih =>
    rw [run, exec, (h.cached p).get, Outcome.ok_bind]
    exact ih _ p
  | set i k v next ih =>
    have hput : Function.update (views M p) i ((views M p i).insert k v) = _ :=
      (views_update M p i k (some v)).symm
    rw [run, exec, hput]
    exact ih _
  | delete i k next ih =>
    have hput : Function.update (views M p) i ((views M p i).erase k) = _ :=
      (views_update M p i k none).symm
    rw [run, exec, hput]
    exact ih _
  | list i dir lo hi next ih =>
    rw [run, exec, (h.cached p).list, Outcome.ok_bind]
    exact ih _ p

end Program

end Cache
