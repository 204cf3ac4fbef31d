import Mathlib
import Libport.Lib.Action
import Libport.Lib.OrderedMap

/-!
# The port manager (`include/port_manager.h`)

`PortManager` hands out ranges of ports from `[low, high)`.  Two ordered maps hold the segments
that are free and those that are allocated, each from its left end to its right end.

* Ports are 32-bit words; differences and sums wrap.
* The member functions that throw are actions over the manager, and a throw leaves what was
  written before it.
* `deallocate` reads the key of an iterator before it tests it against `end()`.  What is read
  there when the iterator is `end()` is a parameter.
-/

namespace Libport

/-- The order of 32-bit words. -/
instance instLinearOrderUInt32 : LinearOrder UInt32 where
  le_refl := UInt32.le_refl
  le_trans := fun _ _ _ => UInt32.le_trans
  le_antisymm := fun _ _ => UInt32.le_antisymm
  le_total := UInt32.le_total
  lt_iff_le_not_ge := fun a b => by
    rw [UInt32.lt_iff_toNat_lt, UInt32.le_iff_toNat_le, UInt32.le_iff_toNat_le]
    omega
  toDecidableLE := inferInstance

/-- `std::pair<uint32_t, uint32_t>`: a half-open range of ports. -/
abbrev PortPair : Type := UInt32 × UInt32

/-- The errors a `PortManager` throws. -/
inductive PortError
  | full
  | bug (msg : String)
  | badPort (p : UInt32)
  | badRange (l r : UInt32)
deriving DecidableEq

/-- The text of the `std::runtime_error`. -/
def PortError.what : PortError → String
  | full => "no available port range"
  | bug msg => "a bug occurs:" ++ msg
  | badPort p => "port " ++ toString p ++ " is a bad port"
  | badRange l r => "(" ++ toString l ++ "," ++ toString r ++ ") is a bad range"

/-- The managed range, the free segments and the allocated ones. -/
structure PortManager where
  low : UInt32
  high : UInt32
  freeMap : OrderedMap UInt32 UInt32
  allocated : OrderedMap UInt32 UInt32

namespace PortManager

/-- The constructor. -/
def new (low high : UInt32) : PortManager where
  low := low
  high := high
  freeMap := OrderedMap.empty.insert low high
  allocated := .empty

/-- `PortManager::Bad`, and the pair that `find_fit(cnt)` returns when nothing fits. -/
def bad : PortPair := (0, 0)

/-- `find_fit(cnt)`: the first free segment with room for `cnt` ports. -/
def findFit (m : PortManager) (cnt : UInt32) : PortPair :=
  (m.freeMap.entries.find? fun e => cnt ≤ e.2 - e.1).getD bad

/-- `find_fit(lo, hi)`. -/
def findFitExact (m : PortManager) (lo hi : UInt32) : Except PortError PortPair :=
  match m.freeMap.prev (m.freeMap.upperBound lo) with
  | none => .error (.bug "consistency broken: must be a segment smaller than lower bound")
  | some p =>
      if p.2 < hi then
        .error (.bug "consistency broken: target segment must include given range")
      else .ok p

/-- `is_allocated(p)`. -/
def isAllocated (m : PortManager) (p : UInt32) : Bool :=
  if m.allocated.entries.length = 0 then false
  else
    match m.allocated.prev (m.allocated.upperBound p) with
    | none => false
    | some index => index.2 > p

/-- `is_allocated(l, h)`.  Where the iterator is `begin()` the map is not empty and there is an
entry to read. -/
def isAllocatedRange (m : PortManager) (l h : UInt32) : Bool :=
  if m.allocated.entries.length = 0 then false
  else
    let index := m.allocated.upperBound l
    match m.allocated.prev index with
    | none => index.any fun e => e.1 < h
    | some index2 => index2.2 > l || index.any fun e => e.1 < h

/-- `allocate(cnt)`: the segment is cut off the right end of the first one that fits. -/
def allocate (cnt : UInt32) : Action PortError PortManager PortPair := do
  let m ← Action.get
  let index := m.findFit cnt
  if index = bad then Action.throw .full
  else
    let available := index.2 - index.1
    let remain := available - cnt
    let freeMap :=
      if remain ≥ 1 then m.freeMap.insert index.1 (index.1 + remain)
      else m.freeMap.erase index.1
    Action.modify fun m => { m with
      freeMap := freeMap
      allocated := m.allocated.insert (index.1 + remain) index.2 }
    pure (index.1 + remain, index.2)

/-- `allocate(lo, hi)`. -/
def allocateExact (lo hi : UInt32) : Action PortError PortManager PortPair := do
  let m ← Action.get
  if lo < m.low ∨ hi > m.high then Action.throw (.badRange lo hi)
  else if m.isAllocatedRange lo hi then Action.throw (.badRange lo hi)
  else
    let p ← Action.ofExcept (m.findFitExact lo hi)
    let freeMap := if p.1 < lo then m.freeMap.insert p.1 lo else m.freeMap.erase p.1
    let freeMap := if p.2 > hi then freeMap.insert hi p.2 else freeMap
    Action.modify fun m => { m with
      freeMap := freeMap
      allocated := m.allocated.insert lo hi }
    pure (lo, hi)

/-- The merge of `deallocate` with the free segment on the right: the free map, the iterator, and
the right end of the segment to be freed.  When the two touch, the entry on the right is erased
and then looked up again under the key just erased. -/
def mergeRight (freeMap : OrderedMap UInt32 UInt32) (freeIndex : Option PortPair)
    (value second : UInt32) : OrderedMap UInt32 UInt32 × Option PortPair × UInt32 :=
  match freeIndex with
  | none => (freeMap, none, second)
  | some right =>
      if right.1 = second then
        let freeMap := freeMap.erase right.1
        (freeMap, (freeMap.find? value).map fun last => (value, last), right.2)
      else (freeMap, some right, second)

/-- The merge with the segment before the iterator, or a new entry. -/
def mergeLeft (freeMap : OrderedMap UInt32 UInt32) (freeIndex : Option PortPair)
    (first second : UInt32) : OrderedMap UInt32 UInt32 :=
  match freeMap.prev freeIndex with
  | none => freeMap.insert first second
  | some left =>
      if left.2 = first then freeMap.insert left.1 second else freeMap.insert first second

/-- `deallocate(p)`; `junk` is what `free_index->first` yields at `end()`. -/
def deallocate (p junk : UInt32) : Action PortError PortManager Unit := do
  let m ← Action.get
  match m.allocated.find? p with
  | none => Action.throw (.badPort p)
  | some second =>
      let freeIndex := m.freeMap.upperBound p
      let value := (freeIndex.map Prod.fst).getD junk
      let (freeMap, freeIndex, second) := mergeRight m.freeMap freeIndex value second
      Action.modify fun m => { m with
        freeMap := mergeLeft freeMap freeIndex p second
        allocated := m.allocated.erase p }

/-- `report_fragment(upto)`. -/
def reportFragment (m : PortManager) (upto : UInt32) : ℕ :=
  m.freeMap.entries.countP fun e => e.2 - e.1 ≤ upto

/-! ## Calls -/

/-- A call of one of the three operations that change the maps. -/
inductive Call
  | allocate (cnt : UInt32)
  | allocateExact (lo hi : UInt32)
  | deallocate (p junk : UInt32)

/-- The manager after a call, whether the call returned or threw. -/
def Call.perform (call : Call) (m : PortManager) : PortManager :=
  match call with
  | allocate cnt => (PortManager.allocate cnt m).2
  | allocateExact lo hi => (PortManager.allocateExact lo hi m).2
  | deallocate p junk => (PortManager.deallocate p junk m).2

/-- The manager after a sequence of calls. -/
def afterCalls (m : PortManager) (calls : List Call) : PortManager :=
  calls.foldl (fun m call => call.perform m) m

end PortManager

end Libport
