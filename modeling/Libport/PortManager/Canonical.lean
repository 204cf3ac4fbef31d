import Libport.PortManager.Complete

/-!
# The free map is the set of gaps

`free_map_` is meant to be what `allocated_` leaves of the range, cut into as few segments as
possible.  Then it does not depend on how the manager came to its present allocations.

* `canonical_iff`: for one state, this is so exactly when no two free segments touch.
* **`freeMap_canonical_iff`**: the free map is canonical throughout a run if and only if no step of
  the run splits; runs of this kind that end with the same allocations end with the same free map,
  and with nothing allocated the whole range is one segment again.
* `freeMap_history`: two runs with the same allocations and different free maps.
-/

namespace Libport

namespace PortManager

variable {m : PortManager} {low high : UInt32}

/-- The free segments are the gaps that the allocated ones leave, and none of them touch. -/
structure Canonical (m : PortManager) (low high : UInt32) : Prop where
  gaps : ∀ s, s ∈ m.freeMap.entries ↔ Gap m.allocated.entries low high s
  coalesced : Coalesced m.freeMap.entries

lemma canonical_iff (hm : Tiles m.segments low high) :
    Canonical m low high ↔ Coalesced m.freeMap.entries := by
  constructor
  · intro h
    exact h.coalesced
  · intro h
    exact ⟨hm.coalesced_iff_gap.mp h, h⟩

/-- The allocations determine a canonical free map. -/
lemma Canonical.freeMap_eq {m' : PortManager} (hm : Canonical m low high)
    (hm' : Canonical m' low high) (h : m.allocated = m'.allocated) : m.freeMap = m'.freeMap := by
  refine OrderedMap.ext_mem fun s => ?_
  rw [hm.gaps s, hm'.gaps s, h]

/-- Without allocations the only gap is the whole range. -/
lemma Canonical.freeMap_whole (hrange : low < high) (hm : Canonical m low high)
    (h : m.allocated = .empty) : m.freeMap = (new low high).freeMap := by
  have hnew : Canonical (new low high) low high :=
    (canonical_iff (Accounted.new hrange).tiles).mpr (Coalesced.single hrange)
  exact hm.freeMap_eq hnew h

/-! ## Runs -/

/-- No step of the run leaves free segments that touch. -/
def Unsplit (low high : UInt32) (calls : List Call) : Prop :=
  ∀ done call, done ++ [call] <+: calls → ¬ call.Splits ((new low high).afterCalls done)

variable {calls : List Call}

/-- In a run without a step that splits, every state is canonical. -/
lemma canonical_upTo (hrange : low < high) (hcalls : ∀ call ∈ calls, call.WellFormed)
    (hsteps : Unsplit low high calls) {done : List Call} (hdone : done <+: calls) :
    Canonical ((new low high).afterCalls done) low high :=
  (canonical_iff (accounted_upTo hrange hcalls hdone).tiles).mpr
    (coalesced_of_no_split hrange hcalls hsteps hdone)

/-- **When the free map is canonical.**  It is in every state of a run if and only if no step of
the run splits.  Where two runs have no such step and end with the same allocations, they end with
the same free map and report the same fragments; where nothing is allocated at the end, the whole
range is free in one segment. -/
theorem freeMap_canonical_iff (low high : UInt32) (hrange : low < high) (calls : List Call)
    (hcalls : ∀ call ∈ calls, call.WellFormed) :
    ((∀ done, done <+: calls → Canonical ((new low high).afterCalls done) low high) ↔
        Unsplit low high calls) ∧
      (Unsplit low high calls →
        (∀ calls', (∀ call ∈ calls', call.WellFormed) → Unsplit low high calls' →
          ((new low high).afterCalls calls).allocated
            = ((new low high).afterCalls calls').allocated →
          ((new low high).afterCalls calls).freeMap
              = ((new low high).afterCalls calls').freeMap ∧
            ∀ upto, ((new low high).afterCalls calls).reportFragment upto
              = ((new low high).afterCalls calls').reportFragment upto) ∧
        (((new low high).afterCalls calls).allocated.entries = [] →
          ((new low high).afterCalls calls).freeMap.entries = [(low, high)])) := by
  refine ⟨⟨?_, fun hsteps done => canonical_upTo hrange hcalls hsteps⟩, fun hsteps => ⟨?_, ?_⟩⟩
  · intro h done call hdone
    have hshort : done <+: calls := (List.prefix_append done [call]).trans hdone
    have hfree := (h done hshort).coalesced
    exact (perform_coalesced_upTo hrange hcalls hdone hfree).mp (h _ hdone).coalesced
  · intro calls' hcalls' hsteps' hsame
    have hcanon := canonical_upTo hrange hcalls hsteps List.prefix_rfl
    have hcanon' := canonical_upTo hrange hcalls' hsteps' List.prefix_rfl
    have heq := hcanon.freeMap_eq hcanon' hsame
    exact ⟨heq, fun upto => by simp only [reportFragment, heq]⟩
  · intro hnone
    have hcanon := canonical_upTo hrange hcalls hsteps List.prefix_rfl
    have hempty : ((new low high).afterCalls calls).allocated = .empty :=
      OrderedMap.ext_mem fun e => by rw [hnone, OrderedMap.empty]
    rw [hcanon.freeMap_whole hrange hempty]
    rfl

/-- A segment taken and given back. -/
theorem freeMap_canonical_returned :
    let calls : List Call := [.allocateExact 2 4, .deallocate 2 0]
    Unsplit 1 6 calls ∧ ((new 1 6).afterCalls calls).freeMap.entries = [(1, 6)] := by
  have hcalls : ∀ call ∈ [Call.allocateExact 2 4, .deallocate 2 0], call.WellFormed := by
    intro call hcall
    simp only [List.mem_cons, List.not_mem_nil, or_false] at hcall
    rcases hcall with rfl | rfl
    · exact (show (2 : UInt32) < 4 by decide)
    · trivial
  have hsteps : Unsplit 1 6 [.allocateExact 2 4, .deallocate 2 0] := by
    refine forall_steps_cons id (forall_steps_cons ?_ forall_steps_nil)
    rintro ⟨right, hfind, hmiss⟩
    have hright : some 4 = some right := hfind
    cases hright
    exact absurd hmiss (by decide)
  exact ⟨hsteps, ((freeMap_canonical_iff 1 6 (by decide) _ hcalls).2 hsteps).2 rfl⟩

/-- Two runs that leave port 4 allocated, one with the free segments `[1, 2)`, `[2, 4)` and
`[5, 6)`, the other with `[1, 4)` and `[5, 6)`.  After port 4 is given back too, the first has the
range free in two segments. -/
theorem freeMap_history :
    let split : List Call := splittingRun
    let whole : List Call := [.allocateExact 4 5]
    let back : List Call := splittingRun ++ [.deallocate 4 0]
    (∀ call ∈ split ++ whole ++ back, call.WellFormed) ∧
      ((new 1 6).afterCalls split).allocated = ((new 1 6).afterCalls whole).allocated ∧
      ((new 1 6).afterCalls split).freeMap ≠ ((new 1 6).afterCalls whole).freeMap ∧
      ((new 1 6).afterCalls back).allocated.entries = [] ∧
      ((new 1 6).afterCalls back).freeMap.entries = [(1, 2), (2, 6)] := by
  refine ⟨?_, OrderedMap.ext_mem fun e => Iff.rfl, fun heq => ?_, rfl, rfl⟩
  · intro call hcall
    simp only [List.mem_append, List.mem_singleton] at hcall
    rcases hcall with (hsplit | rfl) | hsplit | rfl
    · exact splittingRun_wellFormed call hsplit
    · exact (show (4 : UInt32) < 5 by decide)
    · exact splittingRun_wellFormed call hsplit
    · trivial
  · have hlen : 3 = 2 := congrArg (fun free => free.entries.length) heq
    exact absurd hlen (by decide)

end PortManager

end Libport
