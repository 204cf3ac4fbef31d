import Mathlib.Tactic

/-!
# Linearization

Operations that overlap in time, and an order in which they could have been taken one by one.

* `SharedObject`: what an operation makes of the state, where its answer fits, and when it took
  place.
* `Legal`: every operation of a list fits where the ones before it lead to.
* `RealTime`: an operation that ended before another one started comes before it.
* `Linearizes`: a list is such an order of the operations observed.
* **`Linearizes.concat`**: an operation that takes effect when it ends comes last.
* **`Linearizes.insert`**: an operation that shows nothing comes before one that started later and
  writes over it, however long ago that was.
* `Since`: an element of a list with only elements of a kind behind it.
-/

namespace Libport

variable {σ α : Type}

/-- A sequential object, and the times of the operations on it. -/
structure SharedObject (σ α : Type) where
  effect : σ → α → σ
  /-- the operation may be taken in the state, with the answer it got -/
  Allowed : σ → α → Prop
  start : α → ℕ
  finish : α → ℕ

namespace SharedObject

variable (O : SharedObject σ α)

def replay (s : σ) (ops : List α) : σ := ops.foldl O.effect s

def Legal (s : σ) : List α → Prop
  | [] => True
  | a :: rest => O.Allowed s a ∧ Legal (O.effect s a) rest

def RealTime (ops : List α) : Prop := ops.Pairwise fun a b => O.start a ≤ O.finish b

structure Linearizes (s : σ) (observed order : List α) : Prop where
  perm : order.Perm observed
  realTime : O.RealTime order
  legal : O.Legal s order

variable {O} {s : σ} {a b : α} {front back order observed : List α}

@[simp] lemma replay_nil : O.replay s [] = s := rfl

@[simp] lemma replay_concat : O.replay s (order ++ [a]) = O.effect (O.replay s order) a := by
  simp [replay]

lemma legal_append {more : List α} :
    O.Legal s (order ++ more) ↔ O.Legal s order ∧ O.Legal (O.replay s order) more := by
  induction order generalizing s with
  | nil => simp [Legal]
  | cons c rest ih => rw [List.cons_append, Legal, Legal, ih, and_assoc, replay, replay,
      List.foldl_cons]

/-- The operation before `b` is overwritten by it. -/
lemma replay_insert
    (hover : O.effect (O.effect (O.replay s front) a) b = O.effect (O.replay s front) b) :
    O.replay s (front ++ a :: b :: back) = O.replay s (front ++ b :: back) := by
  rw [replay, replay, List.foldl_append, List.foldl_append, List.foldl_cons, List.foldl_cons,
    List.foldl_cons]
  exact congrArg (fun t => back.foldl O.effect t) hover

lemma linearizes_nil : O.Linearizes s [] [] where
  perm := List.Perm.refl _
  realTime := List.Pairwise.nil
  legal := trivial

/-- **The effect at the end.** -/
lemma Linearizes.concat (h : O.Linearizes s observed order)
    (hnow : ∀ c ∈ observed, O.start c ≤ O.finish a) (hallowed : O.Allowed (O.replay s order) a) :
    O.Linearizes s (observed ++ [a]) (order ++ [a]) where
  perm := h.perm.append_right _
  realTime := by
    refine List.pairwise_append.mpr ⟨h.realTime, List.pairwise_singleton _ _, ?_⟩
    intro c hc c' hc'
    rw [List.mem_singleton.mp hc']
    exact hnow c (h.perm.mem_iff.mp hc)
  legal := legal_append.mpr ⟨h.legal, hallowed, trivial⟩

/-- **The effect before another one that hides it.** -/
lemma Linearizes.insert (h : O.Linearizes s observed (front ++ b :: back))
    (hnow : ∀ c ∈ observed, O.start c ≤ O.finish a) (hstart : O.start a ≤ O.start b)
    (hspan : O.start b ≤ O.finish b) (hallowed : O.Allowed (O.replay s front) a)
    (hover : O.effect (O.effect (O.replay s front) a) b = O.effect (O.replay s front) b)
    (hstill : O.Allowed (O.replay s front) b → O.Allowed (O.effect (O.replay s front) a) b) :
    O.Linearizes s (observed ++ [a]) (front ++ a :: b :: back) where
  perm := by
    have hfirst : (front ++ a :: b :: back).Perm (a :: (front ++ b :: back)) :=
      List.perm_middle
    exact (hfirst.trans (h.perm.cons a)).trans (List.perm_append_singleton a observed).symm
  realTime := by
    obtain ⟨hfront, hback, hacross⟩ := List.pairwise_append.mp h.realTime
    have hafter := List.pairwise_cons.mp hback
    refine List.pairwise_append.mpr ⟨hfront, List.pairwise_cons.mpr ⟨?_, hback⟩, ?_⟩
    · -- what comes after `b` ended after `b` started, and so after `a` did
      intro c hc
      rcases List.mem_cons.mp hc with rfl | hc
      · exact hstart.trans hspan
      · exact hstart.trans (hafter.1 c hc)
    · intro c hc c' hc'
      rcases List.mem_cons.mp hc' with rfl | hc'
      · exact hnow c (h.perm.mem_iff.mp (List.mem_append_left _ hc))
      · exact hacross c hc c' hc'
  legal := by
    obtain ⟨hfront, hb, hback⟩ := legal_append.mp h.legal
    exact legal_append.mpr ⟨hfront, hallowed, hstill hb, by rwa [hover]⟩

end SharedObject

/-! ## What has happened since -/

/-- The element is in the list, and all elements behind it are of the kind. -/
def Since (P : α → Prop) (a : α) (l : List α) : Prop :=
  ∃ front back, l = front ++ a :: back ∧ ∀ b ∈ back, P b

namespace Since

variable {P : α → Prop} {a b c : α} {l front back : List α}

lemma last : Since P a (l ++ [a]) := ⟨l, [], rfl, nofun⟩

lemma concat (h : Since P a l) (hb : P b) : Since P a (l ++ [b]) := by
  obtain ⟨front, back, rfl, hback⟩ := h
  refine ⟨front, back ++ [b], by simp, ?_⟩
  exact List.forall_mem_append.mpr ⟨hback, List.forall_mem_singleton.mpr hb⟩

/-- An element of the kind in the middle of the list. -/
lemma insert (h : Since P c (front ++ back)) (ha : P a) : Since P c (front ++ a :: back) := by
  obtain ⟨front', back', heq, hback'⟩ := h
  rcases List.append_eq_append_iff.mp heq with ⟨mid, rfl, rfl⟩ | ⟨mid, rfl, hmid⟩
  · -- the element is behind the place
    exact ⟨front ++ a :: mid, back', by simp, hback'⟩
  · cases mid with
    | nil =>
        obtain rfl : back = c :: back' := hmid.symm
        exact ⟨front' ++ [a], back', by simp, hback'⟩
    | cons d mid =>
        obtain ⟨rfl, rfl⟩ := List.cons.inj hmid
        obtain ⟨hmid, hback⟩ := List.forall_mem_append.mp hback'
        refine ⟨front', mid ++ a :: back, by simp, ?_⟩
        exact List.forall_mem_append.mpr ⟨hmid, List.forall_mem_cons.mpr ⟨ha, hback⟩⟩

end Since

end Libport
