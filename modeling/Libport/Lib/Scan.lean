import Mathlib.Tactic

/-!
# Scans

One pass over a list that keeps a candidate.  The first element with `first` becomes the
candidate, and every later element that is `better` than the candidate replaces it.

* `scan_none`: nothing is found where no element could be the first.
* **`scan_induction`**: what the first candidate has and each later element keeps holds of what is
  found and the elements seen.
* `scan_stay` and `scan_within`: stretches of a list that leave the candidate alone, or keep it
  among elements of one kind.
-/

namespace Libport

namespace Scan

variable {α : Type} (first : α → Bool) (better : α → α → Bool)

def step (found : Option α) (a : α) : Option α :=
  match found with
  | none => if first a then some a else none
  | some f => if better f a then some a else some f

def scan (found : Option α) (xs : List α) : Option α := xs.foldl (step first better) found

variable {first better} {found : Option α} {f : α} {xs ys : List α}

lemma scan_append :
    scan first better found (xs ++ ys) = scan first better (scan first better found xs) ys :=
  List.foldl_append

lemma scan_none (h : ∀ x ∈ xs, first x = false) : scan first better none xs = none := by
  induction xs with
  | nil => rfl
  | cons x rest ih =>
      obtain ⟨hx, hrest⟩ := List.forall_mem_cons.mp h
      rw [scan, List.foldl_cons, step, hx]
      exact ih hrest

/-- A stretch without a better element. -/
lemma scan_stay (h : ∀ x ∈ xs, better f x = false) : scan first better (some f) xs = some f := by
  induction xs with
  | nil => rfl
  | cons x rest ih =>
      obtain ⟨hx, hrest⟩ := List.forall_mem_cons.mp h
      rw [scan, List.foldl_cons, step, hx]
      exact ih hrest

/-- A stretch of elements of one kind. -/
lemma scan_within {P : α → Prop} (hf : P f) (h : ∀ x ∈ xs, P x) :
    ∃ g, scan first better (some f) xs = some g ∧ P g := by
  induction xs generalizing f with
  | nil => exact ⟨f, rfl, hf⟩
  | cons x rest ih =>
      obtain ⟨hx, hrest⟩ := List.forall_mem_cons.mp h
      rw [scan, List.foldl_cons, step]
      split_ifs
      · exact ih hx hrest
      · exact ih hf hrest

/-- The same from the beginning, when each of them could be the first. -/
lemma scan_start {P : α → Prop} (hne : xs ≠ []) (hfirst : ∀ x ∈ xs, first x = true)
    (h : ∀ x ∈ xs, P x) : ∃ g, scan first better none xs = some g ∧ P g := by
  cases xs with
  | nil => exact absurd rfl hne
  | cons x rest =>
      obtain ⟨hx, hrest⟩ := List.forall_mem_cons.mp h
      rw [scan, List.foldl_cons, step, hfirst x List.mem_cons_self]
      exact scan_within hx hrest

/-- **The induction rule of a scan.** -/
lemma scan_induction {I : List α → α → Prop}
    (hfirst : ∀ seen a, a ∈ xs → (∀ x ∈ seen, first x = false) → first a = true →
      I (seen ++ [a]) a)
    (hbetter : ∀ seen f a, a ∈ xs → I seen f → better f a = true → I (seen ++ [a]) a)
    (hkeep : ∀ seen f a, a ∈ xs → I seen f → better f a = false → I (seen ++ [a]) f) :
    (scan first better none xs = none ∧ ∀ x ∈ xs, first x = false) ∨
      ∃ f, scan first better none xs = some f ∧ I xs f := by
  -- the elements seen so far are a part of `xs`
  suffices hseen : ∀ seen : List α, (∀ x ∈ seen, x ∈ xs) →
      (scan first better none seen = none ∧ ∀ x ∈ seen, first x = false) ∨
        ∃ f, scan first better none seen = some f ∧ I seen f from hseen xs fun _ hx => hx
  intro seen
  induction seen using List.reverseRecOn with
  | nil => exact fun _ => Or.inl ⟨rfl, by simp⟩
  | append_singleton seen a ih =>
      intro hsub
      obtain ⟨hfront, hlast⟩ := List.forall_mem_append.mp hsub
      have ha : a ∈ xs := hlast a List.mem_cons_self
      rw [scan_append]
      rcases ih hfront with ⟨hnone, hall⟩ | ⟨f, hsome, hI⟩
      · rw [hnone, scan, List.foldl_cons, List.foldl_nil, step]
        cases hcase : first a with
        | true => exact Or.inr ⟨a, rfl, hfirst seen a ha hall hcase⟩
        | false =>
            refine Or.inl ⟨rfl, List.forall_mem_append.mpr ⟨hall, ?_⟩⟩
            simpa using hcase
      · rw [hsome, scan, List.foldl_cons, List.foldl_nil, step]
        cases hcase : better f a with
        | true => exact Or.inr ⟨a, rfl, hbetter seen f a ha hI hcase⟩
        | false => exact Or.inr ⟨f, rfl, hkeep seen f a ha hI hcase⟩

end Scan

end Libport
