import Mathlib.Tactic
import Libport.Lib.OrderedMap

/-!
# Ledgers

A table whose rows are opened and closed, and the log of what was opened and closed since it was
empty.  A row is live when the log opened it and has not closed its key since.

* `live_opened`, `live_closed`: what one more entry of the log does to the live rows.
* `Records`: an ordered map that holds exactly the live rows.
* **`Records.insert`** and **`Records.erase`**: a map that is changed together with its log keeps
  recording it.
-/

namespace Libport

namespace Ledger

/-- An entry of the log. -/
inductive Entry (κ ν : Type)
  | opened (k : κ) (v : ν)
  | closed (k : κ)

variable {κ ν : Type} {log : List (Entry κ ν)} {k k' : κ} {v v' : ν}

/-- The row was opened, and its key has not been closed since. -/
def Live (log : List (Entry κ ν)) (k : κ) (v : ν) : Prop :=
  ∃ before after, log = before ++ .opened k v :: after ∧ Entry.closed k ∉ after

lemma not_live_nil : ¬ Live ([] : List (Entry κ ν)) k v := by
  rintro ⟨before, after, hlog, -⟩
  simp at hlog

/-- A live row of a longer log: the last entry opened it, or it was live and stays so. -/
lemma live_concat {e : Entry κ ν} :
    Live (log ++ [e]) k v ↔ e = .opened k v ∨ Live log k v ∧ e ≠ .closed k := by
  constructor
  · rintro ⟨before, after, hlog, hafter⟩
    rcases List.eq_nil_or_concat after with rfl | ⟨front, last, rfl⟩
    · have hlast := (List.append_inj' hlog rfl).2
      simp only [List.cons.injEq, and_true] at hlast
      exact Or.inl hlast
    · have hsplit : log ++ [e] = (before ++ .opened k v :: front) ++ [last] := by simpa using hlog
      obtain ⟨hfront, hlast⟩ := List.append_inj' hsplit rfl
      simp only [List.cons.injEq, and_true] at hlast
      simp only [List.concat_eq_append, List.mem_append, List.mem_singleton, not_or] at hafter
      exact Or.inr ⟨⟨before, front, hfront, hafter.1⟩, hlast ▸ Ne.symm hafter.2⟩
  · rintro (rfl | ⟨⟨before, after, rfl, hafter⟩, hne⟩)
    · exact ⟨log, [], rfl, List.not_mem_nil⟩
    · refine ⟨before, after ++ [e], by simp, ?_⟩
      simp only [List.mem_append, List.mem_singleton, not_or]
      exact ⟨hafter, Ne.symm hne⟩

lemma live_opened : Live (log ++ [.opened k v]) k' v' ↔ (k', v') = (k, v) ∨ Live log k' v' := by
  simp [live_concat, eq_comm]

lemma live_closed : Live (log ++ [.closed k]) k' v' ↔ Live log k' v' ∧ k' ≠ k := by
  simp [live_concat, eq_comm]

variable [LinearOrder κ] {m : OrderedMap κ ν}

/-- The entries of the map are the live rows of the log. -/
def Records (m : OrderedMap κ ν) (log : List (Entry κ ν)) : Prop :=
  ∀ k v, (k, v) ∈ m.entries ↔ Live log k v

lemma Records.empty : Records (OrderedMap.empty : OrderedMap κ ν) [] := by
  intro k v
  simp [OrderedMap.empty, not_live_nil]

/-- **A fresh row, inserted and logged.** -/
lemma Records.insert (h : Records m log) (hfresh : ∀ e ∈ m.entries, e.1 ≠ k) (v : ν) :
    Records (m.insert k v) (log ++ [.opened k v]) := by
  intro k' v'
  rw [(OrderedMap.entries_insert_fresh hfresh v).mem_iff, List.mem_cons, live_opened, h k' v']

/-- **A row, erased and logged.** -/
lemma Records.erase (h : Records m log) (k : κ) :
    Records (m.erase k) (log ++ [.closed k]) := by
  intro k' v'
  rw [OrderedMap.mem_erase, live_closed, h k' v']

end Ledger

end Libport
