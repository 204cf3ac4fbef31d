import Mathlib.Tactic

/-!
# Pumps

A loop that repeats a call until a given size has been moved.  Each call moves some amount, finds
the other side closed, or fails; some failures only ask to be repeated.  What an amount is and
what moving it does to the state are parameters: `len` measures an amount, `move` moves one at
the place the pointer has reached, `again` tells the failures that are repeated.

* **`pump_append`**: calls that do not stop the loop move what they say, one behind the other.
* `exists_cut`: calls that never move more than is asked for are cut where the loop ends.
* **`pump_done_iff`**: the loop is done exactly when calls that do not stop it move the whole size.
* `pump_not_done`: otherwise less than that was moved, and the loop waits or a call stopped it.
-/

namespace Libport

namespace Pump

/-- How one call ends. -/
inductive Result (α ε : Type)
  | moved (amount : α)
  | failed (e : ε)

/-- How the loop ends, or that it waits for its next call to end. -/
inductive Outcome (ε : Type)
  | waiting
  | done
  | closed
  | failed (e : ε)

variable {α ε σ : Type} (len : α → ℕ) (again : ε → Bool) (move : ℕ → α → σ → σ)

def pump (pointer : ℕ) (size : ℤ) (state : σ) : List (Result α ε) → Outcome ε × σ
  | [] => if 0 < size then (.waiting, state) else (.done, state)
  | .failed e :: rest =>
      if 0 < size then
        if again e then pump pointer size state rest else (.failed e, state)
      else (.done, state)
  | .moved a :: rest =>
      if 0 < size then
        if len a = 0 then (.closed, state)
        else pump (pointer + len a) (size - len a) (move pointer a state) rest
      else (.done, state)

/-- The call ends the loop before its size is moved. -/
def Result.Stops : Result α ε → Prop
  | moved a => len a = 0
  | failed e => again e = false

/-- The end a stopping call brings about. -/
def Result.outcome : Result α ε → Outcome ε
  | moved _ => .closed
  | failed e => .failed e

def Quiet (results : List (Result α ε)) : Prop := ∀ r ∈ results, ¬ r.Stops len again

/-- What the calls move together. -/
def total : List (Result α ε) → ℕ
  | [] => 0
  | .moved a :: rest => len a + total rest
  | .failed _ :: rest => total rest

/-- The amounts moved one behind the other. -/
def moves (pointer : ℕ) (state : σ) : List (Result α ε) → σ
  | [] => state
  | .moved a :: rest => moves (pointer + len a) (move pointer a state) rest
  | .failed _ :: rest => moves pointer state rest

/-- No call the loop makes moves more than it is asked for. -/
def Legal : ℤ → List (Result α ε) → Prop
  | _, [] => True
  | size, .moved a :: rest =>
      0 < size → (len a : ℤ) ≤ size ∧ (0 < len a → Legal (size - len a) rest)
  | size, .failed e :: rest => again e = true → Legal size rest

variable {len again} {pointer : ℕ} {size : ℤ} {state : σ}
  {results before after : List (Result α ε)}

lemma pump_of_nonpos (h : size ≤ 0) :
    pump len again move pointer size state results = (.done, state) := by
  have hsize : ¬ 0 < size := by omega
  rcases results with _ | ⟨_ | _, _⟩ <;> rw [pump, if_neg hsize]

lemma quiet_cons {r : Result α ε} :
    Quiet len again (r :: results) ↔ ¬ r.Stops len again ∧ Quiet len again results :=
  List.forall_mem_cons

/-- When the size is moved already, a quiet call that moves nothing changes nothing. -/
lemma moves_of_total_zero (hquiet : Quiet len again before) (h : total len before = 0) :
    moves len move pointer state before = state := by
  induction before with
  | nil => rfl
  | cons r rest ih =>
      obtain ⟨hr, hrest⟩ := quiet_cons.mp hquiet
      cases r with
      | failed e => exact ih hrest h
      | moved a =>
          rw [total] at h
          exact absurd (show len a = 0 by omega) hr

/-- **The step rule over a quiet stretch.** -/
lemma pump_append (hquiet : Quiet len again before) (htotal : (total len before : ℤ) ≤ size) :
    pump len again move pointer size state (before ++ after)
      = pump len again move (pointer + total len before) (size - total len before)
          (moves len move pointer state before) after := by
  induction before generalizing pointer size state with
  | nil => simp [total, moves]
  | cons r rest ih =>
      obtain ⟨hr, hrest⟩ := quiet_cons.mp hquiet
      by_cases hsize : 0 < size
      · cases r with
        | failed e =>
            have hagain : again e = true := by simpa [Result.Stops] using hr
            rw [List.cons_append, pump, if_pos hsize, if_pos hagain]
            exact ih hrest htotal
        | moved a =>
            have hlen : ¬ len a = 0 := hr
            rw [total] at htotal ⊢
            rw [List.cons_append, pump, if_pos hsize, if_neg hlen, ih hrest (by omega), moves,
              Nat.add_assoc, Nat.cast_add, Int.sub_sub]
      · have hzero : total len (r :: rest) = 0 := by omega
        rw [hzero, moves_of_total_zero move hquiet hzero, pump_of_nonpos move (by omega),
          pump_of_nonpos move (by omega)]

/-! ## How a loop ends -/

lemma pump_done (hquiet : Quiet len again before) (htotal : (total len before : ℤ) = size) :
    pump len again move pointer size state (before ++ after)
      = (.done, moves len move pointer state before) := by
  rw [pump_append move hquiet htotal.le, pump_of_nonpos move (by omega)]

lemma pump_waiting (hquiet : Quiet len again before) (htotal : (total len before : ℤ) < size) :
    pump len again move pointer size state before
      = (.waiting, moves len move pointer state before) := by
  have happend := @pump_append _ _ _ len again move pointer size state before [] hquiet htotal.le
  rw [List.append_nil] at happend
  rw [happend, pump, if_pos (by omega)]

lemma pump_stopped {stop : Result α ε} (hquiet : Quiet len again before)
    (htotal : (total len before : ℤ) < size) (hstop : stop.Stops len again) :
    pump len again move pointer size state (before ++ stop :: after)
      = (stop.outcome, moves len move pointer state before) := by
  rw [pump_append move hquiet htotal.le]
  cases stop with
  | moved a =>
      have hlen : len a = 0 := hstop
      rw [pump, if_pos (by omega), if_pos hlen]
      rfl
  | failed e =>
      have hagain : again e = false := hstop
      rw [pump, if_pos (by omega), hagain]
      rfl

/-- **Where the loop ends**: at the first quiet stretch that moves the whole size, or before it
at the end of the results or at a call that stops. -/
lemma exists_cut (hsize : 0 ≤ size) (hlegal : Legal len again size results) :
    ∃ before after, results = before ++ after ∧ Quiet len again before ∧
      ((total len before : ℤ) = size ∨ (total len before : ℤ) < size ∧
        (after = [] ∨ ∃ stop rest, after = stop :: rest ∧ stop.Stops len again)) := by
  obtain rfl | hpos : size = 0 ∨ 0 < size := by omega
  · exact ⟨[], results, rfl, by simp [Quiet], Or.inl rfl⟩
  induction results generalizing size with
  | nil => exact ⟨[], [], rfl, by simp [Quiet], Or.inr ⟨hpos, Or.inl rfl⟩⟩
  | cons r rest ih =>
      by_cases hr : r.Stops len again
      · exact ⟨[], r :: rest, rfl, by simp [Quiet], Or.inr ⟨hpos, Or.inr ⟨r, rest, rfl, hr⟩⟩⟩
      -- the loop goes on: a longer cut is one of the remaining calls
      cases r with
      | failed e =>
          have hagain : again e = true := by simpa [Result.Stops] using hr
          obtain ⟨before, after, rfl, hquiet, hend⟩ := ih hsize (hlegal hagain) hpos
          exact ⟨.failed e :: before, after, rfl, quiet_cons.mpr ⟨hr, hquiet⟩, hend⟩
      | moved a =>
          have hlen : ¬ len a = 0 := hr
          obtain ⟨hle, hlater⟩ := hlegal hpos
          obtain heq | hless : (len a : ℤ) = size ∨ (len a : ℤ) < size := by omega
          · refine ⟨[.moved a], rest, rfl, quiet_cons.mpr ⟨hr, by simp [Quiet]⟩, Or.inl ?_⟩
            simpa [total] using heq
          · obtain ⟨before, after, rfl, hquiet, hend⟩ :=
              ih (by omega) (hlater (by omega)) (by omega)
            refine ⟨.moved a :: before, after, rfl, quiet_cons.mpr ⟨hr, hquiet⟩, ?_⟩
            rw [total, Nat.cast_add]
            rcases hend with hall | ⟨hpart, hafter⟩
            · exact Or.inl (by omega)
            · exact Or.inr ⟨by omega, hafter⟩

/-- **When the loop is not done**, the size has not been moved. -/
lemma pump_not_done (hsize : 0 ≤ size) (hlegal : Legal len again size results)
    (hend : (pump len again move pointer size state results).1 ≠ .done) :
    ∃ before after, results = before ++ after ∧ Quiet len again before ∧
      (total len before : ℤ) < size ∧
      (pump len again move pointer size state results).2 = moves len move pointer state before ∧
      ((pump len again move pointer size state results).1 = .waiting ∧ after = [] ∨
        ∃ stop rest, after = stop :: rest ∧ stop.Stops len again ∧
          (pump len again move pointer size state results).1 = stop.outcome) := by
  obtain ⟨before, after, rfl, hquiet, hall | ⟨hpart, hafter⟩⟩ := exists_cut hsize hlegal
  · rw [pump_done move hquiet hall] at hend
    exact absurd rfl hend
  · refine ⟨before, after, rfl, hquiet, hpart, ?_⟩
    obtain rfl | ⟨stop, rest, rfl, hstop⟩ := hafter
    · rw [List.append_nil, pump_waiting move hquiet hpart]
      exact ⟨rfl, Or.inl ⟨rfl, rfl⟩⟩
    · rw [pump_stopped move hquiet hpart hstop]
      exact ⟨rfl, Or.inr ⟨stop, rest, rfl, hstop, rfl⟩⟩

/-- **The loop is done exactly when its size is moved before a call stops it.** -/
lemma pump_done_iff (hsize : 0 ≤ size) (hlegal : Legal len again size results) :
    (pump len again move pointer size state results).1 = .done ↔
      ∃ before after, results = before ++ after ∧ Quiet len again before ∧
        (total len before : ℤ) = size := by
  constructor
  · intro hdone
    obtain ⟨before, after, rfl, hquiet, hall | ⟨hpart, hafter⟩⟩ := exists_cut hsize hlegal
    · exact ⟨before, after, rfl, hquiet, hall⟩
    · obtain rfl | ⟨stop, rest, rfl, hstop⟩ := hafter
      · rw [List.append_nil, pump_waiting move hquiet hpart] at hdone
        cases hdone
      · rw [pump_stopped move hquiet hpart hstop] at hdone
        cases stop <;> cases hdone
  · rintro ⟨before, after, rfl, hquiet, hall⟩
    rw [pump_done move hquiet hall]

end Pump

end Libport
