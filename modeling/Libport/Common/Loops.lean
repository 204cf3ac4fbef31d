import Libport.Lib.Pump
import Libport.Common.Transfer

/-!
# The transfer loops in memory (`common/utils.cc`)

`reliable_send` and `reliable_recv` with their moving pointer: what the kernel is handed from the
caller's buffer, and what it writes there.  Both are pumps; `recv` stores the bytes it returns
where the pointer stands, `send` hands over the bytes that stand there.

* `moves_store` and `moves_load`: a quiet stretch of calls acts like one call.
* **`reliable_exact`**: a loop returns `0` exactly when calls that do not stop it move as many
  bytes as asked for; `recv` has then written their concatenation and nothing else, `send` has
  handed over the whole buffer.  Otherwise only a prefix is moved.
* `reliableRecv_delivered` and `reliableSend_accepted`: the loops of `Libport.Common.Transfer`,
  which know the bytes and not the memory, are these.
-/

namespace Libport

namespace Loops

/-! ## Memory -/

abbrev Memory := ℕ → UInt8

namespace Memory

/-- The memory after `chunk` is written at `p`. -/
def store (p : ℕ) (chunk : List UInt8) (memory : Memory) : Memory := fun i =>
  if p ≤ i then chunk[i - p]?.getD (memory i) else memory i

/-- The `n` bytes at `p`. -/
def load (memory : Memory) (p n : ℕ) : List UInt8 := (List.range n).map fun i => memory (p + i)

variable {memory : Memory} {p : ℕ}

lemma store_nil : store p [] memory = memory := by
  funext i
  simp [store]

lemma store_append (chunk chunk' : List UInt8) :
    store (p + chunk.length) chunk' (store p chunk memory) = store p (chunk ++ chunk') memory := by
  funext i
  unfold store
  by_cases hp : p ≤ i
  · by_cases hchunk : p + chunk.length ≤ i
    · have hindex : i - p - chunk.length = i - (p + chunk.length) := by omega
      rw [if_pos hchunk, if_pos hp, if_pos hp, List.getElem?_append_right (by omega), hindex,
        List.getElem?_eq_none (show chunk.length ≤ i - p by omega), Option.getD_none]
    · rw [if_neg hchunk, if_pos hp, if_pos hp, List.getElem?_append_left (by omega)]
  · rw [if_neg (by omega), if_neg hp, if_neg hp]

lemma store_of_outside {chunk : List UInt8} {i : ℕ} (h : i < p ∨ p + chunk.length ≤ i) :
    store p chunk memory i = memory i := by
  unfold store
  split_ifs with hp
  · rw [List.getElem?_eq_none (by omega), Option.getD_none]
  · rfl

lemma load_store (chunk : List UInt8) : load (store p chunk memory) p chunk.length = chunk := by
  refine List.ext_getElem (by simp [load]) fun i hi hi' => ?_
  simp [load, store, hi']

lemma length_load (n : ℕ) : (load memory p n).length = n := by simp [load]

lemma load_add (m n : ℕ) : load memory p (m + n) = load memory p m ++ load memory (p + m) n := by
  unfold load
  rw [List.range_add, List.map_append, List.map_map]
  simp only [Function.comp_def, Nat.add_assoc]

lemma take_load {m n : ℕ} (h : m ≤ n) : (load memory p n).take m = load memory p m := by
  obtain ⟨k, rfl⟩ := Nat.exists_eq_add_of_le h
  rw [load_add, List.take_left' (length_load m)]

lemma drop_load {m n : ℕ} (h : m ≤ n) :
    (load memory p n).drop m = load memory (p + m) (n - m) := by
  obtain ⟨k, rfl⟩ := Nat.exists_eq_add_of_le h
  rw [load_add, List.drop_left' (length_load m), Nat.add_sub_cancel_left]

end Memory

open Memory

/-! ## The loops -/

/-- The failure after which a call is repeated. -/
def again (e : Errno) : Bool := e = .eagain

lemma again_iff {e : Errno} : again e = true ↔ e = .eagain := decide_eq_true_iff

/-- The value a loop returns; none while it waits. -/
def retOf : Pump.Outcome Errno → Option ℤ
  | .waiting => none
  | .done => some 0
  | .closed => some unexpectedClose
  | .failed e => some e.code

/-- How one `recv` ends: with the bytes it returns (none of them when the other side has closed),
or with an error. -/
abbrev RecvResult := Pump.Result (List UInt8) Errno

/-- How one `send` ends: with the number of bytes it took, or with an error. -/
abbrev SendResult := Pump.Result ℕ Errno

/-- `reliable_recv`: the value returned, and the memory. -/
def reliableRecv (memory : Memory) (buffer : ℕ) (size : ℤ) (results : List RecvResult) :
    Option ℤ × Memory :=
  let run := Pump.pump List.length again store buffer size memory results
  (retOf run.1, run.2)

/-- `reliable_send`: the value returned, and the bytes the kernel took. -/
def reliableSend (memory : Memory) (buffer : ℕ) (size : ℤ) (results : List SendResult) :
    Option ℤ × List UInt8 :=
  let run := Pump.pump id again (fun p n handed => handed ++ load memory p n) buffer size []
    results
  (retOf run.1, run.2)

/-- The bytes that arrive. -/
def received (results : List RecvResult) : List UInt8 :=
  results.flatMap fun r => match r with
    | .moved chunk => chunk
    | .failed _ => []

lemma length_received (results : List RecvResult) :
    (received results).length = Pump.total List.length results := by
  induction results with
  | nil => rfl
  | cons r rest ih =>
      cases r with
      | moved chunk => simpa [received, Pump.total] using ih
      | failed e => simpa [received, Pump.total] using ih

/-- **Chunks written one behind the other** are one chunk. -/
lemma moves_store (memory : Memory) (p : ℕ) (results : List RecvResult) :
    Pump.moves List.length store p memory results = store p (received results) memory := by
  induction results generalizing p memory with
  | nil => exact store_nil.symm
  | cons r rest ih =>
      cases r with
      | failed e => exact ih memory p
      | moved chunk =>
          rw [Pump.moves, ih, store_append]
          rfl

lemma moves_load (memory : Memory) (p : ℕ) (handed : List UInt8) (results : List SendResult) :
    Pump.moves id (fun p n handed => handed ++ load memory p n) p handed results
      = handed ++ load memory p (Pump.total id results) := by
  induction results generalizing p handed with
  | nil => simp [Pump.moves, Pump.total, load]
  | cons r rest ih =>
      cases r with
      | failed e => exact ih p handed
      | moved n => rw [Pump.moves, ih, Pump.total, load_add, List.append_assoc, id]

lemma retOf_eq_zero {outcome : Pump.Outcome Errno} : retOf outcome = some 0 ↔ outcome = .done := by
  cases outcome with
  | failed e =>
      have hpos := e.pos
      simp only [retOf, Option.some.injEq, reduceCtorEq, iff_false]
      omega
  | _ => simp [retOf, unexpectedClose]

/-! ## What the loops do -/

/-- Exactly `bytes` were written at `buffer`, and nothing elsewhere. -/
structure Filled (memory : Memory) (buffer : ℕ) (bytes : List UInt8) (memory' : Memory) : Prop where
  inside : load memory' buffer bytes.length = bytes
  outside : ∀ i, i < buffer ∨ buffer + bytes.length ≤ i → memory' i = memory i

lemma filled_store (memory : Memory) (buffer : ℕ) (bytes : List UInt8) :
    Filled memory buffer bytes (store buffer bytes memory) :=
  ⟨load_store bytes, fun _ h => store_of_outside h⟩

/-- The loop that returned `ret` got no further than `before`: it waits for more results, or the
next call stopped it and `ret` says how. -/
def Ended {α : Type} (len : α → ℕ) (after : List (Pump.Result α Errno)) (ret : Option ℤ) : Prop :=
  ret = none ∧ after = [] ∨
    (∃ a rest, after = .moved a :: rest ∧ len a = 0 ∧ ret = some unexpectedClose) ∨
    ∃ e rest, after = .failed e :: rest ∧ e ≠ .eagain ∧ ret = some e.code

lemma ended_of_outcome {α : Type} {len : α → ℕ} {after : List (Pump.Result α Errno)}
    {outcome : Pump.Outcome Errno}
    (h : outcome = .waiting ∧ after = [] ∨
      ∃ stop rest, after = stop :: rest ∧ stop.Stops len again ∧ outcome = stop.outcome) :
    Ended len after (retOf outcome) := by
  rcases h with ⟨rfl, rfl⟩ | ⟨stop, rest, rfl, hstop, rfl⟩
  · exact Or.inl ⟨rfl, rfl⟩
  · cases stop with
    | moved a => exact Or.inr (Or.inl ⟨a, rest, rfl, hstop, rfl⟩)
    | failed e =>
        refine Or.inr (Or.inr ⟨e, rest, rfl, fun he => ?_, rfl⟩)
        have hstop' : again e = false := hstop
        rw [again_iff.mpr he] at hstop'
        cases hstop'

section
variable {memory : Memory} {buffer n : ℕ}

lemma reliableRecv_zero_iff {results : List RecvResult}
    (hlegal : Pump.Legal List.length again n results) :
    (reliableRecv memory buffer n results).1 = some 0 ↔
      ∃ before after, results = before ++ after ∧ Pump.Quiet List.length again before ∧
        (received before).length = n := by
  rw [reliableRecv, retOf_eq_zero, Pump.pump_done_iff store (Nat.cast_nonneg n) hlegal]
  simp only [length_received, Nat.cast_inj]

lemma reliableRecv_filled {before after : List RecvResult}
    (hquiet : Pump.Quiet List.length again before) (hlength : (received before).length = n) :
    Filled memory buffer (received before)
      (reliableRecv memory buffer n (before ++ after)).2 := by
  rw [length_received] at hlength
  rw [reliableRecv, Pump.pump_done store hquiet (by rw [hlength]), moves_store]
  exact filled_store _ _ _

lemma reliableRecv_partial {results : List RecvResult}
    (hlegal : Pump.Legal List.length again n results)
    (hret : (reliableRecv memory buffer n results).1 ≠ some 0) :
    ∃ before after, results = before ++ after ∧ Pump.Quiet List.length again before ∧
      (received before).length < n ∧
      Filled memory buffer (received before) (reliableRecv memory buffer n results).2 ∧
      Ended List.length after (reliableRecv memory buffer n results).1 := by
  obtain ⟨before, after, hsplit, hquiet, hpart, hstate, hend⟩ :=
    Pump.pump_not_done store (Nat.cast_nonneg n) hlegal fun hdone => hret (retOf_eq_zero.mpr hdone)
  refine ⟨before, after, hsplit, hquiet, ?_, ?_, ended_of_outcome hend⟩
  · rw [length_received]
    exact_mod_cast hpart
  · rw [moves_store] at hstate
    rw [reliableRecv, hstate]
    exact filled_store _ _ _

lemma reliableSend_zero_iff {results : List SendResult}
    (hlegal : Pump.Legal id again n results) :
    (reliableSend memory buffer n results).1 = some 0 ↔
      ∃ before after, results = before ++ after ∧ Pump.Quiet id again before ∧
        Pump.total id before = n := by
  rw [reliableSend, retOf_eq_zero, Pump.pump_done_iff _ (Nat.cast_nonneg n) hlegal]
  simp only [Nat.cast_inj]

lemma reliableSend_partial {results : List SendResult} (hlegal : Pump.Legal id again n results)
    (hret : (reliableSend memory buffer n results).1 ≠ some 0) :
    ∃ before after, results = before ++ after ∧ Pump.Quiet id again before ∧
      Pump.total id before < n ∧
      (reliableSend memory buffer n results).2 = load memory buffer (Pump.total id before) ∧
      Ended id after (reliableSend memory buffer n results).1 := by
  obtain ⟨before, after, hsplit, hquiet, hpart, hstate, hend⟩ :=
    Pump.pump_not_done (fun p n handed => handed ++ load memory p n) (Nat.cast_nonneg n) hlegal
      fun hdone => hret (retOf_eq_zero.mpr hdone)
  refine ⟨before, after, hsplit, hquiet, by exact_mod_cast hpart, ?_, ended_of_outcome hend⟩
  rw [moves_load, List.nil_append] at hstate
  rw [reliableSend, hstate]

/-- **The kernel gets the whole buffer exactly when `0` is returned.** -/
lemma reliableSend_handed_iff {results : List SendResult}
    (hlegal : Pump.Legal id again n results) :
    (reliableSend memory buffer n results).1 = some 0 ↔
      (reliableSend memory buffer n results).2 = load memory buffer n := by
  constructor
  · intro hret
    obtain ⟨before, after, rfl, hquiet, htotal⟩ := (reliableSend_zero_iff hlegal).mp hret
    rw [reliableSend, Pump.pump_done _ hquiet (by rw [htotal]), moves_load, htotal,
      List.nil_append]
  · intro hhanded
    by_contra hret
    obtain ⟨before, after, -, -, hpart, hmoved, -⟩ := reliableSend_partial hlegal hret
    have hlength := congrArg List.length (hmoved.symm.trans hhanded)
    rw [length_load, length_load] at hlength
    omega

end

/-- **The transfer loops are exact.**  `results` are the results of the calls in order, none of
them moving more than its call asks for.  `reliable_recv` returns `0` exactly when calls that do
not stop it bring `n` bytes; these and no other bytes are then written.  Otherwise fewer are, and
the loop waits for more or returns what stopped it.  `reliable_send` returns `0` exactly when the
kernel was handed the `n` bytes of the buffer, and hands over a prefix of them otherwise. -/
theorem reliable_exact (memory : Memory) (buffer n : ℕ) :
    (∀ results, Pump.Legal List.length again n results →
      ((reliableRecv memory buffer n results).1 = some 0 ↔
        ∃ before after, results = before ++ after ∧ Pump.Quiet List.length again before ∧
          (received before).length = n) ∧
      (∀ before after, results = before ++ after → Pump.Quiet List.length again before →
        (received before).length = n →
          Filled memory buffer (received before) (reliableRecv memory buffer n results).2) ∧
      ((reliableRecv memory buffer n results).1 ≠ some 0 →
        ∃ before after, results = before ++ after ∧ Pump.Quiet List.length again before ∧
          (received before).length < n ∧
          Filled memory buffer (received before) (reliableRecv memory buffer n results).2 ∧
          Ended List.length after (reliableRecv memory buffer n results).1)) ∧
    (∀ results, Pump.Legal id again n results →
      ((reliableSend memory buffer n results).1 = some 0 ↔
        (reliableSend memory buffer n results).2 = load memory buffer n) ∧
      ((reliableSend memory buffer n results).1 = some 0 ↔
        ∃ before after, results = before ++ after ∧ Pump.Quiet id again before ∧
          Pump.total id before = n) ∧
      ((reliableSend memory buffer n results).1 ≠ some 0 →
        ∃ before after, results = before ++ after ∧ Pump.Quiet id again before ∧
          Pump.total id before < n ∧
          (reliableSend memory buffer n results).2
            = load memory buffer (Pump.total id before) ∧
          Ended id after (reliableSend memory buffer n results).1)) := by
  refine ⟨fun results hlegal => ⟨reliableRecv_zero_iff hlegal, ?_, reliableRecv_partial hlegal⟩,
    fun results hlegal => ⟨reliableSend_handed_iff hlegal, reliableSend_zero_iff hlegal,
      reliableSend_partial hlegal⟩⟩
  rintro before after rfl hquiet hlength
  exact reliableRecv_filled hquiet hlength

theorem reliable_exact_in_pieces :
    (reliableRecv (fun _ => 0) 0 (3 : ℕ) [.moved [1], .failed .eagain, .moved [2, 3]]).1
      = some 0 := by
  refine (((reliable_exact (fun _ => 0) 0 3).1 _ ?_).1).mpr
    ⟨[.moved [1], .failed .eagain, .moved [2, 3]], [], rfl, ?_, rfl⟩
  · simp [Pump.Legal]
  · simp [Pump.Quiet, Pump.Result.Stops, again]

/-! ## The loops on bytes -/

/-- What the calls of a transfer from `source` return, to a loop that asks for `size` bytes. -/
def delivered (source : List UInt8) (size : ℤ) : List CallResult → List RecvResult
  | [] => []
  | .failed e :: rest => .failed e :: delivered source size rest
  | .returned n :: rest =>
      let chunk := source.take (min n size.toNat)
      .moved chunk :: delivered (source.drop chunk.length) (size - chunk.length) rest

/-- The same calls as results of `send`. -/
def accepted : RecvResult → SendResult
  | .moved chunk => .moved chunk.length
  | .failed e => .failed e

lemma legal_delivered (source : List UInt8) (size : ℤ) (calls : List CallResult) :
    Pump.Legal List.length again size (delivered source size calls) := by
  induction calls generalizing source size with
  | nil => trivial
  | cons call rest ih =>
      cases call with
      | failed e => exact fun _ => ih source size
      | returned n =>
          intro hsize
          refine ⟨?_, fun _ => ih _ _⟩
          rw [List.length_take]
          omega

lemma delivered_moves (memory : Memory) (buffer : ℕ) (stream : List UInt8) (size : ℤ)
    (calls : List CallResult) :
    reliableRecv memory buffer size (delivered stream size calls)
      = ((Libport.reliableRecv stream size calls).ret,
          store buffer (Libport.reliableRecv stream size calls).moved memory) := by
  rw [reliableRecv, Libport.reliableRecv]
  induction calls generalizing memory buffer stream size with
  | nil =>
      rw [delivered, Pump.pump, transfer]
      split_ifs <;> rw [store_nil] <;> rfl
  | cons call rest ih =>
      by_cases hsize : 0 < size
      · cases call with
        | failed e =>
            rw [delivered, Pump.pump, transfer, if_pos hsize, if_pos hsize]
            by_cases he : e = .eagain
            · have hagain : again e = true := again_iff.mpr he
              rw [if_pos hagain, if_pos he]
              exact ih memory buffer stream size
            · have hagain : ¬ again e = true := mt again_iff.mp he
              rw [if_neg hagain, if_neg he, store_nil]
              rfl
        | returned n =>
            rw [delivered, Pump.pump, transfer, if_pos hsize, if_pos hsize]
            generalize stream.take (min n size.toNat) = chunk
            by_cases hchunk : chunk = []
            · rw [if_pos (List.length_eq_zero_iff.mpr hchunk), if_pos hchunk, store_nil]
              rfl
            · rw [if_neg (mt List.length_eq_zero_iff.mp hchunk), if_neg hchunk, ih, store_append]
      · rw [Pump.pump_of_nonpos store (by omega), transfer_of_nonpos stream (by omega), store_nil]
        rfl

/-- **Receiving**: no call returns more than it is asked for, and the bytes moved are stored in
the buffer. -/
lemma reliableRecv_delivered (memory : Memory) (buffer : ℕ) (stream : List UInt8) (size : ℤ)
    (calls : List CallResult) :
    Pump.Legal List.length again size (delivered stream size calls) ∧
      reliableRecv memory buffer size (delivered stream size calls)
        = ((Libport.reliableRecv stream size calls).ret,
            store buffer (Libport.reliableRecv stream size calls).moved memory) :=
  ⟨legal_delivered stream size calls, delivered_moves memory buffer stream size calls⟩

/-- The chunk of one call is what stands at the pointer, and the source for the calls that follow
is what stands behind it. -/
lemma load_cut {memory : Memory} {p : ℕ} {size : ℤ} {k : ℕ} (hk : k ≤ size.toNat) :
    (load memory p size.toNat).take k = load memory p k ∧
      (load memory p size.toNat).drop k = load memory (p + k) (size - k).toNat := by
  have hsize : size.toNat - k = (size - k).toNat := by omega
  refine ⟨take_load hk, ?_⟩
  rw [drop_load hk, hsize]

lemma accepted_moves (memory : Memory) (p : ℕ) (handed : List UInt8) (size : ℤ)
    (calls : List CallResult) :
    let source := load memory p size.toNat
    let run := Pump.pump id again (fun p n handed => handed ++ load memory p n) p size handed
      ((delivered source size calls).map accepted)
    (retOf run.1, run.2)
      = ((transfer source size calls).ret, handed ++ (transfer source size calls).moved) := by
  induction calls generalizing p handed size with
  | nil =>
      simp only
      rw [delivered, List.map_nil, Pump.pump, transfer]
      split_ifs <;> rw [List.append_nil] <;> rfl
  | cons call rest ih =>
      simp only at ih ⊢
      by_cases hsize : 0 < size
      · cases call with
        | failed e =>
            rw [delivered, List.map_cons, accepted, Pump.pump, transfer, if_pos hsize,
              if_pos hsize]
            by_cases he : e = .eagain
            · have hagain : again e = true := again_iff.mpr he
              rw [if_pos hagain, if_pos he]
              exact ih p handed size
            · have hagain : ¬ again e = true := mt again_iff.mp he
              rw [if_neg hagain, if_neg he, List.append_nil]
              rfl
        | returned n =>
            obtain ⟨hchunk, hdrop⟩ := @load_cut memory p size _ (Nat.min_le_right n size.toNat)
            generalize hk : min n size.toNat = k at hchunk hdrop
            rw [delivered, List.map_cons, accepted, Pump.pump, transfer, if_pos hsize,
              if_pos hsize, hk, hchunk]
            simp only [id, length_load, hdrop]
            by_cases hzero : k = 0
            · have hempty : load memory p k = [] := by
                rw [← List.length_eq_zero_iff, length_load, hzero]
              rw [if_pos hzero, if_pos hempty, List.append_nil]
              rfl
            · have hne : ¬ load memory p k = [] := by
                rw [← List.length_eq_zero_iff, length_load]
                exact hzero
              rw [if_neg hzero, if_neg hne, ← List.append_assoc]
              exact ih _ _ _
      · rw [Pump.pump_of_nonpos _ (by omega), transfer_of_nonpos _ (by omega), List.append_nil]
        rfl

/-- **Sending**: the source is what stands in the buffer. -/
lemma reliableSend_accepted (memory : Memory) (buffer : ℕ) (size : ℤ) (calls : List CallResult) :
    let source := load memory buffer size.toNat
    reliableSend memory buffer size ((delivered source size calls).map accepted)
      = ((Libport.reliableSend source size calls).ret,
          (Libport.reliableSend source size calls).moved) :=
  accepted_moves memory buffer [] size calls

end Loops

end Libport
