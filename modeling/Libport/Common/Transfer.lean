import Libport.Common.Utils

/-!
# The transfer loops (`common/utils.cc`)

`reliable_send` and `reliable_recv` repeat a system call until a given number of bytes has moved.
The kernel decides how each call ends, so a run of either loop is driven by a list of
`CallResult`s, one for each call; a list that ends too early stands for a loop still waiting.

The two loops are one: bytes leave the front of a source, the buffer of the sender or the stream
of the receiver.  `transfer` is that loop.

* **`transfer_prefix`**: whatever the calls do, the bytes moved are a prefix of those asked for.
* **`transfer_ok`**: the loop returns `0` only after moving exactly the bytes asked for.
* `transfer_benign`: calls that move bytes or ask to be repeated never make the loop fail while
  the source has bytes left; `transfer_enough`: and it ends, once enough of them move bytes.
* `transfer_failsAtOnce`: a loop whose first call fails moves nothing.
-/

namespace Libport

/-- The value of `errno` after a failed call: positive. -/
structure Errno where
  code : ℕ
  pos : 0 < code
deriving DecidableEq

def Errno.eagain : Errno := ⟨11, by decide⟩

def Errno.eintr : Errno := ⟨4, by decide⟩

def unexpectedClose : ℤ := -65515

/-- How one `send` or `recv` ends: it returns a count (the kernel moves at most what is asked for
and at most what there is), or it fails. -/
inductive CallResult
  | returned (n : ℕ)
  | failed (e : Errno)
deriving DecidableEq

/-- A run of a transfer loop. -/
structure Transfer where
  /-- the value returned; none while the loop waits for its next call to end -/
  ret : Option ℤ
  /-- the bytes moved, in order -/
  moved : List UInt8
  /-- the results left for the calls that follow -/
  rest : List CallResult

/-- Move `size` bytes from the front of `source`, by calls that end as listed. -/
def transfer (source : List UInt8) (size : ℤ) : List CallResult → Transfer
  | [] => if 0 < size then ⟨none, [], []⟩ else ⟨some 0, [], []⟩
  | .failed e :: rest =>
      if 0 < size then
        if e = .eagain then transfer source size rest else ⟨some e.code, [], rest⟩
      else ⟨some 0, [], .failed e :: rest⟩
  | .returned n :: rest =>
      if 0 < size then
        let chunk := source.take (min n size.toNat)
        if chunk = [] then ⟨some unexpectedClose, [], rest⟩
        else
          let later := transfer (source.drop chunk.length) (size - chunk.length) rest
          ⟨later.ret, chunk ++ later.moved, later.rest⟩
      else ⟨some 0, [], .returned n :: rest⟩

/-- `reliable_send`: the source is the caller's buffer. -/
def reliableSend (buffer : List UInt8) (size : ℤ) (calls : List CallResult) : Transfer :=
  transfer buffer size calls

/-- `reliable_recv`: the source is what the peer has written and nobody has read yet. -/
def reliableRecv (stream : List UInt8) (size : ℤ) (calls : List CallResult) : Transfer :=
  transfer stream size calls

/-! ## What a transfer moves -/

lemma transfer_of_nonpos (source : List UInt8) {size : ℤ} (h : size ≤ 0)
    (calls : List CallResult) : transfer source size calls = ⟨some 0, [], calls⟩ := by
  have hsize : ¬ 0 < size := by omega
  rcases calls with _ | ⟨_ | _, _⟩ <;> rw [transfer, if_neg hsize]

lemma take_append_take_drop (source : List UInt8) {size : ℤ} (n : ℕ) :
    let chunk := source.take (min n size.toNat)
    chunk ++ (source.drop chunk.length).take (size - chunk.length).toNat
      = source.take size.toNat := by
  intro chunk
  have hlen : chunk.length ≤ size.toNat := by
    simp only [chunk, List.length_take]
    omega
  have hchunk : chunk = source.take chunk.length := by
    simp only [chunk, List.length_take]
    rw [List.take_eq_take_iff]
    omega
  have hsize : (size - chunk.length).toNat = size.toNat - chunk.length := by omega
  calc chunk ++ (source.drop chunk.length).take (size - chunk.length).toNat
      = source.take chunk.length
          ++ (source.drop chunk.length).take (size.toNat - chunk.length) := by
        rw [hsize, ← hchunk]
    _ = source.take (chunk.length + (size.toNat - chunk.length)) := List.take_add.symm
    _ = source.take size.toNat := by rw [Nat.add_sub_cancel' hlen]

/-- **Only bytes asked for are moved, from the front and in order.** -/
lemma transfer_prefix (source : List UInt8) (size : ℤ) (calls : List CallResult) :
    (transfer source size calls).moved <+: source.take size.toNat := by
  induction calls generalizing source size with
  | nil =>
      rw [transfer]
      split_ifs <;> exact List.nil_prefix
  | cons call rest ih =>
      cases call with
      | failed e =>
          rw [transfer]
          split_ifs
          · exact ih source size
          · exact List.nil_prefix
          · exact List.nil_prefix
      | returned n =>
          rw [transfer]
          split_ifs with hsize
          · simp only
            split_ifs with hchunk
            · exact List.nil_prefix
            · rw [← take_append_take_drop source n]
              exact List.prefix_append_right_inj _ |>.mpr (ih _ _)
          · exact List.nil_prefix

/-- **A loop that returns `0` has moved exactly the bytes asked for**, and they were there. -/
lemma transfer_ok {source : List UInt8} {size : ℤ} {calls : List CallResult}
    (h : (transfer source size calls).ret = some 0) :
    (transfer source size calls).moved = source.take size.toNat ∧
      size.toNat ≤ source.length := by
  induction calls generalizing source size with
  | nil =>
      by_cases hsize : 0 < size
      · rw [transfer, if_pos hsize] at h
        cases h
      · rw [transfer, if_neg hsize]
        have hzero : size.toNat = 0 := by omega
        simp [hzero]
  | cons call rest ih =>
      by_cases hsize : 0 < size
      · cases call with
        | failed e =>
            rw [transfer, if_pos hsize] at h ⊢
            split_ifs at h ⊢ with heagain
            · exact ih h
            · have hpos := e.pos
              simp only [Option.some.injEq] at h
              omega
        | returned n =>
            rw [transfer, if_pos hsize] at h ⊢
            simp only at h ⊢
            split_ifs at h ⊢ with hchunk
            · simp [unexpectedClose] at h
            · obtain ⟨hmoved, hlen⟩ := ih h
              refine ⟨?_, ?_⟩
              · rw [hmoved, take_append_take_drop]
              · simp only [List.length_drop, List.length_take] at hlen
                omega
      · rw [transfer_of_nonpos source (by omega) (call :: rest)]
        have hzero : size.toNat = 0 := by omega
        simp [hzero]

/-! ## Calls that only delay -/

/-- The call moves bytes or asks to be repeated. -/
def CallResult.Benign : CallResult → Prop
  | returned n => 0 < n
  | failed e => e = .eagain

lemma transfer_rest (source : List UInt8) (size : ℤ) (calls : List CallResult) :
    (transfer source size calls).rest <:+ calls := by
  induction calls generalizing source size with
  | nil =>
      rw [transfer]
      split_ifs <;> exact List.suffix_rfl
  | cons call rest ih =>
      cases call with
      | failed e =>
          rw [transfer]
          split_ifs
          · exact (ih source size).trans (List.suffix_cons _ _)
          · exact List.suffix_cons _ _
          · exact List.suffix_rfl
      | returned n =>
          rw [transfer]
          split_ifs with hsize
          · simp only
            split_ifs
            · exact List.suffix_cons _ _
            · exact (ih _ _).trans (List.suffix_cons _ _)
          · exact List.suffix_rfl

/-- **Benign calls never make a transfer fail** while the source has the bytes asked for. -/
lemma transfer_benign {source : List UInt8} {size : ℤ} {calls : List CallResult}
    (hcalls : ∀ call ∈ calls, call.Benign) (hsource : size.toNat ≤ source.length) :
    (transfer source size calls).ret = none ∨ (transfer source size calls).ret = some 0 := by
  induction calls generalizing source size with
  | nil =>
      rw [transfer]
      split_ifs
      · exact Or.inl rfl
      · exact Or.inr rfl
  | cons call rest ih =>
      obtain ⟨hcall, hrest⟩ := List.forall_mem_cons.mp hcalls
      by_cases hsize : 0 < size
      · cases call with
        | failed e =>
            have heagain : e = .eagain := hcall
            rw [transfer, if_pos hsize, if_pos heagain]
            exact ih hrest hsource
        | returned n =>
            have hn : 0 < n := hcall
            have hchunk : source.take (min n size.toNat) ≠ [] := by
              rw [← List.length_pos_iff, List.length_take]
              omega
            rw [transfer, if_pos hsize]
            simp only [hchunk, if_false]
            refine ih hrest ?_
            simp only [List.length_drop, List.length_take]
            omega
      · rw [transfer_of_nonpos source (by omega)]
        exact Or.inr rfl

/-- The call returns a count. -/
def CallResult.returns : CallResult → Bool
  | returned _ => true
  | failed _ => false

/-- **As many benign counts as bytes asked for are enough**, and no more are used. -/
lemma transfer_enough {source : List UInt8} {size : ℤ} {calls : List CallResult}
    (hcalls : ∀ call ∈ calls, call.Benign) (hsource : size.toNat ≤ source.length)
    (henough : size.toNat ≤ calls.countP CallResult.returns) :
    (transfer source size calls).ret = some 0 ∧
      calls.countP CallResult.returns
        ≤ (transfer source size calls).rest.countP CallResult.returns + size.toNat := by
  induction calls generalizing source size with
  | nil =>
      have hsize : ¬ 0 < size := by
        rw [List.countP_nil] at henough
        omega
      rw [transfer, if_neg hsize]
      exact ⟨rfl, by simp⟩
  | cons call rest ih =>
      obtain ⟨hcall, hrest⟩ := List.forall_mem_cons.mp hcalls
      by_cases hsize : 0 < size
      · cases call with
        | failed e =>
            have heagain : e = .eagain := hcall
            rw [transfer, if_pos hsize, if_pos heagain]
            simp only [List.countP_cons, CallResult.returns, Bool.false_eq_true, if_false,
              Nat.add_zero] at henough ⊢
            exact ih hrest hsource henough
        | returned n =>
            have hn : 0 < n := hcall
            have hchunk : source.take (min n size.toNat) ≠ [] := by
              rw [← List.length_pos_iff, List.length_take]
              omega
            rw [transfer, if_pos hsize]
            simp only [hchunk, if_false, List.countP_cons, CallResult.returns, if_true,
              List.length_take] at henough ⊢
            -- the chunk has at least one byte, so what is left needs one call less
            generalize hk : min (min n size.toNat) source.length = k
            have hdrop : (size - k).toNat ≤ (source.drop k).length := by
              rw [List.length_drop]
              omega
            have hless : (size - k).toNat ≤ rest.countP CallResult.returns := by omega
            obtain ⟨hret, hcount⟩ := ih hrest hdrop hless
            exact ⟨hret, by omega⟩
      · rw [transfer_of_nonpos source (by omega)]
        exact ⟨rfl, by simp⟩

/-- A transfer that waits has not moved all it was asked for. -/
lemma transfer_waiting {source : List UInt8} {size : ℤ} {calls : List CallResult}
    (h : (transfer source size calls).ret = none) :
    (transfer source size calls).moved.length < size.toNat := by
  induction calls generalizing source size with
  | nil =>
      by_cases hsize : 0 < size
      · rw [transfer, if_pos hsize]
        simpa using hsize
      · rw [transfer, if_neg hsize] at h
        cases h
  | cons call rest ih =>
      by_cases hsize : 0 < size
      · cases call with
        | failed e =>
            rw [transfer, if_pos hsize] at h ⊢
            split_ifs at h ⊢ with heagain
            exact ih h
        | returned n =>
            rw [transfer, if_pos hsize] at h ⊢
            simp only at h ⊢
            split_ifs at h ⊢ with hchunk
            have hlater := ih h
            rw [List.length_append]
            omega
      · rw [transfer_of_nonpos source (by omega)] at h
        cases h

/-- The first call that does not ask to be repeated fails, or finds the connection closed. -/
def FailsAtOnce : List CallResult → Prop
  | [] => False
  | .failed e :: rest => e ≠ .eagain ∨ FailsAtOnce rest
  | .returned n :: _ => n = 0

/-- Such a transfer moves nothing and reports the failure. -/
lemma transfer_failsAtOnce {source : List UInt8} {size : ℤ} (hsize : 0 < size)
    {calls : List CallResult} (h : FailsAtOnce calls) :
    (transfer source size calls).moved = [] ∧ (transfer source size calls).ret ≠ some 0 := by
  induction calls with
  | nil => exact h.elim
  | cons call rest ih =>
      cases call with
      | failed e =>
          rw [transfer, if_pos hsize]
          split_ifs with heagain
          · exact ih (h.resolve_left (not_not.mpr heagain))
          · refine ⟨rfl, ?_⟩
            have hpos := e.pos
            simp only [ne_eq, Option.some.injEq]
            omega
      | returned n =>
          have hn : n = 0 := h
          rw [transfer, if_pos hsize, hn]
          simp [unexpectedClose]

end Libport
