import Libport.Common.Transfer
import Libport.Lib.Bytes

/-!
# Messages on a stream (`include/comm.h`)

A message travels as a frame: its size and a magic number, four bytes each, then its serialized
bytes.  Serializing and parsing are protobuf's; the functions here take the serialized bytes and
the parser.

* `frame` is what `proto_send_msg` puts into its buffer.
* `protoSendMsg` hands the frame to `reliable_send`, whose size parameter is an `int`.
* `protoRecvMsg` reads a header, then as many bytes as the header says, then parses.
* **`protoSendMsg_ok`**: a send that reports success has put exactly the frame on the stream,
  except that a frame of `2 ^ 31` bytes or more is not sent at all.
* **`protoRecvMsg_frame`**: reading from a stream that starts with a frame.
-/

namespace Libport

def commHeaderSz : ℕ := 8

/-- `PROTO_MAGIC`, and the literal that `proto_send_msg` writes. -/
def protoMagic : UInt32 := 0x1987

def parseError : ℤ := -65516

/-- The conversion of a `size_t` argument to an `int` parameter. -/
def sizeAsInt (n : ℕ) : ℤ := (n : ℤ).bmod (2 ^ 32)

/-- A message with its header. -/
def frame (payload : List UInt8) : List UInt8 :=
  le32 (UInt32.ofNat payload.length) ++ le32 protoMagic ++ payload

def protoSendMsg (payload : List UInt8) (calls : List CallResult) : Transfer :=
  reliableSend (frame payload) (sizeAsInt (commHeaderSz + payload.length)) calls

/-- A run of `proto_recv_msg`. -/
structure Receipt (α : Type) where
  /-- the value returned; none while a call is waiting -/
  ret : Option ℤ
  /-- the message, when one was parsed -/
  value : Option α
  /-- the bytes taken from the stream -/
  consumed : List UInt8

/-- `result->ParseFromArray(data, size)`: a negative size is no message. -/
def parseFromArray {α : Type} (parse : List UInt8 → Option α) (data : List UInt8) (size : ℤ) :
    Option α :=
  if 0 ≤ size then parse (data.take size.toNat) else none

def protoRecvMsg {α : Type} (parse : List UInt8 → Option α) (stream : List UInt8)
    (calls : List CallResult) : Receipt α :=
  let header := reliableRecv stream commHeaderSz calls
  if header.ret ≠ some 0 then ⟨header.ret, none, header.moved⟩
  else
    let size := asInt (readLe32 header.moved)
    let body := reliableRecv (stream.drop commHeaderSz) size header.rest
    if body.ret ≠ some 0 then ⟨body.ret, none, header.moved ++ body.moved⟩
    else
      match parseFromArray parse body.moved size with
      | some value => ⟨some 0, some value, header.moved ++ body.moved⟩
      | none => ⟨some parseError, none, header.moved ++ body.moved⟩

/-! ## Frames -/

lemma length_frame (payload : List UInt8) :
    (frame payload).length = commHeaderSz + payload.length := by
  simp only [frame, List.length_append, length_le32, commHeaderSz]

lemma take_header_frame (payload rest : List UInt8) :
    (frame payload ++ rest).take commHeaderSz
      = le32 (UInt32.ofNat payload.length) ++ le32 protoMagic := by
  rw [frame, List.append_assoc _ payload]
  exact List.take_left' (by simp [commHeaderSz])

lemma drop_header_frame (payload rest : List UInt8) :
    (frame payload ++ rest).drop commHeaderSz = payload ++ rest := by
  rw [frame, List.append_assoc _ payload]
  exact List.drop_left' (by simp [commHeaderSz])

lemma sizeAsInt_of_lt {n : ℕ} (h : n < 2 ^ 31) : sizeAsInt n = n := by
  unfold sizeAsInt
  rw [Int.bmod_def]
  norm_num
  omega

lemma sizeAsInt_nonpos {n : ℕ} (h : 2 ^ 31 ≤ n) (h' : n < 2 ^ 32) : sizeAsInt n ≤ 0 := by
  unfold sizeAsInt
  rw [Int.bmod_def]
  norm_num
  omega

/-- **A send that reports success has put exactly the frame on the stream.** -/
lemma protoSendMsg_ok {payload : List UInt8} (hsize : commHeaderSz + payload.length < 2 ^ 31)
    {calls : List CallResult} (h : (protoSendMsg payload calls).ret = some 0) :
    (protoSendMsg payload calls).moved = frame payload := by
  obtain ⟨hmoved, -⟩ := transfer_ok h
  have hlen : (sizeAsInt (commHeaderSz + payload.length)).toNat = (frame payload).length := by
    rw [sizeAsInt_of_lt hsize, length_frame]
    omega
  calc (protoSendMsg payload calls).moved
      = (frame payload).take (sizeAsInt (commHeaderSz + payload.length)).toNat := hmoved
    _ = frame payload := by rw [hlen, List.take_length]

/-- A frame whose size does not fit an `int` is not sent, and success is reported. -/
lemma protoSendMsg_large {payload : List UInt8} (hsize : payload.length < 2 ^ 31)
    (hlarge : 2 ^ 31 ≤ commHeaderSz + payload.length) (calls : List CallResult) :
    protoSendMsg payload calls = ⟨some 0, [], calls⟩ := by
  refine transfer_of_nonpos _ (sizeAsInt_nonpos hlarge ?_) calls
  simp only [commHeaderSz]
  omega

lemma protoSendMsg_benign {payload : List UInt8} (hsize : commHeaderSz + payload.length < 2 ^ 31)
    {calls : List CallResult} (hcalls : ∀ call ∈ calls, call.Benign) :
    (protoSendMsg payload calls).ret = none ∨ (protoSendMsg payload calls).ret = some 0 := by
  refine transfer_benign hcalls ?_
  rw [sizeAsInt_of_lt hsize, length_frame]
  omega

/-- A send whose first call fails puts nothing on the stream, and reports it. -/
lemma protoSendMsg_failsAtOnce {payload : List UInt8}
    (hsize : commHeaderSz + payload.length < 2 ^ 31) {calls : List CallResult}
    (hcalls : FailsAtOnce calls) :
    (protoSendMsg payload calls).moved = [] ∧ (protoSendMsg payload calls).ret ≠ some 0 := by
  refine transfer_failsAtOnce ?_ hcalls
  rw [sizeAsInt_of_lt hsize, commHeaderSz]
  omega

/-! ## Receiving a frame -/

section Receive

variable {α : Type} {parse : List UInt8 → Option α}

lemma toNat_ofNat_length {payload : List UInt8} (h : payload.length < 2 ^ 31) :
    (UInt32.ofNat payload.length).toNat = payload.length := by
  rw [UInt32.toNat_ofNat']
  exact Nat.mod_eq_of_lt (by omega)

/-- What the header of a frame says, as the size of the second transfer. -/
lemma asInt_header {payload : List UInt8} (hsize : payload.length < 2 ^ 31) (rest : List UInt8) :
    asInt (readLe32 ((frame payload ++ rest).take commHeaderSz)) = payload.length := by
  have hn := toNat_ofNat_length hsize
  have hsmall : (UInt32.ofNat payload.length).toNat < 2 ^ 31 := by omega
  rw [take_header_frame, readLe32_le32, asInt_of_lt hsmall, hn]

lemma header_ok {payload rest : List UInt8} {calls : List CallResult}
    (h : (reliableRecv (frame payload ++ rest) commHeaderSz calls).ret = some 0) :
    (reliableRecv (frame payload ++ rest) commHeaderSz calls).moved
      = (frame payload ++ rest).take commHeaderSz :=
  (transfer_ok h).1

lemma body_ok {payload rest : List UInt8} {calls : List CallResult}
    (h : (reliableRecv (payload ++ rest) payload.length calls).ret = some 0) :
    (reliableRecv (payload ++ rest) payload.length calls).moved = payload := by
  have hmoved := (transfer_ok h).1
  rw [Int.toNat_natCast, List.take_left] at hmoved
  exact hmoved

lemma parseFromArray_length (payload : List UInt8) :
    parseFromArray parse payload payload.length = parse payload := by
  rw [parseFromArray, if_pos (by omega), Int.toNat_natCast, List.take_length]

/-- **A message is received from a frame only as a whole**, and it is the message of the frame. -/
lemma protoRecvMsg_frame {payload : List UInt8} (hsize : payload.length < 2 ^ 31)
    {rest : List UInt8} {calls : List CallResult}
    (h : (protoRecvMsg parse (frame payload ++ rest) calls).ret = some 0) :
    (protoRecvMsg parse (frame payload ++ rest) calls).value = parse payload ∧
      (protoRecvMsg parse (frame payload ++ rest) calls).consumed = frame payload := by
  unfold protoRecvMsg at h ⊢
  simp only [drop_header_frame] at h ⊢
  by_cases hheader : (reliableRecv (frame payload ++ rest) commHeaderSz calls).ret = some 0
  · rw [if_neg (not_not.mpr hheader)] at h ⊢
    rw [header_ok hheader, asInt_header hsize] at h ⊢
    generalize (reliableRecv (frame payload ++ rest) commHeaderSz calls).rest = calls' at h ⊢
    by_cases hbody : (reliableRecv (payload ++ rest) payload.length calls').ret = some 0
    · rw [if_neg (not_not.mpr hbody)] at h ⊢
      rw [body_ok hbody, parseFromArray_length] at h ⊢
      have hframe : (frame payload ++ rest).take commHeaderSz ++ payload = frame payload := by
        rw [take_header_frame]
        rfl
      cases hp : parse payload with
      | none =>
          rw [hp] at h
          cases h
      | some value => exact ⟨rfl, hframe⟩
    · rw [if_pos hbody] at h
      exact absurd h hbody
  · rw [if_pos hheader] at h
    exact absurd h hheader

/-- Benign calls receive the frame, or wait. -/
lemma protoRecvMsg_benign {payload : List UInt8} (hsize : payload.length < 2 ^ 31)
    (rest : List UInt8) {calls : List CallResult} (hcalls : ∀ call ∈ calls, call.Benign)
    {value : α} (hvalue : parse payload = some value) :
    (protoRecvMsg parse (frame payload ++ rest) calls).ret = none ∨
      (protoRecvMsg parse (frame payload ++ rest) calls).ret = some 0 := by
  unfold protoRecvMsg
  simp only [drop_header_frame]
  have hlen : (commHeaderSz : ℤ).toNat ≤ (frame payload ++ rest).length := by
    rw [List.length_append, length_frame]
    omega
  have hrest := transfer_rest (frame payload ++ rest) commHeaderSz calls
  rcases transfer_benign hcalls hlen with hheader | hheader
  · have hheader : (reliableRecv (frame payload ++ rest) commHeaderSz calls).ret = none := hheader
    rw [if_pos (by rw [hheader]; nofun)]
    exact Or.inl hheader
  · have hheader : (reliableRecv (frame payload ++ rest) commHeaderSz calls).ret = some 0 := hheader
    rw [if_neg (not_not.mpr hheader), header_ok hheader, asInt_header hsize]
    have hcalls' : ∀ call ∈ (reliableRecv (frame payload ++ rest) commHeaderSz calls).rest,
        call.Benign := fun call hcall => hcalls call (hrest.subset hcall)
    generalize (reliableRecv (frame payload ++ rest) commHeaderSz calls).rest = calls' at hcalls' ⊢
    have hlen' : (payload.length : ℤ).toNat ≤ (payload ++ rest).length := by
      rw [List.length_append]
      omega
    rcases transfer_benign hcalls' hlen' with hbody | hbody
    · have hbody : (reliableRecv (payload ++ rest) payload.length calls').ret = none := hbody
      rw [if_pos (by rw [hbody]; nofun)]
      exact Or.inl hbody
    · have hbody : (reliableRecv (payload ++ rest) payload.length calls').ret = some 0 := hbody
      rw [if_neg (not_not.mpr hbody), body_ok hbody, parseFromArray_length, hvalue]
      exact Or.inr rfl

lemma protoRecvMsg_nil (calls : List CallResult) :
    (protoRecvMsg parse [] calls).ret ≠ some 0 ∧ (protoRecvMsg parse [] calls).consumed = [] := by
  have hheader : (reliableRecv [] commHeaderSz calls).ret ≠ some 0 := by
    intro h
    exact absurd (transfer_ok h).2 (by decide)
  have hmoved : (reliableRecv [] commHeaderSz calls).moved = [] := by
    have hpre := transfer_prefix [] commHeaderSz calls
    rw [List.take_nil] at hpre
    exact List.prefix_nil.mp hpre
  unfold protoRecvMsg
  simp only
  rw [if_pos hheader]
  exact ⟨hheader, hmoved⟩

end Receive

end Libport
