import Libport.Server.Session

/-!
# Responses on the wire, and their reader

`write_response` writes each response as a frame, from one of two buffers; the client reads the
stream back with one `proto_recv_msg` after the other.  The kernel delivers the stream in chunks
of its own choice and may ask for any call to be repeated.

* `written` is everything `write_response` hands to the kernel for a list of responses, and
  `WritesWithin` says that it hands over no byte outside the buffer it chose.
* `protoRecvAll` is a number of reads in a row, each with the calls the reads before it left.
* `Received`: the messages in order, each read taking exactly its frame, up to a read that still
  waits for the rest of a frame.
* **`framing_roundTrip`**: whatever the chunks, the responses are received, and none is missing
  once the stream has been read or there were calls enough to read it.
-/

namespace Libport

/-! ## What is written -/

namespace Session

/-- One call of `write_response` hands over as many bytes as the frame has, all of them in the
buffer chosen for them. -/
def WritesWithin (payload : List UInt8) (s : Session) : Prop :=
  let s' := (writeResponse payload s).2
  let msgsz := payload.length + commHeaderSz
  ∃ bytes, s'.sent = s.sent ++ [bytes] ∧ bytes.length = msgsz ∧
    bytes <+: if msgsz > sendBufsz then s'.largeSndBuf else s'.sndBuf.bytes

/-- A frame that fits `snd_buf_` is handed over from there. -/
lemma writeResponse_small {payload : List UInt8} (h : payload.length + commHeaderSz ≤ sendBufsz)
    (s : Session) :
    writeResponse payload s = (.ok (), { s with
      sndBuf := s.sndBuf.overwrite (frame payload)
      sent := s.sent ++ [frame payload]
      pending := s.pending ++ [.writeResponse (payload.length + commHeaderSz)] }) := by
  have hlen : (frame payload).length = payload.length + commHeaderSz := by
    rw [length_frame, Nat.add_comm]
  have hframe : (s.sndBuf.overwrite (frame payload)).bytes.take (payload.length + commHeaderSz)
      = frame payload := by
    rw [← hlen]
    exact s.sndBuf.take_overwrite (hlen ▸ h)
  rw [writeResponse]
  simp only
  rw [if_neg (Nat.not_lt.mpr h)]
  simp [begin, hframe]

/-- A larger one is handed over from a buffer of its own. -/
lemma writeResponse_large {payload : List UInt8} (h : sendBufsz < payload.length + commHeaderSz)
    (s : Session) :
    writeResponse payload s = (.ok (), { s with
      largeSndBuf := frame payload
      sent := s.sent ++ [frame payload]
      pending := s.pending ++ [.writeResponse (payload.length + commHeaderSz)] }) := by
  rw [writeResponse]
  simp only
  rw [if_pos h]
  rfl

/-- What `write_response` leaves, apart from the send buffers. -/
structure Wrote (s : Session) (payload : List UInt8) (s' : Session) : Prop where
  sent : s'.sent = s.sent ++ [frame payload]
  pending : s'.pending = s.pending ++ [.writeResponse (payload.length + commHeaderSz)]
  opened : s'.opened = s.opened
  parsed : s'.parsed = s.parsed
  stamp : s'.stamp = s.stamp

/-- The frame is handed over, from either buffer. -/
lemma writeResponse_wrote (payload : List UInt8) (s : Session) :
    ∃ s', writeResponse payload s = (.ok (), s') ∧ s.Wrote payload s' := by
  rcases Nat.lt_or_ge sendBufsz (payload.length + commHeaderSz) with hlarge | hsmall
  · exact ⟨_, writeResponse_large hlarge s, rfl, rfl, rfl, rfl, rfl⟩
  · exact ⟨_, writeResponse_small hsmall s, rfl, rfl, rfl, rfl, rfl⟩

lemma writesWithin (payload : List UInt8) (s : Session) : WritesWithin payload s := by
  have hlen : (frame payload).length = payload.length + commHeaderSz := by
    rw [length_frame, Nat.add_comm]
  rcases Nat.lt_or_ge sendBufsz (payload.length + commHeaderSz) with hlarge | hsmall
  · rw [WritesWithin, writeResponse_large hlarge]
    refine ⟨frame payload, rfl, hlen, ?_⟩
    rw [if_pos hlarge]
  · rw [WritesWithin, writeResponse_small hsmall]
    refine ⟨frame payload, rfl, hlen, ?_⟩
    rw [if_neg (Nat.not_lt.mpr hsmall), List.prefix_iff_eq_take,
      s.sndBuf.take_overwrite (hlen ▸ hsmall)]

end Session

variable {α : Type}

/-- What `write_response` hands to the kernel for the messages, one after the other. -/
def written (serialize : α → List UInt8) (msgs : List α) (s : Session) : List UInt8 :=
  let s' := (Action.forEach (fun m => Session.writeResponse (serialize m)) msgs s).2
  (s'.sent.drop s.sent.length).flatten

lemma forEach_writeResponse_sent (serialize : α → List UInt8) (msgs : List α) (s : Session) :
    (Action.forEach (fun m => Session.writeResponse (serialize m)) msgs s).2.sent
      = s.sent ++ msgs.map fun m => frame (serialize m) := by
  induction msgs generalizing s with
  | nil => simp
  | cons m rest ih =>
      obtain ⟨s', hrun, hwrote⟩ := Session.writeResponse_wrote (serialize m) s
      rw [Action.forEach_cons, Action.bind_run, hrun]
      simp only
      rw [ih, hwrote.sent]
      simp

/-- The stream is the frames of the messages, in order. -/
lemma written_eq (serialize : α → List UInt8) (msgs : List α) (s : Session) :
    written serialize msgs s = msgs.flatMap fun m => frame (serialize m) := by
  rw [written, forEach_writeResponse_sent, List.drop_left, List.flatMap_def]

/-! ## What is read -/

/-- The results left over by a run of `proto_recv_msg`. -/
def restAfterRecv (stream : List UInt8) (calls : List CallResult) : List CallResult :=
  let header := reliableRecv stream commHeaderSz calls
  if header.ret ≠ some 0 then header.rest
  else (reliableRecv (stream.drop commHeaderSz) (asInt (readLe32 header.moved)) header.rest).rest

/-- At most `n` reads in a row, up to the first that does not return `0`. -/
def protoRecvAll (parse : List UInt8 → Option α) :
    ℕ → List UInt8 → List CallResult → List (Receipt α)
  | 0, _, _ => []
  | n + 1, stream, calls =>
      let got := protoRecvMsg parse stream calls
      if got.ret = some 0 then
        got :: protoRecvAll parse n (stream.drop got.consumed.length) (restAfterRecv stream calls)
      else [got]

/-- The read returned `0`, with the message, and took a header and the bytes of the message. -/
structure Receipt.Delivers (serialize : α → List UInt8) (got : Receipt α) (m : α) : Prop where
  ret : got.ret = some 0
  value : got.value = some m
  consumed : got.consumed.length = commHeaderSz + (serialize m).length

/-- The messages are read in order.  The last read may still wait, and then it has not taken all
of its frame. -/
inductive Received (serialize : α → List UInt8) : List (Receipt α) → List α → Prop
  | done : Received serialize [] []
  | waiting {got : Receipt α} {m : α} {rest : List α} (hret : got.ret = none)
      (hlen : got.consumed.length < commHeaderSz + (serialize m).length) :
      Received serialize [got] (m :: rest)
  | next {got : Receipt α} {gots : List (Receipt α)} {m : α} {rest : List α}
      (hgot : got.Delivers serialize m) (hrest : Received serialize gots rest) :
      Received serialize (got :: gots) (m :: rest)

section Read

variable {serialize : α → List UInt8} {parse : List UInt8 → Option α}

lemma restAfterRecv_suffix (stream : List UInt8) (calls : List CallResult) :
    restAfterRecv stream calls <:+ calls := by
  unfold restAfterRecv
  simp only
  split_ifs
  · exact transfer_rest _ _ _
  · exact (transfer_rest _ _ _).trans (transfer_rest _ _ _)

/-- A read that waits has taken less than its frame. -/
lemma protoRecvMsg_waiting {payload : List UInt8} (hsize : payload.length < 2 ^ 31)
    {rest : List UInt8} {calls : List CallResult}
    (h : (protoRecvMsg parse (frame payload ++ rest) calls).ret = none) :
    (protoRecvMsg parse (frame payload ++ rest) calls).consumed.length
      < commHeaderSz + payload.length := by
  unfold protoRecvMsg at h ⊢
  simp only [drop_header_frame] at h ⊢
  by_cases hheader : (reliableRecv (frame payload ++ rest) commHeaderSz calls).ret = some 0
  · rw [if_neg (not_not.mpr hheader)] at h ⊢
    have hlen : (reliableRecv (frame payload ++ rest) commHeaderSz calls).moved.length
        = commHeaderSz := by
      rw [header_ok hheader, take_header_frame]
      rfl
    rw [header_ok hheader, asInt_header hsize, ← header_ok hheader] at h ⊢
    generalize (reliableRecv (frame payload ++ rest) commHeaderSz calls).rest = calls' at h ⊢
    by_cases hbody : (reliableRecv (payload ++ rest) payload.length calls').ret = some 0
    · rw [if_neg (not_not.mpr hbody)] at h
      cases hp : parseFromArray parse (reliableRecv (payload ++ rest) payload.length calls').moved
          payload.length <;> rw [hp] at h <;> cases h
    · rw [if_pos hbody] at h ⊢
      have hmoved := transfer_waiting h
      rw [Int.toNat_natCast] at hmoved
      rw [List.length_append, hlen]
      exact Nat.add_lt_add_left hmoved _
  · rw [if_pos hheader] at h ⊢
    have hmoved : (reliableRecv (frame payload ++ rest) commHeaderSz calls).moved.length
        < commHeaderSz := transfer_waiting h
    exact Nat.lt_add_right _ hmoved

/-- As many counts as the frame has bytes are enough for a read, and no more are used. -/
lemma protoRecvMsg_enough {payload : List UInt8} (hsize : payload.length < 2 ^ 31)
    (rest : List UInt8) {calls : List CallResult} (hcalls : ∀ call ∈ calls, call.Benign)
    (henough : commHeaderSz + payload.length ≤ calls.countP CallResult.returns) :
    (protoRecvMsg parse (frame payload ++ rest) calls).ret ≠ none ∧
      calls.countP CallResult.returns
        ≤ (restAfterRecv (frame payload ++ rest) calls).countP CallResult.returns
          + (commHeaderSz + payload.length) := by
  have hlen : (commHeaderSz : ℤ).toNat ≤ (frame payload ++ rest).length := by
    rw [List.length_append, length_frame]
    omega
  have hfirst : (commHeaderSz : ℤ).toNat ≤ calls.countP CallResult.returns := by omega
  obtain ⟨hheader, hcount⟩ := transfer_enough hcalls hlen hfirst
  have hheader : (reliableRecv (frame payload ++ rest) commHeaderSz calls).ret = some 0 := hheader
  have hcalls' : ∀ call ∈ (reliableRecv (frame payload ++ rest) commHeaderSz calls).rest,
      call.Benign := fun call hcall => hcalls call ((transfer_rest _ _ _).subset hcall)
  have hcount : calls.countP CallResult.returns
      ≤ (reliableRecv (frame payload ++ rest) commHeaderSz calls).rest.countP CallResult.returns
        + commHeaderSz := hcount
  unfold protoRecvMsg restAfterRecv
  simp only [drop_header_frame]
  rw [if_neg (not_not.mpr hheader), if_neg (not_not.mpr hheader), header_ok hheader,
    asInt_header hsize]
  generalize (reliableRecv (frame payload ++ rest) commHeaderSz calls).rest = calls'
    at hcalls' hcount ⊢
  -- what the header left is enough for the message
  have hlen' : (payload.length : ℤ).toNat ≤ (payload ++ rest).length := by
    rw [List.length_append]
    omega
  have hsecond : (payload.length : ℤ).toNat ≤ calls'.countP CallResult.returns := by omega
  obtain ⟨hbody, hcount'⟩ := transfer_enough hcalls' hlen' hsecond
  have hbody : (reliableRecv (payload ++ rest) payload.length calls').ret = some 0 := hbody
  have hcount' : calls'.countP CallResult.returns
      ≤ (reliableRecv (payload ++ rest) payload.length calls').rest.countP CallResult.returns
        + payload.length := hcount'
  refine ⟨?_, by omega⟩
  rw [if_neg (not_not.mpr hbody), body_ok hbody, parseFromArray_length]
  cases parse payload <;> simp

/-- One read from a stream that starts with the frame of `m`. -/
lemma protoRecvMsg_next {m : α} (hcode : parse (serialize m) = some m)
    (hsize : (serialize m).length < 2 ^ 31) (rest : List UInt8) {calls : List CallResult}
    (hcalls : ∀ call ∈ calls, call.Benign) :
    ((protoRecvMsg parse (frame (serialize m) ++ rest) calls).ret = none ∧
        (protoRecvMsg parse (frame (serialize m) ++ rest) calls).consumed.length
          < commHeaderSz + (serialize m).length) ∨
      ((protoRecvMsg parse (frame (serialize m) ++ rest) calls).consumed = frame (serialize m) ∧
        (protoRecvMsg parse (frame (serialize m) ++ rest) calls).Delivers serialize m) := by
  rcases protoRecvMsg_benign hsize rest hcalls hcode with hnone | hok
  · exact Or.inl ⟨hnone, protoRecvMsg_waiting hsize hnone⟩
  · obtain ⟨hvalue, hconsumed⟩ := protoRecvMsg_frame hsize hok
    refine Or.inr ⟨hconsumed, hok, hvalue.trans hcode, ?_⟩
    rw [hconsumed, length_frame]

/-- **The messages are read in order**, however the stream is cut. -/
lemma protoRecvAll_received {msgs : List α} (hcode : ∀ m ∈ msgs, parse (serialize m) = some m)
    (hsize : ∀ m ∈ msgs, (serialize m).length < 2 ^ 31) {calls : List CallResult}
    (hcalls : ∀ call ∈ calls, call.Benign) :
    Received serialize (protoRecvAll parse msgs.length
      (msgs.flatMap fun m => frame (serialize m)) calls) msgs := by
  -- every read leaves the frames of the messages after it, and calls that are benign again
  induction msgs generalizing calls with
  | nil => exact .done
  | cons m rest ih =>
      obtain ⟨hm, hcode⟩ := List.forall_mem_cons.mp hcode
      obtain ⟨hlen, hsize⟩ := List.forall_mem_cons.mp hsize
      rw [List.flatMap_cons, List.length_cons, protoRecvAll]
      rcases protoRecvMsg_next hm hlen (rest.flatMap fun m => frame (serialize m)) hcalls with
        ⟨hnone, hshort⟩ | ⟨hconsumed, hgot⟩
      · rw [if_neg (by rw [hnone]; nofun)]
        exact .waiting hnone hshort
      · rw [if_pos hgot.ret, hconsumed, List.drop_left]
        refine .next hgot (ih hcode hsize ?_)
        exact fun call hcall => hcalls call ((restAfterRecv_suffix _ _).subset hcall)

lemma forall₂_of_enough {msgs : List α} (hcode : ∀ m ∈ msgs, parse (serialize m) = some m)
    (hsize : ∀ m ∈ msgs, (serialize m).length < 2 ^ 31) {calls : List CallResult}
    (hcalls : ∀ call ∈ calls, call.Benign)
    (henough : (msgs.flatMap fun m => frame (serialize m)).length
      ≤ calls.countP CallResult.returns) :
    List.Forall₂ (Receipt.Delivers serialize) (protoRecvAll parse msgs.length
      (msgs.flatMap fun m => frame (serialize m)) calls) msgs := by
  induction msgs generalizing calls with
  | nil => exact .nil
  | cons m rest ih =>
      obtain ⟨hm, hcode⟩ := List.forall_mem_cons.mp hcode
      obtain ⟨hlen, hsize⟩ := List.forall_mem_cons.mp hsize
      rw [List.flatMap_cons, List.length_append, length_frame] at henough
      rw [List.flatMap_cons, List.length_cons, protoRecvAll]
      generalize hstream : (rest.flatMap fun m => frame (serialize m)) = stream at henough ih ⊢
      obtain ⟨hreturned, hcount⟩ :
          (protoRecvMsg parse (frame (serialize m) ++ stream) calls).ret ≠ none ∧ _ :=
        protoRecvMsg_enough hlen stream hcalls (by omega)
      rcases protoRecvMsg_next hm hlen stream hcalls with ⟨hnone, -⟩ | ⟨hconsumed, hgot⟩
      · exact absurd hnone hreturned
      · rw [if_pos hgot.ret, hconsumed, List.drop_left]
        refine .cons hgot (ih hcode hsize ?_ (by omega))
        exact fun call hcall => hcalls call ((restAfterRecv_suffix _ _).subset hcall)

/-- Reads that have taken the whole stream have delivered every message. -/
lemma Received.forall₂ {gots : List (Receipt α)} {msgs : List α}
    (h : Received serialize gots msgs)
    (hall : (gots.flatMap Receipt.consumed).length
      = (msgs.flatMap fun m => frame (serialize m)).length) :
    List.Forall₂ (Receipt.Delivers serialize) gots msgs := by
  induction h with
  | done => exact .nil
  | waiting hret hlen =>
      simp only [List.flatMap_cons, List.flatMap_nil, List.append_nil, List.length_append,
        length_frame] at hall
      omega
  | next hgot hrest ih =>
      simp only [List.flatMap_cons, List.length_append, length_frame, hgot.consumed] at hall
      exact .cons hgot (ih (by omega))

end Read

/-- **Framing round-trips for any chunking.**  Every response is written from inside its buffer;
the reads deliver the responses in order, each by taking its own frame; and all are delivered
once the stream has been read as a whole, for which as many counts as bytes are enough. -/
theorem framing_roundTrip {serialize : Response → List UInt8}
    {parse : List UInt8 → Option Response} {rs : List Response}
    (hcode : ∀ r ∈ rs, parse (serialize r) = some r)
    (hsize : ∀ r ∈ rs, (serialize r).length ≤ 2 ^ 31 - 10) (s : Session)
    {calls : List CallResult} (hcalls : ∀ call ∈ calls, call.Benign) :
    let stream := written serialize rs s
    let gots := protoRecvAll parse rs.length stream calls
    (∀ r ∈ rs, ∀ t, Session.WritesWithin (serialize r) t) ∧
      Received serialize gots rs ∧
      (gots.flatMap Receipt.consumed = stream ∨
          stream.length ≤ calls.countP CallResult.returns →
        List.Forall₂ (Receipt.Delivers serialize) gots rs) := by
  have hsize : ∀ r ∈ rs, (serialize r).length < 2 ^ 31 := by
    intro r hr
    have hr := hsize r hr
    omega
  simp only [written_eq]
  refine ⟨fun r _ => Session.writesWithin (serialize r), ?_, ?_⟩
  · exact protoRecvAll_received hcode hsize hcalls
  · rintro (hall | henough)
    · exact (protoRecvAll_received hcode hsize hcalls).forall₂ (congrArg List.length hall)
    · exact forall₂_of_enough hcode hsize hcalls henough

/-- The wire format of a response with nothing but an `id` of one byte, field `1`. -/
def serializeId (r : Response) : List UInt8 := [0x08, r.id.toUInt64.toUInt8]

/-- Read the format of `serializeId` back. -/
def parseId : List UInt8 → Option Response
  | [0x08, id] => some { id := id.toUInt64.toInt64 }
  | _ => none

/-- Two responses, in chunks that do not follow the frames. -/
theorem framing_roundTrip_ids :
    List.Forall₂ (Receipt.Delivers serializeId)
      (protoRecvAll parseId 2 (written serializeId [{ id := 1 }, { id := 2 }] {})
        [.returned 3, .failed .eagain, .returned 9, .returned 2, .failed .eagain, .returned 8,
          .returned 1, .returned 4])
      [{ id := 1 }, { id := 2 }] := by
  have hcode : ∀ r ∈ [({ id := 1 } : Response), { id := 2 }], parseId (serializeId r) = some r := by
    decide
  have hsize : ∀ r ∈ [({ id := 1 } : Response), { id := 2 }],
      (serializeId r).length ≤ 2 ^ 31 - 10 := by
    decide
  refine (framing_roundTrip hcode hsize {} ?_).2.2 (Or.inl ?_)
  · simp [CallResult.Benign]
  · rw [written_eq]
    decide

end Libport
