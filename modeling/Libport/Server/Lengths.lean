import Libport.Server.Lifecycle

/-!
# The length of a frame (`include/comm.h`, `server/session.cc`)

The header of a frame holds a `uint32_t`.  On its way to `ParseFromArray` the client adds one to it
and passes it to two `int` parameters; the daemon passes it to a `size_t` parameter and from there
to an `int` one.

* `FrameLengths` lists what a receiver makes of the length of one frame.
* `recvLengths` and `Session.lengths` are the lengths in a run of `proto_recv_msg` and in a session
  that reads a command; `recvLengths_parsed` and `commandReceived_parsed` say that the parser is
  called with the length they give.
* `FrameLengths.Kept`: enough memory, exactly the payload read, the length unchanged.
* **`frameLengths_iff`**: either receiver keeps a length if and only if it is below `2 ^ 31`.
-/

namespace Libport

/-- What a receiver makes of the length in a header. -/
structure FrameLengths where
  /-- the length in the header -/
  size : UInt32
  /-- the bytes of the buffer for the payload -/
  allocated : ℕ
  /-- the bytes read from the stream behind the header -/
  taken : ℕ
  /-- the length that `ParseFromArray` receives, if it is called -/
  parsed : Option ℤ
  /-- each conversion or addition that was made: its value in the integers, and its result -/
  computed : List (ℤ × ℤ)
  /-- no error ends the exchange -/
  ok : Bool

/-- An exchange that no error ends has read exactly the payload into a buffer that can hold it and
parses all of it; and no value was changed on the way. -/
structure FrameLengths.Kept (l : FrameLengths) : Prop where
  whole : l.ok = true → l.size.toNat ≤ l.allocated ∧ l.taken = l.size.toNat ∧
    l.parsed = some (l.size.toNat : ℤ)
  unchanged : ∀ c ∈ l.computed, c.2 = c.1

/-! ## Conversions to `int` -/

lemma asInt_eq_iff {n : UInt32} : asInt n = n.toNat ↔ n.toNat < 2 ^ 31 := by
  refine ⟨fun h => ?_, asInt_of_lt⟩
  have hcond : asInt n = if 2 * n.toNat < 2 ^ 32 then (n.toNat : ℤ) else n.toNat - 2 ^ 32 :=
    BitVec.toInt_eq_toNat_cond n.toBitVec
  split_ifs at hcond <;> omega

/-- The conversion of a `size_t` that came from a `uint32_t`. -/
lemma sizeAsInt_eq_iff (n : UInt32) : sizeAsInt n.toNat = n.toNat ↔ n.toNat < 2 ^ 31 := by
  refine ⟨fun h => ?_, sizeAsInt_of_lt⟩
  by_contra hlarge
  have hnonpos := sizeAsInt_nonpos (by omega) n.toNat_lt
  omega

/-! ## The client -/

/-- The lengths in the part of `proto_recv_msg` that follows the header: `body` is the run of
`reliable_recv` for the payload. -/
def bodyLengths (size : UInt32) (body : Transfer) (ok : Bool) : FrameLengths :=
  -- the sum is a `uint32_t`, and then the `size_t` parameter of the constructor of `Buffer`
  let bufferSize := (size + 1).toNat
  let parsed := if body.ret = some 0 then some (asInt size) else none
  { size := size
    allocated := bufferSize
    taken := body.moved.length
    parsed := parsed
    computed := (size.toNat + 1, bufferSize) :: (size.toNat, asInt size) ::
      parsed.toList.map fun n => (size.toNat, n)
    ok := ok }

/-- The lengths in a run of `proto_recv_msg`; none without a header. -/
def recvLengths {α : Type} (parse : List UInt8 → Option α) (stream : List UInt8)
    (calls : List CallResult) : Option FrameLengths :=
  let header := reliableRecv stream commHeaderSz calls
  if header.ret ≠ some 0 then none
  else
    let size := readLe32 header.moved
    let body := reliableRecv (stream.drop commHeaderSz) (asInt size) header.rest
    some (bodyLengths size body ((protoRecvMsg parse stream calls).ret = some 0))

/-- **The client keeps a length below `2 ^ 31`, and no other.** -/
lemma bodyLengths_kept_iff {size : UInt32} {stream : List UInt8} {calls : List CallResult}
    {ok : Bool} (hok : ok = true → (reliableRecv stream (asInt size) calls).ret = some 0) :
    (bodyLengths size (reliableRecv stream (asInt size) calls) ok).Kept ↔
      size.toNat < 2 ^ 31 := by
  constructor
  · intro hkept
    have hmem : ((size.toNat : ℤ), asInt size)
        ∈ (bodyLengths size (reliableRecv stream (asInt size) calls) ok).computed := by
      simp [bodyLengths]
    exact asInt_eq_iff.mp (hkept.unchanged _ hmem)
  · intro hsmall
    have hint := asInt_of_lt hsmall
    have hsum : (size + 1).toNat = size.toNat + 1 := by
      rw [UInt32.toNat_add]
      exact Nat.mod_eq_of_lt (by simp only [UInt32.toNat_one]; omega)
    rw [hint] at hok
    refine ⟨fun h => ?_, fun c hc => ?_⟩
    · simp only [bodyLengths, hint, hsum] at h ⊢
      obtain ⟨hmoved, hlen⟩ := transfer_ok (hok h)
      rw [Int.toNat_natCast] at hmoved hlen
      refine ⟨by omega, ?_, if_pos (hok h)⟩
      rw [reliableRecv, hmoved, List.length_take]
      omega
    · simp only [bodyLengths, hint, hsum, List.mem_cons, List.mem_map, Option.mem_toList] at hc
      rcases hc with rfl | rfl | ⟨n, hn, rfl⟩
      · simp
      · rfl
      · split_ifs at hn
        simpa using hn.symm

section Client

variable {α : Type} {parse : List UInt8 → Option α} {stream : List UInt8} {calls : List CallResult}
  {l : FrameLengths}

lemma recvLengths_eq_some (h : recvLengths parse stream calls = some l) :
    ∃ size calls' ok, (ok = true →
        (reliableRecv (stream.drop commHeaderSz) (asInt size) calls').ret = some 0) ∧
      l = bodyLengths size (reliableRecv (stream.drop commHeaderSz) (asInt size) calls') ok := by
  unfold recvLengths at h
  by_cases hheader : (reliableRecv stream commHeaderSz calls).ret = some 0
  · simp only [hheader, ne_eq, not_true, if_false, Option.some.injEq] at h
    subst h
    refine ⟨_, _, _, fun hok => ?_, rfl⟩
    by_contra hbody
    have hret := of_decide_eq_true hok
    rw [protoRecvMsg, if_neg (not_not.mpr hheader)] at hret
    simp only [hbody, ne_eq, not_false_iff, if_true] at hret
  · simp [hheader] at h

/-- The length listed is the one that `proto_recv_msg` parses with. -/
lemma recvLengths_parsed (h : recvLengths parse stream calls = some l) {n : ℤ}
    (hn : l.parsed = some n) : ∃ bytes, bytes.length = l.taken ∧
      (protoRecvMsg parse stream calls).value = parseFromArray parse bytes n := by
  unfold recvLengths at h
  by_cases hheader : (reliableRecv stream commHeaderSz calls).ret = some 0
  · simp only [hheader, ne_eq, not_true, if_false, Option.some.injEq] at h
    subst h
    simp only [bodyLengths] at hn
    split_ifs at hn with hbody
    cases hn
    refine ⟨_, rfl, ?_⟩
    rw [protoRecvMsg, if_neg (not_not.mpr hheader)]
    simp only [hbody, ne_eq, not_true, if_false]
    cases parseFromArray parse _ _ <;> rfl
  · simp [hheader] at h

lemma recvLengths_kept_iff (h : recvLengths parse stream calls = some l) :
    l.Kept ↔ l.size.toNat < 2 ^ 31 := by
  obtain ⟨size, calls', ok, hok, rfl⟩ := recvLengths_eq_some h
  exact bodyLengths_kept_iff hok

end Client

/-! ## The daemon -/

namespace Session

variable (parse : List UInt8 → Option Command)

/-- `result->ParseFromArray(data, n)`. -/
def parseArray (data : RcvBuffer) (n : ℤ) : Action Fault Session (Option Command) :=
  if n < 0 then pure none
  else do
    let bytes ← readThrough data n.toNat
    Action.modify fun s => { s with parsed := s.parsed ++ [bytes] }
    pure (parse bytes)

/-- The lengths in a session that has received a header: `wire` is what arrives behind it before
the connection ends. -/
def lengths (s : Session) (wire : List UInt8) : Option FrameLengths :=
  let armed := (headerReceived false commHeaderSz s).2
  match armed.pending.getLast? with
  | some (.readCommand size data) =>
      -- the bound argument becomes a `size_t`
      let len := size.toNat
      -- `buffer(rcv_buf_, size)` is never longer than `rcv_buf_`
      let requested := min (armed.contents data).length size.toNat
      let ec : Bool := wire.length < requested
      let parsed := if ec then none else some (sizeAsInt len)
      let handled := commandReceived parse ec len data (armed.stored data (wire.take requested))
      some {
        size := size
        allocated := (armed.contents data).length
        taken := (wire.take requested).length
        parsed := parsed
        computed := (size.toNat, requested) :: (size.toNat, len) ::
          parsed.toList.map fun n => (size.toNat, n)
        ok := match handled.1 with
          | .ok none => false
          | _ => true }
  | _ => none

/-- The parser is called with the length listed, behind the guard. -/
lemma commandReceived_parseArray (len : ℕ) (data : RcvBuffer) (s : Session) :
    commandReceived parse false len data s =
      match parseArray parse data (sizeAsInt len) (s.guarded len) with
      | (.ok none, t) => (.ok none, { t with opened := false })
      | (.ok (some cmd), t) => (.ok (some (t.stamp cmd)), t)
      | (.error e, t) => (.error e, t) := by
  have hparse : parseCommand parse data len = parseArray parse data (sizeAsInt len) := by
    rw [parseCommand, parseArray]
  have hrun := @commandReceived_ok parse len data s
  rw [hparse] at hrun
  generalize parseArray parse data (sizeAsInt len) (s.guarded len) = parsed at hrun ⊢
  exact hrun

/-- `header_received` arms a read into a buffer of at least the size of the header. -/
lemma headerReceived_arms (s : Session) : ∃ armed data,
    headerReceived false commHeaderSz s = (.ok (), armed) ∧
      armed.pending = s.pending ++ [.readCommand (readLe32 s.rcvBuf.bytes) data] ∧
      (readLe32 s.rcvBuf.bytes).toNat ≤ (armed.contents data).length := by
  rw [headerReceived_run, awaitCommand]
  by_cases hlarge : (readLe32 s.rcvBuf.bytes).toNat > recvBufsz
  · rw [if_pos hlarge]
    exact ⟨_, .largeRcvBuf, rfl, rfl, by simp [contents]⟩
  · rw [if_neg hlarge]
    refine ⟨_, .rcvBuf, rfl, rfl, ?_⟩
    rw [contents, s.rcvBuf.length_eq]
    omega

/-- A session that has received a header gets to the length in it. -/
lemma exists_lengths (s : Session) (wire : List UInt8) :
    ∃ l, s.lengths parse wire = some l ∧ l.size = readLe32 s.rcvBuf.bytes := by
  obtain ⟨armed, data, hrun, hpending, -⟩ := headerReceived_arms s
  rw [lengths, hrun]
  simp only [hpending, List.getLast?_concat]
  exact ⟨_, rfl, rfl⟩

variable {parse}

/-- **The daemon keeps a length below `2 ^ 31`, and any length of a command it never receives
completely.** -/
lemma lengths_kept_iff {s : Session} {wire : List UInt8} {l : FrameLengths}
    (h : s.lengths parse wire = some l) :
    l.Kept ↔ wire.length < l.size.toNat ∨ l.size.toNat < 2 ^ 31 := by
  obtain ⟨armed, data, hrun, hpending, hbuffer⟩ := headerReceived_arms s
  unfold lengths at h
  rw [hrun] at h
  generalize readLe32 s.rcvBuf.bytes = size at hpending hbuffer
  simp only [hpending, List.getLast?_concat, Option.some.injEq, Nat.min_eq_right hbuffer] at h
  by_cases hshort : wire.length < size.toNat
  · simp only [hshort, decide_true, if_true, commandReceived_failed, Option.toList_none,
      List.map_nil] at h
    subst h
    refine iff_of_true ⟨nofun, ?_⟩ (Or.inl hshort)
    simp
  · have hsize := sizeAsInt_eq_iff size
    obtain ⟨n, hn⟩ : ∃ n, sizeAsInt size.toNat = n := ⟨_, rfl⟩
    simp only [hshort, decide_false, Bool.false_eq_true, if_false, Option.toList_some,
      List.map_cons, List.map_nil, hn] at h
    rw [hn] at hsize
    subst h
    simp only [hshort, false_or, ← hsize]
    constructor
    · intro hkept
      exact hkept.unchanged (size.toNat, n) (by simp)
    · rintro rfl
      refine ⟨fun _ => ⟨hbuffer, ?_, rfl⟩, by simp⟩
      show (wire.take size.toNat).length = size.toNat
      rw [List.length_take]
      omega

/-- A client that announces a larger command and sends all of it. -/
lemma exists_not_kept (parse : List UInt8 → Option Command) {size : UInt32}
    (hlarge : ¬ size.toNat < 2 ^ 31) :
    ∃ (s : Session) (wire : List UInt8) (l : FrameLengths),
      s.lengths parse wire = some l ∧ l.size = size ∧ ¬ l.Kept := by
  obtain ⟨l, hl, hsize⟩ := exists_lengths parse
    { rcvBuf := (FixedBuffer.zero recvBufsz).overwrite (le32 size ++ le32 protoMagic) }
    (List.replicate size.toNat 0)
  rw [readLe32_overwrite_header] at hsize
  refine ⟨_, _, l, hl, hsize, fun hkept => ?_⟩
  have hcond := (lengths_kept_iff hl).mp hkept
  rw [hsize, List.length_replicate] at hcond
  exact hcond.elim (lt_irrefl _) hlarge

end Session

/-! ## Every header -/

/-- `proto_recv_msg` finds the header of a frame when one call delivers it. -/
lemma exists_recvLengths {α : Type} (parse : List UInt8 → Option α) (size : UInt32)
    (calls : List CallResult) :
    ∃ l, recvLengths parse (le32 size ++ le32 protoMagic) (.returned commHeaderSz :: calls)
        = some l ∧ l.size = size := by
  have htake : (le32 size ++ le32 protoMagic).take commHeaderSz = le32 size ++ le32 protoMagic :=
    List.take_of_length_le (by simp [commHeaderSz])
  have hheader : reliableRecv (le32 size ++ le32 protoMagic) commHeaderSz
      (.returned commHeaderSz :: calls) = ⟨some 0, le32 size ++ le32 protoMagic, calls⟩ := by
    have hne : le32 size ++ le32 protoMagic ≠ [] := by simp [← List.length_eq_zero_iff]
    rw [reliableRecv, transfer, if_pos (by decide)]
    simp only [Int.toNat_natCast, min_self, htake, hne, if_false]
    rw [transfer_of_nonpos _ (by simp [commHeaderSz])]
    simp
  refine ⟨_, by rw [recvLengths, hheader]; rfl, ?_⟩
  show readLe32 (le32 size ++ le32 protoMagic) = size
  exact readLe32_le32 size _

/-- **A length is kept on either receiver if and only if it is below `2 ^ 31`.** -/
theorem frameLengths_iff (parseResponse : List UInt8 → Option Response)
    (parseCommand : List UInt8 → Option Command) (size : UInt32) :
    ((∀ stream calls l, recvLengths parseResponse stream calls = some l → l.size = size → l.Kept) ↔
      size.toNat < 2 ^ 31) ∧
    ((∀ (s : Session) wire l, s.lengths parseCommand wire = some l → l.size = size → l.Kept) ↔
      size.toNat < 2 ^ 31) := by
  refine ⟨⟨fun h => ?_, ?_⟩, ⟨fun h => ?_, ?_⟩⟩
  · obtain ⟨l, hl, hsize⟩ := exists_recvLengths parseResponse size []
    rw [← hsize]
    exact (recvLengths_kept_iff hl).mp (h _ _ l hl hsize)
  · rintro hsmall stream calls l hl rfl
    exact (recvLengths_kept_iff hl).mpr hsmall
  · by_contra hlarge
    obtain ⟨s, wire, l, hl, hsize, hkept⟩ := Session.exists_not_kept parseCommand hlarge
    exact hkept (h s wire l hl hsize)
  · rintro hsmall s wire l hl rfl
    exact (Session.lengths_kept_iff hl).mpr (Or.inr hsmall)

/-- **The largest size**: the client's buffer for it has no bytes, none are read, and the parser is
given a length of `-1`. -/
theorem frameLengths_wrap :
    ∃ l, recvLengths (fun _ => (none : Option Response)) (le32 0xFFFFFFFF ++ le32 protoMagic)
        [.returned commHeaderSz] = some l ∧
      l.size = 0xFFFFFFFF ∧ l.allocated = 0 ∧ l.taken = 0 ∧ l.parsed = some (-1) ∧ ¬ l.Kept := by
  refine ⟨_, rfl, by decide, by decide, by decide, by decide, fun hkept => ?_⟩
  exact absurd (hkept.unchanged (2 ^ 32 - 1, -1) (by decide)) (by decide)

end Libport
