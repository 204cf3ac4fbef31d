import Libport.Server.Session

/-!
# From the client's command to the dispatcher

A client writes a command with `proto_send_msg`; the session reads it back through one of two
buffers and passes it on.  Up to `RECV_BUFSZ` bytes the command arrives as it was sent.  Above,
the nameless guard of `command_received` has already freed `large_rcv_buf_` when
`ParseFromArray` reads it.

* `DeliversFaithfully`: after every successful send, the session hands exactly the payload to the
  parser and passes on the client's command under its own credentials.
* **`deliversFaithfully_iff`**: this holds exactly for commands of at most `RECV_BUFSZ` bytes.
* `longCommand_not_delivered`: a command of `8196` bytes.
-/

namespace Libport

namespace Session

variable (parse : List UInt8 → Option Command)

/-- The session waits for a header and for nothing else. -/
def Idle (s : Session) : Prop := s.opened = true ∧ s.pending = [.readHeader]

/-- Complete the read of a header and the read of a command. -/
def receiveCommand (wire : List UInt8) : Action Fault Session (Option Command) := do
  let (_, wire) ← onReadable parse wire
  let (cmd, _) ← onReadable parse wire
  pure cmd

/-- Whenever the client's send succeeds, the session hands the payload to the parser and passes
the command on, with its own credentials. -/
def DeliversFaithfully (serialize : Command → List UInt8) (c : Command) (s : Session) : Prop :=
  ∀ calls, (protoSendMsg (serialize c) calls).ret = some 0 →
    ∃ s', receiveCommand parse (protoSendMsg (serialize c) calls).moved s
        = (.ok (some (s.stamp c)), s') ∧
      s'.parsed = s.parsed ++ [serialize c]

/-! ## The header -/

/-- The state in which the read of a command of `size` bytes is in flight. -/
def awaitCommand (size : UInt32) (s : Session) : Session :=
  if size.toNat > recvBufsz then
    { s with
      largeRcvBuf := List.replicate size.toNat 0
      pending := s.pending ++ [.readCommand size .largeRcvBuf] }
  else { s with pending := s.pending ++ [.readCommand size .rcvBuf] }

lemma headerReceived_run (s : Session) :
    headerReceived false commHeaderSz s = (.ok (), awaitCommand (readLe32 s.rcvBuf.bytes) s) := by
  by_cases hlarge : (readLe32 s.rcvBuf.bytes).toNat > recvBufsz
  · simp [headerReceived, awaitCommand, hlarge, begin]
  · simp [headerReceived, awaitCommand, hlarge, begin]

lemma readLe32_overwrite_header (b : FixedBuffer recvBufsz) (n : UInt32) :
    readLe32 (b.overwrite (le32 n ++ le32 protoMagic)).bytes = n := by
  have hlen : (le32 n ++ le32 protoMagic).length ≤ recvBufsz := by
    simp [recvBufsz]
  rw [← readLe32_take (show 4 ≤ (le32 n ++ le32 protoMagic).length by simp),
    b.take_overwrite hlen, readLe32_le32]

/-- The session after the header of `payload`. -/
def afterHeader (payload : List UInt8) (s : Session) : Session :=
  awaitCommand (UInt32.ofNat payload.length) { s with
    pending := []
    rcvBuf := s.rcvBuf.overwrite (le32 (UInt32.ofNat payload.length) ++ le32 protoMagic) }

/-- Reading the header of a frame. -/
lemma onReadable_header (payload : List UInt8) {s : Session} (hidle : s.Idle) :
    onReadable parse (frame payload) s = (.ok (none, payload), afterHeader payload s) := by
  have hwire : commHeaderSz ≤ (frame payload).length := by
    rw [length_frame]
    omega
  have htake : (frame payload).take commHeaderSz
      = le32 (UInt32.ofNat payload.length) ++ le32 protoMagic := by
    simpa using take_header_frame payload []
  have hdrop : (frame payload).drop commHeaderSz = payload := by
    simpa using drop_header_frame payload []
  simp only [onReadable, Action.bind_run, Action.get_run, hidle.2, hwire, if_true,
    Action.modify_run, store, headerReceived_run, htake, hdrop, readLe32_overwrite_header]
  rfl

/-! ## The command -/

/-- Up to `RECV_BUFSZ` bytes the parser sees the payload, in `rcv_buf_`. -/
lemma commandReceived_small {payload : List UInt8} (hsmall : payload.length ≤ recvBufsz)
    {c : Command} (hparse : parse payload = some c) {s : Session}
    (hbuf : s.rcvBuf.bytes.take payload.length = payload) :
    commandReceived parse false payload.length .rcvBuf s
      = (.ok (some (s.stamp c)), { s with parsed := s.parsed ++ [payload] }) := by
  have hint : sizeAsInt payload.length = payload.length :=
    sizeAsInt_of_lt (lt_of_le_of_lt hsmall (by decide))
  have hguard : ¬ payload.length > recvBufsz := by omega
  have hread : payload.length ≤ s.rcvBuf.bytes.length := by
    rw [s.rcvBuf.length_eq]
    exact hsmall
  have hnonneg : ¬ (payload.length : ℤ) < 0 := by omega
  simp [commandReceived, parseCommand, readThrough, contents, hguard, hint, hnonneg, hread, hbuf,
    hparse, stamp]

/-- Above `RECV_BUFSZ` bytes the guard has emptied the buffer before the parser reads it. -/
lemma commandReceived_large {len : ℕ} (hlarge : recvBufsz < len) (hint : sizeAsInt len = len)
    (s : Session) :
    commandReceived parse false len .largeRcvBuf s
      = (.error .danglingRead, { s with largeRcvBuf := [] }) := by
  have hpos : 0 < len := lt_trans (by decide) hlarge
  have hnonneg : ¬ (len : ℤ) < 0 := by omega
  simp [commandReceived, clearLargeRcvBuffer, parseCommand, readThrough, contents, hlarge, hint,
    hnonneg, hpos.ne']

/-! ## A whole frame -/

lemma receiveCommand_small {payload : List UInt8} (hsmall : payload.length ≤ recvBufsz)
    {s : Session} (hidle : s.Idle) {c : Command} (hparse : parse payload = some c) :
    ∃ s', receiveCommand parse (frame payload) s = (.ok (some (s.stamp c)), s') ∧
      s'.parsed = s.parsed ++ [payload] := by
  have hn : (UInt32.ofNat payload.length).toNat = payload.length :=
    toNat_ofNat_length (lt_of_le_of_lt hsmall (by decide))
  have hguard : ¬ payload.length > recvBufsz := by omega
  rw [receiveCommand, Action.bind_run, onReadable_header parse payload hidle]
  simp only [afterHeader, awaitCommand, hn, hguard, if_false, List.nil_append, onReadable,
    Action.bind_run, Action.get_run, le_refl, if_true, Action.modify_run, store,
    List.take_length]
  rw [commandReceived_small parse hsmall hparse (FixedBuffer.take_overwrite _ hsmall)]
  exact ⟨_, rfl, rfl⟩

lemma receiveCommand_large {payload : List UInt8} (hlarge : recvBufsz < payload.length)
    (hsize : payload.length < 2 ^ 31) {s : Session} (hidle : s.Idle) :
    ∃ s', receiveCommand parse (frame payload) s = (.error .danglingRead, s') := by
  have hn := toNat_ofNat_length hsize
  have hint := sizeAsInt_of_lt hsize
  rw [receiveCommand, Action.bind_run, onReadable_header parse payload hidle]
  simp only [afterHeader, awaitCommand, hn, gt_iff_lt, hlarge, if_true, List.nil_append,
    onReadable, Action.bind_run, Action.get_run, le_refl, Action.modify_run, store,
    List.take_length, commandReceived_large parse hlarge hint]
  exact ⟨_, rfl⟩

lemma receiveCommand_nothing {s : Session} (hidle : s.Idle) :
    receiveCommand parse [] s = (.ok none, s) := by
  have hshort : ¬ commHeaderSz ≤ ([] : List UInt8).length := by decide
  simp only [receiveCommand, onReadable, Action.bind_run, Action.get_run, hidle.2, hshort,
    if_false, Action.pure_run]

lemma protoSendMsg_whole {payload : List UInt8} (hsize : commHeaderSz + payload.length < 2 ^ 31) :
    (protoSendMsg payload [.returned (commHeaderSz + payload.length)]).ret = some 0 := by
  have hlen := length_frame payload
  have hpos : (0 : ℤ) < (commHeaderSz + payload.length : ℕ) := by
    simp only [commHeaderSz]
    omega
  have hframe : frame payload ≠ [] := by
    rw [← List.length_pos_iff, hlen]
    omega
  have hmin : min (commHeaderSz + payload.length)
      ((commHeaderSz + payload.length : ℕ) : ℤ).toNat = (frame payload).length := by
    rw [hlen]
    omega
  rw [protoSendMsg, sizeAsInt_of_lt hsize, reliableSend, transfer, if_pos hpos]
  simp only [hmin, List.take_length, hframe, if_false]
  rw [hlen, transfer_of_nonpos _ (by omega)]

lemma not_deliversFaithfully_of_large {serialize : Command → List UInt8} {c : Command}
    {s : Session} (hidle : s.Idle) (hsize : (serialize c).length < 2 ^ 31)
    (hlarge : recvBufsz < (serialize c).length) : ¬ DeliversFaithfully parse serialize c s := by
  intro hfaithful
  by_cases hfits : commHeaderSz + (serialize c).length < 2 ^ 31
  · have hret := protoSendMsg_whole hfits
    obtain ⟨s', hrun, -⟩ := hfaithful _ hret
    obtain ⟨s'', hfault⟩ := receiveCommand_large parse hlarge hsize hidle
    rw [protoSendMsg_ok hfits hret, hfault] at hrun
    cases hrun
  · -- the size of the frame is no `int`: nothing is sent, and the session keeps waiting
    have hsend := protoSendMsg_large hsize (by omega) []
    obtain ⟨s', hrun, -⟩ := hfaithful [] (by rw [hsend])
    rw [hsend, receiveCommand_nothing parse hidle] at hrun
    cases hrun

/-- **Commands of at most `RECV_BUFSZ` bytes are delivered as they were sent, and no others.** -/
theorem deliversFaithfully_iff (serialize : Command → List UInt8) (c : Command) (s : Session)
    (hidle : s.Idle) (hsize : (serialize c).length < 2 ^ 31)
    (hparse : parse (serialize c) = some c) :
    DeliversFaithfully parse serialize c s ↔ (serialize c).length ≤ recvBufsz := by
  constructor
  · intro hfaithful
    by_contra hlarge
    exact not_deliversFaithfully_of_large parse hidle hsize (by omega) hfaithful
  · intro hsmall calls hret
    have hfits : commHeaderSz + (serialize c).length < 2 ^ 31 := by
      simp only [recvBufsz, commHeaderSz] at hsmall ⊢
      omega
    rw [protoSendMsg_ok hfits hret]
    exact receiveCommand_small parse hsmall hidle hparse

end Session

/-! ## A short and a long command -/

/-- The wire format of a command that sets nothing but `auth`, to fewer than `2 ^ 14` ASCII
characters: field `3`, the length as a varint of one or two bytes, the text. -/
def serializeAuth (c : Command) : List UInt8 :=
  let text := c.auth.toList.map fun ch => UInt8.ofNat ch.toNat
  if text.length < 128 then 0x1a :: UInt8.ofNat text.length :: text
  else 0x1a :: UInt8.ofNat (128 + text.length % 128) :: UInt8.ofNat (text.length / 128) :: text

/-- Read the format of `serializeAuth` back. -/
def parseAuth : List UInt8 → Option Command
  | tag :: len :: rest =>
      let text := if len < 128 then rest else rest.drop 1
      if tag = 0x1a then
        some { auth := String.ofList (text.map fun b => Char.ofNat b.toNat) }
      else none
  | _ => none

/-- A session of the process `100` that waits for a command. -/
def idleSession : Session := { pid := 100, uid := 1, gid := 1, pending := [.readHeader] }

/-- A short command is delivered. -/
theorem shortCommand_delivered :
    Session.DeliversFaithfully parseAuth serializeAuth { auth := "alice" } idleSession :=
  (Session.deliversFaithfully_iff parseAuth serializeAuth { auth := "alice" } idleSession
    ⟨rfl, rfl⟩ (by decide) (by decide)).mpr (by decide)

/-- A command whose `auth` has `n` characters. -/
def longCommand (n : ℕ) : Command := { auth := String.ofList (List.replicate n 'a') }

lemma length_longCommand {n : ℕ} (h : 128 ≤ n) :
    (serializeAuth (longCommand n)).length = n + 3 := by
  have hn : ¬ n < 128 := by omega
  simp [serializeAuth, longCommand, hn]

lemma parse_longCommand {n : ℕ} (h : 128 ≤ n) :
    parseAuth (serializeAuth (longCommand n)) = some (longCommand n) := by
  have hn : ¬ n < 128 := by omega
  have hbyte : ¬ 128 + UInt8.ofNat (n % 128) < 128 := by
    rw [UInt8.lt_iff_toNat_lt, UInt8.toNat_add, UInt8.toNat_ofNat']
    show ¬ (128 + n % 128 % 2 ^ 8) % 2 ^ 8 < 128
    omega
  simp [serializeAuth, longCommand, parseAuth, hn, hbyte]

/-- A command of `8196` bytes is not, though the parser reads its bytes back. -/
theorem longCommand_not_delivered :
    parseAuth (serializeAuth (longCommand 8193)) = some (longCommand 8193) ∧
      (serializeAuth (longCommand 8193)).length < 2 ^ 31 ∧
      ¬ Session.DeliversFaithfully parseAuth serializeAuth (longCommand 8193) idleSession := by
  have hlen := length_longCommand (show 128 ≤ 8193 by decide)
  have hsize : (serializeAuth (longCommand 8193)).length < 2 ^ 31 := by
    rw [hlen]
    decide
  have hlarge : recvBufsz < (serializeAuth (longCommand 8193)).length := by
    rw [hlen]
    decide
  exact ⟨parse_longCommand (by decide), hsize,
    Session.not_deliversFaithfully_of_large parseAuth ⟨rfl, rfl⟩ hsize hlarge⟩

end Libport
