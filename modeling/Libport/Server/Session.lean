import Libport.Lib.Action
import Libport.Proto.Comm
import Libport.Proto.Message

/-!
# Sessions of the daemon (`server/session.cc`)

A `Session` serves one connection: it reads a header, then a command, has it dispatched, writes
the response and starts over.  Each asynchronous operation is started by one member function and
completed by another; the operations in flight are a field of the state.

* `unixAuthId` and `authenticate` are the credentials the kernel reports for the peer.
* `headerReceived` chooses the buffer of the command by its size: `rcv_buf_` up to `RECV_BUFSZ`,
  a fresh `large_rcv_buf_` above.
* **`commandReceived`** parses the command through the data pointer it was bound to.  Its first
  statement makes a `Guards` object without a name: the object is destroyed at the end of that
  statement, and the guarded function runs there, before the parse.
* A data pointer is the name of a buffer; reading past the end of the buffer it names is a
  `danglingRead`.
-/

namespace Libport

def recvBufsz : ℕ := 8192

def sendBufsz : ℕ := 8192

structure Ucred where
  pid : Int32
  uid : UInt32
  gid : UInt32
deriving DecidableEq

/-- `unix_auth_id`: the credentials of the peer, or pid `0` and no user when `getsockopt`
fails. -/
def unixAuthId (peer : Option Ucred) : Ucred :=
  match peer with
  | some cred => cred
  | none => ⟨0, -1, -1⟩

/-- The buffer a data pointer points into. -/
inductive RcvBuffer
  | rcvBuf
  | largeRcvBuf
deriving DecidableEq

/-- An asynchronous operation in flight, with the arguments its handler was bound to. -/
inductive Operation
  | readHeader
  | readCommand (size : UInt32) (data : RcvBuffer)
  | writeResponse (size : ℕ)
deriving DecidableEq

/-- The state of a session. -/
structure Session where
  pid : UInt64 := 0
  uid : UInt64 := 0
  gid : UInt64 := 0
  rcvBuf : FixedBuffer recvBufsz := .zero recvBufsz
  largeRcvBuf : List UInt8 := []
  sndBuf : FixedBuffer sendBufsz := .zero sendBufsz
  largeSndBuf : List UInt8 := []
  /-- the socket has not been closed -/
  opened : Bool := true
  /-- the operations in flight -/
  pending : List Operation := []
  /-- what was handed to `ParseFromArray` so far -/
  parsed : List (List UInt8) := []
  /-- what was handed to `async_write` so far -/
  sent : List (List UInt8) := []

/-- A read through a pointer past the end of its buffer. -/
inductive Fault
  | danglingRead
deriving DecidableEq

namespace Session

/-- `authenticate`: a peer without a pid is refused. -/
def authenticate (peer : Option Ucred) : Action Fault Session Bool := do
  let ids := unixAuthId peer
  Action.modify fun s => { s with
    pid := ids.pid.toInt64.toUInt64
    uid := ids.uid.toUInt64
    gid := ids.gid.toUInt64 }
  let s ← Action.get
  pure (s.pid ≠ 0)

def stop : Action Fault Session Unit := Action.modify fun s => { s with opened := false }

/-- Start an asynchronous operation. -/
def begin (op : Operation) : Action Fault Session Unit :=
  Action.modify fun s => { s with pending := s.pending ++ [op] }

def protoStart : Action Fault Session Unit := begin .readHeader

def start (peer : Option Ucred) : Action Fault Session Unit := do
  let accepted ← authenticate peer
  if accepted then protoStart else stop

/-- `header_received`; a wrong magic number is only logged. -/
def headerReceived (ec : Bool) (len : ℕ) : Action Fault Session Unit := do
  if ec then stop
  else if len < commHeaderSz then stop
  else
    let s ← Action.get
    let size := readLe32 s.rcvBuf.bytes
    if size.toNat > recvBufsz then
      Action.modify fun s => { s with largeRcvBuf := List.replicate size.toNat 0 }
      begin (.readCommand size .largeRcvBuf)
    else begin (.readCommand size .rcvBuf)

def clearLargeRcvBuffer : Action Fault Session Unit :=
  Action.modify fun s => { s with largeRcvBuf := [] }

def clearLargeSndBuffer : Action Fault Session Unit :=
  Action.modify fun s => { s with largeSndBuf := [] }

/-- The contents of the buffer a data pointer points into. -/
def contents (s : Session) : RcvBuffer → List UInt8
  | .rcvBuf => s.rcvBuf.bytes
  | .largeRcvBuf => s.largeRcvBuf

/-- Read `len` bytes through a data pointer. -/
def readThrough (data : RcvBuffer) (len : ℕ) : Action Fault Session (List UInt8) := do
  let s ← Action.get
  if len ≤ (s.contents data).length then pure ((s.contents data).take len)
  else Action.throw .danglingRead

/-- The command with the credentials of the session in place of those the client sent. -/
def stamp (s : Session) (cmd : Command) : Command :=
  { cmd with pid := s.pid, uid := s.uid, gid := s.gid }

variable (parse : List UInt8 → Option Command)

/-- `result->ParseFromArray(data, len)`, whose length parameter is an `int`. -/
def parseCommand (data : RcvBuffer) (len : ℕ) : Action Fault Session (Option Command) :=
  if sizeAsInt len < 0 then pure none
  else do
    let bytes ← readThrough data (sizeAsInt len).toNat
    Action.modify fun s => { s with parsed := s.parsed ++ [bytes] }
    pure (parse bytes)

/-- `command_received`, up to the call of the dispatcher; the command passed to it is
returned. -/
def commandReceived (ec : Bool) (len : ℕ) (data : RcvBuffer) :
    Action Fault Session (Option Command) := do
  -- the nameless guard is destroyed here, at the end of the statement that makes it
  if len > recvBufsz then clearLargeRcvBuffer
  if ec then
    stop
    pure none
  else
    match ← parseCommand parse data len with
    | none =>
        stop
        pure none
    | some cmd =>
        let s ← Action.get
        pure (some (s.stamp cmd))

/-- `write_response` on the serialized response. -/
def writeResponse (payload : List UInt8) : Action Fault Session Unit := do
  let msgsz := payload.length + commHeaderSz
  if msgsz > sendBufsz then
    Action.modify fun s => { s with
      largeSndBuf := frame payload
      sent := s.sent ++ [frame payload] }
  else
    Action.modify fun s => { s with
      sndBuf := s.sndBuf.overwrite (frame payload)
      sent := s.sent ++ [(s.sndBuf.overwrite (frame payload)).bytes.take msgsz] }
  begin (.writeResponse msgsz)

/-- `response_sent`; the nameless guard runs before the error is looked at. -/
def responseSent (ec : Bool) (len : ℕ) : Action Fault Session Unit := do
  if len > sendBufsz then clearLargeSndBuffer
  if ec then stop else protoStart

/-! ## Reads that complete -/

/-- The kernel stores the bytes of a completed read. -/
def store (data : RcvBuffer) (bytes : List UInt8) : Action Fault Session Unit :=
  Action.modify fun s =>
    match data with
    | .rcvBuf => { s with rcvBuf := s.rcvBuf.overwrite bytes }
    | .largeRcvBuf => { s with largeRcvBuf := bytes ++ s.largeRcvBuf.drop bytes.length }

/-- Complete the read at the head of the queue from the bytes that have arrived, if they are
enough; return the command to dispatch, if there is one, and the bytes left. -/
def onReadable (wire : List UInt8) : Action Fault Session (Option Command × List UInt8) := do
  let s ← Action.get
  match s.pending with
  | .readHeader :: rest =>
      if commHeaderSz ≤ wire.length then
        Action.modify fun s => { s with pending := rest }
        store .rcvBuf (wire.take commHeaderSz)
        headerReceived false commHeaderSz
        pure (none, wire.drop commHeaderSz)
      else pure (none, wire)
  | .readCommand size data :: rest =>
      if size.toNat ≤ wire.length then
        Action.modify fun s => { s with pending := rest }
        store data (wire.take size.toNat)
        let cmd ← commandReceived parse false size.toNat data
        pure (cmd, wire.drop size.toNat)
      else pure (none, wire)
  | _ => pure (none, wire)

end Session

end Libport
