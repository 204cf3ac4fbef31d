import Libport.Client.Post
import Libport.Server.Lifecycle

/-!
# A session on its stream (`server/session.cc`)

A client sees the daemon as a function of the bytes it has sent: `daemonStream`, the frames of the
responses to the commands in them.  The daemon is a session whose reads and writes complete one by
one, at times of the kernel's choosing.

* `Frames` are bytes that decode as a whole, and `received_append` says what they contribute to a
  stream.
* `ReadsFrom`: the reads of a run take the bytes of the wire in order, each as many as it asked for,
  and no command is larger than `RECV_BUFSZ`.
* `AnsweredBy`: the responses written are those of a dispatcher, which may remember the commands
  before.
* `Position`: where a session stands between two frames.  `Tracks` is kept by every completion.
* **`session_refines_stream`**: what a session has written is the beginning of what the client's
  view of the daemon says, and all of it once the session waits for bytes that have not come.
-/

namespace Libport

/-! ## Frames in a stream -/

section Frames

variable {parse : List UInt8 → Option Command}

/-- A number of frames, each with a command that decodes; the magic number is not looked at. -/
inductive Frames (parse : List UInt8 → Option Command) : List UInt8 → List Command → Prop
  | nil : Frames parse [] []
  | concat {bytes header payload : List UInt8} {cmds : List Command} {cmd : Command}
      (h : Frames parse bytes cmds) (hheader : header.length = commHeaderSz)
      (hpayload : payload.length = (readLe32 header).toNat) (hparse : parse payload = some cmd) :
      Frames parse (bytes ++ (header ++ payload)) (cmds ++ [cmd])

lemma readLe32_append {header : List UInt8} (hheader : header.length = commHeaderSz)
    (rest : List UInt8) : readLe32 (header ++ rest) = readLe32 header := by
  have htake : (header ++ rest).take commHeaderSz = header := List.take_left' hheader
  rw [← readLe32_take (show 4 ≤ commHeaderSz by decide), htake]

/-- The commands in a stream that does not hold a whole frame. -/
lemma receivedIn_incomplete {bytes : List UInt8}
    (h : bytes.length < commHeaderSz + (readLe32 bytes).toNat) (rounds : ℕ) :
    receivedIn parse rounds bytes = [] := by
  cases rounds with
  | zero => rfl
  | succ n =>
      rw [receivedIn]
      exact if_neg (Nat.not_le.mpr h)

/-- As many rounds as there are bytes are enough. -/
lemma receivedIn_enough {m n : ℕ} {bytes : List UInt8} (hm : bytes.length ≤ m)
    (hn : bytes.length ≤ n) : receivedIn parse m bytes = receivedIn parse n bytes := by
  -- each round takes a header at least
  induction m generalizing n bytes with
  | zero =>
      have hshort : bytes.length < commHeaderSz + (readLe32 bytes).toNat := by
        simp only [commHeaderSz]
        omega
      rw [receivedIn_incomplete hshort, receivedIn_incomplete hshort]
  | succ m ih =>
      by_cases hwhole : commHeaderSz + (readLe32 bytes).toNat ≤ bytes.length
      · obtain ⟨k, rfl⟩ : ∃ k, n = k + 1 := by
          simp only [commHeaderSz] at hwhole
          exact Nat.exists_eq_add_of_le' (by omega)
        simp only [receivedIn, hwhole, if_true]
        cases parse ((bytes.drop commHeaderSz).take (readLe32 bytes).toNat) with
        | none => rfl
        | some cmd =>
            refine congrArg _ (ih ?_ ?_)
            · rw [List.length_drop]
              simp only [commHeaderSz]
              omega
            · rw [List.length_drop]
              simp only [commHeaderSz]
              omega
      · have hshort := Nat.not_le.mp hwhole
        rw [receivedIn_incomplete hshort, receivedIn_incomplete hshort]

lemma received_incomplete {bytes : List UInt8}
    (h : bytes.length < commHeaderSz + (readLe32 bytes).toNat) : received parse bytes = [] :=
  receivedIn_incomplete h _

/-- The first frame of a stream, whether or not it decodes. -/
lemma received_frame {header payload : List UInt8} (hheader : header.length = commHeaderSz)
    (hpayload : payload.length = (readLe32 header).toNat) (rest : List UInt8) :
    received parse (header ++ payload ++ rest) = match parse payload with
      | some cmd => cmd :: received parse rest
      | none => [] := by
  have hread : readLe32 (header ++ payload ++ rest) = readLe32 header := by
    rw [List.append_assoc, readLe32_append hheader]
  have hlen : (header ++ payload ++ rest).length
      = commHeaderSz + (readLe32 header).toNat + rest.length := by
    rw [List.length_append, List.length_append, hheader, hpayload]
  have hfirst : ((header ++ payload ++ rest).drop commHeaderSz).take (readLe32 header).toNat
      = payload := by
    rw [List.append_assoc, List.drop_left' hheader]
    exact List.take_left' hpayload
  have hrest : (header ++ payload ++ rest).drop (commHeaderSz + (readLe32 header).toNat)
      = rest := by
    refine List.drop_left' ?_
    rw [List.length_append, hheader, hpayload]
  obtain ⟨n, hn⟩ : ∃ n, (header ++ payload ++ rest).length = n + 1 := by
    refine ⟨commHeaderSz + (readLe32 header).toNat + rest.length - 1, ?_⟩
    rw [hlen]
    simp only [commHeaderSz]
    omega
  have hwhole : commHeaderSz + (readLe32 header).toNat ≤ (header ++ payload ++ rest).length := by
    rw [hlen]
    omega
  rw [received, hn, receivedIn]
  simp only [hread, hwhole, if_true, hfirst, hrest]
  cases parse payload with
  | none => rfl
  | some cmd =>
      refine congrArg _ (receivedIn_enough ?_ le_rfl)
      simp only [commHeaderSz] at hlen
      omega

/-- **What frames contribute to a stream** is their commands. -/
lemma received_append {bytes : List UInt8} {cmds : List Command} (h : Frames parse bytes cmds)
    (rest : List UInt8) : received parse (bytes ++ rest) = cmds ++ received parse rest := by
  induction h generalizing rest with
  | nil => rfl
  | concat h hheader hpayload hparse ih =>
      rw [List.append_assoc, ih, received_frame hheader hpayload, hparse]
      simp

end Frames

/-! ## The responses to them -/

section Answers

variable {respond : List Command → Command → Response}

lemma answers_append (before cmds rest : List Command) :
    answers respond before (cmds ++ rest)
      = answers respond before cmds ++ answers respond (before ++ cmds) rest := by
  induction cmds generalizing before with
  | nil => simp [answers]
  | cons cmd cmds ih => simp [answers, ih]

/-- A dispatcher that is handed commands changed by `f`. -/
lemma answers_map (f : Command → Command) (before cmds : List Command) :
    answers respond (before.map f) (cmds.map f)
      = answers (fun before cmd => respond (before.map f) (f cmd)) before cmds := by
  induction cmds generalizing before with
  | nil => rfl
  | cons cmd cmds ih =>
      have hrest := ih (before ++ [cmd])
      rw [List.map_append] at hrest
      rw [List.map_cons, answers, answers, ← hrest]
      rfl

variable {parse : List UInt8 → Option Command} (serialize : Response → List UInt8)

/-- The beginning of the daemon's stream, when the client's starts with whole frames. -/
lemma daemonStream_append {bytes : List UInt8} {cmds : List Command} (h : Frames parse bytes cmds)
    (rest : List UInt8) :
    daemonStream parse respond serialize (bytes ++ rest)
      = ((answers respond [] cmds).flatMap fun r => frame (serialize r)) ++
        (answers respond cmds (received parse rest)).flatMap fun r => frame (serialize r) := by
  rw [daemonStream, received_append h, answers_append, List.flatMap_append, List.nil_append]

end Answers

/-! ## What a run reads and answers -/

/-- The bytes that a read asks for. -/
def Operation.wanted : Operation → ℕ
  | readHeader => commHeaderSz
  | readCommand size _ => size.toNat
  | writeResponse _ => 0

namespace Session

namespace Completion

/-- The operation ended with an error. -/
def failed : Completion → Bool
  | header ec _ => ec
  | command _ _ ec _ _ _ => ec
  | response _ ec _ => ec

/-- The bytes it took from the socket. -/
def taken : Completion → List UInt8
  | header _ bytes => bytes
  | command _ _ _ bytes _ _ => bytes
  | response _ _ _ => []

/-- `async_read` completes without an error only once its buffer is full. -/
def Fills (c : Completion) : Prop := c.failed = false → c.taken.length = c.op.wanted

end Completion

/-- Everything the events have read. -/
def consumed (events : List Event) : List UInt8 := events.flatMap fun e => e.completion.taken

/-- The reads take the bytes of the wire in order, and none is for a command larger than
`rcv_buf_`. -/
structure ReadsFrom (wire : List UInt8) (events : List Event) : Prop where
  order : consumed events <+: wire
  fills : ∀ e ∈ events, e.completion.Fills
  small : ∀ e ∈ events, e.completion.op.wanted ≤ recvBufsz

/-- Each command was answered with the serialized response of the dispatcher, given the commands
before it. -/
def AnsweredBy (dispatcher : List Command → Command → Response)
    (serialize : Response → List UInt8) (events : List Event) : Prop :=
  (served events).map Prod.snd
    = (answers dispatcher [] ((served events).map Prod.fst)).map serialize

/-- Every operation in flight is a read, for more than the bytes that are there. -/
def Waits (s : Session) (rest : List UInt8) : Prop :=
  ∀ op ∈ s.pending, op.Reads ∧ rest.length < op.wanted

variable {parse : List UInt8 → Option Command}

lemma consumed_append (events rest : List Event) :
    consumed (events ++ rest) = consumed events ++ consumed rest := List.flatMap_append

/-! ## One completion, with what it read -/

/-- A whole header is stored, and the read of a command of the size it names is started. -/
lemma headerCompleted_read {s : Session} (hp : s.pending = [.readHeader]) {header : List UInt8}
    (hlen : header.length = commHeaderSz) :
    headerCompleted false header s
      = (.ok (), awaitCommand (readLe32 header)
          { s with pending := [], rcvBuf := s.rcvBuf.overwrite header }) := by
  have hdone : s.pending.erase .readHeader = [] := by simp [hp]
  have hbuf : (s.rcvBuf.overwrite header).bytes.take header.length = header :=
    s.rcvBuf.take_overwrite (by rw [hlen]; decide)
  have hread : readLe32 (s.rcvBuf.overwrite header).bytes = readLe32 header := by
    have htake := readLe32_take (show 4 ≤ header.length by rw [hlen]; decide)
      (s.rcvBuf.overwrite header).bytes
    rw [hbuf] at htake
    exact htake.symm
  simp only [headerCompleted, finish, store, Action.bind_run, Action.modify_run, hdone, hlen,
    headerReceived_run, hread]

/-- A command of at most `RECV_BUFSZ` bytes is read into `rcv_buf_`. -/
lemma awaitCommand_pending (size : UInt32) (s : Session) :
    (awaitCommand size s).stamp = s.stamp ∧
      ∃ data, (awaitCommand size s).pending = s.pending ++ [.readCommand size data] ∧
        (size.toNat ≤ recvBufsz → data = .rcvBuf) := by
  rw [awaitCommand]
  split_ifs with hlarge
  · exact ⟨rfl, .largeRcvBuf, rfl, fun hsmall => absurd hlarge (Nat.not_lt.mpr hsmall)⟩
  · exact ⟨rfl, .rcvBuf, rfl, fun _ => rfl⟩

/-- Up to `RECV_BUFSZ` bytes the parser is handed the bytes that were read. -/
lemma parseCommand_small {payload : List UInt8} (hsmall : payload.length ≤ recvBufsz)
    {s : Session} (hbuf : s.rcvBuf.bytes.take payload.length = payload) :
    parseCommand parse .rcvBuf payload.length s
      = (.ok (parse payload), { s with parsed := s.parsed ++ [payload] }) := by
  have hint : sizeAsInt payload.length = payload.length :=
    sizeAsInt_of_lt (lt_of_le_of_lt hsmall (by decide))
  have hread : payload.length ≤ s.rcvBuf.bytes.length := by
    rw [s.rcvBuf.length_eq]
    exact hsmall
  have hnonneg : ¬ (payload.length : ℤ) < 0 := by omega
  simp [parseCommand, readThrough, contents, hint, hnonneg, hread, hbuf]

/-- A command that was read into `rcv_buf_` is parsed from the bytes read, and answered if they are
a command. -/
lemma commandCompleted_read (parse : List UInt8 → Option Command) {s : Session} {size : UInt32}
    (hp : s.pending = [.readCommand size .rcvBuf]) (hsmall : size.toNat ≤ recvBufsz)
    {payload : List UInt8} (hlen : payload.length = size.toNat) (stray answer : List UInt8) :
    ∃ s', commandCompleted parse size .rcvBuf false payload stray answer s
        = (.ok ((parse payload).map s.stamp), s') ∧ s'.stamp = s.stamp ∧
      s'.pending = if (parse payload).isSome then
        [.writeResponse (answer.length + commHeaderSz)] else [] := by
  have hpayload : payload.length ≤ recvBufsz := hlen ▸ hsmall
  have hbuf : (s.stored .rcvBuf payload).rcvBuf.bytes.take payload.length = payload :=
    s.rcvBuf.take_overwrite hpayload
  have hguarded : (s.stored .rcvBuf payload).guarded payload.length
      = s.stored .rcvBuf payload := by
    rw [guarded, if_neg (Nat.not_lt.mpr hpayload)]
  rw [commandCompleted_run hp, Action.bind_run, Action.catching_run, ← hlen, commandReceived_ok,
    hguarded, parseCommand_small hpayload hbuf]
  cases hcmd : parse payload with
  | none =>
      refine ⟨_, rfl, rfl, rfl⟩
  | some cmd =>
      obtain ⟨s', hrun, hwrote⟩ := writeResponse_wrote answer
        { s.stored .rcvBuf payload with parsed := (s.stored .rcvBuf payload).parsed ++ [payload] }
      refine ⟨s', ?_, hwrote.stamp, hwrote.pending⟩
      simp only [Option.isSome_some, if_true, Action.bind_run, hrun, Action.pure_run,
        Option.map_some]
      rfl

/-! ## Where a session stands -/

/-- The session between two frames, with the bytes it has read since the last one it answered. -/
inductive Position (parse : List UInt8 → Option Command) (events : List Event) (s : Session)
    (tail : List UInt8) : Prop
  | header (hp : s.pending = [.readHeader]) (htail : tail = [])
  | command {data : RcvBuffer} (hlen : tail.length = commHeaderSz)
      (hp : s.pending = [.readCommand (readLe32 tail) data])
      (hdata : (readLe32 tail).toNat ≤ recvBufsz → data = .rcvBuf)
  | writing {size : ℕ} (hp : s.pending = [.writeResponse size]) (htail : tail = [])
  | garbled {header payload : List UInt8} (htail : tail = header ++ payload)
      (hheader : header.length = commHeaderSz)
      (hpayload : payload.length = (readLe32 header).toNat) (hparse : parse payload = none)
      (hp : s.pending = [])
  | failed (hfailed : ∃ e ∈ events, e.completion.failed = true) (hp : s.pending = [])

/-- The frames read have been answered, up to where the session stands. -/
structure Tracks (parse : List UInt8 → Option Command) (start : Session) (events : List Event)
    (s : Session) : Prop where
  stamp : s.stamp = start.stamp
  frames : ∃ front tail cmds, consumed events = front ++ tail ∧ Frames parse front cmds ∧
    (served events).map Prod.fst = cmds.map start.stamp ∧ Position parse events s tail

/-- The operation in flight, and what it says about the position. -/
lemma Position.of_pending {events : List Event} {s : Session} {tail : List UInt8}
    (h : Position parse events s tail) {op : Operation} (hop : op ∈ s.pending) :
    s.pending = [op] ∧ (op = .readHeader ∧ tail = [] ∨
      (∃ data, op = .readCommand (readLe32 tail) data ∧ tail.length = commHeaderSz ∧
        ((readLe32 tail).toNat ≤ recvBufsz → data = .rcvBuf)) ∨
      (∃ size, op = .writeResponse size) ∧ tail = []) := by
  cases h with
  | header hp htail =>
      rw [hp, List.mem_singleton] at hop
      subst hop
      exact ⟨hp, Or.inl ⟨rfl, htail⟩⟩
  | command hlen hp hdata =>
      rw [hp, List.mem_singleton] at hop
      subst hop
      exact ⟨hp, Or.inr (Or.inl ⟨_, rfl, hlen, hdata⟩)⟩
  | writing hp htail =>
      rw [hp, List.mem_singleton] at hop
      subst hop
      exact ⟨hp, Or.inr (Or.inr ⟨⟨_, rfl⟩, htail⟩)⟩
  | garbled _ _ _ _ hp => simp [hp] at hop
  | failed _ hp => simp [hp] at hop

/-- A session that was halted by an error. -/
lemma Tracks.halt {start s s' : Session} {events : List Event} {e : Event}
    (h : Tracks parse start events s) (hfailed : e.completion.failed = true)
    (hserved : served [e] = []) (hstamp : s'.stamp = s.stamp) (hp : s'.pending = []) :
    Tracks parse start (events ++ [e]) s' where
  stamp := hstamp.trans h.stamp
  frames := by
    obtain ⟨front, tail, cmds, hconsumed, hframes, hcmds, -⟩ := h.frames
    refine ⟨front, tail ++ e.completion.taken, cmds, ?_, hframes, ?_,
      .failed ⟨e, by simp, hfailed⟩ hp⟩
    · rw [consumed_append, hconsumed, List.append_assoc]
      simp [consumed]
    · rw [served_append, hserved, List.append_nil, hcmds]

/-- An error ends the session, whatever ends with it. -/
lemma step_failed {s s' : Session} {e : Event} (hp : s.pending = [e.completion.op])
    (hfailed : e.completion.failed = true) (hstep : Step parse s e s') :
    served [e] = [] ∧ s'.stamp = s.stamp ∧ s'.pending = [] := by
  obtain ⟨completion, cmd⟩ := e
  obtain ⟨-, hrun⟩ := hstep
  cases completion with
  | header ec bytes =>
      obtain rfl : ec = true := hfailed
      have hdone : s.pending.erase .readHeader = [] := by simp [show s.pending = _ from hp,
        Completion.op]
      simp only [Completion.run, headerCompleted, finish, store, headerReceived, stop,
        Action.bind_run, Action.modify_run, hdone, if_true, Action.pure_run, Prod.mk.injEq] at hrun
      obtain ⟨-, rfl⟩ := hrun
      exact ⟨rfl, rfl, rfl⟩
  | command size data ec bytes stray answer =>
      obtain rfl : ec = true := hfailed
      obtain ⟨hstored, hnone, -⟩ := stored_keeps parse s data bytes
      obtain ⟨hguarded, hsame, -⟩ := guarded_keeps parse (s.stored data bytes) size.toNat
      have hrun : commandCompleted parse size data true bytes stray answer s = (.ok cmd, s') := hrun
      rw [commandCompleted_run hp, Action.bind_run, Action.catching_run,
        commandReceived_failed] at hrun
      cases hrun
      exact ⟨rfl, (hstored.trans hguarded).stamp, hsame.trans hnone⟩
  | response size ec transferred =>
      obtain rfl : ec = true := hfailed
      obtain ⟨t, ht, hkeeps, hend⟩ := responseCompleted_cases parse hp true transferred
      simp only [Completion.run, Action.bind_run, ht, Action.pure_run, Prod.mk.injEq] at hrun
      obtain ⟨-, rfl⟩ := hrun
      exact ⟨rfl, hkeeps.stamp, (hend.resolve_right (by simp)).1.1⟩

section Step

variable {start s s' : Session} {events : List Event}

/-- After a header the session has read eight bytes more than the frames. -/
lemma Tracks.header (h : Tracks parse start events s) {bytes : List UInt8} {cmd : Option Command}
    (hstep : Step parse s ⟨.header false bytes, cmd⟩ s') (hlen : bytes.length = commHeaderSz) :
    Tracks parse start (events ++ [⟨.header false bytes, cmd⟩]) s' := by
  obtain ⟨front, tail, cmds, hconsumed, hframes, hcmds, hposition⟩ := h.frames
  obtain ⟨hp, hkind⟩ := hposition.of_pending hstep.1
  obtain ⟨-, hrun⟩ := hstep
  have hp : s.pending = [.readHeader] := hp
  obtain rfl : tail = [] := by
    rcases hkind with ⟨-, htail⟩ | ⟨data, hop, -⟩ | ⟨-, htail⟩
    · exact htail
    · cases hop
    · exact htail
  simp only [Completion.run, Action.bind_run, headerCompleted_read hp hlen, Action.pure_run,
    Prod.mk.injEq] at hrun
  obtain ⟨-, rfl⟩ := hrun
  obtain ⟨hstamp, data, hpending, hdata⟩ := awaitCommand_pending (readLe32 bytes)
    { s with pending := [], rcvBuf := s.rcvBuf.overwrite bytes }
  refine ⟨hstamp.trans h.stamp, front, bytes, cmds, ?_, hframes, ?_, .command hlen hpending hdata⟩
  · rw [consumed_append, hconsumed, List.append_nil]
    simp [consumed, Completion.taken]
  · rw [served_append, ← hcmds]
    exact congrArg _ (List.append_nil _)

/-- A command completes a frame, or ends the session. -/
lemma Tracks.command (h : Tracks parse start events s) {size : UInt32} {data : RcvBuffer}
    {bytes stray answer : List UInt8} {cmd : Option Command}
    (hstep : Step parse s ⟨.command size data false bytes stray answer, cmd⟩ s')
    (hlen : bytes.length = size.toNat) (hsmall : size.toNat ≤ recvBufsz) :
    Tracks parse start (events ++ [⟨.command size data false bytes stray answer, cmd⟩]) s' := by
  obtain ⟨front, header, cmds, hconsumed, hframes, hcmds, hposition⟩ := h.frames
  obtain ⟨hp, hkind⟩ := hposition.of_pending hstep.1
  obtain ⟨-, hrun⟩ := hstep
  obtain ⟨rfl, rfl, hheader⟩ :
      size = readLe32 header ∧ data = .rcvBuf ∧ header.length = commHeaderSz := by
    rcases hkind with ⟨hop, -⟩ | ⟨buffer, hop, hheader, hbuffer⟩ | ⟨⟨n, hop⟩, -⟩
    · cases hop
    · cases hop
      exact ⟨rfl, hbuffer hsmall, hheader⟩
    · cases hop
  obtain ⟨t, ht, hstamp, hpending⟩ := commandCompleted_read parse hp hsmall hlen stray answer
  have hrun : commandCompleted parse (readLe32 header) .rcvBuf false bytes stray answer s
      = (.ok cmd, s') := hrun
  rw [ht] at hrun
  cases hrun
  have hall : consumed (events ++ [⟨.command (readLe32 header) .rcvBuf false bytes stray answer,
      (parse bytes).map s.stamp⟩]) = front ++ (header ++ bytes) := by
    rw [consumed_append, hconsumed, List.append_assoc]
    simp [consumed, Completion.taken]
  cases hcmd : parse bytes with
  | none =>
      rw [hcmd] at hall hpending
      refine ⟨hstamp.trans h.stamp, front, header ++ bytes, cmds, hall, hframes, ?_,
        .garbled rfl hheader hlen hcmd hpending⟩
      rw [served_append, ← hcmds]
      exact congrArg _ (List.append_nil _)
  | some parsed =>
      rw [hcmd] at hall hpending
      refine ⟨hstamp.trans h.stamp, front ++ (header ++ bytes), [], cmds ++ [parsed], ?_,
        .concat hframes hheader hlen hcmd, ?_, .writing hpending rfl⟩
      · rw [List.append_nil]
        exact hall
      · rw [served_append, List.map_append, hcmds, List.map_append, ← h.stamp]
        rfl

/-- A response that was sent changes nothing about the frames. -/
lemma Tracks.response (h : Tracks parse start events s) {size transferred : ℕ}
    {cmd : Option Command} (hstep : Step parse s ⟨.response size false transferred, cmd⟩ s') :
    Tracks parse start (events ++ [⟨.response size false transferred, cmd⟩]) s' := by
  obtain ⟨front, tail, cmds, hconsumed, hframes, hcmds, hposition⟩ := h.frames
  obtain ⟨hp, hkind⟩ := hposition.of_pending hstep.1
  obtain ⟨-, hrun⟩ := hstep
  obtain rfl : tail = [] := by
    rcases hkind with ⟨-, htail⟩ | ⟨data, hop, -⟩ | ⟨-, htail⟩
    · exact htail
    · cases hop
    · exact htail
  obtain ⟨t, ht, hkeeps, hend⟩ := responseCompleted_cases parse hp false transferred
  simp only [Completion.run, Action.bind_run, ht, Action.pure_run, Prod.mk.injEq] at hrun
  obtain ⟨-, rfl⟩ := hrun
  obtain ⟨⟨hpending, -⟩, -⟩ := hend.resolve_left (by simp)
  refine ⟨hkeeps.stamp.trans h.stamp, front, [], cmds, ?_, hframes, ?_, .header hpending rfl⟩
  · rw [consumed_append, hconsumed]
    exact List.append_nil _
  · rw [served_append, ← hcmds]
    exact congrArg _ (List.append_nil _)

/-- **Every completion that reads from the wire keeps track of it.** -/
lemma Tracks.step (h : Tracks parse start events s) {e : Event} (hstep : Step parse s e s')
    (hfills : e.completion.Fills) (hsmall : e.completion.op.wanted ≤ recvBufsz) :
    Tracks parse start (events ++ [e]) s' := by
  obtain ⟨front, tail, cmds, -, -, -, hposition⟩ := h.frames
  cases hfailed : e.completion.failed with
  | true =>
      obtain ⟨hserved, hstamp, hpending⟩ :=
        step_failed (hposition.of_pending hstep.1).1 hfailed hstep
      exact h.halt hfailed hserved hstamp hpending
  | false =>
      have hfull := hfills hfailed
      obtain ⟨completion, cmd⟩ := e
      cases completion with
      | header ec bytes =>
          obtain rfl : ec = false := hfailed
          exact h.header hstep hfull
      | command size data ec bytes stray answer =>
          obtain rfl : ec = false := hfailed
          exact h.command hstep hfull hsmall
      | response size ec transferred =>
          obtain rfl : ec = false := hfailed
          exact h.response hstep

/-- A session that has just started has read nothing. -/
lemma tracks_start (hp : start.pending = [.readHeader]) : Tracks parse start [] start where
  stamp := rfl
  frames := ⟨[], [], [], rfl, .nil, rfl, .header hp rfl⟩

/-- **The run lemma.** -/
lemma tracks_run (hp : start.pending = [.readHeader]) (hrun : Run (Step parse) start events s)
    {wire : List UInt8} (hreads : ReadsFrom wire events) : Tracks parse start events s := by
  refine hrun.invariant (I := fun done t => (∀ e ∈ done, e.completion.Fills ∧
    e.completion.op.wanted ≤ recvBufsz) → Tracks parse start done t) (fun _ => tracks_start hp) ?_
    fun e he => ⟨hreads.fills e he, hreads.small e he⟩
  intro done e t u ih hstep hdone
  obtain ⟨hfront, hlast⟩ := List.forall_mem_append.mp hdone
  obtain ⟨hfills, hsmall⟩ := hlast e List.mem_cons_self
  exact (ih hfront).step hstep hfills hsmall

/-- The bytes since the last frame hold no command that the session could read. -/
lemma Position.nothing_received {tail rest : List UInt8} (h : Position parse events s tail)
    (hwaits : s.Waits rest) (hnone : ∀ e ∈ events, e.completion.failed = false) :
    received parse (tail ++ rest) = [] := by
  cases h with
  | header hp htail =>
      obtain ⟨-, hshort⟩ := hwaits .readHeader (by simp [hp])
      have hshort : rest.length < commHeaderSz := hshort
      rw [htail, List.nil_append]
      exact received_incomplete (Nat.lt_add_right _ hshort)
  | @command data hlen hp _ =>
      obtain ⟨-, hshort⟩ := hwaits (.readCommand (readLe32 tail) data) (by simp [hp])
      have hshort : rest.length < (readLe32 tail).toNat := hshort
      refine received_incomplete ?_
      rw [readLe32_append hlen, List.length_append, hlen]
      exact Nat.add_lt_add_left hshort _
  | @writing size hp _ =>
      obtain ⟨hreads, -⟩ := hwaits (.writeResponse size) (by simp [hp])
      exact hreads.elim
  | garbled htail hheader hpayload hparse _ =>
      rw [htail, received_frame hheader hpayload, hparse]
  | failed hfailed _ =>
      obtain ⟨e, he, hfailed⟩ := hfailed
      rw [hnone e he] at hfailed
      cases hfailed

/-- A session that was not refused waits for a header. -/
lemma Fresh.started {s₀ s₁ : Session} (h : s₀.Fresh) {peer : Option Ucred}
    (hstart : Session.start peer s₀ = (.ok (), s₁)) (hopen : s₁.opened = true) :
    s₁.pending = [.readHeader] := by
  by_cases hpid : (unixAuthId peer).pid.toInt64.toUInt64 = 0
  · simp [Session.start, authenticate, Session.stop, hpid] at hstart
    rw [← hstart] at hopen
    cases hopen
  · simp [Session.start, authenticate, protoStart, begin, hpid, h.pending] at hstart
    rw [← hstart]

/-- What has been written is the frames of the dispatcher's responses. -/
lemma Inv.sent_eq (h : Inv parse events s) {cmds : List Command}
    (hcmds : (served events).map Prod.fst = cmds.map start.stamp)
    {dispatcher : List Command → Command → Response} {serialize : Response → List UInt8}
    (hanswers : AnsweredBy dispatcher serialize events) :
    s.sent.flatten = (answers (fun before cmd =>
      dispatcher (before.map start.stamp) (start.stamp cmd)) [] cmds).flatMap
        fun r => frame (serialize r) := by
  have hsent : s.sent = ((served events).map Prod.snd).map frame := by
    rw [h.answered, List.map_map]
    rfl
  have hmap := @answers_map dispatcher start.stamp [] cmds
  rw [List.map_nil] at hmap
  rw [hsent, hanswers, hcmds, hmap, List.map_map, List.flatMap_def]
  rfl

/-- **A session writes the stream that the client reads.**  After every run whose reads come from
the wire and whose commands are answered by a dispatcher, the bytes written so far begin the
stream of the responses to the commands in the wire, each of them under the credentials of the
session; and they are all of it when nothing has failed and the session waits for more bytes than
are left. -/
theorem session_refines_stream {s₀ s₁ s : Session} (hfresh : s₀.Fresh) {peer : Option Ucred}
    (hstart : Session.start peer s₀ = (.ok (), s₁)) (hopen : s₁.opened = true)
    {events : List Event} (hrun : Run (Step parse) s₁ events s) {wire : List UInt8}
    (hreads : ReadsFrom wire events) {dispatcher : List Command → Command → Response}
    {serialize : Response → List UInt8} (hanswers : AnsweredBy dispatcher serialize events) :
    let respond : List Command → Command → Response := fun before cmd =>
      dispatcher (before.map s₁.stamp) (s₁.stamp cmd)
    s.sent.flatten <+: daemonStream parse respond serialize wire ∧
      (s.Waits (wire.drop (consumed events).length) →
        (∀ e ∈ events, e.completion.failed = false) →
          s.sent.flatten = daemonStream parse respond serialize wire) := by
  intro respond
  obtain ⟨s', hs', hinit⟩ := hfresh.start parse peer
  obtain rfl : s' = s₁ := by
    rw [hs'] at hstart
    cases hstart
    rfl
  have hinv : Inv parse events s := hrun.invariant hinit fun _ _ _ _ h hstep => h.step hstep
  obtain ⟨front, tail, cmds, hconsumed, hframes, hcmds, hposition⟩ :=
    (tracks_run (hfresh.started hstart hopen) hrun hreads).frames
  obtain ⟨rest, hwire⟩ := hreads.order
  have hstream : daemonStream parse respond serialize wire = s.sent.flatten ++
      (answers respond cmds (received parse (tail ++ rest))).flatMap
        fun r => frame (serialize r) := by
    rw [← hwire, hconsumed, List.append_assoc, daemonStream_append serialize hframes,
      hinv.sent_eq hcmds hanswers]
  refine ⟨⟨_, hstream.symm⟩, fun hwaits hnone => ?_⟩
  have hrest : wire.drop (consumed events).length = rest := by
    rw [← hwire, List.drop_left]
  rw [hrest] at hwaits
  rw [hstream, hposition.nothing_received hwaits hnone]
  exact (List.append_nil _).symm

end Step

/-- The completions that serve the command of a client, and the response to it. -/
def aliceEvents : List Event :=
  servingEvents (serializeAuth { auth := "alice" }) [0x08, 0x01]
    (idleSession.stamp { auth := "alice" })

/-- A session that serves one command has written the response to it. -/
theorem session_refines_stream_alice :
    ∃ s, Run (Step parseAuth) idleSession aliceEvents s ∧
      s.sent.flatten = daemonStream parseAuth (fun _ _ => { id := 1 }) serializeId
        (frame (serializeAuth { auth := "alice" })) := by
  have hsmall : (serializeAuth { auth := "alice" }).length ≤ recvBufsz := by decide
  have hparse : parseAuth (serializeAuth { auth := "alice" }) = some { auth := "alice" } := by
    decide
  have hp : idleSession.pending = [.readHeader] := rfl
  obtain ⟨s, hrun, hwaiting⟩ := exists_serving_run hsmall hp hparse [0x08, 0x01]
  have hstart : start (some ⟨100, 1, 1⟩) {} = (.ok (), idleSession) := rfl
  have hreads : ReadsFrom (frame (serializeAuth { auth := "alice" })) aliceEvents := by
    refine ⟨⟨[], rfl⟩, ?_, ?_⟩
    · simp only [aliceEvents, servingEvents, List.forall_mem_cons]
      exact ⟨fun _ => rfl, fun _ => rfl, fun _ => rfl, by simp⟩
    · simp only [aliceEvents, servingEvents, List.forall_mem_cons]
      exact ⟨by decide, by decide, by decide, by simp⟩
  have hnone : ∀ e ∈ aliceEvents, e.completion.failed = false := by
    simp [aliceEvents, servingEvents, Completion.failed]
  have hwaits : s.Waits ((frame (serializeAuth { auth := "alice" })).drop
      (consumed aliceEvents).length) := by
    intro op hop
    rw [hwaiting, List.mem_singleton] at hop
    rw [hop]
    exact ⟨trivial, by decide⟩
  have hanswers : AnsweredBy (fun _ _ => { id := 1 }) serializeId aliceEvents := rfl
  refine ⟨s, hrun, ?_⟩
  exact (session_refines_stream ⟨rfl, rfl, rfl, rfl⟩ hstart rfl hrun hreads hanswers).2 hwaits
    hnone

end Session

end Libport
