import Libport.Lib.Run
import Libport.Server.Framing
import Libport.Server.Transport

/-!
# The life of a session (`server/session.cc`)

The five callbacks of a session arm each other: each is the handler of one asynchronous operation
and starts the next one, or stops the session.  A run is a sequence of completions in any order:
any operation in flight may complete next, with or without an error, with any bytes.

* `Completion` is the end of one operation, with what the handler gets to see, and
  `Completion.run` is its handler.  The dispatcher calls the writer once, with any response.
* A parse that reads past the end of its buffer sees bytes of no one's choosing, and the session
  goes on with what they parse to.
* `served` lists the commands parsed along a run, with the response to each; `delivered` lists the
  sizes of the responses whose write succeeded.
* `Phase`: exactly one operation is in flight while the session is open, and none once it is
  stopped.  `Inv` is kept by every completion.
* **`orderly`**: the invariant as the session's users see it, for every run of any session.
-/

namespace Libport

/-- The operation reads. -/
def Operation.Reads : Operation → Prop
  | readHeader | readCommand .. => True
  | writeResponse _ => False

namespace Session

variable (parse : List UInt8 → Option Command)

/-! ## Completions -/

/-- An operation that has completed is no longer in flight. -/
def finish (op : Operation) : Action Fault Session Unit :=
  Action.modify fun s => { s with pending := s.pending.erase op }

/-- `header_received`, once the bytes read are stored. -/
def headerCompleted (ec : Bool) (bytes : List UInt8) : Action Fault Session Unit := do
  finish .readHeader
  store .rcvBuf bytes
  headerReceived ec bytes.length

/-- The rest of `command_received` when the parser reads past the end of the buffer and finds
`stray` there. -/
def parseStray (stray : List UInt8) : Fault → Option (Action Fault Session (Option Command))
  | .danglingRead => some do
      Action.modify fun s => { s with parsed := s.parsed ++ [stray] }
      match parse stray with
      | none =>
          stop
          pure none
      | some cmd =>
          let s ← Action.get
          pure (some (s.stamp cmd))

/-- `command_received`, once the bytes read are stored, with a dispatcher that calls the
writer once, with `answer`. -/
def commandCompleted (size : UInt32) (data : RcvBuffer) (ec : Bool)
    (bytes stray answer : List UInt8) : Action Fault Session (Option Command) := do
  finish (.readCommand size data)
  store data bytes
  let cmd ← (commandReceived parse ec size.toNat data).catching (parseStray parse stray)
  if cmd.isSome then writeResponse answer
  pure cmd

/-- `response_sent`: a write from `snd_buf_` has its length bound, the other one is told how much
was transferred. -/
def responseCompleted (size : ℕ) (ec : Bool) (transferred : ℕ) : Action Fault Session Unit := do
  finish (.writeResponse size)
  responseSent ec (if size > sendBufsz then transferred else size)

/-- The end of an asynchronous operation.  For a command, `stray` and `answer` are what the
parser may find behind its buffer and the response of the dispatcher. -/
inductive Completion
  | header (ec : Bool) (bytes : List UInt8)
  | command (size : UInt32) (data : RcvBuffer) (ec : Bool) (bytes stray answer : List UInt8)
  | response (size : ℕ) (ec : Bool) (transferred : ℕ)

namespace Completion

/-- The operation that ends. -/
def op : Completion → Operation
  | header .. => .readHeader
  | command size data .. => .readCommand size data
  | response size .. => .writeResponse size

/-- Its handler; the command dispatched is returned. -/
def run : Completion → Action Fault Session (Option Command)
  | header ec bytes => do
      headerCompleted ec bytes
      pure none
  | command size data ec bytes stray answer =>
      commandCompleted parse size data ec bytes stray answer
  | response size ec transferred => do
      responseCompleted size ec transferred
      pure none

end Completion

/-- A completion, with the command its handler dispatched. -/
structure Event where
  completion : Completion
  cmd : Option Command

/-- An operation in flight completes and its handler runs. -/
def Step (s : Session) (e : Event) (s' : Session) : Prop :=
  e.completion.op ∈ s.pending ∧ e.completion.run parse s = (.ok e.cmd, s')

/-! ## What has happened along a run -/

/-- The commands parsed, each with the response the dispatcher gave to it. -/
def served (events : List Event) : List (Command × List UInt8) :=
  events.filterMap fun
    | ⟨.command _ _ _ _ _ answer, some cmd⟩ => some (cmd, answer)
    | _ => none

/-- The sizes of the responses whose write has succeeded. -/
def delivered (events : List Event) : List ℕ :=
  events.filterMap fun
    | ⟨.response size false _, _⟩ => some size
    | _ => none

/-- What holds of a session after `events`, as far as its users can tell. -/
structure Orderly (events : List Event) (s : Session) : Prop where
  /-- at most one operation is in flight -/
  single : s.pending.length ≤ 1
  /-- and none after `stop` -/
  stopped : s.opened = false → s.pending = []
  /-- a handler runs with nothing else in flight, so no operation uses a buffer it writes to -/
  alone : ∀ e s', Step parse s e s' → s.pending = [e.completion.op]
  /-- every command parsed was dispatched, in order, with the credentials of the session -/
  parsed : (served events).map Prod.fst = (s.parsed.filterMap parse).map s.stamp
  /-- and exactly one response was written for each, in that order -/
  answered : s.sent = (served events).map fun p => frame p.2
  /-- no read is in flight before every response has been sent completely -/
  reading : ∀ op ∈ s.pending, op.Reads → delivered events = s.sent.map List.length

/-! ## What one completion does -/

/-- The session keeps its credentials and everything read and written so far. -/
structure Keeps (s s' : Session) : Prop where
  sent : s'.sent = s.sent
  parsed : s'.parsed.filterMap parse = s.parsed.filterMap parse
  stamp : s'.stamp = s.stamp

/-- Nothing is in flight and the session is stopped. -/
def Halted (s : Session) : Prop := s.pending = [] ∧ s.opened = false

/-- One operation is in flight and the session is as open as before. -/
def Armed (s s' : Session) (op : Operation) : Prop := s'.pending = [op] ∧ s'.opened = s.opened

variable {parse}

lemma headerCompleted_cases (parse : List UInt8 → Option Command) {s : Session}
    (hp : s.pending = [.readHeader]) (ec : Bool) (bytes : List UInt8) :
    ∃ s', headerCompleted ec bytes s = (.ok (), s') ∧ s.Keeps parse s' ∧
      (s'.Halted ∨ ∃ size data, s.Armed s' (.readCommand size data)) := by
  have hdone : s.pending.erase .readHeader = [] := by simp [hp]
  by_cases hfail : ec = true ∨ bytes.length < commHeaderSz
  · refine ⟨{ s with
      pending := []
      rcvBuf := s.rcvBuf.overwrite bytes
      opened := false }, ?_, ⟨rfl, rfl, rfl⟩, Or.inl ⟨rfl, rfl⟩⟩
    rcases hfail with rfl | hshort
    · simp [headerCompleted, finish, store, headerReceived, stop, hdone]
    · cases ec <;> simp [headerCompleted, finish, store, headerReceived, stop, hdone, hshort]
  · obtain ⟨hec, hlen⟩ := not_or.mp hfail
    have hec : ec = false := by simpa using hec
    by_cases hlarge : (readLe32 (s.rcvBuf.overwrite bytes).bytes).toNat > recvBufsz
    · refine ⟨{ s with
        pending := [.readCommand (readLe32 (s.rcvBuf.overwrite bytes).bytes) .largeRcvBuf]
        rcvBuf := s.rcvBuf.overwrite bytes
        largeRcvBuf := List.replicate (readLe32 (s.rcvBuf.overwrite bytes).bytes).toNat 0 },
        ?_, ⟨rfl, rfl, rfl⟩, Or.inr ⟨_, _, rfl, rfl⟩⟩
      simp [headerCompleted, finish, store, headerReceived, begin, hdone, hec, hlen, hlarge]
    · refine ⟨{ s with
        pending := [.readCommand (readLe32 (s.rcvBuf.overwrite bytes).bytes) .rcvBuf]
        rcvBuf := s.rcvBuf.overwrite bytes }, ?_, ⟨rfl, rfl, rfl⟩, Or.inr ⟨_, _, rfl, rfl⟩⟩
      simp [headerCompleted, finish, store, headerReceived, begin, hdone, hec, hlen, hlarge]

/-- A read ends with the bytes asked for, or past the end of the buffer. -/
lemma readThrough_cases (data : RcvBuffer) (len : ℕ) (s : Session) :
    (∃ bytes, readThrough data len s = (.ok bytes, s)) ∨
      readThrough data len s = (.error .danglingRead, s) := by
  by_cases h : len ≤ (s.contents data).length
  · exact Or.inl ⟨(s.contents data).take len, by simp [readThrough, h]⟩
  · exact Or.inr (by simp [readThrough, h])

/-- The three ways a parse ends: the length is negative, some bytes were parsed, or the read goes
past the end of the buffer. -/
lemma parseCommand_cases (parse : List UInt8 → Option Command) (data : RcvBuffer) (len : ℕ)
    (s : Session) :
    parseCommand parse data len s = (.ok none, s) ∨
      (∃ bytes, parseCommand parse data len s
        = (.ok (parse bytes), { s with parsed := s.parsed ++ [bytes] })) ∨
      parseCommand parse data len s = (.error .danglingRead, s) := by
  obtain ⟨size, hsize⟩ : ∃ size, sizeAsInt len = size := ⟨_, rfl⟩
  by_cases hneg : size < 0
  · exact Or.inl (by simp [parseCommand, hsize, hneg])
  · rcases readThrough_cases data size.toNat s with ⟨bytes, hread⟩ | hread
    · exact Or.inr (Or.inl ⟨bytes, by simp [parseCommand, hsize, hneg, hread]⟩)
    · exact Or.inr (Or.inr (by simp [parseCommand, hsize, hneg, hread]))

/-- The session after the nameless guard of `command_received`. -/
def guarded (len : ℕ) (s : Session) : Session :=
  if len > recvBufsz then { s with largeRcvBuf := [] } else s

/-- The session after `bytes` were parsed: it is stopped if they are no command. -/
def afterParse (parse : List UInt8 → Option Command) (bytes : List UInt8) (s : Session) :
    Session :=
  { s with
    parsed := s.parsed ++ [bytes]
    opened := s.opened && (parse bytes).isSome }

/-- `command_received` without an error, whatever the parse is. -/
lemma guardedParse_run (act : Action Fault Session (Option Command)) (len : ℕ) (s : Session) :
    (do
      if len > recvBufsz then clearLargeRcvBuffer
      if false then
        stop
        pure none
      else
        match ← act with
        | none =>
            stop
            pure none
        | some cmd =>
            let s ← Action.get
            pure (some (s.stamp cmd)) : Action Fault Session (Option Command)) s
      = match act (s.guarded len) with
        | (.ok none, t) => (.ok none, { t with opened := false })
        | (.ok (some cmd), t) => (.ok (some (t.stamp cmd)), t)
        | (.error e, t) => (.error e, t) := by
  rw [guarded]
  by_cases hlarge : len > recvBufsz
  · simp only [hlarge, if_true, clearLargeRcvBuffer, Action.bind_run, Action.modify_run,
      Bool.false_eq_true, if_false]
    rcases act _ with ⟨_ | _ | cmd, t⟩ <;> rfl
  · simp only [hlarge, if_false, Action.bind_run, Bool.false_eq_true]
    rcases act s with ⟨_ | _ | cmd, t⟩ <;> rfl

lemma commandReceived_ok (len : ℕ) (data : RcvBuffer) (s : Session) :
    commandReceived parse false len data s =
      match parseCommand parse data len (s.guarded len) with
      | (.ok none, t) => (.ok none, { t with opened := false })
      | (.ok (some cmd), t) => (.ok (some (t.stamp cmd)), t)
      | (.error e, t) => (.error e, t) :=
  guardedParse_run (parseCommand parse data len) len s

lemma commandReceived_failed (len : ℕ) (data : RcvBuffer) (s : Session) :
    commandReceived parse true len data s = (.ok none, { s.guarded len with opened := false }) := by
  by_cases hlarge : len > recvBufsz
  · simp [commandReceived, guarded, clearLargeRcvBuffer, stop, hlarge]
  · simp [commandReceived, guarded, stop, hlarge]

/-- A command is not parsed at all, or some bytes are, those read or those found. -/
lemma commandReceived_cases (ec : Bool) (len : ℕ) (data : RcvBuffer) (stray : List UInt8)
    (s : Session) :
    (commandReceived parse ec len data).catching (parseStray parse stray) s
        = (.ok none, { s.guarded len with opened := false }) ∨
      ∃ bytes, (commandReceived parse ec len data).catching (parseStray parse stray) s
        = (.ok ((parse bytes).map s.stamp), (s.guarded len).afterParse parse bytes) := by
  have hstamp : (s.guarded len).stamp = s.stamp := by
    rw [guarded]
    split_ifs <;> rfl
  rw [Action.catching_run]
  cases ec with
  | true =>
      rw [commandReceived_failed]
      exact Or.inl rfl
  | false =>
      rw [commandReceived_ok]
      rcases parseCommand_cases parse data len (s.guarded len) with
        h | ⟨bytes, h⟩ | h <;> rw [h]
      · exact Or.inl rfl
      · right
        refine ⟨bytes, ?_⟩
        cases hb : parse bytes <;> simp [afterParse, hb, ← hstamp, stamp]
      · right
        refine ⟨stray, ?_⟩
        cases hb : parse stray <;> simp [parseStray, afterParse, hb, ← hstamp, stamp, stop]

/-- The session when the handler of a command starts. -/
def stored (s : Session) (data : RcvBuffer) (bytes : List UInt8) : Session :=
  (store data bytes { s with pending := [] }).2

lemma stored_keeps (parse : List UInt8 → Option Command) (s : Session) (data : RcvBuffer)
    (bytes : List UInt8) :
    s.Keeps parse (s.stored data bytes) ∧ (s.stored data bytes).pending = [] ∧
      (s.stored data bytes).opened = s.opened := by
  cases data <;> exact ⟨⟨rfl, rfl, rfl⟩, rfl, rfl⟩

lemma guarded_keeps (parse : List UInt8 → Option Command) (s : Session) (len : ℕ) :
    s.Keeps parse (s.guarded len) ∧ (s.guarded len).pending = s.pending ∧
      (s.guarded len).opened = s.opened := by
  rw [guarded]
  split_ifs <;> exact ⟨⟨rfl, rfl, rfl⟩, rfl, rfl⟩

lemma Keeps.trans {s t u : Session} (h : s.Keeps parse t) (h' : t.Keeps parse u) :
    s.Keeps parse u :=
  ⟨h'.sent.trans h.sent, h'.parsed.trans h.parsed, h'.stamp.trans h.stamp⟩

lemma commandCompleted_run {s : Session} {size : UInt32} {data : RcvBuffer}
    (hp : s.pending = [.readCommand size data]) (ec : Bool) (bytes stray answer : List UInt8) :
    commandCompleted parse size data ec bytes stray answer s
      = (do
          let cmd ← (commandReceived parse ec size.toNat data).catching (parseStray parse stray)
          if cmd.isSome then writeResponse answer
          pure cmd : Action Fault Session (Option Command)) (s.stored data bytes) := by
  have hdone : s.pending.erase (.readCommand size data) = [] := by simp [hp]
  simp only [commandCompleted, finish, Action.bind_run, Action.modify_run, hdone]
  rfl

/-- **A command ends the session, or it is answered**, with one write. -/
lemma commandCompleted_cases {s : Session} {size : UInt32} {data : RcvBuffer}
    (hp : s.pending = [.readCommand size data]) (ec : Bool) (bytes stray answer : List UInt8) :
    (∃ s', commandCompleted parse size data ec bytes stray answer s = (.ok none, s') ∧
        s.Keeps parse s' ∧ s'.Halted) ∨
      ∃ cmd s', commandCompleted parse size data ec bytes stray answer s
          = (.ok (some (s.stamp cmd)), s') ∧
        s'.sent = s.sent ++ [frame answer] ∧
        s'.parsed.filterMap parse = s.parsed.filterMap parse ++ [cmd] ∧ s'.stamp = s.stamp ∧
        s.Armed s' (.writeResponse (answer.length + commHeaderSz)) := by
  obtain ⟨hstored, hnone, hopened⟩ := stored_keeps parse s data bytes
  obtain ⟨hguarded, hsame, hsame'⟩ := guarded_keeps parse (s.stored data bytes) size.toNat
  have hkeeps := hstored.trans hguarded
  rw [commandCompleted_run hp, Action.bind_run]
  rcases commandReceived_cases ec size.toNat data stray (s.stored data bytes) with
    h | ⟨parsed, h⟩ <;> rw [h]
  · exact Or.inl ⟨_, rfl, ⟨hkeeps.sent, hkeeps.parsed, hkeeps.stamp⟩, hsame.trans hnone, rfl⟩
  · cases hcmd : parse parsed with
    | none =>
        refine Or.inl ⟨_, rfl, ⟨hkeeps.sent, ?_, hkeeps.stamp⟩, hsame.trans hnone, ?_⟩
        · simp [afterParse, hcmd, hkeeps.parsed]
        · simp [afterParse, hcmd]
    | some cmd =>
        right
        obtain ⟨s', hrun, hwrote⟩ := writeResponse_wrote answer
          (((s.stored data bytes).guarded size.toNat).afterParse parse parsed)
        refine ⟨cmd, s', ?_, ?_, ?_, ?_, ?_, ?_⟩
        · simp [hrun, ← hstored.stamp]
        · rw [hwrote.sent]
          exact congrArg (· ++ [frame answer]) hkeeps.sent
        · simp [hwrote.parsed, afterParse, hcmd, hkeeps.parsed]
        · exact hwrote.stamp.trans hkeeps.stamp
        · rw [hwrote.pending]
          simp [afterParse, hsame, hnone]
        · rw [hwrote.opened]
          simp [afterParse, hcmd, hsame', hopened]

/-- A response that was sent starts the next header read, another one stops the session. -/
lemma responseCompleted_cases (parse : List UInt8 → Option Command) {s : Session} {size : ℕ}
    (hp : s.pending = [.writeResponse size]) (ec : Bool) (transferred : ℕ) :
    ∃ s', responseCompleted size ec transferred s = (.ok (), s') ∧ s.Keeps parse s' ∧
      (s'.Halted ∧ ec = true ∨ s.Armed s' .readHeader ∧ ec = false) := by
  have hdone : s.pending.erase (.writeResponse size) = [] := by simp [hp]
  simp only [responseCompleted, finish, Action.bind_run, Action.modify_run, hdone]
  generalize (if size > sendBufsz then transferred else size) = len
  cases ec with
  | false =>
      refine ⟨{ s with
        largeSndBuf := if len > sendBufsz then [] else s.largeSndBuf
        pending := [.readHeader] }, ?_, ⟨rfl, rfl, rfl⟩, Or.inr ⟨⟨rfl, rfl⟩, rfl⟩⟩
      by_cases hlarge : len > sendBufsz <;>
        simp [responseSent, clearLargeSndBuffer, protoStart, begin, hlarge]
  | true =>
      refine ⟨{ s with
        largeSndBuf := if len > sendBufsz then [] else s.largeSndBuf
        pending := []
        opened := false }, ?_, ⟨rfl, rfl, rfl⟩, Or.inl ⟨⟨rfl, rfl⟩, rfl⟩⟩
      by_cases hlarge : len > sendBufsz <;>
        simp [responseSent, clearLargeSndBuffer, stop, hlarge]

/-! ## Runs -/

/-- Where a session stands once writes of the sizes `done` have succeeded. -/
inductive Phase (done : List ℕ) (s : Session) : Prop
  | halted (h : s.Halted)
  | reading {op : Operation} (hp : s.pending = [op]) (hreads : op.Reads) (hopen : s.opened = true)
      (hdone : done = s.sent.map List.length)
  | writing {size : ℕ} (hp : s.pending = [.writeResponse size]) (hopen : s.opened = true)
      (hdone : done ++ [size] = s.sent.map List.length)

/-- The invariant of a run. -/
structure Inv (parse : List UInt8 → Option Command) (events : List Event) (s : Session) :
    Prop where
  phase : s.Phase (delivered events)
  parsed : (served events).map Prod.fst = (s.parsed.filterMap parse).map s.stamp
  answered : s.sent = (served events).map fun p => frame p.2

lemma served_append (events rest : List Event) :
    served (events ++ rest) = served events ++ served rest := by
  simp [served, List.filterMap_append]

lemma delivered_append (events rest : List Event) :
    delivered (events ++ rest) = delivered events ++ delivered rest := by
  simp [delivered, List.filterMap_append]

/-- The operation that completes is the only one in flight. -/
lemma Phase.alone {done : List ℕ} {s : Session} (h : s.Phase done) {op : Operation}
    (hop : op ∈ s.pending) : s.pending = [op] := by
  cases h with
  | halted h => simp [h.1] at hop
  | reading hp _ _ _ =>
      rw [hp, List.mem_singleton] at hop
      rw [hp, hop]
  | writing hp _ _ =>
      rw [hp, List.mem_singleton] at hop
      rw [hp, hop]

/-- While a read is in flight, every response has been sent. -/
lemma Phase.of_reads {done : List ℕ} {s : Session} (h : s.Phase done) {op : Operation}
    (hp : s.pending = [op]) (hreads : op.Reads) :
    s.opened = true ∧ done = s.sent.map List.length := by
  cases h with
  | halted h => simp [h.1] at hp
  | reading _ _ hopen hdone => exact ⟨hopen, hdone⟩
  | writing hp' _ _ =>
      rw [hp, List.singleton_inj] at hp'
      rw [hp'] at hreads
      exact hreads.elim

/-- While a write is in flight, every response but its own has been sent. -/
lemma Phase.of_writes {done : List ℕ} {s : Session} (h : s.Phase done) {size : ℕ}
    (hp : s.pending = [.writeResponse size]) :
    s.opened = true ∧ done ++ [size] = s.sent.map List.length := by
  cases h with
  | halted h => simp [h.1] at hp
  | reading hp' hreads _ _ =>
      rw [hp, List.singleton_inj] at hp'
      rw [← hp'] at hreads
      exact hreads.elim
  | writing hp' hopen hdone =>
      simp only [hp, List.cons.injEq, Operation.writeResponse.injEq, and_true] at hp'
      rw [hp']
      exact ⟨hopen, hdone⟩

/-- A completion that dispatches nothing keeps what the invariant says of the history. -/
lemma Inv.keep {events : List Event} {s s' : Session} (h : Inv parse events s) {e : Event}
    (hkeeps : s.Keeps parse s') (hserved : served [e] = [])
    (hphase : s'.Phase (delivered (events ++ [e]))) : Inv parse (events ++ [e]) s' where
  phase := hphase
  parsed := by rw [served_append, hserved, List.append_nil, hkeeps.parsed, hkeeps.stamp, h.parsed]
  answered := by rw [served_append, hserved, List.append_nil, hkeeps.sent, h.answered]

/-- After a header a command is awaited, or the session is stopped. -/
lemma Inv.header {events : List Event} {s s' : Session} (h : Inv parse events s) {ec : Bool}
    {bytes : List UInt8} {cmd : Option Command}
    (hstep : Step parse s ⟨.header ec bytes, cmd⟩ s') :
    Inv parse (events ++ [⟨.header ec bytes, cmd⟩]) s' := by
  obtain ⟨hop, hrun⟩ := hstep
  have hp : s.pending = [.readHeader] := h.phase.alone hop
  obtain ⟨hopen, hdone⟩ := h.phase.of_reads hp trivial
  obtain ⟨t, ht, hkeeps, hend⟩ := headerCompleted_cases parse hp ec bytes
  simp only [Completion.run, Action.bind_run, ht, Action.pure_run, Prod.mk.injEq] at hrun
  obtain ⟨-, rfl⟩ := hrun
  refine h.keep hkeeps rfl ?_
  rcases hend with hhalted | ⟨size, data, hpending, hopened⟩
  · exact .halted hhalted
  · refine .reading hpending trivial (hopened.trans hopen) ?_
    rw [delivered_append, hdone, hkeeps.sent]
    exact List.append_nil _

/-- A command is answered by one write, or the session is stopped. -/
lemma Inv.command {events : List Event} {s s' : Session} (h : Inv parse events s)
    {size : UInt32} {data : RcvBuffer} {ec : Bool} {bytes stray answer : List UInt8}
    {cmd : Option Command}
    (hstep : Step parse s ⟨.command size data ec bytes stray answer, cmd⟩ s') :
    Inv parse (events ++ [⟨.command size data ec bytes stray answer, cmd⟩]) s' := by
  obtain ⟨hop, hrun⟩ := hstep
  have hp : s.pending = [.readCommand size data] := h.phase.alone hop
  obtain ⟨hopen, hdone⟩ := h.phase.of_reads hp trivial
  have hrun : commandCompleted parse size data ec bytes stray answer s = (.ok cmd, s') := hrun
  rcases commandCompleted_cases hp ec bytes stray answer with
    ⟨t, ht, hkeeps, hhalted⟩ | ⟨raw, t, ht, hsent, hparsed, hstamp, hpending, hopened⟩
  · rw [ht] at hrun
    cases hrun
    exact h.keep hkeeps rfl (.halted hhalted)
  · rw [ht] at hrun
    cases hrun
    refine ⟨.writing hpending (hopened.trans hopen) ?_, ?_, ?_⟩
    · rw [delivered_append, hdone, hsent, List.map_append, List.map_singleton, length_frame,
        Nat.add_comm]
      exact congrArg (· ++ _) (List.append_nil _)
    · rw [served_append, List.map_append, h.parsed, hparsed, hstamp, List.map_append]
      rfl
    · rw [served_append, List.map_append, hsent, h.answered]
      rfl

/-- After a response the next header is awaited, or the session is stopped. -/
lemma Inv.response {events : List Event} {s s' : Session} (h : Inv parse events s) {size : ℕ}
    {ec : Bool} {transferred : ℕ} {cmd : Option Command}
    (hstep : Step parse s ⟨.response size ec transferred, cmd⟩ s') :
    Inv parse (events ++ [⟨.response size ec transferred, cmd⟩]) s' := by
  obtain ⟨hop, hrun⟩ := hstep
  have hp : s.pending = [.writeResponse size] := h.phase.alone hop
  obtain ⟨hopen, hdone⟩ := h.phase.of_writes hp
  obtain ⟨t, ht, hkeeps, hend⟩ := responseCompleted_cases parse hp ec transferred
  simp only [Completion.run, Action.bind_run, ht, Action.pure_run, Prod.mk.injEq] at hrun
  obtain ⟨-, rfl⟩ := hrun
  refine h.keep hkeeps rfl ?_
  rcases hend with ⟨hhalted, -⟩ | ⟨⟨hpending, hopened⟩, rfl⟩
  · exact .halted hhalted
  · refine .reading hpending trivial (hopened.trans hopen) ?_
    rw [delivered_append, hkeeps.sent, ← hdone]
    rfl

/-- **Every completion keeps the invariant.** -/
lemma Inv.step {events : List Event} {s s' : Session} (h : Inv parse events s) {e : Event}
    (hstep : Step parse s e s') : Inv parse (events ++ [e]) s' := by
  obtain ⟨completion, cmd⟩ := e
  cases completion with
  | header ec bytes => exact h.header hstep
  | command size data ec bytes stray answer => exact h.command hstep
  | response size ec transferred => exact h.response hstep

/-- A session that has just been created. -/
structure Fresh (s : Session) : Prop where
  opened : s.opened = true
  pending : s.pending = []
  parsed : s.parsed = []
  sent : s.sent = []

/-- A session starts with the read of a header, or is stopped at once. -/
lemma Fresh.start {s : Session} (h : s.Fresh) (parse : List UInt8 → Option Command)
    (peer : Option Ucred) : ∃ s', start peer s = (.ok (), s') ∧ Inv parse [] s' := by
  by_cases hpid : (unixAuthId peer).pid.toInt64.toUInt64 = 0
  · refine ⟨{ s with
      pid := (unixAuthId peer).pid.toInt64.toUInt64
      uid := (unixAuthId peer).uid.toUInt64
      gid := (unixAuthId peer).gid.toUInt64
      opened := false }, ?_, .halted ⟨h.pending, rfl⟩, ?_, ?_⟩
    · simp [Session.start, authenticate, stop, hpid]
    · simp [h.parsed, served]
    · simp [h.sent, served]
  · refine ⟨{ s with
      pid := (unixAuthId peer).pid.toInt64.toUInt64
      uid := (unixAuthId peer).uid.toUInt64
      gid := (unixAuthId peer).gid.toUInt64
      pending := [.readHeader] }, ?_, .reading rfl trivial h.opened ?_, ?_, ?_⟩
    · simp [Session.start, authenticate, protoStart, begin, hpid, h.pending]
    · simp [h.sent, delivered]
    · simp [h.parsed, served]
    · simp [h.sent, served]

/-- What the invariant says to the users of a session. -/
lemma Inv.toOrderly {events : List Event} {s : Session} (h : Inv parse events s) :
    Orderly parse events s where
  single := by
    cases h.phase with
    | halted hhalted => simp [hhalted.1]
    | reading hp _ _ _ => simp [hp]
    | writing hp _ _ => simp [hp]
  stopped := by
    intro hclosed
    cases h.phase with
    | halted hhalted => exact hhalted.1
    | reading _ _ hopen _ => simp [hclosed] at hopen
    | writing _ hopen _ => simp [hclosed] at hopen
  alone := fun e s' hstep => h.phase.alone hstep.1
  parsed := h.parsed
  answered := h.answered
  reading := fun op hop hreads => (h.phase.of_reads (h.phase.alone hop) hreads).2

/-- **The life of a session**: in every state that any completions lead to, one operation at most
is in flight, every command parsed has been answered once, in order, and nothing is read before
the last response has been sent. -/
theorem orderly {s₀ s₁ : Session} (hfresh : s₀.Fresh) {peer : Option Ucred}
    (hstart : start peer s₀ = (.ok (), s₁)) {events : List Event} {s : Session}
    (hrun : Run (Step parse) s₁ events s) : Orderly parse events s := by
  obtain ⟨s', hs', hinit⟩ := hfresh.start parse peer
  rw [hs'] at hstart
  cases hstart
  have hinv : Inv parse events s := hrun.invariant hinit fun _ _ _ _ h hstep => h.step hstep
  exact hinv.toOrderly

/-! ## A command that is served -/

/-- The completions that serve a command of at most `RECV_BUFSZ` bytes. -/
def servingEvents (payload answer : List UInt8) (cmd : Command) : List Event :=
  [⟨.header false (le32 (UInt32.ofNat payload.length) ++ le32 protoMagic), none⟩,
    ⟨.command (UInt32.ofNat payload.length) .rcvBuf false payload [] answer, some cmd⟩,
    ⟨.response (answer.length + commHeaderSz) false (answer.length + commHeaderSz), none⟩]

lemma step_header (payload : List UInt8) {s : Session} (hp : s.pending = [.readHeader]) :
    Step parse s ⟨.header false (le32 (UInt32.ofNat payload.length) ++ le32 protoMagic), none⟩
      (s.afterHeader payload) := by
  have hlen : (le32 (UInt32.ofNat payload.length) ++ le32 protoMagic).length = commHeaderSz := rfl
  have hdone : s.pending.erase .readHeader = [] := by simp [hp]
  refine ⟨by simp [hp, Completion.op], ?_⟩
  simp only [Completion.run, headerCompleted, finish, store, Action.bind_run, Action.modify_run,
    hlen, headerReceived_run, readLe32_overwrite_header, hdone, afterHeader]
  rfl

lemma step_command {payload : List UInt8} (hsmall : payload.length ≤ recvBufsz) {s : Session}
    (hp : s.pending = [.readCommand (UInt32.ofNat payload.length) .rcvBuf]) {cmd : Command}
    (hparse : parse payload = some cmd) (answer : List UInt8) :
    ∃ s', Step parse s ⟨.command (UInt32.ofNat payload.length) .rcvBuf false payload [] answer,
        some (s.stamp cmd)⟩ s' ∧ s'.pending = [.writeResponse (answer.length + commHeaderSz)] := by
  have hn : (UInt32.ofNat payload.length).toNat = payload.length :=
    toNat_ofNat_length (lt_of_le_of_lt hsmall (by decide))
  have hbuf : (s.stored .rcvBuf payload).rcvBuf.bytes.take payload.length = payload :=
    s.rcvBuf.take_overwrite hsmall
  have hreceived := commandReceived_small parse hsmall hparse hbuf
  obtain ⟨s', hrun, hwrote⟩ := writeResponse_wrote answer
    { s.stored .rcvBuf payload with parsed := (s.stored .rcvBuf payload).parsed ++ [payload] }
  refine ⟨s', ⟨by simp [hp, Completion.op], ?_⟩, hwrote.pending⟩
  show commandCompleted parse _ _ _ _ _ _ s = _
  rw [commandCompleted_run hp, Action.bind_run, Action.catching_run, hn, hreceived]
  simp only [Option.isSome_some, if_true, Action.bind_run, hrun, Action.pure_run]
  rfl

/-- A short command is served, and the session awaits the next one. -/
lemma exists_serving_run {payload : List UInt8} (hsmall : payload.length ≤ recvBufsz)
    {s : Session} (hp : s.pending = [.readHeader]) {cmd : Command}
    (hparse : parse payload = some cmd) (answer : List UInt8) :
    ∃ s', Run (Step parse) s (servingEvents payload answer (s.stamp cmd)) s' ∧
      s'.pending = [.readHeader] := by
  have hn : (UInt32.ofNat payload.length).toNat = payload.length :=
    toNat_ofNat_length (lt_of_le_of_lt hsmall (by decide))
  have hguard : ¬ payload.length > recvBufsz := by omega
  have hp₁ : (s.afterHeader payload).pending
      = [.readCommand (UInt32.ofNat payload.length) .rcvBuf] := by
    simp [afterHeader, awaitCommand, hn, hguard]
  have hstamp : (s.afterHeader payload).stamp = s.stamp := by
    simp only [afterHeader, awaitCommand, hn, hguard, if_false]
    rfl
  obtain ⟨s₂, hcommand, hp₂⟩ := step_command hsmall hp₁ hparse answer
  obtain ⟨s₃, hresponse, -, hend⟩ := responseCompleted_cases parse hp₂ false
    (answer.length + commHeaderSz)
  obtain ⟨⟨hp₃, -⟩, -⟩ := hend.resolve_left (by simp)
  rw [hstamp] at hcommand
  refine ⟨s₃, .snoc (.snoc (.snoc .nil (step_header payload hp)) hcommand) ⟨?_, ?_⟩, hp₃⟩
  · simp [hp₂, Completion.op]
  · simp only [Completion.run, Action.bind_run, hresponse, Action.pure_run]

/-- A session that serves one command. -/
theorem orderly_alice :
    ∃ s, Run (Step parseAuth) idleSession (servingEvents (serializeAuth { auth := "alice" })
        [0x08, 0x01] (idleSession.stamp { auth := "alice" })) s ∧
      Orderly parseAuth (servingEvents (serializeAuth { auth := "alice" })
        [0x08, 0x01] (idleSession.stamp { auth := "alice" })) s := by
  have hsmall : (serializeAuth { auth := "alice" }).length ≤ recvBufsz := by decide
  have hparse : parseAuth (serializeAuth { auth := "alice" }) = some { auth := "alice" } := by
    decide
  have hp : idleSession.pending = [.readHeader] := rfl
  obtain ⟨s, hrun, -⟩ := exists_serving_run hsmall hp hparse [0x08, 0x01]
  have hstart : start (some ⟨100, 1, 1⟩) {} = (.ok (), idleSession) := rfl
  exact ⟨s, hrun, orderly ⟨rfl, rfl, rfl, rfl⟩ hstart hrun⟩

end Session

end Libport
