import Libport.Proto.Comm
import Libport.Proto.Message

/-!
# Requests and responses on a client connection (`client/client.cc`)

`AttGuardClient::post` sends a command and reads one response on a socket it keeps for its whole
life.  A response carries no number that is checked, and an error does not make the client redial,
so a response that one call leaves unread is the next call's response.

The socket is a pair of byte streams.  `Connection` counts what was handed to the kernel and what
was read back; the daemon is the function from all bytes it was sent to all bytes it has written.

* `received` and `daemonStream`: a daemon that decodes the frames it is sent one after the other
  and answers each command with one response, in order.
* `post`, driven by the results of its system calls, and `run`, a sequence of posts each of which
  returned.
* `Paired`: a response decoded by a post is the daemon's response to that post's command.
* `PostCall.Clean`: the system calls of a post move bytes or ask to be repeated, or the first of
  its sends fails.
* `Settled`: every response the daemon has written is read.  **`post_settled`**: clean posts keep
  a connection settled.
* **`paired_of_clean`**: responses are paired with commands as long as every earlier post was
  clean, or the send of the later one fails at once.
* `interrupted_post_mispairs`: one `EINTR` and the next post returns a response that is not its
  own.
-/

namespace Libport

/-! ## The daemon's side of the connection -/

section Daemon

variable (parse : List UInt8 → Option Command)

/-- The commands in a stream of frames, up to the first frame that is incomplete or does not
decode.  A frame has at least eight bytes, so as many rounds as there are bytes are enough. -/
def receivedIn : ℕ → List UInt8 → List Command
  | 0, _ => []
  | rounds + 1, bytes =>
      let size := (readLe32 bytes).toNat
      if commHeaderSz + size ≤ bytes.length then
        match parse ((bytes.drop commHeaderSz).take size) with
        | some cmd => cmd :: receivedIn rounds (bytes.drop (commHeaderSz + size))
        | none => []
      else []

/-- The commands the daemon has received. -/
def received (bytes : List UInt8) : List Command := receivedIn parse bytes.length bytes

variable (respond : List Command → Command → Response) (serialize : Response → List UInt8)

/-- One response for each command, which may depend on the commands before it. -/
def answers (before : List Command) : List Command → List Response
  | [] => []
  | cmd :: rest => respond before cmd :: answers (before ++ [cmd]) rest

/-- Everything the daemon writes once it was sent `bytes`. -/
def daemonStream (bytes : List UInt8) : List UInt8 :=
  (answers respond [] (received parse bytes)).flatMap fun r => frame (serialize r)

end Daemon

/-! ## The client -/

/-- The bytes handed to the kernel and the bytes read back, since the connection was made. -/
structure Connection where
  outgoing : List UInt8 := []
  incoming : List UInt8 := []

/-- A call of `post`: the command, and how the system calls end that it makes. -/
structure PostCall where
  cmd : Command
  sends : List CallResult
  recvs : List CallResult

/-- How a post ends: it has not, it returns a status of its own making, or it returns a response
it decoded. -/
inductive PostResult
  | waiting
  | failed (r : Response)
  | decoded (r : Response)

/-- The coding of messages and the daemon at the other end. -/
structure Peer where
  serializeCommand : Command → List UInt8
  parseCommand : List UInt8 → Option Command
  serializeResponse : Response → List UInt8
  parseResponse : List UInt8 → Option Response
  /-- the daemon's response to a command, given the commands it received before -/
  respond : List Command → Command → Response

namespace AttGuardClient

variable (peer : Peer)

/-- What the daemon has written and the client has not read. -/
def unread (conn : Connection) : List UInt8 :=
  (daemonStream peer.parseCommand peer.respond peer.serializeResponse conn.outgoing).drop
    conn.incoming.length

/-- How a post ends whose send or receive did not return `0`. -/
def failure (what : String) : Option ℤ → PostResult
  | none => .waiting
  | some code => .failed (makeStatusResponse false (what ++ toString code))

/-- The second half of `post`.  The response is parsed into a default instance made for it. -/
def postRecv (p : PostCall) (conn : Connection) : PostResult × Connection :=
  let got := protoRecvMsg peer.parseResponse (unread peer conn) p.recvs
  let conn := { conn with incoming := conn.incoming ++ got.consumed }
  if got.ret ≠ some 0 then (failure "recv failure " got.ret, conn)
  else (.decoded (got.value.getD {}), conn)

def post (p : PostCall) (conn : Connection) : PostResult × Connection :=
  let sent := protoSendMsg (peer.serializeCommand p.cmd) p.sends
  let conn := { conn with outgoing := conn.outgoing ++ sent.moved }
  if sent.ret ≠ some 0 then (failure "send failure, code " sent.ret, conn)
  else postRecv peer p conn

/-- The connection after a sequence of posts, if each of them returned. -/
def run : List PostCall → Connection → Option Connection
  | [], conn => some conn
  | p :: rest, conn =>
      match post peer p conn with
      | (.waiting, _) => none
      | (_, conn') => run rest conn'

/-- The commands whose frames were handed to the kernel as a whole. -/
def delivered (posts : List PostCall) : List Command :=
  (posts.filter fun p => (protoSendMsg (peer.serializeCommand p.cmd) p.sends).moved
    = frame (peer.serializeCommand p.cmd)).map PostCall.cmd

/-- Every response decoded by a post is the daemon's response to the command of that post. -/
def Paired (posts : List PostCall) : Prop :=
  ∀ before p conn r, before ++ [p] <+: posts → run peer before {} = some conn →
    (post peer p conn).1 = .decoded r → r = peer.respond (delivered peer before) p.cmd

end AttGuardClient

/-- Nothing but delays, or a send that fails before a byte is sent. -/
def PostCall.Clean (p : PostCall) : Prop :=
  ((∀ call ∈ p.sends, call.Benign) ∧ ∀ call ∈ p.recvs, call.Benign) ∨ FailsAtOnce p.sends

/-- The send of a frame, not too large to be sent, fails before a byte is sent. -/
def PostCall.Refused (peer : Peer) (p : PostCall) : Prop :=
  commHeaderSz + (peer.serializeCommand p.cmd).length < 2 ^ 31 ∧ FailsAtOnce p.sends

/-! ## What a settled connection carries -/

/-- The coding works for these commands and for every response: protobuf parses what it
serialized, and no message has `2 ^ 31` bytes. -/
structure Peer.Codes (peer : Peer) (cmds : List Command) : Prop where
  command : ∀ c ∈ cmds, peer.parseCommand (peer.serializeCommand c) = some c ∧
    (peer.serializeCommand c).length < 2 ^ 31
  response : ∀ before cmd,
    peer.parseResponse (peer.serializeResponse (peer.respond before cmd))
        = some (peer.respond before cmd) ∧
      (peer.serializeResponse (peer.respond before cmd)).length < 2 ^ 31

lemma Peer.Codes.mono {peer : Peer} {cmds cmds' : List Command} (h : peer.Codes cmds)
    (hsub : cmds' ⊆ cmds) : peer.Codes cmds' where
  command := fun c hc => h.command c (hsub hc)
  response := h.response

lemma answers_append_singleton (respond : List Command → Command → Response)
    (before cmds : List Command) (cmd : Command) :
    answers respond before (cmds ++ [cmd])
      = answers respond before cmds ++ [respond (before ++ cmds) cmd] := by
  induction cmds generalizing before with
  | nil => simp [answers]
  | cons c rest ih => simp [answers, ih, List.append_assoc]

/-- The first frame of a stream. -/
lemma receivedIn_frame {parse : List UInt8 → Option Command} {payload : List UInt8}
    {cmd : Command} (hparse : parse payload = some cmd) (hsize : payload.length < 2 ^ 31)
    (rounds : ℕ) (rest : List UInt8) :
    receivedIn parse (rounds + 1) (frame payload ++ rest)
      = cmd :: receivedIn parse rounds rest := by
  have hread : (readLe32 (frame payload ++ rest)).toNat = payload.length := by
    rw [frame, List.append_assoc, List.append_assoc, readLe32_le32, toNat_ofNat_length hsize]
  have hlen : commHeaderSz + payload.length ≤ (frame payload ++ rest).length := by
    rw [List.length_append, length_frame]
    omega
  have hdrop : (frame payload ++ rest).drop (commHeaderSz + payload.length) = rest :=
    List.drop_left' (length_frame payload)
  rw [receivedIn]
  simp only [hread, hlen, if_true, drop_header_frame, List.take_left, hparse, hdrop]

lemma length_le_flatMap_frame (serialize : Command → List UInt8) (cmds : List Command) :
    cmds.length ≤ (cmds.flatMap fun c => frame (serialize c)).length := by
  induction cmds with
  | nil => simp
  | cons c rest ih =>
      simp only [List.flatMap_cons, List.length_append, List.length_cons, length_frame,
        commHeaderSz]
      omega

lemma received_flatMap {parse : List UInt8 → Option Command} {serialize : Command → List UInt8}
    {cmds : List Command}
    (h : ∀ c ∈ cmds, parse (serialize c) = some c ∧ (serialize c).length < 2 ^ 31) :
    received parse (cmds.flatMap fun c => frame (serialize c)) = cmds := by
  have hin : ∀ rounds, cmds.length ≤ rounds →
      receivedIn parse rounds (cmds.flatMap fun c => frame (serialize c)) = cmds := by
    induction cmds with
    | nil =>
        intro rounds _
        cases rounds with
        | zero => rfl
        | succ n => rfl
    | cons c rest ih =>
        intro rounds hrounds
        obtain ⟨hc, hrest⟩ := List.forall_mem_cons.mp h
        obtain ⟨n, rfl⟩ := Nat.exists_eq_add_of_le' (Nat.one_le_of_lt (Nat.lt_of_succ_le hrounds))
        rw [List.flatMap_cons, receivedIn_frame hc.1 hc.2, ih hrest n]
        simpa using hrounds
  exact hin _ (length_le_flatMap_frame serialize cmds)

namespace AttGuardClient

variable {peer : Peer}

/-- The frames of the commands `cmds` were sent, and the frames of their responses read. -/
structure Settled (peer : Peer) (cmds : List Command) (conn : Connection) : Prop where
  outgoing : conn.outgoing = cmds.flatMap fun c => frame (peer.serializeCommand c)
  incoming : conn.incoming
    = (answers peer.respond [] cmds).flatMap fun r => frame (peer.serializeResponse r)

/-- One more command sent, and its response read. -/
lemma Settled.extend {cmds : List Command} {conn : Connection} (h : Settled peer cmds conn)
    (cmd : Command) :
    Settled peer (cmds ++ [cmd])
      ⟨conn.outgoing ++ frame (peer.serializeCommand cmd),
        conn.incoming ++ frame (peer.serializeResponse (peer.respond cmds cmd))⟩ where
  outgoing := by
    rw [h.outgoing]
    simp
  incoming := by
    rw [h.incoming, answers_append_singleton]
    simp

/-- The coding works for these commands, as `Peer.Codes` has it. -/
def Coded (peer : Peer) (cmds : List Command) : Prop :=
  ∀ c ∈ cmds, peer.parseCommand (peer.serializeCommand c) = some c ∧
    (peer.serializeCommand c).length < 2 ^ 31

lemma unread_settled {cmds : List Command} {conn : Connection} (hcoded : Coded peer cmds)
    (h : Settled peer cmds conn) : unread peer conn = [] := by
  rw [unread, h.outgoing, h.incoming, daemonStream, received_flatMap hcoded]
  exact List.drop_length

/-- After one more command there is exactly its response. -/
lemma unread_sent {cmds : List Command} {cmd : Command} {conn : Connection}
    (hcoded : Coded peer (cmds ++ [cmd])) (h : Settled peer cmds conn) :
    unread peer { conn with
        outgoing := conn.outgoing ++ frame (peer.serializeCommand cmd) }
      = frame (peer.serializeResponse (peer.respond cmds cmd)) := by
  rw [unread, (h.extend cmd).outgoing, h.incoming, daemonStream, received_flatMap hcoded,
    answers_append_singleton, List.flatMap_append, List.drop_left]
  simp

/-- What a send can do: hand over the whole frame, skip a frame too large for an `int`, or not
return `0`. -/
lemma send_cases {payload : List UInt8} (hsize : payload.length < 2 ^ 31)
    (sends : List CallResult) :
    ((protoSendMsg payload sends).ret = some 0 ∧
      (protoSendMsg payload sends).moved = frame payload) ∨
    (protoSendMsg payload sends).ret = some 0 ∧ (protoSendMsg payload sends).moved = [] ∨
    (protoSendMsg payload sends).ret ≠ some 0 := by
  by_cases hret : (protoSendMsg payload sends).ret = some 0
  · by_cases hfits : commHeaderSz + payload.length < 2 ^ 31
    · exact Or.inl ⟨hret, protoSendMsg_ok hfits hret⟩
    · have hlarge := protoSendMsg_large hsize (by omega) sends
      exact Or.inr (Or.inl ⟨hret, by rw [hlarge]⟩)
  · exact Or.inr (Or.inr hret)

/-- A post that decodes a response has sent its command and received from what was unread then. -/
lemma post_decoded_inv {p : PostCall} {conn : Connection} {r : Response}
    (h : (post peer p conn).1 = .decoded r) :
    let sent := protoSendMsg (peer.serializeCommand p.cmd) p.sends
    let got := protoRecvMsg peer.parseResponse
      (unread peer { conn with outgoing := conn.outgoing ++ sent.moved }) p.recvs
    sent.ret = some 0 ∧ got.ret = some 0 ∧ r = got.value.getD {} := by
  have hfailure : ∀ what ret, failure what ret ≠ .decoded r := by
    intro what ret
    cases ret <;> nofun
  intro sent got
  simp only [post] at h
  split_ifs at h with hsent
  · exact absurd h (hfailure _ _)
  · simp only [postRecv] at h
    split_ifs at h with hgot
    · exact absurd h (hfailure _ _)
    · exact ⟨not_not.mp hsent, not_not.mp hgot, (PostResult.decoded.inj h).symm⟩

/-- On a settled connection a post decodes only its own response. -/
lemma post_decoded {cmds : List Command} {p : PostCall} {conn : Connection} {r : Response}
    (hcoded : Coded peer (cmds ++ [p.cmd]))
    (hresponse : peer.parseResponse (peer.serializeResponse (peer.respond cmds p.cmd))
        = some (peer.respond cmds p.cmd) ∧
      (peer.serializeResponse (peer.respond cmds p.cmd)).length < 2 ^ 31)
    (h : Settled peer cmds conn) (hpost : (post peer p conn).1 = .decoded r) :
    r = peer.respond cmds p.cmd := by
  obtain ⟨hsent, hgot, rfl⟩ := post_decoded_inv hpost
  have hsize := (hcoded p.cmd (by simp)).2
  rcases send_cases hsize p.sends with ⟨-, hmoved⟩ | ⟨-, hmoved⟩ | hfailed
  · rw [hmoved, unread_sent hcoded h, ← List.append_nil (frame _)] at hgot ⊢
    rw [(protoRecvMsg_frame hresponse.2 hgot).1, hresponse.1]
    rfl
  · -- the frame was too large to be sent, and there is nothing to receive
    have hnothing := unread_settled (fun c hc => hcoded c (List.mem_append_left _ hc)) h
    rw [hmoved, List.append_nil, hnothing] at hgot
    exact absurd hgot (protoRecvMsg_nil p.recvs).1
  · exact absurd hsent hfailed

/-! ## Posts that leave the connection settled -/

/-- A post that sends nothing receives nothing. -/
lemma post_settled_of_unsent {cmds : List Command} {p : PostCall} {conn : Connection}
    (hcodes : peer.Codes cmds) (h : Settled peer cmds conn)
    (hmoved : (protoSendMsg (peer.serializeCommand p.cmd) p.sends).moved = []) :
    Settled peer cmds (post peer p conn).2 := by
  have hunread := unread_settled hcodes.command h
  simp only [post, hmoved, List.append_nil]
  split_ifs
  · exact h
  · have hconsumed : (protoRecvMsg peer.parseResponse [] p.recvs).consumed = [] :=
      (protoRecvMsg_nil p.recvs).2
    have hconn : (postRecv peer p conn).2 = conn := by
      simp only [postRecv, hunread]
      split_ifs <;> simp [hconsumed]
    rw [hconn]
    exact h

/-- A post all of whose calls are benign sends its command and receives the response. -/
lemma post_settled_of_benign {cmds : List Command} {p : PostCall} {conn : Connection}
    (hcodes : peer.Codes (cmds ++ [p.cmd])) (h : Settled peer cmds conn)
    (hfits : commHeaderSz + (peer.serializeCommand p.cmd).length < 2 ^ 31)
    (hsends : ∀ call ∈ p.sends, call.Benign) (hrecvs : ∀ call ∈ p.recvs, call.Benign)
    (hreturned : (post peer p conn).1 ≠ .waiting) :
    (protoSendMsg (peer.serializeCommand p.cmd) p.sends).moved
        = frame (peer.serializeCommand p.cmd) ∧
      Settled peer (cmds ++ [p.cmd]) (post peer p conn).2 := by
  have hresponse := hcodes.response cmds p.cmd
  have hunread := unread_sent hcodes.command h
  rcases protoSendMsg_benign hfits hsends with hsent | hsent
  · -- the send is still waiting
    simp only [post, hsent] at hreturned
    exact absurd rfl hreturned
  · have hmoved := protoSendMsg_ok hfits hsent
    refine ⟨hmoved, ?_⟩
    simp only [post, hsent, hmoved, ne_eq, not_true_eq_false, if_false, postRecv, hunread]
      at hreturned ⊢
    rw [← List.append_nil (frame (peer.serializeResponse _))] at hreturned ⊢
    rcases protoRecvMsg_benign hresponse.2 [] hrecvs hresponse.1 with hgot | hgot
    · simp only [hgot] at hreturned
      exact absurd rfl hreturned
    · have hconsumed := (protoRecvMsg_frame hresponse.2 hgot).2
      simp only [hgot, not_true_eq_false, if_false, hconsumed]
      exact h.extend p.cmd

lemma run_cons {p : PostCall} {rest : List PostCall} {conn conn' : Connection}
    (h : run peer (p :: rest) conn = some conn') :
    (post peer p conn).1 ≠ .waiting ∧ run peer rest (post peer p conn).2 = some conn' := by
  rw [run] at h
  generalize post peer p conn = after at h ⊢
  obtain ⟨result, connAfter⟩ := after
  cases result with
  | waiting => cases h
  | failed r => exact ⟨nofun, h⟩
  | decoded r => exact ⟨nofun, h⟩

lemma delivered_append (before posts : List PostCall) :
    delivered peer (before ++ posts) = delivered peer before ++ delivered peer posts := by
  simp only [delivered, List.filter_append, List.map_append]

lemma delivered_subset (posts : List PostCall) :
    delivered peer posts ⊆ posts.map PostCall.cmd := by
  intro cmd hcmd
  obtain ⟨p, hp, rfl⟩ := List.mem_map.mp hcmd
  exact List.mem_map_of_mem (List.mem_of_mem_filter hp)

/-- The coding works for what was delivered and for the next command. -/
lemma codes_delivered {before rest : List PostCall} {p : PostCall}
    (h : peer.Codes ((before ++ p :: rest).map PostCall.cmd)) :
    peer.Codes (delivered peer before ++ [p.cmd]) := by
  refine h.mono (List.append_subset.mpr ⟨?_, ?_⟩)
  · rw [List.map_append]
    exact List.subset_append_of_subset_left _ (delivered_subset before)
  · simp

lemma delivered_singleton_of_sent {p : PostCall}
    (h : (protoSendMsg (peer.serializeCommand p.cmd) p.sends).moved
      = frame (peer.serializeCommand p.cmd)) : delivered peer [p] = [p.cmd] := by
  simp [delivered, h]

lemma delivered_singleton_of_unsent {p : PostCall}
    (h : (protoSendMsg (peer.serializeCommand p.cmd) p.sends).moved = []) :
    delivered peer [p] = [] := by
  have hne : [] ≠ frame (peer.serializeCommand p.cmd) := by
    intro hnil
    have hlen := congrArg List.length hnil
    rw [length_frame, commHeaderSz, List.length_nil] at hlen
    omega
  simp [delivered, h, hne]

/-- **A clean post that returns leaves the connection settled.** -/
lemma post_settled {cmds : List Command} {p : PostCall} {conn : Connection}
    (hcodes : peer.Codes (cmds ++ [p.cmd])) (h : Settled peer cmds conn) (hclean : p.Clean)
    (hreturned : (post peer p conn).1 ≠ .waiting) :
    Settled peer (cmds ++ delivered peer [p]) (post peer p conn).2 := by
  have hunsent : (protoSendMsg (peer.serializeCommand p.cmd) p.sends).moved = [] →
      Settled peer (cmds ++ delivered peer [p]) (post peer p conn).2 := by
    intro hmoved
    rw [delivered_singleton_of_unsent hmoved, List.append_nil]
    exact post_settled_of_unsent (hcodes.mono (List.subset_append_left _ _)) h hmoved
  by_cases hfits : commHeaderSz + (peer.serializeCommand p.cmd).length < 2 ^ 31
  · rcases hclean with ⟨hsends, hrecvs⟩ | hfails
    · obtain ⟨hmoved, hsettled⟩ :=
        post_settled_of_benign hcodes h hfits hsends hrecvs hreturned
      rw [delivered_singleton_of_sent hmoved]
      exact hsettled
    · exact hunsent (protoSendMsg_failsAtOnce hfits hfails).1
  · have hsize := (hcodes.command p.cmd (by simp)).2
    exact hunsent (by rw [protoSendMsg_large hsize (by omega)])

/-- **Clean posts leave the connection settled.** -/
lemma run_settled (before : List PostCall) {posts : List PostCall} {conn conn' : Connection}
    (hcodes : peer.Codes ((before ++ posts).map PostCall.cmd))
    (hclean : ∀ q ∈ posts, q.Clean) (h : Settled peer (delivered peer before) conn)
    (hrun : run peer posts conn = some conn') :
    Settled peer (delivered peer (before ++ posts)) conn' := by
  -- the posts made so far move from `posts` to `before`
  induction posts generalizing before conn with
  | nil =>
      obtain rfl := Option.some.inj hrun
      rw [List.append_nil]
      exact h
  | cons p rest ih =>
      obtain ⟨hp, hrest⟩ := List.forall_mem_cons.mp hclean
      obtain ⟨hreturned, hrun⟩ := run_cons hrun
      have hsettled := post_settled (codes_delivered hcodes) h hp hreturned
      rw [← delivered_append] at hsettled
      rw [List.append_cons]
      exact ih (before ++ [p]) (by rwa [← List.append_cons]) hrest hsettled hrun

/-- **Responses are paired with commands** when every post but those whose send is refused comes
after clean posts only. -/
theorem paired_of_clean {posts : List PostCall} (hcodes : peer.Codes (posts.map PostCall.cmd))
    (hposts : posts.Pairwise fun earlier later => earlier.Clean ∨ later.Refused peer) :
    Paired peer posts := by
  intro before p conn r hpre hrun hpost
  have hcodes' : peer.Codes ((before ++ [p]).map PostCall.cmd) :=
    hcodes.mono (List.map_subset _ hpre.subset)
  have hearlier : ∀ q ∈ before, q.Clean ∨ p.Refused peer := by
    intro q hq
    have hpairwise := hposts.sublist hpre.sublist
    exact (List.pairwise_append.mp hpairwise).2.2 q hq p (List.mem_singleton_self p)
  by_cases hrefused : p.Refused peer
  · -- nothing is received after such a send
    exact absurd (post_decoded_inv hpost).1 (protoSendMsg_failsAtOnce hrefused.1 hrefused.2).2
  · have hclean : ∀ q ∈ before, q.Clean := fun q hq => (hearlier q hq).resolve_right hrefused
    have hsettled : Settled peer (delivered peer before) conn :=
      run_settled [] (hcodes'.mono (by simp)) hclean ⟨rfl, rfl⟩ hrun
    have hcodes' := codes_delivered hcodes'
    exact post_decoded hcodes'.command (hcodes'.response _ _) hsettled hpost

end AttGuardClient

/-! ## A daemon at the other end -/

/-- Messages with nothing but an `id` of one byte, field `1` of both messages. -/
def idPeer : Peer where
  serializeCommand c := [0x08, c.id.toUInt64.toUInt8]
  parseCommand
    | [0x08, id] => some { id := id.toUInt64.toInt64 }
    | _ => none
  serializeResponse r := [0x08, r.id.toUInt64.toUInt8]
  parseResponse
    | [0x08, id] => some { id := id.toUInt64.toInt64 }
    | _ => none
  respond _ c := if c.id = 1 then { id := 1 } else { id := 2 }

lemma idPeer_codes : idPeer.Codes [{ id := 1 }, { id := 2 }] where
  command := by decide
  response := by
    intro before cmd
    by_cases hid : cmd.id = 1
    · rw [show idPeer.respond before cmd = { id := 1 } from if_pos hid]
      decide
    · rw [show idPeer.respond before cmd = { id := 2 } from if_neg hid]
      decide

/-- A post that is not disturbed. -/
def smoothPost (id : Int64) : PostCall :=
  { cmd := { id := id }, sends := [.returned 10], recvs := [.returned 8, .returned 2] }

lemma smoothPost_clean (id : Int64) : (smoothPost id).Clean := by
  refine Or.inl ⟨?_, ?_⟩ <;> simp [smoothPost, CallResult.Benign]

/-- A post whose send was given to the kernel at once and whose first `recv` a signal
interrupts. -/
def interruptedPost : PostCall :=
  { cmd := { id := 1 }, sends := [.returned 10], recvs := [.failed .eintr] }

namespace AttGuardClient

/-- Two posts, one after the other, each with its response. -/
theorem paired_smoothPosts :
    Paired idPeer [smoothPost 1, smoothPost 2] ∧
      ∃ conn, run idPeer [smoothPost 1] {} = some conn ∧
        (post idPeer (smoothPost 2) conn).1 = .decoded { id := 2 } := by
  refine ⟨paired_of_clean idPeer_codes ?_, _, rfl, rfl⟩
  simp [smoothPost_clean]

/-- **After an interrupted receive the next post returns the response to the command before.** -/
theorem interrupted_post_mispairs :
    idPeer.Codes [{ id := 1 }, { id := 2 }] ∧
      ¬ Paired idPeer [interruptedPost, smoothPost 2] := by
  refine ⟨idPeer_codes, ?_⟩
  intro hpaired
  have hown := hpaired [interruptedPost] (smoothPost 2) _ { id := 1 } List.prefix_rfl rfl rfl
  exact absurd hown (by decide)

end AttGuardClient

end Libport
