import Libport.Client.Call
import Libport.Client.Post
import Libport.Server.Framing

/-!
# Calls over the socket (`client/client.cc`, `include/comm.h`)

A call of the library is a command framed and sent, served by the daemon among the commands of
other processes, and a response framed, sent back and read.  `Client.Call` says what a call amounts
to for a daemon that is simply asked; this module says that the way over the socket makes no
difference, for commands that a session receives whole and a daemon that answers them.

* `World` is what one process does not control: the service, the daemon at the start, its session,
  and the calls of other processes that reach the daemon before each of its own commands.
* `ask` is the daemon's response to one command, if neither it nor the others bring the daemon down.
* `remoteRun` makes the calls over the socket, `directRun` asks the daemon.
* `post_carried`: one post on a settled connection waits, or decodes its own response and leaves the
  connection settled.
* **`remote_transparent`**: whatever is returned over the socket is what is returned directly, in
  order, and nothing is missing once the system calls move enough bytes.
-/

namespace Libport

/-! ## One post -/

namespace AttGuardClient

variable {peer : Peer}

/-- What the coding and the system calls have to do for one post: the command and its response are
coded faithfully, the command is small enough for the receive buffer of a session and the response
for an `int`, and every system call moves bytes or asks to be repeated. -/
structure Carried (peer : Peer) (p : PostCall) (r : Response) : Prop where
  command : peer.parseCommand (peer.serializeCommand p.cmd) = some p.cmd
  fits : (peer.serializeCommand p.cmd).length ≤ recvBufsz
  response : peer.parseResponse (peer.serializeResponse r) = some r
  small : (peer.serializeResponse r).length < 2 ^ 31
  sends : ∀ call ∈ p.sends, call.Benign
  recvs : ∀ call ∈ p.recvs, call.Benign

lemma Carried.sendable {p : PostCall} {r : Response} (h : Carried peer p r) :
    commHeaderSz + (peer.serializeCommand p.cmd).length < 2 ^ 31 := by
  have hfits := h.fits
  simp only [recvBufsz, commHeaderSz] at hfits ⊢
  omega

/-- As many calls return a count as the two frames have bytes. -/
structure Enough (peer : Peer) (p : PostCall) (r : Response) : Prop where
  sends : commHeaderSz + (peer.serializeCommand p.cmd).length ≤ p.sends.countP CallResult.returns
  recvs : commHeaderSz + (peer.serializeResponse r).length ≤ p.recvs.countP CallResult.returns

lemma Coded.concat {cmds : List Command} (h : Coded peer cmds) {p : PostCall} {r : Response}
    (hp : Carried peer p r) : Coded peer (cmds ++ [p.cmd]) := by
  intro c hc
  rcases List.mem_append.mp hc with hc | hc
  · exact h c hc
  · obtain rfl := List.mem_singleton.mp hc
    exact ⟨hp.command, lt_of_le_of_lt (Nat.le_add_left _ _) hp.sendable⟩

section Post

variable {cmds : List Command} {p : PostCall} {conn : Connection}

/-- The send of a carried post. -/
lemma send_carried (hp : Carried peer p (peer.respond cmds p.cmd)) :
    (protoSendMsg (peer.serializeCommand p.cmd) p.sends).ret = none ∨
      (protoSendMsg (peer.serializeCommand p.cmd) p.sends).ret = some 0 ∧
        (protoSendMsg (peer.serializeCommand p.cmd) p.sends).moved
          = frame (peer.serializeCommand p.cmd) := by
  rcases protoSendMsg_benign hp.sendable hp.sends with hsent | hsent
  · exact .inl hsent
  · exact .inr ⟨hsent, protoSendMsg_ok hp.sendable hsent⟩

/-- **A carried post waits, or decodes its own response** and leaves the connection settled. -/
lemma post_carried (hcoded : Coded peer cmds) (hp : Carried peer p (peer.respond cmds p.cmd))
    (h : Settled peer cmds conn) :
    (post peer p conn).1 = .waiting ∨
      ((post peer p conn).1 = .decoded (peer.respond cmds p.cmd) ∧
        Settled peer (cmds ++ [p.cmd]) (post peer p conn).2) := by
  have hunread := unread_sent (hcoded.concat hp) h
  rcases send_carried hp with hsent | ⟨hsent, hmoved⟩
  · refine .inl ?_
    simp only [post, hsent]
    rfl
  · simp only [post, hsent, hmoved, ne_eq, not_true_eq_false, if_false, postRecv, hunread]
    rw [← List.append_nil (frame (peer.serializeResponse _))]
    rcases protoRecvMsg_benign hp.small [] hp.recvs hp.response with hgot | hgot
    · refine .inl ?_
      simp only [hgot]
      rfl
    · obtain ⟨hvalue, hconsumed⟩ := protoRecvMsg_frame hp.small hgot
      refine .inr ⟨?_, ?_⟩
      · simp only [hgot, hvalue, hp.response, not_true_eq_false, if_false]
        rfl
      · simp only [hgot, hconsumed, not_true_eq_false, if_false]
        exact h.extend p.cmd

/-- With enough system calls it does not wait. -/
lemma post_enough (hcoded : Coded peer cmds) (hp : Carried peer p (peer.respond cmds p.cmd))
    (henough : Enough peer p (peer.respond cmds p.cmd)) (h : Settled peer cmds conn) :
    (post peer p conn).1 ≠ .waiting := by
  have hunread := unread_sent (hcoded.concat hp) h
  have hsize : (sizeAsInt (commHeaderSz + (peer.serializeCommand p.cmd).length)).toNat
      = (frame (peer.serializeCommand p.cmd)).length := by
    rw [sizeAsInt_of_lt hp.sendable, length_frame]
    omega
  have hsent : (protoSendMsg (peer.serializeCommand p.cmd) p.sends).ret = some 0 := by
    refine (transfer_enough hp.sends hsize.le ?_).1
    rw [hsize, length_frame]
    exact henough.sends
  have hmoved := protoSendMsg_ok hp.sendable hsent
  have hgot : (protoRecvMsg peer.parseResponse _ _).ret ≠ none :=
    (protoRecvMsg_enough hp.small [] hp.recvs henough.recvs).1
  intro hwaiting
  simp only [post, hsent, hmoved, ne_eq, not_true_eq_false, if_false, postRecv, hunread]
    at hwaiting
  rw [← List.append_nil (frame (peer.serializeResponse _))] at hwaiting
  obtain ⟨code, hcode⟩ := Option.ne_none_iff_exists'.mp hgot
  simp only [hcode] at hwaiting
  split_ifs at hwaiting
  cases hwaiting

end Post

end AttGuardClient

/-! ## One process among others -/

/-- What a process does not control: the service, the daemon when its connection is accepted, the
session the daemon has for it, the coding of messages, and the calls of other processes that reach
the daemon before its `n`-th command. -/
structure World where
  env : Env
  start : Daemon
  session : Session
  coding : Coding
  parseCommand : List UInt8 → Option Command
  serializeResponse : Response → List UInt8
  parseResponse : List UInt8 → Option Response
  others : ℕ → List ProcessCall
  /-- the sessions of the others receive their commands whole -/
  others_fit : ∀ n, ∀ m ∈ others n, m.Fits coding

/-- A call of the process, and how the system calls end that carry it. -/
structure RemoteCall where
  msgId : Int64
  call : LibCall
  sends : List CallResult
  recvs : List CallResult

namespace World

variable (w : World)

/-- The daemon when the `n`-th command of the process reaches it, if the others have not brought it
down. -/
def meanwhile (n : ℕ) (d : Daemon) : Option Daemon :=
  match Action.forEach (Manager.serve w.env)
      ((w.others n).filterMap (ProcessCall.command w.coding)) d with
  | (.ok _, d) => some d
  | (.error _, _) => none

/-- The daemon's response to the `n`-th command of the process, and the daemon once it has written
it. -/
def ask (n : ℕ) (cmd : Command) (d : Daemon) : Option (Response × Daemon) :=
  (w.meanwhile n d).bind fun d =>
    match Manager.answer w.env (w.session.stamp cmd) d with
    | (.ok (some r), d) => some (r, (Manager.record (some r) d).2)
    | _ => none

/-- The daemon after the commands of the process. -/
def daemonAfter (cmds : List Command) : Option Daemon :=
  cmds.zipIdx.foldlM (fun d x => (w.ask x.2 x.1 d).map Prod.snd) w.start

/-- The daemon at the other end of the socket.  A daemon that is down has no response; what stands
here for it is in no result. -/
def peer : Peer where
  serializeCommand := w.coding.command
  parseCommand := w.parseCommand
  serializeResponse := w.serializeResponse
  parseResponse := w.parseResponse
  respond before cmd :=
    (((w.daemonAfter before).bind (w.ask before.length cmd)).map Prod.fst).getD notImplemented

variable (lib : Option LatteClient)

/-- One call over the socket: the value, and the connection behind it. -/
def remoteCall (m : RemoteCall) (conn : Connection) : Option (Returned × Connection) :=
  match m.call.run w.coding lib m.msgId with
  | .error (.returned r) => some (r, conn)
  | .error .aborted => none
  | .ok p =>
      match AttGuardClient.post w.peer ⟨p.cmd, m.sends, m.recvs⟩ conn with
      | (.waiting, _) => none
      | (.failed r, conn) => some (p.finish r, conn)
      | (.decoded r, conn) => some (p.finish r, conn)

/-- The values that calls return over the socket, up to the first that does not return. -/
def remoteRun : List RemoteCall → Connection → List Returned
  | [], _ => []
  | m :: rest, conn =>
      match w.remoteCall lib m conn with
      | some (r, conn) => r :: remoteRun rest conn
      | none => []

/-- The values of the same calls when the daemon is asked directly: its state after `n` commands of
the process is `d`. -/
def directRun : List RemoteCall → ℕ → Daemon → List Returned
  | [], _, _ => []
  | m :: rest, n, d =>
      match m.call.run w.coding lib m.msgId with
      | .error (.returned r) => r :: directRun rest n d
      | .error .aborted => []
      | .ok p =>
          match w.ask n p.cmd d with
          | some (r, d) => p.finish r :: directRun rest (n + 1) d
          | none => []

/-- In a direct run the daemon answers every post, and `P` holds of the post and its response. -/
def Along (P : PostCall → Response → Prop) : List RemoteCall → ℕ → Daemon → Prop
  | [], _, _ => True
  | m :: rest, n, d =>
      match m.call.run w.coding lib m.msgId with
      | .error (.returned _) => Along P rest n d
      | .error .aborted => True
      | .ok p => ∃ r d', w.ask n p.cmd d = some (r, d') ∧
          P ⟨p.cmd, m.sends, m.recvs⟩ r ∧ Along P rest (n + 1) d'

/-! ## The daemon that is asked -/

variable {w lib}

lemma daemonAfter_concat {cmds : List Command} {cmd : Command} {d d' : Daemon} {r : Response}
    (hd : w.daemonAfter cmds = some d) (hask : w.ask cmds.length cmd d = some (r, d')) :
    w.daemonAfter (cmds ++ [cmd]) = some d' := by
  rw [daemonAfter, List.zipIdx_append, List.foldlM_append]
  rw [daemonAfter] at hd
  simp [hd, hask]

lemma respond_eq {cmds : List Command} {cmd : Command} {d d' : Daemon} {r : Response}
    (hd : w.daemonAfter cmds = some d) (hask : w.ask cmds.length cmd d = some (r, d')) :
    w.peer.respond cmds cmd = r := by
  simp [peer, hd, hask]

/-- What a daemon gives that is reached and answers. -/
lemma ask_of_answer {n : ℕ} {cmd : Command} {d d₁ : Daemon} {r : Response}
    (hreached : w.meanwhile n d = some d₁)
    (hanswer : (Manager.answer w.env (w.session.stamp cmd) d₁).1 = .ok (some r)) :
    ∃ d', w.ask n cmd d = some (r, d') := by
  rw [ask, hreached, Option.bind_some]
  generalize Manager.answer w.env (w.session.stamp cmd) d₁ = answered at hanswer ⊢
  obtain ⟨result, d₂⟩ := answered
  obtain rfl : result = .ok (some r) := hanswer
  exact ⟨_, rfl⟩

/-- A call that posts a command and returns. -/
lemma remoteCall_eq_some {m : RemoteCall} {p : Posted} {conn conn' : Connection}
    {value : Returned} (hrun : m.call.run w.coding lib m.msgId = .ok p) :
    w.remoteCall lib m conn = some (value, conn') ↔
      ∃ r, ((AttGuardClient.post w.peer ⟨p.cmd, m.sends, m.recvs⟩ conn).1 = .failed r ∨
          (AttGuardClient.post w.peer ⟨p.cmd, m.sends, m.recvs⟩ conn).1 = .decoded r) ∧
        value = p.finish r ∧
        conn' = (AttGuardClient.post w.peer ⟨p.cmd, m.sends, m.recvs⟩ conn).2 := by
  simp only [remoteCall, hrun]
  generalize AttGuardClient.post w.peer ⟨p.cmd, m.sends, m.recvs⟩ conn = posted
  obtain ⟨result, after⟩ := posted
  cases result with
  | waiting => simp
  | failed r => simp [eq_comm]
  | decoded r => simp [eq_comm]

/-! ## The two runs agree -/

/-- One more command of the process, in the form the induction needs. -/
lemma length_concat (cmds : List Command) (cmd : Command) :
    cmds.length + 1 = (cmds ++ [cmd]).length := by simp

/-- **Two runs from a settled connection**: the one over the socket returns what the other does, as
far as it gets, and gets to the end with enough system calls. -/
lemma remoteRun_agrees {calls : List RemoteCall} {cmds : List Command} {conn : Connection}
    {d : Daemon} (hd : w.daemonAfter cmds = some d)
    (hcarried : w.Along lib (AttGuardClient.Carried w.peer) calls cmds.length d)
    (hcoded : AttGuardClient.Coded w.peer cmds) (h : AttGuardClient.Settled w.peer cmds conn) :
    w.remoteRun lib calls conn <+: w.directRun lib calls cmds.length d ∧
      (w.Along lib (AttGuardClient.Enough w.peer) calls cmds.length d →
        w.remoteRun lib calls conn = w.directRun lib calls cmds.length d) := by
  induction calls generalizing cmds conn d with
  | nil => exact ⟨List.nil_prefix, fun _ => rfl⟩
  | cons m rest ih =>
      rw [remoteRun, directRun, Along, remoteCall]
      rw [Along] at hcarried
      cases hrun : m.call.run w.coding lib m.msgId with
      | error e =>
          rw [hrun] at hcarried
          cases e with
          | aborted => exact ⟨List.nil_prefix, fun _ => rfl⟩
          | returned r =>
              obtain ⟨hpre, heq⟩ := ih hd hcarried hcoded h
              exact ⟨List.cons_prefix_cons.mpr ⟨rfl, hpre⟩,
                fun henough => congrArg (r :: ·) (heq henough)⟩
      | ok p =>
          rw [hrun] at hcarried
          obtain ⟨r, d', hask, hp, hrest⟩ := hcarried
          obtain rfl := respond_eq hd hask
          have hpost := AttGuardClient.post_carried hcoded hp h
          have hreturns := fun henough => AttGuardClient.post_enough hcoded hp henough h
          simp only [hask]
          generalize AttGuardClient.post w.peer ⟨p.cmd, m.sends, m.recvs⟩ conn = posted
            at hpost hreturns ⊢
          obtain ⟨result, conn'⟩ := posted
          rcases hpost with hwaiting | ⟨hdecoded, hsettled⟩
          · obtain rfl : result = .waiting := hwaiting
            refine ⟨List.nil_prefix, fun henough => ?_⟩
            obtain ⟨r', d'', heq, henough, -⟩ := henough
            cases heq
            exact absurd rfl (hreturns henough)
          · obtain rfl : result = .decoded _ := hdecoded
            have hsettled : AttGuardClient.Settled w.peer (cmds ++ [p.cmd]) conn' := hsettled
            rw [length_concat cmds p.cmd] at hrest ⊢
            obtain ⟨hpre, heq⟩ :=
              ih (daemonAfter_concat hd hask) hrest (hcoded.concat hp) hsettled
            refine ⟨List.cons_prefix_cons.mpr ⟨rfl, hpre⟩, fun henough => ?_⟩
            obtain ⟨r', d'', hsame, -, henough⟩ := henough
            cases hsame
            exact congrArg (List.cons _) (heq henough)

/-- **The socket is transparent.**  For every sequence of library calls of a process, whatever the
calls of other processes in between, as long as the daemon answers: the values returned over the
socket are, in order, those that the daemon gives when it is asked directly, and all of them as soon
as enough system calls move bytes. -/
theorem remote_transparent {calls : List RemoteCall}
    (hcarried : w.Along lib (AttGuardClient.Carried w.peer) calls 0 w.start) :
    w.remoteRun lib calls {} <+: w.directRun lib calls 0 w.start ∧
      (w.Along lib (AttGuardClient.Enough w.peer) calls 0 w.start →
        w.remoteRun lib calls {} = w.directRun lib calls 0 w.start) :=
  @remoteRun_agrees _ _ _ [] _ _ rfl hcarried (fun _ h => by cases h) ⟨rfl, rfl⟩

/-- The process `alice`, with another process that looks up the configuration of the daemon before
each of her commands. -/
def aliceWorld : World where
  env := Manager.acceptingService
  start := {}
  session := { pid := 100 }
  coding := .short
  parseCommand _ := some (AttGuardClient.linkImage "alice" 1 "host" "img")
  serializeResponse _ := [0x08, 0x02]
  parseResponse _ := some (makeStatusResponse true "")
  others _ := [⟨some ⟨"bob", "10.0.0.2"⟩, { pid := 200 }, 0, .getMetadataConfig⟩]
  others_fit _ _ _ _ _ := (by decide : 2 ≤ recvBufsz)

/-- Two calls, the first refused by the library and the second sent in two parts. -/
def aliceCalls : List RemoteCall :=
  [⟨0, .endorse none (some "prop") (some "val"), [], []⟩,
    ⟨1, .linkImage (some "host") (some "img"), .returned 3 :: .failed .eagain ::
      List.replicate 9 (.returned 7), List.replicate 10 (.returned 8)⟩]

theorem remote_transparent_alice :
    aliceWorld.remoteRun (some ⟨"alice", "10.0.0.1"⟩) aliceCalls {} = [.int (-1), .int 1] := by
  have hcarried : aliceWorld.Along (some ⟨"alice", "10.0.0.1"⟩)
      (AttGuardClient.Carried aliceWorld.peer) aliceCalls 0 aliceWorld.start :=
    ⟨_, _, rfl, ⟨rfl, by decide, rfl, by decide, by simp [CallResult.Benign],
      by simp [CallResult.Benign]⟩, trivial⟩
  have henough : aliceWorld.Along (some ⟨"alice", "10.0.0.1"⟩)
      (AttGuardClient.Enough aliceWorld.peer) aliceCalls 0 aliceWorld.start :=
    ⟨_, _, rfl, ⟨by decide, by decide⟩, trivial⟩
  exact (remote_transparent hcarried).2 henough

end World

end Libport
