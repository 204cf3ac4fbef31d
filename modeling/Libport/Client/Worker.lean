import Libport.Client.Remote

/-!
# A server that asks for an access (`PortManager.java`)

The server of the demonstration asks, for each peer that connects, whether the peer may access an
object, and sends it one byte.  It tests whether the value of the call is `0`.

The call goes over the socket that the library keeps.  A response that an earlier call left unread
would be taken for this one's, so the results here are about a connection on which everything was
read.

* `World.Ready`: such a connection, and a daemon that answers the command.
* `Ready.admits_iff`: the check of an initialised library, whatever its system calls return.
* **`worker_admits_iff`**: whom the server lets through.
-/

namespace Libport

/-- The byte that `doWorker` sends to its peer: `0` is the access, `1` its denial. -/
def workerByte (value : ℤ) : ℕ := if value = 0 then 1 else 0

/-- The call that `doWorker` makes for its peer, with the ends of its system calls. -/
def workerCall (msgId : Int64) (ip : String) (port : UInt32) (object : String)
    (sends recvs : List CallResult) : RemoteCall :=
  ⟨msgId, .checkAccess (some ip) port (some object), sends, recvs⟩

/-- A post that fails returns a status of its own, and it is not a success. -/
lemma AttGuardClient.post_failed {peer : Peer} {p : PostCall} {conn : Connection} {r : Response}
    (h : (post peer p conn).1 = .failed r) : r.statusInt = 0 := by
  have hfailure : ∀ what ret, failure what ret = .failed r → r.statusInt = 0 := by
    intro what ret hret
    cases ret <;> cases hret
    rfl
  simp only [post, postRecv] at h
  split_ifs at h
  · exact hfailure _ _ h
  · exact hfailure _ _ h

namespace World

/-- The connection is in order for one more command: all responses to the commands before it have
been read, the others have not brought the daemon down, which is in state `d` when the command
reaches it, and the daemon answers.  The command is received whole, and it and its response are
coded faithfully. -/
structure Ready (w : World) (cmds : List Command) (cmd : Command) (conn : Connection)
    (d : Daemon) : Prop where
  settled : AttGuardClient.Settled w.peer cmds conn
  coded : AttGuardClient.Coded w.peer (cmds ++ [cmd])
  fits : (w.coding.command cmd).length ≤ recvBufsz
  reached : ∃ d₀, w.daemonAfter cmds = some d₀ ∧ w.meanwhile cmds.length d₀ = some d
  answered : ∃ r, (Manager.answer w.env (w.session.stamp cmd) d).1 = .ok (some r) ∧
    w.parseResponse (w.serializeResponse r) = some r ∧ (w.serializeResponse r).length < 2 ^ 31

/-- The call reads a response. -/
def Reads (w : World) (lib : Option LatteClient) (m : RemoteCall) (conn : Connection) : Prop :=
  ∃ p r, m.call.run w.coding lib m.msgId = .ok p ∧
    (AttGuardClient.post w.peer ⟨p.cmd, m.sends, m.recvs⟩ conn).1 = .decoded r

variable {w : World} {cmds : List Command} {cmd : Command} {conn : Connection} {d : Daemon}

/-- What is decoded on a connection in order is the daemon's answer. -/
lemma Ready.decoded (h : w.Ready cmds cmd conn d) {sends recvs : List CallResult} {r : Response}
    (hpost : (AttGuardClient.post w.peer ⟨cmd, sends, recvs⟩ conn).1 = .decoded r) :
    (Manager.answer w.env (w.session.stamp cmd) d).1 = .ok (some r) := by
  obtain ⟨d₀, hd₀, hreached⟩ := h.reached
  obtain ⟨own, hanswer, hresponse⟩ := h.answered
  obtain ⟨d', hask⟩ := ask_of_answer hreached hanswer
  have hown := respond_eq hd₀ hask
  obtain rfl := AttGuardClient.post_decoded h.coded (by rwa [hown]) h.settled hpost
  rw [hanswer, hown]

section Check

variable {msgId : Int64} {ip object : String} {port : UInt32} {sends recvs : List CallResult}

/-- The status that the daemon answers an access check with. -/
lemma checkAccess_status {c : LatteClient} {r : Response}
    (hanswer : (Manager.answer w.env
      (w.session.stamp (AttGuardClient.checkAccess c.myid msgId ip port object)) d).1
        = .ok (some r)) :
    ∃ success : Bool, r.statusInt = (if success then 1 else 0) ∧
      (success = true ↔ Approved .checkAccess (w.env.replies d.exchanges.length)) := by
  obtain ⟨p, hp, hleaves, hvalue⟩ := (LibCall.checkAccess (some ip) port (some object)).run_done
    w.coding w.env d w.session notImplemented c msgId
  cases hp
  have hserved := (Manager.answersOnce_iff_answer w.env _ d).mpr ⟨r, hanswer⟩
  obtain ⟨success, hresult, hiff⟩ := hvalue (hleaves.1.mp hserved)
  rw [result_of_answer hanswer] at hresult
  exact ⟨success, Returned.int.inj hresult, hiff⟩

/-- A check over the socket, in an initialised library: it lets the peer through exactly if a
response is read and the service approved. -/
lemma Ready.admits_iff {c : LatteClient}
    (h : w.Ready cmds (AttGuardClient.checkAccess c.myid msgId ip port object) conn d) :
    (∃ value conn', w.remoteCall (some c) (workerCall msgId ip port object sends recvs) conn
        = some (.int value, conn') ∧ workerByte value = 0) ↔
      w.Reads (some c) (workerCall msgId ip port object sends recvs) conn ∧
        Approved .checkAccess (w.env.replies d.exchanges.length) := by
  have hrun : (workerCall msgId ip port object sends recvs).call.run w.coding (some c) msgId
      = .ok (.status (AttGuardClient.checkAccess c.myid msgId ip port object)) := rfl
  constructor
  · rintro ⟨value, conn', hcall, hbyte⟩
    obtain ⟨r, hpost, hvalue, -⟩ := (remoteCall_eq_some hrun).mp hcall
    obtain rfl : value = r.statusInt := Returned.int.inj hvalue
    rcases hpost with hpost | hpost
    · rw [AttGuardClient.post_failed hpost] at hbyte
      cases hbyte
    · obtain ⟨success, hstatus, hiff⟩ := checkAccess_status (h.decoded hpost)
      refine ⟨⟨_, r, hrun, hpost⟩, hiff.mp ?_⟩
      rw [hstatus] at hbyte
      cases success with
      | true => rfl
      | false => cases hbyte
  · rintro ⟨⟨p, r, hp, hpost⟩, happroved⟩
    cases hrun.symm.trans hp
    obtain ⟨success, hstatus, hiff⟩ := checkAccess_status (h.decoded hpost)
    refine ⟨r.statusInt, _, (remoteCall_eq_some hrun).mpr ⟨r, .inr hpost, rfl, rfl⟩, ?_⟩
    rw [hstatus, hiff.mpr happroved]
    rfl

end Check

/-- **Whom the server lets through.**  For every peer and every object it asks about, on a
connection in order, and whatever the system calls of the call return: exactly those for whom a
response is read and whose access the service approved, and everyone when the library is not
initialised. -/
theorem worker_admits_iff (lib : Option LatteClient) (msgId : Int64) (ip object : String)
    (port : UInt32) (sends recvs : List CallResult)
    (hready : ∀ c ∈ lib,
      w.Ready cmds (AttGuardClient.checkAccess c.myid msgId ip port object) conn d) :
    (∃ value conn', w.remoteCall lib (workerCall msgId ip port object sends recvs) conn
        = some (.int value, conn') ∧ workerByte value = 0) ↔
      lib = none ∨ w.Reads lib (workerCall msgId ip port object sends recvs) conn ∧
        Approved .checkAccess (w.env.replies d.exchanges.length) := by
  cases lib with
  | none => exact iff_of_true ⟨-1, conn, rfl, rfl⟩ (.inl rfl)
  | some c =>
      simp only [reduceCtorEq, false_or]
      exact (hready c rfl).admits_iff

/-- `alice`'s world, with a service that approves. -/
def approvingWorld : World :=
  { aliceWorld with
    env := .inOrder fun _ =>
      .replied ⟨200, .ok (.object [("message", .string "approveAccess('alice')")])⟩
    parseCommand := fun _ =>
      some (AttGuardClient.checkAccess "alice" 1 "10.0.0.3" 4144 "alice:newobject") }

/-- The daemon, when her command reaches it. -/
def reachedDaemon : Daemon := (approvingWorld.meanwhile 0 {}).getD {}

theorem worker_admits_approved :
    ∃ value conn', approvingWorld.remoteCall (some ⟨"alice", "10.0.0.1"⟩)
        (workerCall 1 "10.0.0.3" 4144 "alice:newobject" [.returned 10]
          [.returned 8, .returned 2]) {}
          = some (.int value, conn') ∧ workerByte value = 0 := by
  have hready : ∀ c ∈ some (⟨"alice", "10.0.0.1"⟩ : LatteClient), approvingWorld.Ready []
      (AttGuardClient.checkAccess c.myid 1 "10.0.0.3" 4144 "alice:newobject") {}
      reachedDaemon := by
    rintro c ⟨⟩
    refine ⟨⟨rfl, rfl⟩, fun cmd hcmd => ?_, by decide, ⟨_, rfl, rfl⟩, _, rfl, rfl, by decide⟩
    obtain rfl := List.mem_singleton.mp hcmd
    exact ⟨rfl, by decide⟩
  exact (worker_admits_iff _ 1 "10.0.0.3" "alice:newobject" 4144 [.returned 10]
    [.returned 8, .returned 2] hready).mpr (.inr ⟨⟨_, _, rfl, rfl⟩,
      _, _, _, rfl, rfl, rfl, rfl, [], "('alice')".toList, rfl⟩)

end World

end Libport
