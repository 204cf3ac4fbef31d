import Libport.Server.Privilege
import Libport.Server.Session

/-!
# Credentials that a client cannot choose

The pid, uid and gid that the manager acts on are fields of the command, and so are the
generation and the speaker of a principal to be created: a client can put anything there.  The
session overwrites the first three with what the kernel reports for the peer, and
`create_principal` overwrites the other two.

* `System` is the daemon with its sessions, and a run is a list of accepted connections and
  decoded commands in any order.
* `Forgery` is a choice of the five values, and `Event.forge` puts it into a decoded command.
* `run_forge`: two runs that differ in forgeries only are the same run, in the responses, in the
  requests to the metadata service and in the state.
* `PeerInv` is the invariant of a run: the speaker of every entry is the pid that the kernel
  reported for the session that created it, and is not `0`.
* **`credentials_unforgeable`** puts the two together.
-/

namespace Libport

/-- The daemon and the sessions it has accepted, in the order of acceptance. -/
structure System where
  daemon : Daemon := {}
  sessions : List Session := []

/-- What reaches the daemon: a connection, with the credentials `getsockopt` reports if it
succeeds, or a command decoded by the session with the given number. -/
inductive Event
  | accepted (peer : Option Ucred)
  | decoded (session : ℕ) (cmd : Command)

/-- A session as `start` leaves it. -/
def Session.started (peer : Option Ucred) : Session := (Session.start peer {}).2

namespace System

variable (env : Env)

/-- One event.  A session that was refused has closed its socket and decodes nothing. -/
def step : Event → Action Exc System Unit
  | .accepted peer =>
      Action.modify fun sys => { sys with sessions := sys.sessions ++ [Session.started peer] }
  | .decoded i cmd => do
      let sys ← Action.get
      match sys.sessions[i]? with
      | some s =>
          if s.opened then
            Action.zoom System.daemon (fun d sys => { sys with daemon := d })
              (Manager.serve env (s.stamp cmd))
          else pure ()
      | none => pure ()

/-- A run of the daemon from its start. -/
def run (events : List Event) : Except Exc Unit × System := Action.forEach (step env) events {}

end System

/-! ## Forgeries -/

/-- Values for the fields a client may fill in as it likes. -/
structure Forgery where
  pid : UInt64
  uid : UInt64
  gid : UInt64
  gn : UInt64
  speaker : UInt64

/-- The forgery inside a statement: only a principal to be created has the two fields. -/
def Any.forge (f : Forgery) (type : CommandType) : Any → Any
  | .packed (.principal p) =>
      if type = .createPrincipal then
        .packed (.principal { p with gn := f.gn, speaker := f.speaker })
      else .packed (.principal p)
  | statement => statement

/-- The command with the forged values in place of the client's. -/
def Command.forge (f : Forgery) (cmd : Command) : Command :=
  { cmd with
    pid := f.pid
    uid := f.uid
    gid := f.gid
    statement := cmd.statement.forge f cmd.type }

/-- The event with the forged values in the decoded command. -/
def Event.forge (f : Forgery) : Event → Event
  | accepted peer => accepted peer
  | decoded i cmd => decoded i (cmd.forge f)

/-- The manager does not look at the generation and the speaker of a principal it creates. -/
lemma createPrincipal_forge (env : Env) (f : Forgery) {cmd : Command} {p : Principal}
    (hst : cmd.statement = .packed (.principal p)) :
    Manager.createPrincipal env { cmd with
        statement := .packed (.principal { p with gn := f.gn, speaker := f.speaker }) }
      = Manager.createPrincipal env cmd := by
  have hx : extractPrincipal cmd = some p := by rw [extractPrincipal, hst]
  funext d
  rw [Manager.createPrincipal_run env hx, Manager.createPrincipal_run env rfl]
  rfl

lemma serve_forge (env : Env) (f : Forgery) (cmd : Command) :
    Manager.serve env { cmd with statement := cmd.statement.forge f cmd.type }
      = Manager.serve env cmd := by
  by_cases hcreate : cmd.type = .createPrincipal ∧ ∃ p, cmd.statement = .packed (.principal p)
  · obtain ⟨ht, p, hst⟩ := hcreate
    have hforge : cmd.statement.forge f cmd.type
        = .packed (.principal { p with gn := f.gn, speaker := f.speaker }) := by
      rw [hst, ht]
      rfl
    have hanswer : Manager.answer env { cmd with statement := cmd.statement.forge f cmd.type }
        = Manager.answer env cmd := by
      have hfind : Manager.findHandler env cmd.type = some (Manager.createPrincipal env) := by
        rw [ht]
        rfl
      rw [hforge]
      simp only [Manager.answer, hfind]
      exact congrArg (Action.catching · _) (createPrincipal_forge env f hst)
    rw [Manager.serve, Manager.serve, Manager.dispatch, Manager.dispatch, hanswer]
  · have hsame : cmd.statement.forge f cmd.type = cmd.statement := by
      rw [not_and, not_exists] at hcreate
      unfold Any.forge
      split
      · rename_i p hst
        rw [if_neg fun ht => hcreate ht p hst, hst]
      · rfl
    rw [hsame]

lemma step_forge (env : Env) (f : Forgery) (event : Event) :
    System.step env (event.forge f) = System.step env event := by
  cases event with
  | accepted peer => rfl
  | decoded i cmd =>
      funext sys
      have hstamp : ∀ s : Session, Manager.serve env (s.stamp (cmd.forge f))
          = Manager.serve env (s.stamp cmd) := fun s => serve_forge env f (s.stamp cmd)
      simp only [Event.forge, System.step, Action.bind_run, Action.get_run]
      cases sys.sessions[i]? with
      | none => rfl
      | some s => simp only [hstamp]

lemma run_forge (env : Env) (events : List (Event × Forgery)) (sys : System) :
    Action.forEach (System.step env) (events.map fun e => e.1.forge e.2) sys
      = Action.forEach (System.step env) (events.map Prod.fst) sys := by
  induction events generalizing sys with
  | nil => rfl
  | cons e rest ih =>
      simp only [List.map_cons, Action.forEach_cons, Action.bind_run, step_forge, ih]

/-! ## Speakers -/

/-- The credentials of the accepted connections, in the order of the sessions. -/
def peers (events : List Event) : List (Option Ucred) :=
  events.filterMap fun
    | .accepted peer => some peer
    | .decoded _ _ => none

lemma peers_append (events rest : List Event) :
    peers (events ++ rest) = peers events ++ peers rest := by
  simp [peers, List.filterMap_append]

/-- `cred.pid` as the session stores it. -/
def Ucred.pid64 (cred : Ucred) : UInt64 := cred.pid.toInt64.toUInt64

/-- A session whose peer has a pid waits for a header. -/
lemma started_of_ne_zero {cred : Ucred} (h : cred.pid64 ≠ 0) :
    Session.started (some cred) = {
      pid := cred.pid64
      uid := cred.uid.toUInt64
      gid := cred.gid.toUInt64
      pending := [.readHeader] } := by
  change cred.pid.toInt64.toUInt64 ≠ 0 at h
  simp [Session.started, Session.start, Session.authenticate, Session.protoStart, Session.begin,
    unixAuthId, Ucred.pid64, h]

lemma started_opened {peer : Option Ucred} (h : (Session.started peer).opened = true) :
    ∃ cred, peer = some cred ∧ cred.pid64 ≠ 0 := by
  cases peer with
  | none => exact absurd h (by decide)
  | some cred =>
      refine ⟨cred, rfl, fun hzero => ?_⟩
      change cred.pid.toInt64.toUInt64 = 0 at hzero
      simp [Session.started, Session.start, Session.authenticate, Session.stop, unixAuthId,
        hzero] at h

/-- The entry was created by a session of the run, whose peer's pid is its speaker. -/
def CreatedByPeer (events : List Event) (e : UInt64 × Principal) : Prop :=
  ∃ i cmd cred, Event.decoded i cmd ∈ events ∧ (peers events)[i]? = some (some cred) ∧
    Manager.Created ((Session.started (some cred)).stamp cmd) e ∧
    e.2.speaker = cred.pid64 ∧ cred.pid64 ≠ 0

/-- The invariant of a run: the sessions are those accepted, and every entry was created by one
of them. -/
def PeerInv (events : List Event) (sys : System) : Prop :=
  sys.sessions = (peers events).map Session.started ∧
    ∀ e ∈ sys.daemon.principals, CreatedByPeer events e

lemma CreatedByPeer.mono {events : List Event} {e : UInt64 × Principal}
    (h : CreatedByPeer events e) (event : Event) : CreatedByPeer (events ++ [event]) e := by
  obtain ⟨i, cmd, cred, hmem, hpeer, hcreated, hspeaker⟩ := h
  have hi : i < (peers events).length := (List.getElem?_eq_some_iff.mp hpeer).1
  refine ⟨i, cmd, cred, List.mem_append_left _ hmem, ?_, hcreated, hspeaker⟩
  rw [peers_append, List.getElem?_append_left hi]
  exact hpeer

/-- A decoded command leaves the sessions alone, and reaches the manager only through an open
one. -/
lemma step_decoded_cases {env : Env} {i : ℕ} {cmd : Command} {sys sys' : System}
    (h : System.step env (.decoded i cmd) sys = (.ok (), sys')) :
    sys' = sys ∨ ∃ s, sys.sessions[i]? = some s ∧ s.opened = true ∧
      sys' = { sys with daemon := (Manager.serve env (s.stamp cmd) sys.daemon).2 } := by
  simp only [System.step, Action.bind_run, Action.get_run] at h
  cases hs : sys.sessions[i]? with
  | none =>
      rw [hs] at h
      cases h
      exact Or.inl rfl
  | some s =>
      rw [hs] at h
      cases ho : s.opened with
      | false =>
          simp only [ho] at h
          cases h
          exact Or.inl rfl
      | true =>
          simp only [ho, if_true] at h
          exact Or.inr ⟨s, rfl, ho, (congrArg Prod.snd h).symm⟩

lemma peerInv_step {env : Env} {events : List Event} {event : Event} {sys sys' : System}
    (hinv : PeerInv events sys) (hstep : System.step env event sys = (.ok (), sys')) :
    PeerInv (events ++ [event]) sys' := by
  obtain ⟨hsessions, hprincipals⟩ := hinv
  cases event with
  | accepted peer =>
      cases hstep
      refine ⟨?_, fun e he => (hprincipals e he).mono _⟩
      rw [peers_append, List.map_append, ← hsessions]
      rfl
  | decoded i cmd =>
      have hpeers : peers (events ++ [.decoded i cmd]) = peers events := by
        rw [peers_append]
        exact List.append_nil _
      rcases step_decoded_cases hstep with rfl | ⟨s, hs, hopened, rfl⟩
      · exact ⟨by rw [hpeers, hsessions], fun e he => (hprincipals e he).mono _⟩
      · refine ⟨by rw [hpeers, hsessions], fun e he => ?_⟩
        -- the session is one that was accepted, and its peer has a pid
        rw [hsessions, List.getElem?_map, Option.map_eq_some_iff] at hs
        obtain ⟨peer, hpeer, rfl⟩ := hs
        obtain ⟨cred, rfl, hpid⟩ := started_opened hopened
        rcases Manager.serve_table env ((Session.started (some cred)).stamp cmd) sys.daemon with
          hsame | ⟨new, hnew, htable⟩ | ⟨p, l, -, -, -, -, hdel⟩
        · rw [hsame] at he
          exact (hprincipals e he).mono _
        · rw [htable] at he
          rcases List.mem_cons.mp he with rfl | hmem
          · have hspeaker : e.2.speaker = cred.pid64 := by
              obtain ⟨-, p, -, heq⟩ := hnew
              rw [heq]
              exact congrArg Session.pid (started_of_ne_zero hpid)
            exact ⟨i, cmd, cred, by simp, by rw [hpeers, hpeer], hnew, hspeaker, hpid⟩
          · exact (hprincipals e hmem).mono _
        · rw [hdel] at he
          exact (hprincipals e (List.mem_of_mem_filter he)).mono _

/-- **Credentials cannot be forged.**  Two runs that differ in what clients wrote into the fields
of `Forgery` end alike, with the same responses, requests and principals; and every entry's
speaker is the pid the kernel reported for the session that created it. -/
theorem credentials_unforgeable (env : Env) (events : List (Event × Forgery)) :
    System.run env (events.map fun e => e.1.forge e.2) = System.run env (events.map Prod.fst) ∧
      ∀ sys, System.run env (events.map Prod.fst) = (.ok (), sys) →
        ∀ e ∈ sys.daemon.principals, CreatedByPeer (events.map Prod.fst) e := by
  refine ⟨run_forge env events {}, fun sys hrun => ?_⟩
  have hinv : PeerInv (events.map Prod.fst) sys :=
    Action.forEach_inv (I := PeerInv) hrun ⟨rfl, by simp⟩
      fun done event t t' _ _ hinv hstep => peerInv_step hinv hstep
  exact hinv.2

/-- A client that claims to be root and to speak for process `1` when it creates a principal. -/
def impostor : Forgery := { pid := 1, uid := 0, gid := 0, gn := 9, speaker := 1 }

/-- A connection of process `100` and a creation by it. -/
def creation : List (Event × Forgery) :=
  [(.accepted (some ⟨100, 1, 1⟩), impostor),
    (.decoded 0 (Manager.principalCommand .createPrincipal 100 1), impostor)]

/-- The impostor's run is that of the process it is, and creates an entry under its pid. -/
theorem impostor_unmasked :
    System.run Manager.acceptingService (creation.map fun e => e.1.forge e.2)
        = System.run Manager.acceptingService (creation.map Prod.fst) ∧
      (7, { id := 7, gn := 0, speaker := 100 })
        ∈ (System.run Manager.acceptingService (creation.map Prod.fst)).2.daemon.principals ∧
      CreatedByPeer (creation.map Prod.fst) (7, { id := 7, gn := 0, speaker := 100 }) := by
  have hrun := credentials_unforgeable Manager.acceptingService creation
  have hmem : (7, { id := 7, gn := 0, speaker := 100 })
      ∈ (System.run Manager.acceptingService (creation.map Prod.fst)).2.daemon.principals := by
    decide
  exact ⟨hrun.1, hmem, hrun.2 _ rfl _ hmem⟩

end Libport
