import Libport.Client.Endorse
import Libport.Server.Deletion

/-!
# Looking up a local principal (`client/client.cc`, `proto/utils.h`)

`liblatte_get_local_principal` sends a lookup to the daemon and hands the principal in the response
to its caller.  The daemon answers `GET_LOCAL_PRINCIPAL` from its table, and the client sends
`GET_PRINCIPAL`, which is not implemented.

* `lookup_localType`: the lookup with the type of the daemon's handler finds the newest entry.
* **`lookup_iff`**: the lookup as the client makes it is right about an id exactly when the table
  has no entry of it.
-/

namespace Libport

/-- `ResponseWrapper::extract_principal`. -/
def Response.extractPrincipal (r : Response) : Option Principal :=
  match r.result with
  | .packed (.principal p) => some p
  | _ => none

/-- What `post` returns for a command sent through session `s`: the daemon's response, or, when
there is none, a status of its own. -/
def postThrough (env : Env) (d : Daemon) (s : Session) (failure : Response) (cmd : Command) :
    Response :=
  match (Manager.answer env (s.stamp cmd) d).1 with
  | .ok (some r) => r
  | _ => failure

namespace AttGuardClient

variable (post : Command → Response) (myid : String) (msgId : Int64)

/-- `quick_get_principal`. -/
def quickGetPrincipal (type : CommandType) (statement : Principal) : Option Principal :=
  (post (prepare msgId type (.principal statement) myid)).extractPrincipal

/-- `get_principal`, by address. -/
def getPrincipal (ip : String) (lo : UInt32) : Option Principal :=
  quickGetPrincipal post myid msgId .getPrincipal { auth := { ip := ip, portLo := lo } }

/-- `get_local_principal`, by id. -/
def getLocalPrincipal (uuid : UInt64) : Option Principal :=
  quickGetPrincipal post myid msgId .getPrincipal { id := uuid }

end AttGuardClient

/-- `wrap_proto_msg`, when the buffer can be allocated. -/
def wrapProtoMsg {α : Type} (serialize : α → List UInt8) (p : α) : Option (List UInt8) :=
  some (serialize p)

/-- `liblatte_get_local_principal`, in a library that is initialised and with its pointers not
null.  `none` is the null pointer. -/
def liblatteGetLocalPrincipal (serialize : Principal → List UInt8) (post : Command → Response)
    (myid : String) (msgId : Int64) (uuid : UInt64) : Option (List UInt8) :=
  match AttGuardClient.getLocalPrincipal post myid msgId uuid with
  | some p => wrapProtoMsg serialize p
  | none => none

namespace Manager

/-- What a lookup of `uuid` should return after the commands `cmds` left the daemon in `d`: the
newest entry of the id, which one of the commands created, and nothing exactly when there is no
entry. -/
structure LookedUp {α : Type} (cmds : List Command) (d : Daemon) (uuid : UInt64)
    (wrap : Principal → α) (result : Option α) : Prop where
  found : (∃ e ∈ d.principals, e.1 = uuid) → ∃ l, (uuid, l) ∈ d.principals ∧
    (∀ e ∈ d.principals, e.1 = uuid → e.2.gn ≤ l.gn) ∧
    (∃ c ∈ cmds, Created c (uuid, l) ∧ c.pid = l.speaker) ∧ result = some (wrap l)
  null : result = none ↔ ∀ e ∈ d.principals, e.1 ≠ uuid

variable {env : Env} {cmds : List Command} {d : Daemon}

/-- The daemon's handler for `GET_LOCAL_PRINCIPAL`, as the client would see it. -/
lemma quickGetPrincipal_local (s : Session) (failure : Response) (myid : String) (msgId : Int64)
    (uuid : UInt64) :
    AttGuardClient.quickGetPrincipal (postThrough env d s failure) myid msgId .getLocalPrincipal
      { id := uuid } = latest env d uuid := by
  have hanswer : answer env (s.stamp (prepare msgId .getLocalPrincipal
      (.principal { id := uuid }) myid)) d
      = (orStatus (.ok (some (match latest env d uuid with
          | some l => makePrincipalResponse l
          | none => makeStatusResponse false "not found"))), d) := by
    have hstatement : extractPrincipal (s.stamp (prepare msgId .getLocalPrincipal
        (.principal { id := uuid }) myid)) = some { id := uuid } := rfl
    have hhandler : findHandler env (s.stamp (prepare msgId .getLocalPrincipal
        (.principal { id := uuid }) myid)).type = some (getLocalPrincipal env) := rfl
    have hserved := answer_handler env hhandler d
    rw [getLocalPrincipal_run env hstatement d] at hserved
    exact hserved
  rw [AttGuardClient.quickGetPrincipal, postThrough, hanswer]
  cases latest env d uuid <;> rfl

/-- With the type of the daemon's handler the lookup is right about every id. -/
lemma lookup_localType (hserved : Served env cmds d) (s : Session) (failure : Response)
    (myid : String) (msgId : Int64) (uuid : UInt64) :
    LookedUp cmds d uuid id (AttGuardClient.quickGetPrincipal (postThrough env d s failure) myid
      msgId .getLocalPrincipal { id := uuid }) := by
  rw [quickGetPrincipal_local]
  refine ⟨fun hpresent => ?_, latest_eq_none env⟩
  obtain ⟨l, hl⟩ := exists_latest env hpresent
  have hmem := latest_mem env hl
  exact ⟨l, hmem, fun e he hid => latest_max env hl he hid, created_of_served env hserved _ hmem,
    hl⟩

/-- The client's lookup returns null, whatever is in the table. -/
lemma liblatteGetLocalPrincipal_null (env : Env) (d : Daemon) (serialize : Principal → List UInt8)
    (s : Session) (failure : Response) (myid : String) (msgId : Int64) (uuid : UInt64) :
    liblatteGetLocalPrincipal serialize (postThrough env d s failure) myid msgId uuid = none :=
  rfl

/-- **When a local lookup is right.**  After every run of commands, for every id: the lookup
returns the newest entry of the id, and null exactly when there is none, if and only if there is
none.  The same lookup sent with the type of the daemon's handler would be right about every
id. -/
theorem lookup_iff (hserved : Served env cmds d) (serialize : Principal → List UInt8)
    (s : Session) (failure : Response) (myid : String) (msgId : Int64) (uuid : UInt64) :
    (LookedUp cmds d uuid serialize
        (liblatteGetLocalPrincipal serialize (postThrough env d s failure) myid msgId uuid) ↔
      ∀ e ∈ d.principals, e.1 ≠ uuid) ∧
      LookedUp cmds d uuid id (AttGuardClient.quickGetPrincipal (postThrough env d s failure)
        myid msgId .getLocalPrincipal { id := uuid }) := by
  refine ⟨?_, lookup_localType hserved s failure myid msgId uuid⟩
  rw [liblatteGetLocalPrincipal_null]
  constructor
  · intro h
    exact h.null.mp rfl
  · intro habsent
    refine ⟨?_, iff_of_true rfl habsent⟩
    rintro ⟨e, he, hid⟩
    exact absurd hid (habsent e he)

/-- The state of a fresh daemon after principal `7` is created. -/
def oneCreated : Daemon :=
  (Action.forEach (serve acceptingService) [principalCommand .createPrincipal 100 1] {}).2

/-- The lookup of an id that was not created. -/
theorem lookup_absent :
    LookedUp [principalCommand .createPrincipal 100 1] oneCreated 8 (fun _ => [])
      (liblatteGetLocalPrincipal (fun _ => []) (postThrough acceptingService oneCreated
        { pid := 100 } notImplemented) "10.0.0.1:1-65535" 0 8) := by
  have hserved : Served acceptingService [principalCommand .createPrincipal 100 1] oneCreated :=
    rfl
  refine (lookup_iff hserved (fun _ => []) { pid := 100 } notImplemented "10.0.0.1:1-65535" 0
    8).1.mpr ?_
  decide

/-- Principal `7` is created, and its lookup returns null. -/
theorem lookup_created :
    Served acceptingService [principalCommand .createPrincipal 100 1] oneCreated ∧
      oneCreated.principals = [(7, { id := 7, gn := 0, speaker := 100 })] ∧
      ∀ serialize, ¬ LookedUp [principalCommand .createPrincipal 100 1] oneCreated 7 serialize
        (liblatteGetLocalPrincipal serialize (postThrough acceptingService oneCreated
          { pid := 100 } notImplemented) "10.0.0.1:1-65535" 0 7) := by
  refine ⟨rfl, rfl, fun serialize h => ?_⟩
  exact h.null.mp rfl (7, { id := 7, gn := 0, speaker := 100 }) (by decide) rfl

end Manager

end Libport
