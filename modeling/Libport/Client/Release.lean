import Libport.Client.Endorse
import Libport.Client.Ports
import Libport.Lib.Run
import Libport.Server.Failure

/-!
# Who gives a principal's ports back (`client/client.cc`)

Two parties hold the state of a principal: the kernel reserves its ports and the daemon keeps its
entry.  `liblatte_delete_principal` first gives the ports back and then asks the daemon to delete
the entry; nothing is taken back when the daemon refuses or is never reached.

* `liblatteDeletePrincipal`: the range it gives back and the command it posts after that.
* `Host` is the kernel, the daemon and the calls under way, and `Step` lets any process begin a
  call, or any call under way reach the daemon.  A creation takes effect on the table when its
  entry is inserted and a deletion when it erases, so a command is served in one step.
* `Sound` is what a host should keep: ports are given back on an accepted deletion only, and every
  principal in the table has its ports reserved.  `SoundOnReturn` leaves a deletion the time until
  it is answered.
* `Meets` is the condition on one step, and `Inv` the invariant it keeps.
* **`released_with_principal`**: a run is sound on return if its steps meet the condition, and
  sound at every moment only if no deletion gives anything back.
* `refused_deletion_releases`: a principal in the table whose ports are free.
-/

namespace Libport

/-! ## The calls -/

namespace AttGuardClient

/-- The command `delete_principal` posts. -/
def deletePrincipal (myid : String) (msgId : Int64) (uuid : UInt64) : Command :=
  quickPost myid msgId .deletePrincipal (.principal { id := uuid })

end AttGuardClient

/-- `SyscallProxyImpl::del_reserved_ports`: the arguments of the system call, whose range is
inclusive. -/
def delReservedPorts (lo hi : Int32) : Int32 × Int32 := (lo, hi - 1)

def liblatteDeletePrincipalWithoutAllocatedPorts (myid : String) (msgId : Int64) (uuid : UInt64) :
    Command :=
  AttGuardClient.deletePrincipal myid msgId uuid

/-- `liblatte_delete_principal`: what it gives back, and the command it posts after that.
`childPorts` is what `get_child_ports` stored; when it fails that is only logged, and `lo` and `hi`
keep their initial values. -/
def liblatteDeletePrincipal (myid : String) (msgId : Int64) (uuid : UInt64)
    (childPorts : Option (Int32 × Int32)) : Option (Int32 × Int32) × Command :=
  let (lo, hi) := childPorts.getD (1, 65535)
  (if 1 < lo ∧ hi < 65535 then some (delReservedPorts lo hi) else none,
    liblatteDeletePrincipalWithoutAllocatedPorts myid msgId uuid)

/-- The id that the principal is created under. -/
def CreateCall.uuid : CreateCall → UInt64
  | createPrincipalNew uuid _ _ _ _ => uuid
  | createInstance pid _ _ _ _ _ => pid

/-- What `alloc_child_ports` returns. -/
def allocChildPorts : Option PortBlock → Int32
  | some block => Int32.ofNat block.first
  | none => -1

/-- The `pid_t` that a 64-bit id is passed to the kernel as. -/
def childPid (uuid : UInt64) : Int32 := uuid.toUInt32.toInt32

/-- A process with the library: the name and address it gave at initialisation, and the session
the daemon has for it. -/
structure Caller where
  myid : String
  myip : String
  session : Session

/-- A request to create `sent`, before it reaches the daemon. -/
structure Creation where
  caller : Caller
  msgId : Int64
  sent : Principal

/-- The command as the daemon handles it. -/
def Creation.command (c : Creation) : Command :=
  c.caller.session.stamp
    (AttGuardClient.quickPost c.caller.myid c.msgId .createPrincipal (.principal c.sent))

/-- A call of `liblatte_delete_principal` that has begun. -/
structure Deletion where
  caller : Caller
  msgId : Int64
  uuid : UInt64
  /-- the range that was given back -/
  given : Option (Int32 × Int32)
  /-- whether the daemon accepted the deletion, once the call is over -/
  accepted : Option Bool := none

/-- The deletion of `uuid` by `caller`, right after the system calls. -/
def Deletion.begun (caller : Caller) (msgId : Int64) (uuid : UInt64)
    (childPorts : Option (Int32 × Int32)) : Deletion :=
  { caller := caller
    msgId := msgId
    uuid := uuid
    given := (liblatteDeletePrincipal caller.myid msgId uuid childPorts).1 }

/-- The command as the daemon handles it. -/
def Deletion.command (c : Deletion) : Command :=
  c.caller.session.stamp
    (liblatteDeletePrincipalWithoutAllocatedPorts c.caller.myid c.msgId c.uuid)

/-- The response is a `Status` of success. -/
def isSuccess : Except Exc (Option Response) → Bool
  | .ok (some r) => r.statusInt = 1
  | _ => false

/-! ## The host -/

/-- The kernel, the daemon, and the calls of all processes. -/
structure Host where
  /-- the blocks the kernel reserves, each for the `pid_t` of a child -/
  held : List (Int32 × PortBlock) := []
  daemon : Daemon := {}
  creations : List Creation := []
  deletions : List Deletion := []

/-- The block has a port in the inclusive range. -/
def PortBlock.Touches (b : PortBlock) (range : Int32 × Int32) : Prop :=
  range.1.toInt < b.first + b.count ∧ (b.first : ℤ) ≤ range.2.toInt

instance (b : PortBlock) (range : Int32 × Int32) : Decidable (b.Touches range) :=
  inferInstanceAs (Decidable (_ ∧ _))

/-- The blocks still reserved after a range was given back. -/
def stillHeld (held : List (Int32 × PortBlock)) : Option (Int32 × Int32) →
    List (Int32 × PortBlock)
  | some range => held.filter fun x => ¬ x.2.Touches range
  | none => held

/-- What a command does that reaches the daemon in environment `env`, or that is lost on the way:
whether it is answered with success, and the daemon after it. -/
def deliver (link : Option Env) (cmd : Command) (d : Daemon) : Bool × Daemon :=
  match link with
  | some env => (isSuccess (Manager.answer env cmd d).1, (Manager.answer env cmd d).2)
  | none => (false, d)

/-- The step that is taken. -/
inductive CallEvent
  | createBegins (caller : Caller) (msgId : Int64) (call : CreateCall) (grant : Option PortBlock)
  | createEnds (c : Creation) (link : Option Env)
  | deleteBegins (caller : Caller) (msgId : Int64) (uuid : UInt64)
      (childPorts : Option (Int32 × Int32))
  | deleteEnds (c : Deletion) (link : Option Env)

/-- The request that a creation leaves under way. -/
def CallOutcome.creation (caller : Caller) (msgId : Int64) : CallOutcome → List Creation
  | .sent p _ => [⟨caller, msgId, p⟩]
  | _ => []

namespace Host

/-- One step of one call. -/
inductive Step (h : Host) : CallEvent → Host → Prop
  | createBegins (caller : Caller) (msgId : Int64) (call : CreateCall) (grant : Option PortBlock) :
      Step h (.createBegins caller msgId call grant) { h with
        held := grant.toList.map (fun block => (childPid call.uuid, block)) ++ h.held
        creations := (call.run caller.myip (allocChildPorts grant)).creation caller msgId
          ++ h.creations }
  | createEnds (c : Creation) (link : Option Env) {before after : List Creation}
      (hc : h.creations = before ++ c :: after) :
      Step h (.createEnds c link) { h with
        daemon := (deliver link c.command h.daemon).2
        creations := before ++ after }
  | deleteBegins (caller : Caller) (msgId : Int64) (uuid : UInt64)
      (childPorts : Option (Int32 × Int32)) :
      Step h (.deleteBegins caller msgId uuid childPorts) { h with
        held := stillHeld h.held (Deletion.begun caller msgId uuid childPorts).given
        deletions := .begun caller msgId uuid childPorts :: h.deletions }
  | deleteEnds (c : Deletion) (link : Option Env) {before after : List Deletion}
      (hc : h.deletions = before ++ c :: after) (hopen : c.accepted = none) :
      Step h (.deleteEnds c link) { h with
        daemon := (deliver link c.command h.daemon).2
        deletions := before
          ++ { c with accepted := some (deliver link c.command h.daemon).1 } :: after }

/-- What the kernel promises.  A block has the size asked for and is disjoint from every block
reserved, and the ports reported for a child are a block that is reserved for it, with either the
last port or the one after it as the upper end. -/
def Kernel (h : Host) : CallEvent → Prop
  | .createBegins _ _ call grant => ∀ block, grant = some block →
      call.nport.toInt = (block.count : ℤ) ∧ ∀ x ∈ h.held, x.2.Disjoint block
  | .deleteBegins _ _ uuid childPorts => ∀ ports, childPorts = some ports →
      ∃ block, (childPid uuid, block) ∈ h.held ∧ ports.1.toInt = (block.first : ℤ) ∧
        (ports.2.toInt = (block.first + block.count : ℤ) - 1 ∨
          ports.2.toInt = (block.first + block.count : ℤ))
  | _ => True

/-- A step of the processes on a kernel that keeps its promises. -/
def Promised (h : Host) (e : CallEvent) (h' : Host) : Prop := Step h e h' ∧ h.Kernel e

end Host

/-! ## What a host should keep -/

/-- The range that `liblatte_create_instance` registers without ports of the child. -/
def AuthID.Portless (a : AuthID) : Prop := a.portLo = 1 ∧ a.portHi = 65535

/-- The range is registered for the block: it ends with the last port or, from
`liblatte_create_principal_new`, with the one after it. -/
def AuthID.For (a : AuthID) (b : PortBlock) : Prop :=
  a.portLo.toNat = b.first ∧
    (a.portHi.toNat = b.first + b.count - 1 ∨ a.portHi.toNat = b.first + b.count)

/-- The range of principal `id` has no ports, or is a block reserved for it. -/
def Backed (held : List (Int32 × PortBlock)) (id : UInt64) (a : AuthID) : Prop :=
  a.Portless ∨ ∃ b, (childPid id, b) ∈ held ∧ a.For b

namespace Deletion

/-- The call gave a range back. -/
def Released (c : Deletion) : Prop := c.given ≠ none

/-- The call deletes `id`, gave a range back, and has no answer yet. -/
def Releasing (c : Deletion) (id : UInt64) : Prop :=
  c.uuid = id ∧ c.Released ∧ c.accepted = none

end Deletion

namespace Host

/-- Ports are given back only when the daemon has accepted the deletion, and the ports of every
principal in the table are reserved for it. -/
structure Sound (h : Host) : Prop where
  accepted : ∀ c ∈ h.deletions, c.Released → c.accepted = some true
  backed : ∀ e ∈ h.daemon.principals, Backed h.held e.1 e.2.auth

/-- The same, except for deletions that are not answered yet and the principals they delete. -/
structure SoundOnReturn (h : Host) : Prop where
  accepted : ∀ c ∈ h.deletions, c.Released → c.accepted = none ∨ c.accepted = some true
  backed : ∀ e ∈ h.daemon.principals,
    Backed h.held e.1 e.2.auth ∨ ∃ c ∈ h.deletions, c.Releasing e.1

/-- The range that was given back has the first port of the principal. -/
def Takes (given : Option (Int32 × Int32)) (a : AuthID) : Prop :=
  ∃ range, given = some range ∧ range.1.toInt ≤ a.portLo.toNat ∧ a.portLo.toNat ≤ range.2.toInt

/-- The condition on a step.  When a deletion gives a range back, the range belongs neither to a
creation under way nor to a principal of another id.  When it then asks, the request reaches the
daemon, an entry of the id is there, the newest one was created by the same pid or the caller is
root, and the metadata service acknowledges the deletion. -/
def Meets (h : Host) : CallEvent → Prop
  | .deleteBegins caller msgId uuid childPorts =>
      (∀ c ∈ h.creations, ¬ Takes (Deletion.begun caller msgId uuid childPorts).given c.sent.auth) ∧
        ∀ e ∈ h.daemon.principals,
          Takes (Deletion.begun caller msgId uuid childPorts).given e.2.auth → e.1 = uuid
  | .deleteEnds c link => c.Released → ∃ env, link = some env ∧
      Manager.Erases env c.command h.daemon ∧
        (env.replies h.daemon.exchanges.length).Acknowledged
  | _ => True

end Host

/-- The step gives a range back. -/
def CallEvent.Releases : CallEvent → Prop
  | deleteBegins caller msgId uuid childPorts =>
      (Deletion.begun caller msgId uuid childPorts).Released
  | _ => False

/-! ## What the daemon answers -/

@[simp] lemma isSuccess_status (success : Bool) (msg : String) :
    isSuccess (.ok (some (makeStatusResponse success msg))) = success := by
  cases success <;> rfl

/-- A failure that is not logged is no success either. -/
lemma isSuccess_printing (platform : Platform) (texts : List String)
    (x : Except Exc (Option Response)) (hx : isSuccess x = false) :
    isSuccess (platform.printing texts x) = false := by
  rcases printing_cases platform texts with h | h
  · rwa [h]
  · rw [h]
    rfl

section Answers

variable (env : Env) (c : Deletion) (d : Daemon)

lemma Deletion.erases_iff :
    Manager.Erases env c.command d ↔ ∃ l, Manager.latest env d c.uuid = some l ∧
      (l.speaker = c.command.pid ∨ c.command.uid = 0) := by
  constructor
  · rintro ⟨-, p, l, hx, hl, hpriv⟩
    cases hx
    exact ⟨l, hl, hpriv⟩
  · rintro ⟨l, hl, hpriv⟩
    exact ⟨rfl, { id := c.uuid }, l, rfl, hl, hpriv⟩

lemma Deletion.answer_eq :
    Manager.answer env c.command d
      = (env.platform.printing (errmsgs (Manager.deletePrincipal env c.command d).1)
            (orStatus (Manager.deletePrincipal env c.command d).1),
          (Manager.deletePrincipal env c.command d).2) :=
  Manager.answer_handler env (h := Manager.deletePrincipal env) rfl d

/-- A deletion that erases is accepted when the service acknowledges it. -/
lemma Deletion.answer_erases {c : Deletion} {d : Daemon}
    (h : Manager.Erases env c.command d) :
    (isSuccess (Manager.answer env c.command d).1 = true ↔
        (env.replies d.exchanges.length).Acknowledged) ∧
      (Manager.answer env c.command d).2.principals
        = d.principals.filter fun e => e.1 ≠ c.uuid := by
  obtain ⟨l, hl, hpriv⟩ := (c.erases_iff env d).mp h
  have hx : extractPrincipal c.command = some { id := c.uuid } := rfl
  rw [c.answer_eq, Manager.deletePrincipal_allowed env hx hl hpriv, errmsgs_map,
    ← jsonOutcome_ok_iff "deleting instance"]
  refine ⟨?_, rfl⟩
  cases hj : jsonOutcome "deleting instance" (env.replies d.exchanges.length) with
  | ok v => exact iff_of_true rfl ⟨v, rfl⟩
  | error e =>
      obtain ⟨text, hstatus⟩ := orStatus_of_caught (tame_jsonOutcome _ _ e hj)
      have hfail : isSuccess (orStatus (.error e)) = false := by rw [hstatus, isSuccess_status]
      refine iff_of_false ?_ nofun
      rw [Bool.not_eq_true]
      exact isSuccess_printing _ _ _ hfail

/-- Any other deletion is refused and changes nothing. -/
lemma Deletion.answer_keeps {c : Deletion} {d : Daemon}
    (h : ¬ Manager.Erases env c.command d) :
    isSuccess (Manager.answer env c.command d).1 = false ∧
      (Manager.answer env c.command d).2 = d := by
  have hx : extractPrincipal c.command = some { id := c.uuid } := rfl
  rw [c.answer_eq]
  cases hl : Manager.latest env d c.uuid with
  | none =>
      rw [Manager.deletePrincipal_absent env hx hl]
      exact ⟨rfl, rfl⟩
  | some l =>
      have hpriv : ¬ (l.speaker = c.command.pid ∨ c.command.uid = 0) :=
        fun hpriv => h ((c.erases_iff env d).mpr ⟨l, hl, hpriv⟩)
      rw [Manager.deletePrincipal_refused env hx hl hpriv]
      exact ⟨rfl, rfl⟩

end Answers

/-- **When a deletion is accepted.** -/
lemma Deletion.accepted_iff (c : Deletion) (link : Option Env) (d : Daemon) :
    (deliver link c.command d).1 = true ↔ ∃ env, link = some env ∧
      Manager.Erases env c.command d ∧ (env.replies d.exchanges.length).Acknowledged := by
  cases link with
  | none => simp [deliver]
  | some env =>
      by_cases herases : Manager.Erases env c.command d
      · simp [deliver, herases, Deletion.answer_erases env herases]
      · simp [deliver, herases, Deletion.answer_keeps env herases]

/-- An accepted deletion erases every generation of its id. -/
lemma Deletion.principals_of_accepted {c : Deletion} {link : Option Env} {d : Daemon}
    (h : (deliver link c.command d).1 = true) :
    (deliver link c.command d).2.principals = d.principals.filter fun e => e.1 ≠ c.uuid := by
  obtain ⟨env, rfl, herases, -⟩ := (c.accepted_iff link d).mp h
  exact (Deletion.answer_erases env herases).2

/-- A deletion adds no entry. -/
lemma Deletion.mem_of_deliver {c : Deletion} {link : Option Env} {d : Daemon}
    {e : UInt64 × Principal} (h : e ∈ (deliver link c.command d).2.principals) :
    e ∈ d.principals := by
  cases link with
  | none => exact h
  | some env =>
      by_cases herases : Manager.Erases env c.command d
      · rw [deliver, (Deletion.answer_erases env herases).2] at h
        exact List.mem_of_mem_filter h
      · rwa [deliver, (Deletion.answer_keeps env herases).2] at h

/-- A creation adds at most the entry it asks for. -/
lemma Creation.mem_of_deliver {c : Creation} {link : Option Env} {d : Daemon}
    {e : UInt64 × Principal} (h : e ∈ (deliver link c.command d).2.principals) :
    e ∈ d.principals ∨ e.1 = c.sent.id ∧ e.2.auth = c.sent.auth := by
  cases link with
  | none => exact Or.inl h
  | some env =>
      rcases Manager.answer_table env c.command d with hsame | ⟨p, -, hx, hnew⟩ | ⟨p, l, ht, -⟩
      · rw [deliver, hsame] at h
        exact Or.inl h
      · cases hx
        rw [deliver, hnew] at h
        rcases List.mem_cons.mp h with rfl | hold
        · exact Or.inr ⟨rfl, rfl⟩
        · exact Or.inl hold
      · cases ht

/-! ## What a creation sends -/

lemma AttGuardClient.createInstance_id {myip image ip storage : String} {pid : UInt64}
    {rawConfigs : List String} {lport rport : UInt32} {p : Principal}
    (h : createInstance myip pid image rawConfigs ip lport rport storage = some p) :
    p.id = pid := by
  obtain ⟨confmap, -, rfl⟩ := Option.map_eq_some_iff.mp h
  rfl

namespace CreateCall

variable {myip : String} {call : CreateCall} {grant : Option PortBlock} {p : Principal}
  {ret : ℤ → ℤ}

/-- Without a block, only a call that asks for none sends a principal. -/
lemma run_portless (h : call.run myip (-1) = .sent p ret) : p.auth.Portless := by
  have hneg : (-1 : Int32) < 0 := by decide
  cases call with
  | createPrincipalNew uuid image config nport newIp =>
      rw [run, liblatteCreatePrincipalNew, if_pos hneg] at h
      cases h
  | createInstance pid image ip nport store args =>
      rw [run, liblatteCreateInstance] at h
      simp only [hneg, if_true] at h
      split_ifs at h
      exact AttGuardClient.createInstance_ports (CallOutcome.sending_eq_sent h)

lemma run_id {v : Int32} (h : call.run myip v = .sent p ret) : p.id = call.uuid := by
  cases call with
  | createPrincipalNew uuid image config nport newIp =>
      rw [run, liblatteCreatePrincipalNew] at h
      split_ifs at h
      have hsent := CallOutcome.sending_eq_sent h
      unfold Libport.createPrincipalNew at hsent
      simp only at hsent
      split_ifs at hsent <;> exact AttGuardClient.createInstance_id hsent
  | createInstance pid image ip nport store args =>
      rw [run, liblatteCreateInstance] at h
      simp only at h
      split_ifs at h <;> exact AttGuardClient.createInstance_id (CallOutcome.sending_eq_sent h)

/-- With a block, the principal is registered for it. -/
lemma run_for {block : PortBlock} (hn : call.nport.toInt = (block.count : ℤ))
    (h : call.run myip (Int32.ofNat block.first) = .sent p ret) : p.auth.For block := by
  by_cases hcall : call.IsCreateInstance
  · obtain ⟨hlo, hhi⟩ := run_createInstance hcall hn h
    exact ⟨hlo, Or.inl hhi⟩
  · obtain ⟨q, ret', hrun, hlo, hhi⟩ := run_createPrincipalNew myip hcall hn
    cases hrun.symm.trans h
    exact ⟨hlo, Or.inr hhi⟩

end CreateCall

/-! ## Giving a block back -/

lemma PortBlock.Disjoint.symm {a b : PortBlock} (h : a.Disjoint b) : b.Disjoint a :=
  fun port hport => h port hport.symm

instance : Std.Symm fun x y : Int32 × PortBlock => x.2.Disjoint y.2 := ⟨fun _ _ h => h.symm⟩

section Blocks

variable {range : Int32 × Int32}

/-- A range within a block touches no block that is disjoint from it. -/
lemma not_touches {x b : PortBlock} (hdisjoint : x.Disjoint b)
    (hlo : range.1.toInt = (b.first : ℤ)) (hhi : range.2.toInt < (b.first + b.count : ℤ)) :
    ¬ x.Touches range := by
  rintro ⟨hbelow, habove⟩
  have hxpos := x.pos
  have hbpos := b.pos
  -- the larger of the two first ports belongs to both blocks
  apply hdisjoint (max x.first b.first)
  simp only [PortBlock.Contains]
  omega

/-- What `liblatte_delete_principal` gives back of a block that is reported. -/
lemma given_range {caller : Caller} {msgId : Int64} {uuid : UInt64}
    {childPorts : Option (Int32 × Int32)}
    (h : (Deletion.begun caller msgId uuid childPorts).given = some range) :
    ∃ ports, childPorts = some ports ∧ range = (ports.1, ports.2 - 1) ∧ 1 < ports.1 ∧
      ports.2 < 65535 := by
  simp only [Deletion.begun, liblatteDeletePrincipal] at h
  split_ifs at h with hports
  cases childPorts with
  | none => exact absurd hports.1 (by decide)
  | some ports => exact ⟨ports, rfl, (Option.some.inj h).symm, hports⟩

end Blocks

lemma Backed.mono {held held' : List (Int32 × PortBlock)} {id : UInt64} {a : AuthID}
    (h : Backed held id a) (hsub : held ⊆ held') : Backed held' id a := by
  rcases h with hnone | ⟨b, hb, hfor⟩
  · exact Or.inl hnone
  · exact Or.inr ⟨b, hsub hb, hfor⟩

lemma toInt_sub_one {x : Int32} (hlo : 0 ≤ x.toInt) (hhi : x.toInt ≤ 65536) :
    (x - 1).toInt = x.toInt - 1 := by
  rw [Int32.toInt_sub, Int32.toInt_one]
  exact Int.bmod_eq_of_le (by omega) (by omega)

namespace Host

/-- The blocks reserved are disjoint, and the creations under way have theirs. -/
structure Inv (h : Host) : Prop extends h.SoundOnReturn where
  disjoint : h.held.Pairwise fun x y => x.2.Disjoint y.2
  waiting : ∀ c ∈ h.creations, Backed h.held c.sent.id c.sent.auth

/-- A principal keeps its block when another range is given back. -/
lemma Inv.keeps_backed {h : Host} (hinv : h.Inv) {caller : Caller} {msgId : Int64} {uuid : UInt64}
    {childPorts : Option (Int32 × Int32)}
    (hkernel : h.Kernel (.deleteBegins caller msgId uuid childPorts)) {id : UInt64} {a : AuthID}
    (hbacked : Backed h.held id a)
    (hnot : ¬ Takes (Deletion.begun caller msgId uuid childPorts).given a) :
    Backed (stillHeld h.held (Deletion.begun caller msgId uuid childPorts).given) id a := by
  cases hgiven : (Deletion.begun caller msgId uuid childPorts).given with
  | none => exact hbacked
  | some range =>
      obtain ⟨ports, rfl, rfl, -⟩ := given_range hgiven
      obtain ⟨block, hblock, hlo, hhi⟩ := hkernel ports rfl
      rcases hbacked with hnone | ⟨b, hb, hfor⟩
      · exact Or.inl hnone
      · have hle := block.le
        have hpos := block.pos
        have hlast : (ports.2 - 1).toInt = ports.2.toInt - 1 := by
          apply toInt_sub_one <;> omega
        refine Or.inr ⟨b, List.mem_filter.mpr ⟨hb, ?_⟩, hfor⟩
        rw [decide_eq_true_eq]
        intro htouch
        by_cases hsame : (childPid id, b) = (childPid uuid, block)
        · obtain ⟨-, rfl⟩ := Prod.mk.inj hsame
          refine hnot ⟨_, hgiven, ?_, ?_⟩
          · rw [hfor.1, hlo]
          · rw [hfor.1]
            exact htouch.2
        · have hdisjoint : b.Disjoint block := hinv.disjoint.forall hb hblock hsame
          have hwithin : (ports.2 - 1).toInt < (block.first + block.count : ℤ) := by omega
          have hnone : ¬ b.Touches (ports.1, ports.2 - 1) := not_touches hdisjoint hlo hwithin
          exact hnone htouch

variable {h h' : Host}

/-- A call that begins with a block, or without, adds a creation that has its ports. -/
lemma Inv.createBegins (hinv : h.Inv) {caller : Caller} {msgId : Int64} {call : CreateCall}
    {grant : Option PortBlock} (hkernel : h.Kernel (.createBegins caller msgId call grant)) :
    Inv { h with
      held := grant.toList.map (fun block => (childPid call.uuid, block)) ++ h.held
      creations := (call.run caller.myip (allocChildPorts grant)).creation caller msgId
        ++ h.creations } where
  accepted := hinv.accepted
  backed := by
    intro e he
    refine (hinv.backed e he).imp_left fun hb => ?_
    exact hb.mono (List.subset_append_right _ _)
  disjoint := by
    cases grant with
    | none => exact hinv.disjoint
    | some block =>
        refine List.pairwise_cons.mpr ⟨?_, hinv.disjoint⟩
        intro x hx
        exact ((hkernel block rfl).2 x hx).symm
  waiting := by
    intro c hc
    rcases List.mem_append.mp hc with hnew | hold
    · cases hrun : call.run caller.myip (allocChildPorts grant) with
      | refused code => simp [hrun, CallOutcome.creation] at hnew
      | aborted => simp [hrun, CallOutcome.creation] at hnew
      | sent p ret =>
          rw [hrun] at hnew
          rw [List.mem_singleton.mp hnew, CreateCall.run_id hrun]
          cases grant with
          | none => exact Or.inl (CreateCall.run_portless hrun)
          | some block =>
              have hfor := CreateCall.run_for (hkernel block rfl).1 hrun
              exact Or.inr ⟨block, List.mem_cons_self, hfor⟩
    · exact (hinv.waiting c hold).mono (List.subset_append_right _ _)

/-- The entry that a creation adds has the ports of the creation. -/
lemma Inv.createEnds (hinv : h.Inv) {c : Creation} {link : Option Env}
    {before after : List Creation} (hc : h.creations = before ++ c :: after) :
    Inv { h with
      daemon := (deliver link c.command h.daemon).2
      creations := before ++ after } where
  accepted := hinv.accepted
  backed := by
    intro e he
    rcases c.mem_of_deliver he with hold | ⟨hid, hauth⟩
    · exact hinv.backed e hold
    · have hwaiting := hinv.waiting c (by simp [hc])
      exact Or.inl (by rwa [hid, hauth])
  disjoint := hinv.disjoint
  waiting := by
    intro x hx
    refine hinv.waiting x ?_
    rw [hc]
    rcases List.mem_append.mp hx with hx | hx
    · exact List.mem_append_left _ hx
    · exact List.mem_append_right _ (List.mem_cons_of_mem _ hx)

/-- The principals that lose their ports are the ones to be deleted. -/
lemma Inv.deleteBegins (hinv : h.Inv) {caller : Caller} {msgId : Int64} {uuid : UInt64}
    {childPorts : Option (Int32 × Int32)}
    (hkernel : h.Kernel (.deleteBegins caller msgId uuid childPorts))
    (hmeets : h.Meets (.deleteBegins caller msgId uuid childPorts)) :
    Inv { h with
      held := stillHeld h.held (Deletion.begun caller msgId uuid childPorts).given
      deletions := .begun caller msgId uuid childPorts :: h.deletions } where
  accepted := by
    refine List.forall_mem_cons.mpr ⟨fun _ => Or.inl rfl, hinv.accepted⟩
  backed := by
    intro e he
    rcases hinv.backed e he with hb | ⟨c, hc, hreleasing⟩
    · by_cases htakes : Takes (Deletion.begun caller msgId uuid childPorts).given e.2.auth
      · refine Or.inr ⟨_, List.mem_cons_self, (hmeets.2 e he htakes).symm, ?_, rfl⟩
        obtain ⟨range, hgiven, -⟩ := htakes
        rw [Deletion.Released, hgiven]
        exact Option.some_ne_none range
      · exact Or.inl (hinv.keeps_backed hkernel hb htakes)
    · exact Or.inr ⟨c, List.mem_cons_of_mem _ hc, hreleasing⟩
  disjoint := by
    cases (Deletion.begun caller msgId uuid childPorts).given with
    | none => exact hinv.disjoint
    | some range => exact hinv.disjoint.filter _
  waiting := fun c hc => hinv.keeps_backed hkernel (hinv.waiting c hc) (hmeets.1 c hc)

/-- The principals without ports are gone when the deletion is over. -/
lemma Inv.deleteEnds (hinv : h.Inv) {c : Deletion} {link : Option Env}
    (hmeets : h.Meets (.deleteEnds c link)) {before after : List Deletion}
    (hc : h.deletions = before ++ c :: after) :
    Inv { h with
      daemon := (deliver link c.command h.daemon).2
      deletions := before
        ++ { c with accepted := some (deliver link c.command h.daemon).1 } :: after } where
  accepted := by
    have haccepted := hinv.accepted
    rw [hc, List.forall_mem_append, List.forall_mem_cons] at haccepted
    rw [List.forall_mem_append, List.forall_mem_cons]
    refine ⟨haccepted.1, fun hreleased => Or.inr ?_, haccepted.2.2⟩
    rw [(c.accepted_iff link h.daemon).mpr (hmeets hreleased)]
  backed := by
    intro e he
    rcases hinv.backed e (c.mem_of_deliver he) with hb | ⟨x, hx, hreleasing⟩
    · exact Or.inl hb
    · refine Or.inr ⟨x, ?_, hreleasing⟩
      rw [hc] at hx
      rcases List.mem_append.mp hx with hx | hx
      · exact List.mem_append_left _ hx
      · rcases List.mem_cons.mp hx with rfl | hx
        · -- the deletion was accepted and erased the entry
          obtain ⟨hid, hreleased, -⟩ := hreleasing
          have hok := (x.accepted_iff link h.daemon).mpr (hmeets hreleased)
          rw [Deletion.principals_of_accepted hok, hid] at he
          simp at he
        · exact List.mem_append_right _ (List.mem_cons_of_mem _ hx)
  disjoint := hinv.disjoint
  waiting := hinv.waiting

/-- **What a step that meets the condition keeps.** -/
lemma Inv.step {e : CallEvent} (hinv : h.Inv) (hstep : h.Promised e h') (hmeets : h.Meets e) :
    h'.Inv := by
  obtain ⟨hstep, hkernel⟩ := hstep
  cases hstep with
  | createBegins => exact hinv.createBegins hkernel
  | createEnds c link hc => exact hinv.createEnds hc
  | deleteBegins => exact hinv.deleteBegins hkernel hmeets
  | deleteEnds c link hc => exact hinv.deleteEnds hmeets hc

lemma Inv.initial : Inv {} where
  accepted := nofun
  backed := nofun
  disjoint := List.Pairwise.nil
  waiting := nofun

/-! ## Along a run -/

/-- A promised step that meets the condition. -/
def Meeting (h : Host) (e : CallEvent) (h' : Host) : Prop := h.Promised e h' ∧ h.Meets e

variable {labels : List CallEvent}

lemma inv_of_meeting (hrun : Run Meeting {} labels h) : h.Inv :=
  hrun.invariant (I := fun _ => Inv) Inv.initial fun _ _ _ _ hinv hstep =>
    hinv.step hstep.1 hstep.2

/-- A run that gives nothing back is sound. -/
lemma sound_of_quiet (hrun : Run Promised {} labels h) (hquiet : ∀ e ∈ labels, ¬ e.Releases) :
    h.Sound := by
  have hkept : h.Inv ∧ ∀ c ∈ h.deletions, ¬ c.Released := by
    refine hrun.frame (Q := fun h => h.Inv ∧ ∀ c ∈ h.deletions, ¬ c.Released) hquiet
      ⟨Inv.initial, nofun⟩ ?_
    rintro e t u hnot ⟨hinv, hnone⟩ ⟨hstep, hkernel⟩
    cases hstep with
    | createBegins => exact ⟨hinv.createBegins hkernel, hnone⟩
    | createEnds c link hc => exact ⟨hinv.createEnds hc, hnone⟩
    | deleteBegins caller msgId uuid childPorts =>
        have hmeets : t.Meets (.deleteBegins caller msgId uuid childPorts) := by
          refine ⟨fun c _ htakes => hnot ?_, fun e _ htakes => absurd ?_ hnot⟩
          all_goals
            obtain ⟨range, hgiven, -⟩ := htakes
            rw [CallEvent.Releases, Deletion.Released, hgiven]
            exact Option.some_ne_none range
        exact ⟨hinv.deleteBegins hkernel hmeets, List.forall_mem_cons.mpr ⟨hnot, hnone⟩⟩
    | @deleteEnds c link before after hc hopen =>
        rw [hc, List.forall_mem_append, List.forall_mem_cons] at hnone
        refine ⟨hinv.deleteEnds (fun hreleased => absurd hreleased hnone.2.1) hc, ?_⟩
        rw [List.forall_mem_append, List.forall_mem_cons]
        exact hnone
  obtain ⟨hinv, hnone⟩ := hkept
  refine ⟨fun c hc hreleased => absurd hreleased (hnone c hc), fun e he => ?_⟩
  rcases hinv.backed e he with hb | ⟨c, hc, hreleasing⟩
  · exact hb
  · exact absurd hreleasing.2.1 (hnone c hc)

/-- A range is given back before the daemon is asked. -/
lemma not_sound_of_releases {e : CallEvent} (hstep : h.Promised e h') (he : e.Releases) :
    ¬ h'.Sound := by
  intro hsound
  cases hstep.1 with
  | createBegins => exact he
  | createEnds => exact he
  | deleteBegins =>
      have haccepted := hsound.accepted _ List.mem_cons_self he
      cases haccepted
  | deleteEnds => exact he

/-- **Who gives a principal's ports back.**  A run keeps its host sound at every moment exactly
when no deletion gives a range back, since that happens before the daemon is asked.  A run whose
steps meet the condition is sound on return, and the condition on a deletion that gave a range back
is exactly that the daemon accepts it. -/
theorem released_with_principal (hrun : Run Promised {} labels h) :
    (Run Meeting {} labels h → h.SoundOnReturn) ∧
      (∀ t : Host, ∀ c link, c.Released →
        ((deliver link c.command t.daemon).1 = true ↔ t.Meets (.deleteEnds c link))) ∧
      ((∀ before t, before <+: labels → Run Promised {} before t → t.Sound) ↔
        ∀ e ∈ labels, ¬ e.Releases) := by
  refine ⟨fun hmeeting => (inv_of_meeting hmeeting).toSoundOnReturn, ?_, ?_, ?_⟩
  · intro t c link hreleased
    rw [c.accepted_iff link t.daemon, Meets]
    exact ⟨fun hok _ => hok, fun hmeets => hmeets hreleased⟩
  · intro hsound e he hreleases
    obtain ⟨before, t, u, hpre, ht, hstep⟩ := hrun.exists_step he
    exact not_sound_of_releases hstep hreleases (hsound _ _ hpre (ht.snoc hstep))
  · intro hquiet before t hpre ht
    exact sound_of_quiet ht fun e he => hquiet e (hpre.subset he)

/-! ## One principal, created and deleted -/

/-- The process that creates principal `7`. -/
def owner : Caller := ⟨"10.0.0.1:4144", "10.0.0.1", { pid := 100, uid := 1000, gid := 1000 }⟩

/-- A process of another user. -/
def stranger : Caller := ⟨"10.0.0.1:5000", "10.0.0.1", { pid := 200, uid := 2000, gid := 2000 }⟩

/-- The request of `liblatte_create_principal_new` with ten ports from `30000` on. -/
def sevenCreation : Creation :=
  ⟨owner, 1, {
    id := 7
    auth := { ip := "10.0.0.1", portLo := 30000, portHi := 30010 }
    code := { image := "image", config := .single legacyConfigKey "*" } }⟩

/-- The call of `liblatte_delete_principal` by a process. -/
def sevenDeletion (caller : Caller) : Deletion :=
  .begun caller 2 7 (some (30000, 30010))

/-- The steps of both calls, one after the other. -/
def sevenEvents (caller : Caller) (link : Option Env) : List CallEvent :=
  [.createBegins owner 1 (.createPrincipalNew 7 (some "image") none 10 none) (some lowerBlock),
    .createEnds sevenCreation (some Manager.acceptingService),
    .deleteBegins caller 2 7 (some (30000, 30010)),
    .deleteEnds (sevenDeletion caller) link]

/-- The daemon with principal `7`. -/
def sevenDaemon : Daemon := (deliver (some Manager.acceptingService) sevenCreation.command {}).2

/-- The host after both calls. -/
def sevenHost (caller : Caller) (link : Option Env) : Host :=
  let answer := deliver link (sevenDeletion caller).command sevenDaemon
  { daemon := answer.2, deletions := [{ sevenDeletion caller with accepted := some answer.1 }] }

/-- The host with the ports of principal `7`, before the daemon knows it. -/
def sevenAsked : Host := { held := [(childPid 7, lowerBlock)], creations := [sevenCreation] }

/-- The host with principal `7` and its ports. -/
def sevenCreated : Host := { held := [(childPid 7, lowerBlock)], daemon := sevenDaemon }

/-- The host after the system calls of the deletion. -/
def sevenReleased (caller : Caller) : Host :=
  { daemon := sevenDaemon, deletions := [sevenDeletion caller] }

lemma sevenCreated_steps : Run Meeting {} [.createBegins owner 1
      (.createPrincipalNew 7 (some "image") none 10 none) (some lowerBlock),
    .createEnds sevenCreation (some Manager.acceptingService)] sevenCreated := by
  have hbegins : Run Meeting {} [.createBegins owner 1
      (.createPrincipalNew 7 (some "image") none 10 none) (some lowerBlock)] sevenAsked := by
    refine Run.nil.snoc ⟨⟨.createBegins .., ?_⟩, trivial⟩
    intro block hblock
    cases hblock
    exact ⟨rfl, nofun⟩
  have hc : sevenAsked.creations = [] ++ sevenCreation :: [] := rfl
  have hends := Step.createEnds sevenCreation (some Manager.acceptingService) hc
  exact hbegins.snoc ⟨⟨hends, trivial⟩, trivial⟩

lemma sevenReleased_step (caller : Caller) :
    sevenCreated.Promised (.deleteBegins caller 2 7 (some (30000, 30010)))
      (sevenReleased caller) := by
  refine ⟨.deleteBegins caller 2 7 (some (30000, 30010)), ?_⟩
  intro ports hports
  cases hports
  exact ⟨lowerBlock, List.mem_cons_self, rfl, Or.inr rfl⟩

lemma sevenHost_step (caller : Caller) (link : Option Env) :
    (sevenReleased caller).Promised (.deleteEnds (sevenDeletion caller) link)
      (sevenHost caller link) := by
  have hc : (sevenReleased caller).deletions = [] ++ sevenDeletion caller :: [] := rfl
  have hends := Step.deleteEnds (sevenDeletion caller) link hc rfl
  exact ⟨hends, trivial⟩

lemma sevenEvents_promised (caller : Caller) (link : Option Env) :
    Run Promised {} (sevenEvents caller link) (sevenHost caller link) := by
  have hcreated := sevenCreated_steps.mono fun _ _ _ hstep => hstep.1
  exact (hcreated.snoc (sevenReleased_step caller)).snoc (sevenHost_step caller link)

lemma seven_only : ∀ e ∈ sevenDaemon.principals, e.1 = 7 := by
  decide

/-- The owner's deletion is accepted. -/
lemma sevenEvents_meeting :
    Run Meeting {} (sevenEvents owner (some Manager.acceptingService))
      (sevenHost owner (some Manager.acceptingService)) := by
  have hbegins : sevenCreated.Meets (.deleteBegins owner 2 7 (some (30000, 30010))) :=
    ⟨nofun, fun e he _ => seven_only e he⟩
  have hends : (sevenReleased owner).Meets
      (.deleteEnds (sevenDeletion owner) (some Manager.acceptingService)) := by
    intro _
    refine ⟨_, rfl, ((sevenDeletion owner).erases_iff _ _).mpr ⟨_, rfl, Or.inl rfl⟩, ?_⟩
    exact ⟨rfl, _, rfl⟩
  exact (sevenCreated_steps.snoc ⟨sevenReleased_step owner, hbegins⟩).snoc
    ⟨sevenHost_step owner (some Manager.acceptingService), hends⟩

/-- The owner's deletion is accepted: the host is sound on return, and is not while the daemon is
being asked. -/
theorem owner_released_with_principal :
    (sevenHost owner (some Manager.acceptingService)).SoundOnReturn ∧
      ¬ (∀ before t, before <+: sevenEvents owner (some Manager.acceptingService) →
        Run Promised {} before t → t.Sound) := by
  have hall := released_with_principal
    (sevenEvents_promised owner (some Manager.acceptingService))
  refine ⟨hall.1 sevenEvents_meeting, fun hsound => ?_⟩
  exact hall.2.2.mp hsound (.deleteBegins owner 2 7 (some (30000, 30010))) (by simp [sevenEvents])
    (Option.some_ne_none _)

/-- The run of both calls ends with principal `7` in the table and its ports free. -/
def LeavesDangling (caller : Caller) (link : Option Env) : Prop :=
  Run Promised {} (sevenEvents caller link) (sevenHost caller link) ∧
    ¬ (sevenHost caller link).SoundOnReturn ∧
    ∃ e ∈ (sevenHost caller link).daemon.principals,
      ¬ Backed (sevenHost caller link).held e.1 e.2.auth

/-- A deletion without success or effect is enough. -/
lemma leavesDangling_of_deliver {caller : Caller} {link : Option Env}
    (h : deliver link (sevenDeletion caller).command sevenDaemon = (false, sevenDaemon)) :
    LeavesDangling caller link := by
  have hhost : sevenHost caller link = {
      daemon := sevenDaemon
      deletions := [{ sevenDeletion caller with accepted := some false }] } := by
    simp only [sevenHost, h]
  refine ⟨sevenEvents_promised caller link, ?_, ?_⟩
  · intro hsound
    rw [hhost] at hsound
    have haccepted := hsound.accepted _ List.mem_cons_self (Option.some_ne_none _)
    simp at haccepted
  · rw [hhost]
    refine ⟨_, List.mem_cons_self, ?_⟩
    rintro (hnone | ⟨b, hb, -⟩)
    · exact absurd hnone.1 (by decide)
    · cases hb

/-- **The ports of a principal in the table are free**, after its owner's request to delete it was
lost, and after the daemon refused the request of another user. -/
theorem refused_deletion_releases :
    LeavesDangling owner none ∧ LeavesDangling stranger (some Manager.acceptingService) :=
  ⟨leavesDangling_of_deliver rfl, leavesDangling_of_deliver rfl⟩

end Host

end Libport
