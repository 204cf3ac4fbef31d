import Libport.Client.Call
import Libport.Server.Names

/-!
# Who a process is (`client/client.cc`, `common/utils.cc`, `include/port-syscall.h`)

`liblatte_init` gives the library the name that all commands of the process are sent under.  A
process that has no name of its own is called after the address of its first interface and the
range of its local ports.

* `getMyip`, `SyscallProxyImpl.getLocalPorts` and `redial`: what a process asks its machine.
* `liblatteInit`: the client that the library has from then on.
* `liblatteInit_unnamed`: the client of a process without a name.
* `unnamed_speaker_iff`: two such processes share their name exactly when they share the address
  and the range; neither has the name of the provider or of the attester.
-/

namespace Libport

/-! ## The machine -/

/-- The address of an interface. -/
inductive SockAddr
  | inet (a b c d : UInt8)
  /-- of another family -/
  | other
deriving DecidableEq

/-- An entry of `getifaddrs`; an interface may have no address. -/
structure Interface where
  name : String
  addr : Option SockAddr

/-- What a process finds on its machine. -/
structure Machine where
  /-- the interfaces, or the error of `getifaddrs` -/
  interfaces : Except String (List Interface)
  /-- the range of its local ports, in a kernel that keeps one for each process -/
  localPorts : Option (Int32 × Int32)
  /-- the range in `ip_local_port_range` -/
  systemPorts : Int32 × Int32
  /-- whether a connection to the socket at a path is accepted -/
  listens : String → Bool

/-- How an initialisation ends that does not return. -/
inductive InitExit
  | nullPointer
  | runtimeError (what : String)
deriving DecidableEq

/-- `inet_ntop` for `AF_INET`. -/
def inetNtop (a b c d : UInt8) : String :=
  toString a ++ "." ++ toString b ++ "." ++ toString c ++ "." ++ toString d

/-- The loop of `get_myip`; the family of an address that is not there is read all the same. -/
def firstInet : List Interface → Except InitExit String
  | [] => .ok ""
  | cur :: rest =>
      if cur.name = "lo" then firstInet rest
      else
        match cur.addr with
        | none => .error .nullPointer
        | some .other => firstInet rest
        | some (.inet a b c d) => .ok (inetNtop a b c d)

/-- `utils::get_myip`. -/
def getMyip (machine : Machine) : Except InitExit String :=
  match machine.interfaces with
  | .error what => .error (.runtimeError what)
  | .ok interfaces => firstInet interfaces

namespace SyscallProxyImpl

/-- The constructor sets the range to what lies inside the range of the system. -/
def narrow (ports systemPorts : Int32 × Int32) : Int32 × Int32 :=
  let (lo, hi) := ports
  let (syslo, syshi) := systemPorts
  (if lo < syslo then syslo else lo, if hi > syshi then syshi else hi)

/-- `get_local_ports`, behind the constructor. -/
def getLocalPorts (machine : Machine) : Option (Int32 × Int32) :=
  machine.localPorts.map fun ports => narrow ports machine.systemPorts

end SyscallProxyImpl

/-- The size of `sun_path`. -/
def sunPathSize : ℕ := 108

/-- `AttGuardClient::redial` over `utils::unix_stream_conn`, for a new client. -/
def redial (machine : Machine) (path : String) : Except InitExit Unit :=
  if path.utf8ByteSize < sunPathSize ∧ machine.listens path then .ok ()
  else .error (.runtimeError "can not connect to the attestation guard, abort")

/-! ## The library -/

/-- `DEFAULT_DAEMON_PATH`. -/
def defaultDaemonPath : String := "/var/run/attguard.sock"

/-- The local ports of a process, which has all of them where the kernel keeps no range. -/
def ownPorts (machine : Machine) : ℤ × ℤ :=
  match SyscallProxyImpl.getLocalPorts machine with
  | some (lo, hi) => (lo.toInt, hi.toInt)
  | none => (1, 65535)

/-- `auth_speaker`. -/
def authSpeaker (machine : Machine) (authIp : String) (myid : Option String) (runAsIaas : Bool) :
    String :=
  if runAsIaas then iaasIdentity
  else if myid.getD "" = "" then
    formatNetaddrRange authIp (ownPorts machine).1 (ownPorts machine).2
  else myid.getD ""

/-- `liblatte_init`: the new client, or nothing where the process has no address and `-1` is
returned. -/
def liblatteInit (machine : Machine) (myid : Option String) (runAsIaas : Bool)
    (daemonPath : Option String) : Except InitExit (Option LatteClient) := do
  let authIp ← getMyip machine
  let myip := if runAsIaas then "must_provide_ip_in_creation_as_iaas" else authIp
  if authIp = "" then pure none
  else do
    let path := daemonPath.getD ""
    redial machine (if path = "" then defaultDaemonPath else path)
    pure (some ⟨authSpeaker machine authIp myid runAsIaas, myip⟩)

/-! ## Processes without a name -/

/-- The library was initialised on the machine by a process without a name. -/
def Unnamed (machine : Machine) (c : LatteClient) : Prop :=
  ∃ myid path, myid.getD "" = "" ∧ liblatteInit machine myid false path = .ok (some c)

section
variable {machine machine' : Machine} {c c' : LatteClient}

lemma liblatteInit_unnamed (h : Unnamed machine c) : getMyip machine = .ok c.myip ∧
    c.myid = formatNetaddrRange c.myip (ownPorts machine).1 (ownPorts machine).2 := by
  obtain ⟨myid, path, hmyid, hinit⟩ := h
  cases hip : getMyip machine with
  | error e =>
      rw [liblatteInit, hip] at hinit
      cases hinit
  | ok authIp =>
      simp only [liblatteInit, hip, bind, Except.bind, pure, Except.pure, Bool.false_eq_true,
        if_false] at hinit
      by_cases hempty : authIp = ""
      · rw [if_pos hempty] at hinit
        cases hinit
      · rw [if_neg hempty] at hinit
        generalize redial machine _ = dialled at hinit
        cases dialled with
        | error e => cases hinit
        | ok u =>
            cases hinit
            refine ⟨rfl, ?_⟩
            simp only [authSpeaker, hmyid, if_true, Bool.false_eq_true, if_false]

/-- **The name tells the process.** -/
lemma unnamed_speaker_iff (h : Unnamed machine c) (h' : Unnamed machine' c') :
    c'.myid = c.myid ↔ c'.myip = c.myip ∧ ownPorts machine' = ownPorts machine := by
  rw [(liblatteInit_unnamed h).2, (liblatteInit_unnamed h').2]
  constructor
  · intro heq
    obtain ⟨hip, hlo, hhi⟩ := formatNetaddrRange_inj heq
    exact ⟨hip, Prod.ext hlo hhi⟩
  · rintro ⟨hip, hports⟩
    rw [hip, hports]

/-- The name of an unnamed process is the name of no other role. -/
lemma unnamed_speaker_ne (h : Unnamed machine c) :
    c.myid ≠ iaasIdentity ∧ c.myid ≠ attestIdentity := by
  have hiaas : iaasIdentity = formatNetaddr "152.3.145.38" 444 := by decide
  have hattest : attestIdentity = formatNetaddr "152.3.145.138" 4144 := by decide
  rw [(liblatteInit_unnamed h).2, hiaas, hattest]
  exact ⟨(formatNetaddr_ne_range _ _ _ _ _).symm, (formatNetaddr_ne_range _ _ _ _ _).symm⟩

end

end Libport
