import Libport.Lib.Text
import Libport.Server.Registry

/-!
# The ports a principal is registered with (`client/client.cc`)

Two entry points of the client library ask the kernel for a block of ports and register a new
principal with it.  The kernel's block is half open, the registered range `lo-hi` is inclusive;
`liblatte_create_instance` subtracts the one and `liblatte_create_principal_new` does not.

* `liblatteCreatePrincipalNew` and `liblatteCreateInstance`: the two entry points up to the
  command they send.
* `afterEvents`: the principals live after a sequence of creations and deletions, each with the
  block it was given.
* `Registration.Exact`: the range sent, and the range the daemon posts for it, are the block.
* **`registeredExactly_iff`**: along a run every range is exact and ranges on one address are
  disjoint, if and only if every principal was created by `liblatte_create_instance`.
* `adjacent_ranges_overlap`: two blocks, side by side, and a port that belongs to two principals.
-/

namespace Libport

/-! ## The entry points -/

/-- What a call does: it returns an error of its own, it does not return, or it sends a principal
to be created and makes its result of the status in the response. -/
inductive CallOutcome
  | refused (code : ℤ)
  | aborted
  | sent (p : Principal) (ret : ℤ → ℤ)

/-- One `key=value` argument, split at the first `=`.  Without one the code forms a string of
`npos` characters. -/
def splitConfig (s : String) : Option (String × String) :=
  (Text.find s "=").map fun split =>
    (Text.substr s 0 split, Text.substr s (split + 1) s.length)

/-- The loop that fills `confmap`. -/
def fillConfig : List String → ConfigMap → Option ConfigMap
  | [], confmap => some confmap
  | s :: rest, confmap =>
      match splitConfig s with
      | some (key, val) => fillConfig rest (confmap.set key val)
      | none => none

namespace AttGuardClient

/-- The principal that `AttGuardClient::create_instance` posts, for a client at `myip`. -/
def createInstance (myip : String) (pid : UInt64) (image : String) (rawConfigs : List String)
    (ip : String) (lport rport : UInt32) (storage : String) : Option Principal :=
  (fillConfig rawConfigs .empty).map fun confmap =>
    { id := pid
      auth := { ip := if ip = "" then myip else ip, portLo := lport, portHi := rport }
      code := { image := image, imageStore := storage, config := confmap } }

/-- The principal that `AttGuardClient::create_principal` posts. -/
def createPrincipal (myip : String) (uuid : UInt64) (image config ip : String) (lo hi : UInt32) :
    Option Principal :=
  createInstance myip uuid image [legacyConfigKey ++ "=" ++ config] ip lo hi ""

end AttGuardClient

/-- A call of one of the entry points; none is a null pointer. -/
inductive CreateCall
  | createPrincipalNew (uuid : UInt64) (image config : Option String) (nport : Int32)
      (newIp : Option String)
  | createInstance (pid : UInt64) (image : String) (ip : Option String) (nport : Int32)
      (store : Option String) (args : List String)

/-- A request for the daemon, or the end of a call that cannot form one. -/
def CallOutcome.sending (ret : ℤ → ℤ) : Option Principal → CallOutcome
  | some p => .sent p ret
  | none => .aborted

/-- `_create_principal_new`: without an address the client's own is used. -/
def createPrincipalNew (myip : String) (uuid : UInt64) (image config : String)
    (ip : Option String) (portLo portHi : UInt32) : Option Principal :=
  let ip := ip.getD ""
  if ip = "" then AttGuardClient.createPrincipal myip uuid image config myip portLo portHi
  else AttGuardClient.createPrincipal myip uuid image config ip portLo portHi

/-- `liblatte_create_principal_new`, in a library that is initialised.  `v` is what
`alloc_child_ports` returned. -/
def liblatteCreatePrincipalNew (myip : String) (v : Int32) (uuid : UInt64)
    (image config : Option String) (nport : Int32) (newIp : Option String) : CallOutcome :=
  if v < 0 then .refused (-1)
  else
    let portLo := v.toUInt32
    let portHi := portLo + nport.toUInt32
    .sending (fun status => if status = 0 then 0 else 1)
      (createPrincipalNew myip uuid (image.getD "") (config.getD "*") newIp portLo portHi)

/-- `liblatte_create_instance`.  `v` is what `alloc_child_ports` returned, if it was called. -/
def liblatteCreateInstance (myip : String) (v : Int32) (pid : UInt64) (image : String)
    (ip : Option String) (nport : Int32) (store : Option String) (args : List String) :
    CallOutcome :=
  let ip := ip.getD ""
  if nport ≤ 0 ∧ ip = "" then .refused (-1)
  else if 0 < nport then
    if v < 0 then .refused (-1)
    else
      let lport := v
      let rport := lport + nport - 1
      .sending id (AttGuardClient.createInstance myip pid image args ip lport.toUInt32
        rport.toUInt32 (store.getD ""))
  else .sending id (AttGuardClient.createInstance myip pid image args ip 1 65535 (store.getD ""))

namespace CreateCall

/-- The number of ports asked for. -/
def nport : CreateCall → Int32
  | createPrincipalNew _ _ _ nport _ => nport
  | createInstance _ _ _ nport _ _ => nport

/-- Run the entry point. -/
def run (myip : String) (v : Int32) : CreateCall → CallOutcome
  | createPrincipalNew uuid image config nport newIp =>
      liblatteCreatePrincipalNew myip v uuid image config nport newIp
  | createInstance pid image ip nport store args =>
      liblatteCreateInstance myip v pid image ip nport store args

/-- The call is one of `liblatte_create_instance`. -/
def IsCreateInstance : CreateCall → Prop
  | createInstance .. => True
  | createPrincipalNew .. => False

end CreateCall

/-! ## Blocks and ranges -/

/-- A block of ports, `[first, first + count)`. -/
structure PortBlock where
  first : ℕ
  count : ℕ
  pos : 0 < count
  le : first + count ≤ 65536

namespace PortBlock

/-- The ports of a block. -/
def Contains (b : PortBlock) (port : ℕ) : Prop := b.first ≤ port ∧ port < b.first + b.count

/-- No port is in both blocks. -/
def Disjoint (a b : PortBlock) : Prop := ∀ port, ¬ (a.Contains port ∧ b.Contains port)

end PortBlock

/-- The ports of a registered range, as the metadata service tests them: both ends belong. -/
def AuthID.Contains (a : AuthID) (port : ℕ) : Prop :=
  a.portLo.toNat ≤ port ∧ port ≤ a.portHi.toNat

instance (a : AuthID) (port : ℕ) : Decidable (a.Contains port) :=
  inferInstanceAs (Decidable (_ ∧ _))

/-- A principal that was created: what the call sent, and the block the kernel gave it. -/
structure Registration where
  sent : Principal
  block : PortBlock

namespace Registration

/-- Whatever the daemon's state, it posts the range with this text for the principal. -/
def Posts (r : Registration) (range : String) : Prop :=
  ∀ (env : Env) (cmd : Command) (d : Daemon), extractPrincipal cmd = some r.sent →
    ∃ e ∈ (Manager.createPrincipal env cmd d).2.exchanges.drop d.exchanges.length,
      e.request.path = "/postInstance" ∧ e.request.otherValues[2]? = some range

/-- The principal is registered with exactly the ports of its block. -/
structure Exact (r : Registration) : Prop where
  sent : ∀ port, r.sent.auth.Contains port ↔ r.block.Contains port
  posted : r.Posts (formatId r.sent.auth.ip r.block.first (r.block.first + r.block.count - 1))

/-- No port of one address belongs to both principals. -/
def Apart (a b : Registration) : Prop :=
  a.sent.auth.ip = b.sent.auth.ip →
    ∀ port, ¬ (a.sent.auth.Contains port ∧ b.sent.auth.Contains port)

end Registration

/-! ## Runs -/

/-- A successful creation, with the block that the kernel allocates for it, or a deletion. -/
inductive PortEvent
  | create (call : CreateCall) (block : PortBlock)
  | delete (id : UInt64)

/-- The principals live after an event. -/
def portStep (myip : String) (live : List Registration) : PortEvent → List Registration
  | .create call block =>
      match call.run myip (Int32.ofNat block.first) with
      | .sent p _ => ⟨p, block⟩ :: live
      | _ => live
  | .delete id => live.filter fun r => r.sent.id ≠ id

/-- The principals live after a sequence of events. -/
def afterEvents (myip : String) (events : List PortEvent) : List Registration :=
  events.foldl (portStep myip) []

/-- What the kernel promises: the block has the size asked for and is disjoint from the blocks of
all live principals. -/
def KernelAllocates (myip : String) (events : List PortEvent) : Prop :=
  ∀ before call block, before ++ [.create call block] <+: events →
    call.nport.toInt = (block.count : ℤ) ∧
      ∀ r ∈ afterEvents myip before, r.block.Disjoint block

/-- In every state of the run, every live principal is registered with exactly its ports and no
two share a port of one address. -/
def RegisteredExactly (myip : String) (events : List PortEvent) : Prop :=
  ∀ before, before <+: events →
    (∀ r ∈ afterEvents myip before, r.Exact) ∧
      (afterEvents myip before).Pairwise Registration.Apart

/-! ## What a call sends -/

lemma ofNat_first_nonneg (b : PortBlock) : ¬ Int32.ofNat b.first < 0 := by
  have hle := b.le
  have hpos := b.pos
  rw [Int32.lt_iff_toInt_lt, Int32.toInt_ofNat_of_lt (by omega)]
  simp

lemma toNat_first (b : PortBlock) : (Int32.ofNat b.first).toUInt32.toNat = b.first := by
  have hle := b.le
  rw [Int32.toUInt32_ofNat', UInt32.toNat_ofNat']
  omega

lemma toNat_nport {nport : Int32} {b : PortBlock} (h : nport.toInt = (b.count : ℤ)) :
    nport.toUInt32.toNat = b.count := by
  have hnonneg : 0 ≤ nport := by
    rw [Int32.le_iff_toInt_le, h]
    simp
  rw [Int32.toNat_toUInt32_of_le hnonneg, Int32.toNatClampNeg, h]
  rfl

/-- The upper end that `liblatte_create_principal_new` computes is one past the block. -/
lemma toNat_portHi {nport : Int32} {b : PortBlock} (h : nport.toInt = (b.count : ℤ)) :
    ((Int32.ofNat b.first).toUInt32 + nport.toUInt32).toNat = b.first + b.count := by
  have hle := b.le
  rw [UInt32.toNat_add, toNat_first, toNat_nport h]
  omega

/-- The upper end that `liblatte_create_instance` computes is the last port of the block. -/
lemma toNat_rport {nport : Int32} {b : PortBlock} (h : nport.toInt = (b.count : ℤ)) :
    (Int32.ofNat b.first + nport - 1).toUInt32.toNat = b.first + b.count - 1 := by
  have hle := b.le
  have hpos := b.pos
  have hhi := toNat_portHi h
  rw [Int32.toUInt32_sub, Int32.toUInt32_add, UInt32.toNat_sub, hhi]
  show (2 ^ 32 - 1 + (b.first + b.count)) % 2 ^ 32 = _
  omega

lemma AttGuardClient.createInstance_ports {myip image ip storage : String} {pid : UInt64}
    {rawConfigs : List String} {lport rport : UInt32} {p : Principal}
    (h : createInstance myip pid image rawConfigs ip lport rport storage = some p) :
    p.auth.portLo = lport ∧ p.auth.portHi = rport := by
  obtain ⟨confmap, -, rfl⟩ := Option.map_eq_some_iff.mp h
  exact ⟨rfl, rfl⟩

/-- The configuration that `create_principal` builds always has its `=`. -/
lemma AttGuardClient.createPrincipal_isSome (myip : String) (uuid : UInt64)
    (image config ip : String) (lo hi : UInt32) :
    ∃ p, createPrincipal myip uuid image config ip lo hi = some p := by
  have hinfix : "=".toList <:+: (legacyConfigKey ++ "=" ++ config).toList := by
    rw [String.toList_append, String.toList_append]
    exact List.infix_append _ _ _
  have hfind : Text.find (legacyConfigKey ++ "=" ++ config) "=" ≠ none := by
    rw [ne_eq, Text.find_eq_none_iff]
    exact not_not.mpr hinfix
  obtain ⟨split, hsplit⟩ := Option.ne_none_iff_exists'.mp hfind
  rw [createPrincipal, createInstance, fillConfig, splitConfig, hsplit]
  exact ⟨_, rfl⟩

lemma createPrincipalNew_ports (myip : String) (uuid : UInt64) (image config : String)
    (ip : Option String) (portLo portHi : UInt32) :
    ∃ p, createPrincipalNew myip uuid image config ip portLo portHi = some p ∧
      p.auth.portLo = portLo ∧ p.auth.portHi = portHi := by
  unfold createPrincipalNew
  simp only
  split_ifs
  all_goals
    obtain ⟨p, hp⟩ := AttGuardClient.createPrincipal_isSome myip uuid image config _ portLo portHi
    exact ⟨p, hp, AttGuardClient.createInstance_ports hp⟩

lemma CallOutcome.sending_eq_sent {ret ret' : ℤ → ℤ} {o : Option Principal} {p : Principal}
    (h : CallOutcome.sending ret o = .sent p ret') : o = some p := by
  cases o with
  | none => cases h
  | some q =>
      cases h
      rfl

/-- `liblatte_create_principal_new` sends the block and the port after it. -/
lemma run_createPrincipalNew (myip : String) {block : PortBlock} {call : CreateCall}
    (hcall : ¬ call.IsCreateInstance) (hn : call.nport.toInt = (block.count : ℤ)) :
    ∃ p ret, call.run myip (Int32.ofNat block.first) = .sent p ret ∧
      p.auth.portLo.toNat = block.first ∧ p.auth.portHi.toNat = block.first + block.count := by
  cases call with
  | createInstance pid image ip nport store args => exact absurd trivial hcall
  | createPrincipalNew uuid image config nport newIp =>
      have hn : nport.toInt = (block.count : ℤ) := hn
      obtain ⟨p, hp, hlo, hhi⟩ := createPrincipalNew_ports myip uuid (image.getD "")
        (config.getD "*") newIp (Int32.ofNat block.first).toUInt32
        ((Int32.ofNat block.first).toUInt32 + nport.toUInt32)
      rw [CreateCall.run, liblatteCreatePrincipalNew, if_neg (ofNat_first_nonneg block)]
      simp only
      rw [hp]
      exact ⟨p, _, rfl, by rw [hlo, toNat_first], by rw [hhi, toNat_portHi hn]⟩

/-- `liblatte_create_instance` sends the first and the last port of the block. -/
lemma run_createInstance {myip : String} {block : PortBlock} {call : CreateCall}
    (hcall : call.IsCreateInstance) (hn : call.nport.toInt = (block.count : ℤ)) {p : Principal}
    {ret : ℤ → ℤ} (h : call.run myip (Int32.ofNat block.first) = .sent p ret) :
    p.auth.portLo.toNat = block.first ∧
      p.auth.portHi.toNat = block.first + block.count - 1 := by
  cases call with
  | createPrincipalNew uuid image config nport newIp => exact hcall.elim
  | createInstance pid image ip nport store args =>
      have hn : nport.toInt = (block.count : ℤ) := hn
      have hpos : 0 < nport := by
        have hcount := block.pos
        rw [Int32.lt_iff_toInt_lt, hn, Int32.toInt_zero]
        omega
      have hnot : ¬ (nport ≤ 0 ∧ ip.getD "" = "") := fun hle => absurd hpos (Int32.not_lt.mpr hle.1)
      rw [CreateCall.run, liblatteCreateInstance] at h
      simp only [hnot, hpos, ofNat_first_nonneg block, if_true, if_false] at h
      obtain ⟨hlo, hhi⟩ := AttGuardClient.createInstance_ports (CallOutcome.sending_eq_sent h)
      exact ⟨by rw [hlo, toNat_first], by rw [hhi, toNat_rport hn]⟩

/-! ## Which ranges are exact -/

namespace Registration

variable {r : Registration}

lemma posts_range (r : Registration) :
    r.Posts (formatId r.sent.auth.ip (asInt r.sent.auth.portLo) (asInt r.sent.auth.portHi)) := by
  intro env cmd d hcmd
  refine ⟨⟨Manager.instanceRequest cmd { r.sent with gn := d.gn },
    env.replies d.exchanges.length⟩, ?_, rfl, rfl⟩
  rw [Manager.createPrincipal_run env hcmd]
  cases keyOutcome (env.replies d.exchanges.length) with
  | error e => simp
  | ok key => cases (env.replies (d.exchanges.length + 1)).get <;> simp

/-- A range that ends with the last port of its block is exact. -/
lemma exact_of_ports (hlo : r.sent.auth.portLo.toNat = r.block.first)
    (hhi : r.sent.auth.portHi.toNat = r.block.first + r.block.count - 1) : r.Exact where
  sent := by
    intro port
    have hpos := r.block.pos
    rw [AuthID.Contains, PortBlock.Contains, hlo, hhi]
    omega
  posted := by
    have hpos := r.block.pos
    have hle := r.block.le
    have hrange := r.posts_range
    rw [asInt_of_lt (by omega), asInt_of_lt (by omega), hlo, hhi] at hrange
    have hlast : ((r.block.first + r.block.count - 1 : ℕ) : ℤ)
        = r.block.first + r.block.count - 1 := by omega
    rwa [hlast] at hrange

/-- A range that ends with the port after its block is not. -/
lemma not_exact_of_ports (hlo : r.sent.auth.portLo.toNat = r.block.first)
    (hhi : r.sent.auth.portHi.toNat = r.block.first + r.block.count) : ¬ r.Exact := by
  intro hexact
  have hport := (hexact.sent (r.block.first + r.block.count)).mp
    ⟨by rw [hlo]; omega, by rw [hhi]⟩
  exact absurd hport.2 (lt_irrefl _)

lemma Exact.apart {a b : Registration} (ha : a.Exact) (hb : b.Exact)
    (hdisjoint : a.block.Disjoint b.block) : a.Apart b := by
  intro _ port hport
  exact hdisjoint port ⟨(ha.sent port).mp hport.1, (hb.sent port).mp hport.2⟩

end Registration

/-! ## Along a run -/

section Runs

variable {myip : String}

lemma afterEvents_append (before : List PortEvent) (e : PortEvent) :
    afterEvents myip (before ++ [e]) = portStep myip (afterEvents myip before) e := by
  rw [afterEvents, List.foldl_append]
  rfl

/-- Every live principal is registered exactly, and the live blocks are disjoint. -/
structure LiveInv (live : List Registration) : Prop where
  exact : ∀ r ∈ live, r.Exact
  disjoint : live.Pairwise fun a b => a.block.Disjoint b.block

/-- A creation by `liblatte_create_instance` keeps the invariant. -/
lemma LiveInv.create {live : List Registration} (h : LiveInv live) {call : CreateCall}
    {block : PortBlock} (hcall : call.IsCreateInstance)
    (hn : call.nport.toInt = (block.count : ℤ)) (hfresh : ∀ r ∈ live, r.block.Disjoint block) :
    LiveInv (portStep myip live (.create call block)) := by
  rw [portStep]
  cases hrun : call.run myip (Int32.ofNat block.first) with
  | refused code => exact h
  | aborted => exact h
  | sent p ret =>
      obtain ⟨hlo, hhi⟩ := run_createInstance hcall hn hrun
      have hexact : Registration.Exact ⟨p, block⟩ := Registration.exact_of_ports hlo hhi
      refine ⟨List.forall_mem_cons.mpr ⟨hexact, h.exact⟩, List.pairwise_cons.mpr ⟨?_, h.disjoint⟩⟩
      intro r hr port hport
      exact hfresh r hr port hport.symm

/-- A creation by `liblatte_create_principal_new` breaks it. -/
lemma not_exact_create (live : List Registration) {call : CreateCall} {block : PortBlock}
    (hcall : ¬ call.IsCreateInstance) (hn : call.nport.toInt = (block.count : ℤ)) :
    ∃ r ∈ portStep myip live (.create call block), ¬ r.Exact := by
  obtain ⟨p, ret, hrun, hlo, hhi⟩ := run_createPrincipalNew myip hcall hn
  rw [portStep, hrun]
  exact ⟨⟨p, block⟩, List.mem_cons_self, Registration.not_exact_of_ports hlo hhi⟩

lemma LiveInv.delete {live : List Registration} (h : LiveInv live) (id : UInt64) :
    LiveInv (portStep myip live (.delete id)) where
  exact := fun r hr => h.exact r (List.mem_of_mem_filter hr)
  disjoint := h.disjoint.filter _

/-- The invariant holds after every run of `liblatte_create_instance` calls and deletions. -/
lemma liveInv_afterEvents {events : List PortEvent} (hkernel : KernelAllocates myip events)
    (hcalls : ∀ call block, PortEvent.create call block ∈ events → call.IsCreateInstance) :
    LiveInv (afterEvents myip events) := by
  induction events using List.reverseRecOn with
  | nil => exact ⟨nofun, List.Pairwise.nil⟩
  | append_singleton before e ih =>
      have hbefore : LiveInv (afterEvents myip before) := by
        refine ih ?_ ?_
        · intro earlier call block hpre
          exact hkernel earlier call block (hpre.trans (List.prefix_append _ _))
        · intro call block hmem
          exact hcalls call block (List.mem_append_left _ hmem)
      rw [afterEvents_append]
      cases e with
      | create call block =>
          obtain ⟨hn, hfresh⟩ := hkernel before call block List.prefix_rfl
          exact hbefore.create (hcalls call block (by simp)) hn hfresh
      | delete id => exact hbefore.delete id

/-- **Every principal is registered with exactly the ports allocated for it if and only if every
one of them was created by `liblatte_create_instance`.** -/
theorem registeredExactly_iff {events : List PortEvent} (hkernel : KernelAllocates myip events) :
    RegisteredExactly myip events ↔
      ∀ call block, PortEvent.create call block ∈ events → call.IsCreateInstance := by
  constructor
  · intro hexact call block hmem
    by_contra hcall
    -- the state right after the creation
    obtain ⟨before, rest, rfl⟩ := List.append_of_mem hmem
    have hpre : before ++ [.create call block] <+: before ++ .create call block :: rest := by
      rw [List.append_cons before _ rest]
      exact List.prefix_append _ _
    obtain ⟨r, hr, hr'⟩ := not_exact_create (afterEvents myip before) hcall
      (hkernel before call block hpre).1
    rw [← afterEvents_append] at hr
    exact hr' ((hexact _ hpre).1 r hr)
  · intro hcalls before hpre
    have hinv : LiveInv (afterEvents myip before) := by
      refine liveInv_afterEvents ?_ ?_
      · intro earlier call block h
        exact hkernel earlier call block (h.trans hpre)
      · intro call block hmem
        exact hcalls call block (hpre.subset hmem)
    refine ⟨hinv.exact, hinv.disjoint.imp_of_mem ?_⟩
    intro a b ha hb hdisjoint
    exact (hinv.exact a ha).apart (hinv.exact b hb) hdisjoint

/-! ## Two blocks side by side -/

lemma kernelAllocates_nil : KernelAllocates myip [] := by
  intro before call block hpre
  exact absurd (List.prefix_nil.mp hpre) (by simp)

/-- One more allocation of a fresh block. -/
lemma KernelAllocates.create {events : List PortEvent} (h : KernelAllocates myip events)
    {call : CreateCall} {block : PortBlock} (hn : call.nport.toInt = (block.count : ℤ))
    (hfresh : ∀ r ∈ afterEvents myip events, r.block.Disjoint block) :
    KernelAllocates myip (events ++ [.create call block]) := by
  intro before call' block' hpre
  rcases List.prefix_concat_iff.mp hpre with heq | hpre
  · obtain ⟨rfl, hcreate⟩ := List.append_inj' heq rfl
    cases hcreate
    exact ⟨hn, hfresh⟩
  · exact h before call' block' hpre

lemma block_of_mem_create {live : List Registration} {call : CreateCall} {block : PortBlock}
    {r : Registration} (h : r ∈ portStep myip live (.create call block)) :
    r.block = block ∨ r ∈ live := by
  rw [portStep] at h
  cases hrun : call.run myip (Int32.ofNat block.first) with
  | refused code => exact Or.inr (by simpa [hrun] using h)
  | aborted => exact Or.inr (by simpa [hrun] using h)
  | sent p ret =>
      rw [hrun] at h
      rcases List.mem_cons.mp h with rfl | h
      · exact Or.inl rfl
      · exact Or.inr h

end Runs

/-- The ports from `30000` to `30009`. -/
def lowerBlock : PortBlock := ⟨30000, 10, by decide, by decide⟩

/-- The ports from `30010` to `30019`. -/
def upperBlock : PortBlock := ⟨30010, 10, by decide, by decide⟩

/-- Ten ports for each of two principals, the second created as an instance. -/
def sideBySide (first : CreateCall) : List PortEvent :=
  [.create first lowerBlock, .create (.createInstance 2 "image" none 10 none []) upperBlock]

lemma sideBySide_allocates (myip : String) {first : CreateCall} (h : first.nport = 10) :
    KernelAllocates myip (sideBySide first) := by
  have hfirst : KernelAllocates myip ([] ++ [.create first lowerBlock]) :=
    kernelAllocates_nil.create (by rw [h]; rfl) nofun
  refine hfirst.create rfl ?_
  intro r hr
  rcases block_of_mem_create hr with hblock | hr
  · rw [hblock]
    rintro port ⟨hlower, hupper⟩
    simp only [PortBlock.Contains, lowerBlock, upperBlock] at hlower hupper
    omega
  · cases hr

/-- Two instances, each with its own ports. -/
theorem instances_registeredExactly :
    RegisteredExactly "10.0.0.1" (sideBySide (.createInstance 1 "image" none 10 none [])) ∧
      (afterEvents "10.0.0.1"
        (sideBySide (.createInstance 1 "image" none 10 none []))).length = 2 := by
  refine ⟨(registeredExactly_iff (sideBySide_allocates "10.0.0.1" rfl)).mpr ?_, rfl⟩
  intro call block hmem
  simp only [sideBySide, List.mem_cons, PortEvent.create.injEq, List.not_mem_nil, or_false]
    at hmem
  rcases hmem with ⟨rfl, -⟩ | ⟨rfl, -⟩ <;> trivial

/-- **A principal and the instance in the next block share a port**: `30010` belongs to both. -/
theorem adjacent_ranges_overlap :
    KernelAllocates "10.0.0.1"
        (sideBySide (.createPrincipalNew 1 (some "image") none 10 none)) ∧
      ¬ RegisteredExactly "10.0.0.1"
        (sideBySide (.createPrincipalNew 1 (some "image") none 10 none)) := by
  refine ⟨sideBySide_allocates "10.0.0.1" rfl, ?_⟩
  intro hexact
  have hapart := (hexact _ List.prefix_rfl).2
  have hpair := (List.pairwise_cons.mp hapart).1 _ List.mem_cons_self
  exact hpair rfl 30010 ⟨by decide, by decide⟩

end Libport
