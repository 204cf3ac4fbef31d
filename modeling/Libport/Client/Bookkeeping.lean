import Libport.Client.Ports

/-!
# The ports that the client remembers (`client/client.cc`)

`liblatte_create_principal_new` notes the port range of a principal in `port_usage`.  The status of
a response is `1` for success; the call reads it as a C result, where `0` is success.  So the range
is noted exactly for the creations that the daemon refused.

* `CreationCall.run`: a call with its bookkeeping.
* `afterCreations_eq`: after every sequence of calls the table holds the ranges of the creations
  answered with status `0`.
* **`bookkeeping_iff`**: the table and the results follow the daemon's answers in the sequences in
  which no creation is sent, and only there.
-/

namespace Libport

/-- `port_usage`. -/
abbrev PortUsage : Type := UInt64 → Option (UInt32 × UInt32)

/-- What becomes of a command: the daemon's response arrives, or sending or receiving fails. -/
inductive Reply
  | answered (r : Response)
  | sendFailure (code : ℤ)
  | recvFailure (code : ℤ)

/-- What `post` returns. -/
def Reply.post : Reply → Response
  | answered r => r
  | sendFailure code => makeStatusResponse false ("send failure, code " ++ toString code)
  | recvFailure code => makeStatusResponse false ("recv failure " ++ toString code)

/-- A call of `liblatte_create_principal_new`: its arguments, what `alloc_child_ports` returns, and
what becomes of the command if one is sent. -/
structure CreationCall where
  uuid : UInt64
  image : Option String
  config : Option String
  nport : Int32
  newIp : Option String
  v : Int32
  reply : Reply

namespace CreationCall

/-- `std::make_pair(port_lo, port_hi)`. -/
def range (c : CreationCall) : UInt32 × UInt32 := (c.v.toUInt32, c.v.toUInt32 + c.nport.toUInt32)

/-- `status_int` of the response that `post` returned; the branch for debugging yields the same
number. -/
def status (c : CreationCall) : ℤ := c.reply.post.statusInt

/-- The call with its bookkeeping, for a client at `myip`: its result, if it returns, and the
table. -/
def run (myip : String) (usage : PortUsage) (c : CreationCall) : Option ℤ × PortUsage :=
  match liblatteCreatePrincipalNew myip c.v c.uuid c.image c.config c.nport c.newIp with
  | .refused code => (some code, usage)
  | .aborted => (none, usage)
  | .sent _ ret =>
      if c.status = 0 then (some (ret c.status), Function.update usage c.uuid (some c.range))
      else (some (ret c.status), usage)

/-- The ports were allocated, and the daemon answered the creation with success. -/
def Accepted (c : CreationCall) : Prop :=
  ¬ c.v < 0 ∧ ∃ r info, c.reply = .answered r ∧
    r.result = .packed (.status { success := true, info := info })

/-- The creation was sent and ended with status `0`: it was refused, or it failed on the way. -/
def Noted (c : CreationCall) : Prop := ¬ c.v < 0 ∧ c.status = 0

instance (c : CreationCall) : Decidable c.Noted := inferInstanceAs (Decidable (_ ∧ _))

lemma statusInt_eq_one {r : Response} :
    r.statusInt = 1 ↔ ∃ info, r.result = .packed (.status { success := true, info := info }) := by
  unfold Response.statusInt
  constructor
  · intro h
    split at h
    · next s hs =>
        obtain ⟨success, info⟩ := s
        cases success with
        | false => simp at h
        | true => exact ⟨info, hs⟩
    · simp at h
  · rintro ⟨info, hinfo⟩
    rw [hinfo]
    rfl

/-- A creation is accepted when its status is `1`: `post` makes up no such status. -/
lemma accepted_iff (c : CreationCall) : c.Accepted ↔ ¬ c.v < 0 ∧ c.status = 1 := by
  refine and_congr_right fun _ => ?_
  unfold status
  cases hreply : c.reply with
  | answered r =>
      rw [Reply.post, statusInt_eq_one]
      constructor
      · rintro ⟨r', info, heq, hresult⟩
        cases heq
        exact ⟨info, hresult⟩
      · rintro ⟨info, hresult⟩
        exact ⟨r, info, rfl, hresult⟩
  | sendFailure code => simp [Reply.post, makeStatusResponse, Response.statusInt]
  | recvFailure code => simp [Reply.post, makeStatusResponse, Response.statusInt]

instance (c : CreationCall) : Decidable c.Accepted := decidable_of_iff _ c.accepted_iff.symm

/-- What a call does: without ports it sends nothing; otherwise it returns `0` and notes the range
when the status is `0`, and returns `1` when it is not. -/
lemma run_eq (myip : String) (usage : PortUsage) (c : CreationCall) :
    c.run myip usage =
      if c.v < 0 then (some (-1), usage)
      else if c.status = 0 then (some 0, Function.update usage c.uuid (some c.range))
      else (some 1, usage) := by
  unfold run liblatteCreatePrincipalNew
  by_cases hv : c.v < 0
  · simp [hv]
  · obtain ⟨p, hp, -⟩ := createPrincipalNew_ports myip c.uuid (c.image.getD "")
      (c.config.getD "*") c.newIp c.v.toUInt32 (c.v.toUInt32 + c.nport.toUInt32)
    simp only [hv, if_false, hp, CallOutcome.sending]
    by_cases hstatus : c.status = 0
    · simp [hstatus]
    · simp [hstatus]

end CreationCall

/-! ## Sequences of calls -/

/-- The table after a sequence of calls. -/
def afterCreations (myip : String) (calls : List CreationCall) : PortUsage :=
  calls.foldl (fun usage c => (c.run myip usage).2) fun _ => none

/-- The range of the last call for an id among those that `P` selects. -/
def lastRange (P : CreationCall → Prop) [DecidablePred P] (calls : List CreationCall)
    (uuid : UInt64) : Option (UInt32 × UInt32) :=
  ((calls.filter fun c => P c ∧ c.uuid = uuid).getLast?).map CreationCall.range

/-- What the bookkeeping should be after the calls: the table holds an id exactly when a creation
of it was accepted, with the range of the last one, and a call returns a positive value exactly
when its creation was accepted. -/
structure FollowsAnswers (myip : String) (calls : List CreationCall) : Prop where
  usage : ∀ uuid, afterCreations myip calls uuid = lastRange CreationCall.Accepted calls uuid
  result : ∀ c ∈ calls, ∀ before,
    (∃ ret, (c.run myip before).1 = some ret ∧ 0 < ret) ↔ c.Accepted

variable {myip : String}

lemma afterCreations_concat (calls : List CreationCall) (c : CreationCall) :
    afterCreations myip (calls ++ [c]) = (c.run myip (afterCreations myip calls)).2 := by
  simp [afterCreations]

section LastRange

variable {P : CreationCall → Prop} [DecidablePred P] (calls : List CreationCall) {c : CreationCall}

lemma lastRange_concat_of_not (h : ¬ P c) (uuid : UInt64) :
    lastRange P (calls ++ [c]) uuid = lastRange P calls uuid := by
  simp [lastRange, h]

lemma lastRange_concat_of (h : P c) :
    lastRange P (calls ++ [c]) = Function.update (lastRange P calls) c.uuid (some c.range) := by
  funext uuid
  by_cases hid : c.uuid = uuid
  · subst hid
    simp [lastRange, h]
  · rw [Function.update_of_ne (Ne.symm hid)]
    simp [lastRange, hid]

end LastRange

/-- **What the table holds**: for each id the range of the last creation with status `0`. -/
lemma afterCreations_eq (myip : String) (calls : List CreationCall) :
    afterCreations myip calls = lastRange CreationCall.Noted calls := by
  induction calls using List.reverseRecOn with
  | nil => rfl
  | append_singleton calls c ih =>
      rw [afterCreations_concat, ih, CreationCall.run_eq]
      split_ifs with hv hstatus
      · funext uuid
        exact (lastRange_concat_of_not calls (fun h : c.Noted => h.1 hv) uuid).symm
      · exact (lastRange_concat_of calls (⟨hv, hstatus⟩ : c.Noted)).symm
      · funext uuid
        exact (lastRange_concat_of_not calls (fun h : c.Noted => hstatus h.2) uuid).symm

/-- A call returns a positive value when it sent a creation and the status is not `0`. -/
lemma positive_iff (c : CreationCall) (before : PortUsage) :
    (∃ ret, (c.run myip before).1 = some ret ∧ 0 < ret) ↔ ¬ c.v < 0 ∧ c.status ≠ 0 := by
  rw [CreationCall.run_eq]
  split_ifs with hv hstatus
  · simp [hv]
  · simp [hstatus]
  · simp [hv, hstatus]

/-- What the bookkeeping follows, in terms of the status. -/
lemma followsAnswers_iff (calls : List CreationCall) :
    FollowsAnswers myip calls ↔
      (∀ uuid, lastRange CreationCall.Noted calls uuid
          = lastRange CreationCall.Accepted calls uuid) ∧
        ∀ c ∈ calls, (¬ c.v < 0 ∧ c.status ≠ 0) ↔ c.Accepted := by
  constructor
  · rintro ⟨husage, hresult⟩
    refine ⟨fun uuid => ?_, fun c hc => ?_⟩
    · rw [← afterCreations_eq myip, husage]
    · rw [← hresult c hc fun _ => none, positive_iff]
  · rintro ⟨husage, hresult⟩
    refine ⟨fun uuid => ?_, fun c hc before => ?_⟩
    · rw [afterCreations_eq, husage]
    · rw [← hresult c hc, positive_iff]

lemma lastRange_of_none {P : CreationCall → Prop} [DecidablePred P] {calls : List CreationCall}
    (h : ∀ c ∈ calls, ¬ P c) (uuid : UInt64) : lastRange P calls uuid = none := by
  have hnil : (calls.filter fun c => P c ∧ c.uuid = uuid) = [] := by
    rw [List.filter_eq_nil_iff]
    intro c hc
    simp [h c hc]
  rw [lastRange, hnil]
  rfl

/-- Where no creation is sent there is nothing to keep. -/
lemma followsAnswers_of_unsent {calls : List CreationCall} (h : ∀ c ∈ calls, c.v < 0) :
    FollowsAnswers myip calls := by
  rw [followsAnswers_iff]
  constructor
  · intro uuid
    rw [lastRange_of_none fun c hc (hn : c.Noted) => hn.1 (h c hc),
      lastRange_of_none fun c hc (ha : c.Accepted) => ha.1 (h c hc)]
  · intro c hc
    exact iff_of_false (fun hn => hn.1 (h c hc)) fun ha => ha.1 (h c hc)

/-- The first creation that is sent is already booked the wrong way round. -/
lemma sent_not_followsAnswers {done : List CreationCall} {c : CreationCall}
    (hdone : ∀ c ∈ done, c.v < 0) (hc : ¬ c.v < 0) : ¬ FollowsAnswers myip (done ++ [c]) := by
  rw [followsAnswers_iff]
  rintro ⟨husage, hresult⟩
  have hnoted := lastRange_of_none (P := CreationCall.Noted)
    (fun c hc (hn : c.Noted) => hn.1 (hdone c hc)) c.uuid
  have haccepted := lastRange_of_none (P := CreationCall.Accepted)
    (fun c hc (ha : c.Accepted) => ha.1 (hdone c hc)) c.uuid
  have hself := husage c.uuid
  by_cases hzero : c.status = 0
  · -- refused, and the range is noted
    have hnot : ¬ c.Accepted := by
      rw [CreationCall.accepted_iff, hzero]
      simp
    rw [lastRange_concat_of done (⟨hc, hzero⟩ : c.Noted), Function.update_self,
      lastRange_concat_of_not done hnot, haccepted] at hself
    cases hself
  · -- not refused, and the range is not noted, so that the creation cannot have been accepted
    have hnot : ¬ c.Noted := fun hn => hzero hn.2
    have haccept : c.Accepted := (hresult c (by simp)).mp ⟨hc, hzero⟩
    rw [lastRange_concat_of_not done hnot, hnoted, lastRange_concat_of done haccept,
      Function.update_self] at hself
    cases hself

/-- `liblatte_create_instance` returns the status, so that it is positive exactly on success. -/
lemma createInstance_result {v : Int32} {pid : UInt64} {image : String} {ip store : Option String}
    {nport : Int32} {args : List String} {p : Principal} {ret : ℤ → ℤ}
    (h : liblatteCreateInstance myip v pid image ip nport store args = .sent p ret) (r : Response) :
    0 < ret r.statusInt ↔ r.statusInt = 1 := by
  have hret : ret = id := by
    have hsending : ∀ {o : Option Principal},
        CallOutcome.sending id o = .sent p ret → ret = id := by
      intro o ho
      cases o with
      | none => cases ho
      | some q =>
          cases ho
          rfl
    unfold liblatteCreateInstance at h
    simp only at h
    split_ifs at h
    · exact hsending h
    · exact hsending h
  rw [hret, id, Response.statusInt]
  split
  · next s hs => cases s.success <;> simp
  · simp

/-- **When the bookkeeping follows the daemon's answers.**  It does after every call of a sequence
if and only if no call of the sequence sends a creation.  In every sequence, the table holds the
range of the last creation that was refused or failed on the way, and a call is positive exactly
when it was answered otherwise, with success or with something that is no status. -/
theorem bookkeeping_iff (myip : String) (calls : List CreationCall) :
    ((∀ done, done <+: calls → FollowsAnswers myip done) ↔ ∀ c ∈ calls, c.v < 0) ∧
      (∀ uuid, afterCreations myip calls uuid = lastRange CreationCall.Noted calls uuid) ∧
      (∀ c ∈ calls, ∀ before, (∃ ret, (c.run myip before).1 = some ret ∧ 0 < ret) ↔
        ¬ c.v < 0 ∧ c.status ≠ 0) ∧
      ∀ v pid image ip nport store args p ret,
        liblatteCreateInstance myip v pid image ip nport store args = .sent p ret →
          ∀ r : Response, 0 < ret r.statusInt ↔ r.statusInt = 1 := by
  refine ⟨⟨fun h => ?_, fun h done hdone => ?_⟩, fun uuid => ?_, fun c _ before => ?_, ?_⟩
  · -- the first call that sends a creation
    induction calls using List.reverseRecOn with
    | nil => simp
    | append_singleton calls c ih =>
        have hcalls := ih fun done hdone => h done (hdone.trans (List.prefix_append _ _))
        refine List.forall_mem_append.mpr ⟨hcalls, List.forall_mem_singleton.mpr ?_⟩
        by_contra hc
        exact sent_not_followsAnswers hcalls hc (h _ List.prefix_rfl)
  · exact followsAnswers_of_unsent fun c hc => h c (hdone.subset hc)
  · rw [afterCreations_eq]
  · exact positive_iff c before
  · intro v pid image ip nport store args p ret h
    exact createInstance_result h

/-- Principal `7` with ten ports from `30000` on, and the daemon's answer to its creation. -/
def createSevenWith (success : Bool) : CreationCall :=
  { uuid := 7
    image := some "image"
    config := none
    nport := 10
    newIp := none
    v := 30000
    reply := .answered (makeStatusResponse success "") }

/-- An accepted creation returns `1` and is not noted; a refused one returns `0` and is. -/
theorem bookkeeping_inverted :
    (createSevenWith true).Accepted ∧ ¬ (createSevenWith false).Accepted ∧
      afterCreations "10.0.0.1" [createSevenWith true] 7 = none ∧
      afterCreations "10.0.0.1" [createSevenWith false] 7 = some (30000, 30010) ∧
      ¬ FollowsAnswers "10.0.0.1" [createSevenWith true] ∧
      ¬ FollowsAnswers "10.0.0.1" [createSevenWith false] := by
  have hempty : ∀ c ∈ ([] : List CreationCall), c.v < 0 := by simp
  refine ⟨⟨by decide, _, _, rfl, rfl⟩, ?_, ?_, ?_, ?_, ?_⟩
  · rw [CreationCall.accepted_iff]
    decide
  · rw [afterCreations_eq]
    decide
  · rw [afterCreations_eq]
    decide
  · exact sent_not_followsAnswers hempty (by decide)
  · exact sent_not_followsAnswers hempty (by decide)

end Libport
