import Libport.Server.Acceptance
import Libport.Server.Privilege

/-!
# What a reported failure leaves behind

A client that is told of failure takes nothing to have happened.  Two commands change state, and
each talks to the metadata service in the middle of it.

* `delete_principal` erases the entries before it asks the service.  **`keepsTable_iff`**: a failed
  command leaves the table alone exactly when it is not a deletion that got as far as the erase, or
  the service acknowledges the deletion, or the daemon does not get past logging the failure.
* `create_principal` posts the instance first, and nothing takes it back.  **`orphan_iff`**: a
  failed creation leaves an instance behind exactly when the service accepted it and either its
  reply carries no key or the request for its configuration gets no reply.
-/

namespace Libport

/-- The response is a `Status` that tells the client of failure. -/
def Response.ReportsFailure (r : Response) : Prop := r.statusInt = 0

/-- The outcome is a reply with status `200`. -/
def Outcome.StatusOk : Outcome → Prop
  | failed _ => False
  | replied res => res.statusCode = statusOk

/-- The outcome is a reply with status `200` and a JSON body. -/
def Outcome.Acknowledged : Outcome → Prop
  | failed _ => False
  | replied res => res.statusCode = statusOk ∧ ∃ v, res.body = .ok v

lemma jsonOutcome_ok_iff (msg : String) (o : Outcome) :
    (∃ v, jsonOutcome msg o = .ok v) ↔ o.Acknowledged := by
  cases o with
  | failed e => exact iff_of_false (by simp [jsonOutcome]) id
  | replied res =>
      simp only [jsonOutcome, Outcome.Acknowledged]
      by_cases hok : res.statusCode = statusOk
      · cases hbody : res.body with
        | ok v => simp [hok]
        | error b => simp [hok]
      · simp [hok]

lemma statusOk_of_key {o : Outcome} {key : String} (h : keyOutcome o = .ok key) : o.StatusOk := by
  have hnot := Manager.not_rejected_of_key h
  cases o with
  | failed e => cases h
  | replied res => exact not_not.mp hnot

@[simp] lemma reportsFailure_status (success : Bool) (msg : String) :
    (makeStatusResponse success msg).ReportsFailure ↔ success = false := by
  cases success <;> simp [makeStatusResponse, Response.ReportsFailure, Response.statusInt]

namespace Manager

variable (env : Env)

/-! ## The table -/

/-- If the writer is told of failure, the table is what it was. -/
def KeepsTable (cmd : Command) (d : Daemon) : Prop :=
  ∀ d' r, dispatch env cmd record d = (.ok true, d') → d'.written = d.written ++ [some r] →
    r.ReportsFailure → d'.principals = d.principals

/-- The command is a deletion that its session is allowed, of an id with entries. -/
def Erases (cmd : Command) (d : Daemon) : Prop :=
  cmd.type = .deletePrincipal ∧ ∃ p l, extractPrincipal cmd = some p ∧
    latest env d p.id = some l ∧ (l.speaker = cmd.pid ∨ cmd.uid = 0)

lemma keepsTable_iff_answer (cmd : Command) (d : Daemon) :
    KeepsTable env cmd d ↔ ∀ r, (answer env cmd d).1 = .ok (some r) → r.ReportsFailure →
      (answer env cmd d).2.principals = d.principals := by
  constructor
  · intro h r hr
    obtain ⟨hd, hw⟩ := (dispatch_wrote env).mpr ⟨hr, rfl⟩
    intro hf
    have hkept := h _ r hd hw hf
    exact hkept
  · intro h d' r hd hw
    obtain ⟨hr, rfl⟩ := (dispatch_wrote env).mp ⟨hd, hw⟩
    exact h r hr

lemma planOf_ne_delete {cmd : Command} {pl : Plan} (hp : planOf env cmd = some pl) :
    cmd.type ≠ .deletePrincipal := by
  intro ht
  rw [planOf, ht] at hp
  cases hp

/-- The erase of an id that has an entry changes the table. -/
lemma erased_ne {d : Daemon} {p l : Principal} (hl : latest env d p.id = some l) :
    d.principals.filter (fun e => e.1 ≠ p.id) ≠ d.principals := by
  intro heq
  have hkept := List.filter_eq_self.mp heq (p.id, l) (latest_mem env hl)
  simp at hkept

/-- The status a deletion ends with, once it has erased. -/
lemma deletion_status (o : Outcome) : ∃ success text,
    orStatus ((jsonOutcome "deleting instance" o).map
        fun _ => some (makeStatusResponse true "")) = .ok (some (makeStatusResponse success text)) ∧
      (success = true ↔ o.Acknowledged) := by
  rw [← jsonOutcome_ok_iff "deleting instance"]
  cases hj : jsonOutcome "deleting instance" o with
  | ok v => exact ⟨true, "", rfl, by simp⟩
  | error e =>
      obtain ⟨text, htext⟩ := orStatus_of_caught (tame_jsonOutcome _ o e hj)
      exact ⟨false, text, htext, by simp⟩

/-- The daemon gets past logging the failure of a deletion with this outcome. -/
def FailureLogged (o : Outcome) : Prop :=
  ∀ text ∈ errmsgs (jsonOutcome "deleting instance" o), env.platform.logs text = true

/-- A deletion is reported as failed exactly when the service does not acknowledge it and the
failure is logged. -/
lemma deletion_fails_iff (o : Outcome) :
    (∃ r, env.platform.printing (errmsgs (jsonOutcome "deleting instance" o))
        (orStatus ((jsonOutcome "deleting instance" o).map
          fun _ => some (makeStatusResponse true ""))) = .ok (some r) ∧ r.ReportsFailure)
      ↔ ¬ o.Acknowledged ∧ FailureLogged env o := by
  obtain ⟨success, text, hstatus, hiff⟩ := deletion_status o
  simp only [printing_eq_ok, hstatus, ← hiff, FailureLogged]
  constructor
  · rintro ⟨r, ⟨hlogs, hr⟩, hf⟩
    cases hr
    exact ⟨by simpa using hf, hlogs⟩
  · rintro ⟨hfail, hlogs⟩
    exact ⟨_, ⟨hlogs, rfl⟩, by simpa using hfail⟩

/-- **A failed command leaves the table alone** exactly when it erases nothing, or the service
acknowledges the deletion, or the text of the failure cannot be logged and nothing is answered,
whatever the command, the state and the service. -/
theorem keepsTable_iff (cmd : Command) (d : Daemon) :
    KeepsTable env cmd d ↔
      (Erases env cmd d → (env.replies d.exchanges.length).Acknowledged ∨
        ¬ FailureLogged env (env.replies d.exchanges.length)) := by
  rw [keepsTable_iff_answer]
  have h := answered env cmd d
  generalize (answer env cmd d).1 = x at h ⊢
  generalize (answer env cmd d).2 = d' at h ⊢
  cases h with
  | @deleted p l ht hx hl hpriv =>
      have herases : Erases env cmd d := ⟨ht, p, l, hx, hl, hpriv⟩
      have hne := erased_ne env hl
      have hfails := deletion_fails_iff env (env.replies d.exchanges.length)
      constructor
      · intro h _
        by_contra hno
        rw [not_or, not_not] at hno
        obtain ⟨r, hr, hf⟩ := hfails.mpr hno
        exact hne (h r hr hf)
      · intro h r hr hf
        obtain ⟨hno, hlogged⟩ := hfails.mp ⟨r, hr, hf⟩
        exact ((h herases).elim hno fun hnot => hnot hlogged).elim
  | created ht => exact iff_of_true (by simp) fun he => by simp [he.1] at ht
  | refused ht hx hl hpriv =>
      refine iff_of_true (fun _ _ _ => rfl) ?_
      rintro ⟨-, p', l', hx', hl', hpriv'⟩
      cases hx.symm.trans hx'
      cases hl.symm.trans hl'
      exact absurd hpriv' hpriv
  | notFound ht hx hl =>
      refine iff_of_true (fun _ _ _ => rfl) ?_
      rintro ⟨-, p', l', hx', hl', -⟩
      cases hx.symm.trans hx'
      cases hl.symm.trans hl'
  | crash hp => exact iff_of_true (by simp) fun he => absurd he.1 (planOf_ne_delete env hp)
  | reply hp =>
      exact iff_of_true (fun _ _ _ => rfl) fun he => absurd he.1 (planOf_ne_delete env hp)
  | ask hp =>
      exact iff_of_true (fun _ _ _ => rfl) fun he => absurd he.1 (planOf_ne_delete env hp)
  | malformed hp hx =>
      refine iff_of_true (fun _ _ _ => rfl) ?_
      rintro ⟨-, p', l', hx', -⟩
      cases hx.symm.trans hx'
  | noKey ht => exact iff_of_true (fun _ _ _ => rfl) fun he => by simp [he.1] at ht
  | noConfig ht => exact iff_of_true (fun _ _ _ => rfl) fun he => by simp [he.1] at ht
  | looked ht => exact iff_of_true (fun _ _ _ => rfl) fun he => by simp [he.1] at ht

/-- The service that accepts an instance and its configuration, and refuses everything after. -/
def forgetfulService : Env := .inOrder fun n =>
  .replied ⟨if n < 2 then 200 else 500, .ok (.object [("message", .string "['key']")])⟩

/-- The owner of principal `7` deletes it while the service answers with status `500`: it is told
of failure, and the entry is gone. -/
theorem deletion_forgets :
    let d := (serve forgetfulService (principalCommand .createPrincipal 100 1) {}).2
    d.principals ≠ [] ∧
      ¬ KeepsTable forgetfulService (principalCommand .deletePrincipal 100 1) d := by
  intro d
  refine ⟨by decide, fun h => ?_⟩
  rw [keepsTable_iff_answer] at h
  let cmd := principalCommand .deletePrincipal 100 1
  have hl : latest forgetfulService d 7 = some { id := 7, speaker := 100 } := rfl
  have hdelete : answer forgetfulService cmd d = _ := answer_handler _ rfl d
  rw [deletePrincipal_allowed forgetfulService (p := { id := 7 }) rfl hl (.inl rfl),
    errmsgs_map] at hdelete
  have ho : (forgetfulService.replies d.exchanges.length).Rejected :=
    show (500 : ℕ) ≠ 200 by decide
  have hno : ¬ (forgetfulService.replies d.exchanges.length).Acknowledged :=
    fun hacc => ho (And.left hacc)
  obtain ⟨r, hr, hf⟩ := (deletion_fails_iff forgetfulService _).mpr
    ⟨hno, errmsgs_logs_of_rejected (by decide) ho _⟩
  have hkept := h r (by rw [hdelete]; exact hr) hf
  rw [hdelete] at hkept
  exact absurd hkept (by decide)

/-! ## The service -/

/-- The service accepted a request at `path` for the instance of `p`. -/
def Accepts (path : String) (p : Principal) (x : Exchange) : Prop :=
  x.request.path = path ∧ x.request.otherValues.head? = some (principalName p) ∧
    x.outcome.StatusOk

/-- Between the two states the service accepted the instance of `p`, and there is neither an entry
of its id and generation nor an accepted deletion. -/
def Orphan (d d' : Daemon) (p : Principal) : Prop :=
  (∃ x ∈ d'.exchanges.drop d.exchanges.length, Accepts "/postInstance" p x) ∧
    (∀ e ∈ d'.principals, ¬ (e.1 = p.id ∧ e.2.gn = p.gn)) ∧
    ∀ x ∈ d'.exchanges.drop d.exchanges.length, ¬ Accepts "/lazyDeleteInstance" p x

/-- The creation stops after the service accepted the instance: the reply carries no key, or the
request for the configuration gets no reply. -/
def Abandoned (d : Daemon) : Prop :=
  (env.replies d.exchanges.length).StatusOk ∧
    ∀ key, keyOutcome (env.replies d.exchanges.length) = .ok key →
      ∃ e, env.replies (d.exchanges.length + 1) = .failed e

section Orphans

variable {env} {cmd : Command} {d d' : Daemon} {p q : Principal}

/-- What a creation leaves after its first request, when it goes no further than the second. -/
lemma orphan_iff_posted {rest : List Exchange} (hex : d'.exchanges = d.exchanges ++
      ⟨instanceRequest cmd p, env.replies d.exchanges.length⟩ :: rest)
    (hrest : ∀ x ∈ rest, x.request.path = "/postInstanceConfig") :
    Orphan d d' q ↔ principalName q = principalName p ∧
      (env.replies d.exchanges.length).StatusOk ∧
      ∀ e ∈ d'.principals, ¬ (e.1 = q.id ∧ e.2.gn = q.gn) := by
  have hother : ∀ path, path ≠ "/postInstanceConfig" → ∀ x ∈ rest, ¬ Accepts path q x :=
    fun path hne x hx hacc => hne (hacc.1.symm.trans (hrest x hx))
  have hdelete : ∀ x ∈ ⟨instanceRequest cmd p, env.replies d.exchanges.length⟩ :: rest,
      ¬ Accepts "/lazyDeleteInstance" q x := by
    refine List.forall_mem_cons.mpr ⟨fun hacc => ?_, hother _ (by decide)⟩
    exact absurd hacc.1 (by simp [instanceRequest, formatRequest])
  have hpost : (∃ x ∈ ⟨instanceRequest cmd p, env.replies d.exchanges.length⟩ :: rest,
      Accepts "/postInstance" q x) ↔ principalName q = principalName p ∧
        (env.replies d.exchanges.length).StatusOk := by
    have hnone : ¬ ∃ x ∈ rest, Accepts "/postInstance" q x := fun ⟨x, hx, hacc⟩ =>
      hother _ (by decide) x hx hacc
    rw [List.exists_mem_cons_iff, or_iff_left hnone]
    simp [Accepts, instanceRequest, formatRequest, eq_comm (a := principalName q)]
  rw [Orphan, hex, List.drop_left, hpost]
  tauto

/-- **What a failed creation leaves behind.**  It asks for no deletion, and an instance the service
accepted stays without an entry and without a deletion exactly when its creation was abandoned
half-way. -/
theorem orphan_iff {r : Response} (ht : cmd.type = .createPrincipal)
    (hrun : dispatch env cmd record d = (.ok true, d'))
    (hwrote : d'.written = d.written ++ [some r]) (hr : r.ReportsFailure) (q : Principal) :
    (∀ x ∈ d'.exchanges.drop d.exchanges.length, x.request.path ≠ "/lazyDeleteInstance") ∧
      (Orphan d d' q ↔ Abandoned env d ∧
        (∃ p, extractPrincipal cmd = some p ∧
          principalName q = principalName { p with gn := d.gn }) ∧
        ∀ e ∈ d.principals, ¬ (e.1 = q.id ∧ e.2.gn = q.gn)) := by
  obtain ⟨hres, rfl⟩ := (dispatch_wrote env).mp ⟨hrun, hwrote⟩
  have h := answered env cmd d
  generalize (answer env cmd d).1 = x at h hres
  generalize (answer env cmd d).2 = d₂ at h ⊢
  cases h with
  | crash hp => cases hres
  | reply hp => exact absurd ht (planOf_ne_create env hp)
  | ask hp => exact absurd ht (planOf_ne_create env hp)
  | malformed hp hx =>
      refine ⟨by simp, iff_of_false ?_ ?_⟩
      · rintro ⟨⟨x, hmem, -⟩, -⟩
        simp at hmem
      · rintro ⟨-, ⟨p, hp, -⟩, -⟩
        cases hx.symm.trans hp
  | @noKey p e _ hx hkey =>
      have habandoned : Abandoned env d ↔ (env.replies d.exchanges.length).StatusOk := by
        simp [Abandoned, hkey]
      have hnone : ∀ x ∈ ([] : List Exchange), x.request.path = "/postInstanceConfig" := by simp
      refine ⟨by simp [instanceRequest, formatRequest], ?_⟩
      rw [orphan_iff_posted rfl hnone, habandoned, hx]
      simp only [Option.some.injEq, exists_eq_left']
      tauto
  | @noConfig p key e _ hx hkey hget =>
      have hok := statusOk_of_key hkey
      have hlost : ∃ e, env.replies (d.exchanges.length + 1) = .failed e := by
        cases ho : env.replies (d.exchanges.length + 1) with
        | failed err => exact ⟨err, rfl⟩
        | replied res =>
            rw [ho] at hget
            cases hget
      have habandoned : Abandoned env d := ⟨hok, fun _ _ => hlost⟩
      refine ⟨by simp [instanceRequest, configRequest, formatRequest], ?_⟩
      rw [orphan_iff_posted rfl (by simp [configRequest, formatRequest]), hx]
      simp only [Option.some.injEq, exists_eq_left']
      tauto
  | created =>
      cases hres
      simp at hr
  | refused ht' => cases ht.symm.trans ht'
  | notFound ht' => cases ht.symm.trans ht'
  | deleted ht' => cases ht.symm.trans ht'
  | looked ht' => cases ht.symm.trans ht'

/-- The service that accepts an instance in a reply without a key. -/
def keylessService : Env :=
  .inOrder fun _ => .replied ⟨200, .ok (.object [("message", .string "accepted")])⟩

/-- The response to a creation whose reply has no key. -/
def keylessResponse : Response :=
  makeStatusResponse false "runtime error no quote found in message: accepted"

/-- Principal `7` is accepted under generation `0` and never deleted. -/
theorem orphan_iff_keyless : Orphan {}
    (dispatch keylessService (principalCommand .createPrincipal 100 1) record {}).2
    { id := 7 } := by
  have hfails : keylessResponse.ReportsFailure := by simp [keylessResponse]
  have hrun : dispatch keylessService (principalCommand .createPrincipal 100 1) record {}
    = (.ok true, (dispatch keylessService (principalCommand .createPrincipal 100 1) record {}).2) :=
    rfl
  refine (orphan_iff rfl hrun rfl hfails _).2.mpr ⟨⟨rfl, fun key hkey => ?_⟩, ?_, by simp⟩
  · cases hkey
  · exact ⟨{ id := 7 }, rfl, rfl⟩

end Orphans

/-- A failed creation that leaves no instance behind. -/
def NoOrphanOnFailure (cmd : Command) (d : Daemon) : Prop :=
  ∀ d' r, dispatch env cmd record d = (.ok true, d') → d'.written = d.written ++ [some r] →
    r.ReportsFailure → ∀ p, ¬ Orphan d d' p

/-- The creation is answered with failure, and the service keeps the instance it accepted. -/
theorem creation_abandoned :
    ¬ NoOrphanOnFailure keylessService (principalCommand .createPrincipal 100 1) {} := by
  intro h
  refine h _ keylessResponse rfl rfl (by simp [keylessResponse]) { id := 7 } ⟨?_, by decide, ?_⟩
  · exact ⟨_, List.mem_singleton_self _, rfl, rfl, rfl⟩
  · intro x hx hacc
    rw [List.mem_singleton.mp hx] at hacc
    exact absurd hacc.1 (by decide)

end Manager

end Libport
