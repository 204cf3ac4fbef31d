import Libport.Server.Dispatch

/-!
# What a reported success is worth

A client that is told of success takes its statement for stored.  Whether the metadata service
accepted it depends on the ending of the operation: `json_task` makes an exception of a status
other than `200`, `sink_task` consumes it, and `attest` replaces it by an empty attestation.

* `HonestReport`: success, or an attestation, is reported only when every reply received for the
  command had status `200`.
* `IgnoresReply` lists the commands whose handler never looks at the status of the reply, and
  `Unrejected` says that none of their replies, and no reply to an instance configuration, is a
  rejection.
* **`honestReport_iff`**: the report is honest exactly then.
* `postAcl_rejected`: an access list the service refused is reported as stored.
-/

namespace Libport

/-- The response tells the client that its statement was stored, or hands it an attestation. -/
def Response.ReportsSuccess (r : Response) : Prop :=
  match r.result with
  | .packed (.status s) => s.success = true
  | .packed (.attestation _) => True
  | _ => False

namespace Manager

/-- The writer is told of success only when no reply received for the command was a rejection. -/
def HonestReport (env : Env) (cmd : Command) (d : Daemon) : Prop :=
  ∀ d' r, dispatch env cmd record d = (.ok true, d') → d'.written = d.written ++ [some r] →
    r.ReportsSuccess → ∀ e ∈ d'.exchanges.drop d.exchanges.length, ¬ e.outcome.Rejected

/-- The command sends a request and its handler never looks at the status of the reply. -/
def IgnoresReply (cmd : Command) : Prop :=
  match cmd.type with
  | .postAcl => ∃ m, extractPostAcl cmd = some m ∧ m.policies ≠ []
  | .endorseMembership => ∃ m, extractEndorsePrincipal cmd = some m ∧ m.endorsements ≠ [] ∧
      HasLegacyKey m.principal.code.config
  | .endorseAttesterImage => ∃ m, extractEndorse cmd = some m ∧ HasLegacyKey m.config
  | .endorseBuilderImage =>
      ∃ m, extractEndorse cmd = some m ∧ m.endorsements ≠ [] ∧ HasLegacyKey m.config
  | .endorseSourceImage => ∃ m, extractEndorse cmd = some m ∧ m.endorsements ≠ [] ∧
      HasLegacyKey m.config ∧ m.type ≠ .source
  | .checkAttestation => ∃ m, extractCheckAttestation cmd = some m
  | _ => False

/-- The service rejects neither a request whose reply is ignored nor the configuration of an
instance it accepted. -/
def Unrejected (env : Env) (cmd : Command) (d : Daemon) : Prop :=
  (IgnoresReply cmd → ¬ (env.replies d.exchanges.length).Rejected) ∧
  (cmd.type = .createPrincipal → (extractPrincipal cmd).isSome →
    (∃ key, keyOutcome (env.replies d.exchanges.length) = .ok key) →
      ¬ (env.replies (d.exchanges.length + 1)).Rejected)

end Manager

/-! ## The endings that ignore the status -/

/-- The ending reports success whatever the status of the reply. -/
def Ending.Blind : Ending → Prop
  | sink => True
  | json _ => False
  | verdict _ _ => False
  | attest _ => True

/-- A status other than `200` is an exception of the JSON task. -/
lemma jsonOutcome_of_rejected (msg : String) {o : Outcome} (ho : o.Rejected) :
    ∃ what, jsonOutcome msg o = .error (.runtimeError what) := by
  cases o with
  | failed e => exact ho.elim
  | replied res => exact ⟨_, if_neg ho⟩

/-- **Only the blind endings report success on a rejection.** -/
lemma Ending.reports_rejected_iff (ending : Ending) {o : Outcome} (ho : o.Rejected) :
    (∃ r, orStatus ((ending.apply o).map some) = .ok (some r) ∧ r.ReportsSuccess)
      ↔ ending.Blind := by
  cases ending with
  | sink =>
      cases o with
      | failed e => exact ho.elim
      | replied res => exact iff_of_true ⟨_, rfl, rfl⟩ trivial
  | json msg =>
      obtain ⟨what, hj⟩ := jsonOutcome_of_rejected msg ho
      refine iff_of_false ?_ id
      rintro ⟨r, hr, hs⟩
      rw [Ending.apply, hj] at hr
      cases hr
      cases hs
  | verdict msg judge =>
      obtain ⟨what, hj⟩ := jsonOutcome_of_rejected msg ho
      refine iff_of_false ?_ id
      rintro ⟨r, hr, hs⟩
      rw [Ending.apply, messageOutcome, hj] at hr
      cases hr
      cases hs
  | attest msg =>
      obtain ⟨what, hj⟩ := jsonOutcome_of_rejected msg ho
      refine iff_of_true ⟨makeAttestationResponse {}, ?_, trivial⟩ trivial
      rw [Ending.apply, messageOutcome, hj]
      rfl

/-- Nor do they leave anything to log. -/
lemma Ending.Blind.errmsgs_eq_nil {ending : Ending} (h : ending.Blind) {o : Outcome}
    (ho : o.Rejected) : errmsgs (ending.apply o) = [] := by
  cases ending with
  | sink =>
      cases o with
      | failed e => exact ho.elim
      | replied res => rfl
  | json msg => exact h.elim
  | verdict msg judge => exact h.elim
  | attest msg =>
      obtain ⟨what, hj⟩ := jsonOutcome_of_rejected msg ho
      rw [Ending.apply, messageOutcome, hj]
      rfl

/-- An exception is never reported as a success. -/
lemma not_reportsSuccess_of_error {e : Exc} {r : Response}
    (h : orStatus (.error e) = .ok (some r)) : ¬ r.ReportsSuccess := by
  rw [orStatus] at h
  split at h
  · cases h
    exact Bool.false_ne_true
  · cases h

namespace Manager

variable (env : Env)

/-- The ending of a plan is blind exactly when its command ignores the reply. -/
lemma planOf_blind {cmd : Command} {pl : Plan} (hp : planOf env cmd = some pl) :
    (pl.Asks fun _ ending => ending.Blind) ↔ IgnoresReply cmd := by
  unfold planOf at hp
  unfold IgnoresReply
  cases ht : cmd.type <;> rw [ht] at hp <;> cases hp <;>
    simp [hasLegacyKey_iff, List.ne_nil_iff_exists_cons, Ending.Blind]

/-- The three handlers that use the table look at every status but one. -/
lemma not_ignoresReply_of_table {cmd : Command}
    (ht : cmd.type = .createPrincipal ∨ cmd.type = .deletePrincipal ∨
      cmd.type = .getLocalPrincipal) : ¬ IgnoresReply cmd := by
  rcases ht with ht | ht | ht <;> rw [IgnoresReply, ht] <;> exact id

/-! ## Exactly the unrejected commands are reported honestly -/

lemma honestReport_iff_answer (cmd : Command) (d : Daemon) :
    HonestReport env cmd d ↔ ∀ r, (answer env cmd d).1 = .ok (some r) → r.ReportsSuccess →
      ∀ e ∈ (answer env cmd d).2.exchanges.drop d.exchanges.length, ¬ e.outcome.Rejected := by
  constructor
  · intro h r hr
    obtain ⟨hd, hw⟩ := (dispatch_wrote env).mpr ⟨hr, rfl⟩
    intro hs e he
    exact h _ r hd hw hs e he
  · intro h d' r hd hw
    obtain ⟨hr, rfl⟩ := (dispatch_wrote env).mp ⟨hd, hw⟩
    exact h r hr

lemma planOf_ne_create {cmd : Command} {pl : Plan} (hp : planOf env cmd = some pl) :
    cmd.type ≠ .createPrincipal := by
  intro ht
  rw [planOf, ht] at hp
  cases hp

/-- Commands that read every status they get are never at fault. -/
lemma unrejected_of_not_ignores {cmd : Command} (hi : ¬ IgnoresReply cmd)
    (ht : cmd.type ≠ .createPrincipal) (d : Daemon) : Unrejected env cmd d :=
  ⟨fun h => absurd h hi, fun h => absurd h ht⟩

lemma ask_honest_iff {cmd : Command} {req : Request} {ending : Ending}
    (hp : planOf env cmd = some (.ask req ending)) (d : Daemon) :
    (∀ r, env.platform.printing (texts ending (env.replies d.exchanges.length))
          (orStatus ((ending.apply (env.replies d.exchanges.length)).map some)) = .ok (some r) →
        r.ReportsSuccess → ¬ (env.replies d.exchanges.length).Rejected)
      ↔ Unrejected env cmd d := by
  have hblind : ending.Blind ↔ IgnoresReply cmd := planOf_blind env hp
  by_cases ho : (env.replies d.exchanges.length).Rejected
  · have hreports := ending.reports_rejected_iff ho
    rw [hblind] at hreports
    constructor
    · intro h
      refine unrejected_of_not_ignores env (fun hi => ?_) (planOf_ne_create env hp) d
      obtain ⟨r, hr, hs⟩ := hreports.mpr hi
      refine h r ?_ hs ho
      have hpath : PathPlain cmd := pathPlain_of_ne
        (fun ht => by rw [IgnoresReply, ht] at hi; exact hi)
        fun ht => by rw [IgnoresReply, ht] at hi; exact hi
      rw [printing_texts env hp hpath, (hblind.mpr hi).errmsgs_eq_nil ho]
      exact hr
    · intro h r hr hs
      exact h.1 (hreports.mp ⟨r, (printing_eq_ok.mp hr).2, hs⟩)
  · exact iff_of_true (fun _ _ _ => ho)
      ⟨fun _ => ho, fun ht => absurd ht (planOf_ne_create env hp)⟩

lemma not_rejected_of_key {o : Outcome} {key : String} (h : keyOutcome o = .ok key) :
    ¬ o.Rejected := by
  intro ho
  obtain ⟨what, hj⟩ := jsonOutcome_of_rejected "creating instance new" ho
  rw [keyOutcome, hj] at h
  cases h

lemma not_rejected_of_get_error {o : Outcome} {e : Exc} (h : o.get = .error e) :
    ¬ o.Rejected := by
  cases o with
  | failed err => exact id
  | replied res => cases h

/-- A deletion the service rejected is not reported as done. -/
lemma deletion_honest {o : Outcome} {r : Response}
    (h : orStatus ((jsonOutcome "deleting instance" o).map
      fun _ => some (makeStatusResponse true "")) = .ok (some r)) (hr : r.ReportsSuccess) :
    ¬ o.Rejected := by
  intro ho
  obtain ⟨what, hj⟩ := jsonOutcome_of_rejected "deleting instance" ho
  rw [hj] at h
  exact not_reportsSuccess_of_error h hr

/-- **A report is honest exactly when no ignored reply is a rejection**, whatever the command, the
state and the service. -/
theorem honestReport_iff (cmd : Command) (d : Daemon) :
    HonestReport env cmd d ↔ Unrejected env cmd d := by
  rw [honestReport_iff_answer]
  have h := answered env cmd d
  generalize (answer env cmd d).1 = x at h ⊢
  generalize (answer env cmd d).2 = d' at h ⊢
  have htable : ¬ IgnoresReply cmd → cmd.type ≠ .createPrincipal → Unrejected env cmd d :=
    fun hi ht => unrejected_of_not_ignores env hi ht d
  cases h with
  | crash hp =>
      refine iff_of_true (by simp) (htable ?_ (planOf_ne_create env hp))
      rw [← planOf_blind env hp]
      exact id
  | reply hp =>
      refine iff_of_true (by simp) (htable ?_ (planOf_ne_create env hp))
      rw [← planOf_blind env hp]
      exact id
  | ask hp =>
      rw [← ask_honest_iff env hp]
      simp
  | malformed hp hx =>
      have hi := not_ignoresReply_of_table (planOf_eq_none env hp)
      exact iff_of_true (by simp) ⟨fun h => absurd h hi, fun _ h => by simp [hx] at h⟩
  | noKey ht hx hkey =>
      have hi := not_ignoresReply_of_table (.inl ht)
      refine iff_of_true (fun r hr hs => absurd hs
        (not_reportsSuccess_of_error (printing_eq_ok.mp hr).2)) ?_
      exact ⟨fun h => absurd h hi, fun _ _ ⟨key, h⟩ => by simp [hkey] at h⟩
  | noConfig ht hx hkey hget =>
      have hi := not_ignoresReply_of_table (.inl ht)
      refine iff_of_true (fun r hr hs => absurd hs
        (not_reportsSuccess_of_error (printing_eq_ok.mp hr).2)) ?_
      exact ⟨fun h => absurd h hi, fun _ _ _ => not_rejected_of_get_error hget⟩
  | created ht hx hkey hget =>
      have hi := not_ignoresReply_of_table (.inl ht)
      have hfirst := not_rejected_of_key hkey
      simp [Unrejected, hi, ht, hx, hkey, hfirst, makeStatusResponse, Response.ReportsSuccess]
  | refused ht =>
      exact iff_of_true (by simp) (htable (not_ignoresReply_of_table (.inr (.inl ht)))
        (by simp [ht]))
  | notFound ht =>
      exact iff_of_true (by simp) (htable (not_ignoresReply_of_table (.inr (.inl ht)))
        (by simp [ht]))
  | deleted ht =>
      refine iff_of_true ?_ (htable (not_ignoresReply_of_table (.inr (.inl ht))) (by simp [ht]))
      intro r hr hs
      have ho := deletion_honest (printing_eq_ok.mp hr).2 hs
      simpa using ho
  | looked ht =>
      exact iff_of_true (by simp) (htable (not_ignoresReply_of_table (.inr (.inr ht)))
        (by simp [ht]))

/-- An access list that the service answers with status `500`. -/
theorem postAcl_rejected : ¬ HonestReport (.inOrder fun _ => .replied ⟨500, .ok .null⟩)
    { type := .postAcl
      auth := "10.0.0.1:4144"
      statement := .packed (.postACL { name := "file", policies := ["owner"] }) } {} := by
  intro h
  have hreply := h _ (makeStatusResponse true "") rfl rfl rfl _ (List.mem_singleton_self _)
  exact hreply (show (500 : ℕ) ≠ 200 by decide)

end Manager

end Libport
