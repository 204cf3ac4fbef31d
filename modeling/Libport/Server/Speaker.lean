import Libport.Server.Dispatch

/-!
# In whose name a statement is made

The body of a request names the principal that speaks.  A command that makes a statement carries
that principal in its `auth` field, and the handler passes it by hand to the metadata client.
Three operations of the client drop the argument and speak as `IAAS_IDENTITY` instead:
`endorse_attester`, `endorse_attester_on_source` and `endorse_builder`.

* `SpeaksForItself`: every request made for the command names the command's own `auth`.
* `SpeaksAsIaas` lists the statements that reach one of the three operations.
* **`speaksForItself_iff`**: a statement speaks for itself unless it is one of those, made by
  somebody else than the infrastructure.
* `attester_speaks_as_iaas`: a client whose attester endorsement is posted in the name of the
  infrastructure.
-/

namespace Libport

/-- The command types that make a statement. -/
def CommandType.MakesStatement : CommandType → Prop
  | createPrincipal | deletePrincipal | endorse | endorseMembership | endorseAttesterImage
  | endorseBuilderImage | endorseSourceImage | postAcl | linkImage | freeCall => True
  | _ => False

namespace Manager

variable (env : Env)

/-- The requests made while the command is handled. -/
def posted (cmd : Command) (d : Daemon) : List Exchange :=
  (dispatch env cmd record d).2.exchanges.drop d.exchanges.length

/-- Every request made for the command is in the name of its `auth` field. -/
def SpeaksForItself (cmd : Command) (d : Daemon) : Prop :=
  ∀ e ∈ posted env cmd d, e.request.principal = cmd.auth

/-- The statement reaches an operation that speaks as `IAAS_IDENTITY`: an endorsement of an
attester, or of a builder on an image. -/
def SpeaksAsIaas (cmd : Command) : Prop :=
  match cmd.type with
  | .endorseAttesterImage => ∃ m, extractEndorse cmd = some m ∧ HasLegacyKey m.config
  | .endorseBuilderImage => ∃ m, extractEndorse cmd = some m ∧ m.endorsements ≠ [] ∧
      HasLegacyKey m.config ∧ m.type ≠ .source
  | _ => False

@[simp] lemma formatRequest_principal (path speaker : String) (values : List String)
    (bearer : String) : (formatRequest path speaker values bearer).principal = speaker := rfl

/-- The request of a statement is in another name exactly when the statement speaks as the
infrastructure and is not made by it. -/
lemma planOf_foreign {cmd : Command} (hs : cmd.type.MakesStatement) {pl : Plan}
    (hp : planOf env cmd = some pl) :
    (pl.Asks fun req _ => req.principal ≠ cmd.auth)
      ↔ SpeaksAsIaas cmd ∧ iaasIdentity ≠ cmd.auth := by
  unfold planOf at hp
  unfold SpeaksAsIaas
  cases ht : cmd.type <;> rw [ht] at hp hs <;> first | exact hs.elim | cases hp
  all_goals simp [hasLegacyKey_iff, List.ne_nil_iff_exists_cons, ← and_assoc]

lemma posted_eq (cmd : Command) (d : Daemon) :
    posted env cmd d = (answer env cmd d).2.exchanges.drop d.exchanges.length := by
  rw [posted, dispatch_run]
  rcases answer env cmd d with ⟨x, d'⟩
  cases x <;> rfl

/-- A request in a name other than the client's is made exactly for the statements that speak as
the infrastructure. -/
lemma exists_foreign_iff {cmd : Command} (hs : cmd.type.MakesStatement) (d : Daemon) :
    (∃ e ∈ posted env cmd d, e.request.principal ≠ cmd.auth)
      ↔ SpeaksAsIaas cmd ∧ iaasIdentity ≠ cmd.auth := by
  rw [posted_eq]
  have h := answered env cmd d
  generalize (answer env cmd d).1 = x at h
  generalize (answer env cmd d).2 = d' at h ⊢
  have htable : cmd.type = .createPrincipal ∨ cmd.type = .deletePrincipal →
      ¬ (SpeaksAsIaas cmd ∧ iaasIdentity ≠ cmd.auth) := by
    rintro (ht | ht) ⟨hiaas, -⟩ <;> rw [SpeaksAsIaas, ht] at hiaas <;> exact hiaas
  cases h with
  | crash hp => exact iff_of_false (by simp) (mt (planOf_foreign env hs hp).mpr id)
  | reply hp => exact iff_of_false (by simp) (mt (planOf_foreign env hs hp).mpr id)
  | ask hp =>
      rw [← planOf_foreign env hs hp]
      simp [Plan.Asks]
  | malformed hp hx =>
      refine iff_of_false (by simp) ?_
      rcases planOf_eq_none env hp with ht | ht | ht
      · exact htable (.inl ht)
      · exact htable (.inr ht)
      · rw [ht] at hs
        exact hs.elim
  | noKey ht => exact iff_of_false (by simp [instanceRequest]) (htable (.inl ht))
  | noConfig ht => exact iff_of_false (by simp [instanceRequest, configRequest]) (htable (.inl ht))
  | created ht => exact iff_of_false (by simp [instanceRequest, configRequest]) (htable (.inl ht))
  | refused ht => exact iff_of_false (by simp) (htable (.inr ht))
  | notFound ht => exact iff_of_false (by simp) (htable (.inr ht))
  | deleted ht => exact iff_of_false (by simp [deleteRequest]) (htable (.inr ht))
  | looked ht =>
      rw [ht] at hs
      exact hs.elim

/-- **A statement speaks for itself unless it reaches an operation that speaks as the
infrastructure**, and then only when the infrastructure makes it. -/
theorem speaksForItself_iff (cmd : Command) (hs : cmd.type.MakesStatement) (d : Daemon) :
    SpeaksForItself env cmd d ↔ (SpeaksAsIaas cmd → cmd.auth = iaasIdentity) := by
  have h := not_congr (exists_foreign_iff env hs d)
  push Not at h
  rw [SpeaksForItself, h]
  exact forall_congr' fun _ => eq_comm

/-- Two statements of different clients, neither of them one that speaks as the infrastructure,
are never made in one name. -/
theorem distinct_speakers {c₁ c₂ : Command} (hs₁ : c₁.type.MakesStatement)
    (hs₂ : c₂.type.MakesStatement) (hi₁ : ¬ SpeaksAsIaas c₁) (hi₂ : ¬ SpeaksAsIaas c₂)
    (hne : c₁.auth ≠ c₂.auth) (d₁ d₂ : Daemon) {e₁ e₂ : Exchange}
    (he₁ : e₁ ∈ posted env c₁ d₁) (he₂ : e₂ ∈ posted env c₂ d₂) :
    e₁.request.principal ≠ e₂.request.principal := by
  have h₁ : e₁.request.principal = c₁.auth := by
    by_contra hother
    exact hi₁ ((exists_foreign_iff env hs₁ d₁).mp ⟨e₁, he₁, hother⟩).1
  have h₂ : e₂.request.principal = c₂.auth := by
    by_contra hother
    exact hi₂ ((exists_foreign_iff env hs₂ d₂).mp ⟨e₂, he₂, hother⟩).1
  rw [h₁, h₂]
  exact hne

/-- An endorsement of image `img` by the client `auth`. -/
def imageEndorsement (type : CommandType) (auth : String) : Command :=
  { type := type
    auth := auth
    statement := .packed (.endorse
      { id := "img", config := .single legacyConfigKey "*", endorsements := [{}] }) }

/-- A source endorsement goes out in the client's own name. -/
theorem source_speaksForItself :
    SpeaksForItself (.inOrder fun _ => .failed (.http "timeout"))
      (imageEndorsement .endorseSourceImage "10.0.0.1:4144") {} :=
  (speaksForItself_iff _ (imageEndorsement .endorseSourceImage "10.0.0.1:4144") trivial _).mpr
    fun h => h.elim

/-- An attester endorsement of any client goes out in the name of the infrastructure. -/
theorem attester_speaks_as_iaas :
    ¬ SpeaksForItself (.inOrder fun _ => .failed (.http "timeout"))
      (imageEndorsement .endorseAttesterImage "10.0.0.1:4144") {} := by
  intro h
  have hname : iaasIdentity = "10.0.0.1:4144" := h _ (List.mem_singleton_self _)
  exact absurd hname (by decide)

end Manager

end Libport
