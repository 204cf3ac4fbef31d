import Libport.Server.Dispatch

/-!
# Who may delete a principal

`delete_principal` compares the pid of the session with the speaker of the latest generation of
the id, and then erases every generation.  Nothing stops a session from creating a further
generation of an id that another session registered, so the test can pass on the intruder's own
entry while the erase takes the others with it.

* `DeletionPrivilege` says of a whole run that an entry disappears only by a delete of its own
  speaker or of uid `0`, and that the speaker is the pid of the session that created it.
* `Unshadowed` is the condition on one step: a session that owns the newest generation of the id
  it deletes owns every generation of it.
* **`deletionPrivilege_of_unshadowed`**: the privilege holds over every run whose steps are
  unshadowed.
* `unshadowed_of_ownIds`: runs in which no session creates an id that is live under another pid
  have only unshadowed steps.
* `shadowed_deletion`: three commands after which the first session's entry is gone.
-/

namespace Libport

namespace Manager

variable (env : Env)

/-- The commands were served one after the other by a fresh daemon and left it in `d`. -/
def Served (cmds : List Command) (d : Daemon) : Prop :=
  Action.forEach (serve env) cmds {} = (.ok (), d)

/-- `cmd` registered the entry `e`. -/
def Created (cmd : Command) (e : UInt64 × Principal) : Prop :=
  cmd.type = .createPrincipal ∧ ∃ p, extractPrincipal cmd = some p ∧
    e = (p.id, { p with gn := e.2.gn, speaker := cmd.pid })

/-- Over the whole run, every entry was registered by a command of its speaker's pid, and an entry
disappears only by a delete of that pid or of uid `0`. -/
def DeletionPrivilege (cmds : List Command) : Prop :=
  ∀ before cmd d, before ++ [cmd] <+: cmds → Served env before d →
    ∀ e ∈ d.principals, (∃ c ∈ before, Created c e ∧ c.pid = e.2.speaker) ∧
      (e ∉ (serve env cmd d).2.principals →
        cmd.type = .deletePrincipal ∧ (cmd.pid = e.2.speaker ∨ cmd.uid = 0))

/-- When a session other than root deletes an id and some newest generation of it is the
session's own, then every generation of it is. -/
def Unshadowed (cmd : Command) (d : Daemon) : Prop :=
  cmd.type = .deletePrincipal → cmd.uid ≠ 0 → ∀ p, extractPrincipal cmd = some p →
    ∀ l, (p.id, l) ∈ d.principals → (∀ e ∈ d.principals, e.1 = p.id → e.2.gn ≤ l.gn) →
      l.speaker = cmd.pid → ∀ e ∈ d.principals, e.1 = p.id → e.2.speaker = cmd.pid

/-! ## One step -/

lemma serve_principals (cmd : Command) (d : Daemon) :
    (serve env cmd d).2.principals = (answer env cmd d).2.principals := by
  rw [serve, Action.bind_run, dispatch_run]
  rcases answer env cmd d with ⟨x, d'⟩
  cases x <;> rfl

/-- What one served command can do to the table. -/
lemma serve_table (cmd : Command) (d : Daemon) :
    (serve env cmd d).2.principals = d.principals ∨
    (∃ e, Created cmd e ∧ (serve env cmd d).2.principals = e :: d.principals) ∨
    (∃ p l, cmd.type = .deletePrincipal ∧ extractPrincipal cmd = some p ∧
      latest env d p.id = some l ∧ (l.speaker = cmd.pid ∨ cmd.uid = 0) ∧
      (serve env cmd d).2.principals = d.principals.filter fun e => e.1 ≠ p.id) := by
  rw [serve_principals]
  rcases answer_table env cmd d with hsame | ⟨p, ht, hx, hnew⟩ | hdel
  · exact Or.inl hsame
  · exact Or.inr (Or.inl ⟨_, ⟨ht, p, hx, rfl⟩, hnew⟩)
  · exact Or.inr (Or.inr hdel)

/-- An unshadowed step removes an entry only with the privilege to do so. -/
lemma removed_of_unshadowed {cmd : Command} {d : Daemon} (hu : Unshadowed cmd d)
    {e : UInt64 × Principal} (he : e ∈ d.principals)
    (hgone : e ∉ (serve env cmd d).2.principals) :
    cmd.type = .deletePrincipal ∧ (cmd.pid = e.2.speaker ∨ cmd.uid = 0) := by
  rcases serve_table env cmd d with hsame | ⟨c, -, hnew⟩ | ⟨p, l, ht, hx, hl, hpriv, hdel⟩
  · rw [hsame] at hgone
    exact absurd he hgone
  · rw [hnew] at hgone
    exact absurd (List.mem_cons_of_mem _ he) hgone
  · have hid : e.1 = p.id := by
      rw [hdel] at hgone
      simpa [he] using hgone
    refine ⟨ht, ?_⟩
    by_cases huid : cmd.uid = 0
    · exact Or.inr huid
    · have hown : l.speaker = cmd.pid := hpriv.resolve_right huid
      have hall := hu ht huid p hx l (latest_mem env hl) (fun _ => latest_max env hl) hown
      exact Or.inl (hall e he hid).symm

/-! ## Whole runs -/

lemma created_of_served {cmds : List Command} {d : Daemon} (hs : Served env cmds d) :
    ∀ e ∈ d.principals, ∃ c ∈ cmds, Created c e ∧ c.pid = e.2.speaker := by
  refine Action.forEach_inv (I := fun cmds (d : Daemon) =>
    ∀ e ∈ d.principals, ∃ c ∈ cmds, Created c e ∧ c.pid = e.2.speaker) hs (by simp) ?_
  intro done cmd d₁ d₂ _ _ hinv hstep e he
  have hd₂ : (serve env cmd d₁).2 = d₂ := congrArg Prod.snd hstep
  -- an entry that was there before keeps its creator
  have hold : e ∈ d₁.principals → ∃ c ∈ done ++ [cmd], Created c e ∧ c.pid = e.2.speaker := by
    intro hmem
    obtain ⟨c, hc, hcreated⟩ := hinv e hmem
    exact ⟨c, List.mem_append_left _ hc, hcreated⟩
  rw [← hd₂] at he
  rcases serve_table env cmd d₁ with hsame | ⟨new, hnew, htable⟩ | ⟨p, l, -, -, -, -, hdel⟩
  · rw [hsame] at he
    exact hold he
  · rw [htable] at he
    rcases List.mem_cons.mp he with rfl | hmem
    · obtain ⟨ht, p, hx, heq⟩ := hnew
      have hpid : cmd.pid = e.2.speaker := by rw [heq]
      exact ⟨cmd, by simp, ⟨ht, p, hx, heq⟩, hpid⟩
    · exact hold hmem
  · rw [hdel] at he
    exact hold (List.mem_of_mem_filter he)

/-- **Deletion privilege over whole runs.**  In every run whose steps are unshadowed, an entry is
removed only by a delete of its speaker's pid or of uid `0`. -/
theorem deletionPrivilege_of_unshadowed (cmds : List Command)
    (h : ∀ before cmd d, before ++ [cmd] <+: cmds → Served env before d → Unshadowed cmd d) :
    DeletionPrivilege env cmds := by
  intro before cmd d hpre hserved e he
  refine ⟨created_of_served env hserved e he, fun hgone => ?_⟩
  exact removed_of_unshadowed env (h before cmd d hpre hserved) he hgone

/-! ## Sessions that keep to their own ids -/

/-- In the run, no session creates an id that is live under another pid. -/
def OwnIds (cmds : List Command) : Prop :=
  ∀ before cmd d, before ++ [cmd] <+: cmds → Served env before d →
    cmd.type = .createPrincipal → ∀ p, extractPrincipal cmd = some p →
      ∀ e ∈ d.principals, e.1 = p.id → e.2.speaker = cmd.pid

/-- All generations of an id have one speaker. -/
def OneSpeaker (d : Daemon) : Prop :=
  ∀ e ∈ d.principals, ∀ e' ∈ d.principals, e.1 = e'.1 → e.2.speaker = e'.2.speaker

lemma oneSpeaker_of_ownIds {cmds : List Command} (hown : OwnIds env cmds) {d : Daemon}
    (hs : Served env cmds d) : OneSpeaker d := by
  refine Action.forEach_inv (I := fun _ d => OneSpeaker d) hs (by simp [OneSpeaker]) ?_
  intro done cmd d₁ d₂ hpre hdone hinv hstep
  have hd₂ : (serve env cmd d₁).2 = d₂ := congrArg Prod.snd hstep
  rw [← hd₂, OneSpeaker]
  rcases serve_table env cmd d₁ with hsame | ⟨new, hnew, htable⟩ | ⟨p, l, -, -, -, -, hdel⟩
  · rw [hsame]
    exact hinv
  · obtain ⟨ht, p, hx, heq⟩ := hnew
    have hid : new.1 = p.id := by rw [heq]
    have hpid : new.2.speaker = cmd.pid := by rw [heq]
    have hlive := hown done cmd d₁ hpre hdone ht p hx
    rw [htable]
    intro e he e' he' hee
    rcases List.mem_cons.mp he with rfl | hmem <;> rcases List.mem_cons.mp he' with rfl | hmem'
    · rfl
    · rw [hpid, hlive e' hmem' (hee.symm.trans hid)]
    · rw [hpid, hlive e hmem (hee.trans hid)]
    · exact hinv e hmem e' hmem' hee
  · rw [hdel]
    intro e he e' he' hee
    exact hinv e (List.mem_of_mem_filter he) e' (List.mem_of_mem_filter he') hee

/-- A session that finds its own entry under an id owns all of them. -/
lemma unshadowed_of_oneSpeaker {cmd : Command} {d : Daemon} (hd : OneSpeaker d) :
    Unshadowed cmd d := by
  intro _ _ p _ l hl _ hspeaker e he hid
  rw [hd e he (p.id, l) hl hid, hspeaker]

/-- **Sessions that keep to their own ids take unshadowed steps only.** -/
theorem unshadowed_of_ownIds {cmds : List Command} (hown : OwnIds env cmds)
    {before : List Command} {cmd : Command} {d : Daemon} (hpre : before ++ [cmd] <+: cmds)
    (hserved : Served env before d) : Unshadowed cmd d := by
  have hbefore : before <+: cmds := (List.prefix_append before [cmd]).trans hpre
  have hown' : OwnIds env before := fun done c d' h => hown done c d' (h.trans hbefore)
  exact unshadowed_of_oneSpeaker (oneSpeaker_of_ownIds env hown' hserved)

/-! ## Two runs -/

/-- A service that accepts every instance. -/
def acceptingService : Env :=
  .inOrder fun _ => .replied ⟨200, .ok (.object [("message", .string "['key']")])⟩

/-- `CREATE_PRINCIPAL` or `DELETE_PRINCIPAL` of principal `7` by a session. -/
def principalCommand (type : CommandType) (pid uid : UInt64) : Command :=
  { type := type, pid := pid, uid := uid, statement := .packed (.principal { id := 7 }) }

/-- A session that registers an id nobody else uses, and a second one that tries to delete it. -/
theorem deletionPrivilege_of_foreign_delete : DeletionPrivilege acceptingService
    [principalCommand .createPrincipal 100 1, principalCommand .deletePrincipal 101 2] := by
  refine deletionPrivilege_of_unshadowed _ _ fun before cmd d hpre hserved =>
    unshadowed_of_ownIds _ ?_ hpre hserved
  intro done c d' hc hdone ht
  cases done with
  | nil =>
      cases hdone
      simp
  | cons first rest =>
      -- the only command after the first one is no create
      obtain ⟨-, hc⟩ := List.cons_prefix_cons.mp hc
      cases rest with
      | nil =>
          obtain ⟨rfl, -⟩ := List.cons_prefix_cons.mp hc
          cases ht
      | cons second rest =>
          have hlen := hc.length_le
          simp at hlen

/-- Session `101` creates a second generation of the id that session `100` registered, deletes
the id, and takes the first entry with it. -/
theorem shadowed_deletion : ¬ DeletionPrivilege acceptingService
    [principalCommand .createPrincipal 100 1, principalCommand .createPrincipal 101 2,
      principalCommand .deletePrincipal 101 2] := by
  intro h
  have hfirst := (h [principalCommand .createPrincipal 100 1,
      principalCommand .createPrincipal 101 2] (principalCommand .deletePrincipal 101 2)
    _ (List.prefix_refl _) rfl (7, { id := 7, gn := 0, speaker := 100 }) (by decide)).2
  exact absurd (hfirst (by decide)) (by decide)

end Manager

end Libport
