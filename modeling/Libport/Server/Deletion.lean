import Libport.Server.Privilege

/-!
# What a deletion does

`delete_principal` looks for the newest generation of an id with a running maximum over a bucket
whose order is not known.  Its three steps, the privilege test, the erase and the request to the
service, all have to be about the entry it found.

* `exists_latest`, `id_of_served`: what the search finds is an entry of the id, stored under its own
  id.
* **`deletion_effect`**: in every state that a run of commands reaches, a deletion is refused, finds
  nothing, or removes exactly the entries of its id and reports the newest of them.
-/

namespace Libport

namespace Manager

variable (env : Env)

/-- The state after an accepted deletion of `id`, whose newest entry is `l`. -/
def afterDeletion (env : Env) (d : Daemon) (cmd : Command) (id : UInt64) (l : Principal) :
    Daemon :=
  { d with
    principals := d.principals.filter fun e => e.1 ≠ id
    exchanges := d.exchanges ++
      [⟨formatRequest "/lazyDeleteInstance" cmd.auth [toString id ++ "_" ++ toString l.gn] "",
        env.replies d.exchanges.length⟩] }

/-- Every entry is stored under its own id. -/
lemma id_of_served {cmds : List Command} {d : Daemon} (hserved : Served env cmds d)
    {e : UInt64 × Principal} (he : e ∈ d.principals) : e.2.id = e.1 := by
  obtain ⟨c, -, ⟨-, p, -, heq⟩, -⟩ := created_of_served env hserved e he
  rw [heq]

/-- The lookup finds an entry wherever there is one. -/
lemma exists_latest {d : Daemon} {id : UInt64} (h : ∃ e ∈ d.principals, e.1 = id) :
    ∃ l, latest env d id = some l := by
  obtain ⟨e, he, hid⟩ := h
  rw [← Option.ne_none_iff_exists']
  intro hnone
  exact (latest_eq_none env).mp hnone e he hid

lemma answer_delete {cmd : Command} (htype : cmd.type = .deletePrincipal) (d : Daemon) :
    answer env cmd d
      = (env.platform.printing (errmsgs (deletePrincipal env cmd d).1)
          (orStatus (deletePrincipal env cmd d).1), (deletePrincipal env cmd d).2) :=
  answer_handler env (by rw [htype]; rfl) d

/-- **The effect of a deletion.**  In every state that a run of commands reaches, and for every
iteration order at the deletion: without an entry of the id it fails and changes nothing.
Otherwise some entry of the id has the greatest generation and decides: if its speaker is another
pid and the command is not root's, the deletion is refused and changes nothing; if not, exactly
the entries of the id are removed, and one request is made, for the name of that entry. -/
theorem deletion_effect (env env' : Env) {cmds : List Command} {d : Daemon}
    (hserved : Served env cmds d) {cmd : Command} (htype : cmd.type = .deletePrincipal)
    {p : Principal} (hp : extractPrincipal cmd = some p) :
    ((∀ e ∈ d.principals, e.1 ≠ p.id) → answer env' cmd d
        = (.ok (some (makeStatusResponse false "latest principal not found")), d)) ∧
      ((∃ e ∈ d.principals, e.1 = p.id) → ∃ l, (p.id, l) ∈ d.principals ∧
        (∀ e ∈ d.principals, e.1 = p.id → e.2.gn ≤ l.gn) ∧
        ((l.speaker ≠ cmd.pid ∧ cmd.uid ≠ 0) → answer env' cmd d
          = (.ok (some (makeStatusResponse false "privilege not matching")), d)) ∧
        (¬ (l.speaker ≠ cmd.pid ∧ cmd.uid ≠ 0) →
          (answer env' cmd d).2 = afterDeletion env' d cmd p.id l)) := by
  rw [answer_delete env' htype]
  constructor
  · intro habsent
    rw [deletePrincipal_absent env' hp ((latest_eq_none env').mpr habsent)]
    rfl
  · intro hpresent
    obtain ⟨l, hl⟩ := exists_latest env' hpresent
    have hmem := latest_mem env' hl
    refine ⟨l, hmem, fun e he hid => latest_max env' hl he hid, ?_, ?_⟩
    · rintro ⟨hspeaker, huid⟩
      rw [deletePrincipal_refused env' hp hl (not_or.mpr ⟨hspeaker, huid⟩)]
      rfl
    · intro hpriv
      have hallowed : l.speaker = cmd.pid ∨ cmd.uid = 0 := by
        by_contra hnot
        exact hpriv (not_or.mp hnot)
      have hname : principalName l = toString p.id ++ "_" ++ toString l.gn := by
        rw [principalName, id_of_served env hserved hmem]
      rw [deletePrincipal_allowed env' hp hl hallowed, deleteRequest, hname]
      rfl

/-- Root deletes an id of which two generations were created. -/
theorem deletion_effect_generations :
    let create := principalCommand .createPrincipal 100 1
    let delete := principalCommand .deletePrincipal 100 0
    let d := (Action.forEach (serve acceptingService) [create, create] {}).2
    d.principals.map (fun e => (e.1, e.2.gn)) = [(7, 1), (7, 0)] ∧
      ∃ l, (7, l) ∈ d.principals ∧ (∀ e ∈ d.principals, e.1 = 7 → e.2.gn ≤ l.gn) ∧
        (answer acceptingService delete d).2 = afterDeletion acceptingService d delete 7 l := by
  intro create delete d
  have hserved : Served acceptingService [create, create] d := rfl
  have htype : delete.type = .deletePrincipal := rfl
  have hp : extractPrincipal delete = some { id := 7 } := rfl
  obtain ⟨l, hmem, hmax, -, haccepted⟩ :=
    (deletion_effect acceptingService acceptingService hserved htype hp).2
      ⟨_, List.mem_cons_self, rfl⟩
  exact ⟨rfl, l, hmem, hmax, haccepted fun h => h.2 rfl⟩

end Manager

end Libport
