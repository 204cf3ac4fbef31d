import Libport.Server.Plan

/-!
# The table of local principals

What the three handlers that use `principals_` do to it.

* `latest_eq_none`, `latest_mem`, `latest_max`: the lookup loop selects an entry of the id with
  the greatest generation, in whatever order the bucket is iterated, and selects none only when
  there is none.
* `createInstance_run`: the two requests of a creation, with the point at which each failure
  abandons it; `deleteInstance_run`: the one request of a deletion.
* `createPrincipal_run`, `deletePrincipal_allowed` and its siblings, `getLocalPrincipal_run`: the
  exact end and state of each of the three handlers on a principal statement.
-/

namespace Libport

namespace Manager

/-! ## The lookup loop -/

/-- The loop invariant: `maxgn` is the generation of the candidate, and `0` while there is
none. -/
def ScanInv (maxgn : UInt64) (candidate : Option Principal) : Prop :=
  (candidate = none → maxgn = 0) ∧ ∀ q, candidate = some q → q.gn = maxgn

lemma scanLatest_mem : ∀ (l : List (UInt64 × Principal)) (maxgn : UInt64)
    (candidate : Option Principal) (p : Principal), scanLatest l maxgn candidate = some p →
      candidate = some p ∨ ∃ e ∈ l, e.2 = p
  | [], _, _, _, h => Or.inl h
  | (k, q) :: rest, maxgn, candidate, p, h => by
      rw [scanLatest] at h
      split_ifs at h
      · rcases scanLatest_mem rest q.gn (some q) p h with hq | ⟨e, he, hp⟩
        · exact Or.inr ⟨(k, q), List.mem_cons_self, Option.some.inj hq⟩
        · exact Or.inr ⟨e, List.mem_cons_of_mem _ he, hp⟩
      · rcases scanLatest_mem rest maxgn candidate p h with hc | ⟨e, he, hp⟩
        · exact Or.inl hc
        · exact Or.inr ⟨e, List.mem_cons_of_mem _ he, hp⟩

lemma scanLatest_max : ∀ (l : List (UInt64 × Principal)) (maxgn : UInt64)
    (candidate : Option Principal) (p : Principal), ScanInv maxgn candidate →
      scanLatest l maxgn candidate = some p → maxgn ≤ p.gn ∧ ∀ e ∈ l, e.2.gn ≤ p.gn
  | [], maxgn, candidate, p, hinv, h => by
      rw [scanLatest] at h
      exact ⟨UInt64.le_of_eq (hinv.2 p h).symm, by simp⟩
  | (k, q) :: rest, maxgn, candidate, p, hinv, h => by
      rw [scanLatest] at h
      split_ifs at h with hle
      · have hq : ScanInv q.gn (some q) := ⟨nofun, fun _ hr => by rw [Option.some.inj hr]⟩
        obtain ⟨hm, hrest⟩ := scanLatest_max rest q.gn (some q) p hq h
        exact ⟨UInt64.le_trans hle hm, List.forall_mem_cons.mpr ⟨hm, hrest⟩⟩
      · obtain ⟨hm, hrest⟩ := scanLatest_max rest maxgn candidate p hinv h
        have hq : q.gn ≤ p.gn := UInt64.le_trans (UInt64.le_of_lt (UInt64.not_le.mp hle)) hm
        exact ⟨hm, List.forall_mem_cons.mpr ⟨hq, hrest⟩⟩

lemma scanLatest_isSome : ∀ (l : List (UInt64 × Principal)) (maxgn : UInt64) (q : Principal),
    ∃ p, scanLatest l maxgn (some q) = some p
  | [], _, q => ⟨q, rfl⟩
  | (k, r) :: rest, maxgn, q => by
      rw [scanLatest]
      split_ifs
      · exact scanLatest_isSome rest r.gn r
      · exact scanLatest_isSome rest maxgn q

variable (env : Env)

lemma mem_equalRange {principals : List (UInt64 × Principal)} {id : UInt64}
    {e : UInt64 × Principal} :
    e ∈ equalRange env principals id ↔ e ∈ principals ∧ e.1 = id := by
  rw [equalRange, (env.bucketOrder_perm _).mem_iff]
  simp

lemma latest_eq_none {d : Daemon} {id : UInt64} :
    latest env d id = none ↔ ∀ e ∈ d.principals, e.1 ≠ id := by
  rw [latest]
  constructor
  · intro h e he hid
    have hmem : e ∈ equalRange env d.principals id := (mem_equalRange env).mpr ⟨he, hid⟩
    cases hl : equalRange env d.principals id with
    | nil => simp [hl] at hmem
    | cons x rest =>
        rw [hl, scanLatest, if_pos UInt64.zero_le] at h
        obtain ⟨p, hp⟩ := scanLatest_isSome rest x.2.gn x.2
        exact absurd (h.symm.trans hp) nofun
  · intro h
    have hl : equalRange env d.principals id = [] :=
      List.eq_nil_iff_forall_not_mem.mpr fun e he =>
        h e ((mem_equalRange env).mp he).1 ((mem_equalRange env).mp he).2
    rw [hl, scanLatest]

lemma latest_mem {d : Daemon} {id : UInt64} {p : Principal} (h : latest env d id = some p) :
    (id, p) ∈ d.principals := by
  rcases scanLatest_mem _ _ _ _ h with hn | ⟨e, he, rfl⟩
  · exact absurd hn nofun
  · obtain ⟨hmem, hid⟩ := (mem_equalRange env).mp he
    rw [← hid]
    exact hmem

/-- **The selected principal has the greatest generation of its id**, in every iteration
order. -/
lemma latest_max {d : Daemon} {id : UInt64} {p : Principal} (h : latest env d id = some p)
    {e : UInt64 × Principal} (he : e ∈ d.principals) (hid : e.1 = id) : e.2.gn ≤ p.gn := by
  have hinv : ScanInv 0 none := ⟨fun _ => rfl, nofun⟩
  exact (scanLatest_max _ _ _ _ hinv h).2 e ((mem_equalRange env).mpr ⟨he, hid⟩)

end Manager

/-! ## Creating and deleting an instance

The requests of the two operations, and the exact run of each.  A creation is abandoned at the
first request when no key can be read from its reply, and at the second only when that request
fails in transport.
-/

/-- The key that a creation reads from the reply to its first request. -/
def keyOutcome (o : Outcome) : Except Exc String :=
  match jsonOutcome "creating instance new" o with
  | .ok v => extractSafeIdentity v
  | .error e => .error e

/-- A `catch (std::runtime_error &e)` that throws `e` again changes nothing. -/
lemma catchRuntime_rethrow {σ α : Type} (act : Action Exc σ α) :
    catchRuntime act (fun what => Action.throw (.runtimeError what)) = act := by
  funext s
  rw [catchRuntime, Action.catching_run]
  rcases act s with ⟨x, s'⟩
  cases x with
  | ok a => rfl
  | error e => cases e <;> rfl

lemma createInstance_run (platform : Platform) (replies : ℕ → Outcome)
    (speaker pid image ip : String) (lo hi : UInt32) (imageStore : String)
    (configs : List (String × String)) (log : List Exchange) :
    MetadataServiceClient.createInstance platform replies speaker pid image ip lo hi imageStore
        configs log
      = match keyOutcome (replies log.length) with
        | .error e => (.error e, log ++ [⟨formatRequest "/postInstance" speaker
            [pid, image, formatId ip (asInt lo) (asInt hi), imageStore] "", replies log.length⟩])
        | .ok _ => ((replies (log.length + 1)).get.map fun _ => true,
            log ++ [⟨formatRequest "/postInstance" speaker
                [pid, image, formatId ip (asInt lo) (asInt hi), imageStore] "",
                replies log.length⟩,
              ⟨formatRequest "/postInstanceConfig" speaker
                (MetadataServiceClient.configStatements pid configs) "",
                replies (log.length + 1)⟩]) := by
  rw [MetadataServiceClient.createInstance, catchRuntime_rethrow, Action.bind_run,
    Action.bind_run, jsonPost_plain_run platform replies log (platform.parsesUri_plain _ rfl) _ _ _
      (by decide), keyOutcome]
  cases jsonOutcome "creating instance new" (replies log.length) with
  | error e => rfl
  | ok v =>
      simp only [Action.ofExcept_run]
      cases extractSafeIdentity v with
      | error e => rfl
      | ok key =>
          simp only [Action.bind_run]
          rw [sinkPost_run platform replies _ (platform.parsesUri_plain _ rfl) _ _ (by decide)]
          simp only [List.length_append, List.length_cons, List.length_nil, List.append_assoc,
            List.cons_append, List.nil_append]
          cases (replies (log.length + (0 + 1))).get <;> rfl

lemma deleteInstance_run (platform : Platform) (replies : ℕ → Outcome) (speaker pid : String)
    (log : List Exchange) :
    MetadataServiceClient.deleteInstance platform replies speaker pid log
      = ((jsonOutcome "deleting instance" (replies log.length)).map fun _ => true,
          log ++ [⟨formatRequest "/lazyDeleteInstance" speaker [pid] "",
            replies log.length⟩]) := by
  rw [MetadataServiceClient.deleteInstance, Action.bind_run,
    jsonPost_plain_run platform replies log (platform.parsesUri_plain _ rfl) _ _ _ (by decide)]
  cases jsonOutcome "deleting instance" (replies log.length) <;> rfl

namespace Manager

variable (env : Env)

/-- The `/postInstance` request for the principal `p`. -/
def instanceRequest (cmd : Command) (p : Principal) : Request :=
  formatRequest "/postInstance" cmd.auth
    [principalName p, p.code.image, formatId p.auth.ip (asInt p.auth.portLo) (asInt p.auth.portHi),
      if p.code.imageStore = "" then cmd.auth else p.code.imageStore] ""

/-- The `/postInstanceConfig` request for the principal `p`. -/
def configRequest (cmd : Command) (p : Principal) : Request :=
  formatRequest "/postInstanceConfig" cmd.auth
    (MetadataServiceClient.configStatements (principalName p)
      (env.configOrder p.code.config.entries)) ""

/-- The `/lazyDeleteInstance` request for the principal `p`. -/
def deleteRequest (cmd : Command) (p : Principal) : Request :=
  formatRequest "/lazyDeleteInstance" cmd.auth [principalName p] ""

/-- The exact run of `create_principal` on a principal statement. -/
lemma createPrincipal_run {cmd : Command} {p : Principal} (h : extractPrincipal cmd = some p)
    (d : Daemon) :
    createPrincipal env cmd d
      = match keyOutcome (env.replies d.exchanges.length) with
        | .error e => (.error e, { d with
            gn := d.gn + 1
            exchanges := d.exchanges ++
              [⟨instanceRequest cmd { p with gn := d.gn }, env.replies d.exchanges.length⟩] })
        | .ok _ =>
            let posted := d.exchanges ++
              [⟨instanceRequest cmd { p with gn := d.gn }, env.replies d.exchanges.length⟩,
                ⟨configRequest env cmd { p with gn := d.gn },
                  env.replies (d.exchanges.length + 1)⟩]
            match (env.replies (d.exchanges.length + 1)).get with
            | .error e => (.error e, { d with gn := d.gn + 1, exchanges := posted })
            | .ok _ => (.ok (some (makeStatusResponse true "")), { d with
                gn := d.gn + 1
                exchanges := posted
                principals :=
                  (p.id, { p with gn := d.gn, speaker := cmd.pid }) :: d.principals }) := by
  simp only [createPrincipal, h, nextGn, Action.bind_run, Action.get_run, Action.modify_run,
    Action.pure_run, service, Action.zoom_run, createInstance_run]
  cases keyOutcome (env.replies d.exchanges.length) with
  | error e => rfl
  | ok key => cases (env.replies (d.exchanges.length + 1)).get <;> rfl

/-- `delete_principal` refuses when the latest generation belongs to another pid. -/
lemma deletePrincipal_refused {cmd : Command} {p l : Principal}
    (h : extractPrincipal cmd = some p) {d : Daemon} (hl : latest env d p.id = some l)
    (hpriv : ¬ (l.speaker = cmd.pid ∨ cmd.uid = 0)) :
    deletePrincipal env cmd d
      = (.ok (some (makeStatusResponse false "privilege not matching")), d) := by
  have hany : (latest env d p.id).any (fun l => l.speaker ≠ cmd.pid ∧ cmd.uid ≠ 0) = true := by
    rw [hl]
    simpa [not_or] using hpriv
  simp only [deletePrincipal, h, Action.bind_run, Action.get_run, hany, if_true]
  rfl

lemma deletePrincipal_absent {cmd : Command} {p : Principal}
    (h : extractPrincipal cmd = some p) {d : Daemon} (hl : latest env d p.id = none) :
    deletePrincipal env cmd d
      = (.ok (some (makeStatusResponse false "latest principal not found")), d) := by
  have hkeep : d.principals.filter (fun e => e.1 ≠ p.id) = d.principals :=
    List.filter_eq_self.mpr fun e he => by
      simpa using (latest_eq_none env).mp hl e he
  simp only [deletePrincipal, h, Action.bind_run, Action.get_run, hl, Option.any_none,
    Bool.false_eq_true, if_false, erasePrincipals, Action.modify_run, hkeep]
  rfl

/-- `delete_principal` on an id whose latest generation the session may delete: the erase comes
first, the request after it. -/
lemma deletePrincipal_allowed {cmd : Command} {p l : Principal}
    (h : extractPrincipal cmd = some p) {d : Daemon} (hl : latest env d p.id = some l)
    (hpriv : l.speaker = cmd.pid ∨ cmd.uid = 0) :
    deletePrincipal env cmd d
      = ((jsonOutcome "deleting instance" (env.replies d.exchanges.length)).map
            fun _ => some (makeStatusResponse true ""),
          { d with
            principals := d.principals.filter fun e => e.1 ≠ p.id
            exchanges := d.exchanges ++
              [⟨deleteRequest cmd l, env.replies d.exchanges.length⟩] }) := by
  have hany : (some l).any (fun l => l.speaker ≠ cmd.pid ∧ cmd.uid ≠ 0) = false := by
    rcases hpriv with hpid | huid
    · simp [hpid]
    · simp [huid]
  simp only [deletePrincipal, h, Action.bind_run, Action.get_run, hl, hany, Bool.false_eq_true,
    if_false, erasePrincipals, Action.modify_run, service, Action.zoom_run, deleteInstance_run]
  cases jsonOutcome "deleting instance" (env.replies d.exchanges.length) <;> rfl

lemma getLocalPrincipal_run {cmd : Command} {p : Principal} (h : extractPrincipal cmd = some p)
    (d : Daemon) :
    getLocalPrincipal env cmd d
      = (.ok (some (match latest env d p.id with
          | some l => makePrincipalResponse l
          | none => makeStatusResponse false "not found")), d) := by
  simp only [getLocalPrincipal, h, Action.bind_run, Action.get_run]
  cases latest env d p.id <;> rfl

end Manager

end Libport
