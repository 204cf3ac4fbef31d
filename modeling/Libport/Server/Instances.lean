import Libport.Server.Concurrent

/-!
# The instances of the service

A creation tells the metadata service of an instance in two requests, and a deletion asks for it to
be deleted in one.  The steps of the commands interleave, so an instance is somewhere between the
service's log, the table and the commands in flight.

* `createdNames` and `deletedNames`: the instances of a log that the service accepted, and those
  whose deletion was posted.
* `places`: where an accepted instance can be found.  The last two places are the older generations
  that were erased together with a newer one, and the creations that failed after the service had
  accepted their instance.
* `Accounts`: every created instance is in one place.  `Accounts.step` is one step of any command.
* **`instances_accounted`**: in every interleaving of fewer than `2 ^ 64` creations no instance is
  lost or in two places, none is deleted twice or before it was created, and neither an older
  generation that was erased with a newer one nor an abandoned instance is ever deleted.

The generation is fetched in one step here, as in `World`: `gn_` is a plain counter, and two
threads that step it at the same instant could get one value.
-/

namespace Libport

namespace Manager

/-! ## The log of the service -/

/-- The instance of an exchange on the path. -/
def instanceAt (path : String) (x : Exchange) : Option String :=
  if x.request.path = path then x.request.otherValues.head? else none

/-- The service replied with status `200`. -/
def accepted : Outcome → Bool
  | .failed _ => false
  | .replied res => res.statusCode = statusOk

/-- The instances that the service accepted. -/
def createdNames (log : List Exchange) : List String :=
  log.filterMap fun x => if accepted x.outcome then instanceAt "/postInstance" x else none

/-- The instances whose deletion was posted. -/
def deletedNames (log : List Exchange) : List String :=
  log.filterMap (instanceAt "/lazyDeleteInstance")

@[simp] lemma createdNames_nil : createdNames [] = [] := rfl

@[simp] lemma deletedNames_nil : deletedNames [] = [] := rfl

lemma createdNames_append (log log' : List Exchange) :
    createdNames (log ++ log') = createdNames log ++ createdNames log' := List.filterMap_append

lemma deletedNames_append (log log' : List Exchange) :
    deletedNames (log ++ log') = deletedNames log ++ deletedNames log' := List.filterMap_append

lemma postedNames_append (log log' : List Exchange) :
    postedNames (log ++ log') = postedNames log ++ postedNames log' := List.filterMap_append

/-- No instance is deleted before the service has accepted it. -/
def Ordered (log : List Exchange) : Prop :=
  ∀ front, front <+: log → deletedNames front ⊆ createdNames front

lemma ordered_nil : Ordered [] := by
  intro front hfront
  rw [List.prefix_nil.mp hfront]
  exact List.Subset.refl _

lemma Ordered.concat {log : List Exchange} {x : Exchange} (h : Ordered log)
    (hx : deletedNames [x] ⊆ createdNames log) : Ordered (log ++ [x]) := by
  intro front hfront
  rcases List.prefix_concat_iff.mp hfront with rfl | hfront
  · rw [deletedNames_append, createdNames_append]
    refine List.Subset.trans ?_ (List.subset_append_left _ _)
    exact List.append_subset.mpr ⟨h log List.prefix_rfl, hx⟩
  · exact h front hfront

/-! ## What each step sends -/

/-- A key is read only where the instance was accepted. -/
lemma accepted_of_key {o : Outcome} {key : String} (h : keyOutcome o = .ok key) :
    accepted o = true := by
  rw [keyOutcome] at h
  cases hj : jsonOutcome "creating instance new" o with
  | error e =>
      rw [hj] at h
      cases h
  | ok v =>
      obtain ⟨res, rfl, hs, -⟩ := jsonOutcome_eq_ok.mp hj
      exact decide_eq_true hs

/-- A post ends in one of three ways; it goes past the first request only when the instance was
accepted. -/
lemma postInstance_cases (env : Env) (cmd : Command) (p : Principal) (d : Daemon) :
    (∃ e o, postInstance env cmd p d = (.error e, { d with
        exchanges := d.exchanges ++ [⟨instanceRequest cmd p, o⟩] })) ∨
      (∃ e o o', accepted o = true ∧ postInstance env cmd p d = (.error e, { d with
        exchanges := d.exchanges ++
          [⟨instanceRequest cmd p, o⟩, ⟨configRequest env cmd p, o'⟩] })) ∨
      ∃ o o', accepted o = true ∧ postInstance env cmd p d = (.ok true, { d with
        exchanges := d.exchanges ++
          [⟨instanceRequest cmd p, o⟩, ⟨configRequest env cmd p, o'⟩] }) := by
  simp only [postInstance, service, Action.zoom_run, createInstance_run]
  cases hkey : keyOutcome (env.replies d.exchanges.length) with
  | error e => exact Or.inl ⟨e, _, rfl⟩
  | ok key =>
      have hacc := accepted_of_key hkey
      cases hreply : env.replies (d.exchanges.length + 1) with
      | failed e => exact Or.inr (Or.inl ⟨_, _, .failed e, hacc, rfl⟩)
      | replied res => exact Or.inr (Or.inr ⟨_, .replied res, hacc, rfl⟩)

lemma postDeletion_exchanges (env : Env) (cmd : Command) (l : Principal) (d : Daemon) :
    ∃ o, (postDeletion env cmd l d).2
      = { d with exchanges := d.exchanges ++ [⟨deleteRequest cmd l, o⟩] } := by
  refine ⟨env.replies d.exchanges.length, ?_⟩
  simp only [postDeletion, service, Action.zoom_run, deleteInstance_run]
  rfl

/-- What is erased under the lock, when anything is. -/
lemma lookupAndErase_ok {env : Env} {cmd : Command} {p l : Principal} {d d' : Daemon}
    (h : lookupAndErase env cmd p d = (.ok (.ok l), d')) :
    latest env d p.id = some l ∧ (l.speaker = cmd.pid ∨ cmd.uid = 0) ∧
      d' = { d with principals := d.principals.filter fun e => e.1 ≠ p.id } := by
  simp only [lookupAndErase, Action.bind_run, Action.get_run] at h
  cases hl : latest env d p.id with
  | none =>
      rw [hl] at h
      cases h
  | some l' =>
      rw [hl] at h
      split_ifs at h with hpriv
      · cases h
      · cases h
        refine ⟨rfl, ?_, rfl⟩
        by_contra hnot
        exact hpriv (by simpa using hnot)

section
variable (env : Env) (cmd : Command) (p : Principal) (o : Outcome) (log : List Exchange)

@[simp] lemma postedNames_instanceRequest :
    postedNames (⟨instanceRequest cmd p, o⟩ :: log) = principalName p :: postedNames log := rfl

@[simp] lemma createdNames_instanceRequest :
    createdNames (⟨instanceRequest cmd p, o⟩ :: log)
      = (if accepted o then [principalName p] else []) ++ createdNames log := by
  cases h : accepted o <;> simp [createdNames, instanceAt, instanceRequest, formatRequest, h]

@[simp] lemma deletedNames_instanceRequest :
    deletedNames (⟨instanceRequest cmd p, o⟩ :: log) = deletedNames log := rfl

@[simp] lemma postedNames_configRequest :
    postedNames (⟨configRequest env cmd p, o⟩ :: log) = postedNames log := rfl

@[simp] lemma createdNames_configRequest :
    createdNames (⟨configRequest env cmd p, o⟩ :: log) = createdNames log := by
  cases h : accepted o <;> simp [createdNames, instanceAt, configRequest, formatRequest, h]

@[simp] lemma deletedNames_configRequest :
    deletedNames (⟨configRequest env cmd p, o⟩ :: log) = deletedNames log := rfl

@[simp] lemma postedNames_deleteRequest :
    postedNames (⟨deleteRequest cmd p, o⟩ :: log) = postedNames log := rfl

@[simp] lemma createdNames_deleteRequest :
    createdNames (⟨deleteRequest cmd p, o⟩ :: log) = createdNames log := by
  cases h : accepted o <;> simp [createdNames, instanceAt, deleteRequest, formatRequest, h]

@[simp] lemma deletedNames_deleteRequest :
    deletedNames (⟨deleteRequest cmd p, o⟩ :: log) = principalName p :: deletedNames log := rfl

end

/-! ## The places of an instance -/

/-- The principals of the instances that were accepted: on the way to the table, in the table, on
the way out of it, deleted at the service, left there, and abandoned. -/
def places (w : World) (gone superseded abandoned : List Principal) : List Principal :=
  w.posted.map Job.principal ++ w.daemon.principals.map Prod.snd ++
    w.deleting.map Job.principal ++ gone ++ superseded ++ abandoned

/-- The principals that were erased with the newest generation of their id. -/
def olderGenerations (d : Daemon) (id : UInt64) (l : Principal) : List Principal :=
  ((d.principals.filter fun e => e.1 = id).erase (id, l)).map Prod.snd

/-- The log and the places agree. -/
structure Accounts (gone superseded abandoned : List Principal) (w : World) : Prop where
  deleted : deletedNames w.daemon.exchanges = gone.map principalName
  posted : (createdNames w.daemon.exchanges).Sublist (postedNames w.daemon.exchanges)
  ordered : Ordered w.daemon.exchanges
  /-- nothing is lost -/
  balance : (createdNames w.daemon.exchanges).Perm
    ((places w gone superseded abandoned).map principalName)
  older : ∀ p ∈ superseded, ∃ l ∈ w.deleting.map Job.principal ++ gone, l.id = p.id ∧ p.gn < l.gn

lemma Accounts.initial : Accounts [] [] [] {} where
  deleted := rfl
  posted := List.Sublist.refl _
  ordered := ordered_nil
  balance := List.Perm.refl _
  older := nofun

/-- Requests that delete nothing keep the order. -/
lemma Ordered.append {log : List Exchange} (h : Ordered log) :
    ∀ {rest : List Exchange}, (∀ x ∈ rest, deletedNames [x] = []) → Ordered (log ++ rest) := by
  intro rest
  induction rest using List.reverseRecOn with
  | nil =>
      intro _
      rwa [List.append_nil]
  | append_singleton rest x ih =>
      intro hrest
      rw [← List.append_assoc]
      refine (ih fun y hy => hrest y (List.mem_append_left _ hy)).concat ?_
      rw [hrest x (List.mem_append_right _ (List.mem_singleton_self x))]
      exact List.nil_subset _

section
variable {w : World} {gone superseded abandoned : List Principal}

/-- A creation that has gone through is on its way to the table. -/
lemma Accounts.created (hw : Accounts gone superseded abandoned w) (env : Env) (job : Job)
    {o : Outcome} (o' : Outcome) (ho : accepted o = true) : Accounts gone superseded abandoned
    { w with
      daemon := { w.daemon with
        exchanges := w.daemon.exchanges ++
          [⟨instanceRequest job.cmd job.principal, o⟩,
            ⟨configRequest env job.cmd job.principal, o'⟩] }
      fetched := w.fetched.erase job
      posted := job :: w.posted } where
  deleted := by
    rw [deletedNames_append, deletedNames_instanceRequest, deletedNames_configRequest]
    exact (List.append_nil _).trans hw.deleted
  posted := by
    rw [createdNames_append, postedNames_append, createdNames_instanceRequest, if_pos ho,
      postedNames_instanceRequest, createdNames_configRequest, postedNames_configRequest]
    exact hw.posted.append (List.Sublist.refl _)
  ordered := hw.ordered.append (by simp)
  balance := by
    rw [createdNames_append, createdNames_instanceRequest, if_pos ho, createdNames_configRequest]
    exact (List.perm_append_singleton _ _).trans (hw.balance.cons _)
  older := hw.older

/-- A creation that failed has either left nothing behind, or abandoned its instance. -/
lemma Accounts.failed (hw : Accounts gone superseded abandoned w) (job : Job)
    {rest : List Exchange} (hdeleted : ∀ x ∈ rest, deletedNames [x] = [])
    (hposted : postedNames rest = [principalName job.principal])
    {lost : List Principal} (hlost : lost.Sublist [job.principal])
    (hcreated : createdNames rest = lost.map principalName) :
    Accounts gone superseded (abandoned ++ lost) { w with
      daemon := { w.daemon with exchanges := w.daemon.exchanges ++ rest }
      fetched := w.fetched.erase job } where
  deleted := by
    have hnone : deletedNames rest = [] :=
      List.filterMap_eq_nil_iff.mpr fun x hx => by
        simpa [deletedNames] using hdeleted x hx
    rw [deletedNames_append, hnone]
    exact (List.append_nil _).trans hw.deleted
  posted := by
    rw [createdNames_append, postedNames_append, hcreated, hposted]
    exact hw.posted.append (hlost.map principalName)
  ordered := hw.ordered.append hdeleted
  balance := by
    rw [createdNames_append, hcreated, places, ← List.append_assoc, List.map_append]
    exact hw.balance.append_right _
  older := hw.older

lemma Accounts.insert (hw : Accounts gone superseded abandoned w) {job : Job}
    (hjob : job ∈ w.posted) : Accounts gone superseded abandoned { w with
      daemon := { w.daemon with
        principals := (job.principal.id, { job.principal with speaker := job.cmd.pid })
          :: w.daemon.principals }
      posted := w.posted.erase job } where
  deleted := hw.deleted
  posted := hw.posted
  ordered := hw.ordered
  balance := by
    have hmove := ((List.perm_cons_erase hjob).map Job.principal).map principalName
    refine hw.balance.trans (List.perm_iff_count.mpr fun name => ?_)
    have hcount := hmove.count_eq name
    -- the name of the entry is the one of the job
    have hname : principalName { job.principal with speaker := job.cmd.pid }
        = principalName job.principal := rfl
    simp only [places, List.map_append, List.map_cons, List.count_append, List.count_cons, hname]
      at hcount ⊢
    omega
  older := hw.older

/-- **The erase**: the newest generation is on its way out, and the older ones are superseded. -/
lemma Accounts.erase {n : ℕ} {named : List Principal} (hinv : Inv n named w)
    (hw : Accounts gone superseded abandoned w) (env : Env) (cmd : Command) {id : UInt64}
    {l : Principal} (hl : latest env w.daemon id = some l) :
    Accounts gone (olderGenerations w.daemon id l ++ superseded) abandoned { w with
      daemon := { w.daemon with principals := w.daemon.principals.filter fun e => e.1 ≠ id }
      deleting := ⟨cmd, l⟩ :: w.deleting } where
  deleted := hw.deleted
  posted := hw.posted
  ordered := hw.ordered
  balance := by
    have hmem : (id, l) ∈ w.daemon.principals.filter fun e => e.1 = id :=
      List.mem_filter.mpr ⟨latest_mem env hl, by simp⟩
    have hsplit := (List.filter_append_perm (fun e : UInt64 × Principal => decide (e.1 = id))
      w.daemon.principals).map fun e => principalName e.2
    have herased := (List.perm_cons_erase hmem).map fun e => principalName e.2
    refine hw.balance.trans (List.perm_iff_count.mpr fun name => ?_)
    have hcount := hsplit.count_eq name
    have hcount' := herased.count_eq name
    simp only [places, olderGenerations, List.map_append, List.map_cons, List.map_map,
      List.count_append, List.count_cons, Function.comp_def, decide_not] at hcount hcount' ⊢
    omega
  older := by
    intro p hp
    rcases List.mem_append.mp hp with hp | hp
    · refine ⟨l, List.mem_cons_self, ?_⟩
      obtain ⟨e, he, rfl⟩ := List.mem_map.mp hp
      have hnodup : w.daemon.principals.Nodup := hinv.gn_nodup.of_map
      obtain ⟨hne, he⟩ := ((hnodup.filter _).mem_erase_iff).mp he
      obtain ⟨hmem, hid⟩ := List.mem_filter.mp he
      have hid : e.1 = id := by simpa using hid
      have hgn : e.2.gn ≠ l.gn := fun heq =>
        hne (List.inj_on_of_nodup_map hinv.gn_nodup hmem (latest_mem env hl) heq)
      refine ⟨?_, UInt64.lt_of_le_of_ne (latest_max env hl hmem hid) hgn⟩
      rw [← hinv.own _ (latest_mem env hl), ← hinv.own e hmem, hid]
    · obtain ⟨l', hl', hlater⟩ := hw.older p hp
      exact ⟨l', List.mem_cons_of_mem _ hl', hlater⟩

lemma Accounts.delete (hw : Accounts gone superseded abandoned w) {job : Job}
    (hjob : job ∈ w.deleting) (o : Outcome) :
    Accounts (gone ++ [job.principal]) superseded abandoned { w with
      daemon := { w.daemon with
        exchanges := w.daemon.exchanges ++ [⟨deleteRequest job.cmd job.principal, o⟩] }
      deleting := w.deleting.erase job } := by
  have hmove := (List.perm_cons_erase hjob).map Job.principal
  exact {
    deleted := by
      rw [deletedNames_append, deletedNames_deleteRequest, hw.deleted, List.map_append]
      rfl
    posted := by
      rw [createdNames_append, postedNames_append, createdNames_deleteRequest,
        postedNames_deleteRequest]
      exact hw.posted.append (List.Sublist.refl _)
    ordered := by
      refine hw.ordered.concat ?_
      refine List.cons_subset.mpr ⟨hw.balance.mem_iff.mpr ?_, List.nil_subset _⟩
      refine List.mem_map_of_mem ?_
      simp only [places, List.mem_append]
      exact Or.inl (Or.inl (Or.inl (Or.inr (List.mem_map_of_mem hjob))))
    balance := by
      rw [createdNames_append, createdNames_deleteRequest]
      refine (List.Perm.of_eq (List.append_nil _)).trans ?_
      refine hw.balance.trans (List.perm_iff_count.mpr fun name => ?_)
      have hcount := (hmove.map principalName).count_eq name
      simp only [places, List.map_append, List.map_cons, List.map_nil, List.count_append,
        List.count_cons, List.count_nil] at hcount ⊢
      omega
    older := by
      intro p hp
      obtain ⟨l, hl, hlater⟩ := hw.older p hp
      refine ⟨l, ?_, hlater⟩
      rcases List.mem_append.mp hl with hl | hl
      · rcases List.mem_cons.mp (hmove.mem_iff.mp hl) with rfl | hl
        · simp
        · exact List.mem_append_left _ hl
      · exact List.mem_append_right _ (List.mem_append_left _ hl) }

/-- The abandoned instances are those of creations that failed. -/
def Failed (labels : List Event) (abandoned : List Principal) : Prop :=
  ∀ p ∈ abandoned, ∃ job, Event.postThrew job ∈ labels ∧ job.principal = p

lemma failed_nil (labels : List Event) : Failed labels [] := nofun

/-- **One step of any command** keeps the accounts; nothing that was superseded or abandoned comes
back. -/
lemma Accounts.step {n : ℕ} {named : List Principal} (hinv : Inv n named w)
    (hw : Accounts gone superseded abandoned w) {e : Event} {w' : World} (h : Step w e w') :
    ∃ gone' later lost, Accounts gone' (later ++ superseded) (abandoned ++ lost) w' ∧
      Failed [e] lost := by
  -- a step that abandons nothing
  have hkept : ∀ gone' later, Accounts gone' (later ++ superseded) abandoned w' →
      ∃ gone' later lost, Accounts gone' (later ++ superseded) (abandoned ++ lost) w' ∧
        Failed [e] lost := fun gone' later h =>
    ⟨gone', later, [], by rwa [List.append_nil], failed_nil _⟩
  cases h with
  | @fetch cmd p q d ht hx hrun =>
      rw [fetchGeneration_run] at hrun
      cases hrun
      exact hkept gone [] ⟨hw.deleted, hw.posted, hw.ordered, hw.balance, hw.older⟩
  | @post env job b d hjob hrun =>
      rcases postInstance_cases env job.cmd job.principal w.daemon with
        ⟨e, o, hcase⟩ | ⟨e, o, o', ho, hcase⟩ | ⟨o, o', ho, hcase⟩
      · cases hcase.symm.trans hrun
      · cases hcase.symm.trans hrun
      · cases hcase.symm.trans hrun
        exact hkept gone [] (hw.created env job o' ho)
  | @postThrow env job e d hjob hrun =>
      have hfailed : Failed [.postThrew job] [job.principal] := fun p hp =>
        ⟨job, List.mem_singleton_self _, (List.mem_singleton.mp hp).symm⟩
      rcases postInstance_cases env job.cmd job.principal w.daemon with
        ⟨e, o, hcase⟩ | ⟨e, o, o', ho, hcase⟩ | ⟨o, o', ho, hcase⟩
      · cases hcase.symm.trans hrun
        cases ho : accepted o with
        | false =>
            exact ⟨gone, [], [], hw.failed job (by simp) rfl (List.nil_sublist _)
              (by simp [ho]), failed_nil _⟩
        | true =>
            exact ⟨gone, [], _, hw.failed job (by simp) rfl (List.Sublist.refl _)
              (by simp [ho]), hfailed⟩
      · cases hcase.symm.trans hrun
        exact ⟨gone, [], _, hw.failed job (by simp) rfl (List.Sublist.refl _)
          (by simp [ho]), hfailed⟩
      · cases hcase.symm.trans hrun
  | @insert job d hjob hrun =>
      rw [insertPrincipal_run] at hrun
      cases hrun
      exact hkept gone [] (hw.insert hjob)
  | @erase env cmd p l d ht hx hrun =>
      obtain ⟨hl, -, rfl⟩ := lookupAndErase_ok hrun
      exact hkept gone _ (hw.erase hinv env cmd hl)
  | @keep env cmd p r d ht hx hrun =>
      rcases lookupAndErase_cases env cmd p w.daemon with ⟨r', hcase⟩ | ⟨l, hcase⟩
      · cases hcase.symm.trans hrun
        exact hkept gone [] hw
      · cases hcase.symm.trans hrun
  | @postDeletion env job x d hjob hrun =>
      obtain ⟨o, hd⟩ := postDeletion_exchanges env job.cmd job.principal w.daemon
      rw [hrun] at hd
      obtain rfl : d = _ := hd
      exact hkept _ [] (hw.delete hjob o)
  | @look env cmd x d ht hrun =>
      have hd := getLocalPrincipal_daemon env cmd w.daemon
      rw [hrun] at hd
      obtain rfl : d = _ := hd
      exact hkept gone [] hw

end

/-! ## Runs -/

/-- A run that goes on from a world with its accounts in order. -/
lemma accounts_of_run {labels more : List Event} {w w' : World}
    {gone superseded abandoned : List Principal}
    (hrun : Run Step {} labels w) (hw : Accounts gone superseded abandoned w)
    (hmore : Run Step w more w') (hcreates : (labels ++ more).countP Event.isFetch < 2 ^ 64) :
    (∃ named, Inv ((labels ++ more).countP Event.isFetch) named w') ∧
      ∃ gone' later lost, Accounts gone' (later ++ superseded) (abandoned ++ lost) w' ∧
        Failed more lost := by
  refine hmore.invariant (I := fun done w => (labels ++ done).countP Event.isFetch < 2 ^ 64 →
    (∃ named, Inv ((labels ++ done).countP Event.isFetch) named w) ∧
      ∃ gone' later lost, Accounts gone' (later ++ superseded) (abandoned ++ lost) w ∧
        Failed done lost) ?_ ?_ hcreates
  · rw [List.append_nil]
    exact fun hcount => ⟨inv_of_run hrun hcount, gone, [], [], by rwa [List.append_nil],
      failed_nil _⟩
  · intro done e t u ih hstep hcount
    rw [← List.append_assoc, List.countP_append] at hcount ⊢
    obtain ⟨⟨named, hinv⟩, gone', later, lost, ht, hfailed⟩ :=
      ih ((Nat.le_add_right _ _).trans_lt hcount)
    refine ⟨hinv.step hstep hcount, ?_⟩
    obtain ⟨gone'', later', lost', hu, hfailed'⟩ := ht.step hinv hstep
    refine ⟨gone'', later' ++ later, lost ++ lost', ?_, fun p hp => ?_⟩
    · rwa [List.append_assoc, ← List.append_assoc abandoned]
    · rcases List.mem_append.mp hp with hp | hp
      · obtain ⟨job, hjob, hp⟩ := hfailed p hp
        exact ⟨job, List.mem_append_left _ hjob, hp⟩
      · obtain ⟨job, hjob, hp⟩ := hfailed' p hp
        exact ⟨job, List.mem_append_right _ hjob, hp⟩

section
variable {w : World} {gone superseded abandoned : List Principal}

lemma Accounts.created_nodup {n : ℕ} {named : List Principal} (hinv : Inv n named w)
    (hw : Accounts gone superseded abandoned w) : (createdNames w.daemon.exchanges).Nodup :=
  hw.posted.nodup hinv.names_nodup

/-- What is superseded or abandoned is neither deleted nor in the table. -/
lemma Accounts.lost {n : ℕ} {named : List Principal} (hinv : Inv n named w)
    (hw : Accounts gone superseded abandoned w) {p : Principal}
    (hp : p ∈ superseded ++ abandoned) :
    principalName p ∉ deletedNames w.daemon.exchanges ∧
      ∀ e ∈ w.daemon.principals, principalName e.2 ≠ principalName p := by
  have hnodup := hw.balance.nodup_iff.mp (hw.created_nodup hinv)
  rw [places, List.append_assoc _ superseded, List.map_append] at hnodup
  have hapart := (List.nodup_append.mp hnodup).2.2
  have hname := List.mem_map_of_mem (f := principalName) hp
  refine ⟨fun hdeleted => ?_, fun e he heq => ?_⟩
  · rw [hw.deleted] at hdeleted
    refine hapart _ ?_ _ hname rfl
    rw [List.map_append]
    exact List.mem_append_right _ hdeleted
  · refine hapart _ (List.mem_map_of_mem (f := principalName) ?_) _ hname heq
    simp only [List.mem_append]
    exact Or.inl (Or.inl (Or.inr (List.mem_map_of_mem he)))

end

/-- **The instances of the service under concurrent sessions.**  In every interleaving of fewer
than `2 ^ 64` creations, each of which fetches its generation in one step: no instance is created
twice; a prefix of the log that deletes an instance has created it; the instances that the service
accepted are, each once, those on the way to the table, in the table, on the way out of it,
deleted, superseded by a newer generation of their id that is being or has been deleted, and
abandoned by a creation that failed; and whatever happens later, a superseded or an abandoned
instance is neither deleted nor in the table. -/
theorem instances_accounted {labels : List Event} {w : World} (hrun : Run Step {} labels w)
    (hcreates : labels.countP Event.isFetch < 2 ^ 64) :
    (createdNames w.daemon.exchanges).Nodup ∧ Ordered w.daemon.exchanges ∧
      ∃ gone superseded abandoned : List Principal,
        deletedNames w.daemon.exchanges = gone.map principalName ∧
        (createdNames w.daemon.exchanges).Perm
          ((places w gone superseded abandoned).map principalName) ∧
        (∀ p ∈ superseded, ∃ l ∈ w.deleting.map Job.principal ++ gone,
          l.id = p.id ∧ p.gn < l.gn) ∧
        (∀ p ∈ abandoned, ∃ job, .postThrew job ∈ labels ∧ job.principal = p) ∧
        ∀ more w', Run Step w more w' → (labels ++ more).countP Event.isFetch < 2 ^ 64 →
          ∀ p ∈ superseded ++ abandoned, principalName p ∉ deletedNames w'.daemon.exchanges ∧
            ∀ e ∈ w'.daemon.principals, principalName e.2 ≠ principalName p := by
  obtain ⟨⟨named, hinv⟩, gone, superseded, abandoned, hw, hfailed⟩ :=
    @accounts_of_run [] _ _ _ _ _ _ .nil Accounts.initial hrun hcreates
  refine ⟨hw.created_nodup hinv, hw.ordered, gone, superseded ++ [], [] ++ abandoned, hw.deleted,
    hw.balance, hw.older, hfailed, fun more w' hmore hcount p hp => ?_⟩
  obtain ⟨⟨named', hinv'⟩, gone', later, lost, hw', -⟩ := accounts_of_run hrun hw hmore hcount
  refine hw'.lost hinv' ?_
  rcases List.mem_append.mp hp with hp | hp
  · exact List.mem_append_left _ (List.mem_append_right _ hp)
  · exact List.mem_append_right _ (List.mem_append_left _ hp)

/-- A deletion of principal `7`. -/
def deleteSeven : Command :=
  { type := .deletePrincipal, pid := 100, statement := .packed (.principal { id := 7 }) }

/-- Two generations of one id are deleted, and the service hears of the newer one only.  A third
creation got its instance accepted, and fails because the reply has no key. -/
theorem instances_accounted_generations : ∃ labels w, Run Step {} labels w ∧
    w.daemon.principals = [] ∧ w.fetched = [] ∧ w.posted = [] ∧ w.deleting = [] ∧
    createdNames w.daemon.exchanges = ["7_0", "7_1", "7_2"] ∧
    deletedNames w.daemon.exchanges = ["7_1"] ∧ Ordered w.daemon.exchanges := by
  let service : Env := .inOrder fun _ =>
    .replied ⟨200, .ok (.object [("message", .string "['key']")])⟩
  let keyless : Env := .inOrder fun _ =>
    .replied ⟨200, .ok (.object [("message", .string "stored")])⟩
  have hfetched : Run Step {} [.fetched createSeven { id := 7 },
      .fetched createSeven { id := 7 }] _ :=
    (Run.nil.snoc (.fetch rfl rfl rfl)).snoc (.fetch rfl rfl rfl)
  have hfirst := (hfetched.snoc
      (.post service (show createSevenAt 0 ∈ _ by decide) rfl)).snoc
    (.insert List.mem_cons_self rfl)
  have hboth := (hfirst.snoc
      (.post service (show createSevenAt 1 ∈ _ from List.mem_cons_self) rfl)).snoc
    (.insert List.mem_cons_self rfl)
  have herased := hboth.snoc
    (show Step _ (.erased deleteSeven { id := 7 }) _ from .erase service rfl rfl rfl)
  have hdeleted := herased.snoc (.postDeletion service List.mem_cons_self rfl)
  have hagain := hdeleted.snoc
    (show Step _ (.fetched createSeven { id := 7 }) _ from .fetch rfl rfl rfl)
  have hrun := hagain.snoc
    (.postThrow keyless (show createSevenAt 2 ∈ _ from List.mem_cons_self) rfl)
  exact ⟨_, _, hrun, rfl, rfl, rfl, rfl, rfl, rfl, (instances_accounted hrun (by decide)).2.1⟩

end Manager

end Libport
