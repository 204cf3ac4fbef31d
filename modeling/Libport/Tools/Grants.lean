import Libport.Tools.Resolution
import Libport.Tools.Updates

/-!
# What the stub grants (`tools/metadata_stub.go`)

The two handlers that decide read the store; this module says what they decide in terms of the
requests that were acknowledged before.

* `requirementOf`: the requirement that counts for an object is the first one promised.
* `Update.acceptable`: a principal is stored if its range of ports is one the stub takes.
* `Exact`: the store is a function of the promises made.  `Exact.effect` and `Exact.lost` are its
  step lemmas, one for requests with an effect and one for those that are lost.
* **`grants_exact`**: after every run, for every order of iteration, a property is granted exactly
  when it was posted for the image of the principal found, and an access exactly when the first
  requirement of the object was; the principal found is one that was posted on that ip and not
  retracted.
-/

namespace Libport

namespace MetadataStub

/-! ## The store as a function of the promises -/

/-- The requirement that counts for an object. -/
def requirementOf (updates : List Update) (object : String) : Option String :=
  updates.findSome? fun u => match u with
    | .requirement o requirement => if o = object then some requirement else none
    | _ => none

/-- A principal that the stub takes; anything else is taken as it is. -/
def Update.acceptable : Update → Bool
  | .principal _ p => p.portMin ≤ 65535 ∧ p.portMax ≤ 65535 ∧ p.portMin ≤ p.portMax ∧ isIP p.ip
  | _ => true

/-- The store holds what was promised, and nothing else. -/
structure Exact (updates : List Update) (store : TestStore) : Prop where
  records : Ledger.Records store.principals (rows (updates.filter Update.acceptable))
  placed : store.Placed
  /-- no two images share their properties -/
  apart : ∀ a b i j, store.images.find? a = some i → store.images.find? b = some j →
    i.properties = j.properties → a = b
  properties : ∀ name property, store.HasProperty name property ↔
    .property name property ∈ updates
  objects : ∀ object, store.objects.find? object
    = (requirementOf updates object).map fun requirement => ⟨[requirement]⟩

lemma exact_initial : Exact [] .initial where
  records := Ledger.Records.empty
  placed := by
    intro name i hi
    cases hi
  apart := by
    intro a b i j hi
    cases hi
  properties := by
    intro name property
    refine iff_of_false ?_ List.not_mem_nil
    rintro ⟨i, hi, -⟩
    cases hi
  objects := fun object => rfl

section
variable {store store' : TestStore} {u : Update} {updates : List Update}

lemma requirementOf_append (updates updates' : List Update) (object : String) :
    requirementOf (updates ++ updates') object
      = (requirementOf updates object).or (requirementOf updates' object) :=
  List.findSome?_append

/-- A promise that is not a requirement changes nothing for the objects. -/
lemma requirementOf_other (h : ∀ object requirement, u ≠ .requirement object requirement)
    (object : String) : requirementOf (updates ++ [u]) object = requirementOf updates object := by
  have hnone : requirementOf [u] object = none := by
    cases u with
    | requirement o requirement => exact absurd rfl (h o requirement)
    | _ => rfl
  rw [requirementOf_append, hnone, Option.or_none]

/-- A later requirement does not count. -/
lemma requirementOf_later {object requirement first : String}
    (h : requirementOf updates object = some first) (other : String) :
    requirementOf (updates ++ [.requirement object requirement]) other
      = requirementOf updates other := by
  rw [requirementOf_append]
  by_cases hother : object = other
  · rw [← hother, h]
    rfl
  · have hnone : requirementOf [.requirement object requirement] other = none := by
      simp [requirementOf, hother]
    rw [hnone, Option.or_none]

/-! ## One request -/

lemma Effect.apart (h : Effect store u store') (hplaced : store.Placed)
    (hapart : ∀ a b i j, store.images.find? a = some i → store.images.find? b = some j →
      i.properties = j.properties → a = b) :
    ∀ a b i j, store'.images.find? a = some i → store'.images.find? b = some j →
      i.properties = j.properties → a = b := by
  cases h with
  | @image name hfresh =>
      intro a b i j hi hj hij
      by_cases ha : a = name
      · by_cases hb : b = name
        · rw [ha, hb]
        · rw [ha, OrderedMap.find?_insert_self] at hi
          rw [OrderedMap.find?_insert_of_ne _ _ hb] at hj
          cases hi
          exact absurd hij (hplaced b j hj).ne'
      · by_cases hb : b = name
        · rw [hb, OrderedMap.find?_insert_self] at hj
          rw [OrderedMap.find?_insert_of_ne _ _ ha] at hi
          cases hj
          exact absurd hij (hplaced a i hi).ne
        · rw [OrderedMap.find?_insert_of_ne _ _ ha] at hi
          rw [OrderedMap.find?_insert_of_ne _ _ hb] at hj
          exact hapart a b i j hi hj hij
  | _ => exact hapart

/-- A new image has no property, and the others keep theirs. -/
lemma hasProperty_newImage {name : String} (hfresh : store.images.find? name = none)
    (hplaced : store.Placed) (other property : String) :
    ({ store with
        images := store.images.insert name ⟨store.heap.length⟩
        heap := store.heap ++ [.empty] } : TestStore).HasProperty other property ↔
      store.HasProperty other property := by
  by_cases hother : other = name
  · subst hother
    refine iff_of_false ?_ ?_
    · rintro ⟨i, hi, hproperty⟩
      rw [OrderedMap.find?_insert_self] at hi
      cases hi
      simp [TestStore.propertiesOf, OrderedMap.empty, OrderedMap.find?] at hproperty
    · rintro ⟨i, hi, -⟩
      rw [hfresh] at hi
      cases hi
  · unfold TestStore.HasProperty
    simp only [OrderedMap.find?_insert_of_ne _ _ hother]
    refine exists_congr fun i => and_congr_right fun hi => ?_
    unfold TestStore.propertiesOf
    rw [List.getElem?_append_left (hplaced other i hi)]

/-- A property is added to its image and to no other. -/
lemma hasProperty_posted {name property : String} {i : Image}
    (hi : store.images.find? name = some i) (hplaced : store.Placed)
    (hapart : ∀ a b i j, store.images.find? a = some i → store.images.find? b = some j →
      i.properties = j.properties → a = b) (other wanted : String) :
    ({ store with heap := store.heap.modify i.properties (·.insert property "set") }
        : TestStore).HasProperty other wanted ↔
      store.HasProperty other wanted ∨ other = name ∧ wanted = property := by
  have hmodify := propertiesOf_modify (hplaced name i hi) (·.insert property "set")
  constructor
  · rintro ⟨j, hj, hproperty⟩
    rw [hmodify] at hproperty
    split_ifs at hproperty with hplace
    · obtain rfl := hapart name other i j hi hj hplace
      by_cases hwanted : wanted = property
      · exact .inr ⟨rfl, hwanted⟩
      · rw [OrderedMap.find?_insert_of_ne _ _ hwanted] at hproperty
        exact .inl ⟨j, hj, hproperty⟩
    · exact .inl ⟨j, hj, hproperty⟩
  · rintro (⟨j, hj, hproperty⟩ | ⟨rfl, rfl⟩)
    · refine ⟨j, hj, ?_⟩
      rw [hmodify]
      split_ifs
      · exact isSome_find?_insert hproperty
      · exact hproperty
    · refine ⟨i, hi, ?_⟩
      rw [hmodify, if_pos rfl, OrderedMap.find?_insert_self]
      rfl

lemma rows_append (before after : List Update) :
    rows (before ++ after) = rows before ++ rows after := List.filterMap_append

/-- **The step lemma** for a request that has an effect. -/
lemma Exact.effect (h : Exact updates store) (heffect : Effect store u store')
    (haccept : u.acceptable = true) : Exact (updates ++ [u]) store' where
  records := by
    rw [List.filter_append, List.filter_cons_of_pos haccept, List.filter_nil]
    exact heffect.records h.records
  placed := heffect.placed h.placed
  apart := heffect.apart h.placed h.apart
  properties := by
    intro other wanted
    rw [List.mem_append, List.mem_singleton, ← h.properties]
    cases heffect with
    | image hfresh =>
        rw [hasProperty_newImage hfresh h.placed]
        simp
    | property hi =>
        rw [hasProperty_posted hi h.placed h.apart]
        simp
    | _ => simp [TestStore.HasProperty, TestStore.propertiesOf]
  objects := by
    intro other
    cases heffect with
    | @firstRequirement object requirement hfresh =>
        have hnone : requirementOf updates object = none := by
          simpa [h.objects] using hfresh
        rw [requirementOf_append]
        by_cases hother : other = object
        · rw [hother, OrderedMap.find?_insert_self, hnone]
          simp [requirementOf]
        · have hrest : requirementOf [.requirement object requirement] other = none := by
            simp [requirementOf, Ne.symm hother]
          rw [OrderedMap.find?_insert_of_ne _ _ hother, hrest, Option.or_none]
          exact h.objects other
    | @sameRequirement object requirement hstored =>
        obtain ⟨o, ho, -⟩ := hstored
        rw [h.objects, Option.map_eq_some_iff] at ho
        obtain ⟨first, hfirst, -⟩ := ho
        rw [requirementOf_later hfirst]
        exact h.objects other
    | _ =>
        rw [requirementOf_other (by simp)]
        exact h.objects other

/-- What a request that is lost promises. -/
lemma Loses.promise {c : Call} (h : Loses store c) :
    (∃ name p, c.promise = some (.principal name p) ∧
        (Update.principal name p).acceptable = false) ∨
      ∃ object requirement o, c.promise = some (.requirement object requirement) ∧
        store.objects.find? object = some o := by
  cases h with
  | @badRange speaker name image platform address config ip p1 p2 hfresh hparse hbad =>
      refine .inl ⟨name, _, rfl, ?_⟩
      rw [Update.acceptable, postedPrincipal, hparse]
      simp only [decide_eq_false_iff_not]
      rintro ⟨hmin, hmax, horder, hip⟩
      rcases hbad with hbad | hbad | hbad | hbad
      · omega
      · omega
      · omega
      · exact hbad hip
  | @laterRequirement speaker object requirement rest o hstored hnew =>
      exact .inr ⟨object, requirement, o, rfl, hstored⟩

/-- **The step lemma** for a request that is lost: its promise does not count. -/
lemma Exact.lost {c : Call} (h : Exact updates store) (hloses : Loses store c)
    (hu : c.promise = some u) : Exact (updates ++ [u]) store := by
  rcases hloses.promise with ⟨name, p, hp, hbad⟩ | ⟨object, requirement, o, hp, ho⟩
  · obtain rfl := Option.some.inj (hu.symm.trans hp)
    refine ⟨?_, h.placed, h.apart, ?_, ?_⟩
    · rw [List.filter_append, List.filter_cons_of_neg (by simp [hbad]), List.filter_nil,
        List.append_nil]
      exact h.records
    · intro other wanted
      rw [h.properties]
      simp
    · intro other
      rw [requirementOf_other (by simp)]
      exact h.objects other
  · obtain rfl := Option.some.inj (hu.symm.trans hp)
    rw [h.objects, Option.map_eq_some_iff] at ho
    obtain ⟨first, hfirst, -⟩ := ho
    refine ⟨?_, h.placed, h.apart, ?_, ?_⟩
    · rw [List.filter_append, List.filter_cons_of_pos rfl, List.filter_nil, rows_append]
      exact (List.append_nil _).symm ▸ h.records
    · intro other wanted
      rw [h.properties]
      simp
    · intro other
      rw [requirementOf_later hfirst]
      exact h.objects other

/-- A principal that is promised and not lost has a range that the stub takes. -/
lemma acceptable_of_served {c : Call} (hloses : ¬ Loses store c)
    (hserved : acknowledged (c.serve store).1 = true) {name : String} {p : Principal}
    (hu : c.promise = some (.principal name p)) (hfresh : store.principals.find? name = none) :
    (Update.principal name p).acceptable = true := by
  obtain ⟨op, body⟩ := c
  unfold Call.promise at hu
  split at hu
  case h_1 name' image platform address config hop hbody =>
      cases hu
      simp only at hop hbody
      subst hop
      obtain ⟨⟨speaker, values⟩, rfl, rfl⟩ := Option.map_eq_some_iff.mp hbody
      rcases hparse : parseIP address with ⟨ip, p1, p2, status⟩
      by_cases hstatus : status = statusOk
      · subst hstatus
        have hgood : ¬ (p1 > 65535 ∨ p2 > 65535 ∨ p1 > p2 ∨ ¬ isIP ip) :=
          fun hbad => hloses (.badRange hfresh hparse hbad)
        rw [Update.acceptable, postedPrincipal, hparse]
        simpa [not_or] using hgood
      · have hrefused : postInstanceSet store
            (some ⟨speaker, [name, image, platform, address, config]⟩) = answer status store := by
          simp [postInstanceSet, readRequest, hfresh, hparse, hstatus]
        rw [Call.serve, Op.handler, hrefused] at hserved
        simp [answer, acknowledged, hstatus] at hserved
  all_goals cases hu

/-! ## Every run -/

lemma Exact.record {c : Call} (h : Exact updates store) :
    Exact (MetadataStub.record (store, updates) c).2
      (MetadataStub.record (store, updates) c).1 := by
  by_cases hloses : Loses store c
  · obtain ⟨u, hrecord, hu⟩ := @Loses.record store c updates hloses
    rw [hrecord]
    exact h.lost hloses hu
  · rcases (serve_cases store c).resolve_left hloses with ⟨hrefused, hstore⟩ | ⟨haccepted, u, hu,
      heffect⟩
    · simpa [MetadataStub.record, hrefused, hstore] using h
    · have haccept : u.acceptable = true := by
        generalize (c.serve store).2 = store' at heffect
        cases heffect with
        | principal hfresh => exact acceptable_of_served hloses haccepted hu hfresh
        | _ => rfl
      simpa [MetadataStub.record, haccepted, hu] using h.effect heffect haccept

/-- **The run lemma**: whatever is requested, also by requests that are lost. -/
lemma exact_history (calls : List Call) : Exact (history calls).2 (history calls).1 := by
  induction calls using List.reverseRecOn with
  | nil => exact exact_initial
  | append_singleton calls c ih =>
      rw [history_concat]
      exact ih.record

/-! ## The decisions -/

/-- The request was granted. -/
def Granted (served : Served) : Prop := ∃ body store', served = some (⟨statusOk, body⟩, store')

lemma not_granted_answer {status : ℕ} (h : status ≠ statusOk) (body : String) :
    ¬ Granted (some (⟨status, body⟩, store)) := by
  rintro ⟨body', store', heq⟩
  cases heq
  exact h rfl

/-- What a resolution finds is stored, on the ip asked for; it reports success only then. -/
lemma getPrincipal_result {order : List Principal} {address : String} {result : Option Principal}
    {status : ℕ} (h : getPrincipal order address = (result, status)) :
    (∀ p, result = some p → status = statusOk ∧ p ∈ order ∧
      ∃ port, parseAddress address = some (p.ip, port)) ∧
      (result = none → status ≠ statusOk) := by
  unfold getPrincipal at h
  cases haddress : parseAddress address with
  | none =>
      rw [haddress] at h
      cases h
      exact ⟨fun p hp => (nomatch hp), fun _ => by decide⟩
  | some pair =>
      obtain ⟨ip, port⟩ := pair
      rw [haddress] at h
      have hscan := @Scan.scan_induction Principal (isFirst ip port) (isDeeper ip) order
        (fun _ p => p ∈ order ∧ p.ip = ip) ?_ ?_ ?_
      · rcases hscan with ⟨hnone, -⟩ | ⟨p, hsome, hp, hip⟩
        · simp only [hnone] at h
          cases h
          exact ⟨fun p hp => (nomatch hp), fun _ => by decide⟩
        · simp only [hsome] at h
          cases h
          refine ⟨fun q hq => ?_, fun hq => (nomatch hq)⟩
          cases hq
          exact ⟨rfl, hp, port, by rw [hip]⟩
      · intro seen p hp _ hfirst
        exact ⟨hp, (isFirst_iff.mp hfirst).1⟩
      · intro seen f p hp _ hdeeper
        exact ⟨hp, (isDeeper_iff.mp hdeeper).1⟩
      · intro seen f p _ hf _
        exact hf

/-- Whether a property is attested depends on the properties of the image found. -/
lemma attestAppProperty_granted {order : List Principal} {speaker address property : String}
    {rest : List String} :
    Granted (attestAppProperty order store (some ⟨speaker, address :: property :: rest⟩)) ↔
      ∃ p, getPrincipal order address = (some p, statusOk) ∧
        store.HasProperty p.imageId property := by
  rcases hfound : getPrincipal order address with ⟨result, status⟩
  obtain ⟨hsome, hnone⟩ := getPrincipal_result hfound
  simp only [attestAppProperty, readRequest, List.getElem?_cons_zero, Option.bind_eq_bind,
    Option.bind_some, hfound]
  cases result with
  | none =>
      refine iff_of_false (not_granted_answer (hnone rfl) _) ?_
      rintro ⟨p, hp, -⟩
      cases hp
  | some p =>
      obtain ⟨rfl, -⟩ := hsome p rfl
      simp only [Prod.mk.injEq, Option.some.injEq, and_true, exists_eq_left']
      cases himage : store.images.find? p.imageId with
      | none =>
          refine iff_of_false (not_granted_answer (by decide) _) ?_
          rintro ⟨i, hi, -⟩
          rw [himage] at hi
          cases hi
      | some i =>
          simp only [List.getElem?_cons_succ, List.getElem?_cons_zero, Option.bind_some]
          split_ifs with hproperty
          · exact iff_of_true ⟨_, _, rfl⟩ ⟨i, himage, hproperty⟩
          · refine iff_of_false (not_granted_answer (by decide) _) ?_
            rintro ⟨j, hj, hproperty'⟩
            rw [himage] at hj
            cases hj
            exact hproperty hproperty'

/-- Whether an access is granted depends on the requirements of the object, too. -/
lemma attestObjectAccess_granted {order : List Principal} {speaker address object : String}
    {rest : List String} :
    Granted (attestObjectAccess order store (some ⟨speaker, address :: object :: rest⟩)) ↔
      ∃ p requirement, getPrincipal order address = (some p, statusOk) ∧
        store.Requires object requirement ∧ store.HasProperty p.imageId requirement := by
  rcases hfound : getPrincipal order address with ⟨result, status⟩
  obtain ⟨hsome, hnone⟩ := getPrincipal_result hfound
  simp only [attestObjectAccess, readRequest, List.getElem?_cons_zero, Option.bind_eq_bind,
    Option.bind_some, hfound]
  cases result with
  | none =>
      refine iff_of_false (not_granted_answer (hnone rfl) _) ?_
      rintro ⟨p, requirement, hp, -⟩
      cases hp
  | some p =>
      obtain ⟨rfl, -⟩ := hsome p rfl
      simp only [Prod.mk.injEq, Option.some.injEq, and_true, exists_and_left, exists_eq_left']
      simp only [List.getElem?_cons_succ, List.getElem?_cons_zero, Option.bind_some]
      cases hobject : store.objects.find? object with
      | none =>
          refine iff_of_false (not_granted_answer (by decide) _) ?_
          rintro ⟨requirement, ⟨o, ho, -⟩, -⟩
          rw [hobject] at ho
          cases ho
      | some o =>
          cases himage : store.images.find? p.imageId with
          | none =>
              refine iff_of_false (not_granted_answer (by decide) _) ?_
              rintro ⟨requirement, -, i, hi, -⟩
              rw [himage] at hi
              cases hi
          | some i =>
              simp only
              split_ifs with hany
              · obtain ⟨wanted, hmem, hproperty⟩ := List.any_eq_true.mp hany
                exact iff_of_true ⟨_, _, rfl⟩ ⟨wanted, ⟨o, hobject, hmem⟩, i, himage, hproperty⟩
              · refine iff_of_false (not_granted_answer (by decide) _) ?_
                rintro ⟨wanted, ⟨o', ho', hmem⟩, j, hj, hproperty⟩
                rw [hobject] at ho'
                rw [himage] at hj
                cases ho'
                cases hj
                exact hany (List.any_eq_true.mpr ⟨wanted, hmem, hproperty⟩)

/-- A principal found by a resolution was posted on that ip, with a range the stub takes, and has
not been retracted. -/
lemma Exact.found (h : Exact updates store) {order : List Principal}
    (horder : order.Perm store.stored) {address : String} {p : Principal}
    (hfound : getPrincipal order address = (some p, statusOk)) :
    ∃ name, Ledger.Live (rows (updates.filter Update.acceptable)) name p := by
  obtain ⟨-, hmem, -⟩ := (getPrincipal_result hfound).1 p rfl
  obtain ⟨⟨name, q⟩, he, rfl⟩ := List.mem_map.mp (horder.mem_iff.mp hmem)
  exact ⟨name, (h.records name q).mp he⟩

/-- **What is granted**, after every run of requests, whatever they were, and for every order in
which the principals are iterated over.  A property is attested exactly when it was posted for the
image of the principal found.  An access is granted exactly when the first requirement that was
posted for the object is such a property.  The principal found was posted on the ip of the address,
with a range the stub takes, and has not been retracted since. -/
theorem grants_exact (calls : List Call) (order : List Principal)
    (horder : order.Perm (history calls).1.stored) (speaker address asked : String)
    (rest : List String) :
    (Granted (attestAppProperty order (history calls).1
        (some ⟨speaker, address :: asked :: rest⟩)) ↔
      ∃ p, getPrincipal order address = (some p, statusOk) ∧
        .property p.imageId asked ∈ (history calls).2) ∧
    (Granted (attestObjectAccess order (history calls).1
        (some ⟨speaker, address :: asked :: rest⟩)) ↔
      ∃ p requirement, getPrincipal order address = (some p, statusOk) ∧
        requirementOf (history calls).2 asked = some requirement ∧
        .property p.imageId requirement ∈ (history calls).2) ∧
    (∀ p, getPrincipal order address = (some p, statusOk) →
      (∃ port, parseAddress address = some (p.ip, port)) ∧
        ∃ name, Ledger.Live (rows ((history calls).2.filter Update.acceptable)) name p) := by
  have hexact := exact_history calls
  refine ⟨?_, ?_, ?_⟩
  · rw [attestAppProperty_granted]
    simp only [hexact.properties]
  · rw [attestObjectAccess_granted]
    simp only [hexact.properties, TestStore.Requires, hexact.objects]
    constructor
    · rintro ⟨p, requirement, hfound, ⟨o, ho, hmem⟩, hproperty⟩
      obtain ⟨first, hfirst, rfl⟩ := Option.map_eq_some_iff.mp ho
      obtain rfl := List.mem_singleton.mp hmem
      exact ⟨p, requirement, hfound, hfirst, hproperty⟩
    · rintro ⟨p, requirement, hfound, hfirst, hproperty⟩
      refine ⟨p, requirement, hfound, ⟨⟨[requirement]⟩, ?_, List.mem_singleton_self _⟩, hproperty⟩
      rw [hfirst]
      rfl
  · intro p hfound
    exact ⟨((getPrincipal_result hfound).1 p rfl).2.2, hexact.found horder hfound⟩

/-- The history of the test of the stub: one principal, its image, a property and an object that
asks for it. -/
def happyCalls : List Call :=
  [⟨.postInstanceSet,
      some ⟨"iaas", ["p1", "image1", "image", "192.168.0.1:1000-2000", "no_config"]⟩⟩,
    ⟨.postAttesterImage, some ⟨"iaas", ["image1", "no_config"]⟩⟩,
    ⟨.postImageProperty, some ⟨"iaas", ["image1", "no_config", "happy"]⟩⟩,
    ⟨.postObjectAcl, some ⟨"iaas", ["object1", "happy"]⟩⟩]

/-- The principal of `happyCalls` gets the access. -/
theorem grants_exact_happy :
    Granted (attestObjectAccess (history happyCalls).1.stored (history happyCalls).1
      (some ⟨"iaas", ["192.168.0.1:1005", "object1"]⟩)) := by
  refine ((grants_exact happyCalls _ (List.Perm.refl _) "iaas" "192.168.0.1:1005" "object1"
    []).2.1).mpr ?_
  refine ⟨postedPrincipal "image1" "192.168.0.1:1000-2000" "no_config", "happy", rfl, rfl, ?_⟩
  have hpromises : (history happyCalls).2
      = [.principal "p1" (postedPrincipal "image1" "192.168.0.1:1000-2000" "no_config"),
        .image "image1", .property "image1" "happy", .requirement "object1" "happy"] := rfl
  rw [hpromises]
  exact List.mem_cons_of_mem _ (List.mem_cons_of_mem _ List.mem_cons_self)

end

end MetadataStub

end Libport
