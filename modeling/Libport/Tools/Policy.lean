import Libport.Tools.Addresses
import Libport.Tools.Grants

/-!
# The policy that the stub keeps (`tools/metadata_stub.go`)

What the store of the stub stands for: which principals there are, which properties each image
has, and which one each object requires.

* `Policy`: the abstract state, with `Policy.apply` for what a promise does to it and
  `Policy.Resolves` for what an address leads to.
* `TestStore.policy`: what a store stands for; **`Effect.policy`** is its step lemma.
* `Serves`: what a handler answers and which policy it leaves, one lemma for each handler that
  changes the store.
* `Judges`: the two ways in which a handler decides; `resolves_getPrincipal` is the resolution they
  share.
-/

namespace Libport

namespace MetadataStub

/-! ## The abstract state -/

/-- What the stub knows, without its representation. -/
@[ext]
structure Policy where
  principal : String → Option Principal
  /-- none for an image that is not known -/
  properties : String → Option (Set String)
  /-- what is required for an object -/
  requirement : String → Option String

namespace Policy

def initial : Policy := ⟨fun _ => none, fun _ => none, fun _ => none⟩

def Registered (policy : Policy) (p : Principal) : Prop := ∃ name, policy.principal name = some p

def Has (policy : Policy) (image property : String) : Prop :=
  ∃ set, policy.properties image = some set ∧ property ∈ set

/-- What a promise that is kept means. -/
def apply (policy : Policy) : Update → Policy
  | .principal name p =>
      { policy with principal := Function.update policy.principal name (some p) }
  | .retract name => { policy with principal := Function.update policy.principal name none }
  | .image name => { policy with properties := Function.update policy.properties name (some ∅) }
  | .property name property =>
      { policy with
        properties := Function.update policy.properties name
          ((policy.properties name).map (insert property)) }
  -- only the first requirement counts
  | .requirement object requirement =>
      { policy with
        requirement := Function.update policy.requirement object
          (some ((policy.requirement object).getD requirement)) }

/-- The principals that an address can lead to: one that holds the port, and from one principal to
another that starts inside its range, whether or not it holds the port. -/
inductive Reached (policy : Policy) (ip : String) (port : ℤ) : Principal → Prop
  | holds {p : Principal} (hp : policy.Registered p) (hholds : p.Holds ip port) :
      Reached policy ip port p
  | inside {p q : Principal} (h : Reached policy ip port p) (hq : policy.Registered q)
      (hip : q.ip = ip) (hmin : q.portMin ∈ p.range) : Reached policy ip port q

lemma Reached.registered {policy : Policy} {ip : String} {port : ℤ} {p : Principal}
    (h : policy.Reached ip port p) : policy.Registered p := by
  cases h with
  | holds hp hholds => exact hp
  | inside h hp hip hmin => exact hp

/-- What is found for an address. -/
def Resolves (policy : Policy) (ip : String) (port : ℤ) : Option Principal → Prop
  | none => isIP ip = false ∨ ∀ p, policy.Registered p → ¬ p.Holds ip port
  | some p => isIP ip = true ∧ policy.Reached ip port p

end Policy

/-- The policy that a store stands for. -/
def TestStore.policy (store : TestStore) : Policy where
  principal := store.principals.find?
  properties name := (store.images.find? name).map fun i =>
    {property | ((store.propertiesOf i).find? property).isSome}
  requirement object := (store.objects.find? object).bind fun o => o.acls.head?

/-! ## The store as a policy -/

section
variable {store store' : TestStore} {u : Update} {order : List Principal}

lemma has_policy {image property : String} :
    store.policy.Has image property ↔ store.HasProperty image property := by
  constructor
  · rintro ⟨set, hset, hmem⟩
    obtain ⟨i, hi, rfl⟩ := Option.map_eq_some_iff.mp hset
    exact ⟨i, hi, hmem⟩
  · rintro ⟨i, hi, hmem⟩
    exact ⟨_, Option.map_eq_some_iff.mpr ⟨i, hi, rfl⟩, hmem⟩

lemma registered_policy {p : Principal} : store.policy.Registered p ↔ p ∈ store.stored := by
  simp only [Policy.Registered, TestStore.policy, OrderedMap.find?_eq_some, TestStore.stored,
    List.mem_map, Prod.exists, exists_eq_right]

lemma isNone_properties {name : String} :
    (store.policy.properties name).isNone = true ↔ store.images.find? name = none := by
  rw [Option.isNone_iff_eq_none]
  exact Option.map_eq_none_iff

/-- A new image comes without properties. -/
lemma properties_newImage {name : String} (hplaced : store.Placed) (other : String) :
    ({ store with
        images := store.images.insert name ⟨store.heap.length⟩
        heap := store.heap ++ [.empty] } : TestStore).policy.properties other
      = Function.update store.policy.properties name (some ∅) other := by
  by_cases hother : other = name
  · subst hother
    simp only [TestStore.policy, OrderedMap.find?_insert_self, Option.map_some,
      Function.update_self, Option.some.injEq]
    refine Set.eq_empty_of_forall_notMem fun property hproperty => ?_
    simp [TestStore.propertiesOf, OrderedMap.empty, OrderedMap.find?] at hproperty
  · rw [Function.update_of_ne hother]
    simp only [TestStore.policy, OrderedMap.find?_insert_of_ne _ _ hother]
    refine Option.map_congr fun i hi => ?_
    simp only [TestStore.propertiesOf, List.getElem?_append_left (hplaced other i hi)]

lemma properties_posted {name property : String} {i : Image}
    (hi : store.images.find? name = some i) (hplaced : store.Placed)
    (hapart : ∀ a b i j, store.images.find? a = some i → store.images.find? b = some j →
      i.properties = j.properties → a = b) (other : String) :
    ({ store with heap := store.heap.modify i.properties (·.insert property "set") }
        : TestStore).policy.properties other
      = Function.update store.policy.properties name
          ((store.policy.properties name).map (insert property)) other := by
  have hmodify := propertiesOf_modify (hplaced name i hi) (·.insert property "set")
  by_cases hother : other = name
  · subst hother
    rw [Function.update_self]
    simp only [TestStore.policy, hi, Option.map_some, hmodify, if_true, Option.some.injEq]
    ext wanted
    rw [Set.mem_insert_iff, Set.mem_ofPred_eq, Set.mem_ofPred_eq]
    by_cases hwanted : wanted = property
    · simp [hwanted, OrderedMap.find?_insert_self]
    · simp [hwanted, OrderedMap.find?_insert_of_ne]
  · rw [Function.update_of_ne hother]
    refine Option.map_congr fun j hj => ?_
    have hplace : i.properties ≠ j.properties :=
      fun h => hother (hapart other name j i hj hi h.symm)
    simp only [hmodify, if_neg hplace]

lemma requirement_posted {object requirement : String}
    (hfresh : store.objects.find? object = none) (other : String) :
    ({ store with objects := store.objects.insert object ⟨[requirement]⟩ }
        : TestStore).policy.requirement other
      = Function.update store.policy.requirement object
          (some ((store.policy.requirement object).getD requirement)) other := by
  have hnone : store.policy.requirement object = none := by
    simp only [TestStore.policy, hfresh, Option.bind_none]
  rw [hnone]
  by_cases hother : other = object
  · rw [hother, Function.update_self]
    simp only [TestStore.policy, OrderedMap.find?_insert_self]
    rfl
  · rw [Function.update_of_ne hother]
    simp only [TestStore.policy, OrderedMap.find?_insert_of_ne _ _ hother]

/-- **The step lemma of the store**: an effect is what the policy makes of the promise. -/
lemma Effect.policy (h : Effect store u store') (hplaced : store.Placed)
    (hapart : ∀ a b i j, store.images.find? a = some i → store.images.find? b = some j →
      i.properties = j.properties → a = b) : store'.policy = store.policy.apply u := by
  cases h with
  | principal hfresh => exact Policy.ext (OrderedMap.find?_insert _ _ _) rfl rfl
  | retract => exact Policy.ext (OrderedMap.find?_erase _ _) rfl rfl
  | image hfresh => exact Policy.ext rfl (funext (properties_newImage hplaced)) rfl
  | property hi => exact Policy.ext rfl (funext (properties_posted hi hplaced hapart)) rfl
  | firstRequirement hfresh => exact Policy.ext rfl rfl (funext (requirement_posted hfresh))
  | @sameRequirement object requirement hstored =>
      obtain ⟨o, ho, hmem⟩ := hstored
      obtain ⟨first, rest, hacls⟩ := List.exists_cons_of_ne_nil (List.ne_nil_of_mem hmem)
      have hfirst : store.policy.requirement object = some first := by
        simp only [TestStore.policy, ho, Option.bind_some, hacls, List.head?_cons]
      refine Policy.ext rfl rfl ?_
      rw [Policy.apply, hfirst, Option.getD_some, ← hfirst, Function.update_eq_self]

/-! ## Handlers that change the store -/

/-- What a handler answers to some values, whoever sends them, and the policy it leaves. -/
def Serves (store : TestStore) (op : Op) (values : List String) (status : ℕ) (body : String)
    (policy : Policy) : Prop :=
  ∀ speaker, ∃ store', op.handler store (some ⟨speaker, values⟩) = some (⟨status, body⟩, store') ∧
    store'.policy = policy

/-- Where no range is read, no ip is. -/
lemma parseIP_failed {address ip : String} {p1 p2 : ℤ} {status : ℕ}
    (h : parseIP address = (ip, p1, p2, status)) (hstatus : status ≠ statusOk) : ip = "" := by
  unfold parseIP at h
  split at h
  · cases h
    rfl
  · split at h
    · cases h
      rfl
    · split at h
      · cases h
        rfl
      · cases h
        exact absurd rfl hstatus

/-- The principal is new, and its range is one that the stub takes. -/
def Policy.Takes (policy : Policy) (name : String) (p : Principal) : Prop :=
  policy.principal name = none ∧ (Update.principal name p).acceptable = true

instance (policy : Policy) (name : String) (p : Principal) : Decidable (policy.Takes name p) :=
  decidable_of_iff ((policy.principal name).isNone ∧ (Update.principal name p).acceptable = true)
    (by rw [Policy.Takes, Option.isNone_iff_eq_none])

variable {updates : List Update}

lemma serves_postInstanceSet (h : Exact updates store)
    (name image platform address config : String) :
    (store.policy.Takes name (postedPrincipal image address config) ∧
        Serves store .postInstanceSet [name, image, platform, address, config] statusOk
          (r#"{"message":"['"# ++ name ++ r#"']"}"#)
          (store.policy.apply (.principal name (postedPrincipal image address config)))) ∨
      ¬ store.policy.Takes name (postedPrincipal image address config) ∧
        ∃ status, Serves store .postInstanceSet [name, image, platform, address, config] status ""
          store.policy := by
  cases hname : store.principals.find? name with
  | some p =>
      refine Or.inr ⟨fun htakes => ?_, statusConflict, fun speaker => ⟨store, ?_, rfl⟩⟩
      · exact Option.some_ne_none p (hname.symm.trans htakes.1)
      · simp [Op.handler, postInstanceSet, readRequest, hname, answer]
  | none =>
      rcases hparse : parseIP address with ⟨ip, p1, p2, status⟩
      have hposted : postedPrincipal image address config
          = ⟨image, OrderedMap.empty.insert "config" config, ip, p1, p2⟩ := by
        rw [postedPrincipal, hparse]
      by_cases hgood : p1 ≤ 65535 ∧ p2 ≤ 65535 ∧ p1 ≤ p2 ∧ isIP ip = true
      · have hstatus : status = statusOk := by
          by_contra hne
          have hip := hgood.2.2.2
          rw [parseIP_failed hparse hne] at hip
          exact absurd hip (by decide)
        refine Or.inl ⟨⟨hname, ?_⟩, fun speaker => ⟨_, ?_,
          Effect.policy (.principal hname) h.placed h.apart⟩⟩
        · rw [hposted, Update.acceptable, decide_eq_true_iff]
          exact hgood
        · obtain ⟨hmin, hmax, horder, hip⟩ := hgood
          simp [Op.handler, postInstanceSet, readRequest, hname, hparse, hstatus, hposted,
            hmin.not_gt, hmax.not_gt, horder.not_gt, hip]
      · refine Or.inr ⟨fun htakes => hgood ?_, status, fun speaker => ⟨store, ?_, rfl⟩⟩
        · have haccept := htakes.2
          rw [hposted, Update.acceptable, decide_eq_true_iff] at haccept
          exact haccept
        · have hbad : status ≠ statusOk ∨ p1 > 65535 ∨ p2 > 65535 ∨ p1 > p2 ∨ ¬ isIP ip := by
            by_contra hnot
            simp only [not_or, not_lt, not_not, gt_iff_lt, ne_eq] at hnot
            exact hgood hnot.2
          simp only [Op.handler, postInstanceSet, readRequest, List.getElem?_cons_zero,
            List.getElem?_cons_succ, Option.bind_eq_bind, Option.bind_some, hname, hparse,
            Option.isSome_none, Bool.false_eq_true, if_false, List.length_cons, List.length_nil,
            ne_eq, not_true_eq_false]
          rw [if_pos hbad]
          rfl

lemma serves_postAttesterImage (h : Exact updates store) (name config : String) :
    if (store.policy.properties name).isNone then
      Serves store .postAttesterImage [name, config] statusOk "" (store.policy.apply (.image name))
    else Serves store .postAttesterImage [name, config] statusConflict "" store.policy := by
  split_ifs with hfresh
  · rw [isNone_properties] at hfresh
    refine fun speaker => ⟨_, ?_, Effect.policy (.image hfresh) h.placed h.apart⟩
    simp [Op.handler, postAttesterImage, readRequest, hfresh, answer]
  · rw [isNone_properties, ← ne_eq, Option.ne_none_iff_exists'] at hfresh
    obtain ⟨i, hi⟩ := hfresh
    refine fun speaker => ⟨store, ?_, rfl⟩
    simp [Op.handler, postAttesterImage, readRequest, hi, answer]

/-- To an image that is not known, no property is added. -/
lemma serves_postImageProperty (h : Exact updates store) (name config property : String) :
    ∃ status, Serves store .postImageProperty [name, config, property] status ""
      (store.policy.apply (.property name property)) := by
  cases hname : store.images.find? name with
  | none =>
      refine ⟨statusNotFound, fun speaker => ⟨store, ?_, ?_⟩⟩
      · simp [Op.handler, postImageProperty, readRequest, hname, answer]
      · have hnone : store.policy.properties name = none := by
          simp only [TestStore.policy, hname, Option.map_none]
        rw [Policy.apply, hnone, Option.map_none, ← hnone, Function.update_eq_self]
  | some i =>
      refine ⟨statusOk, fun speaker => ⟨_, ?_, Effect.policy (.property hname) h.placed h.apart⟩⟩
      simp [Op.handler, postImageProperty, readRequest, hname, answer]

/-- A later requirement is acknowledged and has no effect, which is what the policy says. -/
lemma serves_postObjectAcl (h : Exact updates store) (object requirement : String) :
    Serves store .postObjectAcl [object, requirement] statusOk ""
      (store.policy.apply (.requirement object requirement)) := by
  intro speaker
  cases hobject : store.objects.find? object with
  | none =>
      refine ⟨_, ?_, Effect.policy (.firstRequirement hobject) h.placed h.apart⟩
      simp [Op.handler, postObjectAcl, readRequest, hobject, answer]
  | some o =>
      refine ⟨store, ?_, ?_⟩
      · simp [Op.handler, postObjectAcl, readRequest, hobject, answer]
      · have hfirst := (h.objects object).symm.trans hobject
        obtain ⟨first, -, rfl⟩ := Option.map_eq_some_iff.mp hfirst
        have hpolicy : store.policy.requirement object = some first := by
          simp only [TestStore.policy, hobject, Option.bind_some, List.head?_cons]
        rw [Policy.apply, hpolicy, Option.getD_some, ← hpolicy, Function.update_eq_self]

lemma serves_retractInstanceSet (h : Exact updates store) (name : String) (rest : List String) :
    Serves store .retractInstanceSet (name :: rest) statusOk ""
      (store.policy.apply (.retract name)) :=
  fun _ => ⟨_, rfl, Effect.policy .retract h.placed h.apart⟩

/-! ## Handlers that decide -/

/-- A decision is a success with the given text, or a failure. -/
def Judges (text : String) (served : Served) : Prop :=
  (∃ store', served = some (⟨statusOk, text⟩, store')) ∨
    ∃ status body store', status ≠ statusOk ∧ served = some (⟨status, body⟩, store')

lemma judges_answer {text : String} {status : ℕ} (hstatus : status ≠ statusOk) (body : String) :
    Judges text (some (⟨status, body⟩, store)) := Or.inr ⟨status, body, store, hstatus, rfl⟩

lemma judges_attestAppProperty (speaker address property : String) :
    Judges r#"{"message": "{ 'void':programHasProperty('','') }"}"#
      (attestAppProperty order store (some ⟨speaker, [address, property]⟩)) := by
  rcases hfound : getPrincipal order address with ⟨result, status⟩
  have hresult := getPrincipal_result hfound
  simp only [attestAppProperty, readRequest, List.getElem?_cons_zero, Option.bind_eq_bind,
    Option.bind_some, hfound]
  cases result with
  | none => exact judges_answer (hresult.2 rfl) _
  | some p =>
      simp only [List.getElem?_cons_succ, List.getElem?_cons_zero, Option.bind_some]
      cases store.images.find? p.imageId with
      | none => exact judges_answer (by decide) _
      | some i =>
          simp only
          split_ifs
          · exact Or.inl ⟨store, rfl⟩
          · exact judges_answer (by decide) _

lemma judges_attestObjectAccess (speaker address object : String) :
    Judges approveAccess.body
      (attestObjectAccess order store (some ⟨speaker, [address, object]⟩)) := by
  rcases hfound : getPrincipal order address with ⟨result, status⟩
  have hresult := getPrincipal_result hfound
  simp only [attestObjectAccess, readRequest, List.getElem?_cons_zero, Option.bind_eq_bind,
    Option.bind_some, hfound]
  cases result with
  | none => exact judges_answer (hresult.2 rfl) _
  | some p =>
      simp only [List.getElem?_cons_succ, List.getElem?_cons_zero, Option.bind_some]
      cases store.objects.find? object with
      | none => exact judges_answer (by decide) _
      | some o =>
          simp only
          cases store.images.find? p.imageId with
          | none => exact judges_answer (by decide) _
          | some i =>
              simp only
              split_ifs
              · exact Or.inl ⟨store, rfl⟩
              · exact judges_answer (by decide) _

lemma getPrincipal_found_iff {address : String} {p : Principal} :
    getPrincipal order address = (some p, statusOk) ↔ (getPrincipal order address).1 = some p := by
  rcases hfound : getPrincipal order address with ⟨result, status⟩
  constructor
  · intro h
    cases h
    rfl
  · intro h
    rw [← ((getPrincipal_result hfound).1 p h).1, ← h]

/-- The requirement that counts is the first one posted. -/
lemma Exact.requirement (h : Exact updates store) (object : String) :
    store.policy.requirement object = requirementOf updates object := by
  simp only [TestStore.policy, h.objects object]
  cases requirementOf updates object <;> rfl

/-- One requirement is stored for each object. -/
lemma Exact.requires_iff (h : Exact updates store) {object requirement : String} :
    store.Requires object requirement ↔ store.policy.requirement object = some requirement := by
  have hstored := h.objects object
  simp only [TestStore.Requires, TestStore.policy, hstored]
  cases requirementOf updates object with
  | none => simp
  | some first => simp [eq_comm]

/-- **The resolution**, for every order of iteration. -/
lemma resolves_getPrincipal (horder : order.Perm store.stored) (ip : String) (port : UInt32) :
    store.policy.Resolves ip (asInt port)
      (getPrincipal order (formatNetaddr ip (asInt port))).1 := by
  have hparse := parseAddress_formatNetaddr ip (asInt_bounds port).1 (asInt_bounds port).2
  cases hip : isIP ip with
  | false =>
      rw [hip, if_neg Bool.false_ne_true] at hparse
      rw [getPrincipal, hparse]
      exact Or.inl hip
  | true =>
      rw [hip, if_pos rfl] at hparse
      have hmem : ∀ p, p ∈ order ↔ store.policy.Registered p :=
        fun p => horder.mem_iff.trans registered_policy.symm
      have hscan := @Scan.scan_induction Principal (isFirst ip (asInt port)) (isDeeper ip) order
        (fun _ p => store.policy.Reached ip (asInt port) p) ?_ ?_ ?_
      · rcases hscan with ⟨hnone, hall⟩ | ⟨p, hsome, hp⟩
        · rw [getPrincipal_not_found hparse hnone]
          exact Or.inr fun p hp => isFirst_eq_false.mp (hall p ((hmem p).mpr hp))
        · rw [getPrincipal_found hparse hsome]
          exact ⟨hip, hp⟩
      · intro seen p hp _ hfirst
        exact .holds ((hmem p).mp hp) (isFirst_iff.mp hfirst)
      · intro seen p q hq hreached hdeeper
        obtain ⟨hqip, hmin⟩ := isDeeper_iff.mp hdeeper
        exact .inside hreached ((hmem q).mp hq) hqip hmin
      · intro seen p q _ hreached _
        exact hreached

end

end MetadataStub

end Libport
