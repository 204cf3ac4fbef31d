import Libport.Lib.Ledger
import Libport.Tools.MetadataStub

/-!
# Acknowledged updates of the stub (`tools/metadata_stub.go`)

A request that posts something and is answered with the status of success promises that it is in
the store from then on, a principal until it is retracted.

* `Call.promise`: what a request asks for, and `history` the promises made in a run.
* `InEffect`: what the store should hold then, and what `attestObjectAccess` should grant.
* `Loses`: a request that is answered with success and forgotten.  A principal whose range of
  ports is parsed but not accepted is answered with the status of the parser; the second
  requirement for an object is appended to a copy.
* `serve_cases`: every other request is refused, or has its effect on the store.
* **`acknowledged_updates_iff`**: the promises of a run are kept exactly when no request of the
  run is lost.
-/

namespace Libport

namespace MetadataStub

/-! ## Requests -/

inductive Op
  | postInstanceSet
  | retractInstanceSet
  | postAttesterImage
  | postImageProperty
  | postObjectAcl

/-- A request to one of the handlers that change the store. -/
structure Call where
  op : Op
  body : Option MetadataRequest

def Op.handler : Op → TestStore → Option MetadataRequest → Served
  | postInstanceSet => MetadataStub.postInstanceSet
  | retractInstanceSet => MetadataStub.retractInstanceSet
  | postAttesterImage => MetadataStub.postAttesterImage
  | postImageProperty => MetadataStub.postImageProperty
  | postObjectAcl => MetadataStub.postObjectAcl

/-- The response, unless the handler panics, and the store left. -/
def Call.serve (store : TestStore) (c : Call) : Option Response × TestStore :=
  match c.op.handler store c.body with
  | none => (none, store)
  | some (response, store') => (some response, store')

/-- The request was answered with the status of success. -/
def acknowledged (response : Option Response) : Bool := response.map Response.status = some statusOk

/-- What a successful request promises. -/
inductive Update
  | principal (name : String) (p : Principal)
  | retract (name : String)
  | image (name : String)
  | property (name property : String)
  | requirement (object requirement : String)

/-- The principal with the ip and the range that `parseIP` reads in the address posted. -/
def postedPrincipal (image address config : String) : Principal :=
  let (ip, p1, p2, _) := parseIP address
  ⟨image, OrderedMap.empty.insert "config" config, ip, p1, p2⟩

def Call.promise (c : Call) : Option Update :=
  match c.op, c.body.map MetadataRequest.otherValues with
  | .postInstanceSet, some [name, image, _, address, config] =>
      some (.principal name (postedPrincipal image address config))
  | .retractInstanceSet, some (name :: _) => some (.retract name)
  | .postAttesterImage, some (name :: _) => some (.image name)
  | .postImageProperty, some (name :: _ :: property :: _) => some (.property name property)
  | .postObjectAcl, some (name :: requirement :: _) => some (.requirement name requirement)
  | _, _ => none

/-- One more request: the store, and the promises made so far. -/
def record (state : TestStore × List Update) (c : Call) : TestStore × List Update :=
  let (response, store) := c.serve state.1
  (store, state.2 ++ if acknowledged response then c.promise.toList else [])

/-- A run from the start. -/
def history (calls : List Call) : TestStore × List Update :=
  calls.foldl record (.initial, [])

/-! ## Promises -/

/-- The principals posted and retracted. -/
def rows (updates : List Update) : List (Ledger.Entry String Principal) :=
  updates.filterMap fun u => match u with
    | .principal name p => some (.opened name p)
    | .retract name => some (.closed name)
    | _ => none

/-- The image is stored with the property. -/
def TestStore.HasProperty (store : TestStore) (name property : String) : Prop :=
  ∃ i, store.images.find? name = some i ∧ ((store.propertiesOf i).find? property).isSome

/-- The object is stored with the requirement. -/
def TestStore.Requires (store : TestStore) (object requirement : String) : Prop :=
  ∃ o, store.objects.find? object = some o ∧ requirement ∈ o.acls

/-- The promises are kept. -/
structure InEffect (updates : List Update) (store : TestStore) : Prop where
  principals : ∀ name p, Ledger.Live (rows updates) name p → store.principals.find? name = some p
  images : ∀ name, .image name ∈ updates → (store.images.find? name).isSome
  properties : ∀ name property, .property name property ∈ updates →
    store.HasProperty name property
  requirements : ∀ object requirement, .requirement object requirement ∈ updates →
    store.Requires object requirement
  /-- whatever order the principals are iterated over -/
  access : ∀ (order : List Principal) speaker address object rest p requirement,
    getPrincipal order address = (some p, statusOk) → store.HasProperty p.imageId requirement →
      .requirement object requirement ∈ updates →
        attestObjectAccess order store (some ⟨speaker, address :: object :: rest⟩)
          = some (approveAccess, store)

/-- The request is answered with success and leaves nothing behind. -/
inductive Loses (store : TestStore) : Call → Prop
  | badRange {speaker name image platform address config ip : String} {p1 p2 : ℤ}
      (hfresh : store.principals.find? name = none)
      (hparse : parseIP address = (ip, p1, p2, statusOk))
      (hbad : p1 > 65535 ∨ p2 > 65535 ∨ p1 > p2 ∨ ¬ isIP ip) :
      Loses store ⟨.postInstanceSet, some ⟨speaker, [name, image, platform, address, config]⟩⟩
  | laterRequirement {speaker object requirement : String} {rest : List String} {o : Object}
      (hstored : store.objects.find? object = some o) (hnew : requirement ∉ o.acls) :
      Loses store ⟨.postObjectAcl, some ⟨speaker, object :: requirement :: rest⟩⟩

/-! ## What a request does -/

/-- What a promise that is kept does to the store. -/
inductive Effect (store : TestStore) : Update → TestStore → Prop
  | principal {name : String} {p : Principal} (hfresh : store.principals.find? name = none) :
      Effect store (.principal name p)
        { store with principals := store.principals.insert name p }
  | retract {name : String} :
      Effect store (.retract name) { store with principals := store.principals.erase name }
  | image {name : String} (hfresh : store.images.find? name = none) :
      Effect store (.image name)
        { store with
          images := store.images.insert name ⟨store.heap.length⟩
          heap := store.heap ++ [.empty] }
  | property {name property : String} {i : Image} (hi : store.images.find? name = some i) :
      Effect store (.property name property)
        { store with heap := store.heap.modify i.properties (·.insert property "set") }
  | firstRequirement {object requirement : String}
      (hfresh : store.objects.find? object = none) :
      Effect store (.requirement object requirement)
        { store with objects := store.objects.insert object ⟨[requirement]⟩ }
  | sameRequirement {object requirement : String} (hstored : store.Requires object requirement) :
      Effect store (.requirement object requirement) store

/-- What a request that is not lost may do: it is refused and changes nothing, or it makes a
promise and has its effect. -/
def Kept (store : TestStore) (c : Call) : Prop :=
  acknowledged (c.serve store).1 = false ∧ (c.serve store).2 = store ∨
    acknowledged (c.serve store).1 = true ∧
      ∃ u, c.promise = some u ∧ Effect store u (c.serve store).2

section
variable {store store' : TestStore} {c : Call} {speaker : String} {values : List String}

lemma kept_of_panic (h : c.op.handler store c.body = none) : Kept store c := by
  refine Or.inl ?_
  rw [Call.serve, h]
  exact ⟨rfl, rfl⟩

lemma kept_of_refused {status : ℕ} (h : c.op.handler store c.body = answer status store)
    (hstatus : status ≠ statusOk) : Kept store c := by
  refine Or.inl ?_
  rw [Call.serve, h, answer]
  exact ⟨by simpa [acknowledged] using hstatus, rfl⟩

lemma kept_of_effect {u : Update}
    (h : ∃ body, c.op.handler store c.body = some (⟨statusOk, body⟩, store'))
    (hu : c.promise = some u) (heffect : Effect store u store') : Kept store c := by
  refine Or.inr ?_
  obtain ⟨body, h⟩ := h
  rw [Call.serve, h]
  exact ⟨rfl, u, hu, heffect⟩

lemma exists_five {name : String} (h : values.length = 4) :
    ∃ image platform address config, name :: values = [name, image, platform, address, config] := by
  match values, h with
  | [image, platform, address, config], _ => exact ⟨image, platform, address, config, rfl⟩

/-- A fresh principal with all five values: the two tests of its range decide. -/
lemma postInstanceSet_fresh {name image platform address config : String}
    (hfresh : store.principals.find? name = none) :
    let c : Call :=
      ⟨.postInstanceSet, some ⟨speaker, [name, image, platform, address, config]⟩⟩
    Loses store c ∨ Kept store c := by
  intro c
  rcases hparse : parseIP address with ⟨ip, p1, p2, status⟩
  by_cases hstatus : status = statusOk
  · subst hstatus
    by_cases hbad : p1 > 65535 ∨ p2 > 65535 ∨ p1 > p2 ∨ ¬ isIP ip
    · exact Or.inl (.badRange hfresh hparse hbad)
    · have hposted : postedPrincipal image address config
          = ⟨image, OrderedMap.empty.insert "config" config, ip, p1, p2⟩ := by
        rw [postedPrincipal, hparse]
      refine Or.inr (kept_of_effect ⟨r#"{"message":"['"# ++ name ++ r#"']"}"#, ?_⟩
        (congrArg _ (congrArg _ hposted)) (.principal hfresh))
      obtain ⟨hmin, hmax, horder, hip⟩ :
          p1 ≤ 65535 ∧ p2 ≤ 65535 ∧ p1 ≤ p2 ∧ isIP ip = true := by simpa [not_or] using hbad
      simp [c, Op.handler, postInstanceSet, readRequest, hfresh, hparse, hmin.not_gt, hmax.not_gt,
        horder.not_gt, hip]
  · refine Or.inr (kept_of_refused ?_ hstatus)
    simp [c, Op.handler, postInstanceSet, readRequest, hfresh, hparse, hstatus]

lemma postInstanceSet_cases :
    let c : Call := ⟨.postInstanceSet, some ⟨speaker, values⟩⟩
    Loses store c ∨ Kept store c := by
  intro c
  rcases values with _ | ⟨name, values⟩
  · exact Or.inr (kept_of_panic rfl)
  cases hname : store.principals.find? name with
  | some p =>
      refine Or.inr (@kept_of_refused store c statusConflict ?_ (by decide))
      simp [c, Op.handler, postInstanceSet, readRequest, hname]
  | none =>
      by_cases hlength : values.length = 4
      · obtain ⟨image, platform, address, config, hvalues⟩ := @exists_five values name hlength
        subst c
        rw [hvalues]
        exact postInstanceSet_fresh hname
      · refine Or.inr (@kept_of_refused store c statusBadRequest ?_ (by decide))
        simp [c, Op.handler, postInstanceSet, readRequest, hname, hlength]

lemma postAttesterImage_kept : Kept store ⟨.postAttesterImage, some ⟨speaker, values⟩⟩ := by
  rcases values with _ | ⟨name, rest⟩
  · exact kept_of_panic rfl
  cases hname : store.images.find? name with
  | some i =>
      refine @kept_of_refused _ _ statusConflict ?_ (by decide)
      simp [Op.handler, postAttesterImage, readRequest, hname]
  | none =>
      refine kept_of_effect ⟨"", ?_⟩ rfl (.image hname)
      simp [Op.handler, postAttesterImage, readRequest, hname, answer]

lemma postImageProperty_kept : Kept store ⟨.postImageProperty, some ⟨speaker, values⟩⟩ := by
  rcases values with _ | ⟨name, rest⟩
  · exact kept_of_panic rfl
  cases hname : store.images.find? name with
  | none =>
      refine @kept_of_refused _ _ statusNotFound ?_ (by decide)
      simp [Op.handler, postImageProperty, readRequest, hname]
  | some i =>
      rcases rest with _ | ⟨config, _ | ⟨property, rest⟩⟩
      · refine kept_of_panic ?_
        simp [Op.handler, postImageProperty, readRequest, hname]
      · refine kept_of_panic ?_
        simp [Op.handler, postImageProperty, readRequest, hname]
      · refine kept_of_effect ⟨"", ?_⟩ rfl (.property hname)
        simp [Op.handler, postImageProperty, readRequest, hname, answer]

lemma postObjectAcl_cases :
    let c : Call := ⟨.postObjectAcl, some ⟨speaker, values⟩⟩
    Loses store c ∨ Kept store c := by
  intro c
  rcases values with _ | ⟨object, _ | ⟨requirement, rest⟩⟩
  · exact Or.inr (kept_of_panic rfl)
  · exact Or.inr (kept_of_panic rfl)
  cases hobject : store.objects.find? object with
  | none =>
      refine Or.inr (kept_of_effect ⟨"", ?_⟩ rfl (.firstRequirement hobject))
      simp [c, Op.handler, postObjectAcl, readRequest, hobject, answer]
  | some o =>
      by_cases hmem : requirement ∈ o.acls
      · refine Or.inr (kept_of_effect ⟨"", ?_⟩ rfl (.sameRequirement ⟨o, hobject, hmem⟩))
        simp [c, Op.handler, postObjectAcl, readRequest, hobject, answer]
      · exact Or.inl (.laterRequirement hobject hmem)

lemma retractInstanceSet_kept : Kept store ⟨.retractInstanceSet, some ⟨speaker, values⟩⟩ := by
  rcases values with _ | ⟨name, rest⟩
  · exact kept_of_panic rfl
  · exact kept_of_effect ⟨"", rfl⟩ rfl .retract

/-- **What a request does.** -/
lemma serve_cases (store : TestStore) (c : Call) : Loses store c ∨ Kept store c := by
  obtain ⟨op, _ | ⟨speaker, values⟩⟩ := c
  · refine Or.inr (@kept_of_refused _ _ statusBadRequest ?_ (by decide))
    cases op <;> rfl
  · cases op with
    | postInstanceSet => exact postInstanceSet_cases
    | retractInstanceSet => exact Or.inr retractInstanceSet_kept
    | postAttesterImage => exact Or.inr postAttesterImage_kept
    | postImageProperty => exact Or.inr postImageProperty_kept
    | postObjectAcl => exact postObjectAcl_cases

end

/-! ## What stays in effect -/

section
variable {store store' : TestStore} {u : Update} {updates : List Update}

/-- Each image has a place on the heap. -/
def TestStore.Placed (store : TestStore) : Prop :=
  ∀ name i, store.images.find? name = some i → i.properties < store.heap.length

lemma propertiesOf_modify {r : ℕ} (hr : r < store.heap.length)
    (f : OrderedMap String String → OrderedMap String String) (i : Image) :
    ({ store with heap := store.heap.modify r f } : TestStore).propertiesOf i
      = if r = i.properties then f (store.propertiesOf i) else store.propertiesOf i := by
  unfold TestStore.propertiesOf
  rw [List.getElem?_modify]
  split_ifs with heq
  · rw [← heq, List.getElem?_eq_getElem hr]
    rfl
  · cases store.heap[i.properties]? <;> rfl

lemma isSome_find?_insert {m : OrderedMap String String} {k k' v : String}
    (h : (m.find? k').isSome) : ((m.insert k v).find? k').isSome := by
  by_cases hk : k' = k
  · rw [hk, OrderedMap.find?_insert_self]
    rfl
  · rw [OrderedMap.find?_insert_of_ne m v hk]
    exact h

lemma Effect.placed (h : Effect store u store') (hplaced : store.Placed) : store'.Placed := by
  cases h with
  | @image name hfresh =>
      intro other i hi
      rw [List.length_append, List.length_singleton]
      by_cases hother : other = name
      · rw [hother, OrderedMap.find?_insert_self] at hi
        cases hi
        exact Nat.lt_succ_self _
      · rw [OrderedMap.find?_insert_of_ne _ _ hother] at hi
        exact Nat.lt_succ_of_lt (hplaced other i hi)
  | property hi =>
      intro other i hi
      rw [List.length_modify]
      exact hplaced other i hi
  | _ => exact hplaced

lemma Effect.isSome_image (h : Effect store u store') {name : String}
    (himage : (store.images.find? name).isSome) : (store'.images.find? name).isSome := by
  cases h with
  | @image other hfresh =>
      by_cases hname : name = other
      · rw [hname, OrderedMap.find?_insert_self]
        rfl
      · rw [OrderedMap.find?_insert_of_ne _ _ hname]
        exact himage
  | _ => exact himage

/-- **A property stays with its image**: a new image gets a place of its own, and a map is only
added to. -/
lemma Effect.hasProperty (h : Effect store u store') (hplaced : store.Placed)
    {name property : String} (hhas : store.HasProperty name property) :
    store'.HasProperty name property := by
  obtain ⟨i, hi, hproperty⟩ := hhas
  cases h with
  | @image other hfresh =>
      have hname : name ≠ other := fun heq => by rw [heq, hfresh] at hi; cases hi
      refine ⟨i, ?_, ?_⟩
      · rw [OrderedMap.find?_insert_of_ne _ _ hname]
        exact hi
      · unfold TestStore.propertiesOf at hproperty ⊢
        rw [List.getElem?_append_left (hplaced name i hi)]
        exact hproperty
  | @property _ _ j hj =>
      refine ⟨i, hi, ?_⟩
      rw [propertiesOf_modify (hplaced _ j hj)]
      split_ifs
      · exact isSome_find?_insert hproperty
      · exact hproperty
  | _ => exact ⟨i, hi, hproperty⟩

lemma Effect.requires (h : Effect store u store') {object requirement : String}
    (hrequires : store.Requires object requirement) : store'.Requires object requirement := by
  obtain ⟨o, ho, hmem⟩ := hrequires
  cases h with
  | @firstRequirement other _ hfresh =>
      have hobject : object ≠ other := fun heq => by rw [heq, hfresh] at ho; cases ho
      refine ⟨o, ?_, hmem⟩
      rw [OrderedMap.find?_insert_of_ne _ _ hobject]
      exact ho
  | _ => exact ⟨o, ho, hmem⟩

lemma Effect.image_stored {name : String} (h : Effect store (.image name) store') :
    (store'.images.find? name).isSome := by
  cases h with
  | image hfresh =>
      rw [OrderedMap.find?_insert_self]
      rfl

lemma Effect.property_stored {name property : String}
    (h : Effect store (.property name property) store') (hplaced : store.Placed) :
    store'.HasProperty name property := by
  cases h with
  | @property _ _ i hi =>
      refine ⟨i, hi, ?_⟩
      rw [propertiesOf_modify (hplaced name i hi), if_pos rfl, OrderedMap.find?_insert_self]
      rfl

lemma Effect.requirement_stored {object requirement : String}
    (h : Effect store (.requirement object requirement) store') :
    store'.Requires object requirement := by
  cases h with
  | firstRequirement hfresh =>
      exact ⟨⟨[requirement]⟩, OrderedMap.find?_insert_self _ _ _, List.mem_cons_self⟩
  | sameRequirement hstored => exact hstored

lemma Effect.records (h : Effect store u store')
    (hrecords : Ledger.Records store.principals (rows updates)) :
    Ledger.Records store'.principals (rows (updates ++ [u])) := by
  unfold rows at hrecords ⊢
  rw [List.filterMap_append]
  cases h with
  | principal hfresh =>
      refine hrecords.insert (fun e he hname => ?_) _
      rw [← hname, OrderedMap.find?_eq_some.mpr he] at hfresh
      cases hfresh
  | retract => exact hrecords.erase _
  | _ => simpa using hrecords

/-- The promises are kept, in terms of what one more step keeps. -/
structure Keeps (updates : List Update) (store : TestStore) : Prop where
  records : Ledger.Records store.principals (rows updates)
  placed : store.Placed
  images : ∀ name, .image name ∈ updates → (store.images.find? name).isSome
  properties : ∀ name property, .property name property ∈ updates →
    store.HasProperty name property
  requirements : ∀ object requirement, .requirement object requirement ∈ updates →
    store.Requires object requirement

lemma keeps_initial : Keeps [] .initial where
  records := Ledger.Records.empty
  placed := by
    intro name i hi
    cases hi
  images := by simp
  properties := by simp
  requirements := by simp

/-- **The step lemma.** -/
lemma Keeps.effect (h : Keeps updates store) (heffect : Effect store u store') :
    Keeps (updates ++ [u]) store' where
  records := heffect.records h.records
  placed := heffect.placed h.placed
  images := by
    intro name hmem
    rcases List.mem_append.mp hmem with hmem | hmem
    · exact heffect.isSome_image (h.images name hmem)
    · obtain rfl := List.mem_singleton.mp hmem
      exact heffect.image_stored
  properties := by
    intro name property hmem
    rcases List.mem_append.mp hmem with hmem | hmem
    · exact heffect.hasProperty h.placed (h.properties name property hmem)
    · obtain rfl := List.mem_singleton.mp hmem
      exact heffect.property_stored h.placed
  requirements := by
    intro object requirement hmem
    rcases List.mem_append.mp hmem with hmem | hmem
    · exact heffect.requires (h.requirements object requirement hmem)
    · obtain rfl := List.mem_singleton.mp hmem
      exact heffect.requirement_stored

/-- **Access is granted** to a principal whose image has a requirement of the object. -/
lemma attestObjectAccess_grants {order : List Principal} {p : Principal}
    {speaker address object requirement : String} {rest : List String}
    (hresolve : getPrincipal order address = (some p, statusOk))
    (hhas : store.HasProperty p.imageId requirement)
    (hrequires : store.Requires object requirement) :
    attestObjectAccess order store (some ⟨speaker, address :: object :: rest⟩)
      = some (approveAccess, store) := by
  obtain ⟨i, hi, hproperty⟩ := hhas
  obtain ⟨o, ho, hmem⟩ := hrequires
  have hany : ∃ wanted ∈ o.acls, ((store.propertiesOf i).find? wanted).isSome :=
    ⟨requirement, hmem, hproperty⟩
  simp only [attestObjectAccess, readRequest, List.getElem?_cons_zero, List.getElem?_cons_succ,
    Option.bind_eq_bind, Option.bind_some, hresolve, ho, hi, List.any_eq_true, hany, if_true]

lemma Keeps.inEffect (h : Keeps updates store) : InEffect updates store where
  principals := fun name p hlive => OrderedMap.find?_eq_some.mpr ((h.records name p).mpr hlive)
  images := h.images
  properties := h.properties
  requirements := h.requirements
  access := fun _ _ _ object _ _ requirement hresolve hhas hmem =>
    attestObjectAccess_grants hresolve hhas (h.requirements object requirement hmem)

end

/-! ## Runs -/

section
variable {store : TestStore} {c : Call} {updates : List Update} {calls : List Call}

lemma history_concat (calls : List Call) (c : Call) :
    history (calls ++ [c]) = record (history calls) c := by
  rw [history, List.foldl_append]
  rfl

lemma Keeps.record (h : Keeps updates store) (hkept : Kept store c) :
    Keeps (record (store, updates) c).2 (record (store, updates) c).1 := by
  rcases hkept with ⟨hrefused, hstore⟩ | ⟨haccepted, u, hu, heffect⟩
  · simpa [MetadataStub.record, hrefused, hstore] using h
  · simpa [MetadataStub.record, haccepted, hu] using h.effect heffect

/-- **The run lemma.** -/
lemma keeps_history
    (h : ∀ done c, done ++ [c] <+: calls → ¬ Loses (history done).1 c) :
    Keeps (history calls).2 (history calls).1 := by
  induction calls using List.reverseRecOn with
  | nil => exact keeps_initial
  | append_singleton calls c ih =>
      have hcalls := ih fun done c hdone => h done c (hdone.trans (List.prefix_append _ _))
      rw [history_concat]
      exact hcalls.record ((serve_cases _ c).resolve_left (h calls c List.prefix_rfl))

/-- A request that is lost makes a promise, and the store stays what it was. -/
lemma Loses.record (h : Loses store c) :
    ∃ u, MetadataStub.record (store, updates) c = (store, updates ++ [u]) ∧
      c.promise = some u := by
  cases h with
  | @badRange speaker name image platform address config ip p1 p2 hfresh hparse hbad =>
      refine ⟨.principal name (postedPrincipal image address config), ?_, rfl⟩
      have hhandler : postInstanceSet store
          (some ⟨speaker, [name, image, platform, address, config]⟩) = answer statusOk store := by
        simp only [postInstanceSet, readRequest, List.getElem?_cons_zero, List.getElem?_cons_succ,
          Option.bind_eq_bind, Option.bind_some, hfresh, hparse, Option.isSome_none,
          Bool.false_eq_true, if_false, List.length_cons, List.length_nil, ne_eq,
          not_true_eq_false]
        exact if_pos (Or.inr hbad)
      rw [MetadataStub.record, Call.serve, Op.handler, hhandler]
      rfl
  | @laterRequirement speaker object requirement rest o hstored hnew =>
      refine ⟨.requirement object requirement, ?_, rfl⟩
      have hhandler : postObjectAcl store (some ⟨speaker, object :: requirement :: rest⟩)
          = answer statusOk store := by
        simp only [postObjectAcl, readRequest, List.getElem?_cons_zero, List.getElem?_cons_succ,
          Option.bind_eq_bind, Option.bind_some, hstored]
      rw [MetadataStub.record, Call.serve, Op.handler, hhandler]
      rfl

/-- **A lost request breaks its promise.** -/
lemma Loses.not_inEffect (h : Loses store c) :
    ¬ InEffect (MetadataStub.record (store, updates) c).2
      (MetadataStub.record (store, updates) c).1 := by
  obtain ⟨u, hrecord, hu⟩ := @Loses.record store c updates h
  rw [hrecord]
  intro hkept
  cases h with
  | badRange hfresh hparse hbad =>
      cases hu
      have hlive := hkept.principals _ _ (by
        rw [rows, List.filterMap_append]
        exact Ledger.live_opened.mpr (Or.inl rfl))
      rw [hfresh] at hlive
      cases hlive
  | laterRequirement hstored hnew =>
      cases hu
      obtain ⟨o, ho, hmem⟩ := hkept.requirements _ _ (List.mem_append_right _ List.mem_cons_self)
      rw [hstored] at ho
      cases ho
      exact hnew hmem

/-- **Acknowledged updates.**  After every request of a run the promises made so far are kept, if
and only if no request of the run is lost. -/
theorem acknowledged_updates_iff (calls : List Call) :
    (∀ done, done <+: calls → InEffect (history done).2 (history done).1) ↔
      ∀ done c, done ++ [c] <+: calls → ¬ Loses (history done).1 c := by
  constructor
  · intro hall done c hdone hloses
    have hkept := hall _ hdone
    rw [history_concat] at hkept
    exact hloses.not_inEffect hkept
  · intro hall done hdone
    exact (keeps_history fun before c hbefore => hall before c (hbefore.trans hdone)).inEffect

/-- Two requirements for one object. -/
def twoRequirements : List Call :=
  [⟨.postObjectAcl, some ⟨"alice", ["file", "happy"]⟩⟩,
    ⟨.postObjectAcl, some ⟨"alice", ["file", "unhappy"]⟩⟩]

theorem second_requirement_lost :
    ¬ ∀ calls : List Call, InEffect (history calls).2 (history calls).1 := by
  intro hall
  obtain ⟨o, ho, hmem⟩ := (hall twoRequirements).requirements "file" "unhappy" (by
    have hpromises : (history twoRequirements).2
        = [.requirement "file" "happy", .requirement "file" "unhappy"] := rfl
    rw [hpromises]
    simp)
  have hobject : (history twoRequirements).1.objects.find? "file" = some ⟨["happy"]⟩ := rfl
  rw [hobject] at ho
  cases ho
  revert hmem
  decide

end

end MetadataStub

end Libport
