import Libport.Client.Ports

/-!
# Configuration strings (`client/client.cc`)

`AttGuardClient::create_instance` splits each configuration string at its first `=`.  It uses the
position that `find` returns without a test for `npos`.

* `splitConfig_eq_some`: a split gives the two texts around the first `=`.
* `fillConfig_find?`: the map that the strings fill; of several strings with one key the last one
  counts.
* **`createInstance_configs_iff`**: the map is built, and holds what the strings say, if and only if
  every string has an `=`.
-/

namespace Libport

/-! ## One string -/

/-- The string is `key`, an `=` and `value`, and the `=` is its first one. -/
def Assigns (s key value : String) : Prop := s = key ++ "=" ++ value ∧ '=' ∉ key.toList

lemma find_equals {s : String} {i : ℕ} :
    Text.find s "=" = some i ↔ ∃ front back, s.toList = front ++ '=' :: back ∧ '=' ∉ front ∧
      front.length = i := by
  have hpat : "=".toList = ['='] := rfl
  rw [Text.find, hpat, Text.findList_single_eq_some]

lemma splitConfig_of_toList {s : String} {front back : List Char}
    (h : s.toList = front ++ '=' :: back) (hfront : '=' ∉ front) :
    splitConfig s = some (String.ofList front, String.ofList back) := by
  have hfind : Text.find s "=" = some front.length :=
    find_equals.mpr ⟨front, back, h, hfront, rfl⟩
  have hlen : back.length ≤ s.length := by
    rw [← String.length_toList, h]
    simp only [List.length_append, List.length_cons]
    omega
  have hkey : (s.toList.drop 0).take front.length = front := by simp [h]
  have hval : (s.toList.drop (front.length + 1)).take s.length = back := by
    rw [h, ← List.drop_drop, List.drop_left]
    exact List.take_of_length_le hlen
  rw [splitConfig, hfind, Option.map_some, Text.substr, Text.substr, hkey, hval]

/-- **A split is at the first `=`**, and fails only where there is none. -/
lemma splitConfig_eq_some {s key value : String} :
    splitConfig s = some (key, value) ↔ Assigns s key value := by
  constructor
  · intro h
    obtain ⟨i, hfind, -⟩ := Option.map_eq_some_iff.mp h
    obtain ⟨front, back, hsplit, hfront, -⟩ := find_equals.mp hfind
    rw [splitConfig_of_toList hsplit hfront] at h
    cases h
    refine ⟨?_, by simpa using hfront⟩
    apply String.toList_inj.mp
    simpa using hsplit
  · rintro ⟨rfl, hkey⟩
    have hsplit : (key ++ "=" ++ value).toList = key.toList ++ '=' :: value.toList := by simp
    rw [splitConfig_of_toList hsplit hkey, String.ofList_toList, String.ofList_toList]

lemma splitConfig_isSome {s : String} : (splitConfig s).isSome ↔ '=' ∈ s.toList := by
  have hsearch : Text.find s "=" = none ↔ '=' ∉ s.toList := by
    rw [Text.find_eq_none_iff]
    have heq : "=".toList = ['='] := rfl
    rw [heq, List.singleton_infix_iff]
  rw [splitConfig, Option.isSome_map, Option.isSome_iff_ne_none, ne_eq, hsearch, not_not]

/-! ## All strings -/

/-- The last string of the list that assigns to `key` assigns `value`. -/
def LastAssigns (strings : List String) (key value : String) : Prop :=
  ∃ before s after, strings = before ++ s :: after ∧ Assigns s key value ∧
    ∀ t ∈ after, ∀ other, ¬ Assigns t key other

lemma lastAssigns_cons {s key value : String} {rest : List String} :
    LastAssigns (s :: rest) key value ↔ LastAssigns rest key value ∨
      Assigns s key value ∧ ∀ t ∈ rest, ∀ other, ¬ Assigns t key other := by
  constructor
  · rintro ⟨before, last, after, hsplit, hassigns, hafter⟩
    cases before with
    | nil =>
        obtain ⟨rfl, rfl⟩ := List.cons.inj hsplit
        exact Or.inr ⟨hassigns, hafter⟩
    | cons first before =>
        obtain ⟨-, rfl⟩ := List.cons.inj hsplit
        exact Or.inl ⟨before, last, after, rfl, hassigns, hafter⟩
  · rintro (⟨before, last, after, rfl, hassigns, hafter⟩ | ⟨hassigns, hafter⟩)
    · exact ⟨s :: before, last, after, rfl, hassigns, hafter⟩
    · exact ⟨[], s, rest, rfl, hassigns, hafter⟩

/-- **The map that the strings fill.** -/
lemma fillConfig_find? {strings : List String} {confmap filled : ConfigMap}
    (h : fillConfig strings confmap = some filled) (key value : String) :
    filled.find? key = some value ↔ LastAssigns strings key value ∨
      confmap.find? key = some value ∧ ∀ t ∈ strings, ∀ other, ¬ Assigns t key other := by
  induction strings generalizing confmap with
  | nil =>
      cases h
      simp [LastAssigns]
  | cons s rest ih =>
      rw [fillConfig] at h
      cases hsplit : splitConfig s with
      | none => simp [hsplit] at h
      | some assigned =>
          obtain ⟨k, v⟩ := assigned
          rw [hsplit] at h
          have hs : ∀ key value, Assigns s key value ↔ key = k ∧ value = v := by
            intro key value
            rw [← splitConfig_eq_some, hsplit, Option.some.injEq, Prod.mk.injEq, eq_comm,
              @eq_comm _ v]
          simp only [ih h, lastAssigns_cons, ConfigMap.find?_set, List.forall_mem_cons, hs]
          by_cases hk : key = k
          · simp [hk, eq_comm, and_comm]
          · simp [hk]

lemma fillConfig_isSome {strings : List String} {confmap : ConfigMap} :
    (fillConfig strings confmap).isSome ↔ ∀ s ∈ strings, '=' ∈ s.toList := by
  induction strings generalizing confmap with
  | nil => simp [fillConfig]
  | cons s rest ih =>
      rw [fillConfig, List.forall_mem_cons, ← splitConfig_isSome]
      cases splitConfig s with
      | none => simp
      | some assigned => simpa using ih

/-! ## The calls -/

/-- The one string of `create_principal`, whatever the configuration holds. -/
lemma splitConfig_legacy (config : String) :
    splitConfig (legacyConfigKey ++ "=" ++ config) = some (legacyConfigKey, config) :=
  splitConfig_eq_some.mpr ⟨rfl, by decide⟩

lemma createPrincipal_config (myip : String) (uuid : UInt64) (image config ip : String)
    (lo hi : UInt32) :
    ∃ p, AttGuardClient.createPrincipal myip uuid image config ip lo hi = some p ∧
      p.code.config = .single legacyConfigKey config := by
  rw [AttGuardClient.createPrincipal, AttGuardClient.createInstance, fillConfig,
    splitConfig_legacy]
  exact ⟨_, rfl, rfl⟩

/-- **The configuration is built as the strings say if and only if every string has an `=`.**
`create_principal` forms a string that always has one. -/
theorem createInstance_configs_iff (myip : String) (pid : UInt64) (image : String)
    (rawConfigs : List String) (config ip : String) (lport rport : UInt32) (storage : String) :
    ((∃ p, AttGuardClient.createInstance myip pid image rawConfigs ip lport rport storage = some p ∧
        ∀ key value, p.code.config.find? key = some value ↔ LastAssigns rawConfigs key value) ↔
      ∀ s ∈ rawConfigs, '=' ∈ s.toList) ∧
    ∃ p, AttGuardClient.createPrincipal myip pid image config ip lport rport = some p ∧
      p.code.config = .single legacyConfigKey config := by
  refine ⟨⟨?_, ?_⟩, createPrincipal_config myip pid image config ip lport rport⟩
  · rintro ⟨p, hp, -⟩
    obtain ⟨confmap, hfill, -⟩ := Option.map_eq_some_iff.mp hp
    exact fillConfig_isSome.mp (Option.isSome_of_eq_some hfill)
  · intro hall
    obtain ⟨confmap, hfill⟩ := Option.isSome_iff_exists.mp
      (@fillConfig_isSome _ .empty |>.mpr hall)
    refine ⟨_, Option.map_eq_some_iff.mpr ⟨confmap, hfill, rfl⟩, fun key value => ?_⟩
    simp [fillConfig_find? hfill]

/-- **A string without an `=`**: the call of the C interface does not return. -/
theorem createInstance_noEquals :
    AttGuardClient.createInstance "10.0.0.1" 7 "image" ["mode=fast", "debug"] "10.0.0.2" 1 65535 ""
      = none ∧
    liblatteCreateInstance "10.0.0.1" 0 7 "image" (some "10.0.0.2") 0 none ["mode=fast", "debug"]
      = .aborted :=
  ⟨rfl, rfl⟩

end Libport
