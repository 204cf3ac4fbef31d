import Libport.Server.Metadata

/-!
# The key in a service reply (`extract_safe_identity` in `server/metadata.cc`)

The service answers a post with a message such as `['key']`.  The client takes the text between
the first and the last single quote of the message, whatever stands around them.

* `Quoted`: a message cut at its first and its last quote.
* `exists_quoted`: every message with two quotes is cut so, in one way (`Quoted.unique`).
* `extractSafeIdentity_of_quoted`: the key is what stands between the two.
* **`extractSafeIdentity_key`**: a message has a key exactly when it has two quotes.
-/

namespace Libport

/-- The single quote. -/
def quoteChar : Char := '\x27'

/-- `message` is `front`, a quote, `key`, a quote and `back`, and these are its first and its
last quote. -/
structure Quoted (message front key back : String) : Prop where
  text : message = front ++ "'" ++ key ++ "'" ++ back
  front_clean : quoteChar ∉ front.toList
  back_clean : quoteChar ∉ back.toList

/-- The number of single quotes in a text. -/
def quotes (message : String) : ℕ := message.toList.count quoteChar

lemma toList_quote : "'".toList = [quoteChar] := rfl

namespace Quoted

variable {message front key back : String}

/-- The text as seen from its first quote. -/
lemma toList (h : Quoted message front key back) :
    message.toList = front.toList ++ quoteChar :: (key.toList ++ quoteChar :: back.toList) := by
  rw [h.text]
  simp [String.toList_append, toList_quote]

/-- The text as seen from its last quote. -/
lemma toList_last (h : Quoted message front key back) :
    message.toList = (front.toList ++ quoteChar :: key.toList) ++ quoteChar :: back.toList := by
  rw [h.toList, List.append_assoc, List.cons_append]

lemma find_eq (h : Quoted message front key back) :
    Text.find message "'" = some front.length := by
  rw [Text.find, toList_quote, Text.findList_single_eq_some]
  exact ⟨front.toList, _, h.toList, h.front_clean, String.length_toList⟩

lemma rfind_eq (h : Quoted message front key back) :
    Text.rfind message "'" = some (front.length + 1 + key.length) := by
  rw [Text.rfind, toList_quote, h.toList_last, Text.rfindList_single_append h.back_clean]
  simp only [List.length_append, List.length_cons, String.length_toList, Option.some.injEq]
  omega

lemma substr_eq (h : Quoted message front key back) :
    Text.substr message (front.length + 1) key.length = key := by
  rw [Text.substr, h.toList, ← String.length_toList, ← String.length_toList]
  simp

/-- **A message is cut in one way.** -/
lemma unique {front' key' back' : String} (h : Quoted message front key back)
    (h' : Quoted message front' key' back') : front = front' ∧ key = key' ∧ back = back' := by
  obtain ⟨hfront, hrest⟩ := Text.split_first (h.toList.symm.trans h'.toList) h.front_clean
    h'.front_clean
  obtain ⟨hkey, hback⟩ := Text.split_last hrest h.back_clean h'.back_clean
  exact ⟨String.toList_inj.mp hfront, String.toList_inj.mp hkey, String.toList_inj.mp hback⟩

end Quoted

/-- The first quote of a text, and the quotes behind it. -/
lemma exists_first_quote {message : String} (h : 0 < quotes message) :
    ∃ front rest, message.toList = front ++ quoteChar :: rest ∧ quoteChar ∉ front ∧
      rest.count quoteChar + 1 = quotes message := by
  obtain ⟨front, rest, hmessage, hfront⟩ :=
    List.eq_append_cons_of_mem (List.count_pos_iff.mp h)
  refine ⟨front, rest, hmessage, hfront, ?_⟩
  rw [quotes, hmessage, List.count_append, List.count_cons_self, List.count_eq_zero.mpr hfront,
    Nat.zero_add]

lemma exists_quoted {message : String} (h : 2 ≤ quotes message) :
    ∃ front key back, Quoted message front key back := by
  obtain ⟨front, rest, hmessage, hfront, hcount⟩ := exists_first_quote (Nat.zero_lt_of_lt h)
  have hrest : quoteChar ∈ rest := List.count_pos_iff.mp (by omega)
  obtain ⟨key, back, rfl, hback⟩ := Text.exists_last_of_mem hrest
  refine ⟨String.ofList front, String.ofList key, String.ofList back, ?_, ?_, ?_⟩
  · apply String.toList_inj.mp
    rw [hmessage]
    simp [String.toList_append, toList_quote]
  · simpa using hfront
  · simpa using hback

/-! ## The two searches -/

lemma find_eq_none_of_quotes {message : String} (h : quotes message = 0) :
    Text.find message "'" = none := by
  rw [Text.find_eq_none_iff, toList_quote, List.singleton_infix_iff]
  exact List.count_eq_zero.mp h

/-- With one quote both searches find it. -/
lemma find_eq_rfind_of_quotes {message : String} (h : quotes message = 1) :
    ∃ start, Text.find message "'" = some start ∧ Text.rfind message "'" = some start := by
  have hpos : 0 < quotes message := by omega
  obtain ⟨front, back, hmessage, hfront, hcount⟩ := exists_first_quote hpos
  have hback : quoteChar ∉ back := List.count_eq_zero.mp (by omega)
  refine ⟨front.length, ?_, ?_⟩
  · rw [Text.find, toList_quote, Text.findList_single_eq_some]
    exact ⟨front, back, hmessage, hfront, rfl⟩
  · rw [Text.rfind, toList_quote, hmessage, Text.rfindList_single_append hback]

/-! ## The key -/

section
variable {result : Json} {message : String}

/-- Too few quotes: one of the two checks fails. -/
lemma extractSafeIdentity_throws (hmessage : result.stringField "message" = .ok message)
    (h : quotes message < 2) :
    ∃ what, extractSafeIdentity result = .error (.runtimeError what) := by
  rw [extractSafeIdentity, hmessage]
  obtain hzero | hone : quotes message = 0 ∨ quotes message = 1 := by omega
  · exact ⟨_, by simp [bind, Except.bind, find_eq_none_of_quotes hzero]; rfl⟩
  · obtain ⟨start, hfind, hrfind⟩ := find_eq_rfind_of_quotes hone
    exact ⟨_, by simp [bind, Except.bind, hfind, hrfind]; rfl⟩

lemma extractSafeIdentity_of_quoted {front key back : String}
    (hmessage : result.stringField "message" = .ok message)
    (h : Quoted message front key back) : extractSafeIdentity result = .ok key := by
  have hne : ¬ front.length + 1 + key.length = front.length := by omega
  have hlength : front.length + 1 + key.length - front.length - 1 = key.length := by omega
  rw [extractSafeIdentity, hmessage]
  simp [bind, Except.bind, h.find_eq, h.rfind_eq, hne, hlength, h.substr_eq]

end

/-- The wrapping of the service. -/
lemma quoted_wrapped (key : String) : Quoted ("['" ++ key ++ "']") "[" key "]" where
  text := by
    apply String.toList_inj.mp
    simp [String.toList_append]
  front_clean := by decide
  back_clean := by decide

/-- **The key of a reply.**  A message without two quotes raises a `runtime_error`; every other
one is cut in exactly one way at its first and its last quote, what stands between them is
returned, and the length `end - start - 1` is that of the key.  So the wrapping `['key']` is
undone for every key. -/
theorem extractSafeIdentity_key (result : Json) (message : String)
    (hmessage : result.stringField "message" = .ok message) :
    ((∃ what, extractSafeIdentity result = .error (.runtimeError what)) ↔ quotes message < 2) ∧
      (¬ quotes message < 2 → ∃! cut : String × String × String,
        Quoted message cut.1 cut.2.1 cut.2.2) ∧
      (∀ front key back, Quoted message front key back →
        extractSafeIdentity result = .ok key ∧
          ∃ start last, Text.find message "'" = some start ∧ Text.rfind message "'" = some last ∧
            start + 1 ≤ last ∧ last - start - 1 = key.length) ∧
      (∀ key, message = "['" ++ key ++ "']" → extractSafeIdentity result = .ok key) := by
  refine ⟨⟨?_, extractSafeIdentity_throws hmessage⟩, ?_, ?_, ?_⟩
  · rintro ⟨what, hthrow⟩
    by_contra hquotes
    obtain ⟨front, key, back, hcut⟩ := exists_quoted (not_lt.mp hquotes)
    rw [extractSafeIdentity_of_quoted hmessage hcut] at hthrow
    cases hthrow
  · intro hquotes
    obtain ⟨front, key, back, hcut⟩ := exists_quoted (not_lt.mp hquotes)
    refine ⟨(front, key, back), hcut, ?_⟩
    rintro ⟨front', key', back'⟩ hcut'
    obtain ⟨rfl, rfl, rfl⟩ := hcut.unique hcut'
    rfl
  · intro front key back hcut
    refine ⟨extractSafeIdentity_of_quoted hmessage hcut, _, _, hcut.find_eq, hcut.rfind_eq, ?_, ?_⟩
    · omega
    · omega
  · rintro key rfl
    exact extractSafeIdentity_of_quoted hmessage (quoted_wrapped key)

theorem extractSafeIdentity_key_quotes_inside :
    extractSafeIdentity (.object [("message", .string "['it''s']")]) = .ok "it''s" :=
  (extractSafeIdentity_key (.object [("message", .string "['it''s']")]) _ rfl).2.2.2 "it''s"
    (by decide)

end Libport
