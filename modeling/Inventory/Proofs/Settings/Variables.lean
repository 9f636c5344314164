/-
# What environment variables set

`env_layer` of `ConfigProvider`.

A variable sets one key at most, the first of the path that its name writes. The value of a key
is that of the last variable that sets it (`Environment.value?`, `Environment.get?_layer`). When
one variable at most sets each key, the order of the variables does not matter
(`Environment.value?_eq_of_perm`); so it is when the names are plain and no two differ in case
only (`Environment.Distinct.setOnce`).

| name of the variable | sets |
| --- | --- |
| prefix and key, in any case | the key, to the value that is read |
| prefix, key and further keys after points | the key, to an object |
| another prefix, or an empty key | nothing |
-/

import Inventory.Proofs.OrderedMap
import Inventory.Settings.Environment

namespace Inventory

/-! ### Letters of ASCII -/

namespace Text

/-- Lower case of ASCII changes no other character. -/
theorem isAscii_or_toLower_eq (c : Char) : c.toNat < 128 ∨ c.toLower = c := by
  by_cases hc : c.toNat < 128
  · exact .inl hc
  · refine .inr (dif_neg fun hrange => hc ?_)
    have hle : c.toNat ≤ 'Z'.toNat := hrange.2
    exact Nat.lt_of_le_of_lt hle (by decide)

/-- What holds of each of the first characters holds of them all. -/
theorem forall_ascii {p : Char → Prop} (h : ∀ n < 128, p (Char.ofNat n)) {c : Char}
    (hc : c.toNat < 128) : p c := by
  have hchar := h c.toNat hc
  rwa [Char.ofNat_toNat] at hchar

/-- White space stays white space in lower case. -/
theorem isWhiteSpace_toLower (c : Char) : isWhiteSpace c.toLower = isWhiteSpace c := by
  rcases isAscii_or_toLower_eq c with hc | hc
  · have hall : ∀ n < 128, isWhiteSpace (Char.ofNat n).toLower = isWhiteSpace (Char.ofNat n) := by
      decide +kernel
    exact forall_ascii (p := fun c => isWhiteSpace c.toLower = isWhiteSpace c) hall hc
  · rw [hc]

/-- A character whose lower case is one of the first is one of them. -/
theorem toNat_lt_of_toLower {c : Char} (h : c.toLower.toNat < 128) : c.toNat < 128 := by
  rcases isAscii_or_toLower_eq c with hc | hc
  · exact hc
  · rwa [hc] at h

/-- Lower case of a text of ASCII goes letter by letter. -/
theorem lower_of_ascii {s : List Char} (h : ∀ c ∈ s, c.toNat < 128) :
    lower s = s.map Char.toLower := by
  have hafter (before : List Char) : lowerAfter before s = s.map Char.toLower := by
    induction s generalizing before with
    | nil => rfl
    | cons c rest ih =>
      obtain ⟨hc, hrest⟩ := List.forall_mem_cons.1 h
      have hall : ∀ n < 128, simpleLower (Char.ofNat n) = (Char.ofNat n).toLower := by
        decide +kernel
      have hlower : simpleLower c = c.toLower :=
        forall_ascii (p := fun c => simpleLower c = c.toLower) hall hc
      have hsigma : c ≠ 'Σ' := by
        rintro rfl
        exact absurd hc (by decide)
      have hdotted : c ≠ 'İ' := by
        rintro rfl
        exact absurd hc (by decide)
      rw [lowerAfter, if_neg hsigma, if_neg hdotted, hlower, ih hrest]
      rfl
  exact hafter []

/-- Without white space there is nothing to trim. -/
theorem trim_eq_self {s : List Char} (h : ∀ c ∈ s, isWhiteSpace c = false) : trim s = s := by
  have hdrop {s : List Char} (h : ∀ c ∈ s, isWhiteSpace c = false) :
      s.dropWhile isWhiteSpace = s := by
    cases s with
    | nil => rfl
    | cons c rest => simp [List.dropWhile, h c List.mem_cons_self]
  have hreverse : ∀ c ∈ s.reverse, isWhiteSpace c = false :=
    fun c hc => h c (List.mem_reverse.1 hc)
  rw [trim, hdrop h, hdrop hreverse, List.reverse_reverse]

end Text

namespace Environment

variable {leading name key : String} {e e' : String × String} {env env' : List (String × String)}

/-! ### Names -/

/-- Without a point a name is one part. -/
theorem splitPoints_of_notMem {l : List Char} (h : '.' ∉ l) : splitPoints l = [l] := by
  induction l with
  | nil => rfl
  | cons c rest ih =>
    rw [List.mem_cons, not_or] at h
    rw [splitPoints, if_neg (Ne.symm h.1), ih h.2]

/-- Two names that differ in the case of their letters at most. -/
def SameLetters (name name' : String) : Prop :=
  name.toList.map Char.toLower = name'.toList.map Char.toLower

instance (name name' : String) : Decidable (SameLetters name name') :=
  inferInstanceAs (Decidable (_ = _))

/-- A name of ASCII without white space and points. -/
def IsPlainName (name : String) : Prop :=
  ∀ c ∈ name.toList, c.toNat < 128 ∧ Text.isWhiteSpace c = false ∧ c ≠ '.'

/-- A small letter of ASCII or an underscore. -/
def isKeyLetter (c : Char) : Bool := c.isLower || c = '_'

/-- A key of small letters and underscores. -/
def IsPlainKey (key : String) : Prop := key ≠ "" ∧ key.toList.all isKeyLetter = true

instance (key : String) : Decidable (IsPlainKey key) :=
  inferInstanceAs (Decidable (_ ∧ _ = true))

/-- Letters of keys are among the first characters. -/
theorem toNat_lt_of_isKeyLetter {c : Char} (h : isKeyLetter c = true) : c.toNat < 128 := by
  rw [isKeyLetter, Bool.or_eq_true] at h
  rcases h with hlower | hunderscore
  · have hboth : (decide ('a' ≤ c) && decide (c ≤ 'z')) = true := hlower
    rw [Bool.and_eq_true, decide_eq_true_eq, decide_eq_true_eq] at hboth
    have hle : c.toNat ≤ 'z'.toNat := hboth.2
    exact Nat.lt_of_le_of_lt hle (by decide)
  · rw [of_decide_eq_true hunderscore]
    decide

/-- A plain key is a plain name. -/
theorem IsPlainKey.isPlainName (h : IsPlainKey key) : IsPlainName key := by
  intro c hc
  have hletter : isKeyLetter c = true := List.all_eq_true.1 h.2 c hc
  have hascii : c.toNat < 128 := toNat_lt_of_isKeyLetter hletter
  have hall : ∀ n < 128, isKeyLetter (Char.ofNat n) = true →
      Text.isWhiteSpace (Char.ofNat n) = false ∧ Char.ofNat n ≠ '.' := by decide +kernel
  have hplain := Text.forall_ascii
    (p := fun c => isKeyLetter c = true → Text.isWhiteSpace c = false ∧ c ≠ '.') hall hascii
  exact ⟨hascii, hplain hletter⟩

/-- A plain key is in lower case. -/
theorem IsPlainKey.map_toLower (h : IsPlainKey key) :
    key.toList.map Char.toLower = key.toList := by
  have hself : ∀ c ∈ key.toList, c.toLower = id c := by
    intro c hc
    have hletter : isKeyLetter c = true := List.all_eq_true.1 h.2 c hc
    have hall : ∀ n < 128, isKeyLetter (Char.ofNat n) = true →
        (Char.ofNat n).toLower = Char.ofNat n := by decide
    exact Text.forall_ascii (p := fun c => isKeyLetter c = true → c.toLower = c) hall
      (toNat_lt_of_isKeyLetter hletter) hletter
  rw [List.map_congr_left hself, List.map_id]

/-- Lower case of a plain name is plain. -/
theorem IsPlainName.map_toLower (h : IsPlainName name) :
    ∀ c ∈ name.toList.map Char.toLower, Text.isWhiteSpace c = false ∧ c ≠ '.' := by
  intro c hc
  obtain ⟨c, hmem, rfl⟩ := List.mem_map.1 hc
  obtain ⟨hascii, hwhite, hpoint⟩ := h c hmem
  refine ⟨by rw [Text.isWhiteSpace_toLower, hwhite], ?_⟩
  have hall : ∀ n < 128, Char.ofNat n ≠ '.' → (Char.ofNat n).toLower ≠ '.' := by decide
  exact Text.forall_ascii (p := fun c => c ≠ '.' → c.toLower ≠ '.') hall hascii hpoint

/-- **In any case** prefix and key are the name of a variable that sets the key. -/
theorem keyPath?_of_sameLetters (hleading : ∀ c ∈ leading.toList, Text.isWhiteSpace c = false)
    (hkey : IsPlainKey key) (hname : SameLetters name (leading ++ key)) :
    keyPath? leading name = some [key] := by
  rw [SameLetters, String.toList_append, List.map_append, hkey.map_toLower] at hname
  -- No white space is trimmed from the name.
  have hwhite : ∀ c ∈ name.toList, Text.isWhiteSpace c = false := by
    intro c hc
    have hmem := List.mem_map_of_mem (f := Char.toLower) hc
    rw [hname, List.mem_append] at hmem
    rw [← Text.isWhiteSpace_toLower]
    rcases hmem with hbefore | hafter
    · obtain ⟨c', hc', heq⟩ := List.mem_map.1 hbefore
      rw [← heq, Text.isWhiteSpace_toLower]
      exact hleading c' hc'
    · exact (hkey.isPlainName _ hafter).2.1
  have hlength : (leading.toList.map Char.toLower).length = leading.length := by
    rw [List.length_map, String.length_toList]
  have hstart : (name.toList.take leading.length).map Char.toLower
      = leading.toList.map Char.toLower := by
    rw [List.map_take, hname, ← hlength, List.take_left]
  have hrest : (name.toList.drop leading.length).map Char.toLower = key.toList := by
    rw [List.map_drop, hname, ← hlength, List.drop_left]
  have hascii : ∀ c ∈ name.toList.drop leading.length, c.toNat < 128 := by
    intro c hc
    have hmem := List.mem_map_of_mem (f := Char.toLower) hc
    rw [hrest] at hmem
    exact Text.toNat_lt_of_toLower (hkey.isPlainName _ hmem).1
  have htrimmed : Text.trim (Text.lower (name.toList.drop leading.length)) = key.toList := by
    rw [Text.lower_of_ascii hascii, hrest]
    exact Text.trim_eq_self fun c hc => (hkey.isPlainName c hc).2.1
  have hpoints : splitPoints key.toList = [key.toList] :=
    splitPoints_of_notMem fun hmem => (hkey.isPlainName _ hmem).2.2 rfl
  have hnonempty : key.toList ≠ [] := fun h => hkey.1 (String.toList_eq_nil_iff.1 h)
  simp [keyPath?, Text.trim_eq_self hwhite, hstart, htrimmed, hpoints, hnonempty]

/-- A plain name that sets a plain key is prefix and key, in some case. -/
theorem sameLetters_of_keyPath? {path : List String} (hname : IsPlainName name)
    (hkey : IsPlainKey key) (h : keyPath? leading name = some (key :: path)) :
    SameLetters name (leading ++ key) := by
  have hrest : ∀ c ∈ name.toList.drop leading.length,
      c.toNat < 128 ∧ Text.isWhiteSpace c = false ∧ c ≠ '.' :=
    fun c hc => hname c (List.mem_of_mem_drop hc)
  have hlower : ∀ c ∈ (name.toList.drop leading.length).map Char.toLower,
      Text.isWhiteSpace c = false ∧ c ≠ '.' := by
    intro c hc
    rw [List.map_drop] at hc
    exact hname.map_toLower c (List.mem_of_mem_drop hc)
  have htrim := Text.trim_eq_self fun c hc => (hname c hc).2.1
  have htrimmed := Text.trim_eq_self fun c hc => (hlower c hc).1
  have hpoints := splitPoints_of_notMem fun hmem => (hlower _ hmem).2 rfl
  simp only [keyPath?, htrim, Text.lower_of_ascii fun c hc => (hrest c hc).1, htrimmed,
    hpoints] at h
  split at h
  · rename_i hstart
    split at h
    · cases h
    · obtain ⟨heq, -⟩ := List.cons.inj (Option.some.inj h)
      rw [SameLetters, String.toList_append, List.map_append, hkey.map_toLower, ← heq,
        String.toList_ofList, ← hstart, ← List.map_append, List.take_append_drop]
  · cases h

/-! ### Values -/

/-- The value that a variable gives a key, if it sets the key. -/
def given? (leading : String) (e : String × String) (key : String) : Option Data :=
  match keyPath? leading e.1 with
  | some (first :: path) => if first = key then some (nested (valueOf e.2) path) else none
  | _ => none

/-- The value that variables give a key: that of the last which sets it. -/
def value? (leading : String) (env : List (String × String)) (key : String) : Option Data :=
  env.reverse.findSome? (given? leading · key)

/-- The last variable that sets a key counts. -/
theorem value?_append_singleton (env : List (String × String)) (e : String × String)
    (key : String) :
    value? leading (env ++ [e]) key = (given? leading e key).or (value? leading env key) := by
  rw [value?, List.reverse_append, List.reverse_singleton, List.singleton_append,
    List.findSome?_cons]
  cases given? leading e key <;> rfl

/-- **The layer of the environment** has the value that the variables give. -/
theorem get?_layer (leading : String) (env : List (String × String)) (key : String) :
    (layer leading env).get? key = value? leading env key := by
  induction env using List.reverseRecOn with
  | nil => rfl
  | append_singleton env e ih =>
    rw [value?_append_singleton, ← ih, layer, layer, List.filterMap_append,
      OrderedMap.get?_ofList, OrderedMap.get?_ofList, List.reverse_append]
    obtain ⟨name, text⟩ := e
    rw [given?]
    rcases hpath : keyPath? leading name with _ | _ | ⟨first, path⟩
    · simp [hpath]
    · simp [hpath]
    · by_cases hkey : first = key <;> simp [hpath, hkey, OrderedMap.lookupIn]

/-- Variables that do not set a key do not matter for it. -/
theorem value?_filter {p : String × String → Bool} (env : List (String × String))
    (h : ∀ e, (given? leading e key).isSome → p e = true) :
    value? leading (env.filter p) key = value? leading env key := by
  induction env using List.reverseRecOn with
  | nil => rfl
  | append_singleton env e ih =>
    rw [List.filter_append, value?_append_singleton, ← ih]
    by_cases hp : p e = true
    · rw [List.filter_cons_of_pos hp, List.filter_nil, value?_append_singleton]
    · rw [List.filter_cons_of_neg hp, List.filter_nil, List.append_nil]
      have hnone : given? leading e key = none := by
        rw [← Option.not_isSome_iff_eq_none]
        exact fun hsome => hp (h e hsome)
      rw [hnone, Option.none_or]

/-- One variable at most sets the key. -/
def SetOnce (leading : String) (env : List (String × String)) (key : String) : Prop :=
  ∀ e ∈ env, ∀ e' ∈ env, (given? leading e key).isSome → (given? leading e' key).isSome → e = e'

/-- Where one variable sets a key, it decides. -/
theorem value?_eq_some_iff (h : SetOnce leading env key) {d : Data} :
    value? leading env key = some d ↔ ∃ e ∈ env, given? leading e key = some d := by
  constructor
  · intro hvalue
    obtain ⟨e, he, hgiven⟩ := List.exists_of_findSome?_eq_some hvalue
    exact ⟨e, List.mem_reverse.1 he, hgiven⟩
  · rintro ⟨e, he, hgiven⟩
    have hsome : (value? leading env key).isSome := by
      rw [value?, List.findSome?_isSome_iff]
      exact ⟨e, List.mem_reverse.2 he, by rw [hgiven]; rfl⟩
    obtain ⟨d', hd'⟩ := Option.isSome_iff_exists.1 hsome
    obtain ⟨e', he', hgiven'⟩ := List.exists_of_findSome?_eq_some hd'
    have hsame := h e he e' (List.mem_reverse.1 he') (by rw [hgiven]; rfl) (by rw [hgiven']; rfl)
    rw [hd', ← hgiven', ← hsame, hgiven]

/-- **The order of the variables** does not matter where one of them sets a key. -/
theorem value?_eq_of_perm (hperm : env.Perm env') (h : SetOnce leading env key) :
    value? leading env key = value? leading env' key := by
  have h' : SetOnce leading env' key :=
    fun e he e' he' => h e (hperm.mem_iff.2 he) e' (hperm.mem_iff.2 he')
  ext d
  rw [value?_eq_some_iff h, value?_eq_some_iff h']
  constructor
  · rintro ⟨e, he, hgiven⟩
    exact ⟨e, hperm.mem_iff.1 he, hgiven⟩
  · rintro ⟨e, he, hgiven⟩
    exact ⟨e, hperm.mem_iff.2 he, hgiven⟩

/-! ### Plain names -/

/-- The variables have plain names, no two of which differ in case only. -/
structure Distinct (env : List (String × String)) : Prop where
  plain : ∀ e ∈ env, IsPlainName e.1
  apart : ∀ e ∈ env, ∀ e' ∈ env, SameLetters e.1 e'.1 → e = e'

/-- A variable that sets a key names a path that begins with it. -/
theorem exists_path_of_isSome_given? (h : (given? leading e key).isSome) :
    ∃ path, keyPath? leading e.1 = some (key :: path) := by
  unfold given? at h
  split at h
  · rename_i first path hpath
    split at h
    · rename_i hfirst
      exact ⟨path, by rw [hpath, hfirst]⟩
    · cases h
  · cases h

/-- A variable that is named like a key, in any case, gives it the value that is read. -/
theorem given?_of_sameLetters (hleading : ∀ c ∈ leading.toList, Text.isWhiteSpace c = false)
    (hkey : IsPlainKey key) (hname : SameLetters e.1 (leading ++ key)) :
    given? leading e key = some (valueOf e.2) := by
  rw [given?, keyPath?_of_sameLetters hleading hkey hname]
  simp [nested]

/-- Where no variable is given twice, a plain key is set by the variable of its name. -/
theorem Distinct.sameLetters (h : Distinct env) (hkey : IsPlainKey key) (he : e ∈ env)
    (hsome : (given? leading e key).isSome) : SameLetters e.1 (leading ++ key) := by
  obtain ⟨path, hpath⟩ := exists_path_of_isSome_given? hsome
  exact sameLetters_of_keyPath? (h.plain e he) hkey hpath

/-- Where no variable is given twice, a plain key is set once. -/
theorem Distinct.setOnce (h : Distinct env) (hkey : IsPlainKey key) : SetOnce leading env key := by
  intro e he e' he' hsome hsome'
  have hname : SameLetters e.1 (leading ++ key) := h.sameLetters hkey he hsome
  have hname' : SameLetters e'.1 (leading ++ key) := h.sameLetters hkey he' hsome'
  exact h.apart e he e' he' (hname.trans hname'.symm)

/-- **With plain names** a key has the value of the variable with its name. -/
theorem Distinct.value?_eq_some_iff (h : Distinct env)
    (hleading : ∀ c ∈ leading.toList, Text.isWhiteSpace c = false) (hkey : IsPlainKey key)
    {d : Data} :
    value? leading env key = some d
      ↔ ∃ e ∈ env, SameLetters e.1 (leading ++ key) ∧ valueOf e.2 = d := by
  rw [Environment.value?_eq_some_iff (h.setOnce hkey)]
  constructor
  · rintro ⟨e, he, hgiven⟩
    have hsome : (given? leading e key).isSome := by
      rw [hgiven]
      rfl
    have hname : SameLetters e.1 (leading ++ key) := h.sameLetters hkey he hsome
    rw [given?_of_sameLetters hleading hkey hname] at hgiven
    exact ⟨e, he, hname, Option.some.inj hgiven⟩
  · rintro ⟨e, he, hname, rfl⟩
    exact ⟨e, he, given?_of_sameLetters hleading hkey hname⟩

end Environment
end Inventory
