/-
# What is written as JSON is read back

Writing a value as JSON and reading it.

The JSON text of a value whose numbers are integers is read as that value
(`Data.ofJson?_toJson`), members in their order and repeated keys included. Whatever
follows such a text is left over (`readValue_chars`), unless it would carry on a number:

| written | read back by |
| --- | --- |
| a character of a text, escaped or not | `readText_escape` |
| a text | `readText_quote` |
| an integer | `readNumber_toDigits` |
| a value, the items of a list, the members of an object | `readValue_chars` and the two beside it |

The reader is given fuel. Every token takes a character, so the length of what is read
is enough.
-/

import Inventory.Json.Reader
import Inventory.Json.Writer
import Mathlib.Data.List.Basic
import Mathlib.Data.List.TakeDrop

namespace Inventory

mutual

/-- Whether every number of a value is an integer. -/
def Data.isIntegral : Data → Bool
  | .real _ => false
  | .list items => Data.areIntegral items
  | .object ⟨members⟩ => Data.holdIntegral members
  | .null | .bool _ | .int _ | .str _ => true

/-- Whether every number of a list is an integer. -/
def Data.areIntegral : List Data → Bool
  | [] => true
  | item :: rest => item.isIntegral && Data.areIntegral rest

/-- Whether every number of an object is an integer. -/
def Data.holdIntegral : List (String × Data) → Bool
  | [] => true
  | (_, value) :: rest => value.isIntegral && Data.holdIntegral rest

end

namespace Json

/-! ### Texts -/

/-- An escape with four digits, for a character that is no half of a pair. -/
theorem readText_code {n : Nat} {a b c d : Char} (hcode : hex4? a b c d = some n)
    (hn : n < 0xD800) (s : List Char) :
    readText ('\\' :: 'u' :: a :: b :: c :: d :: s)
      = (readText s).map fun (t, r) => (Char.ofNat n :: t, r) := by
  have hhigh : ¬ (0xD800 ≤ n ∧ n < 0xDC00) := by omega
  have hlow : ¬ (0xDC00 ≤ n ∧ n < 0xE000) := by omega
  have hpair : ¬ (0xD800 ≤ n ∧ n < 0xE000) := by omega
  -- The reader looks for a second escape behind the first before it settles for one.
  by_cases hnext : ∃ e f g h rest, s = '\\' :: 'u' :: e :: f :: g :: h :: rest
  · obtain ⟨e, f, g, h, rest, rfl⟩ := hnext
    rw [readText, hcode]
    simp only [if_neg hhigh, if_neg hlow]
  · rw [readText, hcode]
    · simp only [if_neg hpair]
    · exact fun e f g h rest hs => hnext ⟨e, f, g, h, rest, hs⟩

/-- An escape with one character. -/
theorem readText_short {c e : Char} (hu : e ≠ 'u') (hescape : unescape? e = some c)
    (s : List Char) :
    readText ('\\' :: e :: s) = (readText s).map fun (t, r) => (c :: t, r) := by
  rw [readText, hescape]
  · exact fun _ _ _ _ _ _ _ _ _ he _ => hu he
  · exact fun _ _ _ _ _ he _ => hu he

/-- A character that stands for itself. -/
theorem readText_self {c : Char} (hquote : c ≠ '"') (hslash : c ≠ '\\') (hc : ¬ c.toNat < 32)
    (s : List Char) :
    readText (c :: s) = (readText s).map fun (t, r) => (c :: t, r) := by
  rw [readText, if_neg hc]
  · exact hquote
  · exact fun _ _ _ _ _ _ _ _ _ he _ => hslash he
  · exact fun _ _ _ _ _ he _ => hslash he
  · exact fun _ _ he _ => hslash he

/-- The digits with which a character below U+0020 is escaped. -/
theorem hex4?_hexDigit {n : Nat} (h : n < 32) :
    hex4? '0' '0' (Text.hexDigit (n / 16)) (Text.hexDigit (n % 16)) = some n := by
  revert n
  decide

/-- **How a character is written:** behind a backslash, as its code, or as itself. -/
theorem escape_cases (c : Char) :
    (∃ e, e ≠ 'u' ∧ unescape? e = some c ∧ escape c = ['\\', e])
      ∨ (c.toNat < 32 ∧ escape c = ['\\', 'u', '0', '0', Text.hexDigit (c.toNat / 16),
        Text.hexDigit (c.toNat % 16)])
      ∨ (c ≠ '"' ∧ c ≠ '\\' ∧ ¬ c.toNat < 32 ∧ escape c = [c]) := by
  by_cases hnamed : c ∈ ['"', '\\', '\x08', '\t', '\n', '\x0c', '\r']
  · simp only [List.mem_cons, List.not_mem_nil, or_false] at hnamed
    left
    rcases hnamed with rfl | rfl | rfl | rfl | rfl | rfl | rfl
    · exact ⟨'"', by decide, rfl, rfl⟩
    · exact ⟨'\\', by decide, rfl, rfl⟩
    · exact ⟨'b', by decide, rfl, rfl⟩
    · exact ⟨'t', by decide, rfl, rfl⟩
    · exact ⟨'n', by decide, rfl, rfl⟩
    · exact ⟨'f', by decide, rfl, rfl⟩
    · exact ⟨'r', by decide, rfl, rfl⟩
  · simp only [List.mem_cons, List.not_mem_nil, or_false, not_or] at hnamed
    obtain ⟨hquote, hslash, hb, ht, hn, hf, hr⟩ := hnamed
    rw [escape, if_neg hquote, if_neg hslash, if_neg hb, if_neg ht, if_neg hn, if_neg hf, if_neg hr]
    by_cases hc : c.toNat < 32
    · exact .inr (.inl ⟨hc, if_pos hc⟩)
    · exact .inr (.inr ⟨hquote, hslash, hc, if_neg hc⟩)

/-- **A character is read back,** whatever follows it. -/
theorem readText_escape (c : Char) (s : List Char) :
    readText (escape c ++ s) = (readText s).map fun (t, r) => (c :: t, r) := by
  rcases escape_cases c with ⟨e, hu, hescape, he⟩ | ⟨hc, he⟩ | ⟨hquote, hslash, hc, he⟩
  · rw [he]
    exact readText_short hu hescape s
  · have hcode := readText_code (hex4?_hexDigit hc) (by omega) s
    rw [Char.ofNat_toNat] at hcode
    rw [he]
    exact hcode
  · rw [he]
    exact readText_self hquote hslash hc s

/-- **A text is read back** up to its closing quote. -/
theorem readText_quote (text s : List Char) :
    readText (text.flatMap escape ++ '"' :: s) = some (text, s) := by
  induction text with
  | nil => rw [List.flatMap_nil, List.nil_append, readText]
  | cons c rest ih =>
    rw [List.flatMap_cons, List.append_assoc, readText_escape, ih]
    rfl

/-! ### Integers -/

/-- What may follow a number: nothing that would carry it on. -/
def Ends (s : List Char) : Prop :=
  ∀ c ∈ s.head?, c.isDigit = false ∧ c ≠ '.' ∧ c ≠ 'e' ∧ c ≠ 'E'

variable {s : List Char}

/-- Digits are read up to the first character that is none. -/
theorem readDigits_append {digits : List Char} (h : ∀ c ∈ digits, c.isDigit = true)
    (hs : ∀ c ∈ s.head?, c.isDigit = false) : readDigits (digits ++ s) = (digits, s) := by
  have hstop : s.takeWhile Char.isDigit = [] ∧ s.dropWhile Char.isDigit = s := by
    cases s with
    | nil => exact ⟨rfl, rfl⟩
    | cons c rest => simp [hs c rfl]
  rw [readDigits, List.span_eq_takeWhile_dropWhile, List.takeWhile_append_of_pos h,
    List.dropWhile_append_of_pos h, hstop.1, hstop.2, List.append_nil]

/-- Where a value ends there is no fraction. -/
theorem readFraction_of_ends (hs : Ends s) : readFraction s = some ([], s) := by
  unfold readFraction
  split
  · exact absurd rfl (hs '.' rfl).2.1
  · rfl

/-- Where a value ends there is no exponent. -/
theorem readExponent_of_ends (hs : Ends s) : readExponent s = some ([], s) := by
  cases s with
  | nil => rfl
  | cons e rest =>
    obtain ⟨-, -, hlower, hupper⟩ := hs e rfl
    exact if_neg (not_or.2 ⟨hlower, hupper⟩)

/-- The digits of a number begin with a zero only for zero. -/
theorem eq_zero_of_head?_toDigits {n : Nat} (h : (Nat.toDigits 10 n).head? = some '0') :
    n = 0 := by
  induction n using Nat.strongRecOn with
  | ind n ih =>
    rw [Nat.toDigits_eq_if (by decide)] at h
    split at h
    · rename_i hn
      have hall : ∀ n < 10, n.digitChar = '0' → n = 0 := by decide
      exact hall n hn (Option.some.inj h)
    · rename_i hn
      have hfirst : (Nat.toDigits 10 (n / 10)).head? = some '0' := by
        rwa [List.head?_append_of_ne_nil _ Nat.toDigits_ne_nil] at h
      have hzero := ih (n / 10) (by omega) hfirst
      omega

/-- The digits of a number have its value. -/
theorem digitsValue_toDigits (n : Nat) : digitsValue (Nat.toDigits 10 n) = n := by
  have hvalue := Nat.ofDigitChars_toDigits (b := 10) (n := n) (by decide) (by decide)
  simp only [Nat.ofDigitChars_eq_foldl, Nat.mul_comm 10] at hvalue
  exact hvalue

/-- **The digits of a number are read back.** -/
theorem readNumber_toDigits (hs : Ends s) (negative : Bool) (n : Nat)
    (hn : negative = true → n ≠ 0) :
    readNumber negative (Nat.toDigits 10 n ++ s)
      = some (.int (if negative then -n else n), s) := by
  have hdigits : readDigits (Nat.toDigits 10 n ++ s) = (Nat.toDigits 10 n, s) :=
    readDigits_append (fun c => Nat.isDigit_of_mem_toDigits (by decide) (by decide))
      fun c hc => (hs c hc).1
  have hlead : ¬ ((Nat.toDigits 10 n).head? = some '0' ∧ (Nat.toDigits 10 n).length ≠ 1) := by
    rintro ⟨hzero, hlength⟩
    rw [eq_zero_of_head?_toDigits hzero] at hlength
    exact hlength rfl
  have hminus : ¬ (negative = true ∧ n = 0) := fun ⟨hnegative, hzero⟩ => hn hnegative hzero
  unfold readNumber
  rw [hdigits]
  split
  · rename_i hnil
    exact absurd (Prod.mk.inj hnil).1 Nat.toDigits_ne_nil
  · rename_i digits rest _ hpair
    obtain ⟨rfl, rfl⟩ := Prod.mk.inj hpair
    rw [if_neg hlead, readFraction_of_ends hs]
    simp only [Option.bind_eq_bind, Option.bind_some, readExponent_of_ends hs, and_self, if_true,
      digitsValue_toDigits, if_neg hminus]
    rfl

/-! ### Values -/

variable {fuel : Nat} {t u : List Char}

/-- A character that is no blank is not skipped. -/
theorem skipBlanks_cons {c : Char} (hc : isBlank c = false) (s : List Char) :
    skipBlanks (c :: s) = c :: s := by
  rw [skipBlanks, List.dropWhile_cons, hc]
  rfl

theorem ne_of_isDigit {c c' : Char} (hc : c.isDigit = true) (hc' : c'.isDigit = false) :
    c ≠ c' := by
  rintro rfl
  rw [hc] at hc'
  cases hc'

theorem isBlank_of_isDigit {c : Char} (hc : c.isDigit = true) : isBlank c = false := by
  have hne {c' : Char} (hc' : c'.isDigit = false) : c ≠ c' := ne_of_isDigit hc hc'
  simp [isBlank, hne]

/-- A value that begins with a digit is a number. -/
theorem readValue_digit {c : Char} (hc : c.isDigit = true) (s : List Char) :
    readValue (fuel + 1) (c :: s) = readNumber false (c :: s) := by
  rw [readValue, skipBlanks_cons (isBlank_of_isDigit hc)]
  split
  case h_8 => rfl
  all_goals
    rename_i he
    exact absurd (List.cons.inj he).1 (ne_of_isDigit hc (by decide))

/-- A minus begins a number. -/
theorem readValue_minus (s : List Char) :
    readValue (fuel + 1) ('-' :: s) = readNumber true s := by
  rw [readValue, skipBlanks_cons (by decide)]
  rfl

/-- A natural number is written in its digits. -/
theorem chars_ofNat (n : Nat) : chars (.int (.ofNat n)) = Nat.toDigits 10 n := Nat.toList_repr

/-- A negative number is written with a minus before its digits. -/
theorem chars_negSucc (n : Nat) : chars (.int (.negSucc n)) = '-' :: Nat.toDigits 10 (n + 1) := by
  have hrepr : (Int.negSucc n).repr = "-" ++ (n + 1).repr := rfl
  rw [chars, Int.toString_eq_repr, hrepr, String.toList_append, Nat.toList_repr]
  rfl

/-- The digits of a number begin with a digit. -/
theorem exists_toDigits_eq_cons (n : Nat) :
    ∃ c t, Nat.toDigits 10 n = c :: t ∧ c.isDigit = true := by
  obtain ⟨c, t, hdigits⟩ := List.exists_cons_of_ne_nil (Nat.toDigits_ne_nil (b := 10) (n := n))
  have hc : c ∈ Nat.toDigits 10 n := hdigits ▸ List.mem_cons_self
  exact ⟨c, t, hdigits, Nat.isDigit_of_mem_toDigits (by decide) (by decide) hc⟩

/-- **An integer is read back.** -/
theorem readValue_int (hs : Ends s) (n : Int) :
    readValue (fuel + 1) (chars (.int n) ++ s) = some (.int n, s) := by
  cases n with
  | ofNat n =>
    obtain ⟨c, t, hdigits, hc⟩ := exists_toDigits_eq_cons n
    rw [chars_ofNat, hdigits, List.cons_append, readValue_digit hc, ← List.cons_append, ← hdigits]
    exact readNumber_toDigits hs false n nofun
  | negSucc n =>
    rw [chars_negSucc, List.cons_append, readValue_minus]
    exact readNumber_toDigits hs true (n + 1) fun _ => Nat.succ_ne_zero n

/-- **Step:** a text is read back. -/
theorem readValue_str (text : String) (s : List Char) :
    readValue (fuel + 1) (chars (.str text) ++ s) = some (.str text, s) := by
  have hchars : chars (.str text) ++ s = '"' :: (text.toList.flatMap escape ++ '"' :: s) := by
    simp [chars, quote]
  rw [hchars, readValue, skipBlanks_cons (by decide)]
  change (readText (text.toList.flatMap escape ++ '"' :: s)).map _ = _
  rw [readText_quote]
  exact congrArg (fun w => some (Data.str w, s)) String.ofList_toList

/-! ### Items and members -/

/-- **Step:** the last item of a list is read before its bracket. -/
theorem readItems_last {item : Data} (hitem : readValue fuel t = some (item, ']' :: s)) :
    readItems (fuel + 1) t = some ([item], s) := by
  rw [readItems, hitem]
  rfl

/-- **Step:** any other item is read before a comma. -/
theorem readItems_more {item : Data} {items : List Data}
    (hitem : readValue fuel t = some (item, ',' :: u))
    (hitems : readItems fuel u = some (items, s)) :
    readItems (fuel + 1) t = some (item :: items, s) := by
  rw [readItems, hitem]
  change (readItems fuel u).map _ = _
  rw [hitems, Option.map_some]

/-- A list, once its bracket is read. -/
def listFrom (fuel : Nat) : List Char → Option (Data × List Char)
  | ']' :: rest => some (.list [], rest)
  | rest => (readItems fuel rest).map fun (items, r) => (.list items, r)

/-- A list with an item, which does not begin like the end of the list. -/
theorem readValue_list {items : List Data} {c : Char} (hblank : isBlank c = false)
    (hend : c ≠ ']') (h : readItems fuel (c :: t) = some (items, s)) :
    readValue (fuel + 1) ('[' :: c :: t) = some (.list items, s) := by
  rw [readValue, skipBlanks_cons (by decide)]
  change listFrom fuel (skipBlanks (c :: t)) = _
  rw [skipBlanks_cons hblank, listFrom, h, Option.map_some]
  exact fun _ heq => hend (List.cons.inj heq).1

/-- The members from one that was read, given what follows it. -/
def membersFrom (fuel : Nat) (member : String × Data) :
    List Char → Option (List (String × Data) × List Char)
  | '\x7d' :: rest => some ([member], rest)
  | ',' :: rest => (readMembers fuel rest).map fun (members, r) => (member :: members, r)
  | _ => none

/-- The members from one whose key was read, if it was, given what follows the key. -/
def membersUnder (fuel : Nat) :
    Option (List Char × List Char) → Option (List (String × Data) × List Char)
  | none => none
  | some (key, rest) =>
    match skipBlanks rest with
    | ':' :: rest =>
      match readValue fuel rest with
      | none => none
      | some (value, rest) => membersFrom fuel (String.ofList key, value) (skipBlanks rest)
    | _ => none

/-- A member begins with its key. -/
theorem readMembers_quote (s : List Char) :
    readMembers (fuel + 1) ('"' :: s) = membersUnder fuel (readText s) := by
  rw [readMembers, skipBlanks_cons (by decide)]
  rfl

/-- A member, when its value ends at a character that is not blank. -/
theorem readMembers_member {key : String} {value : Data} {c : Char} (hblank : isBlank c = false)
    (hvalue : readValue fuel t = some (value, c :: u)) :
    readMembers (fuel + 1) (quote key.toList ++ ':' :: t)
      = membersFrom fuel (key, value) (c :: u) := by
  have hquote : quote key.toList ++ ':' :: t
      = '"' :: (key.toList.flatMap escape ++ '"' :: (':' :: t)) := by
    simp [quote]
  have hcolon : isBlank ':' = false := by decide
  rw [hquote, readMembers_quote, readText_quote]
  simp only [membersUnder, skipBlanks_cons hcolon, hvalue, skipBlanks_cons hblank,
    String.ofList_toList]

/-- **Step:** the last member of an object is read before its brace. -/
theorem readMembers_last {key : String} {value : Data}
    (hvalue : readValue fuel t = some (value, '\x7d' :: s)) :
    readMembers (fuel + 1) (quote key.toList ++ ':' :: t) = some ([(key, value)], s) :=
  readMembers_member (by decide) hvalue

/-- **Step:** any other member is read before a comma. -/
theorem readMembers_more {key : String} {value : Data} {members : List (String × Data)}
    (hvalue : readValue fuel t = some (value, ',' :: u))
    (hmembers : readMembers fuel u = some (members, s)) :
    readMembers (fuel + 1) (quote key.toList ++ ':' :: t) = some ((key, value) :: members, s) := by
  rw [readMembers_member (by decide) hvalue]
  change (readMembers fuel u).map _ = _
  rw [hmembers, Option.map_some]

/-- An object, once its brace is read. -/
def objectFrom (fuel : Nat) : List Char → Option (Data × List Char)
  | '\x7d' :: rest => some (.object ⟨[]⟩, rest)
  | rest => (readMembers fuel rest).map fun (members, r) => (.object ⟨members⟩, r)

/-- An object with a member. -/
theorem readValue_object {members : List (String × Data)}
    (h : readMembers fuel ('"' :: t) = some (members, s)) :
    readValue (fuel + 1) ('\x7b' :: '"' :: t) = some (.object ⟨members⟩, s) := by
  rw [readValue, skipBlanks_cons (by decide)]
  change objectFrom fuel (skipBlanks ('"' :: t)) = _
  rw [skipBlanks_cons (by decide)]
  change (readMembers fuel ('"' :: t)).map _ = _
  rw [h, Option.map_some]

/-- A value ends before a comma or a bracket. -/
theorem ends_cons {c : Char} (hc : c ∈ [',', ']', '\x7d']) (s : List Char) : Ends (c :: s) := by
  intro c' hc'
  obtain rfl := Option.some.inj hc'
  simp only [List.mem_cons, List.not_mem_nil, or_false] at hc
  rcases hc with rfl | rfl | rfl <;> decide

/-- A value's text begins neither with a blank nor with the end of a list. -/
theorem exists_chars_eq_cons {d : Data} (hd : d.isIntegral = true) :
    ∃ c t, chars d = c :: t ∧ isBlank c = false ∧ c ≠ ']' := by
  cases d with
  | null => exact ⟨'n', _, rfl, by decide, by decide⟩
  | bool b => cases b <;> exact ⟨_, _, rfl, by decide, by decide⟩
  | int n =>
    cases n with
    | ofNat n =>
      obtain ⟨c, t, hdigits, hc⟩ := exists_toDigits_eq_cons n
      exact ⟨c, t, (chars_ofNat n).trans hdigits, isBlank_of_isDigit hc,
        ne_of_isDigit hc (by decide)⟩
    | negSucc n => exact ⟨'-', _, chars_negSucc n, by decide, by decide⟩
  | real written => cases hd
  | str text => exact ⟨'"', _, rfl, by decide, by decide⟩
  | list items => exact ⟨'[', _, rfl, by decide, by decide⟩
  | object members => exact ⟨'\x7b', _, rfl, by decide, by decide⟩

/-- Items are written with commas between them. -/
theorem itemChars_more (item next : Data) (rest : List Data) :
    itemChars (item :: next :: rest) = chars item ++ ',' :: itemChars (next :: rest) := by
  rw [itemChars]
  exact List.cons_ne_nil next rest

/-- Members are written with commas between them. -/
theorem memberChars_more (key : String) (value : Data) (next : String × Data)
    (rest : List (String × Data)) :
    memberChars ((key, value) :: next :: rest)
      = quote key.toList ++ ':' :: chars value ++ ',' :: memberChars (next :: rest) := by
  rw [memberChars]
  exact List.cons_ne_nil next rest

/-- Items begin with a character that is neither blank nor the closing bracket. -/
theorem exists_itemChars_eq_cons {item : Data} {rest : List Data}
    (hd : Data.areIntegral (item :: rest) = true) :
    ∃ c t, itemChars (item :: rest) = c :: t ∧ isBlank c = false ∧ c ≠ ']' := by
  rw [Data.areIntegral, Bool.and_eq_true] at hd
  obtain ⟨c, t, hchars, hc⟩ := exists_chars_eq_cons hd.1
  cases rest with
  | nil => exact ⟨c, t, hchars, hc⟩
  | cons next rest => exact ⟨c, _, by rw [itemChars_more, hchars, List.cons_append], hc⟩

/-- Members begin with a quote. -/
theorem exists_memberChars_eq_cons (member : String × Data) (rest : List (String × Data)) :
    ∃ t, memberChars (member :: rest) = '"' :: t := by
  obtain ⟨key, value⟩ := member
  cases rest with
  | nil => exact ⟨_, rfl⟩
  | cons next rest => exact ⟨_, memberChars_more key value next rest⟩

mutual

/-- **A value is read back,** and what follows it is left over. -/
theorem readValue_chars : ∀ {d : Data} {fuel : Nat} {s : List Char}, d.isIntegral = true →
    (chars d).length ≤ fuel → Ends s → readValue fuel (chars d ++ s) = some (d, s)
  | .null, fuel + 1, s, _, _, _ => by
    rw [chars, readValue]
    rfl
  | .bool true, fuel + 1, s, _, _, _ => by
    rw [chars, readValue]
    rfl
  | .bool false, fuel + 1, s, _, _, _ => by
    rw [chars, readValue]
    rfl
  | .int n, fuel + 1, s, _, _, hs => readValue_int hs n
  | .str t, fuel + 1, s, _, _, _ => readValue_str t s
  | .list [], fuel + 1, s, _, _, _ => by
    rw [chars, readValue]
    rfl
  | .list (item :: rest), fuel + 1, s, hd, hfuel, _ => by
    rw [chars, List.length_append, List.length_cons, List.length_singleton] at hfuel
    have hitems : readItems fuel (itemChars (item :: rest) ++ ']' :: s) = some (item :: rest, s) :=
      readItems_itemChars hd (by omega)
    have happend : chars (.list (item :: rest)) ++ s
        = '[' :: (itemChars (item :: rest) ++ ']' :: s) := by simp [chars]
    obtain ⟨c, t, hchars, hblank, hend⟩ := exists_itemChars_eq_cons hd
    rw [hchars, List.cons_append] at hitems happend
    rw [happend]
    exact readValue_list hblank hend hitems
  | .object ⟨[]⟩, fuel + 1, s, _, _, _ => by
    rw [chars, readValue]
    rfl
  | .object ⟨member :: rest⟩, fuel + 1, s, hd, hfuel, _ => by
    rw [chars, List.length_append, List.length_cons, List.length_singleton] at hfuel
    have hmembers : readMembers fuel (memberChars (member :: rest) ++ '\x7d' :: s)
        = some (member :: rest, s) := readMembers_memberChars hd (by omega)
    have happend : chars (.object ⟨member :: rest⟩) ++ s
        = '\x7b' :: (memberChars (member :: rest) ++ '\x7d' :: s) := by simp [chars]
    obtain ⟨t, hchars⟩ := exists_memberChars_eq_cons member rest
    rw [hchars, List.cons_append] at hmembers happend
    rw [happend]
    exact readValue_object hmembers
  | d, 0, s, hd, hfuel, _ => by
    obtain ⟨c, t, hchars, -⟩ := exists_chars_eq_cons hd
    rw [hchars] at hfuel
    exact absurd hfuel (by simp)

/-- **The items of a list are read back** up to its bracket. -/
theorem readItems_itemChars : ∀ {item : Data} {rest : List Data} {fuel : Nat} {s : List Char},
    Data.areIntegral (item :: rest) = true → (itemChars (item :: rest)).length < fuel →
      readItems fuel (itemChars (item :: rest) ++ ']' :: s) = some (item :: rest, s)
  | item, [], fuel + 1, s, hd, hfuel => by
    rw [Data.areIntegral, Bool.and_eq_true] at hd
    rw [itemChars] at hfuel ⊢
    exact readItems_last (readValue_chars hd.1 (by omega) (ends_cons (by decide) s))
  | item, next :: rest, fuel + 1, s, hd, hfuel => by
    rw [Data.areIntegral, Bool.and_eq_true] at hd
    rw [itemChars_more] at hfuel ⊢
    rw [List.length_append, List.length_cons] at hfuel
    rw [List.append_assoc, List.cons_append]
    exact readItems_more (readValue_chars hd.1 (by omega) (ends_cons (by decide) _))
      (readItems_itemChars hd.2 (by omega))

/-- **The members of an object are read back** up to its brace. -/
theorem readMembers_memberChars : ∀ {member : String × Data} {rest : List (String × Data)}
    {fuel : Nat} {s : List Char}, Data.holdIntegral (member :: rest) = true →
      (memberChars (member :: rest)).length < fuel →
        readMembers fuel (memberChars (member :: rest) ++ '\x7d' :: s) = some (member :: rest, s)
  | (key, value), [], fuel + 1, s, hd, hfuel => by
    rw [Data.holdIntegral, Bool.and_eq_true] at hd
    rw [memberChars] at hfuel ⊢
    rw [List.length_append, List.length_cons] at hfuel
    rw [List.append_assoc, List.cons_append]
    exact readMembers_last (readValue_chars hd.1 (by omega) (ends_cons (by decide) s))
  | (key, value), next :: rest, fuel + 1, s, hd, hfuel => by
    rw [Data.holdIntegral, Bool.and_eq_true] at hd
    rw [memberChars_more] at hfuel ⊢
    simp only [List.length_append, List.length_cons] at hfuel
    simp only [List.append_assoc, List.cons_append]
    exact readMembers_more (readValue_chars hd.1 (by omega) (ends_cons (by decide) _))
      (readMembers_memberChars hd.2 (by omega))

end

end Json

/-- **What is written is read back.** -/
theorem Data.ofJson?_toJson {d : Data} (h : d.isIntegral = true) :
    Data.ofJson? d.toJson = some d := by
  have hread : Json.readValue (2 * (Json.chars d).length + 2) (Json.chars d ++ []) = some (d, []) :=
    Json.readValue_chars h (by omega) nofun
  rw [List.append_nil] at hread
  rw [Data.ofJson?, Data.toJson, String.toList_ofList, Json.read, hread]
  rfl

/-- So values that are written alike are the same. -/
theorem Data.eq_of_toJson_eq {d d' : Data} (hd : d.isIntegral = true) (hd' : d'.isIntegral = true)
    (h : d.toJson = d'.toJson) : d = d' :=
  Option.some.inj ((Data.ofJson?_toJson hd).symm.trans (h ▸ Data.ofJson?_toJson hd'))

/-- An object holds integers when its values do. -/
theorem Data.holdIntegral_iff {members : List (String × Data)} :
    Data.holdIntegral members = true ↔ ∀ e ∈ members, e.2.isIntegral = true := by
  induction members with
  | nil => simp [Data.holdIntegral]
  | cons e rest ih => rw [Data.holdIntegral, Bool.and_eq_true, ih, List.forall_mem_cons]

/-- A list holds integers when its items do. -/
theorem Data.areIntegral_iff {items : List Data} :
    Data.areIntegral items = true ↔ ∀ d ∈ items, d.isIntegral = true := by
  induction items with
  | nil => simp [Data.areIntegral]
  | cons d rest ih => rw [Data.areIntegral, Bool.and_eq_true, ih, List.forall_mem_cons]

end Inventory
