/-
# The registry under any sequence of calls

`SchemaRegistry` under `new`, `insert` and `remove`.

A registry is made from schemas, given more of them and loses some. What it holds afterwards
is said by a reference that knows no registry: the log of the writes that were accepted
(`written`).

| call | is refused | the log afterwards |
| --- | --- | --- |
| `new schemas` | unless all are valid and their names are distinct | the schemas, one after another |
| `insert s` | unless `s` is valid | one entry more |
| `remove name` | never | one entry more |

A refused call leaves the registry and the log as they are. Whatever has been called, the
registry is the one the log says (`registers_after`), so its schemas are valid, each stands under
its own name, and the names are in the order in which they were last inserted while absent.
-/

import Inventory.Proofs.OrderedMap.WriteLog
import Inventory.Proofs.Schema.Valid
import Inventory.Schema.Registry

namespace Inventory
namespace SchemaRegistry

open OrderedMap (InInsertionOrder applyAll applyAll_append content get?_replay replay
  inInsertionOrder_replay nodup_keys_replay exists_put_of_content_eq_some)

/-- What a registry can be asked. -/
inductive Call where
  | new (schemas : List Schema)
  | insert (s : Schema)
  | remove (name : String)

/-- A call on the registry that is there. One that is made from schemas is made beside it. -/
def Call.attempt : Call → Attempt SchemaRegistry SchemaError Unit
  | .new schemas => .replacing fun _ => ofList schemas
  | .insert s => inserting s
  | .remove name => modify fun r => r.erase name

/-- The registry that a call leads to, or why the call is refused. -/
def perform (r : SchemaRegistry) (c : Call) : Except SchemaError SchemaRegistry :=
  c.attempt.next r

/-- The registry after a call, whether it is accepted or refused. -/
def next (r : SchemaRegistry) (c : Call) : SchemaRegistry := c.attempt.after r

/-- The registry after a sequence of calls. -/
def after (r : SchemaRegistry) (calls : List Call) : SchemaRegistry := calls.foldl next r

/-! ### The reference -/

/-- A write to the schemas. -/
abbrev Write := OrderedMap.Write String Schema

/-- Schemas put under their own names. -/
def puts (schemas : List Schema) : List Write := schemas.map fun s => .put s.name s

/-- Schemas that a registry can be made from. -/
structure Accepted (schemas : List Schema) : Prop where
  valid : ∀ s ∈ schemas, s.Valid
  nodup : (schemas.map (·.name)).Nodup

/-- Schemas are accepted when all are valid and no name is repeated. -/
theorem accepted_iff {schemas : List Schema} :
    Accepted schemas ↔ (∀ s ∈ schemas, s.Valid) ∧ (schemas.map (·.name)).Nodup :=
  ⟨fun h => ⟨h.valid, h.nodup⟩, fun h => ⟨h.1, h.2⟩⟩

instance (schemas : List Schema) : Decidable (Accepted schemas) :=
  decidable_of_iff' _ accepted_iff

/-- The log after a call. -/
def logNext (log : List Write) : Call → List Write
  | .new schemas => if Accepted schemas then puts schemas else log
  | .insert s => if s.Valid then log ++ puts [s] else log
  | .remove name => log ++ [.drop name]

/-- The writes that a sequence of calls on an empty registry comes to. -/
def written (calls : List Call) : List Write := calls.foldl logNext []

/-- What a registry is, given the writes that led to it. -/
structure Registers (log : List Write) (r : SchemaRegistry) : Prop where
  /-- Under each name stands what the last write of the name has left. -/
  content : ∀ name, r.get? name = content log name
  once : r.names.Nodup
  order : InInsertionOrder log r.names
  valid : ∀ s ∈ r.all, s.Valid
  /-- A schema stands under its own name and under no other. -/
  named : ∀ name s, r.get? name = some s ↔ s ∈ r.all ∧ s.name = name
  /-- A field is found where a schema of that name declares it. -/
  field : ∀ entityType name f, r.field entityType name = .ok f
    ↔ ∃ s ∈ r.all, s.name = entityType ∧ f ∈ s.fields ∧ f.name = name

/-! ### One call -/

/-- **A refused call** leaves the registry alone. -/
theorem Call.atomic_attempt (c : Call) : c.attempt.Atomic := by
  cases c with
  | new schemas => exact Attempt.atomic_replacing _
  | insert s => exact atomic_inserting s
  | remove name => exact Attempt.atomic_modify _

/-- The registry after a call is the one it leads to, or the one before. -/
theorem next_eq_perform (r : SchemaRegistry) (c : Call) :
    r.next c = match r.perform c with
      | .ok r' => r'
      | .error _ => r := by
  rw [next, c.atomic_attempt.after_eq, perform]
  cases c.attempt.next r <;> rfl

/-- A new registry does not depend on the one before. -/
theorem perform_new (r : SchemaRegistry) (schemas : List Schema) :
    r.perform (.new schemas) = ofList schemas := Attempt.next_replacing _ r

/-- What an insertion writes. -/
theorem insert_eq_applyAll (r : SchemaRegistry) (s : Schema) :
    r.insert s = s.validate.map fun _ => ⟨applyAll r.schemas (puts [s])⟩ := by
  rw [insert_eq]
  cases s.validate with
  | error e => rfl
  | ok _ => rfl

/-- A schema is inserted when it is valid. -/
theorem insert_eq_ok_iff {r r' : SchemaRegistry} {s : Schema} :
    r.insert s = .ok r' ↔ s.Valid ∧ r' = ⟨applyAll r.schemas (puts [s])⟩ := by
  rw [insert_eq_applyAll, ← Schema.validate_eq_ok_iff]
  cases s.validate with
  | error e => simp [Except.map]
  | ok _ => simp [Except.map, eq_comm]

/-- **Schemas are registered** when each is valid and none has a name that is taken. -/
theorem extend_eq_ok_iff {r r' : SchemaRegistry} {schemas : List Schema} :
    r.extend schemas = .ok r' ↔ Accepted schemas ∧ (∀ s ∈ schemas, s.name ∉ r.names)
      ∧ r' = ⟨applyAll r.schemas (puts schemas)⟩ := by
  induction schemas generalizing r with
  | nil => simp [extend, accepted_iff, puts, applyAll, eq_comm]
  | cons s rest ih =>
    have hputs : puts (s :: rest) = puts [s] ++ puts rest := rfl
    -- The induction runs over a growing registry: a later schema must also differ from this one.
    have hnames : ∀ name, name ∈ (⟨applyAll r.schemas (puts [s])⟩ : SchemaRegistry).names
        ↔ name ∈ r.names ∨ name = s.name := by
      intro name
      change name ∈ (r.schemas.insert s.name s).keys ↔ name ∈ r.schemas.keys ∨ name = s.name
      rw [OrderedMap.keys_insert]
      split
      · rename_i hs
        refine ⟨.inl, ?_⟩
        rintro (h | rfl)
        · exact h
        · exact hs
      · simp
    rw [extend]
    by_cases htaken : r.schemas.contains s.name
    · rw [if_pos htaken]
      refine ⟨nofun, fun ⟨_, hfresh, _⟩ => ?_⟩
      exact absurd (OrderedMap.contains_iff.1 htaken) (hfresh s List.mem_cons_self)
    · have hfresh : s.name ∉ r.names := fun h => htaken (OrderedMap.contains_iff.2 h)
      rw [if_neg htaken]
      by_cases hvalid : s.Valid
      · rw [insert_eq_ok_iff.2 ⟨hvalid, rfl⟩, hputs, applyAll_append]
        simp only [ih, hnames, accepted_iff, List.forall_mem_cons, List.map_cons, List.nodup_cons,
          List.mem_map, not_or, not_exists, not_and]
        constructor
        · rintro ⟨⟨hv, hn⟩, hf, rfl⟩
          exact ⟨⟨⟨hvalid, hv⟩, fun s' hs' h => (hf s' hs').2 h, hn⟩,
            ⟨hfresh, fun s' hs' => (hf s' hs').1⟩, rfl⟩
        · rintro ⟨⟨⟨-, hv⟩, hs, hn⟩, ⟨-, hf⟩, rfl⟩
          exact ⟨⟨hv, hn⟩, fun s' hs' => ⟨hf s' hs', fun h => hs s' hs' h⟩, rfl⟩
      · cases hinsert : r.insert s with
        | ok r₁ => exact absurd (insert_eq_ok_iff.1 hinsert).1 hvalid
        | error e =>
          refine ⟨nofun, fun h => ?_⟩
          exact absurd (h.1.valid s List.mem_cons_self) hvalid

/-- A registry is made of the schemas that are accepted. -/
theorem ofList_eq_ok_iff {schemas : List Schema} {r : SchemaRegistry} :
    ofList schemas = .ok r ↔ Accepted schemas ∧ r = ⟨replay (puts schemas)⟩ := by
  rw [ofList, extend_eq_ok_iff]
  refine and_congr_right fun _ => ⟨fun h => h.2, fun h => ⟨fun s _ hs => ?_, h⟩⟩
  cases hs

/-- **One call** does to the registry what it does to the log. -/
theorem next_eq (log : List Write) (c : Call) :
    next ⟨replay log⟩ c = ⟨replay (logNext log c)⟩ := by
  cases c with
  | new schemas =>
    by_cases h : Accepted schemas
    · rw [logNext, if_pos h, next_eq_perform, perform_new, ofList_eq_ok_iff.2 ⟨h, rfl⟩]
    · rw [logNext, if_neg h, next_eq_perform, perform_new]
      cases hlist : ofList schemas with
      | ok r => exact absurd (ofList_eq_ok_iff.1 hlist).1 h
      | error e => rfl
  | insert s =>
    have hperform : (⟨replay log⟩ : SchemaRegistry).perform (.insert s)
        = (⟨replay log⟩ : SchemaRegistry).insert s := rfl
    by_cases h : s.Valid
    · rw [logNext, if_pos h, next_eq_perform, hperform, insert_eq_ok_iff.2 ⟨h, rfl⟩, replay,
        replay, applyAll_append]
    · rw [logNext, if_neg h, next_eq_perform, hperform]
      cases hinsert : (⟨replay log⟩ : SchemaRegistry).insert s with
      | ok r => exact absurd (insert_eq_ok_iff.1 hinsert).1 h
      | error e => rfl
  | remove name =>
    rw [logNext, OrderedMap.replay_append_singleton]
    rfl

/-- **Run:** the registry after any calls is the one that the log leads to. -/
theorem after_eq (calls : List Call) : empty.after calls = ⟨replay (written calls)⟩ := by
  induction calls using List.reverseRecOn with
  | nil => rfl
  | append_singleton calls c ih =>
    rw [after, List.foldl_append, written, List.foldl_append]
    change next (empty.after calls) c = ⟨replay (logNext (written calls) c)⟩
    rw [ih, next_eq]

/-! ### What the log says of the registry -/

/-- Valid schemas are written, each under its own name. -/
def Proper (log : List Write) : Prop :=
  ∀ name s, .put name s ∈ log → s.name = name ∧ s.Valid

/-- Valid schemas are written under their names. -/
theorem proper_puts {schemas : List Schema} (h : ∀ s ∈ schemas, s.Valid) :
    Proper (puts schemas) := by
  intro name s hput
  obtain ⟨s', hs', heq⟩ := List.mem_map.1 hput
  obtain ⟨rfl, rfl⟩ := OrderedMap.Write.put.inj heq
  exact ⟨rfl, h s' hs'⟩

/-- Proper writes one after the other are proper. -/
theorem Proper.append {log log' : List Write} (h : Proper log) (h' : Proper log') :
    Proper (log ++ log') := fun name s hput =>
  (List.mem_append.1 hput).elim (h name s) (h' name s)

/-- **Step:** a call writes valid schemas only. -/
theorem Proper.logNext {log : List Write} (h : Proper log) (c : Call) :
    Proper (logNext log c) := by
  cases c with
  | new schemas =>
    rw [SchemaRegistry.logNext]
    split
    · rename_i haccepted
      exact proper_puts haccepted.valid
    · exact h
  | insert s =>
    rw [SchemaRegistry.logNext]
    split
    · rename_i hvalid
      exact h.append (proper_puts (by simpa using hvalid))
    · exact h
  | remove name => exact h.append (fun _ _ hput => by cases List.mem_singleton.1 hput)

/-- **Run:** so do any calls. -/
theorem proper_written (calls : List Call) : Proper (written calls) := by
  induction calls using List.reverseRecOn with
  | nil => exact nofun
  | append_singleton calls c ih =>
    rw [written, List.foldl_append]
    exact ih.logNext c

/-- A schema is registered when it stands under its name. -/
theorem mem_all_replay_iff {log : List Write} (h : Proper log) {s : Schema} :
    s ∈ (⟨replay log⟩ : SchemaRegistry).all
      ↔ (⟨replay log⟩ : SchemaRegistry).get? s.name = some s := by
  have hstored : ∀ name s, (name, s) ∈ (replay log).entries
      ↔ (replay log).get? name = some s := fun name s =>
    (OrderedMap.get?_eq_some_iff (nodup_keys_replay log)).symm
  rw [all, OrderedMap.mem_values_iff, get?]
  constructor
  · rintro ⟨name, hmem⟩
    have hget := (hstored name s).1 hmem
    have hput := exists_put_of_content_eq_some ((get?_replay log name).symm.trans hget)
    rw [(h name s hput).1]
    exact hget
  · exact fun hget => ⟨s.name, (hstored s.name s).2 hget⟩

/-- A field is found on the schema of the name. -/
theorem field_eq_ok_iff {r : SchemaRegistry} {entityType name : String} {f : Field} :
    r.field entityType name = .ok f
      ↔ ∃ s, r.get? entityType = some s ∧ s.requireField name = .ok f := by
  rw [field, require]
  cases r.get? entityType with
  | none => simp
  | some s => simp

/-- Proper writes lead to a proper registry. -/
theorem registers_replay {log : List Write} (h : Proper log) : Registers log ⟨replay log⟩ := by
  have hproper : ∀ name s, (⟨replay log⟩ : SchemaRegistry).get? name = some s
      → s.name = name ∧ s.Valid := fun name s hget =>
    h name s (exists_put_of_content_eq_some ((get?_replay log name).symm.trans hget))
  -- every schema is held under its own name, so a name finds it among all of them
  have hnamed : ∀ name s, (⟨replay log⟩ : SchemaRegistry).get? name = some s
      ↔ s ∈ (⟨replay log⟩ : SchemaRegistry).all ∧ s.name = name := by
    intro name s
    rw [mem_all_replay_iff h]
    constructor
    · intro hget
      obtain rfl := (hproper name s hget).1
      exact ⟨hget, rfl⟩
    · rintro ⟨hget, rfl⟩
      exact hget
  refine ⟨get?_replay log, nodup_keys_replay log, inInsertionOrder_replay log, ?_, hnamed, ?_⟩
  · intro s hs
    exact (hproper s.name s ((mem_all_replay_iff h).1 hs)).2
  · intro entityType name f
    rw [field_eq_ok_iff]
    constructor
    · rintro ⟨s, hget, hf⟩
      obtain ⟨hs, hname⟩ := (hnamed entityType s).1 hget
      have hnodup := (hproper entityType s hget).2.nodup
      exact ⟨s, hs, hname, (Schema.requireField_eq_ok_iff hnodup).1 hf⟩
    · rintro ⟨s, hs, hname, hf⟩
      have hget := (hnamed entityType s).2 ⟨hs, hname⟩
      have hnodup := (hproper entityType s hget).2.nodup
      exact ⟨s, hget, (Schema.requireField_eq_ok_iff hnodup).2 hf⟩

/-- **A registry is what was accepted.** After any sequence of calls it holds the valid schemas
that were last put under their own names, in the order in which the names were last inserted
while absent. A refused call changes nothing. An insertion is refused for the fault of the schema,
which is the first repeated field name before a missing label field. A registry is made from
exactly the schemas that are all accepted and have distinct names. -/
theorem registers_after :
    (∀ calls, Registers (written calls) (empty.after calls))
    ∧ (∀ (r : SchemaRegistry) (c : Call) (e : SchemaError),
        r.perform c = .error e → r.next c = r)
    ∧ (∀ (r : SchemaRegistry) (s : Schema) (e : SchemaError),
        r.insert s = .error e ↔ s.validate = .error e)
    ∧ (∀ schemas, (∃ r, ofList schemas = .ok r)
        ↔ (∀ s ∈ schemas, s.validate = .ok ()) ∧ (schemas.map (·.name)).Nodup)
    ∧ (∀ s : Schema, s.validate = .ok ()
        ↔ s.fieldNames.Nodup ∧ s.labelField ∈ s.fieldNames)
    ∧ (∀ (s : Schema) (e : SchemaError), s.validate = .error e
        ↔ (∃ name, Schema.FirstRepeat s.fieldNames name ∧ e = .duplicateField s.name name)
          ∨ s.fieldNames.Nodup ∧ s.labelField ∉ s.fieldNames
            ∧ e = .labelFieldMissing s.name s.labelField) := by
  refine ⟨fun calls => ?_, fun r c e h => ?_, fun r s e => ?_, fun schemas => ?_, fun s => ?_,
    fun s e => Schema.validate_eq_error_iff⟩
  · rw [after_eq]
    exact registers_replay (proper_written calls)
  · exact c.atomic_attempt.after_of_error h
  · rw [insert_eq]
    cases s.validate with
    | error e' => simp
    | ok _ => simp
  · simp only [ofList_eq_ok_iff, accepted_iff, Schema.validate_eq_ok_iff, exists_and_left,
      exists_eq, and_true]
  · rw [Schema.validate_eq_ok_iff, Schema.valid_iff]

/-- A name that comes back comes last, and a schema with two equal names is refused. -/
example :
    let disk : Schema := ⟨"disk", "Disk", "name", [.string "name" "Name"]⟩
    let zone : Schema := ⟨"zone", "Zone", "name", [.string "name" "Name"]⟩
    let twice : Schema := { zone with fields := zone.fields ++ zone.fields }
    (empty.after [.new [disk, zone], .insert disk, .remove "disk", .insert disk,
      .insert twice]).all = [zone, disk] := by
  decide

end SchemaRegistry
end Inventory
