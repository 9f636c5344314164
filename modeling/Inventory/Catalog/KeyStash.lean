/-
# Private keys of new key pairs

`PrivateKeyStash`: `stash` and `take`.

The provider hands out a private key once, when its key pair is made. It is never
part of a record; it waits under a name made of the record's identifier until its
owner takes it.
-/

import Inventory.Builtin.Compute
import Inventory.TempStore

namespace Inventory

/-- Private keys that wait for their owners. -/
structure KeyStash where
  store : MemoryTempStore := {}

namespace KeyStash

/-- The entity type of key pairs. -/
def entityType : String := Builtin.keyPair.schema.name

/-- The name under which the private key of a record waits. -/
def keyOf (r : Record) : Except RecordError String :=
  if r.entityType = entityType then .ok (entityType ++ "_" ++ r.id.toText ++ ".pem")
  else .error (.entityTypeMismatch entityType r.entityType)

/-- Stash the private key of a key pair, in place of one that waits. -/
def put (s : KeyStash) (r : Record) (privateKey : ByteArray) : Except RecordError KeyStash := do
  let key ← keyOf r
  return ⟨← s.store.put key privateKey⟩

/-- Take the private key of a key pair, if one waits. -/
def take (s : KeyStash) (r : Record) : Except RecordError (Option ByteArray × KeyStash) := do
  let key ← keyOf r
  let (privateKey, store) ← s.store.take key
  return (privateKey, ⟨store⟩)

end KeyStash
end Inventory
