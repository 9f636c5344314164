/-
# One-time blobs

`TempResourceStore` with `check_key`: `put` and `take` of `MemoryTempStore` and `DirTempStore`.

A blob is put under a key and handed out once: taking it removes it. Keys become
file names, so only plain names are accepted. Blobs live in memory, or in a
directory with one file per key, where a blob appears by renaming a temporary
file into place.

| keys refused |
| --- |
| the empty key, `.` and `..` |
| keys with a slash, a backslash or the character U+0000 |
-/

import Inventory.Record.Basic

namespace Inventory
namespace TempStore

/-- A key that is a plain file name. -/
def isPlainKey (key : String) : Bool :=
  decide (key ≠ "") && decide (key ≠ ".") && decide (key ≠ "..")
    && key.toList.all fun c => decide (c ≠ '/' ∧ c ≠ '\\' ∧ c ≠ '\x00')

end TempStore

/-- Blobs in memory. -/
structure MemoryTempStore where
  blobs : OrderedMap String ByteArray := .empty

namespace MemoryTempStore

/-- Put a blob, replacing the one under its key. -/
def put (s : MemoryTempStore) (key : String) (data : ByteArray) :
    Except RecordError MemoryTempStore :=
  if TempStore.isPlainKey key then .ok ⟨s.blobs.insert key data⟩ else .error (.invalidKey key)

/-- Take the blob of a key, if there is one. -/
def take (s : MemoryTempStore) (key : String) :
    Except RecordError (Option ByteArray × MemoryTempStore) :=
  if TempStore.isPlainKey key then .ok (s.blobs.get? key, ⟨s.blobs.erase key⟩)
  else .error (.invalidKey key)

end MemoryTempStore

/-- Blobs in the files of a directory. -/
structure DirTempStore where
  root : Path

namespace DirTempStore

/-- The file of a key. -/
def pathOf (s : DirTempStore) (key : String) : Path := s.root.join (.ofText key)

/-- Use a directory, made if it is missing. -/
def new (root : Path) : DiskM FileError DirTempStore := do
  Disk.change (·.createDirectories root)
  return ⟨root⟩

/-- Write the temporary file of a blob. -/
def stage (s : DirTempStore) (data : ByteArray) : DiskM FileError Path := do
  let name := (← get).temporaryName
  modify fun d => { d with temporaries := d.temporaries + 1 }
  let temporary := s.root.join (.ofText name)
  Disk.change (·.write temporary data)
  return temporary

/-- Put a blob, replacing the one under its key. -/
def put (s : DirTempStore) (key : String) (data : ByteArray) : DiskM RecordError Unit :=
  if TempStore.isPlainKey key then
    ExceptT.adapt RecordError.file do
      let temporary ← s.stage data
      Disk.change (·.rename temporary (s.pathOf key))
  else throw (.invalidKey key)

/-- The blob of a key, still in its file. -/
def peek (s : DirTempStore) (key : String) : DiskM FileError (Option ByteArray) := do
  match (← get).read (s.pathOf key) with
  | .ok data => return some data
  | .error .notFound => return none
  | .error e => throw e

/-- Take the blob of a key, if there is one: read the file, then remove it. -/
def take (s : DirTempStore) (key : String) : DiskM RecordError (Option ByteArray) :=
  if TempStore.isPlainKey key then
    ExceptT.adapt RecordError.file do
      let data ← s.peek key
      if data.isSome then
        Disk.change (·.remove (s.pathOf key))
      return data
  else throw (.invalidKey key)

end DirTempStore
end Inventory
