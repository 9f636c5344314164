/-
# Volumes and snapshots

`schema` and `view_def` of the volumes and snapshots.

The built-in resource types:

| entity type | label |
| --- | --- |
| `aws_cloud_volume` | Volume |
| `aws_cloud_snapshot` | Snapshot |
-/

import Inventory.Builtin.Basic

namespace Inventory
namespace Builtin

open Inventory.Field (string boolean integer timestamp composite)

/-- A block volume. -/
def volume : ResourceType := cloudResource
  "aws_cloud_volume" "Volume" nameField
  [
    (string "volume_id" "Volume ID").fixed,
    ((string "attachment_information" "Attachment information").describe
      "The instance the volume is attached to.").fixed,
    string "snapshot_id" "Snapshot ID",
    (string "snapshot_name" "Snapshot name").fixed,
    integer "size" "Size (GiB)",
    string "availability_zone" "Availability zone",
    string "volume_type" "Volume type",
    integer "iops" "IOPS",
    boolean "encrypted" "Encrypted",
    (string "state" "State").fixed
  ]
  [
    { name := "volume", title := "Volume"
      fields := ["attachment_information", "volume_id", "snapshot_id", "snapshot_name", "size",
        "availability_zone", "volume_type", "iops", "encrypted", "state", "created"] },
    othersFieldset
  ]
  ["volume_type", "state", "availability_zone"]

/-- A snapshot of a volume. -/
def snapshot : ResourceType := cloudResource
  "aws_cloud_snapshot" "Snapshot" nameField
  [
    (string "snapshot_id" "Snapshot ID").fixed,
    string "volume_id" "Volume ID",
    (integer "size" "Size (GiB)").fixed,
    string "description" "Description",
    (string "status" "Status").fixed,
    (string "progress" "Progress").fixed,
    (boolean "encrypted" "Encrypted").fixed,
    (string "owner_id" "Owner").fixed,
    (timestamp "started" "Started").fixed,
    tagsField
  ]
  [
    { name := "snapshot", title := "Snapshot"
      fields := ["name", "snapshot_id", "volume_id", "size", "description", "status",
        "progress", "encrypted", "owner_id", "started", "created"] },
    tagsFieldset,
    othersFieldset
  ]
  ["status"]

end Builtin
end Inventory
