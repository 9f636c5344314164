/-
# Instances, images and key pairs

`schema` and `view_def` of the instances, images and key pairs.

The built-in resource types:

| entity type | label |
| --- | --- |
| `aws_cloud_instance` | Instance |
| `aws_cloud_image` | Image |
| `aws_cloud_key_pair` | Key pair |
-/

import Inventory.Builtin.Basic

namespace Inventory
namespace Builtin

open Inventory.Field (string boolean integer timestamp composite)

/-- A virtual machine. -/
def computeInstance : ResourceType := cloudResource
  "aws_cloud_instance" "Instance" nameField
  [
    (string "instance_id" "Instance ID").fixed,
    (string "instance_state" "Instance state").fixed,
    string "instance_type" "Instance type",
    (string "iam_role" "IAM role").describe "The IAM instance profile attached to the instance.",
    (string "image_id" "AMI image").fixed,
    (string "kernel_id" "Kernel image").fixed,
    (string "ramdisk_id" "Ramdisk image").fixed,
    (string "availability_zone" "Availability zone").fixed,
    (timestamp "launch_time" "Launch time").fixed,
    (integer "ami_launch_index" "AMI launch index").fixed,
    (string "public_ip" "Public IP").fixed,
    (string "private_ips" "Private IPs").fixed,
    (string "public_dns" "Public DNS").fixed,
    (string "private_dns" "Private DNS").fixed,
    string "security_groups" "Security groups",
    (string "key_pair_name" "Key pair name").fixed,
    (string "vpc_id" "VPC ID").fixed,
    (string "subnet_id" "Subnet ID").fixed,
    (string "network_interfaces" "Network interfaces").fixed,
    (string "root_device_type" "Root device type").fixed,
    (string "root_device" "Root device").fixed,
    (boolean "ebs_optimized" "EBS optimized").fixed,
    (string "block_devices" "Block devices").fixed,
    (boolean "termination_protection" "Termination protection").describe
      "Prevents the instance from being terminated through the API.",
    string "login_username" "Login username",
    boolean "monitoring" "Detailed monitoring",
    tagsField
  ]
  [
    { name := "instance", title := "Instance"
      fields := ["name", "instance_id", "instance_state", "instance_type", "iam_role",
        "image_id", "kernel_id", "ramdisk_id", "availability_zone", "launch_time",
        "ami_launch_index"] },
    { name := "network", title := "Network"
      fields := ["public_ip", "private_ips", "public_dns", "private_dns", "security_groups",
        "key_pair_name", "vpc_id", "subnet_id", "network_interfaces"] },
    { name := "storage", title := "Storage"
      fields := ["root_device_type", "root_device", "ebs_optimized", "block_devices"] },
    tagsFieldset,
    { name := "options", title := "Options"
      fields := ["termination_protection", "login_username", "monitoring"] },
    othersFieldset
  ]
  ["instance_state", "instance_type", "availability_zone"]

/-- A machine image. -/
def machineImage : ResourceType := cloudResource
  "aws_cloud_image" "Image" nameField
  [
    (string "image_id" "AMI ID").fixed,
    string "description" "Description",
    (string "account_id" "Owner account").fixed,
    (string "source" "Source").fixed,
    (string "status" "Status").fixed,
    (string "state_reason" "State reason").fixed,
    (boolean "visibility" "Public").describe "Whether the image is publicly launchable.",
    (string "platform" "Platform").fixed,
    (string "architecture" "Architecture").fixed,
    (string "virtualization_type" "Virtualization type").fixed,
    (string "image_type" "Image type").fixed,
    (string "root_device_type" "Root device type").fixed,
    (string "root_device_name" "Root device name").fixed,
    (string "kernel_id" "Kernel ID").fixed,
    (string "ramdisk_id" "Ramdisk ID").fixed,
    (string "product_code" "Product code").fixed,
    (composite "block_device_mappings" "Block device mappings"
      ["device_name", "snapshot_id", "volume_size", "volume_type", "delete_on_termination"]).fixed,
    tagsField
  ]
  [
    { name := "image", title := "Image"
      fields := ["name", "image_id", "description", "account_id", "source", "status",
        "state_reason", "visibility", "created"] },
    { name := "type", title := "Type"
      fields := ["platform", "architecture", "virtualization_type", "image_type",
        "product_code", "kernel_id", "ramdisk_id"] },
    { name := "device", title := "Device", fields := ["root_device_type", "root_device_name"] },
    singleField "block_device_mappings" "Block device mappings",
    tagsFieldset,
    othersFieldset
  ]
  ["architecture", "virtualization_type", "root_device_type", "status"]

/-- A key pair, of which only the public half is recorded. -/
def keyPair : ResourceType := cloudResource
  "aws_cloud_key_pair" "Key pair" (string "key_pair_name" "Key pair name")
  [
    (string "key_pair_id" "Key pair ID").fixed,
    (string "key_fingerprint" "Fingerprint").fixed,
    (string "key_type" "Key type").fixed
  ]
  [
    { name := "key_pair", title := "Key pair"
      fields := ["key_pair_name", "key_pair_id", "key_fingerprint", "key_type", "created"] },
    othersFieldset
  ]
  ["key_type"]

end Builtin
end Inventory
