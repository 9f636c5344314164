/-
# Networks and their access rules

`schema` and `view_def` of the networks, subnets, peerings, interfaces, addresses and security
groups.

The built-in resource types:

| entity type | label |
| --- | --- |
| `aws_cloud_security_group` | Security group |
| `aws_cloud_network_interface` | Network interface |
| `aws_cloud_elastic_ip` | Elastic IP |
| `aws_cloud_vpc` | VPC |
| `aws_cloud_subnet` | Subnet |
| `aws_cloud_vpc_peering_connection` | VPC peering connection |
-/

import Inventory.Builtin.Basic

namespace Inventory
namespace Builtin

open Inventory.Field (string boolean integer timestamp composite)

/-- What is known of each address range of a virtual network. -/
def cidrProperties : List String := ["cidr", "state", "association_id"]

/-- What an access rule says. -/
def permissionProperties : List String :=
  ["ip_protocol", "from_port", "to_port", "source", "cidr_ip", "cidr_ip_v6", "prefix_list_id",
    "group_id"]

/-- The fields that hold access rules. -/
def permissionFields : List String := ["ip_permission", "outbound_permission"]

/-- The name of the fieldset that shows access rules. -/
def rulesFieldset : String := "rules"

/-- A security group and its access rules in both directions. -/
def securityGroup : ResourceType := cloudResource
  "aws_cloud_security_group" "Security group" nameField
  [
    string "group_name" "Security group name",
    (string "group_id" "ID").fixed,
    string "description" "Description",
    string "vpc_id" "VPC ID",
    (boolean "default_vpc" "Default VPC").fixed,
    (string "owner_id" "Owner").fixed,
    composite "ip_permission" "Inbound rules" permissionProperties,
    composite "outbound_permission" "Outbound rules" permissionProperties,
    tagsField
  ]
  [
    { name := "security_group", title := "Security group"
      fields := ["name", "group_name", "group_id", "description", "vpc_id", "default_vpc",
        "owner_id", "created"] },
    { name := rulesFieldset, title := "Rules", fields := permissionFields },
    tagsFieldset,
    othersFieldset
  ]
  ["vpc_id"]

/-- A network interface. -/
def networkInterface : ResourceType := cloudResource
  "aws_cloud_network_interface" "Network interface" nameField
  [
    (string "network_interface_id" "Network interface ID").fixed,
    (string "instance_id" "Instance ID").fixed,
    (string "allocation_id" "Allocation ID").fixed,
    (string "mac_address" "MAC address").fixed,
    integer "device_index" "Device index",
    (string "status" "Status").fixed,
    boolean "delete_on_termination" "Delete on termination",
    string "description" "Description",
    string "security_groups" "Security groups",
    (string "vpc_id" "VPC ID").fixed,
    string "subnet_id" "Subnet ID",
    (string "public_ips" "Public IPs").fixed,
    string "primary_private_ip" "Primary private IP",
    string "secondary_private_ips" "Secondary private IPs",
    (string "private_dns" "Private DNS").fixed,
    boolean "source_dest_check" "Source/dest check",
    (string "attachment_id" "Attachment ID").fixed,
    (string "attachment_owner" "Attachment owner").fixed,
    (string "attachment_status" "Attachment status").fixed,
    (string "owner_id" "Owner").fixed,
    tagsField
  ]
  [
    { name := "network_interface", title := "Network interface"
      fields := ["name", "network_interface_id", "description", "instance_id", "allocation_id",
        "mac_address", "device_index", "status", "delete_on_termination", "owner_id", "created"] },
    { name := "network", title := "Network"
      fields := ["security_groups", "vpc_id", "subnet_id", "public_ips", "primary_private_ip",
        "secondary_private_ips", "private_dns", "source_dest_check"] },
    { name := "attachment", title := "Attachment"
      fields := ["attachment_id", "attachment_owner", "attachment_status"] },
    tagsFieldset,
    othersFieldset
  ]
  ["status", "vpc_id"]

/-- An address that can be moved between instances. -/
def elasticIp : ResourceType := cloudResource
  "aws_cloud_elastic_ip" "Elastic IP" nameField
  [
    (string "public_ip" "Elastic IP").fixed,
    (string "private_ip_address" "Private IP address").fixed,
    (string "allocation_id" "Allocation ID").fixed,
    (string "association_id" "Association ID").fixed,
    (string "domain" "Domain (standard | vpc)").fixed,
    (string "scope" "Scope").fixed,
    (string "network_border_group" "Network border group").fixed,
    (string "public_ipv4_pool" "Public IPv4 pool").fixed,
    string "instance_id" "Instance ID",
    string "network_interface_id" "Network interface ID",
    (string "network_interface_owner" "Network interface owner").fixed,
    tagsField
  ]
  [
    { name := "ip_address", title := "IP address"
      fields := ["name", "public_ip", "private_ip_address", "allocation_id", "association_id",
        "domain", "scope", "network_border_group", "public_ipv4_pool", "created"] },
    { name := "assign", title := "Assign"
      fields := ["instance_id", "network_interface_id", "network_interface_owner"] },
    tagsFieldset,
    othersFieldset
  ]
  ["domain", "scope"]

/-- A virtual network. -/
def vpc : ResourceType := cloudResource
  "aws_cloud_vpc" "VPC" nameField
  [
    (string "vpc_id" "VPC ID").fixed,
    (string "owner_id" "Owner").fixed,
    (string "state" "State").fixed,
    (boolean "is_default" "Default VPC").fixed,
    string "instance_tenancy" "Instance tenancy",
    (string "dhcp_options_id" "DHCP options ID").fixed,
    (string "cidr_block" "IPv4 CIDR").describe "The primary IPv4 CIDR block.",
    (composite "cidr_blocks" "IPv4 CIDR blocks" cidrProperties).fixed,
    (composite "ipv6_cidr_blocks" "IPv6 CIDR blocks" cidrProperties).fixed,
    tagsField
  ]
  [
    { name := "vpc", title := "VPC"
      fields := ["name", "vpc_id", "owner_id", "state", "is_default", "instance_tenancy",
        "dhcp_options_id", "cidr_block", "created"] },
    singleField "cidr_blocks" "IPv4 CIDR",
    singleField "ipv6_cidr_blocks" "IPv6 CIDR",
    tagsFieldset,
    othersFieldset
  ]
  ["state", "instance_tenancy"]

/-- A part of a virtual network. -/
def subnet : ResourceType := cloudResource
  "aws_cloud_subnet" "Subnet" nameField
  [
    (string "subnet_id" "Subnet ID").fixed,
    string "vpc_id" "VPC ID",
    (string "owner_id" "Owner").fixed,
    (string "state" "State").fixed,
    string "cidr_block" "IPv4 CIDR",
    string "availability_zone" "Availability zone",
    (integer "available_ip_address_count" "Available IPv4 addresses").fixed,
    (boolean "default_for_az" "Default subnet").fixed,
    boolean "map_public_ip_on_launch" "Auto-assign public IPv4",
    tagsField
  ]
  [
    { name := "subnet", title := "Subnet"
      fields := ["name", "subnet_id", "vpc_id", "owner_id", "state", "cidr_block",
        "availability_zone", "available_ip_address_count", "default_for_az",
        "map_public_ip_on_launch", "created"] },
    tagsFieldset,
    othersFieldset
  ]
  ["state", "vpc_id", "availability_zone"]

/-- A connection between two virtual networks. -/
def vpcPeeringConnection : ResourceType := cloudResource
  "aws_cloud_vpc_peering_connection" "VPC peering connection" nameField
  [
    (string "vpc_peering_connection_id" "VPC peering connection ID").fixed,
    (string "status_code" "Status").fixed,
    (string "status_message" "Status message").fixed,
    (timestamp "expiration_time" "Expiration time").fixed,
    string "requester_vpc_id" "Requester VPC ID",
    (string "requester_cidr_block" "Requester CIDR").fixed,
    (string "requester_account_id" "Requester account").fixed,
    (string "requester_region" "Requester region").fixed,
    string "accepter_vpc_id" "Accepter VPC ID",
    (string "accepter_cidr_block" "Accepter CIDR").fixed,
    string "accepter_account_id" "Accepter account",
    string "accepter_region" "Accepter region",
    tagsField
  ]
  [
    { name := "vpc_peering_connection", title := "VPC peering connection"
      fields := ["name", "vpc_peering_connection_id", "status_code", "status_message",
        "expiration_time", "created"] },
    { name := "requester", title := "Requester"
      fields := ["requester_vpc_id", "requester_cidr_block", "requester_account_id",
        "requester_region"] },
    { name := "accepter", title := "Accepter"
      fields := ["accepter_vpc_id", "accepter_cidr_block", "accepter_account_id",
        "accepter_region"] },
    tagsFieldset,
    othersFieldset
  ]
  ["status_code"]

end Builtin
end Inventory
