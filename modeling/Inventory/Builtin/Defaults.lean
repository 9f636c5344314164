/-
# The built-in resource types

`cloud_schema_defaults` and `cloud_view_defaults`.

They are the defaults of a catalog, in this order, with or without a folder of
definitions.
-/

import Inventory.Builtin.Cluster
import Inventory.Builtin.Compute
import Inventory.Builtin.Network
import Inventory.Builtin.Storage

namespace Inventory
namespace Builtin

/-- The built-in resource types in order. -/
def resourceTypes : List ResourceType := [
  computeInstance, machineImage, keyPair, securityGroup, volume, snapshot, networkInterface,
  elasticIp, vpc, subnet, vpcPeeringConnection,
  node, namespaceResource, pod, deployment, service]

/-- Their schemas. -/
def schemas : List Schema := resourceTypes.map ResourceType.schema

/-- Their views. -/
def views : List View := resourceTypes.map ResourceType.view

end Builtin
end Inventory
