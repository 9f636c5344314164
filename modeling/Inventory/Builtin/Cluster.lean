/-
# Kubernetes clusters

`schema` and `view_def` of the namespaces, nodes, pods, deployments and services of a cluster.

The built-in resource types:

| entity type | label |
| --- | --- |
| `k8s_node` | Node |
| `k8s_namespace` | Namespace |
| `k8s_pod` | Pod |
| `k8s_deployment` | Deployment |
| `k8s_service` | Service |
-/

import Inventory.Builtin.Basic

namespace Inventory
namespace Builtin

open Inventory.Field (string boolean integer timestamp composite)

/-- The labels of an object. -/
def labelsField : Field := keyValues "labels" "Labels"

/-- The annotations of an object. -/
def annotationsField : Field := keyValues "annotations" "Annotations"

/-- Everything that is known of an object, as one text. -/
def detailField : Field := (Field.string "detail" "Detail").fixed

/-- The closed fieldset of the detail. -/
def detailFieldset : Fieldset := (singleField "detail" "Detail").collapsed

/-- A machine of a cluster. -/
def node : ResourceType := cloudResource
  "k8s_node" "Node" nameField
  [
    (string "status" "Status").fixed,
    labelsField,
    annotationsField,
    (composite "addresses" "Addresses" ["type", "address"]).fixed,
    (string "pod_cidr" "Pod CIDR").fixed,
    (string "provider_id" "Provider ID").fixed,
    boolean "unschedulable" "Unschedulable",
    (string "cpu_capacity" "CPU capacity").fixed,
    (string "memory_capacity" "Memory capacity").fixed,
    (integer "pods_capacity" "Pods capacity").fixed,
    (string "machine_id" "Machine ID").fixed,
    (string "kernel_version" "Kernel version").fixed,
    (string "os_image" "OS image").fixed,
    (string "container_runtime_version" "Container runtime version").fixed,
    (string "kubelet_version" "Kubelet version").fixed,
    (string "operating_system" "Operating system").fixed,
    (string "architecture" "Architecture").fixed,
    detailField
  ]
  [
    { name := "node", title := "Node"
      fields := ["name", "status", "labels", "annotations", "pod_cidr", "provider_id",
        "unschedulable", "created"] },
    { name := "capacity", title := "Capacity"
      fields := ["cpu_capacity", "memory_capacity", "pods_capacity"] },
    singleField "addresses" "Addresses",
    { name := "system_info", title := "System info"
      fields := ["machine_id", "kernel_version", "os_image", "container_runtime_version",
        "kubelet_version", "operating_system", "architecture"] },
    detailFieldset,
    othersFieldset
  ]
  ["status", "operating_system"]

/-- A namespace of a cluster. -/
def namespaceResource : ResourceType := cloudResource
  "k8s_namespace" "Namespace" nameField
  [
    (string "status" "Status").fixed,
    labelsField,
    annotationsField,
    detailField
  ]
  [
    { name := "namespace", title := "Namespace"
      fields := ["name", "status", "labels", "annotations", "created"] },
    detailFieldset,
    othersFieldset
  ]
  ["status"]

/-- A pod. -/
def pod : ResourceType := cloudResource
  "k8s_pod" "Pod" nameField
  [
    string "namespace" "Namespace",
    (string "status" "Status").fixed,
    (string "qos_class" "QoS class").fixed,
    (string "node_name" "Node").fixed,
    (string "pod_ip" "Pod IP").fixed,
    (string "host_ip" "Host IP").fixed,
    (integer "restarts" "Restarts").fixed,
    labelsField,
    annotationsField,
    (composite "containers" "Containers" ["container_name", "image", "state"]).fixed,
    detailField
  ]
  [
    { name := "pod", title := "Pod"
      fields := ["name", "namespace", "status", "qos_class", "node_name", "pod_ip", "host_ip",
        "restarts", "labels", "annotations", "created"] },
    singleField "containers" "Containers",
    detailFieldset,
    othersFieldset
  ]
  ["namespace", "status", "node_name"]

/-- A deployment. -/
def deployment : ResourceType := cloudResource
  "k8s_deployment" "Deployment" nameField
  [
    string "namespace" "Namespace",
    string "strategy" "Strategy",
    integer "min_ready_seconds" "Min ready seconds",
    integer "revision_history_limit" "Revision history limit",
    boolean "paused" "Paused",
    labelsField,
    annotationsField,
    integer "replicas" "Replicas",
    (integer "available_replicas" "Available replicas").fixed,
    (integer "updated_replicas" "Updated replicas").fixed,
    (integer "ready_replicas" "Ready replicas").fixed,
    (integer "unavailable_replicas" "Unavailable replicas").fixed,
    detailField
  ]
  [
    { name := "deployment", title := "Deployment"
      fields := ["name", "namespace", "strategy", "min_ready_seconds", "revision_history_limit",
        "paused", "labels", "annotations", "created"] },
    { name := "rollout", title := "Rollout status"
      fields := ["replicas", "available_replicas", "updated_replicas", "ready_replicas",
        "unavailable_replicas"] },
    detailFieldset,
    othersFieldset
  ]
  ["namespace", "strategy"]

/-- A service. -/
def service : ResourceType := cloudResource
  "k8s_service" "Service" nameField
  [
    string "namespace" "Namespace",
    labelsField,
    annotationsField,
    keyValues "selector" "Selector",
    string "session_affinity" "Session affinity",
    (string "cluster_ip" "Cluster IP").fixed,
    string "service_type" "Type",
    string "external_name" "External name",
    composite "ports" "Ports" ["port_name", "protocol", "port", "target_port", "node_port"],
    detailField
  ]
  [
    { name := "service", title := "Service"
      fields := ["name", "namespace", "labels", "annotations", "selector", "session_affinity",
        "cluster_ip", "service_type", "external_name", "created"] },
    singleField "ports" "Ports",
    detailFieldset,
    othersFieldset
  ]
  ["namespace", "service_type"]

end Builtin
end Inventory
