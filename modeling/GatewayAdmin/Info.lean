import GatewayAdmin.Record
/-! What a cluster tells about itself. -/
namespace GatewayAdmin

structure StorageBackend where
  name : Option String := none
  clusterId : Option String := none
deriving DecidableEq

def StorageBackend.schema : Schema StorageBackend where
  fields := [
    .optional "name" .text (·.name) fun r v => { r with name := v },
    .optional "cluster_id" .text (·.clusterId) fun r v => { r with clusterId := v }]
  blank := {}

def StorageBackend.codec : Codec StorageBackend := StorageBackend.schema.codec

structure ClusterInfo where
  storageBackends : Option (List StorageBackend) := none
deriving DecidableEq

def ClusterInfo.schema : Schema ClusterInfo where
  fields := [
    .optional "storage_backends" (.list StorageBackend.codec) (·.storageBackends)
      fun r v => { r with storageBackends := v }]
  blank := {}

def ClusterInfo.codec : Codec ClusterInfo := ClusterInfo.schema.codec

structure Info where
  info : Option ClusterInfo := none
deriving DecidableEq

def Info.schema : Schema Info where
  fields := [
    .optional "info" ClusterInfo.codec (·.info) fun r v => { r with info := v }]
  blank := {}

def Info.codec : Codec Info := Info.schema.codec

end GatewayAdmin
