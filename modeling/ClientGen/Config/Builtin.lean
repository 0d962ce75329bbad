import ClientGen.Config

/-! # The built-in configuration

The document that is used when none is named.
-/
namespace ClientGen.Config

def builtinLines : List String := [
    "# Naming and ownership tables shared by the models, services and builder passes.",
    "# Every pass must load the same document; generated files carry its fingerprint.",
    "version = 1",
    "",
    "[naming]",
    "service_keywords = [\"pulsar\"]",
    "routing_prefixes = [\"addon-providers\"]",
    "routing_strip_prefix = \"addon-\"",
    "",
    "[naming.operation_id_overrides]",
    r#""DELETE:/v4/ai/organisations/{ownerId}/ai/{addonAIId}/endpoints/{endpointId}""# ++
      r#" = "deleteAIEndpoint""#,
    r#""POST:/v4/ai/organisations/{ownerId}/ai/{addonAIId}/endpoints""# ++
      r#" = "createAIEndpoint""#,
    r#""GET:/v4/materia/organisations/{ownerId}/materia/databases/{resourceId}""# ++
      r#" = "getMateriaKvV4""#,
    r#""DELETE:/v4/materia/organisations/{ownerId}/materia/databases/{resourceId}""# ++
      r#" = "deleteMateriaKvV4""#,
    "",
    "[naming.operation_services]",
    "getPulsar = \"pulsar\"",
    "deletePulsar = \"pulsar\"",
    "getPulsarPolicies = \"pulsar\"",
    "setStoragePolicies = \"pulsar\"",
    "renewPulsarToken = \"pulsar\"",
    "createPulsarTenantAndNamespace = \"pulsar\"",
    "deletePulsarTenantAndNamespace = \"pulsar\"",
    "createPulsar = \"pulsar\"",
    "getPulsarProviderInfo = \"pulsar\"",
    "getPulsarCluster = \"pulsar\"",
    "listPulsarConsumptions = \"pulsar\"",
    "getTriggerPulsar = \"pulsar\"",
    "createTriggerPulsar = \"pulsar\"",
    "deleteTriggerPulsar = \"pulsar\"",
    "provisionPulsar = \"pulsar\"",
    "getPulsarV2 = \"pulsar\"",
    "",
    "[naming.service_packages]",
    "\"addon-pulsar\" = \"pulsar\"",
    "\"addon-storage\" = \"storage\"",
    "\"addon-cellar\" = \"storage\"",
    "\"addon-ai\" = \"ai\"",
    "\"addon-cumulocity\" = \"cumulocity\"",
    "\"addon-keycloak\" = \"keycloak\"",
    "\"addon-matomo\" = \"matomo\"",
    "\"addon-metabase\" = \"metabase\"",
    "\"addon-otoroshi\" = \"otoroshi\"",
    "\"addon-postgresql\" = \"postgresql\"",
    "\"config-provider\" = \"configuration_provider\"",
    "\"network-group\" = \"network_group\"",
    "\"materia-kv\" = \"materia_kv\"",
    "infrastructure = \"infrastructure\"",
    "compute = \"infrastructure\"",
    "drain = \"drains\"",
    "drains = \"drains\"",
    "loadbalancer = \"loadbalancer\"",
    "",
    "[types]",
    "preserved_names = [\"WireGuard\"]",
    "",
    "[builder]",
    "root_segment = \"v4\""]

def builtinText : String :=
  String.join (builtinLines.map (· ++ "\n"))

def embedded : Except ConfigError Config :=
  ofToml builtinText "<embedded>"

end ClientGen.Config
