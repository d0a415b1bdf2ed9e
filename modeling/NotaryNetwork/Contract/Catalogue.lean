import NotaryNetwork.Contract.FileStore
import NotaryNetwork.Contract.Schema
import NotaryNetwork.Json.Printer

/-!
# The two contracts

Group parameters are an array of different entries with a key and a value. A network configuration is
an object with members, notaries and the name of a key scheme. Both are also there as files.
-/

namespace NotaryNetwork.Contract

def dialect : String := "https://json-schema.org/draft/2020-12/schema"

/-- A number without leading zeros. -/
def canonicalIndex : Pattern :=
  .either (.text ['0']) (.seq (.range '1' '9') (.many '0' '9'))

def entryKey : Pattern :=
  .seq (.text "service.".toList) <| .seq canonicalIndex <| .seq (.text ['.']) <|
    .either (.text "name".toList) <| .either (.text "keys.0".toList) <|
      .either (.text "flow.protocol.name".toList) <|
        .seq (.text "flow.protocol.version.".toList) canonicalIndex

def groupParameters : Schema := [
  .remark "$schema" dialect,
  .remark "$id" "group_parameters.json",
  .remark "title" "group_parameters",
  .remark "description" "Ordered notary service entries loaded by embedded test nodes",
  .type .array,
  .uniqueItems,
  .items [
    .type .object,
    .required ["key", "value"],
    .closed,
    .properties [
      ("key", [.type .string, .pattern entryKey]),
      ("value", [.type .string, .minLength 1])]]]

def nonempty : Schema := [.type .string, .minLength 1]

def networkConfig : Schema := [
  .remark "$schema" dialect,
  .remark "$id" "network_config.json",
  .remark "title" "network_config",
  .remark "description" "Member identities, notary declarations and key scheme of a test network",
  .type .object,
  .closed,
  .properties [
    ("members", [.type .array, .items nonempty]),
    ("notaries", [
      .type .array,
      .items [
        .type .object,
        .required ["name", "protocol_versions"],
        .closed,
        .properties [
          ("name", nonempty),
          ("protocol_versions", [
            .type .array, .minItems 1, .items [.type .integer, .minimum 1]])]]]),
    ("scheme_name", nonempty)]]

def builtinSchema? (name : String) : Option Schema :=
  if name = "group_parameters" then some groupParameters
  else if name = "network_config" then some networkConfig
  else none

/-- The schema files of the library in a folder. -/
def builtinFiles (folder : Path) : List (Path × String) :=
  [("group_parameters", groupParameters), ("network_config", networkConfig)].map
    fun (name, schema) => (folder ++ [fileName name], schema.toDocument.render)

end NotaryNetwork.Contract
