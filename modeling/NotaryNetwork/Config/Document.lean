import NotaryNetwork.Config.Update
import NotaryNetwork.Contract.Catalogue
import NotaryNetwork.Text.Utf8

/-!
# Configurations from documents

A document that follows the contract of network configurations is read as a configuration. A file
holds such a document as UTF-8.
-/

namespace NotaryNetwork.NetworkConfig

open Json (Value)

def itemsOf : Value → List Value
  | .array vs => vs
  | _ => []

/-- What a notary of a document gives: its name is the service. -/
def notaryOfDocument (notary : Value) : Value :=
  .object [("service", (notary.get? "name").getD .null),
    ("protocol_versions", (notary.get? "protocol_versions").getD .null)]

/-- What a document gives for a configuration. -/
def draftOfDocument (document : Value) : Draft where
  members := some (.items ((itemsOf ((document.get? "members").getD .null)).map .raw))
  notaries := some (.items ((itemsOf ((document.get? "notaries").getD .null)).map fun notary =>
    .raw (notaryOfDocument notary)))
  schemeName := document.get? "scheme_name"

/-- The configuration of a document, if the document follows its contract and its fields are
admitted. -/
def ofDocument (document : Value) : Except ConfigError NetworkConfig := do
  (Contract.networkConfig.validate document).mapError .contract
  ((ofDraft (draftOfDocument document)).titled title).mapError .record

def ofFile (file : Option Bytes) : Except ConfigError NetworkConfig := do
  let some bytes := file | throw .notFound
  let text ← (Text.Utf8.decode bytes).mapError .notUtf8
  let document ← (Json.read (String.ofList (Text.unifyNewlines text))).mapError .unreadable
  ofDocument document

end NotaryNetwork.NetworkConfig
