import Federation.Binding
import Federation.Json.Printer
import Federation.Sha256

/-!
# The digest of bindings

The digest of a list of bindings is the SHA-256 of its JSON text, so it changes with
any field of any binding and with their order.
-/

namespace Federation.Binding

/-- The bytes that the digest of a list of bindings is taken of. -/
def digestInput (records : List Binding) : Bytes :=
  Utf8.encode (Json.compact (.array (records.map toJson)))

/-- The digest of a list of bindings, in hexadecimal. -/
def digest (records : List Binding) : String := Sha256.hexDigest (digestInput records)

end Federation.Binding
