import Modularis.Foundation.GoTime
import Modularis.Shared.Durations
import Modularis.Shared.Text

namespace Modularis.Webhook.Signature

open Modularis.Foundation.GoTime
open Modularis.Shared.Durations
open Modularis.Shared.Text

/-- Why a signature is refused. -/
inductive SignatureError where
  | missingSignatureHeader
  | invalidSignatureFormat
  | expiredSignature
  | invalidSignature
deriving DecidableEq, Repr

/-- The texts of the errors. -/
def SignatureError.message : SignatureError → String
  | .missingSignatureHeader => "missing signature header"
  | .invalidSignatureFormat => "invalid signature header format"
  | .expiredSignature => "signature timestamp is outside the allowed tolerance"
  | .invalidSignature => "signature mismatch"

/-- `hmac.New(sha256.New, key)` over a message. -/
abbrev Hmac := (key message : List UInt8) → List UInt8

/-- The signature of a time and a body, in hexadecimal. -/
def sign (hmac : Hmac) (secret : String) (timestamp : Int) (body : List UInt8) :
    String :=
  encodeToString (hmac (bytes secret)
    (bytes (formatInt (unixSeconds timestamp)) ++ bytes "." ++ body))

/-- The header `t=<seconds>,v1=<hex>` of a signed request. -/
def buildHeader (hmac : Hmac) (secret : String) (timestamp : Int)
    (body : List UInt8) : String :=
  "t=" ++ formatInt (unixSeconds timestamp) ++ ",v1=" ++
    sign hmac secret timestamp body

/-- The timestamp and the signature of a header, as far as it is read. -/
structure Fields where
  rawTimestamp : String
  signature : String
deriving DecidableEq, Repr

/-- The body of the loop over the parts of a header. -/
def readPart (fields : Fields) (part : String) : Option Fields :=
  match cut (trimSpace part) '=' with
  | none => none
  | some (key, value) =>
      if key = "t" then some { fields with rawTimestamp := value }
      else if key = "v1" then some { fields with signature := value }
      else some fields

/-- The time and the signature of a header; of a repeated key the last value counts. -/
def parseHeader (value : String) : Except SignatureError (Int × String) :=
  if trimSpace value = "" then .error .missingSignatureHeader
  else
    match (split value ',').foldlM readPart
      { rawTimestamp := "", signature := "" } with
    | none => .error .invalidSignatureFormat
    | some fields =>
        if fields.rawTimestamp = "" ∨ fields.signature = "" then
          .error .invalidSignatureFormat
        else
          match parseInt fields.rawTimestamp with
          | none => .error .invalidSignatureFormat
          | some seconds => .ok (unix seconds, fields.signature)

/-- The time is checked before the signature. -/
def validate (hmac : Hmac) (secret headerValue : String) (body : List UInt8)
    (now tolerance : Int) : Except SignatureError Unit := do
  let (timestamp, providedSignature) ← parseHeader headerValue
  if absDuration (sub now timestamp) > tolerance then
    .error .expiredSignature
  else if sign hmac secret timestamp body ≠ providedSignature then
    .error .invalidSignature
  else .ok ()

end Modularis.Webhook.Signature
