import Modularis.Onboarding.Contracts
import Modularis.Shared.RabbitBus
import Modularis.Shared.StableHash

namespace Modularis.Gateway.AccountService

open Modularis.Onboarding.Contracts
open Modularis.Shared.RabbitBus (Json)
open Modularis.Shared.StableHash (Text IsNumberText Ends stableStringify requestJson
  hasOwnKeys_requestJson readsOff_of_hasOwnKeys eq_of_same_requestJson)

section Text

/-- The code units of a character. -/
def codeUnits (c : Char) : Text :=
  if c.toNat < 0x10000 then [UInt16.ofNat c.toNat]
  else
    [UInt16.ofNat (0xD800 + (c.toNat - 0x10000) / 0x400),
      UInt16.ofNat (0xDC00 + (c.toNat - 0x10000) % 0x400)]

/-- The units of a string. -/
def utf16 (s : String) : Text := s.toList.flatMap codeUnits

theorem ofNat_inj {m n : Nat} (hm : m < 65536) (hn : n < 65536)
    (h : UInt16.ofNat m = UInt16.ofNat n) : m = n := by
  have hnat := congrArg UInt16.toNat h
  rw [UInt16.toNat_ofNat', UInt16.toNat_ofNat'] at hnat
  omega

theorem toNat_not_surrogate (c : Char) :
    c.toNat < 0x110000 ∧ (c.toNat < 0xD800 ∨ 0xDFFF < c.toNat) := by
  have hvalid : c.toNat.isValidChar := c.valid
  unfold Nat.isValidChar at hvalid
  omega

theorem codeUnits_append_inj {c d : Char} {rest rest' : Text}
    (h : codeUnits c ++ rest = codeUnits d ++ rest') : c = d ∧ rest = rest' := by
  obtain ⟨hc, hc'⟩ := toNat_not_surrogate c
  obtain ⟨hd, hd'⟩ := toNat_not_surrogate d
  have hchar : c.toNat = d.toNat → c = d := fun hnat => by
    rw [← Char.ofNat_toNat c, hnat, Char.ofNat_toNat]
  unfold codeUnits at h
  split at h
  · split at h
    · obtain ⟨hfirst, hrest⟩ := List.cons.inj h
      exact ⟨hchar (ofNat_inj (by omega) (by omega) hfirst), hrest⟩
    · have hfirst := ofNat_inj (by omega) (by omega) (List.cons.inj h).1
      omega
  · split at h
    · have hfirst := ofNat_inj (by omega) (by omega) (List.cons.inj h).1
      omega
    · obtain ⟨hfirst, htail⟩ := List.cons.inj h
      obtain ⟨hsecond, hrest⟩ := List.cons.inj htail
      have hhigh := ofNat_inj (by omega) (by omega) hfirst
      have hlow := ofNat_inj (by omega) (by omega) hsecond
      exact ⟨hchar (by omega), hrest⟩

theorem flatMap_codeUnits_inj {cs ds : List Char}
    (h : cs.flatMap codeUnits = ds.flatMap codeUnits) : cs = ds := by
  have hnonempty : ∀ c, codeUnits c ≠ [] := fun c => by
    unfold codeUnits
    split <;> exact List.cons_ne_nil _ _
  induction cs generalizing ds with
  | nil =>
      cases ds with
      | nil => rfl
      | cons d ds => exact absurd (List.append_eq_nil_iff.mp h.symm).1 (hnonempty d)
  | cons c cs ih =>
      cases ds with
      | nil => exact absurd (List.append_eq_nil_iff.mp h).1 (hnonempty c)
      | cons d ds =>
          obtain ⟨rfl, hrest⟩ := codeUnits_append_inj h
          rw [ih hrest]

theorem utf16_inj {s t : String} (h : utf16 s = utf16 t) : s = t :=
  String.toList_injective (flatMap_codeUnits_inj h)

end Text

/-- A body that the validation pipe has let through; `ν` are the numbers of
JavaScript. -/
structure CreateAccountDto (ν : Type) where
  email : String
  name : String
  cellphone : String
  taxId : String
  amount : ν
  currency : String
deriving DecidableEq

/-- What the gateway computes with: the value of a number, its JSON text, and SHA-256
in hexadecimal digits. -/
structure Encoding (ν : Type) where
  valueOf : ν → Rat
  numberText : ν → Text
  digest : Text → String

namespace Encoding

variable {ν : Type} (enc : Encoding ν)

/-- The text that `stableHash` digests. -/
def hashedText (dto : CreateAccountDto ν) : Text :=
  stableStringify enc.numberText (requestJson
    { email := utf16 dto.email
      name := utf16 dto.name
      cellphone := utf16 dto.cellphone
      taxId := utf16 dto.taxId
      amount := dto.amount
      currency := utf16 dto.currency })

/-- The digest of what `stableHash` writes of the request. -/
def requestHash (dto : CreateAccountDto ν) : String := enc.digest (enc.hashedText dto)

/-- The payload of `onboarding.account.create`. -/
def payload (idempotencyKey : String) (dto : CreateAccountDto ν) :
    OnboardingAccountCreateCommandPayload where
  idempotencyKey := idempotencyKey
  requestHash := enc.requestHash dto
  email := dto.email
  name := dto.name
  cellphone := dto.cellphone
  taxId := dto.taxId
  amount := enc.valueOf dto.amount
  currency := dto.currency

/-- `AccountService.create` up to the RPC. -/
def command (correlationId messageId idempotencyKey : String) (dto : CreateAccountDto ν) :
    CreateCommand where
  messageId := messageId
  correlationId := correlationId
  payload := enc.payload idempotencyKey dto

/-- The envelope of the command, as the bus writes it. -/
def commandJson (occurredAt : String) (command : CreateCommand) : Json :=
  .object
    [("schemaVersion", .string "1.0.0"), ("messageId", .string command.messageId),
      ("correlationId", .string command.correlationId), ("occurredAt", .string occurredAt),
      ("type", .string "onboarding.account.create"), ("eventVersion", .string "1.0.0"),
      ("id", .string command.messageId), ("timestamp", .string occurredAt),
      ("eventType", .string "onboarding.account.create"), ("source", .string "api-gateway"),
      ("payload", .object
        [("idempotencyKey", .string command.payload.idempotencyKey),
          ("requestHash", .string command.payload.requestHash),
          ("email", .string command.payload.email), ("name", .string command.payload.name),
          ("cellphone", .string command.payload.cellphone),
          ("taxId", .string command.payload.taxId),
          ("amount", .number command.payload.amount),
          ("currency", .string command.payload.currency)])]

/-- The JSON texts of numbers are numbers and tell them apart. -/
structure Exact : Prop where
  isNumberText : ∀ n, IsNumberText (enc.numberText n)
  injective : Function.Injective enc.numberText

/-- No two of the texts have one digest. -/
def CollisionFree (requests : List (CreateAccountDto ν)) : Prop :=
  ∀ dto ∈ requests, ∀ dto' ∈ requests, enc.requestHash dto = enc.requestHash dto' →
    enc.hashedText dto = enc.hashedText dto'

variable {enc}

theorem eq_of_hashedText (h : enc.Exact) {dto dto' : CreateAccountDto ν}
    (htext : enc.hashedText dto = enc.hashedText dto') : dto = dto' := by
  have hends : Ends [] := by simp [Ends]
  have hsame := eq_of_same_requestJson (readsOff_of_hasOwnKeys h.isNumberText h.injective
    (hasOwnKeys_requestJson _) _ (hasOwnKeys_requestJson _) [] [] hends hends
    (congrArg (· ++ []) htext)).1
  obtain ⟨email, name, cellphone, taxId, amount, currency⟩ := dto
  obtain ⟨email', name', cellphone', taxId', amount', currency'⟩ := dto'
  injection hsame with hemail hname hcellphone htaxId hamount hcurrency
  rw [CreateAccountDto.mk.injEq]
  exact ⟨utf16_inj hemail, utf16_inj hname, utf16_inj hcellphone, utf16_inj htaxId,
    hamount, utf16_inj hcurrency⟩

theorem eq_of_requestHash (h : enc.Exact) {requests : List (CreateAccountDto ν)}
    (hfree : enc.CollisionFree requests) {dto dto' : CreateAccountDto ν}
    (hdto : dto ∈ requests) (hdto' : dto' ∈ requests)
    (hhash : enc.requestHash dto = enc.requestHash dto') : dto = dto' :=
  eq_of_hashedText h (hfree dto hdto dto' hdto' hhash)

variable (enc) in
/-- The request that a key and a hash stand for. -/
def requestOf (requests : List (CreateAccountDto ν)) (idempotencyKey requestHash : String) :
    OnboardingAccountCreateCommandPayload :=
  match requests.find? fun dto => decide (enc.requestHash dto = requestHash) with
  | some dto => enc.payload idempotencyKey dto
  | none =>
      { idempotencyKey := idempotencyKey
        requestHash := requestHash
        email := ""
        name := ""
        cellphone := ""
        taxId := ""
        amount := 0
        currency := "" }

theorem requestOf_payload (h : enc.Exact) {requests : List (CreateAccountDto ν)}
    (hfree : enc.CollisionFree requests) {dto : CreateAccountDto ν}
    (hdto : dto ∈ requests) (idempotencyKey : String) :
    enc.requestOf requests idempotencyKey (enc.requestHash dto) =
      enc.payload idempotencyKey dto := by
  have hfound : requests.find? (fun other =>
      decide (enc.requestHash other = enc.requestHash dto)) = some dto := by
    cases hfind : requests.find? fun other =>
        decide (enc.requestHash other = enc.requestHash dto) with
    | none =>
        have hnone := List.find?_eq_none.mp hfind dto hdto
        simp at hnone
    | some other =>
        have hhash : enc.requestHash other = enc.requestHash dto := by
          simpa using List.find?_some hfind
        rw [eq_of_requestHash h hfree (List.mem_of_find?_eq_some hfind) hdto hhash]
  rw [requestOf, hfound]

end Encoding

end Modularis.Gateway.AccountService
