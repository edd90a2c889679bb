import Modularis.Shared.Tolerance
import Modularis.Webhook.Signature

namespace Modularis.Webhook.Validation

open Modularis.Foundation.GoInt
open Modularis.Foundation.GoTime
open Modularis.Shared.Durations
open Modularis.Shared.Text
open Modularis.Shared.Tolerance
open Modularis.Webhook.Signature

/-- A part `key=value` of a header. -/
def readKeyValue (part : String) : Option (String × String) := cut (trimSpace part) '='

/-- The last value under a key, or a given one where there is none. -/
def lastValue (key missing : String) (parts : List (String × String)) : String :=
  ((parts.filter fun part => part.1 = key).map Prod.snd).getLastD missing

/-- The header consists of parts `key=value` and states a number of seconds and
a signature. -/
def Parses (headerValue : String) (seconds : Int) (signature : String) : Prop :=
  ∃ parts, (split headerValue ',').mapM readKeyValue = some parts ∧
    parseInt (lastValue "t" "" parts) = some seconds ∧
    lastValue "v1" "" parts = signature ∧ signature ≠ ""

/-- The hex HMAC of `<seconds>.<body>`. -/
def expected (hmac : Hmac) (secret : String) (seconds : Int) (body : List UInt8) :
    String :=
  encodeToString
    (hmac (bytes secret) (bytes (formatInt seconds) ++ bytes "." ++ body))

/-- The header states a time and the signature that belongs to it. -/
def Signed (hmac : Hmac) (secret headerValue : String) (body : List UInt8)
    (seconds : Int) : Prop :=
  Parses headerValue seconds (expected hmac secret seconds body)

/-- The header is signed for a time that is no further from now than the
tolerance. -/
def Genuine (hmac : Hmac) (secret headerValue : String) (body : List UInt8)
    (now tolerance : Int) : Prop :=
  ∃ seconds, Signed hmac secret headerValue body seconds ∧
    Near now (second * seconds) tolerance

/-- `time.Unix` leaves the seconds that it can count. -/
def Wraps (seconds : Int) : Prop := maxInt64 < seconds + unixToInternal

/-- The times for which the distance is measured rightly: it does not saturate
into the window and, where `time.Unix` wraps, both the stated time and the one
that it wraps to are far, or the greatest tolerance lets a near one in. -/
def Measured (now seconds tolerance : Int) : Prop :=
  ¬ Wraps seconds ∧ ¬ Masked now (second * seconds) tolerance ∨
  Wraps seconds ∧ ¬ Near now (second * seconds) tolerance ∧
    ¬ Near now (unix seconds) tolerance ∧ ¬ Masked now (unix seconds) tolerance ∨
  Wraps seconds ∧ Near now (second * seconds) tolerance ∧ tolerance = maxInt64

section Header

/-- What a part does to the fields that are read. -/
def assign (fields : Fields) (part : String × String) : Fields :=
  if part.1 = "t" then { fields with rawTimestamp := part.2 }
  else if part.1 = "v1" then { fields with signature := part.2 }
  else fields

theorem readPart_eq (fields : Fields) (part : String) :
    readPart fields part = (readKeyValue part).map (assign fields) := by
  unfold readPart readKeyValue
  cases cut (trimSpace part) '=' with
  | none => rfl
  | some part =>
      obtain ⟨key, value⟩ := part
      simp only [Option.map_some, assign]
      split_ifs <;> rfl

theorem foldlM_readPart (fields : Fields) (xs : List String) :
    xs.foldlM readPart fields =
      (xs.mapM readKeyValue).map fun parts => parts.foldl assign fields := by
  induction xs generalizing fields with
  | nil => rfl
  | cons x xs ih =>
      rw [List.foldlM_cons, List.mapM_cons, readPart_eq]
      cases readKeyValue x with
      | none => rfl
      | some part =>
          simp only [Option.map_some, Option.bind_eq_bind, Option.bind_some, ih]
          cases xs.mapM readKeyValue <;> rfl

theorem lastValue_cons (key missing : String) (part : String × String)
    (parts : List (String × String)) :
    lastValue key missing (part :: parts) =
      lastValue key (if part.1 = key then part.2 else missing) parts := by
  unfold lastValue
  by_cases h : part.1 = key
  · rw [List.filter_cons_of_pos (by simpa using h), List.map_cons,
      List.getLastD_cons, if_pos h]
  · rw [List.filter_cons_of_neg (by simpa using h), if_neg h]

theorem foldl_assign (fields : Fields) (parts : List (String × String)) :
    parts.foldl assign fields =
      { rawTimestamp := lastValue "t" fields.rawTimestamp parts
        signature := lastValue "v1" fields.signature parts } := by
  induction parts generalizing fields with
  | nil => rfl
  | cons part parts ih =>
      rw [List.foldl_cons, ih, lastValue_cons, lastValue_cons]
      by_cases ht : part.1 = "t"
      · simp [assign, ht]
      · by_cases hv : part.1 = "v1" <;> simp [assign, ht, hv]

theorem isSpace_of_trimSpace {s : String} (h : trimSpace s = "") :
    ∀ c ∈ s.toList, isSpace c = true := by
  have hnil : (s.toList.dropWhile isSpace).rdropWhile isSpace = [] := by
    simpa [trimSpace] using congrArg String.toList h
  have hall := List.rdropWhile_eq_nil_iff.mp hnil
  refine List.dropWhile_eq_nil_iff.mp (by_contra fun hne => ?_)
  have hhead := List.head_dropWhile_not isSpace hne
  rw [hall _ (List.head_mem hne)] at hhead
  cases hhead

theorem mapM_of_blank {value : String} (h : trimSpace value = "") :
    (split value ',').mapM readKeyValue = none := by
  have hcomma : ',' ∉ value.toList := by
    intro hmem
    have hspace := isSpace_of_trimSpace h ',' hmem
    revert hspace
    decide
  have hsplit : split value ',' = [value] := by
    simp [split, List.splitOn_eq_singleton hcomma]
  have hread : readKeyValue value = none := by
    rw [readKeyValue, h]
    rfl
  simp [hsplit, hread]

theorem parseInt_empty : parseInt "" = none := by decide

theorem parseHeader_eq_ok_iff {value signature : String} {timestamp : Int} :
    parseHeader value = .ok (timestamp, signature) ↔
      ∃ seconds, Parses value seconds signature ∧ timestamp = unix seconds := by
  unfold parseHeader Parses
  by_cases hblank : trimSpace value = ""
  · simp [if_pos hblank, mapM_of_blank hblank]
  · rw [if_neg hblank, foldlM_readPart]
    cases (split value ',').mapM readKeyValue with
    | none => simp
    | some parts =>
        simp only [Option.map_some, foldl_assign, Option.some.injEq,
          exists_eq_left']
        by_cases hempty : lastValue "t" "" parts = "" ∨ lastValue "v1" "" parts = ""
        · rw [if_pos hempty]
          rcases hempty with ht | hv
          · simp [ht, parseInt_empty]
          · simp only [hv, reduceCtorEq, false_iff]
            rintro ⟨seconds, ⟨_, rfl, hne⟩, _⟩
            exact hne rfl
        · rw [if_neg hempty]
          obtain ⟨_, hv⟩ := not_or.mp hempty
          cases hseconds : parseInt (lastValue "t" "" parts) with
          | none => simp
          | some seconds =>
              simp only [Except.ok.injEq, Prod.mk.injEq, Option.some.injEq]
              constructor
              · rintro ⟨rfl, rfl⟩
                exact ⟨seconds, ⟨rfl, rfl, hv⟩, rfl⟩
              · rintro ⟨_, ⟨rfl, hsignature, _⟩, rfl⟩
                exact ⟨rfl, hsignature⟩

theorem Parses.unique {value signature signature' : String} {seconds seconds' : Int}
    (h : Parses value seconds signature) (h' : Parses value seconds' signature') :
    seconds' = seconds ∧ signature' = signature := by
  obtain ⟨parts, hparts, hseconds, hsignature, _⟩ := h
  obtain ⟨parts', hparts', hseconds', hsignature', _⟩ := h'
  obtain rfl : parts = parts' := Option.some.inj (hparts.symm.trans hparts')
  exact ⟨Option.some.inj (hseconds'.symm.trans hseconds),
    hsignature'.symm.trans hsignature⟩

theorem Parses.range {value signature : String} {seconds : Int}
    (h : Parses value seconds signature) :
    minInt64 ≤ seconds ∧ seconds ≤ maxInt64 := by
  obtain ⟨parts, _, hseconds, _⟩ := h
  exact of_decide_eq_true (Option.filter_eq_some_iff.mp hseconds).2

end Header

theorem unix_of_not_wraps {seconds : Int} (hlow : minInt64 ≤ seconds)
    (h : ¬ Wraps seconds) : unix seconds = second * seconds := by
  have hwrap : wrapInt64 (seconds + unixToInternal) = seconds + unixToInternal := by
    unfold Wraps maxInt64 unixToInternal at h
    unfold minInt64 at hlow
    unfold wrapInt64 unixToInternal
    exact Int.bmod_eq_of_le (by omega) (by omega)
  rw [unix, hwrap, Int.add_sub_cancel]

theorem unix_of_wraps {seconds : Int} (hhigh : seconds ≤ maxInt64)
    (h : Wraps seconds) : unix seconds = second * seconds - second * 2 ^ 64 := by
  have hwrap : wrapInt64 (seconds + unixToInternal) =
      seconds + unixToInternal - 2 ^ 64 := by
    unfold Wraps at h
    unfold maxInt64 at h hhigh
    unfold wrapInt64 unixToInternal at *
    rw [Int.bmod_def]
    omega
  rw [unix, hwrap]
  unfold second
  omega

theorem unixSeconds_unix {seconds : Int} (hlow : minInt64 ≤ seconds)
    (hhigh : seconds ≤ maxInt64) : unixSeconds (unix seconds) = seconds := by
  have hdiv : unix seconds / second =
      wrapInt64 (seconds + unixToInternal) - unixToInternal :=
    Int.mul_ediv_cancel_left _ (by decide)
  unfold minInt64 at hlow
  unfold maxInt64 at hhigh
  rw [unixSeconds, hdiv]
  unfold wrapInt64 unixToInternal
  rw [Int.bmod_def, Int.bmod_def]
  omega

variable {hmac : Hmac} {secret headerValue : String} {body : List UInt8}
  {now tolerance : Int}

theorem sign_unix {seconds : Int} (hlow : minInt64 ≤ seconds)
    (hhigh : seconds ≤ maxInt64) :
    sign hmac secret (unix seconds) body = expected hmac secret seconds body := by
  rw [sign, unixSeconds_unix hlow hhigh, expected]

theorem validate_eq_ok_iff :
    validate hmac secret headerValue body now tolerance = .ok () ↔
      ∃ seconds, Signed hmac secret headerValue body seconds ∧
        absDuration (sub now (unix seconds)) ≤ tolerance := by
  constructor
  · intro h
    cases hparse : parseHeader headerValue with
    | error error =>
        simp only [validate, hparse] at h
        cases h
    | ok parsed =>
        obtain ⟨timestamp, signature⟩ := parsed
        obtain ⟨seconds, hparses, rfl⟩ := parseHeader_eq_ok_iff.mp hparse
        simp only [validate, hparse, bind, Except.bind] at h
        by_cases hold : absDuration (sub now (unix seconds)) > tolerance
        · rw [if_pos hold] at h
          cases h
        · rw [if_neg hold] at h
          by_cases hsign : sign hmac secret (unix seconds) body ≠ signature
          · rw [if_pos hsign] at h
            cases h
          · refine ⟨seconds, ?_, not_lt.mp hold⟩
            rw [Signed, ← sign_unix hparses.range.1 hparses.range.2, not_not.mp hsign]
            exact hparses
  · rintro ⟨seconds, hsigned, hnear⟩
    have hparse := parseHeader_eq_ok_iff.mpr ⟨seconds, hsigned, rfl⟩
    simp only [validate, hparse, bind, Except.bind]
    rw [if_neg (not_lt.mpr hnear), if_neg]
    exact not_not.mpr (sign_unix hsigned.range.1 hsigned.range.2)

theorem measured_iff {seconds : Int} (hlow : minInt64 ≤ seconds)
    (hhigh : seconds ≤ maxInt64) (hzero : 0 ≤ tolerance)
    (hmax : tolerance ≤ maxInt64) :
    (absDuration (sub now (unix seconds)) ≤ tolerance ↔
      Near now (second * seconds) tolerance) ↔ Measured now seconds tolerance := by
  by_cases hwraps : Wraps seconds
  · simp only [Measured, hwraps, not_true_eq_false, false_and, true_and, false_or,
      absDuration_sub_le_iff hzero hmax]
    by_cases hnear : Near now (second * seconds) tolerance
    · have hfar : maxInt64 < now - unix seconds := by
        rw [unix_of_wraps hhigh hwraps]
        unfold Near at hnear
        rw [abs_le] at hnear
        unfold maxInt64 at hmax ⊢
        unfold second at *
        omega
      have hmasked : Masked now (unix seconds) tolerance ↔ tolerance = maxInt64 := by
        unfold Masked
        have hlarge : ¬ now - unix seconds ≤ minInt64 :=
          not_le.mpr (lt_trans (by decide) hfar)
        simp [hlarge, hfar]
      have hnot : ¬ Near now (unix seconds) tolerance :=
        not_le.mpr (lt_of_le_of_lt hmax (lt_of_lt_of_le hfar (le_abs_self _)))
      simp [hnear, hnot, hmasked]
    · simp [hnear]
  · rw [unix_of_not_wraps hlow hwraps, exact_iff_not_masked hzero hmax]
    simp [Measured, hwraps]

theorem Signed.unique {seconds seconds' : Int}
    (h : Signed hmac secret headerValue body seconds)
    (h' : Signed hmac secret headerValue body seconds') : seconds' = seconds :=
  (Parses.unique h h').1

/-- `Validate` accepts exactly the genuine headers, except for a header that is
signed for a time whose distance is not measured rightly. -/
theorem validate_exact_iff (hmac : Hmac) (secret headerValue : String)
    (body : List UInt8) {now tolerance : Int} (hzero : 0 ≤ tolerance)
    (hmax : tolerance ≤ maxInt64) :
    (validate hmac secret headerValue body now tolerance = .ok () ↔
      Genuine hmac secret headerValue body now tolerance) ↔
    ∀ seconds, Signed hmac secret headerValue body seconds →
      Measured now seconds tolerance := by
  rw [validate_eq_ok_iff, Genuine]
  constructor
  · intro hexact seconds hsigned
    refine (measured_iff hsigned.range.1 hsigned.range.2 hzero hmax).mp ⟨?_, ?_⟩
    · intro hnear
      obtain ⟨seconds', hsigned', hnear'⟩ := hexact.mp ⟨seconds, hsigned, hnear⟩
      rwa [hsigned.unique hsigned'] at hnear'
    · intro hnear
      obtain ⟨seconds', hsigned', hnear'⟩ := hexact.mpr ⟨seconds, hsigned, hnear⟩
      rwa [hsigned.unique hsigned'] at hnear'
  · intro hmeasured
    refine exists_congr fun seconds => and_congr_right fun hsigned => ?_
    exact (measured_iff hsigned.range.1 hsigned.range.2 hzero hmax).mpr
      (hmeasured seconds hsigned)

section Sample

def sampleBody : List UInt8 := bytes "\x7b\x7d"

/-- HMAC-SHA256 at the two messages that are signed here. -/
def sampleHmac : Hmac := fun key message =>
  if key = bytes "secret" ∧ message = bytes "60." ++ sampleBody then
    [218, 184, 195, 109, 202, 75, 224, 183, 217, 36, 158, 88, 93, 223, 165, 2,
      135, 168, 17, 175, 157, 112, 46, 227, 238, 241, 103, 15, 79, 33, 188, 110]
  else if key = bytes "secret" ∧ message = bytes "10000000000." ++ sampleBody then
    [217, 216, 243, 131, 220, 64, 227, 87, 32, 184, 87, 197, 31, 6, 220, 171,
      224, 20, 125, 78, 106, 228, 248, 152, 56, 54, 244, 243, 207, 170, 149, 219]
  else List.replicate 32 0

def sampleHeader : String :=
  "t=60,v1=dab8c36dca4be0b7d9249e585ddfa50287a811af9d702ee3eef1670f4f21bc6e"

/-- The header of the year 2286. -/
def sampleFarHeader : String :=
  "t=10000000000,v1=d9d8f383dc40e35720b857c51f06dcabe0147d4e6ae4f8983836f4f3cfaa95db"

theorem signed_sample : Signed sampleHmac "secret" sampleHeader sampleBody 60 :=
  ⟨[("t", "60"),
      ("v1", "dab8c36dca4be0b7d9249e585ddfa50287a811af9d702ee3eef1670f4f21bc6e")],
    by decide +kernel, by decide +kernel, by decide +kernel, by decide +kernel⟩

theorem signed_sampleFar :
    Signed sampleHmac "secret" sampleFarHeader sampleBody 10000000000 :=
  ⟨[("t", "10000000000"),
      ("v1", "d9d8f383dc40e35720b857c51f06dcabe0147d4e6ae4f8983836f4f3cfaa95db")],
    by decide +kernel, by decide +kernel, by decide +kernel, by decide +kernel⟩

theorem validate_exact_iff_sample :
    (validate sampleHmac "secret" sampleHeader sampleBody (5 * minute) (5 * minute) = .ok () ∧
      Genuine sampleHmac "secret" sampleHeader sampleBody (5 * minute) (5 * minute)) ∧
    validate sampleHmac "secret" sampleHeader sampleBody (7 * minute) (5 * minute) ≠ .ok () ∧
      ¬ Genuine sampleHmac "secret" sampleHeader sampleBody (7 * minute) (5 * minute) := by
  have hexact : ∀ now, now = 5 * minute ∨ now = 7 * minute →
      (validate sampleHmac "secret" sampleHeader sampleBody now (5 * minute) = .ok () ↔
        Genuine sampleHmac "secret" sampleHeader sampleBody now (5 * minute)) := by
    intro now hnow
    refine (validate_exact_iff sampleHmac "secret" sampleHeader sampleBody (by decide)
      (by decide)).mpr fun seconds hsigned => ?_
    rw [signed_sample.unique hsigned]
    unfold Measured Wraps Masked
    rcases hnow with rfl | rfl
    · exact .inl ⟨by decide, by decide⟩
    · exact .inl ⟨by decide, by decide⟩
  have haccepted : validate sampleHmac "secret" sampleHeader sampleBody (5 * minute)
      (5 * minute) = .ok () := validate_eq_ok_iff.mpr ⟨60, signed_sample, by decide⟩
  have hrefused : validate sampleHmac "secret" sampleHeader sampleBody (7 * minute)
      (5 * minute) ≠ .ok () := by
    rw [Ne, validate_eq_ok_iff]
    rintro ⟨seconds, hsigned, hnear⟩
    rw [signed_sample.unique hsigned] at hnear
    revert hnear
    decide
  exact ⟨⟨haccepted, (hexact _ (.inl rfl)).mp haccepted⟩, hrefused,
    mt (hexact _ (.inr rfl)).mpr hrefused⟩

/-- A header of the year 2286 is accepted in 1970. -/
theorem validate_of_far_future :
    ¬ (validate sampleHmac "secret" sampleFarHeader sampleBody 0 (5 * minute) = .ok () ↔
      Genuine sampleHmac "secret" sampleFarHeader sampleBody 0 (5 * minute)) := by
  intro hexact
  obtain ⟨seconds, hsigned, hnear⟩ :=
    hexact.mp (validate_eq_ok_iff.mpr ⟨10000000000, signed_sampleFar, by decide⟩)
  rw [signed_sampleFar.unique hsigned] at hnear
  exact Masked.not_near (.inl (by decide)) (by decide) hnear

end Sample

end Modularis.Webhook.Validation
