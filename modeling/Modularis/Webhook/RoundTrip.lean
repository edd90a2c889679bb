import Mathlib.Data.List.TakeDrop
import Modularis.Webhook.Validation

namespace Modularis.Webhook.RoundTrip

open Modularis.Foundation.GoInt
open Modularis.Foundation.GoTime
open Modularis.Shared.Durations
open Modularis.Shared.Text
open Modularis.Shared.Tolerance
open Modularis.Webhook.Signature
open Modularis.Webhook.Validation

/-- A time of Go counts the seconds from the year 1 in 64 bits. -/
def IsTime (t : Int) : Prop :=
  minInt64 ≤ t / second + unixToInternal ∧ t / second + unixToInternal ≤ maxInt64

/-- The time without its fraction of a second. -/
def floorSeconds (t : Int) : Int := second * (t / second)

/-- A text of spaces. -/
abbrev Space := { s : List Char // ∀ c ∈ s, isSpace c = true }

/-- A text between spaces. -/
def surround (left : Space) (s : List Char) (right : Space) : List Char :=
  left.val ++ s ++ right.val

/-- A part `key=value` of a header with white space around it. -/
structure Part where
  left : Space
  key : List Char
  value : List Char
  right : Space
  key_plain : ',' ∉ key ∧ '=' ∉ key
  key_trimmed : ∀ c ∈ key.head?, isSpace c = false
  value_plain : ',' ∉ value

/-- A part as it stands in the header. -/
def Part.text (part : Part) : List Char :=
  surround part.left (part.key ++ '=' :: part.value) part.right

/-- The parts that are put before and after a header, and the white space that
is put around each part of the header. -/
structure Decoration where
  before : List Part
  after : List Part
  padding : Nat → Space × Space
  others : ∀ part ∈ before ++ after,
    String.ofList part.key ≠ "t" ∧ String.ofList part.key ≠ "v1"

/-- The parts of a header, each between spaces of its own. -/
def padded (padding : Nat → Space × Space) (header : String) : List (List Char) :=
  (header.toList.splitOn ',').mapIdx fun i part =>
    surround (padding i).1 part (padding i).2

/-- The header among other parts and spaces. -/
def Decoration.apply (decoration : Decoration) (header : String) : String :=
  String.ofList ([','].intercalate
    (decoration.before.map Part.text ++ padded decoration.padding header ++
      decoration.after.map Part.text))

section Parts

/-- What is read of a part. -/
def Part.read (part : Part) : String × String :=
  (String.ofList part.key, String.ofList (part.value.rdropWhile isSpace))

theorem dropWhile_spaces (left : Space) (s : List Char) :
    (left.val ++ s).dropWhile isSpace = s.dropWhile isSpace :=
  List.dropWhile_append_of_pos left.property

theorem rdropWhile_spaces (s : List Char) (right : Space) :
    (s ++ right.val).rdropWhile isSpace = s.rdropWhile isSpace := by
  have hspaces : ∀ c ∈ right.val.reverse, isSpace c = true :=
    fun c hc => right.property c (List.mem_reverse.mp hc)
  rw [List.rdropWhile, List.reverse_append, List.dropWhile_append_of_pos hspaces,
    List.rdropWhile]

theorem rdropWhile_append_cons {p : Char → Bool} {c : Char} (hc : p c = false)
    (xs ys : List Char) :
    (xs ++ c :: ys).rdropWhile p = xs ++ c :: ys.rdropWhile p := by
  induction ys using List.reverseRecOn with
  | nil => exact List.rdropWhile_concat_neg p xs c (by simp [hc])
  | append_singleton ys y ih =>
      rw [← List.cons_append, ← List.append_assoc, List.rdropWhile_concat, ih,
        List.rdropWhile_concat]
      split
      · rfl
      · simp

theorem dropWhile_key {part : Part} (s : List Char) :
    (part.key ++ '=' :: s).dropWhile isSpace = part.key ++ '=' :: s := by
  obtain ⟨_, key, _, _, _, htrimmed, _⟩ := part
  cases key with
  | nil => exact List.dropWhile_cons_of_neg (by decide)
  | cons c key =>
      have hc : isSpace c = false := htrimmed c (by simp)
      exact List.dropWhile_cons_of_neg (by simp [hc])

theorem trimSpace_text (part : Part) :
    trimSpace (String.ofList part.text) =
      String.ofList (part.key ++ '=' :: part.value.rdropWhile isSpace) := by
  rw [trimSpace, String.toList_ofList, Part.text, surround, List.append_assoc,
    dropWhile_spaces, List.append_assoc, List.cons_append, dropWhile_key,
    rdropWhile_append_cons (by decide), rdropWhile_spaces]

theorem readKeyValue_text (part : Part) :
    readKeyValue (String.ofList part.text) = some part.read := by
  have hkey : ∀ c ∈ part.key, (decide (c ≠ '=')) = true := by
    intro c hc
    refine decide_eq_true ?_
    rintro rfl
    exact part.key_plain.2 hc
  rw [readKeyValue, trimSpace_text, cut, String.toList_ofList,
    List.span_eq_takeWhile_dropWhile, List.takeWhile_append_of_pos hkey,
    List.dropWhile_append_of_pos hkey]
  simp [Part.read]

theorem comma_notMem_spaces (space : Space) : ',' ∉ space.val := by
  intro hmem
  have hspace := space.property ',' hmem
  revert hspace
  decide

theorem comma_notMem_text (part : Part) : ',' ∉ part.text := by
  simp [Part.text, surround, comma_notMem_spaces, part.key_plain.1, part.value_plain]

/-- The parts as one header. -/
def join (parts : List Part) : String :=
  String.ofList ([','].intercalate (parts.map Part.text))

theorem mapM_text (parts : List Part) :
    (parts.map fun part => String.ofList part.text).mapM readKeyValue =
      some (parts.map Part.read) := by
  induction parts with
  | nil => rfl
  | cons part parts ih => simp [readKeyValue_text, ih]

theorem mapM_split_join {parts : List Part} (hne : parts ≠ []) :
    (split (join parts) ',').mapM readKeyValue = some (parts.map Part.read) := by
  have hcomma : ∀ text ∈ parts.map Part.text, ',' ∉ text := by
    intro text htext
    obtain ⟨part, _, rfl⟩ := List.mem_map.mp htext
    exact comma_notMem_text part
  rw [split, join, String.toList_ofList,
    List.splitOn_intercalate ',' hcomma (by simpa using hne), List.map_map]
  exact mapM_text parts

theorem lastValue_append (key missing : String) (xs ys : List (String × String)) :
    lastValue key missing (xs ++ ys) =
      lastValue key (lastValue key missing xs) ys := by
  induction xs generalizing missing with
  | nil => rfl
  | cons x xs ih => rw [List.cons_append, lastValue_cons, ih, lastValue_cons]

theorem lastValue_of_others {key : String} (missing : String)
    {parts : List (String × String)} (h : ∀ part ∈ parts, part.1 ≠ key) :
    lastValue key missing parts = missing := by
  rw [lastValue, List.filter_eq_nil_iff.mpr (by simpa using h)]
  rfl

end Parts

section Header

variable (hmac : Hmac) (secret : String) (timestamp : Int) (body : List UInt8)

theorem notMem_formatInt {x : Int} {c : Char} (hminus : c ≠ '-')
    (hdigit : c.isDigit = false) : c ∉ (formatInt x).toList := by
  intro hmem
  rcases mem_formatInt hmem with heq | hd
  · exact hminus heq
  · rw [hdigit] at hd
    cases hd

theorem isSpace_of_isDigit {c : Char} (h : c.isDigit = true) : isSpace c = false := by
  rw [Char.isDigit_iff_toNat] at h
  obtain ⟨hlow, hhigh⟩ := h
  have hall : ∀ n ≤ '9'.toNat, '0'.toNat ≤ n → isSpace (Char.ofNat n) = false := by
    decide
  simpa using hall c.toNat hhigh hlow

theorem rdropWhile_formatInt (x : Int) :
    (formatInt x).toList.rdropWhile isSpace = (formatInt x).toList := by
  refine List.rdropWhile_eq_self_iff.mpr fun hne => ?_
  rcases mem_formatInt (List.getLast_mem hne) with hminus | hdigit
  · rw [hminus]
    decide
  · simp [isSpace_of_isDigit hdigit]

theorem digitChar_plain : ∀ n < 16,
    Nat.digitChar n ≠ ',' ∧ isSpace (Nat.digitChar n) = false := by
  decide

theorem comma_notMem_sign : ',' ∉ (sign hmac secret timestamp body).toList := by
  intro hmem
  obtain ⟨n, hn, heq⟩ := mem_encodeToString hmem
  exact (digitChar_plain n hn).1 heq.symm

theorem rdropWhile_sign :
    (sign hmac secret timestamp body).toList.rdropWhile isSpace =
      (sign hmac secret timestamp body).toList := by
  refine List.rdropWhile_eq_self_iff.mpr fun hne => ?_
  obtain ⟨n, hn, heq⟩ := mem_encodeToString (List.getLast_mem hne)
  rw [heq]
  simp [(digitChar_plain n hn).2]

/-- The part of the time, with white space around it. -/
def timestampPart (space : Space × Space) : Part where
  left := space.1
  key := ['t']
  value := (formatInt (unixSeconds timestamp)).toList
  right := space.2
  key_plain := by decide
  key_trimmed := by simp [isSpace]
  value_plain := notMem_formatInt (by decide) (by decide)

/-- The part of the signature, with white space around it. -/
def signaturePart (space : Space × Space) : Part where
  left := space.1
  key := ['v', '1']
  value := (sign hmac secret timestamp body).toList
  right := space.2
  key_plain := by decide
  key_trimmed := by simp [isSpace]
  value_plain := comma_notMem_sign hmac secret timestamp body

theorem read_timestampPart (space : Space × Space) :
    (timestampPart timestamp space).read =
      ("t", formatInt (unixSeconds timestamp)) := by
  rw [Part.read, timestampPart, rdropWhile_formatInt, String.ofList_toList]

theorem read_signaturePart (space : Space × Space) :
    (signaturePart hmac secret timestamp body space).read =
      ("v1", sign hmac secret timestamp body) := by
  rw [Part.read, signaturePart, rdropWhile_sign, String.ofList_toList]

theorem splitOn_buildHeader :
    (buildHeader hmac secret timestamp body).toList.splitOn ',' =
      ['t' :: '=' :: (formatInt (unixSeconds timestamp)).toList,
        'v' :: '1' :: '=' :: (sign hmac secret timestamp body).toList] := by
  have hcomma : ∀ text ∈ ['t' :: '=' :: (formatInt (unixSeconds timestamp)).toList,
      'v' :: '1' :: '=' :: (sign hmac secret timestamp body).toList], ',' ∉ text := by
    simp [comma_notMem_sign, notMem_formatInt]
  have hheader : (buildHeader hmac secret timestamp body).toList =
      [','].intercalate ['t' :: '=' :: (formatInt (unixSeconds timestamp)).toList,
        'v' :: '1' :: '=' :: (sign hmac secret timestamp body).toList] := by
    simp [buildHeader]
  rw [hheader, List.splitOn_intercalate ',' hcomma (List.cons_ne_nil _ _)]

/-- The parts of a decorated header. -/
def Decoration.parts (decoration : Decoration) : List Part :=
  decoration.before ++
    [timestampPart timestamp (decoration.padding 0),
      signaturePart hmac secret timestamp body (decoration.padding 1)] ++
    decoration.after

theorem Decoration.apply_buildHeader (decoration : Decoration) :
    decoration.apply (buildHeader hmac secret timestamp body) =
      join (decoration.parts hmac secret timestamp body) := by
  rw [Decoration.apply, padded, splitOn_buildHeader, join, Decoration.parts,
    List.map_append, List.map_append]
  rfl

theorem Decoration.lastValue_parts (decoration : Decoration) {key : String}
    (hkey : key = "t" ∨ key = "v1") (missing : String) :
    lastValue key missing
        ((decoration.parts hmac secret timestamp body).map Part.read) =
      if key = "t" then formatInt (unixSeconds timestamp)
      else sign hmac secret timestamp body := by
  have hothers : ∀ parts : List Part, (∀ part ∈ parts,
      part ∈ decoration.before ++ decoration.after) →
      ∀ read ∈ parts.map Part.read, read.1 ≠ key := by
    intro parts hparts read hread
    obtain ⟨part, hpart, rfl⟩ := List.mem_map.mp hread
    have hother := decoration.others part (hparts part hpart)
    rcases hkey with rfl | rfl
    · exact hother.1
    · exact hother.2
  rw [Decoration.parts, List.map_append, List.map_append, lastValue_append,
    lastValue_append,
    lastValue_of_others _ (hothers _ fun part => List.mem_append_left _),
    lastValue_of_others _ (hothers _ fun part => List.mem_append_right _),
    List.map_cons, List.map_singleton, read_timestampPart, read_signaturePart,
    lastValue_cons, lastValue_cons]
  rcases hkey with rfl | rfl <;> rfl

end Header

section Time

theorem unixSeconds_range (t : Int) :
    minInt64 ≤ unixSeconds t ∧ unixSeconds t ≤ maxInt64 := by
  unfold unixSeconds wrapInt64 minInt64 maxInt64
  rw [Int.bmod_def]
  omega

/-- Also where the seconds from 1970 do not fit and wrap, as before the year
-292277022399, reading them wraps back. -/
theorem unix_unixSeconds {t : Int} (h : IsTime t) :
    unix (unixSeconds t) = floorSeconds t := by
  have hwrap : wrapInt64 (unixSeconds t + unixToInternal) =
      t / second + unixToInternal := by
    unfold IsTime minInt64 maxInt64 at h
    unfold unixSeconds wrapInt64
    rw [Int.bmod_add_bmod]
    exact Int.bmod_eq_of_le (by omega) (by omega)
  rw [unix, hwrap, Int.add_sub_cancel, floorSeconds]

end Time

theorem Decoration.signed {hmac : Hmac}
    (hlength : ∀ key message, (hmac key message).length = 32) (secret : String)
    (timestamp : Int) (body : List UInt8) (decoration : Decoration) :
    Signed hmac secret (decoration.apply (buildHeader hmac secret timestamp body))
      body (unixSeconds timestamp) := by
  have hrange := unixSeconds_range timestamp
  refine ⟨(decoration.parts hmac secret timestamp body).map Part.read, ?_, ?_, ?_, ?_⟩
  · rw [decoration.apply_buildHeader]
    exact mapM_split_join (by simp [Decoration.parts])
  · rw [decoration.lastValue_parts _ _ _ _ (.inl rfl), if_pos rfl]
    exact parseInt_formatInt hrange.1 hrange.2
  · rw [decoration.lastValue_parts _ _ _ _ (.inr rfl), if_neg (by decide)]
    rfl
  · exact encodeToString_ne_empty (List.ne_nil_of_length_eq_add_one (hlength _ _))

theorem Decoration.reads {hmac : Hmac}
    (hlength : ∀ key message, (hmac key message).length = 32) (secret : String)
    {timestamp : Int} (htime : IsTime timestamp) (body : List UInt8)
    (decoration : Decoration) :
    parseHeader (decoration.apply (buildHeader hmac secret timestamp body)) =
      .ok (floorSeconds timestamp, sign hmac secret timestamp body) :=
  parseHeader_eq_ok_iff.mpr ⟨unixSeconds timestamp,
    decoration.signed hlength secret timestamp body, (unix_unixSeconds htime).symm⟩

theorem Decoration.accepts {hmac : Hmac}
    (hlength : ∀ key message, (hmac key message).length = 32) (secret : String)
    {timestamp : Int} (htime : IsTime timestamp) (body : List UInt8)
    (decoration : Decoration) {now tolerance : Int}
    (hnear : |now - floorSeconds timestamp| ≤ tolerance)
    (hmax : tolerance ≤ maxInt64) :
    validate hmac secret (decoration.apply (buildHeader hmac secret timestamp body))
      body now tolerance = .ok () := by
  have hzero : 0 ≤ tolerance := (abs_nonneg _).trans hnear
  refine validate_eq_ok_iff.mpr ⟨unixSeconds timestamp,
    decoration.signed hlength secret timestamp body, ?_⟩
  rw [unix_unixSeconds htime]
  exact (absDuration_sub_le_iff hzero hmax).mpr (.inl hnear)

/-- The decoration that leaves a header as it is. -/
def Decoration.none : Decoration where
  before := []
  after := []
  padding _ := (⟨[], by simp⟩, ⟨[], by simp⟩)
  others := by simp

theorem Decoration.none_apply (header : String) :
    Decoration.none.apply header = header := by
  have hpadded : padded Decoration.none.padding header = header.toList.splitOn ',' :=
    List.ext_getElem (by simp [padded]) (by simp [padded, Decoration.none, surround])
  rw [Decoration.apply, hpadded]
  simp [Decoration.none, List.intercalate_splitOn]

/-- A signed header is read back as the time without its fraction and the
signature, and it is accepted near that time; further parts around it and white
space change neither. -/
theorem header_round_trip {hmac : Hmac}
    (hlength : ∀ key message, (hmac key message).length = 32) (secret : String)
    {timestamp : Int} (htime : IsTime timestamp) (body : List UInt8)
    (decoration : Decoration) {now tolerance : Int}
    (hnear : |now - floorSeconds timestamp| ≤ tolerance)
    (hmax : tolerance ≤ maxInt64) :
    (parseHeader (buildHeader hmac secret timestamp body) =
        .ok (floorSeconds timestamp, sign hmac secret timestamp body) ∧
      validate hmac secret (buildHeader hmac secret timestamp body) body now tolerance =
        .ok ()) ∧
    (parseHeader (decoration.apply (buildHeader hmac secret timestamp body)) =
        .ok (floorSeconds timestamp, sign hmac secret timestamp body) ∧
      validate hmac secret (decoration.apply (buildHeader hmac secret timestamp body))
        body now tolerance = .ok ()) := by
  have hreads := Decoration.none.reads hlength secret htime body
  have haccepts := Decoration.none.accepts hlength secret htime body hnear hmax
  rw [Decoration.none_apply] at hreads haccepts
  exact ⟨⟨hreads, haccepts⟩, decoration.reads hlength secret htime body,
    decoration.accepts hlength secret htime body hnear hmax⟩

section Sample

def sampleBody : List UInt8 := bytes "\x7b\"eventId\":\"evt-1\"\x7d"

/-- Noon of 25 April 2026 and half a second. -/
def sampleTimestamp : Int := 1777118400500000000

/-- HMAC-SHA256 at the message that is signed. -/
def sampleHmac : Hmac := fun key message =>
  if key = bytes "secret" ∧ message = bytes "1777118400." ++ sampleBody then
    [151, 235, 137, 30, 9, 120, 55, 125, 129, 156, 94, 183, 141, 171, 231, 136,
      64, 117, 158, 114, 77, 14, 236, 76, 119, 90, 245, 155, 118, 76, 76, 117]
  else List.replicate 32 0

def sampleDecoration : Decoration where
  before := [
    { left := ⟨[], by simp⟩
      key := ['v', '0']
      value := ['a', 'b', '=', '=']
      right := ⟨[' '], by simp [isSpace]⟩
      key_plain := by decide
      key_trimmed := by simp [isSpace]
      value_plain := by decide }]
  after := []
  padding _ := (⟨[' '], by simp [isSpace]⟩, ⟨['\t', ' '], by simp [isSpace]⟩)
  others := by decide

theorem length_sampleHmac (key message : List UInt8) :
    (sampleHmac key message).length = 32 := by
  unfold sampleHmac
  split <;> rfl

theorem header_round_trip_sample :
    (parseHeader (buildHeader sampleHmac "secret" sampleTimestamp sampleBody) =
        .ok (floorSeconds sampleTimestamp,
          sign sampleHmac "secret" sampleTimestamp sampleBody) ∧
      validate sampleHmac "secret"
        (buildHeader sampleHmac "secret" sampleTimestamp sampleBody) sampleBody
        (sampleTimestamp + minute) (5 * minute) = .ok ()) ∧
    (parseHeader (sampleDecoration.apply
          (buildHeader sampleHmac "secret" sampleTimestamp sampleBody)) =
        .ok (floorSeconds sampleTimestamp,
          sign sampleHmac "secret" sampleTimestamp sampleBody) ∧
      validate sampleHmac "secret" (sampleDecoration.apply
          (buildHeader sampleHmac "secret" sampleTimestamp sampleBody)) sampleBody
        (sampleTimestamp + minute) (5 * minute) = .ok ()) :=
  header_round_trip length_sampleHmac "secret" ⟨by decide, by decide⟩ sampleBody
    sampleDecoration (by decide) (by decide)

end Sample

end Modularis.Webhook.RoundTrip
