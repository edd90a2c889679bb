import Mathlib.Data.List.Sort
import Modularis.Foundation.Delimited

namespace Modularis.Shared.StableHash

open Modularis.Foundation.Delimited

section Text

/-- A string of JavaScript, by its UTF-16 units. -/
abbrev Text := List UInt16

/-- The unit of a character of the basic plane. -/
def unit (c : Char) : UInt16 := UInt16.ofNat c.toNat

/-- A text whose characters are units of their own. -/
def ascii (s : String) : Text := s.toList.map unit

/-- The first half of a pair. -/
def isHighSurrogate (u : UInt16) : Bool := 0xD800 ≤ u && u ≤ 0xDBFF

/-- The second half of a pair. -/
def isLowSurrogate (u : UInt16) : Bool := 0xDC00 ≤ u && u ≤ 0xDFFF

/-- The code points of a text; a surrogate that is not one of a pair is one by
itself. -/
def codePoints : Text → List Text
  | [] => []
  | [u] => [[u]]
  | u :: v :: rest =>
      if isHighSurrogate u && isLowSurrogate v then [u, v] :: codePoints rest
      else [u] :: codePoints (v :: rest)

/-- The code points with an escape of two characters. -/
def shortEscapes : List (UInt16 × UInt16) :=
  [(0x08, unit 'b'), (0x09, unit 't'), (0x0A, unit 'n'), (0x0C, unit 'f'),
    (0x0D, unit 'r'), (0x22, unit '"'), (0x5C, unit '\\')]

def hexDigit (n : Nat) : UInt16 := unit (Nat.digitChar n)

/-- The four digits of an escape. -/
def hexDigits (u : UInt16) : Text :=
  [hexDigit (u.toNat / 4096), hexDigit (u.toNat / 256 % 16),
    hexDigit (u.toNat / 16 % 16), hexDigit (u.toNat % 16)]

/-- How `JSON.stringify` writes a unit that is not half of a pair: short escapes, then
`\u` escapes, then the unit itself. -/
def escapeUnit (u : UInt16) : Text :=
  match shortEscapes.lookup u with
  | some c => [unit '\\', c]
  | none =>
      if u < 0x20 || isHighSurrogate u || isLowSurrogate u then
        unit '\\' :: unit 'u' :: hexDigits u
      else [u]

/-- A code point as it stands in a JSON string. -/
def escape : Text → Text
  | [u] => escapeUnit u
  | codePoint => codePoint

/-- `JSON.stringify` of a string. -/
def quote (s : Text) : Text :=
  unit '"' :: ((codePoints s).flatMap escape ++ [unit '"'])

end Text

/-- A value as `JSON.parse` makes them. Its numbers are what `JSON.stringify` tells apart,
so -0 is 0. -/
inductive JsonValue (ν : Type) where
  | null
  | boolean (value : Bool)
  | number (value : ν)
  | string (value : Text)
  | array (items : List (JsonValue ν))
  | object (members : List (Text × JsonValue ν))

/-- The members of an object have keys of their own. -/
inductive HasOwnKeys {ν : Type} : JsonValue ν → Prop where
  | null : HasOwnKeys .null
  | boolean (value : Bool) : HasOwnKeys (.boolean value)
  | number (value : ν) : HasOwnKeys (.number value)
  | string (value : Text) : HasOwnKeys (.string value)
  | array {items : List (JsonValue ν)} :
      (∀ item ∈ items, HasOwnKeys item) → HasOwnKeys (.array items)
  | object {members : List (Text × JsonValue ν)} :
      (members.map Prod.fst).Nodup → (∀ member ∈ members, HasOwnKeys member.2) →
      HasOwnKeys (.object members)

/-- A value as it can occur: an object holds one value under a key. -/
structure Value (ν : Type) where
  json : JsonValue ν
  hasOwnKeys : HasOwnKeys json

/-- Equal up to the order in which the keys of objects were inserted, at every
depth. -/
inductive Same {ν : Type} : JsonValue ν → JsonValue ν → Prop where
  | null : Same .null .null
  | boolean (value : Bool) : Same (.boolean value) (.boolean value)
  | number (value : ν) : Same (.number value) (.number value)
  | string (value : Text) : Same (.string value) (.string value)
  | array {items items' : List (JsonValue ν)} :
      List.Forall₂ Same items items' → Same (.array items) (.array items')
  | object {members members' : List (Text × JsonValue ν)} :
      (∀ key, Option.Rel Same (members.lookup key) (members'.lookup key)) →
      Same (.object members) (.object members')

/-- `Array.prototype.sort` of strings compares code units. -/
def sort (keys : List Text) : List Text := keys.insertionSort (· ≤ ·)

/-- The members of an object by their keys in order, from the texts of their values. -/
def memberText (texts : List (Text × Text)) (key : Text) : Text :=
  quote key ++ unit ':' :: (texts.lookup key).getD []

section Stringify

variable {ν : Type} (numberText : ν → Text)

mutual

/-- `numberText` is `JSON.stringify` of a finite number. -/
def stableStringify : JsonValue ν → Text
  | .null => ascii "null"
  | .boolean value => ascii (if value then "true" else "false")
  | .number value => numberText value
  | .string value => quote value
  | .array items =>
      unit '[' :: ([unit ','].intercalate (stringifyItems items) ++ [unit ']'])
  | .object members =>
      unit '{' :: ([unit ','].intercalate ((sort (members.map Prod.fst)).map
        (memberText (stringifyMembers members))) ++ [unit '}'])

/-- The items of an array, one by one. -/
def stringifyItems : List (JsonValue ν) → List Text
  | [] => []
  | item :: items => stableStringify item :: stringifyItems items

/-- The texts of the values, which the source reads as `value[key]`. -/
def stringifyMembers : List (Text × JsonValue ν) → List (Text × Text)
  | [] => []
  | (key, value) :: members => (key, stableStringify value) :: stringifyMembers members

end

theorem stringifyItems_eq (items : List (JsonValue ν)) :
    stringifyItems numberText items = items.map (stableStringify numberText) := by
  induction items with
  | nil => rfl
  | cons item items ih => rw [stringifyItems, ih, List.map_cons]

theorem lookup_stringifyMembers (members : List (Text × JsonValue ν)) (key : Text) :
    (stringifyMembers numberText members).lookup key =
      (members.lookup key).map (stableStringify numberText) := by
  induction members with
  | nil => rfl
  | cons member members ih =>
      obtain ⟨k, value⟩ := member
      rw [stringifyMembers, List.lookup_cons, List.lookup_cons]
      split
      · rfl
      · exact ih

example : stableStringify (fun n : Nat => ascii (toString n))
    (.object [(ascii "b", .array [.number 1, .null]), (ascii "a", .string (ascii "x\"y"))]) =
    ascii "\x7b\"a\":\"x\\\"y\",\"b\":[1,null]\x7d" := by decide

end Stringify

section Strings

/-- The texts that `escape` is applied to. -/
def IsCodePoint (p : Text) : Prop :=
  (∃ u, p = [u]) ∨ ∃ u v, p = [u, v] ∧ isHighSurrogate u = true

theorem flatten_codePoints (s : Text) : (codePoints s).flatten = s := by
  fun_induction codePoints s with
  | case1 => rfl
  | case2 u => rfl
  | case3 u v rest hpair ih => rw [List.flatten_cons, ih]; rfl
  | case4 u v rest hpair ih => rw [List.flatten_cons, ih]; rfl

theorem isCodePoint_of_mem {s p : Text} (h : p ∈ codePoints s) : IsCodePoint p := by
  fun_induction codePoints s with
  | case1 => cases h
  | case2 u => exact .inl ⟨u, List.mem_singleton.mp h⟩
  | case3 u v rest hpair ih =>
      rcases List.mem_cons.mp h with rfl | h
      · exact .inr ⟨u, v, rfl, (Bool.and_eq_true_iff.mp hpair).1⟩
      · exact ih h
  | case4 u v rest hpair ih =>
      rcases List.mem_cons.mp h with rfl | h
      · exact .inl ⟨u, rfl⟩
      · exact ih h

/-- The value of a digit of an escape. -/
def hexValue (u : UInt16) : Nat := if u ≤ unit '9' then u.toNat - 48 else u.toNat - 87

theorem hexValue_hexDigit : ∀ n < 16, hexValue (hexDigit n) = n := by decide

/-- The code unit of four hexadecimal digits. -/
def readHex (a b c d : UInt16) : UInt16 :=
  UInt16.ofNat (((hexValue a * 16 + hexValue b) * 16 + hexValue c) * 16 + hexValue d)

theorem readHex_hexDigits (u : UInt16) :
    readHex (hexDigit (u.toNat / 4096)) (hexDigit (u.toNat / 256 % 16))
      (hexDigit (u.toNat / 16 % 16)) (hexDigit (u.toNat % 16)) = u := by
  have hu := u.toNat_lt
  rw [readHex, hexValue_hexDigit _ (by omega), hexValue_hexDigit _ (by omega),
    hexValue_hexDigit _ (by omega), hexValue_hexDigit _ (by omega)]
  have hvalue : ((u.toNat / 4096 * 16 + u.toNat / 256 % 16) * 16 + u.toNat / 16 % 16) * 16 +
      u.toNat % 16 = u.toNat := by omega
  rw [hvalue, UInt16.ofNat_toNat]

/-- The code point behind a backslash. -/
def readEscape : Text → Option (Text × Text)
  | [] => none
  | u :: rest =>
      if u = unit 'u' then
        match rest with
        | a :: b :: c :: d :: rest => some ([readHex a b c d], rest)
        | _ => none
      else (shortEscapes.find? (·.2 = u)).map fun short => ([short.1], rest)

/-- The code point at the front of what stands in a JSON string. -/
def readCodePoint : Text → Option (Text × Text)
  | [] => none
  | u :: rest =>
      if u = unit '\\' then readEscape rest
      else if isHighSurrogate u then
        match rest with
        | v :: rest => some ([u, v], rest)
        | [] => none
      else some ([u], rest)

theorem readEscape_short : ∀ short ∈ shortEscapes, ∀ rest,
    readEscape (short.2 :: rest) = some ([short.1], rest) := by
  simp [shortEscapes, readEscape, unit]

theorem lookup_backslash : shortEscapes.lookup (unit '\\') = some (unit '\\') := by decide

theorem readCodePoint_escape {p : Text} (hp : IsCodePoint p) (rest : Text) :
    readCodePoint (escape p ++ rest) = some (p, rest) := by
  rcases hp with ⟨u, rfl⟩ | ⟨u, v, rfl, hu⟩
  · rw [escape, escapeUnit]
    split
    · rename_i c hc
      obtain ⟨before, after, hmem, _⟩ := List.lookup_eq_some_iff.mp hc
      exact readEscape_short (u, c) (hmem ▸ by simp) rest
    · rename_i hnone
      split
      · exact congrArg (fun u => some ([u], rest)) (readHex_hexDigits u)
      · rename_i hplain
        have hback : u ≠ unit '\\' := by
          rintro rfl
          rw [lookup_backslash] at hnone
          cases hnone
        simp only [Bool.or_eq_true, not_or, Bool.not_eq_true] at hplain
        simp [readCodePoint, hback, hplain]
  · have hback : u ≠ unit '\\' := by
      rintro rfl
      exact absurd hu (by decide)
    simp [escape, readCodePoint, hback, hu]

theorem exists_start_escape {p : Text} (hp : IsCodePoint p) :
    ∃ c t, escape p = c :: t ∧ c ≠ unit '"' := by
  rcases hp with ⟨u, rfl⟩ | ⟨u, v, rfl, hu⟩
  · rw [escape, escapeUnit]
    split
    · exact ⟨_, _, rfl, by decide⟩
    · rename_i hnone
      split
      · exact ⟨_, _, rfl, by decide⟩
      · refine ⟨_, _, rfl, ?_⟩
        rintro rfl
        exact absurd hnone (by decide)
  · refine ⟨u, [v], rfl, ?_⟩
    rintro rfl
    exact absurd hu (by decide)

theorem flatMap_escape_inj {ps qs : List Text} {rest rest' : Text}
    (hps : ∀ p ∈ ps, IsCodePoint p) (hqs : ∀ q ∈ qs, IsCodePoint q)
    (h : ps.flatMap escape ++ unit '"' :: rest = qs.flatMap escape ++ unit '"' :: rest') :
    ps = qs ∧ rest = rest' := by
  induction ps generalizing qs with
  | nil =>
      cases qs with
      | nil => exact ⟨rfl, (List.cons.inj h).2⟩
      | cons q qs =>
          obtain ⟨c, t, hq, hc⟩ := exists_start_escape (hqs q List.mem_cons_self)
          rw [List.flatMap_cons, hq] at h
          exact absurd (List.cons.inj h).1.symm hc
  | cons p ps ih =>
      have hp := hps p List.mem_cons_self
      cases qs with
      | nil =>
          obtain ⟨c, t, hp, hc⟩ := exists_start_escape hp
          rw [List.flatMap_cons, hp] at h
          exact absurd (List.cons.inj h).1 hc
      | cons q qs =>
          rw [List.flatMap_cons, List.flatMap_cons, List.append_assoc,
            List.append_assoc] at h
          have hread := congrArg readCodePoint h
          rw [readCodePoint_escape hp,
            readCodePoint_escape (hqs q List.mem_cons_self)] at hread
          obtain ⟨rfl, htail⟩ := Prod.mk.inj (Option.some.inj hread)
          obtain ⟨rfl, hrest⟩ := ih (fun p hp => hps p (List.mem_cons_of_mem _ hp))
            (fun q hq => hqs q (List.mem_cons_of_mem _ hq)) htail
          exact ⟨rfl, hrest⟩

theorem quote_append_inj {s s' rest rest' : Text}
    (h : quote s ++ rest = quote s' ++ rest') : s = s' ∧ rest = rest' := by
  simp only [quote, List.cons_append, List.append_assoc, List.nil_append] at h
  obtain ⟨hpoints, hrest⟩ := flatMap_escape_inj (fun p => isCodePoint_of_mem)
    (fun q => isCodePoint_of_mem) (List.cons.inj h).2
  refine ⟨?_, hrest⟩
  rw [← flatten_codePoints s, hpoints, flatten_codePoints]

end Strings

section Numbers

/-- The characters that numbers are written with. -/
def isNumberChar (u : UInt16) : Bool := (ascii "0123456789+-.eE").contains u

/-- What the grammar of JSON says of a number, as far as it is needed. -/
structure IsNumberText (t : Text) : Prop where
  nonempty : t ≠ []
  chars : ∀ u ∈ t, isNumberChar u = true

/-- Where a number ends. -/
def Ends (rest : Text) : Prop := ∀ u ∈ rest.head?, isNumberChar u = false

theorem takeWhile_number {t rest : Text} (ht : IsNumberText t) (hrest : Ends rest) :
    (t ++ rest).takeWhile isNumberChar = t := by
  rw [List.takeWhile_append_of_pos ht.chars]
  cases rest with
  | nil => exact List.append_nil t
  | cons u rest =>
      have hu := hrest u rfl
      rw [List.takeWhile_cons_of_neg (by simp [hu]), List.append_nil]

theorem number_append_inj {t t' rest rest' : Text} (ht : IsNumberText t)
    (ht' : IsNumberText t') (hrest : Ends rest) (hrest' : Ends rest')
    (h : t ++ rest = t' ++ rest') : t = t' ∧ rest = rest' := by
  have hsame : t = t' := by
    rw [← takeWhile_number ht hrest, h, takeWhile_number ht' hrest']
  exact ⟨hsame, List.append_cancel_left (hsame ▸ h)⟩

end Numbers

section Kinds

/-- The kinds of a value, which the first unit of its text tells apart. -/
inductive Kind where
  | null
  | boolean
  | number
  | string
  | array
  | object
deriving DecidableEq

/-- The kind of a value. -/
def kind {ν : Type} : JsonValue ν → Kind
  | .null => .null
  | .boolean _ => .boolean
  | .number _ => .number
  | .string _ => .string
  | .array _ => .array
  | .object _ => .object

/-- The kind of the values whose texts start with the code unit. -/
def kindOfStart (u : UInt16) : Option Kind :=
  if u = unit 'n' then some .null
  else if u = unit 't' ∨ u = unit 'f' then some .boolean
  else if u = unit '"' then some .string
  else if u = unit '[' then some .array
  else if u = unit '{' then some .object
  else if isNumberChar u then some .number
  else none

theorem kindOfStart_number : ∀ u ∈ ascii "0123456789+-.eE",
    kindOfStart u = some .number := by
  have hall : (ascii "0123456789+-.eE").all
      (fun u => decide (kindOfStart u = some .number)) = true := by decide
  exact fun u hu => of_decide_eq_true (List.all_eq_true.mp hall u hu)

variable {ν : Type} {numberText : ν → Text}
  (hnumber : ∀ n, IsNumberText (numberText n))

include hnumber

theorem exists_start (a : JsonValue ν) :
    ∃ u t, stableStringify numberText a = u :: t ∧ kindOfStart u = some (kind a) := by
  cases a with
  | null =>
      exact ⟨unit 'n', ascii "ull", rfl,
        show kindOfStart (unit 'n') = some .null by decide⟩
  | boolean value =>
      cases value with
      | false =>
          exact ⟨unit 'f', ascii "alse", rfl,
            show kindOfStart (unit 'f') = some .boolean by decide⟩
      | true =>
          exact ⟨unit 't', ascii "rue", rfl,
            show kindOfStart (unit 't') = some .boolean by decide⟩
  | number n =>
      obtain ⟨u, t, ht⟩ := List.exists_cons_of_ne_nil (hnumber n).nonempty
      refine ⟨u, t, ht, kindOfStart_number u ?_⟩
      exact List.contains_iff_mem.mp ((hnumber n).chars u (ht ▸ List.mem_cons_self))
  | string s =>
      exact ⟨unit '"', _, rfl, show kindOfStart (unit '"') = some .string by decide⟩
  | array items =>
      rw [stableStringify]
      exact ⟨unit '[', _, rfl, show kindOfStart (unit '[') = some .array by decide⟩
  | object members =>
      rw [stableStringify]
      exact ⟨unit '{', _, rfl, show kindOfStart (unit '{') = some .object by decide⟩

theorem kind_eq {a b : JsonValue ν} {rest rest' : Text}
    (h : stableStringify numberText a ++ rest = stableStringify numberText b ++ rest') :
    kind a = kind b := by
  obtain ⟨u, t, ha, hkind⟩ := exists_start hnumber a
  obtain ⟨v, t', hb, hkind'⟩ := exists_start hnumber b
  rw [ha, hb] at h
  obtain rfl := (List.cons.inj h).1
  exact Option.some.inj (hkind.symm.trans hkind')

theorem exists_start_ne_bracket (a : JsonValue ν) :
    ∃ u t, stableStringify numberText a = u :: t ∧ u ≠ unit ']' := by
  obtain ⟨u, t, ha, hkind⟩ := exists_start hnumber a
  refine ⟨u, t, ha, ?_⟩
  rintro rfl
  exact absurd hkind (by rw [show kindOfStart (unit ']') = none by decide]; nofun)

end Kinds

section Canonical

variable {ν : Type} {numberText : ν → Text}

theorem ends_comma (rest : Text) : Ends (unit ',' :: rest) := by
  simp only [Ends, List.head?_cons, Option.mem_some_iff, forall_eq']
  decide

theorem ends_bracket (rest : Text) : Ends (unit ']' :: rest) := by
  simp only [Ends, List.head?_cons, Option.mem_some_iff, forall_eq']
  decide

theorem ends_brace (rest : Text) : Ends (unit '}' :: rest) := by
  simp only [Ends, List.head?_cons, Option.mem_some_iff, forall_eq']
  decide

theorem mem_keys_iff (members : List (Text × JsonValue ν)) (key : Text) :
    key ∈ members.map Prod.fst ↔ ∃ value, members.lookup key = some value := by
  rw [← Option.isSome_iff_exists, List.lookup_isSome_iff, List.mem_map]
  exact exists_congr fun member => and_congr_right fun _ => by rw [beq_iff_eq, eq_comm]

theorem map_eq_of_forall₂ {α β γ : Type} {R : α → β → Prop} {f : α → γ} {g : β → γ}
    {xs : List α} {ys : List β} (h : List.Forall₂ R xs ys)
    (hR : ∀ x ∈ xs, ∀ y ∈ ys, R x y → f x = g y) : xs.map f = ys.map g := by
  induction h with
  | nil => rfl
  | @cons x y xs ys hxy _ ih =>
      rw [List.map_cons, List.map_cons, hR x List.mem_cons_self y List.mem_cons_self hxy,
        ih fun x hx y hy => hR x (List.mem_cons_of_mem _ hx) y (List.mem_cons_of_mem _ hy)]

theorem map_eq_of_rel {α β γ : Type} {R : α → β → Prop} {f : α → γ} {g : β → γ}
    {x : Option α} {y : Option β} (h : Option.Rel R x y)
    (hR : ∀ a, x = some a → ∀ b, y = some b → R a b → f a = g b) :
    x.map f = y.map g := by
  cases h with
  | some hab => exact congrArg some (hR _ rfl _ rfl hab)
  | none => rfl

theorem mem_of_lookup {members : List (Text × JsonValue ν)} {key : Text}
    {value : JsonValue ν} (h : members.lookup key = some value) :
    (key, value) ∈ members := by
  obtain ⟨before, after, rfl, _⟩ := List.lookup_eq_some_iff.mp h
  simp

theorem mem_sort (keys : List Text) (key : Text) : key ∈ sort keys ↔ key ∈ keys :=
  (List.perm_insertionSort _ keys).mem_iff

theorem sort_eq_of_perm {keys keys' : List Text} (h : keys.Perm keys') :
    sort keys = sort keys' := by
  have htotal : Std.Total (α := Text) (· ≤ ·) := ⟨List.le_total⟩
  have htrans : IsTrans Text (· ≤ ·) := ⟨fun _ _ _ => List.le_trans⟩
  have hsame : (sort keys).Perm (sort keys') :=
    (List.perm_insertionSort _ keys).trans (h.trans (List.perm_insertionSort _ keys').symm)
  exact hsame.eq_of_pairwise (fun _ _ _ _ => List.le_antisymm)
    (List.pairwise_insertionSort _ keys) (List.pairwise_insertionSort _ keys')

theorem memberText_eq {members : List (Text × JsonValue ν)} {key : Text}
    {value : JsonValue ν} (h : members.lookup key = some value) :
    memberText (stringifyMembers numberText members) key =
      quote key ++ unit ':' :: stableStringify numberText value := by
  rw [memberText, lookup_stringifyMembers, h]
  rfl

theorem stableStringify_eq_of_same {a b : JsonValue ν} (ha : HasOwnKeys a)
    (hb : HasOwnKeys b) (h : Same a b) :
    stableStringify numberText a = stableStringify numberText b := by
  induction ha generalizing b with
  | null | boolean | number | string => cases h; rfl
  | array _ ih =>
      cases h with
      | array hitems =>
          cases hb with
          | array hown =>
              have htexts := map_eq_of_forall₂ hitems fun item hitem item' hitem' hsame =>
                ih item hitem (hown item' hitem') hsame
              rw [stableStringify, stableStringify, stringifyItems_eq, stringifyItems_eq,
                htexts]
  | @object members hnodup _ ih =>
      cases h with
      | @object _ members' hmembers =>
          cases hb with
          | object hnodup' hown =>
              have hvalues : ∀ key, (members.lookup key).map (stableStringify numberText) =
                  (members'.lookup key).map (stableStringify numberText) := fun key =>
                map_eq_of_rel (hmembers key) fun _ hvalue _ hvalue' hsame =>
                  ih _ (mem_of_lookup hvalue) (hown _ (mem_of_lookup hvalue')) hsame
              have hkeys : (members.map Prod.fst).Perm (members'.map Prod.fst) := by
                refine (List.perm_ext_iff_of_nodup hnodup hnodup').mpr fun key => ?_
                have hsome := congrArg Option.isSome (hvalues key)
                rw [Option.isSome_map, Option.isSome_map] at hsome
                rw [mem_keys_iff, mem_keys_iff, ← Option.isSome_iff_exists,
                  ← Option.isSome_iff_exists, hsome]
              have htexts : memberText (stringifyMembers numberText members) =
                  memberText (stringifyMembers numberText members') := by
                funext key
                rw [memberText, memberText, lookup_stringifyMembers,
                  lookup_stringifyMembers, hvalues]
              rw [stableStringify, stableStringify, sort_eq_of_perm hkeys, htexts]

/-- The members of two objects under one key are the same. -/
def SameAt (members members' : List (Text × JsonValue ν)) (key key' : Text) : Prop :=
  key = key' ∧ ∀ value value', members.lookup key = some value →
    members'.lookup key' = some value' → Same value value'

theorem same_object {members members' : List (Text × JsonValue ν)}
    (h : List.Forall₂ (SameAt members members') (sort (members.map Prod.fst))
      (sort (members'.map Prod.fst))) : Same (.object members) (.object members') := by
  have hkeys : sort (members.map Prod.fst) = sort (members'.map Prod.fst) :=
    List.forall₂_eq_eq_eq ▸ h.imp fun _ _ hkey => hkey.1
  rw [← hkeys, List.forall₂_same] at h
  refine .object fun key => ?_
  have hmem : key ∈ members.map Prod.fst ↔ key ∈ members'.map Prod.fst := by
    rw [← mem_sort, hkeys, mem_sort]
  rw [mem_keys_iff, mem_keys_iff] at hmem
  cases hvalue : members.lookup key with
  | none =>
      cases hvalue' : members'.lookup key with
      | none => exact .none
      | some value' =>
          obtain ⟨value, hsome⟩ := hmem.mpr ⟨value', hvalue'⟩
          rw [hvalue] at hsome
          cases hsome
  | some value =>
      obtain ⟨value', hvalue'⟩ := hmem.mp ⟨value, hvalue⟩
      rw [hvalue']
      refine .some ((h key ?_).2 value value' hvalue hvalue')
      exact (mem_sort _ key).mpr ((mem_keys_iff members key).mpr ⟨value, hvalue⟩)

theorem exists_start_memberText (texts : List (Text × Text)) (key : Text) :
    ∃ u t, memberText texts key = u :: t ∧ u ≠ unit '}' :=
  ⟨unit '"', _, rfl, by decide⟩

theorem readsOff_memberText {members members' : List (Text × JsonValue ν)}
    (hvalues : ∀ member ∈ members, ∀ member' ∈ members',
      ReadsOff Ends Same (stableStringify numberText) (stableStringify numberText)
        member.2 member'.2) :
    ∀ key ∈ sort (members.map Prod.fst), ∀ key' ∈ sort (members'.map Prod.fst),
      ReadsOff Ends (SameAt members members')
        (memberText (stringifyMembers numberText members))
        (memberText (stringifyMembers numberText members')) key key' := by
  intro key hkey key' hkey' rest rest' hrest hrest' h
  obtain ⟨value, hvalue⟩ := (mem_keys_iff members key).mp ((mem_sort _ key).mp hkey)
  obtain ⟨value', hvalue'⟩ :=
    (mem_keys_iff members' key').mp ((mem_sort _ key').mp hkey')
  rw [memberText_eq hvalue, memberText_eq hvalue', List.append_assoc,
    List.append_assoc] at h
  obtain ⟨rfl, htail⟩ := quote_append_inj h
  obtain ⟨hsame, hrest⟩ := hvalues _ (mem_of_lookup hvalue) _ (mem_of_lookup hvalue')
    _ _ hrest hrest' (List.cons.inj htail).2
  refine ⟨⟨rfl, fun v v' hv hv' => ?_⟩, hrest⟩
  obtain rfl := Option.some.inj (hvalue.symm.trans hv)
  obtain rfl := Option.some.inj (hvalue'.symm.trans hv')
  exact hsame

/-- The text of a value can be read off the front of any text, up to the order of
keys. -/
theorem readsOff_of_hasOwnKeys (hnumber : ∀ n, IsNumberText (numberText n))
    (hinj : Function.Injective numberText) {a : JsonValue ν} (ha : HasOwnKeys a) :
    ∀ b, HasOwnKeys b → ReadsOff Ends Same (stableStringify numberText)
      (stableStringify numberText) a b := by
  induction ha with
  | null =>
      intro b hb rest rest' hrest hrest' h
      have hkind := kind_eq hnumber h
      cases hb <;> cases hkind
      exact ⟨.null, List.append_cancel_left h⟩
  | boolean value =>
      intro b hb rest rest' hrest hrest' h
      have hkind := kind_eq hnumber h
      cases hb <;> cases hkind
      rename_i value'
      by_cases hvalue : value = value'
      · subst hvalue
        exact ⟨.boolean value, List.append_cancel_left h⟩
      · cases value <;> cases value' <;> first
          | exact absurd rfl hvalue
          | exact absurd (List.cons.inj h).1 (by decide)
  | number n =>
      intro b hb rest rest' hrest hrest' h
      have hkind := kind_eq hnumber h
      cases hb <;> cases hkind
      rename_i n'
      obtain ⟨htext, hrest⟩ := number_append_inj (hnumber n) (hnumber n') hrest hrest' h
      exact ⟨hinj htext ▸ .number n, hrest⟩
  | string s =>
      intro b hb rest rest' hrest hrest' h
      have hkind := kind_eq hnumber h
      cases hb <;> cases hkind
      obtain ⟨rfl, hrest⟩ := quote_append_inj h
      exact ⟨.string s, hrest⟩
  | array hown ih =>
      intro b hb rest rest' hrest hrest' h
      have hkind := kind_eq hnumber h
      cases hb <;> cases hkind
      rename_i items' hown'
      simp only [stableStringify, stringifyItems_eq, List.cons_append, List.append_assoc,
        List.nil_append] at h
      obtain ⟨hitems, hrest⟩ := forall₂_of_intercalate_eq (by decide) ends_comma
        ends_bracket (fun item _ => exists_start_ne_bracket hnumber item)
        (fun item _ => exists_start_ne_bracket hnumber item)
        (fun item hitem item' hitem' => ih item hitem item' (hown' item' hitem'))
        (List.cons.inj h).2
      exact ⟨.array hitems, hrest⟩
  | @object members hnodup hown ih =>
      intro b hb rest rest' hrest hrest' h
      have hkind := kind_eq hnumber h
      cases hb <;> cases hkind
      rename_i members' hnodup' hown'
      simp only [stableStringify, List.cons_append, List.append_assoc,
        List.nil_append] at h
      have hvalues : ∀ member ∈ members, ∀ member' ∈ members',
          ReadsOff Ends Same (stableStringify numberText) (stableStringify numberText)
            member.2 member'.2 := fun member hmember member' hmember' =>
        ih member hmember member'.2 (hown' member' hmember')
      obtain ⟨hmembers, hrest⟩ := forall₂_of_intercalate_eq (by decide) ends_comma
        ends_brace (fun key _ => exists_start_memberText _ key)
        (fun key _ => exists_start_memberText _ key) (readsOff_memberText hvalues)
        (List.cons.inj h).2
      exact ⟨same_object hmembers, hrest⟩

end Canonical

/-- What the gateway hashes of a request. -/
structure CreateAccountDto (ν : Type) where
  email : Text
  name : Text
  cellphone : Text
  taxId : Text
  amount : ν
  currency : Text

/-- The object that `AccountService.create` passes to `stableHash`. -/
def requestJson {ν : Type} (dto : CreateAccountDto ν) : JsonValue ν :=
  .object
    [(ascii "email", .string dto.email), (ascii "name", .string dto.name),
      (ascii "cellphone", .string dto.cellphone), (ascii "taxId", .string dto.taxId),
      (ascii "amount", .number dto.amount), (ascii "currency", .string dto.currency)]

theorem hasOwnKeys_requestJson {ν : Type} (dto : CreateAccountDto ν) :
    HasOwnKeys (requestJson dto) := by
  have hkeys : [ascii "email", ascii "name", ascii "cellphone", ascii "taxId",
      ascii "amount", ascii "currency"].Nodup := by decide
  refine .object hkeys ?_
  simp only [List.mem_cons, List.not_mem_nil, or_false, forall_eq_or_imp, forall_eq]
  exact ⟨.string _, .string _, .string _, .string _, .number _, .string _⟩

theorem same_of_rel {ν : Type} {found found' : Option (JsonValue ν)} {a b : JsonValue ν}
    (h : Option.Rel Same found found') (ha : found = some a) (hb : found' = some b) :
    Same a b := by
  subst ha hb
  cases h with
  | some hsame => exact hsame

theorem string_inj {ν : Type} {s s' : Text}
    (h : Same (.string s : JsonValue ν) (.string s')) : s = s' := by
  cases h
  rfl

theorem number_inj {ν : Type} {n n' : ν} (h : Same (.number n) (.number n')) : n = n' := by
  cases h
  rfl

theorem eq_of_same_requestJson {ν : Type} {dto dto' : CreateAccountDto ν}
    (h : Same (requestJson dto) (requestJson dto')) : dto = dto' := by
  cases h with
  | object hmembers =>
      have hemail := string_inj (same_of_rel (hmembers (ascii "email")) rfl rfl)
      have hname := string_inj (same_of_rel (hmembers (ascii "name")) rfl rfl)
      have hcellphone := string_inj (same_of_rel (hmembers (ascii "cellphone")) rfl rfl)
      have htaxId := string_inj (same_of_rel (hmembers (ascii "taxId")) rfl rfl)
      have hamount := number_inj (same_of_rel (hmembers (ascii "amount")) rfl rfl)
      have hcurrency := string_inj (same_of_rel (hmembers (ascii "currency")) rfl rfl)
      cases dto
      cases dto'
      simp_all only

/-- Two values have the same text exactly if they are equal up to the order of keys;
so two requests are hashed from the same text exactly if they are the same. -/
theorem stableStringify_eq_iff {ν : Type} (numberText : ν → Text)
    (hnumber : ∀ n, IsNumberText (numberText n))
    (hinj : Function.Injective numberText) :
    (∀ a b : Value ν,
      stableStringify numberText a.json = stableStringify numberText b.json ↔
        Same a.json b.json) ∧
    ∀ dto dto' : CreateAccountDto ν,
      stableStringify numberText (requestJson dto) =
        stableStringify numberText (requestJson dto') ↔ dto = dto' := by
  have hiff : ∀ a b : Value ν,
      stableStringify numberText a.json = stableStringify numberText b.json ↔
        Same a.json b.json := by
    refine fun a b => ⟨fun h => ?_, stableStringify_eq_of_same a.hasOwnKeys b.hasOwnKeys⟩
    have hends : Ends [] := by simp [Ends]
    exact (readsOff_of_hasOwnKeys hnumber hinj a.hasOwnKeys _ b.hasOwnKeys [] [] hends
      hends (congrArg (· ++ []) h)).1
  refine ⟨hiff, fun dto dto' => ⟨fun h => ?_, fun h => h ▸ rfl⟩⟩
  exact eq_of_same_requestJson ((hiff ⟨_, hasOwnKeys_requestJson dto⟩
    ⟨_, hasOwnKeys_requestJson dto'⟩).mp h)

section Sample

/-- `JSON.stringify` of a natural number below 10^21. -/
def naturalText (n : Nat) : Text := (Nat.toDigits 10 n).map unit

theorem unit_of_isDigit {c : Char} (h : c.isDigit = true) :
    isNumberChar (unit c) = true ∧ Char.ofNat (unit c).toNat = c := by
  obtain ⟨hlow, hhigh⟩ := Char.isDigit_iff_toNat.mp h
  have hc : c = Char.ofNat c.toNat := (Char.ofNat_toNat c).symm
  generalize c.toNat = n at hlow hhigh hc
  subst hc
  revert n
  decide

theorem isNumberText_naturalText (n : Nat) : IsNumberText (naturalText n) where
  nonempty := by simp [naturalText, Nat.toDigits_ne_nil]
  chars := by
    intro u hu
    obtain ⟨c, hc, rfl⟩ := List.mem_map.mp hu
    exact (unit_of_isDigit
      (Nat.isDigit_of_mem_toDigits (by decide) (by decide) hc)).1

theorem naturalText_injective : Function.Injective naturalText := by
  intro m n h
  have hdigits : ∀ n, (naturalText n).map (fun u => Char.ofNat u.toNat) =
      Nat.toDigits 10 n := by
    intro n
    rw [naturalText, List.map_map]
    refine (List.map_congr_left fun c hc => ?_).trans (List.map_id _)
    exact (unit_of_isDigit
      (Nat.isDigit_of_mem_toDigits (by decide) (by decide) hc)).2
  rw [← Nat.ofDigitChars_ten_toDigits (n := m), ← hdigits, h, hdigits,
    Nat.ofDigitChars_ten_toDigits]

def sampleDto : CreateAccountDto Nat where
  email := ascii "ada@modularis.dev"
  name := ascii "Ada"
  cellphone := ascii "11999990000"
  taxId := ascii "12345678901"
  amount := 100
  currency := ascii "BRL"

theorem stableStringify_eq_iff_sample :
    stableStringify naturalText (requestJson sampleDto) =
      stableStringify naturalText (requestJson { sampleDto with amount := 10 }) ↔
    sampleDto = { sampleDto with amount := 10 } :=
  (stableStringify_eq_iff naturalText isNumberText_naturalText naturalText_injective).2
    sampleDto { sampleDto with amount := 10 }

end Sample

end Modularis.Shared.StableHash
