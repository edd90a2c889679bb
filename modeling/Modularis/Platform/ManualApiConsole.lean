import Mathlib.Data.List.Infix
import Modularis.Shared.RabbitBus

namespace Modularis.Platform.ManualApiConsole

open Modularis.Shared.RabbitBus

/-- `JSON.parse`, which answers `none` where it throws, `JSON.stringify` with an
indentation of two, and the label of an event without a type. -/
structure Console where
  parseJson : String → Option Json
  stringify : Json → String
  messageTypeFallback : String

structure Message where
  id : String
  type : String
  rawData : String
  parsedData : Json
  formattedData : String

section Events

def tryParseJson (console : Console) (value : String) : Json :=
  if value = "" then .null else (console.parseJson value).getD .null

def isTruthy : Json → Bool
  | .null => false
  | .bool value => value
  | .number value => decide (value ≠ 0)
  | .string value => decide (value ≠ "")
  | .array _ | .object _ => true

/-- The `event` of the loop over the lines. -/
structure EventFields where
  id : String
  type : String
  dataLines : List String
deriving DecidableEq, Repr

def readLine (event : EventFields) (line : List Char) : EventFields :=
  if line = [] ∨ line.head? = some ':' then event
  else
    let (field, rest) := line.span (· ≠ ':')
    let value := rest.tail
    let value := if value.head? = some ' ' then value.tail else value
    if String.ofList field = "id" then { event with id := String.ofList value }
    else if String.ofList field = "event" then { event with type := String.ofList value }
    else if String.ofList field = "data" then
      { event with dataLines := event.dataLines ++ [String.ofList value] }
    else event

/-- The event of the text before a blank line, unless that is blank, too. -/
def readChunk (console : Console) (chunk : List Char) : Option Message :=
  let rawChunk := chunk.filter (· ≠ '\r')
  if rawChunk.all isTrimmed then none
  else
    let event := (rawChunk.splitOn '\n').foldl readLine
      { id := ""
        type := console.messageTypeFallback
        dataLines := [] }
    let rawData := "\n".intercalate event.dataLines
    let parsedData := tryParseJson console rawData
    some
      { id := event.id
        type := event.type
        rawData := rawData
        parsedData := parsedData
        formattedData :=
          if isTruthy parsedData then console.stringify parsedData else rawData }

end Events

section Buffer

/-- The slices before and after the first blank line. -/
def cutBoundary : List Char → Option (List Char × List Char)
  | '\n' :: '\n' :: rest => some ([], rest)
  | c :: rest => (cutBoundary rest).map fun cut => (c :: cut.1, cut.2)
  | [] => none

theorem eq_of_cutBoundary {buffer chunk rest : List Char}
    (h : cutBoundary buffer = some (chunk, rest)) :
    buffer = chunk ++ '\n' :: '\n' :: rest := by
  induction buffer using cutBoundary.induct generalizing chunk with
  | case1 rest =>
      simp only [cutBoundary, Option.some.injEq, Prod.mk.injEq] at h
      rw [← h.1, ← h.2, List.nil_append]
  | case2 c tail hnot ih =>
      rw [cutBoundary] at h
      · obtain ⟨cut, hcut, heq⟩ := Option.map_eq_some_iff.mp h
        obtain ⟨rfl, rfl⟩ := Prod.mk.inj heq
        rw [List.cons_append, ← ih hcut]
      · exact hnot
  | case3 => cases h

/-- What the loop emits, and the buffer that it leaves. -/
def consumeSseBuffer (console : Console) (buffer : List Char) :
    List Message × List Char :=
  match h : cutBoundary buffer with
  | none => ([], buffer)
  | some (chunk, rest) =>
      have : rest.length < buffer.length := by
        rw [eq_of_cutBoundary h]
        simp
        omega
      let (messages, left) := consumeSseBuffer console rest
      ((readChunk console chunk).toList ++ messages, left)
termination_by buffer.length

/-- `buffer.replace(/\r\n/g, "\n")`. -/
def replaceCrlf : List Char → List Char
  | '\r' :: '\n' :: rest => '\n' :: replaceCrlf rest
  | c :: rest => c :: replaceCrlf rest
  | [] => []

structure Stream where
  buffer : List Char
  events : List Message

/-- The body of the loop that reads the stream. -/
def onChunk (console : Console) (stream : Stream) (chunk : List Char) : Stream :=
  let (messages, buffer) :=
    consumeSseBuffer console (replaceCrlf (stream.buffer ++ chunk))
  { buffer := buffer
    events := stream.events ++ messages }

def readLoop (console : Console) (chunks : List (List Char)) : Stream :=
  chunks.foldl (onChunk console)
    { buffer := []
      events := [] }

end Buffer

section Blocks

variable {console : Console} {buffer chunk rest : List Char}

/-- The line feeds of a blank line. -/
def boundary : List Char := ['\n', '\n']

/-- Texts, each with a blank line after it. -/
def ended (blocks : List (List Char)) : List Char :=
  blocks.flatMap fun block => block ++ boundary

theorem consumeSseBuffer_of_none (h : cutBoundary buffer = none) :
    consumeSseBuffer console buffer = ([], buffer) := by
  rw [consumeSseBuffer]
  split
  · rfl
  · rename_i hcut
    rw [h] at hcut
    cases hcut

theorem consumeSseBuffer_of_some (h : cutBoundary buffer = some (chunk, rest)) :
    consumeSseBuffer console buffer =
      ((readChunk console chunk).toList ++ (consumeSseBuffer console rest).1,
        (consumeSseBuffer console rest).2) := by
  rw [consumeSseBuffer]
  split
  · rename_i hcut
    rw [h] at hcut
    cases hcut
  · rename_i hcut
    rw [h, Option.some.injEq, Prod.mk.injEq] at hcut
    obtain ⟨rfl, rfl⟩ := hcut
    rfl

theorem cutBoundary_append (h : cutBoundary buffer = some (chunk, rest))
    (after : List Char) :
    cutBoundary (chunk ++ boundary ++ after) = some (chunk, after) := by
  induction buffer using cutBoundary.induct generalizing chunk with
  | case1 rest =>
      simp only [cutBoundary, Option.some.injEq, Prod.mk.injEq] at h
      rw [← h.1]
      rfl
  | case2 c tail hnot ih =>
      rw [cutBoundary] at h
      · obtain ⟨⟨front, back⟩, hcut, heq⟩ := Option.map_eq_some_iff.mp h
        obtain ⟨rfl, rfl⟩ := Prod.mk.inj heq
        have htail := eq_of_cutBoundary hcut
        rw [List.cons_append, List.cons_append, cutBoundary, ih hcut, Option.map_some]
        intro d hc hd
        cases front with
        | nil => exact hnot ('\n' :: back) hc htail
        | cons e front =>
            obtain ⟨rfl, _⟩ := List.cons.inj hd
            exact hnot (front ++ '\n' :: '\n' :: back) hc htail
      · exact hnot
  | case3 => cases h

theorem not_boundary_of_cutBoundary (h : cutBoundary buffer = none) :
    ¬ boundary <:+: buffer := by
  induction buffer using cutBoundary.induct with
  | case1 rest => cases h
  | case2 c tail hnot ih =>
      rw [cutBoundary] at h
      · intro hinfix
        rcases List.infix_cons_iff.mp hinfix with ⟨after, hafter⟩ | htail
        · obtain ⟨hc, htail⟩ := List.cons.inj hafter
          exact hnot after hc.symm htail.symm
        · exact ih (Option.map_eq_none_iff.mp h) htail
      · exact hnot
  | case3 => decide

theorem not_boundary_of_cut (h : cutBoundary buffer = some (chunk, rest)) :
    ¬ boundary <:+: chunk ++ ['\n'] := by
  induction buffer using cutBoundary.induct generalizing chunk with
  | case1 rest =>
      simp only [cutBoundary, Option.some.injEq, Prod.mk.injEq] at h
      rw [← h.1]
      decide
  | case2 c tail hnot ih =>
      rw [cutBoundary] at h
      · obtain ⟨⟨front, back⟩, hcut, heq⟩ := Option.map_eq_some_iff.mp h
        obtain ⟨rfl, rfl⟩ := Prod.mk.inj heq
        have htail := eq_of_cutBoundary hcut
        intro hinfix
        rcases List.infix_cons_iff.mp hinfix with ⟨after, hafter⟩ | hrest
        · obtain ⟨hc, hfront⟩ := List.cons.inj hafter
          cases front with
          | nil => exact hnot ('\n' :: back) hc.symm htail
          | cons e front =>
              obtain ⟨rfl, _⟩ := List.cons.inj hfront
              exact hnot (front ++ '\n' :: '\n' :: back) hc.symm htail
        · exact ih hcut hrest
      · exact hnot
  | case3 => cases h

/-- What has been consumed are texts before blank lines, which are cut alike whatever
comes after them. -/
theorem consumeSseBuffer_blocks (console : Console) (buffer : List Char) :
    ∃ blocks, buffer = ended blocks ++ (consumeSseBuffer console buffer).2 ∧
      (consumeSseBuffer console buffer).1 = blocks.filterMap (readChunk console) ∧
      ¬ boundary <:+: (consumeSseBuffer console buffer).2 ∧
      ∀ block ∈ blocks, ¬ boundary <:+: block ++ ['\n'] ∧
        ∀ after, cutBoundary (block ++ boundary ++ after) = some (block, after) := by
  induction hlength : buffer.length using Nat.strong_induction_on generalizing buffer with
  | _ length ih =>
      cases hcut : cutBoundary buffer with
      | none =>
          rw [consumeSseBuffer_of_none hcut]
          exact ⟨[], rfl, rfl, not_boundary_of_cutBoundary hcut, by simp⟩
      | some cut =>
          obtain ⟨chunk, rest⟩ := cut
          have heq := eq_of_cutBoundary hcut
          have hshorter : rest.length < length := by
            rw [← hlength, heq]
            simp
            omega
          obtain ⟨blocks, hrest, hevents, hleft, hblocks⟩ := ih _ hshorter rest rfl
          rw [consumeSseBuffer_of_some hcut]
          refine ⟨chunk :: blocks, ?_, ?_, hleft, ?_⟩
          · rw [heq]
            nth_rewrite 1 [hrest]
            simp [ended, boundary]
          · rw [hevents, List.filterMap_cons]
            cases readChunk console chunk <;> rfl
          · intro block hblock
            rcases List.mem_cons.mp hblock with rfl | hblock
            · exact ⟨not_boundary_of_cut hcut, cutBoundary_append hcut⟩
            · exact hblocks block hblock

theorem consumeSseBuffer_ended {blocks : List (List Char)}
    (h : ∀ block ∈ blocks, ∀ after,
      cutBoundary (block ++ boundary ++ after) = some (block, after))
    (after : List Char) :
    consumeSseBuffer console (ended blocks ++ after) =
      (blocks.filterMap (readChunk console) ++ (consumeSseBuffer console after).1,
        (consumeSseBuffer console after).2) := by
  induction blocks with
  | nil => rfl
  | cons block blocks ih =>
      obtain ⟨hblock, hblocks⟩ := List.forall_mem_cons.mp h
      have hcons : ended (block :: blocks) ++ after =
          block ++ boundary ++ (ended blocks ++ after) := by
        simp [ended]
      rw [hcons, consumeSseBuffer_of_some (hblock _), ih hblocks, List.filterMap_cons]
      cases readChunk console block <;> simp

end Blocks

section Chunks

variable {console : Console} {text after : List Char}

/-- Every carriage return is followed by a line feed. -/
def Paired (text : List Char) : Prop :=
  ∀ before after, text = before ++ '\r' :: after → ∃ rest, after = '\n' :: rest

/-- Every carriage return is followed by a line feed, or ends the text so far. -/
def Begun (text : List Char) : Prop :=
  ∀ before after, text = before ++ '\r' :: after → after = [] ∨ ∃ rest, after = '\n' :: rest

theorem Paired.begun (h : Paired text) : Begun text :=
  fun before after htext => .inr (h before after htext)

theorem Begun.of_append {more : List Char} (h : Begun (text ++ more)) : Begun text := by
  intro before after htext
  cases after with
  | nil => exact .inl rfl
  | cons c after =>
      rcases h before (c :: after ++ more) (by simp [htext]) with hnil | ⟨rest, hrest⟩
      · cases hnil
      · obtain ⟨rfl, _⟩ := List.cons.inj hrest
        exact .inr ⟨after, rfl⟩

theorem Begun.tail {c : Char} (h : Begun (c :: text)) : Begun text :=
  fun before after htext => h (c :: before) after (by simp [htext])

theorem replaceCrlf_append (h : Begun text) (more : List Char) :
    replaceCrlf (replaceCrlf text ++ more) = replaceCrlf (text ++ more) := by
  induction text using replaceCrlf.induct with
  | case1 rest ih =>
      have hline : ∀ s, replaceCrlf ('\n' :: s) = '\n' :: replaceCrlf s := fun _ => rfl
      rw [replaceCrlf, List.cons_append, hline, ih h.tail.tail]
      rfl
  | case2 c rest hnot ih =>
      rw [replaceCrlf]
      · by_cases hc : c = '\r'
        · subst hc
          rcases h [] rest rfl with rfl | ⟨tail, rfl⟩
          · rfl
          · exact absurd rfl (hnot tail rfl)
        · have hother : ∀ s, replaceCrlf (c :: s) = c :: replaceCrlf s := by
            intro s
            rw [replaceCrlf]
            exact fun _ hreturn => absurd hreturn hc
          rw [List.cons_append, hother, ih h.tail, List.cons_append, hother]
      · exact hnot
  | case3 => rfl

theorem last_of_mem_replaceCrlf (h : Begun text) {before : List Char}
    (heq : replaceCrlf text = before ++ '\r' :: after) : after = [] := by
  induction text using replaceCrlf.induct generalizing before with
  | case1 rest ih =>
      rw [replaceCrlf] at heq
      cases before with
      | nil => cases (List.cons.inj heq).1
      | cons d before => exact ih h.tail.tail (List.cons.inj heq).2
  | case2 c rest hnot ih =>
      rw [replaceCrlf] at heq
      · cases before with
        | nil =>
            obtain ⟨rfl, hrest⟩ := List.cons.inj heq
            rcases h [] rest rfl with rfl | ⟨tail, rfl⟩
            · exact hrest.symm
            · exact absurd rfl (hnot tail rfl)
        | cons d before => exact ih h.tail (List.cons.inj heq).2
      · exact hnot
  | case3 => simp [replaceCrlf] at heq

theorem replaceCrlf_of_notMem {front : List Char} (h : '\r' ∉ front) (more : List Char) :
    replaceCrlf (front ++ more) = front ++ replaceCrlf more := by
  induction front with
  | nil => rfl
  | cons c front ih =>
      obtain ⟨hc, hfront⟩ := not_or.mp fun hor => h (List.mem_cons.mpr hor)
      rw [List.cons_append, replaceCrlf, ih hfront, List.cons_append]
      exact fun _ hreturn => absurd hreturn.symm hc

theorem notMem_ended (h : Begun text) {blocks : List (List Char)} {left : List Char}
    (heq : replaceCrlf text = ended blocks ++ left) : '\r' ∉ ended blocks := by
  intro hmem
  obtain ⟨before, after, hsplit⟩ := List.append_of_mem hmem
  rw [hsplit, List.append_assoc, List.cons_append] at heq
  obtain ⟨rfl, rfl⟩ := List.append_eq_nil_iff.mp (last_of_mem_replaceCrlf h heq)
  rcases List.eq_nil_or_concat blocks with rfl | ⟨front, block, rfl⟩
  · simp [ended] at hmem
  · have hlast := congrArg List.getLast? hsplit
    simp [ended, boundary, List.flatMap_append] at hlast

theorem readLoop_eq (console : Console) {chunks : List (List Char)}
    (h : Begun chunks.flatten) :
    readLoop console chunks =
      { buffer := (consumeSseBuffer console (replaceCrlf chunks.flatten)).2
        events := (consumeSseBuffer console (replaceCrlf chunks.flatten)).1 } := by
  induction chunks using List.reverseRecOn with
  | nil =>
      have hnone : cutBoundary [] = none := rfl
      rw [List.flatten_nil, replaceCrlf, consumeSseBuffer_of_none hnone]
      rfl
  | append_singleton chunks chunk ih =>
      have htext : (chunks ++ [chunk]).flatten = chunks.flatten ++ chunk := by simp
      rw [htext] at h ⊢
      have hbefore := h.of_append
      obtain ⟨blocks, hblocks, hevents, _, hcut⟩ :=
        consumeSseBuffer_blocks console (replaceCrlf chunks.flatten)
      have hwhole : replaceCrlf (chunks.flatten ++ chunk) = ended blocks ++ replaceCrlf
          ((consumeSseBuffer console (replaceCrlf chunks.flatten)).2 ++ chunk) := by
        rw [← replaceCrlf_append hbefore, ← replaceCrlf_of_notMem
          (notMem_ended hbefore hblocks), ← List.append_assoc, ← hblocks]
      have hstep : readLoop console (chunks ++ [chunk]) =
          onChunk console (readLoop console chunks) chunk := by
        rw [readLoop, List.foldl_append]
        rfl
      rw [hstep, ih hbefore, hwhole, consumeSseBuffer_ended fun block hblock =>
        (hcut block hblock).2, ← hevents]
      rfl

end Chunks

/-- However the text is cut into chunks, the loop emits the same events and leaves the
same buffer: the text is the blocks of the events, in order, and the buffer. -/
theorem chunks_make_no_difference (console : Console) {chunks : List (List Char)}
    (h : Paired chunks.flatten) :
    readLoop console chunks = readLoop console [chunks.flatten] ∧
    ∃ blocks, replaceCrlf chunks.flatten =
        ended blocks ++ (readLoop console chunks).buffer ∧
      (readLoop console chunks).events = blocks.filterMap (readChunk console) ∧
      ¬ boundary <:+: (readLoop console chunks).buffer ∧
      ∀ block ∈ blocks, ¬ boundary <:+: block ++ ['\n'] := by
  have hsingle : [chunks.flatten].flatten = chunks.flatten := by simp
  have hbegun : Begun [chunks.flatten].flatten := by
    rw [hsingle]
    exact h.begun
  have hchunks := readLoop_eq console h.begun
  have hwhole := readLoop_eq console hbegun
  rw [hsingle] at hwhole
  obtain ⟨blocks, hblocks, hevents, hleft, hcut⟩ :=
    consumeSseBuffer_blocks console (replaceCrlf chunks.flatten)
  rw [hchunks]
  exact ⟨hwhole.symm, blocks, hblocks, hevents, hleft,
    fun block hblock => (hcut block hblock).1⟩

section Sample

/-- The executable reading of `Paired`. -/
def isPaired : List Char → Bool
  | '\r' :: '\n' :: rest => isPaired rest
  | c :: rest => decide (c ≠ '\r') && isPaired rest
  | [] => true

theorem paired_of_isPaired {text : List Char} (h : isPaired text = true) : Paired text := by
  induction text using isPaired.induct with
  | case1 rest ih =>
      intro before after htext
      rcases before with _ | ⟨c, _ | ⟨d, before⟩⟩
      · exact ⟨rest, (List.cons.inj htext).2.symm⟩
      · cases (List.cons.inj (List.cons.inj htext).2).1
      · exact ih h before after (List.cons.inj (List.cons.inj htext).2).2
  | case2 c rest hnot ih =>
      rw [isPaired, Bool.and_eq_true, decide_eq_true_eq] at h
      · intro before after htext
        cases before with
        | nil => exact absurd (List.cons.inj htext).1 h.1
        | cons d before => exact ih h.2 before after (List.cons.inj htext).2
      · exact hnot
  | case3 =>
      intro before after htext
      simp at htext

/-- `JSON.parse` fails on the data. -/
def sampleConsole : Console where
  parseJson _ := none
  stringify _ := ""
  messageTypeFallback := "message"

/-- An event, cut inside both CR LF of its blank line. -/
def sampleChunks : List (List Char) :=
  ["id: 1\r\ndata: pai".toList, "d\r".toList, "\n\r".toList, "\nid".toList]

theorem chunks_make_no_difference_sample :
    readLoop sampleConsole sampleChunks = readLoop sampleConsole [sampleChunks.flatten] ∧
    ∃ blocks, replaceCrlf sampleChunks.flatten =
        ended blocks ++ (readLoop sampleConsole sampleChunks).buffer ∧
      (readLoop sampleConsole sampleChunks).events =
        blocks.filterMap (readChunk sampleConsole) ∧
      ¬ boundary <:+: (readLoop sampleConsole sampleChunks).buffer ∧
      ∀ block ∈ blocks, ¬ boundary <:+: block ++ ['\n'] :=
  chunks_make_no_difference sampleConsole (paired_of_isPaired (by decide))

end Sample

end Modularis.Platform.ManualApiConsole
