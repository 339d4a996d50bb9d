import Mooncache.Foundation.Lines
import Mooncache.Gateway.Error
import Mooncache.Protocol.Responses
import Mathlib.Data.List.DropRight

/-! The parser of a vendor's event stream, against the texts that send a list of events. -/
namespace Mooncache

/-- The variables of the loop of `parse_sse_events`. -/
structure SseParser where
  events : List SseEvent
  eventName : Option String
  dataLines : List String

def flushSseEvent (parser : SseParser) : SseParser :=
  if parser.dataLines = [] then { parser with eventName := none }
  else ⟨parser.events ++ [⟨parser.eventName, "\n".intercalate parser.dataLines⟩], none, []⟩

def trimStart (text : List Char) : List Char := text.dropWhile isWhiteSpace

/-- The body of the loop, for one line. -/
def parseSseLine (parser : SseParser) (line : List Char) : SseParser :=
  let line := line.rdropWhile (· = '\r')
  if line = [] then flushSseEvent parser
  else if line.head? = some ':' then parser
  else match "event:".toList.isPrefixOf? line with
    | some value => { parser with eventName := some (String.ofList (trimStart value)) }
    | none =>
      match "data:".toList.isPrefixOf? line with
      | some value => { parser with dataLines := parser.dataLines ++ [String.ofList (trimStart value)] }
      | none => parser

def parseSseEvents (text : String) : Except VendorError (List SseEvent) :=
  let parser := flushSseEvent ((lines text.toList).foldl parseSseLine ⟨[], none, []⟩)
  if parser.events = [] then .error (.invalidResponse "vendor stream did not contain SSE events")
  else .ok parser.events

/-- An event as it is sent: its name, if it has one, and the lines of its data. -/
structure SentEvent where
  name : Option String
  dataLines : List String

namespace SentEvent

def event (sent : SentEvent) : SseEvent := ⟨sent.name, "\n".intercalate sent.dataLines⟩

/-- What the wire format can send. -/
structure Sendable (sent : SentEvent) : Prop where
  named : ∀ name ∈ sent.name, name ≠ "" ∧ Unbroken name.toList ∧ name.toList.head? ≠ some ' '
  filled : sent.dataLines ≠ []
  unbroken : ∀ line ∈ sent.dataLines, Unbroken line.toList

/-- The value stands one space after the colon. -/
def nameLine (name : String) : List Char := "event:".toList ++ ' ' :: name.toList

def dataLine (line : String) : List Char := "data:".toList ++ ' ' :: line.toList

def fieldLines (sent : SentEvent) : List (List Char) :=
  sent.name.toList.map nameLine ++ sent.dataLines.map dataLine

end SentEvent

/-- The fields in order, with any comment lines between them. -/
inductive Commented : List (List Char) → List (List Char) → Prop
  | done : Commented [] []
  | field {fields sent : List (List Char)} (line : List Char) :
      Commented fields sent → Commented (line :: fields) (line :: sent)
  | comment {fields sent : List (List Char)} (text : List Char) :
      Unbroken text → Commented fields sent → Commented fields ((':' :: text) :: sent)

/-- The lines that send the events: a blank line after each, and any comment lines and blank lines
between two, before the first or after the last. -/
inductive Sends : List SentEvent → List (List Char) → Prop
  | done : Sends [] []
  | blank {events : List SentEvent} {sent : List (List Char)} : Sends events sent → Sends events ([] :: sent)
  | comment {events : List SentEvent} {sent : List (List Char)} (text : List Char) :
      Unbroken text → Sends events sent → Sends events ((':' :: text) :: sent)
  | event {events : List SentEvent} {fields sent : List (List Char)} (event : SentEvent) :
      Commented event.fieldLines fields → Sends events sent → Sends (event :: events) (fields ++ [] :: sent)

/-- The text of some lines, each with its end. -/
def wireText (pieces : List (List Char × LineEnd)) : String :=
  String.ofList (pieces.flatMap fun piece => piece.1 ++ piece.2.chars)

def trimStartText (text : String) : String := String.ofList (trimStart text.toList)

/-- The event as the parser takes it in, which drops all white space before the name and before each
line of data. -/
def SentEvent.received (sent : SentEvent) : SseEvent :=
  ⟨sent.name.map trimStartText, "\n".intercalate (sent.dataLines.map trimStartText)⟩

/-- Whether the text starts with white space. -/
def Indented (text : String) : Prop := text.toList.head?.any isWhiteSpace = true

instance : DecidablePred Indented := fun _ => inferInstanceAs (Decidable (_ = true))

theorem rdropWhile_cr {line : List Char} (h : Unbroken line) : line.rdropWhile (· = '\r') = line := by
  rw [List.rdropWhile_eq_self_iff]
  intro present
  rw [decide_eq_true_eq]
  exact fun last => h.2 (last ▸ List.getLast_mem present)

theorem parseSseLine_blank (parser : SseParser) : parseSseLine parser [] = flushSseEvent parser := rfl

theorem parseSseLine_comment (parser : SseParser) {text : List Char} (h : Unbroken text) :
    parseSseLine parser (':' :: text) = parser := by
  have whole : Unbroken (':' :: text) := h.cons (by decide) (by decide)
  simp [parseSseLine, rdropWhile_cr whole]

theorem trimStart_space (text : List Char) : trimStart (' ' :: text) = trimStart text :=
  List.dropWhile_cons_of_pos (by decide)

theorem unbroken_nameLine {name : String} (h : Unbroken name.toList) : Unbroken (SentEvent.nameLine name) :=
  .append ⟨by decide, by decide⟩ (h.cons (by decide) (by decide))

theorem unbroken_dataLine {line : String} (h : Unbroken line.toList) : Unbroken (SentEvent.dataLine line) :=
  .append ⟨by decide, by decide⟩ (h.cons (by decide) (by decide))

theorem parseSseLine_name (parser : SseParser) {name : String} (h : Unbroken name.toList) :
    parseSseLine parser (SentEvent.nameLine name) = { parser with eventName := some (trimStartText name) } := by
  have whole := unbroken_nameLine h
  have field : "event:".toList.isPrefixOf? (SentEvent.nameLine name) = some (' ' :: name.toList) :=
    List.isPrefixOf?_eq_some_iff_append_eq.mpr rfl
  have present : SentEvent.nameLine name ≠ [] := nofun
  have other : (SentEvent.nameLine name).head? ≠ some ':' := by
    have first : (SentEvent.nameLine name).head? = some 'e' := rfl
    rw [first]
    decide
  simp only [parseSseLine, rdropWhile_cr whole, present, other, field, trimStart_space, ↓reduceIte, trimStartText]

theorem parseSseLine_data (parser : SseParser) {line : String} (h : Unbroken line.toList) :
    parseSseLine parser (SentEvent.dataLine line) =
      { parser with dataLines := parser.dataLines ++ [trimStartText line] } := by
  have whole := unbroken_dataLine h
  have field : "data:".toList.isPrefixOf? (SentEvent.dataLine line) = some (' ' :: line.toList) :=
    List.isPrefixOf?_eq_some_iff_append_eq.mpr rfl
  have foreign : "event:".toList.isPrefixOf? (SentEvent.dataLine line) = none := rfl
  have present : SentEvent.dataLine line ≠ [] := nofun
  have other : (SentEvent.dataLine line).head? ≠ some ':' := by
    have first : (SentEvent.dataLine line).head? = some 'd' := rfl
    rw [first]
    decide
  simp only [parseSseLine, rdropWhile_cr whole, present, other, foreign, field, trimStart_space, ↓reduceIte,
    trimStartText]

theorem Commented.foldl {fields sent : List (List Char)} (h : Commented fields sent) (parser : SseParser) :
    sent.foldl parseSseLine parser = fields.foldl parseSseLine parser := by
  induction h generalizing parser with
  | done => rfl
  | field line _ ih => exact ih _
  | comment text unbroken _ ih => rw [List.foldl_cons, parseSseLine_comment parser unbroken, ih]

theorem foldl_dataLines {dataLines : List String} (h : ∀ line ∈ dataLines, Unbroken line.toList) (parser : SseParser) :
    (dataLines.map SentEvent.dataLine).foldl parseSseLine parser =
      { parser with dataLines := parser.dataLines ++ dataLines.map trimStartText } := by
  induction dataLines generalizing parser with
  | nil => simp
  | cons line rest ih =>
    rw [List.map_cons, List.foldl_cons, parseSseLine_data parser (h line List.mem_cons_self),
      ih fun line member => h line (List.mem_cons_of_mem _ member)]
    simp

/-- The lines of one event, up to the blank line that ends it. -/
theorem foldl_fieldLines {sent : SentEvent} (h : sent.Sendable) (events : List SseEvent) :
    flushSseEvent (sent.fieldLines.foldl parseSseLine ⟨events, none, []⟩) = ⟨events ++ [sent.received], none, []⟩ := by
  have present : sent.dataLines.map trimStartText ≠ [] := by simpa using h.filled
  rw [SentEvent.fieldLines, List.foldl_append, foldl_dataLines h.unbroken]
  cases named : sent.name with
  | none => simp [flushSseEvent, present, SentEvent.received, named]
  | some name =>
    have line := parseSseLine_name ⟨events, none, []⟩ (h.named name named).2.1
    simp [line, flushSseEvent, present, SentEvent.received, named]

/-- Between two events nothing is pending. -/
theorem Sends.foldl {sent : List SentEvent} {pieces : List (List Char)} (h : Sends sent pieces)
    (sendable : ∀ event ∈ sent, event.Sendable) (events : List SseEvent) :
    pieces.foldl parseSseLine ⟨events, none, []⟩ = ⟨events ++ sent.map SentEvent.received, none, []⟩ := by
  induction h generalizing events with
  | done => simp
  | blank _ ih =>
    rw [List.foldl_cons, parseSseLine_blank]
    exact ih sendable events
  | comment text unbroken _ ih =>
    rw [List.foldl_cons, parseSseLine_comment _ unbroken]
    exact ih sendable events
  | event event commented _ ih =>
    rw [List.foldl_append, List.foldl_cons, parseSseLine_blank, commented.foldl,
      foldl_fieldLines (sendable event List.mem_cons_self),
      ih fun event member => sendable event (List.mem_cons_of_mem _ member)]
    simp

theorem Commented.unbroken {fields sent : List (List Char)} (h : Commented fields sent)
    (clean : ∀ line ∈ fields, Unbroken line) : ∀ line ∈ sent, Unbroken line := by
  induction h with
  | done => exact clean
  | field line _ ih =>
    exact List.forall_mem_cons.mpr ⟨clean line List.mem_cons_self, ih fun line member =>
      clean line (List.mem_cons_of_mem _ member)⟩
  | comment text unbroken _ ih =>
    exact List.forall_mem_cons.mpr ⟨unbroken.cons (by decide) (by decide), ih clean⟩

theorem unbroken_fieldLines {sent : SentEvent} (h : sent.Sendable) : ∀ line ∈ sent.fieldLines, Unbroken line := by
  intro line member
  rcases List.mem_append.mp member with named | data
  · obtain ⟨name, present, rfl⟩ := List.mem_map.mp named
    exact unbroken_nameLine (h.named name (Option.mem_toList.mp present)).2.1
  · obtain ⟨line, present, rfl⟩ := List.mem_map.mp data
    exact unbroken_dataLine (h.unbroken line present)

theorem Sends.unbroken {sent : List SentEvent} {pieces : List (List Char)} (h : Sends sent pieces)
    (sendable : ∀ event ∈ sent, event.Sendable) : ∀ line ∈ pieces, Unbroken line := by
  have blank : Unbroken [] := ⟨nofun, nofun⟩
  induction h with
  | done => exact nofun
  | blank _ ih => exact List.forall_mem_cons.mpr ⟨blank, ih sendable⟩
  | comment text unbroken _ ih =>
    exact List.forall_mem_cons.mpr ⟨unbroken.cons (by decide) (by decide), ih sendable⟩
  | event event commented _ ih =>
    refine List.forall_mem_append.mpr ⟨?_, List.forall_mem_cons.mpr ⟨blank, ?_⟩⟩
    · exact commented.unbroken (unbroken_fieldLines (sendable event List.mem_cons_self))
    · exact ih fun event member => sendable event (List.mem_cons_of_mem _ member)

/-- The parser takes in every event that is sent, in order, and nothing else. -/
theorem parseSseEvents_wireText {sent : List SentEvent} {pieces : List (List Char × LineEnd)} (present : sent ≠ [])
    (sendable : ∀ event ∈ sent, event.Sendable) (sends : Sends sent (pieces.map Prod.fst)) :
    parseSseEvents (wireText pieces) = .ok (sent.map SentEvent.received) := by
  have clean : ∀ piece ∈ pieces, Unbroken piece.1 := fun piece member =>
    sends.unbroken sendable piece.1 (List.mem_map_of_mem member)
  have some : sent.map SentEvent.received ≠ [] := by simpa using present
  rw [parseSseEvents, wireText, String.toList_ofList, lines_terminated clean, sends.foldl sendable]
  simp [flushSseEvent, present]

theorem trimStartText_eq_self {text : String} : trimStartText text = text ↔ ¬ Indented text := by
  have chars : trimStartText text = text ↔ trimStart text.toList = text.toList := by
    rw [← String.toList_inj, trimStartText, String.toList_ofList]
  rw [chars, trimStart, Indented]
  cases text.toList with
  | nil => simp
  | cons c rest =>
    cases white : isWhiteSpace c with
    | false => simp [white]
    | true =>
      have shorter : rest.dropWhile isWhiteSpace ≠ c :: rest := fun same => by
        have length := (List.dropWhile_sublist isWhiteSpace (l := rest)).length_le
        rw [same, List.length_cons] at length
        omega
      simp [white, shorter]

theorem trimStart_lineFeed {line : String} (h : '\n' ∉ line.toList) : '\n' ∉ (trimStartText line).toList := by
  rw [trimStartText, String.toList_ofList]
  exact fun member => h ((List.dropWhile_sublist _).subset member)

/-- An event arrives unchanged exactly if neither its name nor a line of its data is indented. -/
theorem received_eq_event {sent : SentEvent} (h : sent.Sendable) :
    sent.received = sent.event ↔ ∀ text ∈ sent.name.toList ++ sent.dataLines, ¬ Indented text := by
  have named : sent.name.map trimStartText = sent.name ↔ ∀ name ∈ sent.name.toList, ¬ Indented name := by
    cases sent.name with
    | none => simp
    | some name => simp [trimStartText_eq_self]
  have data : "\n".intercalate (sent.dataLines.map trimStartText) = "\n".intercalate sent.dataLines ↔
      ∀ line ∈ sent.dataLines, ¬ Indented line := by
    have clean : ∀ line ∈ sent.dataLines, '\n' ∉ line.toList := fun line member => (h.unbroken line member).1
    have trimmed : ∀ line ∈ sent.dataLines.map trimStartText, '\n' ∉ line.toList := by
      simpa using fun line member => trimStart_lineFeed (clean line member)
    simp only [← trimStartText_eq_self]
    refine ⟨fun same => ?_, fun kept => by rw [List.map_congr_left kept, List.map_id']⟩
    have lines := intercalate_injective trimmed clean (by simpa using h.filled) h.filled same
    exact List.map_inj_left.mp (lines.trans (List.map_id' _).symm)
  rw [SentEvent.received, SentEvent.event, SseEvent.mk.injEq, named, data, List.forall_mem_append]

/-- Parsing gives back the events that were sent exactly if no name and no line of data starts with
white space. -/
theorem parse_inverts_sending_iff {sent : List SentEvent} {pieces : List (List Char × LineEnd)} (present : sent ≠ [])
    (sendable : ∀ event ∈ sent, event.Sendable) (sends : Sends sent (pieces.map Prod.fst)) :
    parseSseEvents (wireText pieces) = .ok (sent.map SentEvent.event) ↔
      ∀ event ∈ sent, ∀ text ∈ event.name.toList ++ event.dataLines, ¬ Indented text := by
  rw [parseSseEvents_wireText present sendable sends, Except.ok.injEq, List.map_inj_left]
  exact forall₂_congr fun event member => received_eq_event (sendable event member)

def greeting : SentEvent := ⟨some "greeting", ["hello", "world"]⟩

def farewell : SentEvent := ⟨none, ["bye"]⟩

/-- Two events with comments, both line ends and a blank line too many. -/
def greetingPieces : List (List Char × LineEnd) := [
  (':' :: " ping".toList, .crlf),
  (SentEvent.nameLine "greeting", .lf),
  (SentEvent.dataLine "hello", .crlf),
  (':' :: " more".toList, .lf),
  (SentEvent.dataLine "world", .lf),
  ([], .crlf),
  ([], .lf),
  (SentEvent.dataLine "bye", .lf),
  ([], .lf)]

theorem greeting_parses :
    parseSseEvents (wireText greetingPieces) = .ok [⟨some "greeting", "hello\nworld"⟩, ⟨none, "bye"⟩] := by
  have sendable : ∀ event ∈ [greeting, farewell], event.Sendable := by
    simp only [List.forall_mem_cons, List.not_mem_nil, false_imp_iff, implies_true, and_true]
    refine ⟨⟨?_, nofun, ?_⟩, nofun, nofun, ?_⟩ <;> simp [greeting, farewell, Unbroken]
  have first : Commented greeting.fieldLines [SentEvent.nameLine "greeting", SentEvent.dataLine "hello",
      ':' :: " more".toList, SentEvent.dataLine "world"] :=
    .field _ (.field _ (.comment _ ⟨by decide, by decide⟩ (.field _ .done)))
  have second : Commented farewell.fieldLines [SentEvent.dataLine "bye"] := .field _ .done
  have sends : Sends [greeting, farewell] (greetingPieces.map Prod.fst) :=
    .comment _ ⟨by decide, by decide⟩ (.event _ first (.blank (.event _ second .done)))
  exact (parse_inverts_sending_iff (List.cons_ne_nil _ _) sendable sends).mpr (by decide)

def indented : SentEvent := ⟨none, ["  indented"]⟩

/-- The indentation of a line of data is lost. -/
theorem indented_data_is_trimmed : (∀ event ∈ [indented], event.Sendable) ∧
    Sends [indented] [SentEvent.dataLine "  indented", []] ∧
    wireText [(SentEvent.dataLine "  indented", .lf), ([], .lf)] = "data:   indented\n\n" ∧
    parseSseEvents "data:   indented\n\n" ≠ .ok ([indented].map SentEvent.event) := by
  have fields : Commented indented.fieldLines [SentEvent.dataLine "  indented"] := .field _ .done
  refine ⟨fun event member => ?_, .event _ fields .done, by decide, by decide⟩
  rw [List.mem_singleton.mp member]
  exact ⟨nofun, nofun, by simp [indented, Unbroken]⟩

end Mooncache
