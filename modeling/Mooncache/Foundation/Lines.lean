import Mathlib.Data.List.Basic

/-! The lines of a text, each ended by a line feed that a carriage return may precede. -/
namespace Mooncache

/-- The text cut after each line feed. -/
def splitInclusive : List Char → List (List Char)
  | [] => []
  | c :: rest =>
    if c = '\n' then [c] :: splitInclusive rest
    else match splitInclusive rest with
      | [] => [[c]]
      | piece :: more => (c :: piece) :: more

def stripSuffix (text : List Char) (c : Char) : Option (List Char) :=
  if text.getLast? = some c then some text.dropLast else none

/-- A piece without the line feed that ends it, and without the carriage return before that. -/
def lineOf (piece : List Char) : List Char :=
  match stripSuffix piece '\n' with
  | none => piece
  | some line => (stripSuffix line '\r').getD line

/-- `str::lines`. -/
def lines (text : List Char) : List (List Char) := (splitInclusive text).map lineOf

inductive LineEnd where
  | lf
  | crlf
  deriving DecidableEq, Repr

def LineEnd.chars : LineEnd → List Char
  | .lf => ['\n']
  | .crlf => ['\r', '\n']

/-- A line that holds no line end of its own. -/
def Unbroken (line : List Char) : Prop := '\n' ∉ line ∧ '\r' ∉ line

theorem Unbroken.append {line other : List Char} (h : Unbroken line) (h' : Unbroken other) :
    Unbroken (line ++ other) :=
  ⟨List.not_mem_append h.1 h'.1, List.not_mem_append h.2 h'.2⟩

theorem Unbroken.cons {line : List Char} (h : Unbroken line) {c : Char} (lf : '\n' ≠ c) (cr : '\r' ≠ c) :
    Unbroken (c :: line) :=
  ⟨List.not_mem_cons_of_ne_of_not_mem lf h.1, List.not_mem_cons_of_ne_of_not_mem cr h.2⟩

theorem splitInclusive_cons {line : List Char} (h : '\n' ∉ line) (rest : List Char) :
    splitInclusive (line ++ '\n' :: rest) = (line ++ ['\n']) :: splitInclusive rest := by
  induction line with
  | nil => simp [splitInclusive]
  | cons c line ih =>
    have other : c ≠ '\n' := fun same => h (same ▸ List.mem_cons_self)
    rw [List.cons_append, splitInclusive, if_neg other, ih fun member => h (List.mem_cons_of_mem _ member)]
    rfl

theorem lineOf_terminated {line : List Char} (h : '\r' ∉ line) (lineEnd : LineEnd) :
    lineOf (line ++ lineEnd.chars) = line := by
  cases lineEnd with
  | lf =>
    have other : line.getLast? ≠ some '\r' := fun last => h (List.mem_of_getLast? last)
    simp [lineOf, LineEnd.chars, stripSuffix, other]
  | crlf => simp [lineOf, LineEnd.chars, stripSuffix]

theorem lines_cons {line : List Char} (h : Unbroken line) (lineEnd : LineEnd) (rest : List Char) :
    lines (line ++ lineEnd.chars ++ rest) = line :: lines rest := by
  have piece : splitInclusive (line ++ lineEnd.chars ++ rest) = (line ++ lineEnd.chars) :: splitInclusive rest := by
    cases lineEnd with
    | lf => simpa [LineEnd.chars] using splitInclusive_cons h.1 rest
    | crlf =>
      have longer : '\n' ∉ line ++ ['\r'] := by simpa using h.1
      simpa [LineEnd.chars] using splitInclusive_cons longer rest
  rw [lines, piece, List.map_cons, lineOf_terminated h.2, lines]

/-- Lines each with its end, whichever it is, are the lines of the text they make. -/
theorem lines_terminated {pieces : List (List Char × LineEnd)} (h : ∀ piece ∈ pieces, Unbroken piece.1) :
    lines (pieces.flatMap fun piece => piece.1 ++ piece.2.chars) = pieces.map Prod.fst := by
  induction pieces with
  | nil => rfl
  | cons piece rest ih =>
    rw [List.flatMap_cons, lines_cons (h piece List.mem_cons_self), ih fun piece member =>
      h piece (List.mem_cons_of_mem _ member), List.map_cons]

/-- Joined by line feeds, lines that hold none are told apart again. -/
theorem intercalate_injective {first second : List String} (h : ∀ line ∈ first, '\n' ∉ line.toList)
    (h' : ∀ line ∈ second, '\n' ∉ line.toList) (present : first ≠ []) (present' : second ≠ [])
    (same : "\n".intercalate first = "\n".intercalate second) : first = second := by
  have split {pieces : List String} (clean : ∀ line ∈ pieces, '\n' ∉ line.toList) (some : pieces ≠ []) :
      ("\n".intercalate pieces).toList.splitOn '\n' = pieces.map String.toList := by
    rw [String.toList_intercalate]
    exact List.splitOn_intercalate '\n' (by simpa using clean) (by simpa using some)
  have chars : first.map String.toList = second.map String.toList := by
    rw [← split h present, ← split h' present', same]
  exact List.map_injective_iff.mpr (fun _ _ => String.toList_inj.mp) chars

end Mooncache
