import WorstCase.Source.Location

/-!
# Reports

What is wrong with a text is first a **diagnosis**: a message, advice, and places in the text, all as
the part of the program that found the fault knows them. A **report** is the diagnosis placed in the
text, with each place as a location a reader can find. Placing is the only step that needs the text, and
it fails only if a place is not in it.

A diagnosis made for one line of a text is placed in the whole text by `Report.inLine`, through its
location in the line.
-/

namespace WorstCase

/-- What is said beside the message of a fault. -/
inductive Advice where
  /-- What was going on. -/
  | note (text : String)
  /-- What to do about it. -/
  | help (text : String)
  deriving DecidableEq, Repr

/-- A place in a text. -/
structure Place where
  /-- The offset in bytes. -/
  offset : Nat
  /-- The length in bytes, if more than a point is meant. -/
  length : Option Nat
  deriving DecidableEq, Repr

/-- The place of a span. An empty span is a point. -/
def Span.place (s : Span) : Place :=
  ⟨s.start.offset, if s.isEmpty then none else some s.size⟩

/-- **What is wrong**, before it is placed in the text. -/
structure Diagnosis where
  /-- The fault in a sentence. -/
  message : String
  /-- Where it is. -/
  place : Place
  /-- Advice about the fault as such. -/
  advice : List Advice
  /-- Further advice, some of it about other places. -/
  remarks : List (Advice × Option Place)
  deriving DecidableEq, Repr

/-- **What is wrong, and where in the text.** -/
structure Report where
  /-- The name of the text. -/
  origin : String
  /-- The fault in a sentence. -/
  message : String
  /-- Where it is. -/
  location : Option Location
  /-- Advice about the fault. -/
  advice : List Advice
  /-- Advice about other places. -/
  located : List (Advice × Location)
  deriving DecidableEq, Repr

namespace Report

/-- A remark, with its place as a location if it has one. -/
def placeRemark (locate : Place → Except LocationError Location) :
    Advice × Option Place → Except LocationError (Advice × Option Location)
  | (advice, some place) => do return (advice, some (← locate place))
  | (advice, none) => .ok (advice, none)

/-- A remark that has no location is advice about the fault. -/
def plainRemark : Advice × Option Location → Option Advice
  | (advice, none) => some advice
  | (_, some _) => none

/-- A remark that has a location. -/
def locatedRemark : Advice × Option Location → Option (Advice × Location)
  | (advice, some location) => some (advice, location)
  | (_, none) => none

/-- A diagnosis placed by the given rule. -/
def ofDiagnosis (origin : String) (d : Diagnosis)
    (locate : Place → Except LocationError Location) : Except LocationError Report := do
  let location ← locate d.place
  let remarks ← d.remarks.mapM (placeRemark locate)
  return {
    origin
    message := d.message
    location := some location
    advice := d.advice ++ remarks.filterMap plainRemark
    located := remarks.filterMap locatedRemark }

/-- A diagnosis of a text, placed in it. -/
def inText (origin : String) (source : List Char) (d : Diagnosis) : Except LocationError Report :=
  ofDiagnosis origin d fun place => Location.locate source place.offset place.length

/-- A diagnosis of a line, placed in the text that has the line at the given offset. -/
def inLine (origin : String) (source line : List Char) (lineStart : Nat) (d : Diagnosis) :
    Except LocationError Report :=
  ofDiagnosis origin d fun place => do
    (← Location.locate line place.offset place.length).relocate source lineStart

/-- A report without any place. -/
def unplaced (origin message : String) (advice : List Advice) : Report :=
  ⟨origin, message, none, advice, []⟩

end Report

end WorstCase
