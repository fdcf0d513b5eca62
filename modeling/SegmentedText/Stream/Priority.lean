/-!
# Priorities

Work on streams is handed over with a priority.  Priorities are ordered from the
most urgent to the least.
-/

set_option autoImplicit false

namespace SegmentedText

/-- How urgent a piece of work is. -/
inductive Priority where
  | urgent
  | important
  | ratherImportant
  | normal
  | ratherLessImportant
  | lessImportant
  | background
  deriving Repr, DecidableEq

namespace Priority

/-- All priorities, the most urgent first. -/
def all : List Priority :=
  [urgent, important, ratherImportant, normal, ratherLessImportant, lessImportant, background]

/-- The place of a priority among all, the most urgent first. -/
def rank : Priority → Nat
  | urgent => 0
  | important => 1
  | ratherImportant => 2
  | normal => 3
  | ratherLessImportant => 4
  | lessImportant => 5
  | background => 6

/-- How two priorities stand to each other; the more urgent one is the lesser. -/
def compare (p q : Priority) : Ordering := Ord.compare p.rank q.rank

/-- The name of a priority. -/
def name : Priority → String
  | urgent => "Urgent"
  | important => "Important"
  | ratherImportant => "RatherImportant"
  | normal => "Normal"
  | ratherLessImportant => "RatherLessImportant"
  | lessImportant => "LessImportant"
  | background => "Background"

/-- The priority of a name. -/
def ofName? (name : String) : Option Priority := all.find? (·.name == name)

instance : Inhabited Priority := ⟨normal⟩

theorem ofName?_name (p : Priority) : ofName? p.name = some p := by
  cases p <;> decide

end Priority

/-- Who runs a piece of work.  Either way it runs at once; a recorder also keeps its priority. -/
inductive Scheduler where
  | recording
  | inPlace
  deriving Repr, DecidableEq

/-- What is kept of a piece of work that was handed over. -/
def Scheduler.noted : Scheduler → Priority → List Priority
  | .recording, priority => [priority]
  | .inPlace, _ => []

end SegmentedText
