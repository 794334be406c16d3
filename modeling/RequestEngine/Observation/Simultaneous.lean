/-
  RequestEngine.Observation.Simultaneous

  Things that happen together have no order of their own. Where a record lists
  them one after the other, they are put in the order of a key, so that the
  record is the same whichever of them came first.
-/

namespace RequestEngine

/-- Whether a list of texts stands before another one in the dictionary, or is the same. -/
def notAfter (a b : List String) : Bool :=
  !b.lex a

/-- Sorts every maximal run of neighbours that belong together. -/
def sortRuns (together le : α → α → Bool) (entries : List α) : List α :=
  (entries.splitBy together).flatMap fun run => run.mergeSort le

end RequestEngine
