/-
  RequestEngine.Duration

  Spans of time, exact to the nanosecond. In messages a span is written in the
  largest of the units s, ms, µs and ns in which it is at least 1, with its exact
  decimal fraction, trailing zeros dropped.
-/

namespace RequestEngine

/-- A span of time. -/
structure Duration where
  nanos : Nat
  deriving DecidableEq, Repr, Inhabited, Ord

namespace Duration

instance : LE Duration := ⟨fun a b => a.nanos ≤ b.nanos⟩
instance : LT Duration := ⟨fun a b => a.nanos < b.nanos⟩
instance : DecidableLE Duration := fun a b => inferInstanceAs (Decidable (a.nanos ≤ b.nanos))
instance : DecidableLT Duration := fun a b => inferInstanceAs (Decidable (a.nanos < b.nanos))

/-- Whole milliseconds. -/
def ofMillis (ms : Nat) : Duration :=
  ⟨ms * 1000000⟩

/-- Whole seconds and nanoseconds. -/
def ofSecs (secs nanos : Nat) : Duration :=
  ⟨secs * 1000000000 + nanos⟩

/-- The whole milliseconds of a span. -/
def millis (d : Duration) : Nat :=
  d.nanos / 1000000

/-- The digits of `rest / 10 ^ places` after the point, trailing zeros dropped. -/
def fractionDigits (places rest : Nat) : List Char :=
  let digits := Nat.toDigits 10 rest
  let padded := List.replicate (places - digits.length) '0' ++ digits
  (padded.reverse.dropWhile (· == '0')).reverse

/-- A number of units of `10 ^ places` nanoseconds. -/
def inUnit (nanos places : Nat) (unit : String) : String :=
  let fraction := fractionDigits places (nanos % Nat.pow 10 places)
  let pointed := if fraction.isEmpty then "" else "." ++ String.ofList fraction
  toString (nanos / Nat.pow 10 places) ++ pointed ++ unit

/-- The written form of a span. -/
def text (d : Duration) : String :=
  if 1000000000 ≤ d.nanos then inUnit d.nanos 9 "s"
  else if 1000000 ≤ d.nanos then inUnit d.nanos 6 "ms"
  else if 1000 ≤ d.nanos then inUnit d.nanos 3 "µs"
  else inUnit d.nanos 0 "ns"

end Duration

/-! ## Points in time -/

/-- A point in time, as the span since the start of the clock. -/
structure Instant where
  sinceStart : Duration
  deriving DecidableEq, Repr, Inhabited

namespace Instant

instance : LE Instant := ⟨fun a b => a.sinceStart ≤ b.sinceStart⟩
instance : LT Instant := ⟨fun a b => a.sinceStart < b.sinceStart⟩
instance : DecidableLE Instant :=
  fun a b => inferInstanceAs (Decidable (a.sinceStart ≤ b.sinceStart))
instance : DecidableLT Instant :=
  fun a b => inferInstanceAs (Decidable (a.sinceStart < b.sinceStart))

/-- The start of the clock. -/
def start : Instant :=
  ⟨⟨0⟩⟩

/-- The point a span later. -/
def after (t : Instant) (d : Duration) : Instant :=
  ⟨⟨t.sinceStart.nanos + d.nanos⟩⟩

/-- The span from `earlier` to `later`, zero if they are the other way round. -/
def since (later earlier : Instant) : Duration :=
  ⟨later.sinceStart.nanos - earlier.sinceStart.nanos⟩

/-- Whole milliseconds since the start. -/
def millis (t : Instant) : Nat :=
  t.sinceStart.millis

/-- The later of two points. -/
def later (a b : Instant) : Instant :=
  if a ≤ b then b else a

end Instant

end RequestEngine
