/-!
# Source spans

Where a node was written: a file number and a half-open range of byte offsets.
Diagnostics print spans as `file:F:S..E`.

Offsets are 32-bit words.  Moving an offset past the largest word is not a
span any more, so `Span.advanceStart` and `Span.advanceStop` answer `none`
there.
-/

namespace Emitter

/-- A half-open byte range of one source file. -/
structure Span where
  file : UInt32 := 0
  start : UInt32 := 0
  stop : UInt32 := 0
deriving DecidableEq, Repr, Inhabited

namespace Span

/-- The number of bytes covered.  A range that ends before it starts covers
none. -/
def length (s : Span) : UInt32 :=
  if s.start ≤ s.stop then s.stop - s.start else 0

/-- A range that does not reach past its start covers nothing. -/
def isEmpty (s : Span) : Bool :=
  decide (s.stop ≤ s.start)

/-- The smallest range of the first span's file that covers both. -/
def merge (s other : Span) : Span :=
  { file := s.file, start := min s.start other.start, stop := max s.stop other.stop }

/-- An offset moved forward, unless the sum does not fit a word. -/
def advance (offset by_ : UInt32) : Option UInt32 :=
  if offset.toNat + by_.toNat < UInt32.size then some (offset + by_) else none

/-- The span with its start moved forward. -/
def advanceStart (s : Span) (by_ : UInt32) : Option Span :=
  (advance s.start by_).map fun start => { s with start }

/-- The span with its end moved forward. -/
def advanceStop (s : Span) (by_ : UInt32) : Option Span :=
  (advance s.stop by_).map fun stop => { s with stop }

/-- The form in which diagnostics name a span. -/
def text (s : Span) : String :=
  "file:" ++ s.file.toNat.repr ++ ":" ++ s.start.toNat.repr ++ ".." ++ s.stop.toNat.repr

end Span

end Emitter
