import RangeRecall.Failure
import RangeRecall.Numeric.Binary64
import RangeRecall.Query.Basic

/-!
What a run of queries leaves behind: one record per query, in the order of
issue, and the time that the whole run took. Times are spans of whole
nanoseconds.
-/

namespace RangeRecall

def nanosPerSecond : Nat := 1000000000

structure Duration where
  seconds : Nat
  nanos : Nat
  seconds_lt : seconds < wordLimit
  nanos_lt : nanos < 1000000000
deriving DecidableEq

namespace Duration

def zero : Duration :=
  { seconds := 0, nanos := 0, seconds_lt := by decide, nanos_lt := by decide }

def ofNanos? (total : Nat) : Option Duration :=
  if fits : total / 1000000000 < wordLimit then
    some {
      seconds := total / 1000000000
      nanos := total % 1000000000
      seconds_lt := fits
      nanos_lt := Nat.mod_lt _ (by decide) }
  else none

def ofParts? (seconds nanos : Nat) : Option Duration :=
  ofNanos? (seconds * nanosPerSecond + nanos)

def toNanos (duration : Duration) : Nat :=
  duration.seconds * nanosPerSecond + duration.nanos

def totalNanos : List Duration → Nat
  | [] => 0
  | duration :: rest => duration.toNanos + totalNanos rest

def sum (durations : List Duration) : Except Fault Duration :=
  match ofNanos? (totalNanos durations) with
  | some total => .ok total
  | none => .error .arithmeticOverflow

/-- The span in seconds: the whole seconds plus the fraction, each rounded. -/
def toSeconds [RealArithmetic α] (duration : Duration) : α :=
  RealArithmetic.add (RealArithmetic.ofNat duration.seconds)
    (RealArithmetic.divide (RealArithmetic.ofNat duration.nanos)
      (RealArithmetic.ofNat nanosPerSecond))

def toMilliseconds [RealArithmetic α] (duration : Duration) : α :=
  RealArithmetic.multiply duration.toSeconds (RealArithmetic.ofNat 1000)

end Duration

/-! ## Runs -/

structure ExecutionRecord where
  index : Nat
  strategy : ScanStrategy
  latency : Duration
  resultIds : List UInt64
deriving DecidableEq

structure ExecutionRun where
  strategy : ScanStrategy
  records : List ExecutionRecord
  wallClock : Duration
deriving DecidableEq

namespace ExecutionRun

def latencies (run : ExecutionRun) : List Duration :=
  run.records.map ExecutionRecord.latency

/-- The sum of the latencies, without the time between queries. -/
def totalLatency (run : ExecutionRun) : Except Fault Duration :=
  Duration.sum run.latencies

end ExecutionRun

end RangeRecall
