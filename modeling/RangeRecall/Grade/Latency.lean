import RangeRecall.Decimal.Text
import RangeRecall.Run.Basic

/-!
Statistics of latencies in milliseconds, and throughput. They depend on the
latencies as a multiset: the values are sorted before anything is computed.
-/

namespace RangeRecall

structure LatencyStats where
  count : Nat
  mean : Binary64
  p50 : Binary64
  p95 : Binary64
  p99 : Binary64
  least : Binary64
  greatest : Binary64
deriving DecidableEq

namespace Statistics

variable {α : Type} [RealArithmetic α]

/-- The rank that a percentage points at among `count` sorted values, before it is cut off at
the last one. -/
def rank (percentage : α) (count : Nat) : Nat :=
  RealArithmetic.roundToNat (RealArithmetic.multiply
    (RealArithmetic.divide percentage (RealArithmetic.ofNat 100))
    (RealArithmetic.ofNat (count - 1)))

def percentile (sorted : List α) (percentage : α) : α :=
  (sorted[min (rank percentage sorted.length) (sorted.length - 1)]?).getD
    (RealArithmetic.ofNat 0)

def total : List α → α
  | [] => RealArithmetic.ofNat 0
  | first :: rest => rest.foldl RealArithmetic.add first

def mean (values : List α) : α :=
  RealArithmetic.divide (total values) (RealArithmetic.ofNat values.length)

end Statistics

namespace LatencyStats

def empty : LatencyStats :=
  { count := 0, mean := .zero, p50 := .zero, p95 := .zero, p99 := .zero, least := .zero
    greatest := .zero }

def ofSorted (sorted : List Binary64) : LatencyStats :=
  match sorted with
  | [] => empty
  | first :: rest =>
    { count := sorted.length
      mean := Statistics.mean sorted
      p50 := Statistics.percentile sorted (Binary64.ofNat 50)
      p95 := Statistics.percentile sorted (Binary64.ofNat 95)
      p99 := Statistics.percentile sorted (Binary64.ofNat 99)
      least := first
      greatest := rest.getLast?.getD first }

def ofDurations (durations : List Duration) : LatencyStats :=
  ofSorted ((durations.map Duration.toMilliseconds).mergeSort Binary64.precedes)

def summary (stats : LatencyStats) : String :=
  "mean=" ++ stats.mean.fixedText 3 ++ "ms, p50=" ++ stats.p50.fixedText 3 ++ "ms, p95=" ++
    stats.p95.fixedText 3 ++ "ms, p99=" ++ stats.p99.fixedText 3 ++ "ms, max=" ++
    stats.greatest.fixedText 3 ++ "ms"

end LatencyStats

/-- Queries per second, zero without queries or without time. -/
def throughput (queries : Nat) (wallClock : Duration) : Binary64 :=
  if queries = 0 ∨ wallClock.toNanos = 0 then Binary64.zero
  else (Binary64.ofNat queries).divide wallClock.toSeconds

end RangeRecall
