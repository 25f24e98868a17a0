/-
Call accounting.

For every program the log counts the calls, the calls that an artifact served, and for every guard
how often it rejected an artifact.  The counts are natural numbers without a bound.  Counters of 64
bits agree with them below 2 ^ 64; from there on the counts of calls would start again at 0, and the
rejections of a guard would stay at the greatest word.
-/
import GuardedTrace.Table

namespace GuardedTrace

/-- The counts of one program. -/
structure CallStats where
  /-- Calls that an artifact served. -/
  ok : Nat := 0
  /-- All calls. -/
  total : Nat := 0
  /-- Rejections by the written form of the guard, in the order of these texts. -/
  guardFailures : Table String Nat := []
deriving DecidableEq

/-- The calls that no artifact served. -/
def CallStats.fallbacks (stats : CallStats) : Nat := stats.total - stats.ok

/-- The counts of every program seen, in the order of the numbers of the programs. -/
abbrev CallLog : Type := Table Nat CallStats

namespace CallLog

/-- The counts of a program; all zero when it was never seen. -/
def stats (log : CallLog) (code : Nat) : CallStats := (log.lookup code).getD {}

/-- Changes the counts of a program. -/
def update (log : CallLog) (code : Nat) (change : CallStats → CallStats) : CallLog :=
  Table.putOrdered compare code (change (log.stats code)) log

/-- Counts a call. -/
def recordCall (log : CallLog) (code : Nat) : CallLog :=
  log.update code fun stats => { stats with total := stats.total + 1 }

/-- Counts a call that an artifact served. -/
def recordOk (log : CallLog) (code : Nat) : CallLog :=
  log.update code fun stats => { stats with ok := stats.ok + 1 }

/-- Counts a rejection by a guard. -/
def recordGuardFailure (log : CallLog) (code : Nat) (guard : String) : CallLog :=
  log.update code fun stats =>
    { stats with
      guardFailures := Table.putOrdered compare guard
        ((stats.guardFailures.lookup guard).getD 0 + 1) stats.guardFailures }

/-- Forgets the counts of a program. -/
def resetCode (log : CallLog) (code : Nat) : CallLog := log.erase code

end CallLog

end GuardedTrace
