/-
The counts of calls.

A log has increasing program numbers, and the rejections of a program stand under increasing texts;
every change of the counts of one program keeps this.  A sum over all programs then changes by what
the counts of that program change.
-/
import GuardedTrace.Gate.CallLog
import GuardedTrace.Guard.Basic
import GuardedTrace.Proofs.IncreasingTables

namespace GuardedTrace

/-- Counts a rejection by a guard of this text. -/
def CallStats.reject (stats : CallStats) (text : String) : CallStats :=
  { stats with
    guardFailures := Table.putOrdered compare text ((stats.guardFailures.lookup text).getD 0 + 1)
      stats.guardFailures }

/-- The rejections of artifacts of a program by any guard. -/
def CallStats.rejections (stats : CallStats) : Nat := Table.total id stats.guardFailures

namespace CallLog

variable {log : CallLog} {code : Nat} {change : CallStats → CallStats}

lemma stats_update (log : CallLog) (code other : Nat) (change : CallStats → CallStats) :
    (log.update code change).stats other = if other = code then change (log.stats code)
      else log.stats other := by
  rw [stats, update, Table.lookup_putOrdered Table.linear_compare]
  split <;> rfl

/-- Rejections of artifacts of a program are counted one after the other. -/
lemma stats_rejections (log : CallLog) (code other : Nat) (guards : List Guard) :
    (guards.foldl (fun log guard => log.recordGuardFailure code guard.written) log).stats other =
      if other = code then guards.foldl
        (fun stats guard => stats.reject guard.written) (log.stats code)
      else log.stats other := by
  induction guards generalizing log with
  | nil =>
    split
    · next hother => rw [hother]; rfl
    · rfl
  | cons guard rest ih =>
    have hfirst : ∀ other, (log.recordGuardFailure code guard.written).stats other =
        if other = code then (log.stats code).reject guard.written else log.stats other :=
      fun other => stats_update log code other _
    rw [List.foldl_cons, ih, hfirst, hfirst, if_pos rfl]
    split <;> rfl

/-- Program numbers are increasing, and so are the texts of the rejections of each program. -/
structure Arranged (log : CallLog) : Prop where
  codes : Table.Increasing compare log
  texts : ∀ code, Table.Increasing compare (log.stats code).guardFailures

lemma arranged_nil : Arranged [] := ⟨.nil, fun _ => .nil⟩

lemma Arranged.update (h : log.Arranged)
    (hchange : Table.Increasing compare (change (log.stats code)).guardFailures) :
    (log.update code change).Arranged := by
  refine ⟨Table.increasing_putOrdered Table.linear_compare h.codes _ _, fun other => ?_⟩
  rw [stats_update]
  split
  · exact hchange
  · exact h.texts other

/-- A sum over all programs changes by what a program's part of it changes. -/
lemma Arranged.total_update (h : log.Arranged) {f : CallStats → Nat} (hf : f {} = 0) (code : Nat)
    (change : CallStats → CallStats) :
    Table.total f (log.update code change) + f (log.stats code) =
      Table.total f log + f (change (log.stats code)) := by
  have hold : ((log.lookup code).map f).getD 0 = f (log.stats code) := by
    unfold stats
    cases log.lookup code with
    | none => exact hf.symm
    | some found => rfl
  rw [← hold]
  exact Table.total_putOrdered Table.linear_compare h.codes f code _

lemma Arranged.recordCall (h : log.Arranged) (code : Nat) : (log.recordCall code).Arranged :=
  h.update (h.texts code)

lemma Arranged.recordOk (h : log.Arranged) (code : Nat) : (log.recordOk code).Arranged :=
  h.update (h.texts code)

lemma Arranged.recordGuardFailure (h : log.Arranged) (code : Nat) (guard : String) :
    (log.recordGuardFailure code guard).Arranged :=
  h.update (Table.increasing_putOrdered Table.linear_compare (h.texts code) _ _)

end CallLog

end GuardedTrace
