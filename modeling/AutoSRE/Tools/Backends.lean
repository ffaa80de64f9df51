import AutoSRE.Tools.Registry
import Mathlib.Data.List.Dedup

/-!
# Terminating idle backends (`tools/postgres.py`)

- **The database** (`Database`). How each statement of one call ends, in any combination. Unless
  the connection is in autocommit mode, a statement that fails aborts the transaction, and every
  later statement fails too (`Database.execute`).
- **The tool** (`terminateIdleInTransaction`). The candidates, a `pg_terminate_backend` for each,
  and a recheck. Failures of the last two are swallowed.
- **The report** (`Truthful`). The terminated pids are candidates, each once; a verification that
  passed has seen a recheck without candidates. The report is truthful exactly when the recheck, if
  there is one, is answered (`truthful_iff`).
-/

namespace AutoSRE
namespace Tools

open Py

/-- How the statements of one call end. -/
structure Database where
  /-- Whether each statement is a transaction of its own. -/
  autocommit : Bool := false
  /-- `_connection(context)` and the entry of its `async with`. -/
  connection : Except PyExc Unit
  /-- The pids of `_IDLE_TX_CANDIDATE_SQL`. -/
  candidates : Except PyExc (List Int)
  /-- The first row of the `n`-th `pg_terminate_backend`, if there is one; a value may be NULL. -/
  terminate : Nat → Except PyExc (Option (Option Bool))
  /-- The pids of `_IDLE_TX_STILL_PRESENT_SQL`. -/
  recheck : Except PyExc (List Int)
  /-- The exit of the `async with`, which commits. -/
  commit : Except PyExc Unit
  /-- `pg_stat_activity` has one row for each server process. -/
  candidates_nodup : ∀ pids, candidates = .ok pids → pids.Nodup

/-- `TerminateBackendOutput`. -/
structure TerminateBackendOutput where
  pid : Option Int
  terminated : Bool
  reason : String
  terminatedPids : List Int
  terminatedCount : Nat
  candidatesFound : Nat
  stillIdleInTransaction : Nat
  success : Bool
  verificationPassed : Option Bool
  deriving DecidableEq, Repr

namespace Database

/-- What psycopg raises in an aborted transaction. -/
def inFailedSqlTransaction : PyExc :=
  .exception "InFailedSqlTransaction"
    "current transaction is aborted, commands ignored until end of transaction block"

/-- One statement that ends with `o`, and whether the transaction is aborted after it. -/
def execute {α : Type} (db : Database) (aborted : Bool) (o : Except PyExc α) :
    Except PyExc α × Bool :=
  if aborted then (.error inFailedSqlTransaction, true)
  else
    match o with
    | .ok a => (.ok a, false)
    | .error exc => (.error exc, !db.autocommit)

/-- The loop over the candidates, from the `n`-th on: the pids that were terminated, and whether
the transaction is aborted after it. -/
def terminateAll (db : Database) : Nat → List Int → Bool → List Int × Bool
  | _, [], aborted => ([], aborted)
  | n, pid :: pids, aborted =>
    let (row, aborted) := db.execute aborted (db.terminate n)
    let (terminatedPids, aborted) := db.terminateAll (n + 1) pids aborted
    match row with
    | .ok (some (some true)) => (pid :: terminatedPids, aborted)
    -- No row, NULL, false, or a failure: logged and skipped.
    | _ => (terminatedPids, aborted)

/-- The set of the pids in the rows of the recheck; a failure leaves it empty. -/
def stillPresent : Except PyExc (List Int) → List Int
  | .ok pids => pids.dedup
  | .error _ => []

end Database

/-- The output without candidates. -/
def nothingToDo (reason : String) : TerminateBackendOutput where
  pid := none
  terminated := false
  reason := reason
  terminatedPids := []
  terminatedCount := 0
  candidatesFound := 0
  stillIdleInTransaction := 0
  success := true
  verificationPassed := some true

/-- The output after the recheck. -/
def terminationReport (reason : String) (candidates terminatedPids still : List Int) :
    TerminateBackendOutput where
  pid := none
  terminated := decide (0 < terminatedPids.length)
  reason := reason
  terminatedPids := terminatedPids
  terminatedCount := terminatedPids.length
  candidatesFound := candidates.length
  stillIdleInTransaction := still.length
  success := true
  verificationPassed := some still.isEmpty

namespace Database

/-- The recheck as the connection answers it, after the loop over the candidates. -/
def recheckAnswer (db : Database) (pids : List Int) : Except PyExc (List Int) :=
  (db.execute (db.terminateAll 0 pids false).2 db.recheck).1

/-- The body of the `async with`. -/
def terminateBody (db : Database) (reason : String) : Except PyExc TerminateBackendOutput :=
  match (db.execute false db.candidates).1 with
  | .error exc => .error (toolExecutionError "terminate_backend" exc)
  | .ok [] => .ok (nothingToDo reason)
  | .ok pids =>
    .ok (terminationReport reason pids (db.terminateAll 0 pids false).1
      (stillPresent (db.recheckAnswer pids)))

/-- `_terminate_idle_in_transaction`. -/
def terminateIdleInTransaction (db : Database) (reason : String) :
    Except PyExc TerminateBackendOutput :=
  match db.connection with
  | .error exc => .error exc
  | .ok () =>
    match db.terminateBody reason, db.commit with
    | .error exc, _ => .error exc
    | .ok _, .error exc => .error exc
    | .ok out, .ok () => .ok out

theorem terminateAll_sublist (db : Database) (n : Nat) (pids : List Int) (aborted : Bool) :
    (db.terminateAll n pids aborted).1.Sublist pids := by
  induction pids generalizing n aborted with
  | nil => exact .slnil
  | cons pid pids ih =>
    unfold terminateAll
    simp only
    split
    · exact (ih _ _).cons_cons pid
    · exact (ih _ _).cons pid

theorem execute_aborted {α : Type} (db : Database) (aborted : Bool) (o : Except PyExc α) :
    (db.execute aborted o).2 = true ↔
      aborted = true ∨ db.autocommit = false ∧ ∃ exc, o = .error exc := by
  unfold execute
  cases aborted <;> cases o <;> simp

theorem execute_ok {α : Type} {db : Database} {aborted : Bool} {o : Except PyExc α} {a : α} :
    (db.execute aborted o).1 = .ok a ↔ aborted = false ∧ o = .ok a := by
  unfold execute
  cases aborted <;> cases o <;> simp

/-- The transaction is aborted after the loop when it was so before, or a statement failed. -/
theorem terminateAll_aborted (db : Database) (n : Nat) (pids : List Int) (aborted : Bool) :
    (db.terminateAll n pids aborted).2 = true ↔
      aborted = true ∨ db.autocommit = false ∧
        ∃ i < pids.length, ∃ exc, db.terminate (n + i) = .error exc := by
  induction pids generalizing n aborted with
  | nil => simp [terminateAll]
  | cons pid pids ih =>
    have hstep : (db.terminateAll n (pid :: pids) aborted).2 =
        (db.terminateAll (n + 1) pids (db.execute aborted (db.terminate n)).2).2 := by
      rw [terminateAll]
      simp only
      split <;> rfl
    rw [hstep, ih, execute_aborted, List.length_cons, Nat.exists_lt_succ_left]
    simp only [Nat.add_zero, Nat.add_right_comm n 1, Nat.add_assoc]
    tauto

/-- The recheck is answered: its query does not fail, and no statement before it has aborted the
transaction. -/
def Rechecked (db : Database) (pids : List Int) : Prop :=
  (∃ rows, db.recheck = .ok rows) ∧
    (db.autocommit = true ∨ ∀ i < pids.length, ∀ exc, db.terminate i ≠ .error exc)

theorem rechecked_iff (db : Database) (pids : List Int) :
    db.Rechecked pids ↔ ∃ rows, db.recheckAnswer pids = .ok rows := by
  have habort := db.terminateAll_aborted 0 pids false
  simp only [Bool.false_eq_true, false_or, Nat.zero_add] at habort
  unfold recheckAnswer
  simp only [execute_ok, ← Bool.not_eq_true, habort]
  constructor
  · rintro ⟨⟨rows, hrows⟩, hlive⟩
    refine ⟨rows, ?_, hrows⟩
    rintro ⟨hauto, i, hi, exc, hexc⟩
    rcases hlive with h | h
    · exact hauto h
    · exact h i hi exc hexc
  · rintro ⟨rows, hlive, hrows⟩
    refine ⟨⟨rows, hrows⟩, ?_⟩
    cases hauto : db.autocommit with
    | true => exact .inl rfl
    | false => exact .inr fun i hi exc hexc => hlive ⟨by simp [hauto], i, hi, exc, hexc⟩

/-- A call that returns has the report of its candidates. -/
theorem terminate_ok_iff {db : Database} {reason : String} {out : TerminateBackendOutput} :
    db.terminateIdleInTransaction reason = .ok out ↔
      db.connection = .ok () ∧ db.commit = .ok () ∧ ∃ pids, db.candidates = .ok pids ∧
        out = if pids = [] then nothingToDo reason
          else terminationReport reason pids (db.terminateAll 0 pids false).1
            (stillPresent (db.recheckAnswer pids)) := by
  unfold terminateIdleInTransaction terminateBody execute
  cases hc : db.connection with
  | error exc => simp
  | ok u =>
    cases hk : db.candidates with
    | error exc => simp
    | ok pids =>
      cases hm : db.commit with
      | error exc => cases pids <;> simp
      | ok u => cases pids <;> simp [eq_comm]

end Database

/-- What the report of a call promises. -/
structure Truthful (db : Database) (out : TerminateBackendOutput) : Prop where
  /-- A passed verification has seen a recheck without candidates, or there were none. -/
  verified : out.verificationPassed = some true →
    ∃ pids, db.candidates = .ok pids ∧
      (pids = [] ∨ ∃ rows, db.recheckAnswer pids = .ok rows ∧ ∀ pid ∈ pids, pid ∉ rows)
  /-- The terminated pids are candidates. -/
  terminated : ∃ pids, db.candidates = .ok pids ∧ out.terminatedPids ⊆ pids
  nodup : out.terminatedPids.Nodup
  count : out.terminatedCount = out.terminatedPids.length

/-- Whatever the database answers, the terminated pids are candidates, each once, and counted. -/
theorem truthful_of_verified {db : Database} {reason : String} {out : TerminateBackendOutput}
    (h : db.terminateIdleInTransaction reason = .ok out)
    (hv : out.verificationPassed = some true → ∃ pids, db.candidates = .ok pids ∧
      (pids = [] ∨ ∃ rows, db.recheckAnswer pids = .ok rows ∧ ∀ pid ∈ pids, pid ∉ rows)) :
    Truthful db out := by
  obtain ⟨-, -, pids, hpids, rfl⟩ := Database.terminate_ok_iff.mp h
  have hsub := db.terminateAll_sublist 0 pids false
  refine ⟨hv, ⟨pids, hpids, ?_⟩, ?_, ?_⟩
  · split
    · exact List.nil_subset _
    · exact hsub.subset
  · split
    · exact List.nodup_nil
    · exact hsub.nodup (db.candidates_nodup pids hpids)
  · split <;> rfl

/-- The report is truthful exactly when the recheck, if one is made, is answered. -/
theorem truthful_iff (db : Database) (reason : String) :
    (∀ out, db.terminateIdleInTransaction reason = .ok out → Truthful db out) ↔
      ∀ pids, db.connection = .ok () → db.commit = .ok () → db.candidates = .ok pids →
        pids ≠ [] → db.Rechecked pids := by
  constructor
  · intro h pids hconn hcommit hpids hne
    rw [Database.rechecked_iff]
    have hout := h _ (Database.terminate_ok_iff.mpr ⟨hconn, hcommit, pids, hpids, rfl⟩)
    cases hr : db.recheckAnswer pids with
    | ok rows => exact ⟨rows, rfl⟩
    | error exc =>
      -- The failure leaves the set empty, so the verification passes without a recheck.
      obtain ⟨pids', hpids', hnil | ⟨rows, hrows, -⟩⟩ := hout.verified (by
        rw [if_neg hne, hr]
        rfl)
      · rw [hpids] at hpids'
        cases hpids'
        exact absurd hnil hne
      · rw [hpids] at hpids'
        cases hpids'
        rw [hr] at hrows
        cases hrows
  · intro h out hout
    refine truthful_of_verified hout fun hv => ?_
    obtain ⟨hconn, hcommit, pids, hpids, rfl⟩ := Database.terminate_ok_iff.mp hout
    refine ⟨pids, hpids, ?_⟩
    by_cases hne : pids = []
    · exact .inl hne
    · obtain ⟨rows, hrows⟩ := (db.rechecked_iff pids).mp (h pids hconn hcommit hpids hne)
      rw [if_neg hne, hrows] at hv
      have hempty : rows.dedup = [] := by
        simpa [terminationReport, Database.stillPresent] using hv
      refine .inr ⟨rows, hrows, fun pid _ hmem => ?_⟩
      have hdedup := List.mem_dedup.mpr hmem
      rw [hempty] at hdedup
      cases hdedup

/-- One superuser session is idle in a transaction, and may not be terminated. -/
def superuserSession : Database where
  connection := .ok ()
  candidates := .ok [4711]
  terminate := fun _ => .error (.exception "InsufficientPrivilege"
    "permission denied to terminate process")
  recheck := .ok [4711]
  commit := .ok ()
  candidates_nodup := fun pids h => by
    cases h
    exact List.nodup_singleton _

/-- The failed termination aborts the transaction, so the recheck fails, and the verification
passes although the only candidate is still there. -/
theorem failed_recheck_verified :
    ∃ out, superuserSession.terminateIdleInTransaction "pool exhausted" = .ok out ∧
      out.verificationPassed = some true ∧ ¬ Truthful superuserSession out := by
  refine ⟨terminationReport "pool exhausted" [4711] [] [], rfl, rfl, fun h => ?_⟩
  obtain ⟨pids, hpids, hnil | ⟨rows, hrows, -⟩⟩ := h.verified rfl
  · cases hpids
    cases hnil
  · cases hpids
    cases hrows

end Tools
end AutoSRE
