import StudentGrades.Schema

/-!
# What the client library hands to the program

A statement is sent as text with its text parameters; a result is a status and
a table of cells, NULL or text. A null result pointer has the status of a fatal
error. A server session answers every statement it can read with some answer to
it on the content of the tables. A database with an encoding does so where its
encoding takes the parameters, and rejects the statement elsewhere.
-/

namespace StudentGrades
open ByteText Sql

inductive ExecStatusType
  | PGRES_EMPTY_QUERY
  | PGRES_COMMAND_OK
  | PGRES_TUPLES_OK
  | PGRES_COPY_OUT
  | PGRES_COPY_IN
  | PGRES_BAD_RESPONSE
  | PGRES_NONFATAL_ERROR
  | PGRES_FATAL_ERROR
  | PGRES_COPY_BOTH
  | PGRES_SINGLE_TUPLE
  | PGRES_PIPELINE_SYNC
  | PGRES_PIPELINE_ABORTED
deriving DecidableEq

structure Query where
  sql : Bytes
  params : List (Option Bytes)
deriving DecidableEq

structure PGresult where
  status : ExecStatusType
  tuples : List (List (Option Bytes))
deriving DecidableEq

/-- What `PQexec` or `PQexecParams` returns for a statement, `none` for a null pointer. -/
abbrev Exec := Query → Option PGresult

def PQresultStatus : Option PGresult → ExecStatusType
  | none => .PGRES_FATAL_ERROR
  | some res => res.status

def PQntuples (res : Option PGresult) : ℕ := (res.map fun r => r.tuples.length).getD 0

/-- The text of a cell, `none` where `PQgetisnull` holds; a position outside the
result reads as NULL. -/
def cell (res : Option PGresult) (row col : ℕ) : Option Bytes :=
  res.bind fun r => (r.tuples[row]?.bind fun t => t[col]?).join

def PGresult.ofRows (rows : List (List Value)) : PGresult :=
  ⟨.PGRES_TUPLES_OK, rows.map fun r => r.map Value.output⟩

/-- A session that answers by the meaning of the statement text, whatever the parameters,
as where the database has no encoding or its encoding takes them all. -/
structure Session (col : Collation) (db : Tables) where
  exec : Exec
  answers : ∀ q s, parse q.sql = some s →
    ∃ rows, s.Answer db.catalog q.params col rows ∧ exec q = some (.ofRows rows)

def Session.sorting (col : Collation) (db : Tables) : Session col db where
  exec q := match parse q.sql with
    | none => some ⟨.PGRES_FATAL_ERROR, []⟩
    | some s => some (.ofRows (s.answer db.catalog q.params col))
  answers q s h := ⟨_, s.answer_sound db.catalog q.params col, by simp only [h]⟩

/-- The texts that a database takes. In every server encoding an ASCII byte is a character. -/
structure Encoding where
  accepts : Bytes → Bool
  accepts_nil : accepts [] = true
  accepts_cons : ∀ b < 128, ∀ text, accepts (b :: text) = accepts text
  accepts_concat : ∀ b < 128, ∀ text, accepts (text ++ [b]) = accepts text

def Encoding.takes (e : Encoding) (q : Query) : Prop := ∀ text, some text ∈ q.params → e.accepts text = true

instance (e : Encoding) (q : Query) : Decidable (e.takes q) :=
  decidable_of_iff (∀ p ∈ q.params, p.all e.accepts = true) <| by
    simp only [Encoding.takes, Option.all_eq_true]
    exact ⟨fun h text hmem => h _ hmem text rfl, fun h p hmem text he => h text (he ▸ hmem)⟩

structure EncodedSession (e : Encoding) (col : Collation) (db : Tables) where
  exec : Exec
  answers : ∀ q s, parse q.sql = some s → e.takes q →
    ∃ rows, s.Answer db.catalog q.params col rows ∧ exec q = some (.ofRows rows)
  rejects : ∀ q, ¬ e.takes q → exec q = some ⟨.PGRES_FATAL_ERROR, []⟩

/-- The session as it would go on where the encoding stops it. -/
def EncodedSession.total {e : Encoding} {col : Collation} {db : Tables} (u : EncodedSession e col db) :
    Session col db where
  exec q := if e.takes q then u.exec q else (Session.sorting col db).exec q
  answers q s h := by
    by_cases htakes : e.takes q
    · simp only [if_pos htakes]
      exact u.answers q s h htakes
    · simp only [if_neg htakes]
      exact (Session.sorting col db).answers q s h

theorem EncodedSession.exec_total {e : Encoding} {col : Collation} {db : Tables}
    (u : EncodedSession e col db) {q : Query} (h : e.takes q) : u.total.exec q = u.exec q := if_pos h

def EncodedSession.sorting (e : Encoding) (col : Collation) (db : Tables) : EncodedSession e col db where
  exec q := if e.takes q then (Session.sorting col db).exec q else some ⟨.PGRES_FATAL_ERROR, []⟩
  answers q s h htakes := by
    simp only [if_pos htakes]
    exact (Session.sorting col db).answers q s h
  rejects q h := if_neg h

end StudentGrades
