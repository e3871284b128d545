import Mathlib.Data.List.Basic

/-!
# The part of a gorm statement that decides whether it locks rows

`tx.Set(name, value)` puts a setting next to the statement, for callbacks and
plugins to look up; `tx.Clauses(…)` puts a clause into it.  gorm v1.25.2 writes
`FOR UPDATE` after a `SELECT` only for a `clause.Locking`.
-/

namespace Gorm

/-- Clauses a caller may add to a statement; `locking` is `clause.Locking`. -/
inductive Clause
  | where_ (cond : String)
  | locking (strength : String)
  deriving DecidableEq

/-- A `*gorm.DB` under construction. -/
structure Tx where
  settings : List (String × String) := []
  clauses : List Clause := []
  deriving DecidableEq

def Tx.set (tx : Tx) (name value : String) : Tx :=
  { tx with settings := (name, value) :: tx.settings }

def Tx.addClause (tx : Tx) (c : Clause) : Tx := { tx with clauses := tx.clauses ++ [c] }

/-- The statement ends in a locking clause. -/
def Tx.emitsLock (tx : Tx) : Bool :=
  tx.clauses.any fun c => match c with
    | .locking _ => true
    | .where_ _ => false

/-- The locks a `SELECT` takes on the rows it reads. -/
def Tx.rowLocks {ℓ : Type} (tx : Tx) (rows : List ℓ) : List ℓ := if tx.emitsLock then rows else []

/-- The `SELECT … FOR UPDATE` of this code base: the v1 query option and a
condition. -/
def selectForUpdate (cond : String) : Tx :=
  (Tx.set {} "gorm:query_option" "FOR UPDATE").addClause (.where_ cond)

end Gorm
