import FormRules.Database.Address
import FormRules.Store

/-!
# The database

The pool of connections to a database. A pool that was closed stays closed, and then nothing that
needs a connection succeeds.
-/

namespace FormRules.Database

/-- Why something was not done with a database. -/
inductive DatabaseError where
  /-- The URL of the database was refused. -/
  | configuration
  /-- The pool is closed. -/
  | poolClosed
  /-- The statements of a migration were not executed. -/
  | execute
deriving DecidableEq

namespace DatabaseError

/-- What is told of a closed pool. -/
def closedText : String := "attempted to acquire a connection on a closed pool"

end DatabaseError

/-- A pool of connections. -/
structure Pool where
  isClosed : Bool
deriving DecidableEq

namespace Pool

/-- A pool before its first connection. -/
def unopened : Pool := ⟨false⟩

/-- The pool after it was closed. -/
def close (_ : Pool) : Pool := ⟨true⟩

/-- The pool at a URL, unless the URL is refused. -/
def connect (text : String) : Except DatabaseError Pool :=
  if (Url.ofText? text.toList).any accepts then .ok unopened else .error .configuration

/-- Whether the database answers. -/
def health (pool : Pool) : Except DatabaseError Unit :=
  if pool.isClosed then .error .poolClosed else .ok ()

/-- Brings the tables of the database up to date. -/
def migrate (pool : Pool) : Except DatabaseError Unit :=
  if pool.isClosed then .error .execute else .ok ()

/-- The outages of a store behind the pool: every call fails if the pool is closed. -/
def outages (pool : Pool) : Outages :=
  if pool.isClosed then .total DatabaseError.closedText else .none

end Pool
end FormRules.Database
