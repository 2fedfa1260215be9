import ConnectionPool.Text.Record

/-!
# Occupancy

How many connections a pool holds and how many it may hold. The utilization is the percentage of
the active connections allowed that are active, computed in double precision; the counts are
rounded to the nearest double first.
-/

set_option autoImplicit false

namespace ConnectionPool

structure Occupancy where
  idle : UInt64
  active : UInt64
  maxActive : UInt64
  maxIdle : UInt64
  deriving DecidableEq, Repr

namespace Occupancy

def utilization (o : Occupancy) : Float :=
  if o.maxActive = 0 then 0 else o.active.toFloat / o.maxActive.toFloat * 100

def atCapacity (o : Occupancy) : Bool := o.maxActive ≤ o.active

def text (o : Occupancy) : String :=
  Text.record "PoolStatus" [
    ⟨"idle", toString o.idle⟩,
    ⟨"active", toString o.active⟩,
    ⟨"max_active", toString o.maxActive⟩,
    ⟨"max_idle", toString o.maxIdle⟩]

end Occupancy

end ConnectionPool
