import ConnectionPool.Pool.Basic

/-!
# Builders

A builder gathers a configuration and a driver. A pool can be built from it when it has a driver
and its configuration is usable; that a driver is missing is reported first.
-/

set_option autoImplicit false

namespace ConnectionPool

structure Builder (σ : Type) where
  config : Config := {}
  driver : Option σ := none

namespace Builder

variable {σ : Type}

def withDriver (driver : σ) (b : Builder σ) : Builder σ := { b with driver := some driver }

def withConfig (config : Config) (b : Builder σ) : Builder σ := { b with config }

def change (changes : List Config.Change) (b : Builder σ) : Builder σ :=
  { b with config := b.config.changeAll changes }

def build (b : Builder σ) : Except ConfigError (Pool σ) :=
  match b.driver with
  | none => .error .noDriver
  | some driver => Pool.create driver b.config

end Builder

end ConnectionPool
