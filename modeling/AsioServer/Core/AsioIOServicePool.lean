/-
AsioServer.Core.AsioIOServicePool — the I/O contexts and how they are handed out.

Translated from `core/session/AsioIOServicePool.cpp`. Each context has a work
guard and a thread of its own; `GetIOServive` goes round the contexts with an
atomic counter that wraps at 2^64, and a division by zero is `none`.
-/
import AsioServer.Config.ConfigManager

namespace AsioServer.Core

open AsioServer.Config

/-- `AsioIOServicePool`: the number of contexts, the counter and the modulus. -/
structure AsioIOServicePool where
  ioServices : Nat
  nextIndex : Nat
  maxSize : Nat
  deriving DecidableEq, Repr

namespace AsioIOServicePool

/-- The constructor. -/
def new (size : Nat) : AsioIOServicePool :=
  { ioServices := size, nextIndex := 0, maxSize := size }

/-- `GetIOServive`, with the index it answers. -/
def getIOServive (pool : AsioIOServicePool) : Option (Nat × AsioIOServicePool) :=
  if pool.maxSize = 0 then none
  else some (pool.nextIndex % pool.maxSize,
    { pool with nextIndex := (pool.nextIndex + 1) % 2 ^ 64 })

/-- The size that `GetInstance` decides on, from `hardware_concurrency()`. -/
def poolSize (hardwareConcurrency : Nat) (config : ConfigManager) : Nat :=
  let maxSize := hardwareConcurrency
  let setSize := config.threadPoolSize
  if setSize > 0 ∧ setSize ≤ maxSize then setSize else maxSize / 2

/-- `GetInstance`, when it is first called. -/
def getInstance (hardwareConcurrency : Nat) (config : ConfigManager) : AsioIOServicePool :=
  new (poolSize hardwareConcurrency config)

end AsioIOServicePool

end AsioServer.Core
