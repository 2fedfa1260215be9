import ConnectionPool.Config.Basic

/-!
# Statistics

A tally holds the counts and the lengths of time that a pool adds up over its life. A pool's
metrics are its configuration, how many connections it holds, its tally and its age. A mean is cut
to whole nanoseconds, is zero when nothing was counted, and is at most the greatest 64-bit word.
-/

set_option autoImplicit false

namespace ConnectionPool

structure Tally where
  requests : Nat := 0
  requestTime : Nat := 0
  checkoutTime : Nat := 0
  /-- Leases taken over because they were overdue. -/
  claimed : Nat := 0
  claimedTime : Nat := 0
  /-- Acquisitions that found the pool saturated. -/
  waits : Nat := 0
  waitTime : Nat := 0
  bad : Nat := 0
  deriving DecidableEq, Repr

def mean (total : Nat) (count : Nat) : Nat := min (total / count) (UInt64.size - 1)

namespace Tally

def meanRequest (t : Tally) : Nat := mean t.requestTime t.requests

def meanWait (t : Tally) : Nat := mean t.waitTime t.waits

def meanCheckout (t : Tally) : Nat := mean t.checkoutTime t.requests

def meanClaimed (t : Tally) : Nat := mean t.claimedTime t.claimed

def addRequest (time : Nat) (t : Tally) : Tally :=
  { t with requests := t.requests + 1, requestTime := t.requestTime + time }

def addClaim (held : Nat) (t : Tally) : Tally :=
  { t with
    claimed := t.claimed + 1
    claimedTime := t.claimedTime + held
    checkoutTime := t.checkoutTime + held }

def addCheckout (held : Nat) (t : Tally) : Tally :=
  { t with checkoutTime := t.checkoutTime + held }

def addWait (t : Tally) : Tally := { t with waits := t.waits + 1 }

def addWaitTime (time : Nat) (t : Tally) : Tally := { t with waitTime := t.waitTime + time }

def addBad (t : Tally) : Tally := { t with bad := t.bad + 1 }

end Tally

structure Metrics where
  config : Config
  active : Nat
  idle : Nat
  tally : Tally
  uptime : Nat
  deriving DecidableEq, Repr

namespace Metrics

def shownPassword (password : String) : String :=
  if password.isEmpty then "NULL" else "************"

def title (name : String) : String :=
  "===" ++ name ++ String.ofList (List.replicate (59 - name.length) '=')

def row (label value : String) : String :=
  " " ++ label ++ String.ofList (List.replicate (28 - label.length) ' ') ++ value

def report (m : Metrics) : String :=
  String.intercalate "\n" [
    title "CONFIGURATION",
    row "url" m.config.url,
    row "username" m.config.username,
    row "password" (shownPassword m.config.password),
    row "max active connections" (toString m.config.maxActive),
    row "max idle connections" (toString m.config.maxIdle),
    row "max checkout time" (Nanos.text m.config.maxCheckout),
    row "time to wait" (Nanos.text m.config.timeToWait),
    row "ping enabled" (toString m.config.pingEnabled),
    row "ping query" m.config.pingQuery,
    row "ping not used for" (Nanos.text m.config.pingUnusedFor),
    title "STATUS",
    row "active connections" (toString m.active),
    row "idle connections" (toString m.idle),
    title "STATISTICS",
    row "request count" (toString m.tally.requests),
    row "average request time" (Nanos.text m.tally.meanRequest),
    row "average checkout time" (Nanos.text m.tally.meanCheckout),
    row "claimed overdue" (toString m.tally.claimed),
    row "average overdue checkout" (Nanos.text m.tally.meanClaimed),
    row "had to wait" (toString m.tally.waits),
    row "average wait time" (Nanos.text m.tally.meanWait),
    row "bad connections" (toString m.tally.bad),
    row "uptime" (Nanos.text m.uptime)]

end Metrics

end ConnectionPool
