import TgWsProxy.Foundation.Machine
import TgWsProxy.Foundation.Text

/-!
# Connection limits from the descriptor budget

`limits.rs`: how many clients may be connected at a time, from the soft limit on open
files and from what the pool may hold.
-/

namespace TgWsProxy.Server

open Foundation.Machine
open Foundation (Text)

def defaultNofileLimit : Nat := 1024

def unlimitedMaxConnections : Nat := 512

/-- Descriptors for the Tokio runtime, stdio and a safety margin. -/
def runtimeReservedFds : Nat := 32

/-- One inbound and one outbound. -/
def fdsPerConnection : Nat := 2

/-- The idle connection and one refill in flight. -/
def fdsPerPoolSlot : Nat := 2

def minMaxConnections : Nat := 4

/-- The field of one line of `/proc/self/limits`, if it is the line and a limit stands there. -/
def softLimitOf (width : PointerWidth) (line : Text) : Option Nat :=
  if List.isPrefixOf "Max open files".toList line then
    match (Text.splitWhitespace line)[3]? with
    | none => none
    | some soft =>
        if soft = "unlimited".toList then some width.usizeMax
        else Text.parseUnsigned 10 width.usizeMax soft
  else none

/-- `soft_nofile_limit`; nothing is given where the file cannot be read. -/
def softNofileLimit (width : PointerWidth) (content : Option Text) : Nat :=
  (content.bind fun text => (Text.lines text).findSome? (softLimitOf width)).getD
    defaultNofileLimit

def autoMaxConnections (width : PointerWidth) (fdLimit poolSize dcBuckets : Nat) : Nat :=
  if fdLimit = width.usizeMax then unlimitedMaxConnections
  else
    let poolFds := width.saturatingMul (width.saturatingMul poolSize dcBuckets) fdsPerPoolSlot
    let reserved := width.saturatingAdd (width.saturatingAdd 1 poolFds) runtimeReservedFds
    max ((fdLimit - reserved) / fdsPerConnection) minMaxConnections

/-- Where the reserve and the smallest number of clients fit into the limit, the budget adds
up: nothing saturates, and the floor does not raise the number. -/
theorem autoMaxConnections_budget {width : PointerWidth} {fdLimit poolSize dcBuckets : Nat}
    (hlimit : fdLimit < width.usizeMax)
    (hroom : 1 + poolSize * dcBuckets * fdsPerPoolSlot + runtimeReservedFds +
      fdsPerConnection * minMaxConnections ≤ fdLimit) :
    1 + fdsPerConnection * autoMaxConnections width fdLimit poolSize dcBuckets +
      poolSize * dcBuckets * fdsPerPoolSlot + runtimeReservedFds ≤ fdLimit := by
  simp only [fdsPerPoolSlot, runtimeReservedFds, fdsPerConnection, minMaxConnections] at hroom
  have hslots : width.saturatingMul poolSize dcBuckets = poolSize * dcBuckets :=
    width.saturatingMul_of_le (by omega)
  have hfds : width.saturatingMul (poolSize * dcBuckets) 2 = poolSize * dcBuckets * 2 :=
    width.saturatingMul_of_le (by omega)
  have hlistener : width.saturatingAdd 1 (poolSize * dcBuckets * 2) =
      1 + poolSize * dcBuckets * 2 := width.saturatingAdd_of_le (by omega)
  have hreserved : width.saturatingAdd (1 + poolSize * dcBuckets * 2) 32 =
      1 + poolSize * dcBuckets * 2 + 32 := width.saturatingAdd_of_le (by omega)
  unfold autoMaxConnections
  rw [if_neg (Nat.ne_of_lt hlimit)]
  simp only [fdsPerPoolSlot, runtimeReservedFds, fdsPerConnection, minMaxConnections, hslots, hfds,
    hlistener, hreserved]
  rw [Nat.max_eq_left (by omega)]
  omega

end TgWsProxy.Server
