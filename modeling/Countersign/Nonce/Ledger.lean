import Countersign.Time.Duration

/-!
# Nonce ledgers

A ledger remembers pairs of access id and nonce until their time is over, on a
clock of its own that counts nanoseconds. The first presentation of a pair sets
its time; later ones neither extend nor shorten it. A pair whose time has come
is forgotten.
-/

set_option autoImplicit false

namespace Countersign

structure NonceEntry where
  key : String
  expiry : Nat
deriving DecidableEq, Repr

structure NonceLedger where
  now : Nat := 0
  entries : List NonceEntry := []
deriving DecidableEq, Repr

namespace NonceLedger

def maxTtl : Duration := Duration.ofSecs (365 * 24 * 60 * 60)

def key (accessId nonce : String) : String := accessId ++ "\x1f" ++ nonce

def isLive (l : NonceLedger) (k : String) : Bool :=
  l.entries.any fun e => e.key == k && l.now < e.expiry

/-- Records a pair unless it is remembered already; the answer tells whether it was fresh. -/
def checkAndRecord (l : NonceLedger) (accessId nonce : String) (ttl : Duration) :
    Bool × NonceLedger :=
  let k := key accessId nonce
  if l.isLive k then (false, l)
  else
    (true,
      { l with
        entries := ⟨k, l.now + (ttl.min maxTtl).nanos⟩ :: l.entries.filter fun e => e.key ≠ k })

def elapse (l : NonceLedger) (d : Duration) : NonceLedger := { l with now := l.now + d.nanos }

def size (l : NonceLedger) : Nat := l.entries.countP fun e => l.now < e.expiry

end NonceLedger

end Countersign
