namespace WebResource

/-!
# Durations

Whole nanoseconds, up to the largest count of seconds that fits 64 bits. Sums and products stop at
that bound.
-/

structure Duration where
  nanos : Nat
  deriving DecidableEq, Repr

namespace Duration

def perSecond : Nat := 1000000000

def perMilli : Nat := 1000000

def bound : Nat := 18446744073709551615 * perSecond + (perSecond - 1)

def zero : Duration := ⟨0⟩

def max : Duration := ⟨bound⟩

def ofParts (seconds nanos : Nat) : Duration := ⟨seconds * perSecond + nanos⟩

def ofMillis (n : Nat) : Duration := ⟨n * perMilli⟩

def ofSeconds (n : Nat) : Duration := ⟨n * perSecond⟩

def seconds (d : Duration) : Nat := d.nanos / perSecond

def subsecond (d : Duration) : Nat := d.nanos % perSecond

def cap (n : Nat) : Duration := ⟨min n bound⟩

def add (a b : Duration) : Duration := cap (a.nanos + b.nanos)

def times (d : Duration) (k : Nat) : Duration := cap (d.nanos * k)

end Duration

end WebResource
