import Dcpu16.Pace.Duration

/-! Clocks, which tell the time and let it pass. -/

namespace Dcpu16

/-- A clock. -/
structure Clock (m : Type → Type) where
  /-- The nanoseconds since some moment in the past. -/
  now : m Nat
  sleep : Duration → m Unit

/-- A clock that only its own sleeping moves on. -/
def Clock.virtual : Clock (StateM Nat) where
  now := get
  sleep d := modify (· + d.nanos)

end Dcpu16
