import Dcpu16.Host.Error
import Dcpu16.Pace.Clock
import Dcpu16.Pace.Pacer

/-! Ticking a machine at a steady pace without observers, until shutdown is requested. -/

namespace Dcpu16

/-- The timing of one cycle. -/
structure PaceReport where
  /-- The machine's count of ticks after this one. -/
  cycle : UInt64
  /-- The time that the tick took. -/
  elapsed : Duration
  /-- The time waited after it. -/
  slept : Duration

namespace Machine

variable {m : Type → Type} [Monad m]

/-- The machine after some paced ticks, with their number or the reason why they ended early. -/
structure Paced where
  machine : Machine
  ticks : Except HostError Nat

/-- Ticks for at most `n` times, `done` ticks being over. -/
def tickPaced (clock : Clock m) (pacer : Pacer) (requested : m Bool) (report : PaceReport → m Unit)
    (n done : Nat) (machine : Machine) : m Paced := do
  match n with
  | 0 => return { machine, ticks := .ok done }
  | n + 1 =>
    if ← requested then return { machine, ticks := .ok done }
    let start ← clock.now
    match machine.tick with
    | .error e => return { machine, ticks := .error (.machine e) }
    | .ok (_, machine) =>
      let elapsed := Duration.ofNanos ((← clock.now) - start)
      let slept := pacer.pause elapsed (← requested)
      clock.sleep slept
      report { cycle := machine.cycles, elapsed, slept }
      tickPaced clock pacer requested report n (done + 1) machine

/-- Ticks at a frequency until shutdown is requested, for at most `n` ticks, and reports on every
cycle. -/
def runPaced (clock : Clock m) (hz : Float) (requested : m Bool) (report : PaceReport → m Unit)
    (n : Nat) (machine : Machine) : m Paced :=
  match Pacer.ofFrequency? hz with
  | none => return { machine, ticks := .error (.invalidFrequency hz) }
  | some pacer => machine.tickPaced clock pacer requested report n 0

end Machine

end Dcpu16
