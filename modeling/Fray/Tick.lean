/-! Ticks are counted in 64 bits. -/

namespace Fray.Tick

/-- How many ticks there are. -/
def bound : Nat := 0x10000000000000000

/-- The tick that is `count` ticks later; after the last one the count begins anew. -/
def later (tick count : Nat) : Nat := (tick + count) % bound

variable {tick count : Nat}

theorem later_of_lt (h : tick + count < bound) : later tick count = tick + count := Nat.mod_eq_of_lt h

end Fray.Tick
