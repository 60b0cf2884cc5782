/-! # Options of a run -/

namespace ChipEight

/-- A number of cycles per second, at least one. -/
structure Rate where
  hertz : UInt32
  positive : 0 < hertz.toNat

namespace Rate

/-- The rate of the machine's clock. -/
def standard : Rate :=
  ⟨60, by decide⟩

/-- The rate of a number, if it is one. -/
def ofNat? (number : Nat) : Option Rate :=
  if bounds : 0 < number ∧ number < UInt32.size then
    some ⟨UInt32.ofNat number, by
      rw [UInt32.toNat_ofNat_of_lt' bounds.2]
      exact bounds.1⟩
  else none

end Rate

/-- How a program is to be run. -/
structure Options where
  path : String
  rate : Rate := .standard
  /-- After how many cycles it stops; without a limit it runs until a step fails. -/
  limit : Option UInt64 := none
  /-- The keyboard's characters for the keys that are held down. -/
  hold : String := ""
  fast : Bool := false
  dump : Bool := false

end ChipEight
