/-!
Numbers of a fixed width in bits: how many there are, and what is left of a number that does not fit.
-/
namespace CodeAtlas.Width

/-- How many numbers have a width. -/
def size (bits : Nat) : Nat := Nat.pow 2 bits

/-- The part of a number that fits into a width. -/
def wrap (bits n : Nat) : Nat := n % size bits

theorem size_pos (bits : Nat) : 0 < size bits := Nat.pow_pos (by decide)

theorem wrap_lt (bits n : Nat) : wrap bits n < size bits := Nat.mod_lt n (size_pos bits)

end CodeAtlas.Width
