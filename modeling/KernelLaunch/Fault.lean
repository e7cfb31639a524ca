/-!
# Faults

A fault is a defect of the program's own arithmetic or indexing that stops
it: a division by zero, an addition that leaves the word range, a byte range
that does not fit the buffer it is cut from, an index past the end of an
array. The library reports it as a
value; its message is the one the program prints when it stops.
-/

namespace KernelLaunch

/-- A stop of the program on a defect. -/
inductive Fault where
  | divideByZero
  | addOverflow
  | mulOverflow
  /-- A byte range ends past the buffer it is cut from. -/
  | rangeEnd (stop len : Nat)
  /-- A byte range starts after it ends. -/
  | rangeOrder (start stop : Nat)
  /-- A buffer asked for more bytes than any buffer may hold. -/
  | capacityOverflow
  /-- An index past the end of a fixed-length array. -/
  | indexOutOfBounds (index len : Nat)
  deriving Repr, BEq, Inhabited

/-- The message printed when the program stops on the fault. -/
def Fault.message : Fault → String
  | .divideByZero => "attempt to divide by zero"
  | .addOverflow => "attempt to add with overflow"
  | .mulOverflow => "attempt to multiply with overflow"
  | .rangeEnd stop len =>
      "range end index " ++ toString stop ++ " out of range for slice of length " ++ toString len
  | .rangeOrder start stop => "slice index starts at " ++ toString start ++ " but ends at " ++ toString stop
  | .capacityOverflow => "capacity overflow"
  | .indexOutOfBounds index len =>
      "index out of bounds: the len is " ++ toString len ++ " but the index is " ++ toString index

end KernelLaunch
