/-!
# Platform

What differs between the systems that the program runs on.  The releases of its libraries disagree
on two rules, and how deep a value may be nested depends on the room that there is for writing it.
-/

namespace ContractSurvey

structure Platform where
  /-- A field of a table is quoted for a carriage return.  Earlier releases leave such a field
  bare. -/
  quotesReturns : Bool
  /-- Two dashes behind the equals sign of an option are its value.  Earlier releases take them for
  no value at all. -/
  keepsDashes : Bool
  /-- How many arrays and objects may lie in each other in a value that is written. -/
  room : Nat
  deriving DecidableEq, Repr

end ContractSurvey
