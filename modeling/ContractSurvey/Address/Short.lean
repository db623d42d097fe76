import ContractSurvey.Sequence.Slice

/-!
# Address — Short

A short form of an address for display: its two ends with dots between them.
-/

namespace ContractSurvey.Address

/-- The two ends of an address, `ends` characters each besides the first two.  An address of fewer
than ten characters is shown whole. -/
def short (address : String) (ends : Int) : String :=
  let cs := address.toList
  if cs.length < 10 then address
  else
    String.ofList (Sequence.upTo cs (2 + ends)) ++ "..." ++
      String.ofList (Sequence.startingAt cs (-ends))

/-- The name of a contract that has none. -/
def contractName (address : Option String) : String :=
  "Contract (" ++ (address.map (short · 4)).getD "None" ++ ")"

end ContractSurvey.Address
