/-!
# Settings — Variable

What an environment holds: variables with a name and a value each, in the order in which they were
set.  `set_eq_ok_iff` says which ones can be set: those with a name that holds no equals sign, and
no zero character in name or value.
-/

namespace ContractSurvey.Settings

/-- Variables with their values, in the order in which they were set. -/
abbrev Environment := List (String × String)

/-- Why a variable cannot be set. -/
inductive VariableFault where
  /-- A zero character in the name or the value. -/
  | zero
  /-- An equals sign in the name. -/
  | equalsSign
  /-- An empty name. -/
  | unnamed
  deriving DecidableEq, Repr

def VariableFault.message : VariableFault → String
  | .zero => "embedded null byte"
  | .equalsSign => "illegal environment variable name"
  | .unnamed => "[Errno 22] Invalid argument"

namespace Environment

/-- The environment with one more variable. -/
def set (env : Environment) (name value : String) : Except VariableFault Environment :=
  if '\x00' ∈ name.toList ∨ '\x00' ∈ value.toList then .error .zero
  else if '=' ∈ name.toList then .error .equalsSign
  else if name = "" then .error .unnamed
  else .ok (env ++ [(name, value)])

theorem set_eq_ok_iff {env after : Environment} {name value : String} :
    set env name value = .ok after ↔
      name ≠ "" ∧ '=' ∉ name.toList ∧ '\x00' ∉ name.toList ∧ '\x00' ∉ value.toList ∧
        after = env ++ [(name, value)] := by
  unfold set
  split <;> rename_i hz
  · exact ⟨nofun, fun ⟨_, _, h₁, h₂, _⟩ => absurd hz (not_or.2 ⟨h₁, h₂⟩)⟩
  · obtain ⟨h₁, h₂⟩ := not_or.1 hz
    split <;> rename_i he
    · exact ⟨nofun, fun ⟨_, h, _⟩ => absurd he h⟩
    · split <;> rename_i hn
      · exact ⟨nofun, fun ⟨h, _⟩ => absurd hn h⟩
      · exact ⟨fun h => ⟨hn, he, h₁, h₂, (Except.ok.inj h).symm⟩, fun h => h.2.2.2.2 ▸ rfl⟩

end Environment

end ContractSurvey.Settings
