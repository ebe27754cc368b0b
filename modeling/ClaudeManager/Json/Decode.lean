import ClaudeManager.Json.Value
import ClaudeManager.Program.Containers

/-!
# Decoding

Readers of typed data from a JSON value, as a derived deserializer reads them: a sequence
is an array all of whose items decode, a map is an object all of whose members decode, and
a record is an object of named fields or an array of its fields in order.
-/

namespace Json

open Containers

namespace Decode

variable {α : Type}

/-- An array of strings. -/
def strs (v : Value) : Option (List String) := v.asArr.bind (·.mapM Value.asStr)

/-- An array of strings, read into a set. -/
def strSet (v : Value) : Option StrSet := (strs v).map fun l => .ofList l

/-- An array of decodable items. -/
def list (decode : Value → Option α) (v : Value) : Option (List α) :=
  v.asArr.bind (·.mapM decode)

/-- An object of decodable members. -/
def map (decode : Value → Option α) : Value → Option (Map α)
  | .obj members =>
    (members.mapM fun m => (decode m.2).map (Prod.mk m.1)).map fun l => .ofList l
  | _ => none

/-- An absent field takes its default, a present one must decode. -/
def withDefault (decode : Value → Option α) (default : α) : Option Value → Option α
  | none => some default
  | some v => decode v

/-- `Option<T>`: absent and `null` read as none. -/
def option (decode : Value → Option α) : Option Value → Option (Option α)
  | none | some .null => some none
  | some v => (decode v).map some

end Decode

end Json
