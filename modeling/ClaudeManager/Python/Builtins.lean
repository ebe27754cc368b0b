import Mathlib
import ClaudeManager.Json.Value

/-!
# Python built-ins

What a Python program over JSON values takes for granted:

* `split`, `strip` — text without its white space
* `truthy` — the truth value of a dynamic value
* `orElse` — `a or b` of two optional texts
* `NatSet`, `NatMap` — sets and dictionaries of numbers, read in increasing order
-/

namespace Python

open Json

/-! ## Text -/

/-- `str.isspace` of one character. -/
def isSpace (c : Char) : Bool :=
  (9 ≤ c.toNat && c.toNat ≤ 13) || (28 ≤ c.toNat && c.toNat ≤ 32) || c.toNat == 0x85
    || c.toNat == 0xa0 || c.toNat == 0x1680 || (0x2000 ≤ c.toNat && c.toNat ≤ 0x200a)
    || c.toNat == 0x2028 || c.toNat == 0x2029 || c.toNat == 0x202f || c.toNat == 0x205f
    || c.toNat == 0x3000

/-- The runs of characters between white space, `word` being the one under way. -/
def words : List Char → List Char → List String
  | word, [] => if word.isEmpty then [] else [String.ofList word.reverse]
  | word, c :: cs =>
    if isSpace c then
      if word.isEmpty then words [] cs else String.ofList word.reverse :: words [] cs
    else words (c :: word) cs

/-- `s.split()`. -/
def split (s : String) : List String := words [] s.toList

/-- `s.strip()`. -/
def strip (s : String) : String :=
  String.ofList ((s.toList.dropWhile isSpace).reverse.dropWhile isSpace).reverse

/-- `s[:n]`. -/
def firstChars (n : Nat) (s : String) : String := String.ofList (s.toList.take n)

/-- `sep.split(s)` of a one-character separator. -/
def splitOnChar (sep : Char) (s : String) : List String :=
  (s.toList.splitOn sep).map String.ofList

/-! ## Values -/

/-- `bool(v)`. -/
def truthy : Value → Bool
  | .null => false
  | .bool b => b
  | .num n => n ≠ 0
  | .frac q => q ≠ 0
  | .str s => s ≠ ""
  | .arr items => !items.isEmpty
  | .obj members => !members.isEmpty

/-- `a or b`, `a` a text or `None`. -/
def orElse (a : Option String) (b : String) : String :=
  match a with
  | some s => if s = "" then b else s
  | none => b

/-- A text or `None`, as a value. -/
def ofText : Option String → Value
  | some s => .str s
  | none => .null

/-- `", ".join(items)`. -/
def commas (items : List String) : String := ", ".intercalate items

/-- `list(dict.fromkeys(items))`: each item once, where it first stands. -/
def fromKeys {α : Type} [DecidableEq α] : List α → List α
  | [] => []
  | a :: l => a :: (fromKeys l).filter (· ≠ a)

theorem mem_fromKeys {α : Type} [DecidableEq α] {l : List α} {a : α} : a ∈ fromKeys l ↔ a ∈ l := by
  induction l with
  | nil => rfl
  | cons b l ih =>
    rw [fromKeys, List.mem_cons, List.mem_cons, List.mem_filter, ih]
    by_cases h : a = b <;> simp [h]

theorem nodup_fromKeys {α : Type} [DecidableEq α] {l : List α} : (fromKeys l).Nodup := by
  induction l with
  | nil => exact List.nodup_nil
  | cons b l ih => exact List.nodup_cons.mpr ⟨by simp, ih.filter _⟩

/-! ## Sets and dictionaries of numbers -/

abbrev NatSet := Std.ExtTreeSet Nat compare

abbrev NatMap (α : Type) := Std.ExtTreeMap Nat α compare

variable {α : Type}

theorem natSet_mem_insert {s : NatSet} {a b : Nat} : a ∈ s.insert b ↔ a = b ∨ a ∈ s := by
  rw [Std.ExtTreeSet.mem_insert, Std.LawfulEqCmp.compare_eq_iff_eq, eq_comm]

theorem natSet_mem_erase {s : NatSet} {a b : Nat} : a ∈ s.erase b ↔ a ≠ b ∧ a ∈ s := by
  rw [Std.ExtTreeSet.mem_erase, Ne, Std.LawfulEqCmp.compare_eq_iff_eq, eq_comm, Ne]

theorem natSet_mem_ofList {l : List Nat} {a : Nat} :
    a ∈ (Std.ExtTreeSet.ofList l compare : NatSet) ↔ a ∈ l := by
  simp [Std.ExtTreeSet.mem_ofList]

@[simp] theorem natSet_mem_toList {s : NatSet} {a : Nat} : a ∈ s.toList ↔ a ∈ s :=
  Std.ExtTreeSet.mem_toList

theorem natSet_isEmpty_iff {s : NatSet} : s.isEmpty = true ↔ ∀ a, a ∉ s := by
  rw [← Std.ExtTreeSet.isEmpty_toList, List.isEmpty_iff, List.eq_nil_iff_forall_not_mem]
  exact forall_congr' fun a => not_congr Std.ExtTreeSet.mem_toList

theorem natMap_getElem?_insert {m : NatMap α} {k k' : Nat} {v : α} :
    (m.insert k v)[k']? = if k' = k then some v else m[k']? := by
  rw [Std.ExtTreeMap.getElem?_insert]
  by_cases h : k = k'
  · simp [h]
  · have h' : ¬ k' = k := fun e => h e.symm
    simp [h, h']

theorem natMap_mem_toList {m : NatMap α} {k : Nat} {v : α} : (k, v) ∈ m.toList ↔ m[k]? = some v :=
  Std.ExtTreeMap.mem_toList_iff_getElem?_eq_some

end Python
