import Mathlib

/-!
# JSON values

The values a JSON document denotes, with the accessors of a dynamic JSON library:
an absent member reads as `null`, a member is written in place, and the members of an
object stay sorted by key.

Numbers are the integers that a decoder keeps exactly, and the floats of other literals.
-/

namespace Json

/-- A JSON value. The members of an object are kept in key order. -/
inductive Value where
  | null
  | bool (b : Bool)
  | num (n : Int)
  | frac (q : Rat)
  | str (s : String)
  | arr (items : List Value)
  | obj (members : List (String × Value))
  deriving Inhabited

/-! ## Equality -/

mutual

/-- Structural equality of two values. -/
def Value.same : Value → Value → Bool
  | .null, .null => true
  | .bool a, .bool b => a == b
  | .num a, .num b => a == b
  | .frac a, .frac b => a == b
  | .str a, .str b => a == b
  | .arr a, .arr b => Value.sameItems a b
  | .obj a, .obj b => Value.sameMembers a b
  | _, _ => false

/-- Structural equality of two item lists. -/
def Value.sameItems : List Value → List Value → Bool
  | [], [] => true
  | a :: as, b :: bs => Value.same a b && Value.sameItems as bs
  | _, _ => false

/-- Structural equality of two member lists. -/
def Value.sameMembers : List (String × Value) → List (String × Value) → Bool
  | [], [] => true
  | (j, a) :: as, (k, b) :: bs => j == k && Value.same a b && Value.sameMembers as bs
  | _, _ => false

end

mutual

theorem Value.same_iff : ∀ a b : Value, Value.same a b = true ↔ a = b
  | .null, b => by cases b <;> simp [Value.same]
  | .bool _, b => by cases b <;> simp [Value.same]
  | .num _, b => by cases b <;> simp [Value.same]
  | .frac _, b => by cases b <;> simp [Value.same]
  | .str _, b => by cases b <;> simp [Value.same]
  | .arr as, b => by cases b <;> simp [Value.same, Value.sameItems_iff as]
  | .obj as, b => by cases b <;> simp [Value.same, Value.sameMembers_iff as]

theorem Value.sameItems_iff : ∀ as bs : List Value, Value.sameItems as bs = true ↔ as = bs
  | [], bs => by cases bs <;> simp [Value.sameItems]
  | a :: as, bs => by
    cases bs <;> simp [Value.sameItems, Value.same_iff a, Value.sameItems_iff as]

theorem Value.sameMembers_iff :
    ∀ as bs : List (String × Value), Value.sameMembers as bs = true ↔ as = bs
  | [], bs => by cases bs <;> simp [Value.sameMembers]
  | (j, a) :: as, bs => by
    rcases bs with _ | ⟨⟨k, b⟩, bs⟩
    · simp [Value.sameMembers]
    · simp [Value.sameMembers, Value.same_iff a, Value.sameMembers_iff as, and_assoc]

end

instance : DecidableEq Value := fun a b => decidable_of_iff _ (Value.same_iff a b)

instance : Coe String Value := ⟨.str⟩

/-! ## Reading -/

/-- The member under `key`, where the value is an object that has one. -/
def Value.get? : Value → String → Option Value
  | .obj members, key => members.lookup key
  | _, _ => none

/-- The member under `key`, `null` where there is none. -/
def Value.idx (v : Value) (key : String) : Value := (v.get? key).getD .null

instance : GetElem Value String Value (fun _ _ => True) := ⟨fun v key _ => v.idx key⟩

def Value.asStr : Value → Option String
  | .str s => some s
  | _ => none

def Value.asBool : Value → Option Bool
  | .bool b => some b
  | _ => none

def Value.asArr : Value → Option (List Value)
  | .arr items => some items
  | _ => none

/-- The number, where it is an unsigned 64-bit one. -/
def Value.asU64 : Value → Option Nat
  | .num n => if 0 ≤ n ∧ n < 2 ^ 64 then some n.toNat else none
  | _ => none

def Value.isObj : Value → Bool
  | .obj _ => true
  | _ => false

def Value.isBool : Value → Bool
  | .bool _ => true
  | _ => false

def Value.isStr : Value → Bool
  | .str _ => true
  | _ => false

/-- The items of an array, none for any other value. -/
def Value.items (v : Value) : List Value := v.asArr.getD []

/-! ## Writing -/

/-- `members` with `value` under `key`, in key order. -/
def insertMember (key : String) (value : Value) : List (String × Value) → List (String × Value)
  | [] => [(key, value)]
  | (k, v) :: rest =>
    if key = k then (key, value) :: rest
    else if key < k then (key, value) :: (k, v) :: rest
    else (k, v) :: insertMember key value rest

/-- `v[key] = value`: `null` becomes an object first, and only an object is written. -/
def Value.set (v : Value) (key : String) (value : Value) : Value :=
  match v with
  | .obj members => .obj (insertMember key value members)
  | .null => .obj [(key, value)]
  | other => other

/-- The object without its member `key`. -/
def Value.erase (v : Value) (key : String) : Value :=
  match v with
  | .obj members => .obj (members.filter (·.1 ≠ key))
  | other => other

/-- The object with the given members, a later one replacing an earlier one. -/
def object (members : List (String × Value)) : Value :=
  .obj (members.foldl (fun acc m => insertMember m.1 m.2 acc) [])

/-- The array of the given strings. -/
def strings (l : List String) : Value := .arr (l.map .str)

/-- A string, `null` where there is none. -/
def optStr : Option String → Value
  | some s => .str s
  | none => .null

/-! ## Reading what was written -/

theorem Value.getElem_eq (v : Value) (key : String) : v[key] = v.idx key := rfl

theorem lookup_cons_eq {k key : String} {v : Value} {rest : List (String × Value)} :
    ((key, v) :: rest).lookup k = if k = key then some v else rest.lookup k := by
  by_cases h : k = key
  · simp [List.lookup, h]
  · have hb : (k == key) = false := by simpa using h
    simp [List.lookup, h, hb]

theorem lookup_insertMember {key k : String} {value : Value} :
    ∀ {members : List (String × Value)},
      (insertMember key value members).lookup k
        = if k = key then some value else members.lookup k
  | [] => by rw [insertMember, lookup_cons_eq]
  | (k', v') :: rest => by
    unfold insertMember
    by_cases hk : key = k'
    · subst hk
      simp only [if_true, lookup_cons_eq]
      split <;> rfl
    · by_cases hlt : key < k'
      · simp only [if_neg hk, if_pos hlt, lookup_cons_eq]
      · simp only [if_neg hk, if_neg hlt, lookup_cons_eq, lookup_insertMember]
        by_cases h : k = key
        · have hne : ¬ k = k' := by rintro rfl; exact hk h.symm
          simp [h, hk]
        · simp [h]

@[simp] theorem Value.get?_set_obj {members : List (String × Value)} {key k : String}
    {value : Value} :
    ((Value.obj members).set key value).get? k
      = if k = key then some value else (Value.obj members).get? k := by
  simp [Value.set, Value.get?, lookup_insertMember]

/-- Writing an object reads back, and leaves its other members as they were. -/
theorem Value.get?_set {v : Value} (hv : v.isObj = true) {key k : String} {value : Value} :
    (v.set key value).get? k = if k = key then some value else v.get? k := by
  cases v <;> simp_all [Value.isObj]

@[simp] theorem Value.isObj_set {v : Value} {key : String} {value : Value} (hv : v.isObj = true) :
    (v.set key value).isObj = true := by
  cases v <;> simp_all [Value.isObj, Value.set]

theorem lookup_foldl_insertMember {k : String} :
    ∀ (members acc : List (String × Value)),
      (members.foldl (fun acc m => insertMember m.1 m.2 acc) acc).lookup k
        = (members.reverse.lookup k).or (acc.lookup k)
  | [], acc => by simp
  | (key, value) :: rest, acc => by
    rw [List.foldl_cons, lookup_foldl_insertMember, lookup_insertMember, List.reverse_cons,
      List.lookup_append, lookup_cons_eq]
    by_cases h : k = key
    · simp [h]
    · simp [h]

/-- An object reads, under each key, the last member given for it. -/
theorem get?_object {members : List (String × Value)} {k : String} :
    (object members).get? k = members.reverse.lookup k := by
  simp [object, Value.get?, lookup_foldl_insertMember]

theorem idx_object {members : List (String × Value)} {k : String} :
    (object members)[k] = (members.reverse.lookup k).getD .null := by
  rw [Value.getElem_eq, Value.idx, get?_object]

@[simp] theorem isObj_object {members : List (String × Value)} : (object members).isObj = true :=
  rfl

@[simp] theorem Value.get?_null {k : String} : Value.null.get? k = none := rfl
@[simp] theorem Value.get?_bool {b : Bool} {k : String} : (Value.bool b).get? k = none := rfl
@[simp] theorem Value.get?_num {n : Int} {k : String} : (Value.num n).get? k = none := rfl
@[simp] theorem Value.get?_frac {q : Rat} {k : String} : (Value.frac q).get? k = none := rfl
@[simp] theorem Value.get?_str {s k : String} : (Value.str s).get? k = none := rfl
@[simp] theorem Value.get?_arr {l : List Value} {k : String} : (Value.arr l).get? k = none := rfl
@[simp] theorem Value.asStr_str {s : String} : (Value.str s).asStr = some s := rfl
@[simp] theorem Value.asStr_null : Value.null.asStr = none := rfl
@[simp] theorem Value.asArr_arr {l : List Value} : (Value.arr l).asArr = some l := rfl
@[simp] theorem Value.items_arr {l : List Value} : (Value.arr l).items = l := rfl
@[simp] theorem Value.items_null : Value.null.items = [] := rfl

theorem Value.asStr_eq_some {v : Value} {s : String} : v.asStr = some s ↔ v = .str s := by
  cases v <;> simp [Value.asStr]

theorem Value.asBool_eq_some {v : Value} {b : Bool} : v.asBool = some b ↔ v = .bool b := by
  cases v <;> simp [Value.asBool]

theorem Value.asArr_eq_some {v : Value} {l : List Value} : v.asArr = some l ↔ v = .arr l := by
  cases v <;> simp [Value.asArr]

end Json
