import ClaudeManager.Json.Decode
import ClaudeManager.Program.Stateful

/-!
# Errors, limits and third-party functions

What every part of the messaging store uses: the error type, the reading of required
fields, text helpers of the standard library, and the functions of other crates.

The crates are operations of a class. What is documented of them is stated where a result
needs it, never as part of the class.
-/

namespace ClaudeManager

open Json (Value object)
open Program (refuse okOr)

/-! ## Errors -/

/-- A refusal: the code clients act on, and the text they show. -/
structure ChatError where
  code : String
  message : String
  deriving DecidableEq, Repr

def err (code message : String) : ChatError := ⟨code, message⟩

/-- `ChatError`'s `Display`. -/
def ChatError.display (e : ChatError) : String := e.code ++ ": " ++ e.message

/-! ## Other crates -/

/--
The crates the store calls: `serde_json`, `sha2`, `uuid`, `chrono` and the Unicode tables.

`uuid d n` is the `n`-th identifier that daemon `d` mints, `now n` its `n`-th clock reading.
-/
class Externals where
  /-- `serde_json::from_slice`, with the parser's own message. -/
  parse : String → Except String Value
  /-- `serde_json::to_vec_pretty`. -/
  pretty : Value → String
  /-- `serde_json::to_vec` and `Value::to_string`. -/
  compact : Value → String
  /-- The message of a failed `serde_json::from_value`. -/
  mismatch : Value → String
  /-- Lower-case hexadecimal SHA-256. -/
  sha256 : String → String
  /-- `Uuid::parse_str(..).is_ok()`. -/
  isUuid : String → Bool
  /-- `DateTime::parse_from_rfc3339(..).is_ok()`. -/
  isRfc3339 : String → Bool
  /-- `UnicodeNormalization::nfkc`. -/
  nfkc : String → String
  /-- `UnicodeCaseFold::case_fold`. -/
  caseFold : String → String
  /-- `UnicodeSegmentation::graphemes(true)`. -/
  graphemes : String → List String
  /-- `char::is_alphanumeric`. -/
  isAlphanumeric : Char → Bool
  uuid : String → Nat → String
  now : Nat → String

export Externals (isUuid)

section

variable [Externals]

def hash (bytes : String) : String := Externals.sha256 bytes

/-- `serde_json::from_slice` under the store's error type. -/
def fromSlice (bytes : String) : Except ChatError Value :=
  match Externals.parse bytes with
  | .ok v => .ok v
  | .error message => .error (err "invalid_record" message)

/-- `serde_json::from_value` into the type that `decode` reads. -/
def fromValue {α : Type} (decode : Value → Option α) (v : Value) : Except ChatError α :=
  match decode v with
  | some a => .ok a
  | none => .error (err "invalid_record" (Externals.mismatch v))

theorem fromValue_ok {α : Type} {decode : Value → Option α} {v : Value} {a : α} :
    fromValue decode v = .ok a ↔ decode v = some a := by
  unfold fromValue
  cases decode v <;> simp

/-- `Uuid::parse_str(s).map_err(|_| e)?`. -/
def uuidOr (s : String) (e : ChatError) : Except ChatError PUnit := refuse (¬ isUuid s) e

@[simp] theorem uuidOr_ok {s : String} {e : ChatError} {u : PUnit} :
    uuidOr s e = .ok u ↔ isUuid s = true := by
  simp [uuidOr]

def parseTime (s : String) : Except ChatError PUnit :=
  refuse (¬ Externals.isRfc3339 s)
    (err "invalid_time" "Use RFC3339 timestamps with an explicit timezone")

@[simp] theorem parseTime_ok {s : String} {u : PUnit} :
    parseTime s = .ok u ↔ Externals.isRfc3339 s = true := by
  simp [parseTime]

end

/-! ## Fields -/

def strv (v : Value) (key : String) : String := ((v.get? key).bind Value.asStr).getD ""

def required (v : Value) (key : String) : Except ChatError String := do
  refuse (strv v key = "") (err "invalid_params" (key ++ " is required"))
  return strv v key

theorem required_ok {v : Value} {key s : String} :
    required v key = .ok s ↔ strv v key = s ∧ s ≠ "" := by
  unfold required
  simp only [Program.except_bind_ok, Program.except_refuse_ok, Program.except_pure_ok,
    exists_const]
  constructor
  · rintro ⟨h, rfl⟩
    exact ⟨rfl, h⟩
  · rintro ⟨rfl, h⟩
    exact ⟨h, rfl⟩

theorem strv_eq (v : Value) (key : String) : strv v key = (v[key].asStr).getD "" := by
  rw [strv, Value.getElem_eq, Value.idx]
  cases v.get? key <;> rfl

/-- A field that reads as a non-empty text is that text. -/
theorem idx_eq_of_strv {v : Value} {key s : String} (h : strv v key = s) (hs : s ≠ "") :
    v[key] = .str s := by
  rw [strv_eq] at h
  cases hv : v[key].asStr with
  | none =>
    rw [hv] at h
    exact absurd h.symm hs
  | some t =>
    rw [hv] at h
    have ht : t = s := by simpa using h
    subst ht
    exact Value.asStr_eq_some.mp hv

theorem strv_of_idx {v : Value} {key s : String} (h : v[key] = .str s) : strv v key = s := by
  rw [strv_eq, h]
  rfl

/-! ## Text -/

/-- `char::is_control`. -/
def isControl (c : Char) : Bool := c.toNat < 0x20 || (0x7F ≤ c.toNat && c.toNat < 0xA0)

/-- `char::is_whitespace`. -/
def isWhitespace (c : Char) : Bool :=
  (9 ≤ c.toNat && c.toNat ≤ 13) || c.toNat = 0x20 || c.toNat = 0x85 || c.toNat = 0xA0
    || c.toNat = 0x1680 || (0x2000 ≤ c.toNat && c.toNat ≤ 0x200A) || c.toNat = 0x2028
    || c.toNat = 0x2029 || c.toNat = 0x202F || c.toNat = 0x205F || c.toNat = 0x3000

/-- `s.trim().is_empty()`. -/
def blank (s : String) : Bool := s.toList.all isWhitespace

/-- `s.trim()`. -/
def trimmed (s : String) : String :=
  String.ofList ((s.toList.dropWhile isWhitespace).reverse.dropWhile isWhitespace).reverse

def hasPrefix (s pre : String) : Bool := pre.toList.isPrefixOf s.toList

def hasSuffix (s suf : String) : Bool := suf.toList.isSuffixOf s.toList

/-- `str::strip_prefix`. -/
def stripPrefix? (s pre : String) : Option String :=
  if hasPrefix s pre then some (String.ofList (s.toList.drop pre.toList.length)) else none

/-- `str::split_once` on one character. -/
def splitOnce (s : String) (sep : Char) : Option (String × String) :=
  let l := s.toList
  match l.dropWhile (· ≠ sep) with
  | [] => none
  | _ :: rest => some (String.ofList (l.takeWhile (· ≠ sep)), String.ofList rest)

/-- `str::split` on one character, over the characters. -/
def splitChars (sep : Char) : List Char → List (List Char)
  | [] => [[]]
  | c :: rest =>
    if c = sep then [] :: splitChars sep rest
    else match splitChars sep rest with
      | [] => [[c]]
      | part :: parts => (c :: part) :: parts

/-- `str::split_whitespace`, over the characters. -/
def words : List Char → List (List Char)
  | [] => []
  | c :: rest =>
    if isWhitespace c then words rest
    else match rest, words rest with
      | d :: _, w :: ws => if isWhitespace d then [c] :: w :: ws else (c :: w) :: ws
      | _, ws => [c] :: ws

/-- `s.split_whitespace().collect::<Vec<_>>().join(sep)`. -/
def joinWords (s sep : String) : String :=
  String.ofList (List.intercalate sep.toList (words s.toList))

/-- `s.replace("\r\n", "\n")`, over the characters. -/
def unixLines : List Char → List Char
  | '\r' :: '\n' :: rest => '\n' :: unixLines rest
  | c :: rest => c :: unixLines rest
  | [] => []

/-- `str::parse::<u64>`: decimal digits under an optional plus sign, below `2 ^ 64`. -/
def parseU64 (s : String) : Option Nat :=
  let digits := match s.toList with
    | '+' :: rest => rest
    | l => l
  if digits ≠ [] ∧ digits.all Char.isDigit ∧ Nat.ofDigitChars 10 digits 0 < 2 ^ 64 then
    some (Nat.ofDigitChars 10 digits 0)
  else none

/-- `format!("{n:020}")`. -/
def padded (n : Nat) : String :=
  let digits := Nat.toDigits 10 n
  String.ofList (List.replicate (20 - digits.length) '0' ++ digits)

private theorem digits_all_isDigit (n : Nat) : (Nat.toDigits 10 n).all Char.isDigit = true := by
  rw [List.all_eq_true]
  intro c hc
  exact Nat.isDigit_of_mem_toDigits (by omega) (by omega) hc

private theorem parseU64_digits {l : List Char} {n : Nat} (hne : l ≠ [])
    (hall : l.all Char.isDigit = true) (hv : Nat.ofDigitChars 10 l 0 = n) (hn : n < 2 ^ 64) :
    parseU64 (String.ofList l) = some n := by
  obtain ⟨c, rest, rfl⟩ := List.exists_cons_of_ne_nil hne
  have hc : c ≠ '+' := by
    rintro rfl
    simp [Char.isDigit] at hall
  have hd : (match c :: rest with
      | '+' :: rest => rest
      | l => l) = c :: rest := by
    split
    · rename_i heq
      exact absurd (List.cons.inj heq).1 hc
    · rfl
  unfold parseU64
  simp only [String.toList_ofList, hd]
  rw [if_pos ⟨by simp, hall, by omega⟩, hv]

/-- A number printed in decimal parses back. -/
theorem parseU64_toString {n : Nat} (hn : n < 2 ^ 64) : parseU64 (toString n) = some n := by
  have h := parseU64_digits (l := Nat.toDigits 10 n) (n := n) (Nat.toDigits_ne_nil)
    (digits_all_isDigit n) Nat.ofDigitChars_ten_toDigits hn
  simpa [ToString.toString, Nat.repr] using h

/-- A position token parses back. -/
theorem parseU64_padded {n : Nat} (hn : n < 2 ^ 64) : parseU64 (padded n) = some n := by
  refine parseU64_digits ?_ ?_ ?_ hn
  · simp [Nat.toDigits_ne_nil]
  · rw [List.all_append, digits_all_isDigit]
    simp [Char.isDigit]
  · rw [Nat.ofDigitChars_append, Nat.ofDigitChars_replicate_zero]
    simp

theorem padded_ne_empty (n : Nat) : padded n ≠ "" := by
  intro h
  have := congrArg String.toList h
  simp [padded, Nat.toDigits_ne_nil] at this

/-! ## Limits -/

def maxEventBytes : Nat := 64 * 1024

def maxHostDirectoryBytes : Nat := 1024 * 1024

/-- A host directory lists every live agent of its host, so it gets more room. -/
def checkEventSize (event : Value) (len : Nat) : Except ChatError PUnit :=
  if event["type"] = "host.update" ∧ event["actor"]["id"] = "system" then
    refuse (len > maxHostDirectoryBytes)
      (err "event_too_large"
        ("Host directory event is " ++ toString len ++ " bytes, over the 1 MiB limit"))
  else refuse (len > maxEventBytes) (err "event_too_large" "Serialized event exceeds 64 KiB")

/-! ## Channel paths -/

private def segmentOk (x : List Char) : Bool :=
  !x.isEmpty && x.head? ≠ some '-' && x.getLast? ≠ some '-'
    && !((x.zip x.tail).any (· = ('-', '-')))
    && x.all fun c => ('a' ≤ c && c ≤ 'z') || ('0' ≤ c && c ≤ '9') || c = '-'

/-- Lower-case segments under `/`, no traversal. -/
def channelPath (s : String) : Except ChatError PUnit :=
  let segments := splitChars '/' s.toList
  refuse (s.utf8ByteSize > 512 ∨ segments.length > 16 ∨ s = "" ∨ ¬ segments.all segmentOk)
    (err "invalid_channel" "Use lowercase channel segments, e.g. news/parser; no traversal or underscores")

end ClaudeManager
