import Mathlib

/-!
# Texts by bytes

Positions in a text as a program over UTF-8 sees them:

* `utf8Bytes`, `utf8Len` — the bytes of a text, and how many there are
* `takeBytes`, `dropBytes` — the part before a position and the part after it, where the position
  lies between characters
* `ascii_at` — a byte below 128 is a character of its own
-/

namespace Text

def utf8Len (s : List Char) : Nat := (s.map Char.utf8Size).sum

def utf8Bytes (s : List Char) : List UInt8 := s.flatMap String.utf8EncodeChar

/-- The characters of the first `n` bytes. -/
def takeBytes : Nat → List Char → Option (List Char)
  | 0, _ => some []
  | _ + 1, [] => none
  | n + 1, c :: s => if c.utf8Size ≤ n + 1 then (takeBytes (n + 1 - c.utf8Size) s).map (c :: ·) else none

/-- The characters after the first `n` bytes. -/
def dropBytes : Nat → List Char → Option (List Char)
  | 0, s => some s
  | _ + 1, [] => none
  | n + 1, c :: s => if c.utf8Size ≤ n + 1 then dropBytes (n + 1 - c.utf8Size) s else none

/-- `s.get(low..high)`. -/
def slice (s : List Char) (low high : Nat) : Option (List Char) :=
  (dropBytes low s).bind (takeBytes (high - low))

/-- The byte is this ASCII character. -/
def byteIs (s : List Char) (i : Nat) (c : Char) : Bool := (utf8Bytes s)[i]? = some (UInt8.ofNat c.toNat)

/-- What ends a process: an index inside a character, or arithmetic out of range. -/
inductive Panic where
  | charBoundary
  | overflow
  deriving DecidableEq

/-- `s[low..high]`, which panics between the bytes of a character. -/
def index (s : List Char) (low high : Nat) : Except Panic (List Char) :=
  match slice s low high with
  | some m => .ok m
  | none => .error .charBoundary

/-- `str::from_utf8` -/
def fromUtf8 (bytes : List UInt8) : Option (List Char) := bytes.toByteArray.utf8Decode?.map Array.toList

/-- Characters that are one byte. -/
def Ascii (s : List Char) : Prop := ∀ c ∈ s, c.toNat < 128

section

variable {s r f : List Char} {c : Char} {n i : Nat}

@[simp] theorem utf8Len_nil : utf8Len [] = 0 := rfl

@[simp] theorem utf8Len_cons : utf8Len (c :: s) = c.utf8Size + utf8Len s := by
  simp [utf8Len]

@[simp] theorem utf8Len_append : utf8Len (s ++ r) = utf8Len s + utf8Len r := by
  simp [utf8Len]

@[simp] theorem length_utf8Bytes : (utf8Bytes s).length = utf8Len s := by
  simp [utf8Bytes, utf8Len, List.length_flatMap]

theorem utf8Bytes_append : utf8Bytes (s ++ r) = utf8Bytes s ++ utf8Bytes r := List.flatMap_append

theorem fromUtf8_iff {bytes : List UInt8} : fromUtf8 bytes = some s ↔ utf8Bytes s = bytes := by
  unfold fromUtf8 utf8Bytes
  constructor
  · intro h
    obtain ⟨a, ha, rfl⟩ := Option.map_eq_some_iff.mp h
    have hencode := ByteArray.utf8Encode_get_utf8Decode? (b := bytes.toByteArray) (h := by rw [ha]; rfl)
    simp only [ha, Option.get_some, List.utf8Encode] at hencode
    have hdata := congrArg (fun b : ByteArray => b.data.toList) hencode
    simpa using hdata
  · rintro rfl
    have hdecode : (s.utf8Encode).utf8Decode? = some s.toArray := List.utf8Decode?_utf8Encode
    unfold List.utf8Encode at hdecode
    rw [hdecode]
    rfl

theorem utf8Size_ascii (h : c.toNat < 128) : c.utf8Size = 1 := by
  rw [Char.utf8Size_eq_one_iff, UInt32.le_iff_toNat_le]
  exact Nat.le_of_lt_succ h

theorem Ascii.utf8Len (h : Ascii s) : utf8Len s = s.length := by
  induction s with
  | nil => rfl
  | cons c s ih =>
    rw [utf8Len_cons, utf8Size_ascii (h c List.mem_cons_self),
      ih fun d hd => h d (List.mem_cons_of_mem c hd), List.length_cons, Nat.add_comm]

theorem dropBytes_append : dropBytes (utf8Len s) (s ++ r) = some r := by
  induction s with
  | nil => rw [utf8Len_nil, dropBytes, List.nil_append]
  | cons c s ih =>
    obtain ⟨k, hk⟩ := Nat.exists_eq_add_of_lt (Char.utf8Size_pos c)
    have hlen : utf8Len (c :: s) = (k + utf8Len s) + 1 := by
      rw [utf8Len_cons]
      omega
    rw [hlen, List.cons_append, dropBytes, if_pos (by omega), ← ih]
    congr 1
    omega

theorem takeBytes_append : takeBytes (utf8Len s) (s ++ r) = some s := by
  induction s with
  | nil => rw [utf8Len_nil, takeBytes]
  | cons c s ih =>
    obtain ⟨k, hk⟩ := Nat.exists_eq_add_of_lt (Char.utf8Size_pos c)
    have hlen : utf8Len (c :: s) = (k + utf8Len s) + 1 := by
      rw [utf8Len_cons]
      omega
    have hrest : k + utf8Len s + 1 - c.utf8Size = utf8Len s := by omega
    rw [hlen, List.cons_append, takeBytes, if_pos (by omega), hrest, ih]
    rfl

/-- What comes after a position, with what comes before it. -/
theorem dropBytes_some : ∀ {n : Nat} {s : List Char}, dropBytes n s = some r →
    ∃ f, s = f ++ r ∧ utf8Len f = n
  | 0, s, h => by
    rw [dropBytes] at h
    exact ⟨[], Option.some.inj h, rfl⟩
  | n + 1, [], h => by cases h
  | n + 1, c :: s, h => by
    rw [dropBytes] at h
    split at h
    · obtain ⟨f, rfl, hf⟩ := dropBytes_some h
      exact ⟨c :: f, rfl, by rw [utf8Len_cons]; omega⟩
    · cases h

theorem takeBytes_some : ∀ {n : Nat} {s f : List Char}, takeBytes n s = some f →
    ∃ r, s = f ++ r ∧ utf8Len f = n
  | 0, s, f, h => by
    rw [takeBytes] at h
    exact ⟨s, by rw [← Option.some.inj h]; rfl, by rw [← Option.some.inj h]; rfl⟩
  | n + 1, [], f, h => by cases h
  | n + 1, c :: s, f, h => by
    rw [takeBytes] at h
    split at h
    · obtain ⟨f', hf', rfl⟩ := Option.map_eq_some_iff.mp h
      obtain ⟨r, rfl, hf⟩ := takeBytes_some hf'
      exact ⟨r, rfl, by rw [utf8Len_cons]; omega⟩
    · cases h

/-- Two ways to end at one position are one. -/
theorem append_inj_utf8 {f' r' : List Char} (h : f ++ r = f' ++ r') (hlen : utf8Len f = utf8Len f') :
    f = f' ∧ r = r' := by
  have htake := takeBytes_append (s := f) (r := r)
  have hdrop := dropBytes_append (s := f) (r := r)
  rw [h, hlen, takeBytes_append] at htake
  rw [h, hlen, dropBytes_append] at hdrop
  exact ⟨(Option.some.inj htake).symm, (Option.some.inj hdrop).symm⟩

@[simp] theorem utf8Len_eq_zero : utf8Len s = 0 ↔ s = [] := by
  cases s with
  | nil => simp
  | cons c s =>
    have := Char.utf8Size_pos c
    rw [utf8Len_cons]
    simp only [reduceCtorEq, iff_false]
    omega

/-- A part that ends no earlier than another one of the same text goes on from it. -/
theorem append_of_utf8Len_le {g t q : List Char} (h : f ++ t = g ++ q) (hle : utf8Len g ≤ utf8Len f) :
    ∃ m, f = g ++ m ∧ q = m ++ t := by
  rcases List.append_eq_append_iff.mp h with ⟨m, rfl, rfl⟩ | ⟨m, rfl, rfl⟩
  · have hm : m = [] := by
      rw [utf8Len_append] at hle
      exact utf8Len_eq_zero.mp (by omega)
    subst hm
    exact ⟨[], by rw [List.append_nil, List.append_nil], rfl⟩
  · exact ⟨m, rfl, rfl⟩

/-- Of two parts that a text begins with, the longer one has more bytes. -/
theorem utf8Len_le_iff {g t q : List Char} (h : f ++ t = g ++ q) :
    utf8Len f ≤ utf8Len g ↔ f.length ≤ g.length := by
  rcases List.append_eq_append_iff.mp h with ⟨m, rfl, -⟩ | ⟨m, rfl, -⟩
  · simp
  · have hzero : utf8Len m = 0 ↔ m.length = 0 := by rw [utf8Len_eq_zero, List.length_eq_zero_iff]
    rw [utf8Len_append, List.length_append]
    omega

/-- The bytes of a character that is not ASCII are all 128 and more. -/
theorem ge_of_mem_utf8EncodeChar {b : UInt8} (hc : ¬ c.toNat < 128) (hb : b ∈ String.utf8EncodeChar c) :
    128 ≤ b.toNat := by
  have hvalue : ¬ c.val.toNat ≤ 127 := fun h => hc (Nat.lt_succ_of_le h)
  unfold String.utf8EncodeChar at hb
  simp only [if_neg hvalue] at hb
  split at hb
  · simp only [List.mem_cons, List.not_mem_nil, or_false] at hb
    rcases hb with rfl | rfl <;> simp only [UInt8.toNat_ofNat'] <;> omega
  · split at hb
    · simp only [List.mem_cons, List.not_mem_nil, or_false] at hb
      rcases hb with rfl | rfl | rfl <;> simp only [UInt8.toNat_ofNat'] <;> omega
    · simp only [List.mem_cons, List.not_mem_nil, or_false] at hb
      rcases hb with rfl | rfl | rfl | rfl <;> simp only [UInt8.toNat_ofNat'] <;> omega

theorem utf8EncodeChar_ascii (hc : c.toNat < 128) : String.utf8EncodeChar c = [UInt8.ofNat c.toNat] := by
  have hvalue : c.val.toNat ≤ 127 := Nat.le_of_lt_succ hc
  unfold String.utf8EncodeChar
  simp only [if_pos hvalue]
  rfl

theorem utf8EncodeChar_inj {d : Char} {x y : List UInt8}
    (h : String.utf8EncodeChar c ++ x = String.utf8EncodeChar d ++ y) : c = d := by
  have hdecode (c : Char) (x : List UInt8) :
      (String.utf8EncodeChar c ++ x).toByteArray.utf8DecodeChar? 0 = some c := by
    rw [List.toByteArray_append, ByteArray.utf8DecodeChar?_utf8EncodeChar_append]
  have hc := hdecode c x
  rw [h, hdecode d y] at hc
  exact (Option.some.inj hc).symm

/-- A text whose bytes begin with those of another one begins with it. -/
theorem utf8Bytes_append_eq : ∀ {a t : List Char} {x : List UInt8}, utf8Bytes t = utf8Bytes a ++ x →
    ∃ b, t = a ++ b ∧ utf8Bytes b = x
  | [], t, x, h => ⟨t, rfl, h⟩
  | c :: a, [], x, h => by
    have hlen := congrArg List.length h
    have hpos := Char.utf8Size_pos c
    simp only [length_utf8Bytes, List.length_append, utf8Len_cons, utf8Len_nil] at hlen
    omega
  | c :: a, d :: t, x, h => by
    have hcons (c : Char) (l : List Char) : utf8Bytes (c :: l) = String.utf8EncodeChar c ++ utf8Bytes l :=
      List.flatMap_cons
    rw [hcons, hcons, List.append_assoc] at h
    obtain rfl := utf8EncodeChar_inj h
    obtain ⟨b, rfl, hb⟩ := utf8Bytes_append_eq (List.append_cancel_left h)
    exact ⟨b, rfl, hb⟩

/-- A byte below 128 is a character of its own. -/
theorem ascii_at {b : UInt8} (hb : b.toNat < 128) : ∀ {s : List Char} {i : Nat},
    (utf8Bytes s)[i]? = some b → ∃ f c r, s = f ++ c :: r ∧ utf8Len f = i ∧ c.toNat = b.toNat
  | [], i, h => by cases h
  | c :: s, i, h => by
    have hbytes : utf8Bytes (c :: s) = String.utf8EncodeChar c ++ utf8Bytes s := List.flatMap_cons
    rw [hbytes] at h
    by_cases hi : i < (String.utf8EncodeChar c).length
    · rw [List.getElem?_append_left hi] at h
      by_cases hc : c.toNat < 128
      · rw [utf8EncodeChar_ascii hc] at h hi
        obtain rfl : i = 0 := by
          rw [List.length_singleton] at hi
          omega
        refine ⟨[], c, s, rfl, rfl, ?_⟩
        have hbyte : UInt8.ofNat c.toNat = b := by simpa using h
        rw [← hbyte, UInt8.toNat_ofNat']
        omega
      · have hge := ge_of_mem_utf8EncodeChar hc (List.mem_of_getElem? h)
        omega
    · rw [List.getElem?_append_right (not_lt.mp hi)] at h
      obtain ⟨f, d, r, rfl, hf, hd⟩ := ascii_at hb h
      refine ⟨c :: f, d, r, rfl, ?_, hd⟩
      rw [String.length_utf8EncodeChar] at hi hf
      rw [utf8Len_cons]
      omega

/-- The byte of an ASCII character, where it stands. -/
theorem utf8Bytes_at (hc : c.toNat < 128) :
    (utf8Bytes (f ++ c :: r))[utf8Len f]? = some (UInt8.ofNat c.toNat) := by
  have hbytes : utf8Bytes (c :: r) = String.utf8EncodeChar c ++ utf8Bytes r := List.flatMap_cons
  rw [utf8Bytes_append, List.getElem?_append_right (by simp), length_utf8Bytes, Nat.sub_self, hbytes,
    utf8EncodeChar_ascii hc]
  rfl

theorem slice_some {m : List Char} {low high : Nat} (h : slice s low high = some m) :
    ∃ f r, s = f ++ (m ++ r) ∧ utf8Len f = low ∧ utf8Len m = high - low := by
  obtain ⟨rest, hdrop, htake⟩ := Option.bind_eq_some_iff.mp h
  obtain ⟨f, rfl, hf⟩ := dropBytes_some hdrop
  obtain ⟨r, rfl, hm⟩ := takeBytes_some htake
  exact ⟨f, r, rfl, hf, hm⟩

/-- A slice from where a part ends is the beginning of what follows it. -/
theorem slice_at {m : List Char} {low high : Nat} (hf : utf8Len f = low) :
    slice (f ++ r) low high = some m ↔ ∃ r', r = m ++ r' ∧ utf8Len m = high - low := by
  constructor
  · intro h
    obtain ⟨g, r', h, hg, hlen⟩ := slice_some h
    obtain ⟨-, h⟩ := append_inj_utf8 h (hf.trans hg.symm)
    exact ⟨r', h, hlen⟩
  · rintro ⟨r', rfl, hlen⟩
    unfold slice
    rw [← hlen, ← hf, dropBytes_append, Option.bind_some, takeBytes_append]

/-- An ASCII byte is a character where it stands. -/
theorem byteIs_iff (hc : c.toNat < 128) : byteIs s i c = true ↔ ∃ f r, s = f ++ c :: r ∧ utf8Len f = i := by
  unfold byteIs
  rw [decide_eq_true_eq]
  have hbyte : (UInt8.ofNat c.toNat).toNat = c.toNat := by
    rw [UInt8.toNat_ofNat']
    omega
  constructor
  · intro h
    obtain ⟨f, d, r, rfl, hf, hd⟩ := ascii_at (by omega) h
    rw [hbyte] at hd
    obtain rfl : d = c := Char.ext (UInt32.toNat_inj.mp hd)
    exact ⟨f, r, rfl, hf⟩
  · rintro ⟨f, r, rfl, rfl⟩
    exact utf8Bytes_at hc

/-- The byte where a part ends is the character after it. -/
theorem byteIs_at (hc : c.toNat < 128) (hf : utf8Len f = i) :
    byteIs (f ++ r) i c = true ↔ ∃ r', r = c :: r' := by
  rw [byteIs_iff hc]
  constructor
  · rintro ⟨g, r', h, hg⟩
    obtain ⟨-, h⟩ := append_inj_utf8 h (hf.trans hg.symm)
    exact ⟨r', h⟩
  · rintro ⟨r', rfl⟩
    exact ⟨f, r', rfl, hf⟩

end

theorem index_ok {s m : List Char} {low high : Nat} : index s low high = .ok m ↔ slice s low high = some m := by
  unfold index
  cases slice s low high with
  | none => exact ⟨nofun, nofun⟩
  | some m' => exact ⟨fun h => congrArg some (Except.ok.inj h), fun h => congrArg Except.ok (Option.some.inj h)⟩

theorem index_error {s : List Char} {low high : Nat} (h : ∀ m, index s low high ≠ .ok m) :
    index s low high = .error .charBoundary := by
  unfold index at h ⊢
  cases hs : slice s low high with
  | none => rfl
  | some m =>
    rw [hs] at h
    exact absurd rfl (h m)

theorem index_at {p r m : List Char} {low high : Nat} (hp : utf8Len p = low) :
    index (p ++ r) low high = .ok m ↔ ∃ r', r = m ++ r' ∧ utf8Len m = high - low :=
  index_ok.trans (slice_at hp)

/-- The rest of a text that ends where the slice does. -/
theorem index_rest {p r : List Char} {low high : Nat} (hp : utf8Len p = low) (hr : utf8Len r = high - low) :
    index (p ++ r) low high = .ok r :=
  (index_at hp).mpr ⟨[], (List.append_nil r).symm, hr⟩

theorem index_start {h r : List Char} {n : Nat} (hh : utf8Len h = n) : index (h ++ r) 0 n = .ok h :=
  (index_at (p := []) utf8Len_nil).mpr ⟨r, rfl, hh⟩

end Text
