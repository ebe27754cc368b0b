import ClaudeManager.Messaging.Commit
import ClaudeManager.Messaging.Names

/-!
# Name keys

* `Spelled` — a name as an allocation gives it: dashed, of 2 to 40 characters, not reserved
* `UnicodeTables` — what is documented of the tables on the suffix of a taken name
* `allocate_ok` — an allocated name is spelled so, and no one else holds its key
-/

namespace ClaudeManager

open Json Containers Program

/-! ## Words -/

/-- A text without blanks. -/
def Solid (l : List Char) : Prop := ∀ c ∈ l, isWhitespace c = false

theorem words_solid {l : List Char} : ∀ w ∈ words l, Solid w := by
  induction l with
  | nil =>
    intro w hw
    cases hw
  | cons c rest ih =>
    unfold words
    cases hc : isWhitespace c with
    | true => simpa using ih
    | false =>
      have hone : Solid [c] := by
        intro d hd
        rw [List.mem_singleton.mp hd, hc]
      rw [if_neg (by decide)]
      split
      · rename_i d rest' w ws hws
        split
        · intro v hv
          rcases List.mem_cons.mp hv with rfl | hv
          · exact hone
          · exact ih v (hws ▸ hv)
        · intro v hv
          rcases List.mem_cons.mp hv with rfl | hv
          · have hw := ih w (hws ▸ List.mem_cons_self)
            intro d hd
            rcases List.mem_cons.mp hd with rfl | hd
            · exact hc
            · exact hw d hd
          · exact ih v (hws ▸ List.mem_cons_of_mem w hv)
      · rename_i ws hws
        intro v hv
        rcases List.mem_cons.mp hv with rfl | hv
        · exact hone
        · exact ih v hv

/-- No character but a blank gets lost. -/
theorem mem_words {l : List Char} {c : Char} (h : c ∈ l) (hc : isWhitespace c = false) :
    ∃ w ∈ words l, c ∈ w := by
  induction l with
  | nil => cases h
  | cons d rest ih =>
    unfold words
    cases hd : isWhitespace d with
    | true =>
      rcases List.mem_cons.mp h with rfl | h
      · simp [hc] at hd
      · simpa using ih h
    | false =>
      rw [if_neg (by decide)]
      rcases List.mem_cons.mp h with rfl | h
      · split
        · split
          · exact ⟨_, List.mem_cons_self, List.mem_cons_self⟩
          · exact ⟨_, List.mem_cons_self, List.mem_cons_self⟩
        · exact ⟨_, List.mem_cons_self, List.mem_cons_self⟩
      · obtain ⟨w, hw, hcw⟩ := ih h
        split
        · rename_i rest' v ws hws
          rw [hws] at hw
          split
          · exact ⟨w, List.mem_cons_of_mem _ hw, hcw⟩
          · rcases List.mem_cons.mp hw with rfl | hw
            · exact ⟨_, List.mem_cons_self, List.mem_cons_of_mem _ hcw⟩
            · exact ⟨w, List.mem_cons_of_mem _ hw, hcw⟩
        · exact ⟨w, List.mem_cons_of_mem _ hw, hcw⟩

theorem words_of_solid {l : List Char} (h : Solid l) (hne : l ≠ []) : words l = [l] := by
  induction l with
  | nil => exact absurd rfl hne
  | cons c rest ih =>
    have hc : isWhitespace c = false := h c List.mem_cons_self
    unfold words
    rw [if_neg (by simp [hc])]
    cases rest with
    | nil => rfl
    | cons d rest =>
      have hrest : Solid (d :: rest) := fun x hx => h x (List.mem_cons_of_mem c hx)
      rw [ih hrest (List.cons_ne_nil d rest)]
      simp [hrest d List.mem_cons_self]

theorem mem_intercalate {sep : List Char} {ls : List (List Char)} {c : Char} :
    c ∈ List.intercalate sep ls → c ∈ sep ∨ ∃ l ∈ ls, c ∈ l := by
  induction ls with
  | nil => simp [List.intercalate]
  | cons l ls ih =>
    cases ls with
    | nil =>
      intro h
      exact .inr ⟨l, List.mem_cons_self, by simpa [List.intercalate] using h⟩
    | cons l' ls =>
      rw [List.intercalate_cons_cons]
      intro h
      rcases List.mem_append.mp h with h | h
      · rcases List.mem_append.mp h with h | h
        · exact .inr ⟨l, List.mem_cons_self, h⟩
        · exact .inl h
      · rcases ih h with h | ⟨m, hm, h⟩
        · exact .inl h
        · exact .inr ⟨m, List.mem_cons_of_mem l hm, h⟩

theorem mem_intercalate_of {sep : List Char} {ls : List (List Char)} {l : List Char} {c : Char}
    (hl : l ∈ ls) (hc : c ∈ l) : c ∈ List.intercalate sep ls := by
  induction ls with
  | nil => cases hl
  | cons m ls ih =>
    cases ls with
    | nil =>
      rw [List.mem_singleton.mp hl] at hc
      simpa [List.intercalate] using hc
    | cons m' ls =>
      rw [List.intercalate_cons_cons]
      rcases List.mem_cons.mp hl with rfl | hl
      · simp [hc]
      · exact List.mem_append_right _ (ih hl)

theorem mem_joinWords {s sep : String} {c : Char} (h : c ∈ s.toList)
    (hc : isWhitespace c = false) : c ∈ (joinWords s sep).toList := by
  unfold joinWords
  rw [String.toList_ofList]
  obtain ⟨w, hw, hcw⟩ := mem_words h hc
  exact mem_intercalate_of hw hcw

theorem joinWords_of_solid {s sep : String} (h : Solid s.toList) : joinWords s sep = s := by
  unfold joinWords
  by_cases hs : s.toList = []
  · rw [hs]
    exact String.toList_injective (by rw [String.toList_ofList, hs]; rfl)
  · rw [words_of_solid h hs]
    simp [List.intercalate]

theorem dashedName_solid (s : String) : Solid (dashedName s).toList := by
  unfold dashedName joinWords
  rw [String.toList_ofList]
  intro c hc
  rcases mem_intercalate hc with hc | ⟨w, hw, hc⟩
  · have hdash : c = '-' := by simpa using hc
    rw [hdash]
    decide
  · exact words_solid w hw c hc

/-! ## Suffixes -/

/-- A digit of a SHA-256 in lower-case hexadecimal. -/
def hexDigit (c : Char) : Bool := c.isDigit || ('a' ≤ c && c ≤ 'f')

/-- The suffix of a taken name: a hyphen and digits of a hash. -/
def suffix (digits : List Char) : String := String.ofList ('-' :: digits)

/-- What is documented of SHA-256 and of the Unicode tables on a hyphen and hexadecimal digits: they
are in lower case, compose with nothing before them, and each is a character of its own. -/
structure UnicodeTables [Externals] : Prop where
  sha256 : ∀ s, 32 ≤ (Externals.sha256 s).toList.length ∧ ∀ c ∈ (Externals.sha256 s).toList, hexDigit c
  nfkc : ∀ s l, (∀ c ∈ l, hexDigit c) → Externals.nfkc (s ++ suffix l) = Externals.nfkc s ++ suffix l
  caseFold : ∀ s l, (∀ c ∈ l, hexDigit c) →
    Externals.caseFold (s ++ suffix l) = Externals.caseFold s ++ suffix l
  join : ∀ s, String.join (Externals.graphemes s) = s
  take : ∀ s k, Externals.graphemes (String.join ((Externals.graphemes s).take k)) =
    (Externals.graphemes s).take k
  hyphen : ∀ s, (Externals.graphemes (s ++ "-")).length ≤ (Externals.graphemes s).length + 1
  alone : Externals.graphemes "-" = ["-"]
  digits : ∀ s l, (∀ c ∈ l, hexDigit c) → (Externals.graphemes (s ++ suffix l)).length =
    (Externals.graphemes (s ++ "-")).length + l.length

theorem suffix_solid {l : List Char} (h : ∀ c ∈ l, hexDigit c) : Solid ('-' :: l) := by
  intro c hc
  rcases List.mem_cons.mp hc with rfl | hc
  · decide
  · have hx := h c hc
    simp only [hexDigit, Char.isDigit, Bool.or_eq_true, Bool.and_eq_true, decide_eq_true_eq] at hx
    have hn : 48 ≤ c.toNat ∧ c.toNat ≤ 102 := by
      rcases hx with ⟨h1, h2⟩ | ⟨h1, h2⟩
      · exact ⟨h1, by exact Nat.le_trans h2 (by decide)⟩
      · exact ⟨Nat.le_trans (by decide) h1, h2⟩
    unfold isWhitespace
    simp only [Bool.or_eq_false_iff, Bool.and_eq_false_iff, decide_eq_false_iff_not]
    omega

theorem reserved_plain {k : String} (h : k ∈ reservedKeys) : '-' ∉ k.toList := by
  revert k
  decide

theorem mem_join {l : List String} {s : String} (hs : s ∈ l) {c : Char} (hc : c ∈ s.toList) :
    c ∈ (String.join l).toList := by
  rw [String.toList_join]
  exact List.mem_flatMap.mpr ⟨s, hs, hc⟩

/-- A name as an allocation gives it. -/
structure Spelled [Externals] (name : String) : Prop where
  solid : Solid name.toList
  size : 2 ≤ (Externals.graphemes name).length ∧ (Externals.graphemes name).length ≤ 40
  free : nameKey name ∉ reservedKeys

section

variable [Externals]

theorem Spelled.dashed {name : String} (h : Spelled name) : dashedName name = name :=
  joinWords_of_solid h.solid

/-- The key of a name with a suffix has its hyphen. -/
theorem nameKey_suffix (hu : UnicodeTables) {s : String} {l : List Char} (h : ∀ c ∈ l, hexDigit c) :
    '-' ∈ (nameKey (s ++ suffix l)).toList := by
  have hdash : isWhitespace '-' = false := by decide
  unfold nameKey normalize dashedName
  rw [hu.nfkc s l h, hu.caseFold _ l h, hu.nfkc _ l h]
  refine mem_joinWords (mem_joinWords ?_ hdash) hdash
  rw [String.toList_append, suffix, String.toList_ofList]
  exact List.mem_append_right _ List.mem_cons_self

/-- A suffixed name is spelled as its base is. -/
theorem spelled_suffixed (hu : UnicodeTables) {actor base : String} (hbase : Solid base.toList)
    {len : Nat} (hlen : 3 ≤ len ∧ len ≤ 32) : Spelled (Store.suffixed actor base len) := by
  obtain ⟨hlong, hhex⟩ := hu.sha256 actor
  let digits := (hash actor).toList.take len
  have hdigits : ∀ c ∈ digits, hexDigit c := fun c hc => hhex c (List.mem_of_mem_take hc)
  have hcount : digits.length = len := by
    rw [List.length_take]
    unfold hash
    omega
  have htail : (Externals.graphemes (suffix digits)).length = 1 + len := by
    have h := hu.digits "" digits hdigits
    rwa [String.empty_append, String.empty_append, hu.alone, hcount] at h
  let front := String.join ((Externals.graphemes base).take (40 - (1 + len)))
  have hname : Store.suffixed actor base len = front ++ suffix digits := by
    show String.join ((Externals.graphemes base).take
      (40 - (Externals.graphemes (suffix digits)).length)) ++ suffix digits = _
    rw [htail]
  rw [hname]
  refine ⟨?_, ?_, fun hr => reserved_plain hr (nameKey_suffix hu hdigits)⟩
  · intro c hc
    rw [String.toList_append, suffix, String.toList_ofList] at hc
    rcases List.mem_append.mp hc with hc | hc
    · refine hbase c ?_
      rw [String.toList_join] at hc
      obtain ⟨g, hg, hc⟩ := List.mem_flatMap.mp hc
      have hmem := mem_join (List.mem_of_mem_take hg) hc
      rwa [hu.join] at hmem
    · exact suffix_solid hdigits c hc
  · have hfront : (Externals.graphemes front).length ≤ 40 - (1 + len) := by
      rw [hu.take, List.length_take]
      omega
    have hhyphen := hu.hyphen front
    rw [hu.digits front digits hdigits, hcount]
    omega

theorem checkName_ok {s : Store} {actor raw base : String} (h : s.checkName actor raw = .ok base) :
    Spelled base := by
  unfold Store.checkName at h
  obtain ⟨_, -, h⟩ := except_bind_ok.mp h
  obtain ⟨_, hsize, h⟩ := except_bind_ok.mp h
  obtain ⟨_, hfree, h⟩ := except_bind_ok.mp h
  obtain ⟨_, -, h⟩ := except_bind_ok.mp h
  obtain rfl := except_pure_ok.mp h
  refine ⟨dashedName_solid raw, not_not.mp (except_refuse_ok.mp hsize), fun hr => ?_⟩
  exact except_refuse_ok.mp hfree (List.contains_iff_mem.mpr hr)

theorem freeSpelling_ok (hu : UnicodeTables) {s : Store} {actor base name : String}
    (hbase : Spelled base) (h : s.freeSpelling actor base = .ok name) :
    Spelled name ∧ s.occupied actor name = false := by
  unfold Store.freeSpelling at h
  have hfound := except_okOr_ok.mp h
  refine ⟨?_, by simpa using List.find?_some hfound⟩
  rcases List.mem_cons.mp (List.mem_of_find?_eq_some hfound) with rfl | hmem
  · exact hbase
  · obtain ⟨len, hlen, rfl⟩ := List.mem_map.mp hmem
    rw [List.mem_range'_1] at hlen
    exact spelled_suffixed hu hbase.solid (by omega)

/-- What an allocation gives. -/
structure Allocated (s : Store) (actor : String) (n : Name) : Prop where
  spelled : Spelled n.name
  free : s.occupied actor n.name = false
  revision : nextRevision s.names[actor]? = .ok n.revision
  aliases : n.aliases = Store.nextAliases s.names[actor]? n.name
  unreleased : n.released = false

theorem allocate_ok (hu : UnicodeTables) {actor raw uid : String} {s t : Store} {n : Name}
    (h : allocate actor raw uid s = .ok n t) : Allocated s actor n ∧ t = s.mint := by
  unfold allocate at h
  rw [bind_query_ok] at h
  obtain ⟨base, hbase, h⟩ := h
  rw [bind_query_ok] at h
  obtain ⟨name, hname, h⟩ := h
  rw [bind_get_ok, bind_check_ok] at h
  obtain ⟨revision, hrevision, h⟩ := h
  rw [bind_uuid_ok] at h
  obtain ⟨rfl, rfl⟩ := pure_ok.mp h
  obtain ⟨hspelled, hfree⟩ := freeSpelling_ok hu (checkName_ok hbase) hname
  exact ⟨⟨hspelled, hfree, hrevision, rfl, rfl⟩, rfl⟩

end

/-! ## Plain text -/

mutual

/-- A value of ASCII texts without quotes and backslashes, as JSON. -/
def plainJson : Value → String
  | .null => "null"
  | .bool b => if b then "true" else "false"
  | .num n => toString n
  | .frac q => toString q
  | .str s => "\"" ++ s ++ "\""
  | .arr items => "[" ++ plainItems items ++ "]"
  | .obj members => "\x7b" ++ plainMembers members ++ "\x7d"

def plainItems : List Value → String
  | [] => ""
  | [v] => plainJson v
  | v :: rest => plainJson v ++ "," ++ plainItems rest

def plainMembers : List (String × Value) → String
  | [] => ""
  | [(k, v)] => "\"" ++ k ++ "\":" ++ plainJson v
  | (k, v) :: rest => "\"" ++ k ++ "\":" ++ plainJson v ++ "," ++ plainMembers rest

end

/-- What is called, on ASCII text: every character is a grapheme and composes with nothing. The
digests are those that `digests` lists, and texts are not read back. -/
@[reducible] def plainText (digests : String → Option String) : Externals where
  parse _ := .error "expected value at line 1 column 1"
  pretty := plainJson
  compact := plainJson
  mismatch _ := "invalid type"
  sha256 s :=
    let digest := ((digests s).getD "").toList.filter hexDigit
    String.ofList (digest ++ List.replicate (64 - digest.length) '0')
  isUuid s := s.toList.length = 36
  isRfc3339 s := s.toList.length = 20
  nfkc s := s
  caseFold s := String.ofList (s.toList.map Char.toLower)
  graphemes s := s.toList.map String.singleton
  isAlphanumeric := Char.isAlphanum
  uuid _ n := "00000000-0000-4000-8000-" ++ String.ofList ((padded n).toList.drop 8)
  now _ := "2026-01-01T00:00:00Z"

theorem toLower_hexDigit {c : Char} (h : hexDigit c) : c.toLower = c := by
  have hx : ¬ ('A' ≤ c ∧ c ≤ 'Z') := by
    rintro ⟨hA, hZ⟩
    simp only [hexDigit, Char.isDigit, Bool.or_eq_true, Bool.and_eq_true, decide_eq_true_eq] at h
    rcases h with ⟨-, h9⟩ | ⟨ha, -⟩
    · exact absurd (Nat.le_trans (show 65 ≤ c.toNat from hA) (show c.toNat ≤ 57 from h9)) (by decide)
    · exact absurd (Nat.le_trans (show 97 ≤ c.toNat from ha) (show c.toNat ≤ 90 from hZ)) (by decide)
  unfold Char.toLower
  exact dif_neg hx

theorem join_singletons : ∀ l : List Char, String.join (l.map String.singleton) = String.ofList l
  | [] => rfl
  | c :: l => by
    refine String.toList_injective ?_
    rw [String.toList_join, String.toList_ofList, List.map_cons, List.flatMap_cons,
      ← String.toList_join, join_singletons l, String.toList_singleton, String.toList_ofList]
    rfl

theorem plainText_tables (digests : String → Option String) : @UnicodeTables (plainText digests) := by
  let _ := plainText digests
  refine ⟨fun s => ?_, fun _ _ _ => rfl, fun s l hl => ?_, fun s => ?_, fun s k => ?_, fun s => ?_,
    rfl, fun s l _ => ?_⟩
  · have hdigits : (Externals.sha256 s).toList = (((digests s).getD "").toList.filter hexDigit)
        ++ List.replicate (64 - (((digests s).getD "").toList.filter hexDigit).length) '0' :=
      String.toList_ofList
    simp only [hdigits, List.length_append, List.length_replicate, List.mem_append,
      List.mem_filter, List.mem_replicate]
    refine ⟨by omega, fun c hc => ?_⟩
    rcases hc with ⟨-, hc⟩ | ⟨-, rfl⟩
    · exact hc
    · decide
  · have hfold : ('-' :: l).map Char.toLower = '-' :: l := by
      rw [List.map_cons]
      exact congrArg (Char.toLower '-' :: ·)
        ((List.map_congr_left fun c hc => toLower_hexDigit (hl c hc)).trans (List.map_id' l))
    refine String.toList_injective ?_
    show (String.ofList _).toList = _
    rw [String.toList_append, String.toList_append, String.toList_ofList, List.map_append, suffix,
      String.toList_ofList, hfold]
    exact congrArg (· ++ _) (String.toList_ofList).symm
  · show String.join (s.toList.map String.singleton) = s
    rw [join_singletons, String.ofList_toList]
  · show (String.join ((s.toList.map String.singleton).take k)).toList.map String.singleton = _
    rw [← List.map_take, join_singletons, String.toList_ofList, List.map_take]
    rfl
  · show ((s ++ "-").toList.map String.singleton).length ≤ (s.toList.map String.singleton).length + 1
    rw [List.length_map, List.length_map, String.toList_append, List.length_append]
    exact Nat.le_refl _
  · show ((s ++ suffix l).toList.map String.singleton).length
      = ((s ++ "-").toList.map String.singleton).length + l.length
    simp only [List.length_map, String.toList_append, List.length_append, suffix,
      String.toList_ofList, List.length_cons]
    show _ = _ + 1 + _
    omega

/-- The coordinator's empty store. -/
def freshStore : Store :=
  .open "11111111-1111-4111-8111-111111111111"
    { spaceId := "22222222-2222-4222-8222-222222222222"
      coordinatorId := "11111111-1111-4111-8111-111111111111"
      generation := "33333333-3333-4333-8333-333333333333"
      enrollmentRevision := "44444444-4444-4444-8444-444444444444"
      ownerIdentityRevision := "55555555-5555-4555-8555-555555555555" } false

end ClaudeManager
