import ClaudeManager.Workflow.Template

/-!
# What a template is rendered to

* `closing_some` — the byte scan finds the spans of the text
* `renderFrom_pieces` — the rendering is the literal parts and the values of the placeholders
* `indexInto_eq` — an index counts from the front or from the back
* `render_exact` — when a template is rendered
-/

namespace ClaudeManager

open Text Program

def openMark : List Char := ['{', '{']

def closeMark : List Char := ['}', '}']

theorem ok_bind {ε α β : Type} {a : α} {f : α → Except ε β} : (Except.ok a >>= f) = f a := rfl

section

variable {s p rest out : List Char} {i start ls : Nat} {r : RoleResolver}

/-- Two equal ASCII bytes are a mark. -/
theorem pair_iff {c : Char} (hc : c.toNat < 128) :
    (byteIs s i c && byteIs s (i + 1) c) = true ↔ ∃ f t, s = f ++ ([c, c] ++ t) ∧ utf8Len f = i := by
  rw [Bool.and_eq_true, byteIs_iff hc]
  constructor
  · rintro ⟨⟨f, t, rfl, hf⟩, hnext⟩
    have hlen : utf8Len (f ++ [c]) = i + 1 := by
      rw [utf8Len_append, hf, utf8Len_cons, utf8Size_ascii hc, utf8Len_nil]
    rw [List.append_cons] at hnext
    obtain ⟨t, rfl⟩ := (byteIs_at hc hlen).mp hnext
    exact ⟨f, t, rfl, hf⟩
  · rintro ⟨f, t, rfl, hf⟩
    have hlen : utf8Len (f ++ [c]) = i + 1 := by
      rw [utf8Len_append, hf, utf8Len_cons, utf8Size_ascii hc, utf8Len_nil]
    refine ⟨⟨f, c :: t, rfl, hf⟩, ?_⟩
    have hnext := (byteIs_at (f := f ++ [c]) (r := c :: t) hc hlen).mpr ⟨t, rfl⟩
    rwa [List.append_assoc] at hnext

/-- The search for a closing mark behind a known part finds the first one. -/
theorem findClose_some {c : Nat} (hp : utf8Len p = start) : findClose (p ++ rest) start = some c ↔
    ∃ inner t, First closeMark rest inner t ∧ c = start + utf8Len inner := by
  unfold findClose
  rw [List.find?_range'_eq_some, pair_iff (by decide)]
  constructor
  · rintro ⟨⟨f, t, hs, hf⟩, hc, hfirst⟩
    have hle := (List.mem_range'_1.mp hc).1
    obtain ⟨m, rfl, rfl⟩ := append_of_utf8Len_le hs.symm (by omega)
    rw [utf8Len_append, hp] at hf
    refine ⟨m, t, ⟨rfl, fun g q hg => ?_⟩, hf.symm⟩
    -- An earlier mark would have been found.
    rw [← utf8Len_le_iff hg]
    by_contra hlt
    have hnot := hfirst (start + utf8Len g) (by omega) (by omega)
    have hpair := (pair_iff (s := p ++ (m ++ ([ '}', '}'] ++ t))) (i := start + utf8Len g) (c := '}') (by decide)).mpr
      ⟨p ++ g, q, by rw [List.append_assoc]; exact congrArg (p ++ ·) hg, by rw [utf8Len_append, hp]⟩
    rw [hpair] at hnot
    cases hnot
  · rintro ⟨inner, t, hfirst, rfl⟩
    refine ⟨⟨p ++ inner, t, ?_, by rw [utf8Len_append, hp]⟩, ?_, fun j hj hlt => ?_⟩
    · rw [List.append_assoc]
      exact congrArg (p ++ ·) hfirst.eq
    · have hlen := congrArg utf8Len hfirst.eq
      have hmark : utf8Len closeMark = 2 := rfl
      rw [utf8Len_append, utf8Len_append, hmark] at hlen
      rw [List.mem_range'_1, utf8Len_append]
      omega
    · rw [Bool.not_eq_true', ← Bool.not_eq_true, pair_iff (by decide)]
      rintro ⟨f, q, hs, hf⟩
      obtain ⟨m, rfl, hrest⟩ := append_of_utf8Len_le hs.symm (by omega)
      have hle := hfirst.first m q hrest
      rw [← utf8Len_le_iff (hfirst.eq.symm.trans hrest)] at hle
      rw [utf8Len_append] at hf
      omega

/-- A placeholder begins at an opening mark, and closes at the first closing mark after it. -/
theorem closing_some {c : Nat} : closing s i = some c ↔ ∃ f t inner q, s = f ++ (openMark ++ t)
    ∧ utf8Len f = i ∧ First closeMark t inner q ∧ c = i + 2 + utf8Len inner := by
  unfold closing
  constructor
  · intro h
    split at h
    · rename_i hopen
      obtain ⟨f, t, rfl, hf⟩ := (pair_iff (by decide)).mp hopen
      have hlen : utf8Len (f ++ ['{', '{']) = i + 2 := by
        rw [utf8Len_append, hf]
        rfl
      rw [← List.append_assoc] at h
      obtain ⟨inner, q, hfirst, rfl⟩ := (findClose_some hlen).mp h
      exact ⟨f, t, inner, q, rfl, hf, hfirst, rfl⟩
    · cases h
  · rintro ⟨f, t, inner, q, rfl, hf, hfirst, rfl⟩
    have hlen : utf8Len (f ++ openMark) = i + 2 := by
      rw [utf8Len_append, hf]
      rfl
    have hopen := (pair_iff (s := f ++ (openMark ++ t)) (c := '{') (by decide)).mpr ⟨f, t, rfl, hf⟩
    rw [if_pos hopen, ← List.append_assoc]
    exact (findClose_some hlen).mpr ⟨inner, q, hfirst, rfl⟩

/-- The scan goes on over what begins no placeholder. -/
theorem renderFrom_skip {k : Nat} (hik : i ≤ k) (hk : k ≤ utf8Len s)
    (h : ∀ j, i ≤ j → j < k → closing s j = none) : renderFrom r s i ls out = renderFrom r s k ls out := by
  obtain ⟨d, rfl⟩ := Nat.exists_eq_add_of_le hik
  induction d generalizing i with
  | zero => rfl
  | succ d ih =>
    have hnone := h i (Nat.le_refl i) (by omega)
    have hstep : renderFrom r s i ls out = renderFrom r s (i + 1) ls out := by
      rw [renderFrom, if_pos (by omega)]
      split
      · rename_i close hclose
        rw [hnone] at hclose
        cases hclose
      · rfl
    have hrest := ih (i := i + 1) (by omega) (by omega) fun j hj hjd => h j (by omega) (by omega)
    rw [hstep, hrest]
    congr 1
    omega

/-- The parts of a template, put out one after the other. -/
def renderPieces (r : RoleResolver) : List (Piece Char) → List Char → Except Panic (List Char)
  | [], out => .ok out
  | .literal text :: ps, out => renderPieces r ps (out ++ text)
  | .placeholder inner :: ps, out => do
    let value ← expand r inner
    renderPieces r ps (out ++ value.toList)

/-- The rendering goes part by part. -/
theorem renderFrom_pieces {ps : List (Piece Char)} (h : Pieces openMark closeMark rest ps)
    (hp : utf8Len p = i) : renderFrom r (p ++ rest) i i out = renderPieces r ps out := by
  induction h generalizing p i out with
  | @last s hnone =>
    have hskip : renderFrom r (p ++ s) i i out = renderFrom r (p ++ s) (utf8Len (p ++ s)) i out := by
      refine renderFrom_skip (by rw [utf8Len_append]; omega) le_rfl fun j hij _ => ?_
      rw [Option.eq_none_iff_forall_ne_some]
      intro c hc
      obtain ⟨f, t, inner, q, hs, hf, hfirst, -⟩ := closing_some.mp hc
      obtain ⟨m, -, hrest⟩ := append_of_utf8Len_le hs.symm (by omega)
      exact hnone m t hrest inner q hfirst.eq
    have hindex : index (p ++ s) i (utf8Len (p ++ s)) = .ok s :=
      index_rest hp (by rw [utf8Len_append]; omega)
    rw [hskip, renderFrom, if_neg (lt_irrefl _), hindex]
    rfl
  | @next s lit t inner q ps hopen hclosed hq ih =>
    have hmark : utf8Len openMark = 2 ∧ utf8Len closeMark = 2 := ⟨rfl, rfl⟩
    have hk : utf8Len (p ++ lit) = i + utf8Len lit := by rw [utf8Len_append, hp]
    have hs : p ++ s = p ++ lit ++ (openMark ++ t) := by rw [hopen.eq, List.append_assoc]
    have hend : utf8Len (p ++ lit ++ openMark ++ inner ++ closeMark)
        = i + utf8Len lit + 2 + utf8Len inner + 2 := by
      simp only [utf8Len_append, hp, hmark]
    have hsplit : p ++ s = p ++ lit ++ openMark ++ inner ++ closeMark ++ q := by
      rw [hs, hclosed.eq]
      simp only [List.append_assoc]
    have hskip : renderFrom r (p ++ s) i i out = renderFrom r (p ++ s) (i + utf8Len lit) i out := by
      refine renderFrom_skip (by omega) ?_ fun j hij hj => ?_
      · rw [hs, utf8Len_append, hk]
        omega
      · rw [Option.eq_none_iff_forall_ne_some]
        intro c hc
        obtain ⟨f, t', inner', q', hs', hf, -⟩ := closing_some.mp hc
        obtain ⟨m, rfl, hrest⟩ := append_of_utf8Len_le hs'.symm (by omega)
        have hle := hopen.first m t' hrest
        rw [← utf8Len_le_iff (hopen.eq.symm.trans hrest)] at hle
        rw [utf8Len_append] at hf
        omega
    have hclose : closing (p ++ s) (i + utf8Len lit) = some (i + utf8Len lit + 2 + utf8Len inner) :=
      closing_some.mpr ⟨p ++ lit, t, inner, q, hs, hk, hclosed, rfl⟩
    have hliteral : index (p ++ s) i (i + utf8Len lit) = .ok lit :=
      (index_at hp).mpr ⟨openMark ++ t, hopen.eq, by omega⟩
    have hkey : index (p ++ s) (i + utf8Len lit + 2) (i + utf8Len lit + 2 + utf8Len inner) = .ok inner := by
      rw [hs, ← List.append_assoc]
      exact (index_at (by rw [utf8Len_append, hk, hmark.1])).mpr ⟨closeMark ++ q, hclosed.eq, by omega⟩
    have hlt : i + utf8Len lit < utf8Len (p ++ s) := by
      rw [hs, utf8Len_append, hk, utf8Len_append, hmark.1]
      omega
    rw [hskip, renderFrom, if_pos hlt]
    split
    · rename_i close hclose'
      obtain rfl := Option.some.inj (hclose.symm.trans hclose')
      rw [hliteral, hkey, hsplit]
      rw [renderPieces, renderPieces, ok_bind, ok_bind]
      refine bind_congr fun value => ?_
      rw [ih hend]
    · rename_i hclose'
      rw [hclose] at hclose'
      cases hclose'

/-- The literal parts, and the values of the placeholders. -/
def substituted (value : List Char → String) : List (Piece Char) → List Char
  | [] => []
  | .literal text :: ps => text ++ substituted value ps
  | .placeholder inner :: ps => (value inner).toList ++ substituted value ps

/-- The parts are put out where all placeholders have values. -/
theorem renderPieces_ok {ps : List (Piece Char)} {value : List Char → String}
    (h : ∀ inner, Piece.placeholder inner ∈ ps → expand r inner = .ok (value inner)) :
    renderPieces r ps out = .ok (out ++ substituted value ps) := by
  induction ps generalizing out with
  | nil => rw [renderPieces, substituted, List.append_nil]
  | cons p ps ih =>
    have hps := fun inner hin => h inner (List.mem_cons_of_mem p hin)
    cases p with
    | literal text => rw [renderPieces, substituted, ih hps, List.append_assoc]
    | placeholder inner =>
      rw [renderPieces, substituted, h inner List.mem_cons_self, ← List.append_assoc]
      exact ih hps

/-- They are put out only then. -/
theorem expand_of_renderPieces {ps : List (Piece Char)} {v inner : List Char}
    (h : renderPieces r ps out = .ok v) (hin : Piece.placeholder inner ∈ ps) :
    ∃ value, expand r inner = .ok value := by
  induction ps generalizing out with
  | nil => cases hin
  | cons p ps ih =>
    cases p with
    | literal text =>
      rcases List.mem_cons.mp hin with hin | hin
      · cases hin
      · exact ih h hin
    | placeholder inner' =>
      rw [renderPieces, except_bind_ok] at h
      obtain ⟨value, hvalue, h⟩ := h
      rcases List.mem_cons.mp hin with hin | hin
      · obtain rfl := Piece.placeholder.inj hin
        exact ⟨value, hvalue⟩
      · exact ih h hin

end

/-! ## Keys -/

section

variable {r : RoleResolver} {role accessor text : List Char} {n : Int}

/-- The `n`-th message from the front, or the `-n`-th from the back. -/
def nthMessage (v : List String) (n : Int) : String :=
  if 0 ≤ n then v[n.toNat]?.getD "" else (v.reverse[(-n).toNat - 1]?).getD ""

/-- An index counts from the front or from the back, where it can be negated. -/
theorem indexInto_eq {v : List String} (h : n ≠ -2 ^ 63 ∨ v = []) : indexInto v n = .ok (nthMessage v n) := by
  unfold indexInto normIndex nthMessage
  by_cases hv : v = []
  · subst hv
    simp [pure, Except.pure, bind, Except.bind]
  have hlen : v.length ≠ 0 := fun h => hv (List.length_eq_zero_iff.mp h)
  rw [if_neg hlen]
  by_cases hn : 0 ≤ n
  · rw [if_pos hn, if_pos hn]
    by_cases hlt : n.toNat < v.length
    · rw [if_pos hlt]
      rfl
    · rw [if_neg hlt, List.getElem?_eq_none (by omega)]
      rfl
  · have hback : negate n = .ok (-n) := if_neg (h.resolve_right hv)
    rw [if_neg hn, if_neg hn, hback, ok_bind]
    by_cases hle : (-n).toNat ≤ v.length
    · have hreverse : v.reverse[(-n).toNat - 1]? = v[v.length - (-n).toNat]? := by
        rw [List.getElem?_reverse (by omega)]
        congr 1
        omega
      rw [if_pos hle, hreverse]
      rfl
    · rw [if_neg hle, List.getElem?_eq_none (by rw [List.length_reverse]; omega)]
      rfl

/-- The smallest machine integer cannot be negated. -/
theorem indexInto_overflow {v : List String} (h : v ≠ []) : indexInto v (-2 ^ 63) = .error .overflow := by
  have hlen : v.length ≠ 0 := fun hv => h (List.length_eq_zero_iff.mp hv)
  unfold indexInto normIndex
  rw [if_neg hlen]
  rfl

/-- The text of an index. -/
def Numeral (text : List Char) (n : Int) : Prop :=
  ']' ∉ text ∧ parseIsize (trimmed (String.ofList text)).toList = some n

theorem trimmed_of_none {l : List Char} (h : ∀ c ∈ l, isWhitespace c = false) :
    (trimmed (String.ofList l)).toList = l := by
  have hdrop {l : List Char} (h : ∀ c ∈ l, isWhitespace c = false) : l.dropWhile isWhitespace = l := by
    cases l with
    | nil => rfl
    | cons c l => rw [List.dropWhile_cons_of_neg (by rw [h c List.mem_cons_self]; decide)]
  unfold trimmed
  rw [String.toList_ofList, String.toList_ofList, hdrop h, hdrop fun c hc => h c (List.mem_reverse.mp hc),
    List.reverse_reverse]

theorem digitsValue_toDigits (m : Nat) : digitsValue (Nat.toDigits 10 m) = some (m : Int) := by
  have hall : (Nat.toDigits 10 m).all Char.isDigit = true :=
    List.all_eq_true.mpr fun c hc => Nat.isDigit_of_mem_toDigits (by omega) (by omega) hc
  unfold digitsValue
  rw [if_pos ⟨Nat.toDigits_ne_nil, hall⟩, Nat.ofDigitChars_ten_toDigits]

theorem toString_ofNat (m : Nat) : (toString (Int.ofNat m)).toList = Nat.toDigits 10 m := String.toList_ofList

theorem toString_negSucc (m : Nat) : (toString (Int.negSucc m)).toList = '-' :: Nat.toDigits 10 (m + 1) := by
  show ("-" ++ Nat.repr (m + 1)).toList = _
  rw [String.toList_append]
  exact congrArg ('-' :: ·) String.toList_ofList

/-- Every machine integer has one. -/
theorem numeral_toString (hn : -2 ^ 63 ≤ n ∧ n < 2 ^ 63) : Numeral (toString n).toList n := by
  have hdigit {m : Nat} {c : Char} (hc : c ∈ Nat.toDigits 10 m) : c ≠ ']' ∧ isWhitespace c = false := by
    have hd : c.isDigit = true := Nat.isDigit_of_mem_toDigits (by omega) (by omega) hc
    have hrange : 48 ≤ c.toNat ∧ c.toNat ≤ 57 := by
      unfold Char.isDigit at hd
      rw [Bool.and_eq_true, decide_eq_true_eq, decide_eq_true_eq] at hd
      exact ⟨UInt32.le_iff_toNat_le.mp hd.1, UInt32.le_iff_toNat_le.mp hd.2⟩
    refine ⟨?_, ?_⟩
    · rintro rfl
      revert hrange
      decide
    · unfold isWhitespace
      simp only [Bool.or_eq_false_iff, Bool.and_eq_false_iff, decide_eq_false_iff_not]
      omega
  have hvalue : parseInt (toString n).toList = some n := by
    cases n with
    | ofNat m => rw [toString_ofNat, parseInt_digits (digitsValue_toDigits m)]; rfl
    | negSucc m =>
      rw [toString_negSucc, parseInt, digitsValue_toDigits]
      rfl
  have hchars : ∀ c ∈ (toString n).toList, c ≠ ']' ∧ isWhitespace c = false := by
    intro c hc
    cases n with
    | ofNat m =>
      rw [toString_ofNat] at hc
      exact hdigit hc
    | negSucc m =>
      rw [toString_negSucc] at hc
      rcases List.mem_cons.mp hc with rfl | hc
      · decide
      · exact hdigit hc
  refine ⟨fun h => (hchars _ h).1 rfl, ?_⟩
  rw [trimmed_of_none fun c hc => (hchars c hc).2]
  unfold parseIsize
  rw [hvalue, Option.filter_some, if_pos (by simpa using hn)]

theorem idxOf?_append {c : Char} {l q : List Char} (h : c ∉ l) : (l ++ c :: q).idxOf? c = some l.length := by
  induction l with
  | nil => simp [List.idxOf?_cons]
  | cons d l ih =>
    rw [List.mem_cons, not_or] at h
    rw [List.cons_append, List.idxOf?_cons, ih h.2]
    simp [Ne.symm h.1]

/-- The key `roles.R.A[n]`. -/
def indexedKey (role accessor text : List Char) : List Char :=
  "roles.".toList ++ (role ++ '.' :: (accessor ++ '[' :: (text ++ [']'])))

/-- A key of this form is the role, the accessor and the index. -/
theorem parseKey_indexed (hrole : '.' ∉ role) (haccessor : '[' ∉ accessor ∧ ']' ∉ accessor)
    (htext : Numeral text n) : parseKey (indexedKey role accessor text) = some (role, accessor, some n) := by
  have hclose : (accessor ++ '[' :: (text ++ [']'])).idxOf? ']' = some (accessor.length + 1 + text.length) := by
    have hnot : ']' ∉ accessor ++ '[' :: text := by
      simp [haccessor.2, htext.1]
    have h := idxOf?_append (q := []) hnot
    rw [List.append_assoc, List.cons_append, List.length_append, List.length_cons] at h
    rw [h]
    congr 1
    omega
  have hdrop : (role ++ '.' :: (accessor ++ '[' :: (text ++ [']']))).drop (role.length + 1)
      = accessor ++ '[' :: (text ++ [']']) := by
    rw [List.append_cons, show role.length + 1 = (role ++ ['.']).length by simp, List.drop_left]
  have htake : ((accessor ++ '[' :: (text ++ [']'])).take (accessor.length + 1 + text.length)).drop
      (accessor.length + 1) = text := by
    have hsplit : accessor ++ '[' :: (text ++ [']']) = accessor ++ '[' :: text ++ [']'] := by simp
    have hlen : accessor.length + 1 + text.length = (accessor ++ '[' :: text).length := by
      simp only [List.length_append, List.length_cons]
      omega
    rw [hsplit, hlen, List.take_left, List.append_cons,
      show accessor.length + 1 = (accessor ++ ['[']).length by simp, List.drop_left]
  unfold parseKey indexedKey
  rw [stripPrefix_append]
  simp only [Option.bind_eq_bind, Option.bind_some, idxOf?_append hrole, List.take_left, hdrop,
    idxOf?_append haccessor.1, hclose, htake, htext.2]
  rw [guard, if_pos (by omega)]
  rfl

end

/-! ## The whole template -/

/-- The key has the smallest machine integer as an index into messages that are there. -/
def Overflows (r : RoleResolver) (key : List Char) : Prop :=
  ∃ role accessor v, parseKey key = some (role, accessor, some (-2 ^ 63))
    ∧ r.messages accessor (String.ofList role) = some v ∧ v ≠ []

theorem messages_plain {r : RoleResolver} {accessor : List Char} {role : String} {v : List String}
    (h : r.messages accessor role = some v) : '[' ∉ accessor ∧ ']' ∉ accessor := by
  unfold RoleResolver.messages at h
  split at h
  · subst accessor; decide
  · split at h
    · subst accessor; decide
    · split at h
      · subst accessor; decide
      · split at h
        · subst accessor; decide
        · cases h

theorem parseKey_unnamed {key : List Char} (h : parseKey key ≠ none) :
    ¬ key = "goal".toList ∧ ¬ key = "rejected_findings".toList := by
  constructor <;> rintro rfl <;> exact h (by decide)

theorem resolve_bare {r : RoleResolver} {key role accessor : List Char}
    (h : parseKey key = some (role, accessor, none)) :
    r.resolve key = .ok (r.bare accessor (String.ofList role)) := by
  obtain ⟨hgoal, hrejected⟩ := parseKey_unnamed (by rw [h]; exact Option.some_ne_none _)
  unfold RoleResolver.resolve
  rw [if_neg hgoal, if_neg hrejected, h]
  rfl

theorem resolve_indexed {r : RoleResolver} {key role accessor : List Char} {n : Int}
    (h : parseKey key = some (role, accessor, some n)) : r.resolve key =
      (r.messages accessor (String.ofList role)).elim (.ok "") fun v => indexInto v n := by
  obtain ⟨hgoal, hrejected⟩ := parseKey_unnamed (by rw [h]; exact Option.some_ne_none _)
  unfold RoleResolver.resolve
  rw [if_neg hgoal, if_neg hrejected, h]
  cases hv : r.messages accessor (String.ofList role) <;> simp only [hv] <;> rfl

theorem resolve_unparsed {r : RoleResolver} {key : List Char} (h : parseKey key = none) :
    ∃ value, r.resolve key = .ok value := by
  unfold RoleResolver.resolve
  rw [h]
  split
  · exact ⟨_, rfl⟩
  · split <;> exact ⟨_, rfl⟩

/-- Every key has a value but those that overflow. -/
theorem resolve_ok_iff {r : RoleResolver} {key : List Char} :
    (∃ value, r.resolve key = .ok value) ↔ ¬ Overflows r key := by
  constructor
  · rintro ⟨value, hvalue⟩ ⟨role, accessor, v, hkey, hv, hne⟩
    rw [resolve_indexed hkey, hv, Option.elim_some, indexInto_overflow hne] at hvalue
    cases hvalue
  · intro hover
    cases hkey : parseKey key with
    | none => exact resolve_unparsed hkey
    | some k =>
      obtain ⟨role, accessor, idx⟩ := k
      cases idx with
      | none => exact ⟨_, resolve_bare hkey⟩
      | some n =>
        rw [resolve_indexed hkey]
        cases hv : r.messages accessor (String.ofList role) with
        | none => exact ⟨"", rfl⟩
        | some v =>
          refine ⟨nthMessage v n, indexInto_eq ?_⟩
          by_contra hboth
          obtain ⟨hn, hne⟩ := not_or.mp hboth
          rw [not_not] at hn
          subst hn
          exact hover ⟨role, accessor, v, hkey, hv, hne⟩

/-- The placeholders of a template. -/
def Placeholder (template : String) (key : List Char) : Prop :=
  ∃ ps inner, Pieces openMark closeMark template.toList ps ∧ Piece.placeholder inner ∈ ps
    ∧ key = (trimmed (String.ofList inner)).toList

/-- The rendering is the literal parts as they are and the values of the placeholders, and an index
takes the message that it counts to. -/
def RendersExactly (r : RoleResolver) (template : String) : Prop :=
  ∃ ps value, Pieces openMark closeMark template.toList ps
    ∧ render r template = .ok (String.ofList (substituted value ps))
    ∧ (∀ inner, Piece.placeholder inner ∈ ps → expand r inner = .ok (value inner))
    ∧ ∀ inner role accessor v n, Piece.placeholder inner ∈ ps → '.' ∉ role →
      r.messages accessor (String.ofList role) = some v → -2 ^ 63 ≤ n ∧ n < 2 ^ 63 →
      (trimmed (String.ofList inner)).toList = indexedKey role accessor (toString n).toList →
      value inner = nthMessage v n

/-- A template is rendered exactly where no key of it overflows. -/
theorem render_exact (r : RoleResolver) (template : String) :
    RendersExactly r template ↔ ∀ key, Placeholder template key → ¬ Overflows r key := by
  have hrun (ps) (hps : Pieces openMark closeMark template.toList ps) :
      render r template = String.ofList <$> renderPieces r ps [] := by
    unfold render
    rw [← renderFrom_pieces hps utf8Len_nil, List.nil_append]
  constructor
  · rintro ⟨ps, value, hps, -, hvalue, -⟩ key ⟨qs, inner, hqs, hin, rfl⟩
    obtain rfl := hqs.unique hps
    exact resolve_ok_iff.mp ⟨_, hvalue inner hin⟩
  · intro h
    obtain ⟨ps, hps⟩ := @exists_pieces _ openMark closeMark (by decide) template.toList
    have hexpand : ∀ inner, ∃ value, Piece.placeholder inner ∈ ps → expand r inner = .ok value := by
      intro inner
      by_cases hin : Piece.placeholder inner ∈ ps
      · obtain ⟨value, hvalue⟩ := resolve_ok_iff.mpr (h _ ⟨ps, inner, hps, hin, rfl⟩)
        exact ⟨value, fun _ => hvalue⟩
      · exact ⟨"", fun h => absurd h hin⟩
    choose value hvalue using hexpand
    refine ⟨ps, value, hps, ?_, hvalue, fun inner role accessor v n hin hrole hv hn hkey => ?_⟩
    · rw [hrun ps hps, renderPieces_ok hvalue]
      rfl
    · have hparse := parseKey_indexed hrole (messages_plain hv) (numeral_toString hn)
      have hnot : n ≠ -2 ^ 63 ∨ v = [] := by
        by_contra hboth
        obtain ⟨hmin, hne⟩ := not_or.mp hboth
        rw [not_not] at hmin
        subst hmin
        exact h _ ⟨ps, inner, hps, hin, hkey.symm⟩ ⟨role, accessor, v, hparse, hv, hne⟩
      have hresolve : expand r inner = .ok (nthMessage v n) := by
        unfold expand
        rw [hkey, resolve_indexed hparse, hv, Option.elim_some, indexInto_eq hnot]
      exact Except.ok.inj ((hvalue inner hin).symm.trans hresolve)

/-- One message of the user to any role. -/
def oneMessage : RoleResolver where
  userMessages _ := ["hi"]
  assistantMessages _ := []
  assistantSinceActivation _ := []
  priorUserMessages _ := []
  priorAssistantMessages _ := []
  latestPlan _ := none
  goal := none
  rejectedFindings := []

/-- The smallest index ends the process. -/
theorem render_overflows :
    ¬ RendersExactly oneMessage "\x7b\x7b roles.worker.user[-9223372036854775808] \x7d\x7d" := by
  rintro ⟨ps, value, -, hrender, -⟩
  have herror : render oneMessage "\x7b\x7b roles.worker.user[-9223372036854775808] \x7d\x7d"
      = .error .overflow := by
    decide +kernel
  cases hrender.symm.trans herror

-- The negative index counts from the back, and what follows is as it stands.
example : render oneMessage "\x7b\x7broles.w.user[-1]\x7d\x7d\x7d \x7b\x7bé" = .ok "hi\x7d \x7b\x7bé" := by
  decide +kernel

end ClaudeManager
