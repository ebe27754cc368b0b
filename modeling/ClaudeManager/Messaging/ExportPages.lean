import ClaudeManager.Messaging.Export
import ClaudeManager.Messaging.Intervals
import ClaudeManager.Program.Failures
import ClaudeManager.Program.Paging

/-!
# Exported pages

The pages of an export, followed from one to the next, send every publication that concerns the host
after everything it depends on, and nothing else.

* `Above` — what an event depends on, in the end
* `parents_above`, `parents_fuel` — the chain of dependencies is what lies above an event
* `exportSliceBy_next` — a page is the next piece of what is left
* `exportPages_delivers` — what following the pages gives
-/

namespace ClaudeManager

open Json Containers Program

/-! ## Dependencies -/

/-- An event on the way up the replies. -/
inductive Above (s : Store) : Option String → String → Prop
  | here {id : String} : Above s (some id) id
  | up {id d : String} {p : Published} :
    s.published id = some p → Above s (replyTo p.event) d → Above s (some id) d

section

variable {s : Store} {e : Value} {id : String} {ids : List String}

theorem not_above_none {d : String} : ¬ Above s none d := nofun

/-- A step up the chain. -/
theorem parents_succ {fuel : Nat} {seen : List String} (h : s.parents e fuel seen (some id) = .ok ids) :
    ∃ p rest fuel', s.published id = some p ∧ p.event["conversation_id"] = e["conversation_id"]
      ∧ s.parents e fuel' (id :: seen) (replyTo p.event) = .ok rest ∧ ids = id :: rest := by
  cases fuel with
  | zero => cases h
  | succ fuel =>
    unfold Store.parents at h
    obtain ⟨-, -, h⟩ := except_bind_ok.mp h
    obtain ⟨p, hp, h⟩ := except_bind_ok.mp h
    obtain ⟨_, hconv, h⟩ := except_bind_ok.mp h
    obtain ⟨rest, hrest, h⟩ := except_bind_ok.mp h
    obtain rfl := except_pure_ok.mp h
    rw [except_okOr_ok] at hp
    rw [except_refuse_ok, not_not] at hconv
    exact ⟨p, rest, fuel, hp, hconv, hrest, rfl⟩

theorem parents_none {fuel : Nat} {seen : List String} (h : s.parents e fuel seen none = .ok ids) :
    ids = [] := by
  cases fuel <;> exact (except_pure_ok.mp h).symm

/-- The chain of parents is what lies above. -/
theorem parents_above : ∀ {ids : List String} {fuel : Nat} {seen : List String} {start : Option String},
    s.parents e fuel seen start = .ok ids → ∀ d, d ∈ ids ↔ Above s start d
  | ids, fuel, seen, none, h, d => by
    obtain rfl := parents_none h
    exact ⟨fun hd => (List.not_mem_nil hd).elim, fun hd => (not_above_none hd).elim⟩
  | [], fuel, seen, some id, h, d => by
    obtain ⟨_, _, _, -, -, -, hids⟩ := parents_succ h
    cases hids
  | _ :: ids, fuel, seen, some id, h, d => by
    obtain ⟨p, rest, fuel', hp, -, hrest, hids⟩ := parents_succ h
    obtain ⟨rfl, rfl⟩ := List.cons.inj hids
    rw [List.mem_cons, parents_above hrest]
    constructor
    · rintro (rfl | hd)
      · exact .here
      · exact .up hp hd
    · intro hd
      cases hd with
      | here => exact .inl rfl
      | up hp' hd =>
        obtain rfl := Option.some.inj (hp.symm.trans hp')
        exact .inr hd

/-- Behind an event in the chain stands what lies above it. -/
theorem parents_split : ∀ {u v : List String} {fuel : Nat} {seen : List String} {start : Option String},
    s.parents e fuel seen start = .ok (u ++ id :: v) →
      ∃ p, s.published id = some p ∧ p.event["conversation_id"] = e["conversation_id"]
        ∧ ∀ d, d ∈ v ↔ Above s (replyTo p.event) d
  | u, v, fuel, seen, none, h => by
    have := congrArg List.length (parents_none h)
    simp at this
  | [], v, fuel, seen, some start, h => by
    obtain ⟨p, rest, fuel', hp, hconv, hrest, hids⟩ := parents_succ h
    obtain ⟨rfl, rfl⟩ := List.cons.inj hids
    exact ⟨p, hp, hconv, parents_above hrest⟩
  | _ :: u, v, fuel, seen, some start, h => by
    obtain ⟨p, rest, fuel', -, -, hrest, hids⟩ := parents_succ h
    obtain ⟨rfl, rfl⟩ := List.cons.inj hids
    exact parents_split hrest

/-- The chain has room for every retained event, so its bound is no limit. -/
theorem parents_fuel : ∀ {fuel : Nat} {seen : List String} {start : Option String}, seen.Nodup →
    (∀ d ∈ seen, d ∈ s.eventIndex.keys) → s.eventIndex.size < fuel + seen.length →
      s.parents e fuel seen start = s.parents e (fuel + 1) seen start
  | fuel, seen, none, _, _, _ => by cases fuel <;> rfl
  | 0, seen, some id, hnodup, hseen, hsize => by
    -- the members of the chain so far are different retained events
    have hle := (List.subperm_of_subset hnodup hseen).length_le
    rw [Std.ExtTreeMap.length_keys] at hle
    omega
  | fuel + 1, seen, some id, hnodup, hseen, hsize => by
    unfold Store.parents
    by_cases hid : id ∈ seen
    · rw [refuse, if_pos hid]
      rfl
    · cases hp : s.published id with
      | none => rfl
      | some p =>
        have hkeys : ∀ d ∈ id :: seen, d ∈ s.eventIndex.keys := by
          intro d hd
          rcases List.mem_cons.mp hd with rfl | hd
          · unfold Store.published at hp
            obtain ⟨i, hi, -⟩ := Option.bind_eq_some_iff.mp hp
            exact mem_keys_map.mpr ⟨i, hi⟩
          · exact hseen d hd
        have hmore : s.parents e fuel (id :: seen) (replyTo p.event) =
            s.parents e (fuel + 1) (id :: seen) (replyTo p.event) := by
          refine parents_fuel (List.nodup_cons.mpr ⟨hid, hnodup⟩) hkeys ?_
          rw [List.length_cons]
          omega
        simp only [okOr, pure_bind, hmore]

/-- What a publication brings with it. -/
theorem chain_ok {p : Published} (h : s.chain p = .ok ids) :
    ∃ above, ids = above ++ [strv p.event "id"] ∧ (∀ d, d ∈ above ↔ Above s (dependency p.event) d)
      ∧ ∀ u id v, above = u ++ id :: v → ∃ q, s.published id = some q
        ∧ q.event["conversation_id"] = p.event["conversation_id"]
        ∧ ∀ d, d ∈ u ↔ Above s (replyTo q.event) d := by
  unfold Store.chain Store.dependencyIds at h
  obtain ⟨above, habove, h⟩ := except_bind_ok.mp h
  obtain ⟨name, hname, h⟩ := except_bind_ok.mp h
  obtain rfl := except_pure_ok.mp h
  obtain ⟨walk, hwalk, habove⟩ := except_bind_ok.mp habove
  obtain rfl := except_pure_ok.mp habove
  obtain ⟨rfl, -⟩ := required_ok.mp hname
  refine ⟨walk.reverse, rfl, fun d => ?_, fun u id v hsplit => ?_⟩
  · rw [List.mem_reverse]
    exact parents_above hwalk d
  · rw [List.reverse_eq_iff, List.reverse_append, List.reverse_cons, List.append_assoc,
      List.singleton_append] at hsplit
    rw [hsplit] at hwalk
    obtain ⟨q, hq, hconv, hd⟩ := parents_split hwalk
    exact ⟨q, hq, hconv, fun d => by rw [← hd, List.mem_reverse]⟩

/-! ## What is left -/

/-- What a publication brings with it, nothing where its chain is broken. -/
def Store.chainOf (s : Store) (p : Published) : List String := (s.chain p).toOption.getD []

/-- What the eligible ones of some publications bring with them. -/
def Store.stream (s : Store) (eligible : Published → Bool) (l : List Published) : List String :=
  (l.filter eligible).flatMap s.chainOf

/-- What is left to send from a place on. -/
def Store.left (s : Store) (eligible : Published → Bool) (through after offset : Nat) :
    List String :=
  (s.stream eligible (s.eventsBetween after through)).drop offset

variable {eligible : Published → Bool} {limit : Nat × Nat} {p : Published} {l : List Published}
  {after through offset : Nat}

theorem chainOf_ok (h : s.chain p = .ok ids) : s.chainOf p = ids := by
  unfold Store.chainOf
  rw [h]
  rfl

theorem stream_cons : s.stream eligible (p :: l) =
    (if eligible p then s.chainOf p else []) ++ s.stream eligible l := by
  unfold Store.stream
  by_cases hp : eligible p = true
  · rw [List.filter_cons_of_pos hp, List.flatMap_cons, if_pos hp]
  · rw [List.filter_cons_of_neg hp, if_neg hp, List.nil_append]

theorem stream_append {l' : List Published} :
    s.stream eligible (l ++ l') = s.stream eligible l ++ s.stream eligible l' := by
  unfold Store.stream
  rw [List.filter_append, List.flatMap_append]

/-! ## One page -/

section

variable [Externals]

/-- Items that say a piece of the stream. -/
def Store.Says (s : Store) (piece : List String) (items : List Value) : Prop :=
  List.Forall₂ (fun id wire => s.wireEvent id = .ok wire) (Program.fresh [] piece) items

def wireSize (wire : Value) : Nat := (Externals.compact wire).utf8ByteSize

/-- Items that fit on a page. A single one always does. -/
def Fits (limit : Nat × Nat) (items : List Value) : Prop :=
  items.length ≤ 1 ∨ items.length ≤ limit.1 ∧ (items.map wireSize).sum ≤ limit.2

/-- A page in the making says a piece of the stream. -/
structure Carries (s : Store) (limit : Nat × Nat) (piece : List String) (f : Filling) : Prop where
  visited : ∀ id, f.visited.contains id = true ↔ id ∈ piece
  wires : s.Says piece f.items
  bytes : f.bytes = (f.items.map wireSize).sum
  fits : Fits limit f.items

/-- The chains of the eligible publications are whole. -/
def Chained (s : Store) (eligible : Published → Bool) (l : List Published) : Prop :=
  ∀ p ∈ l, eligible p = true → ∃ ids, s.chain p = .ok ids

omit [Externals] in
theorem Chained.cons_ok (h : Chained s eligible l) (hids : s.chain p = .ok ids) :
    Chained s eligible (p :: l) := by
  intro q hq hqe
  rcases List.mem_cons.mp hq with rfl | hq
  · exact ⟨ids, hids⟩
  · exact h q hq hqe

omit [Externals] in
theorem Chained.cons_not (h : Chained s eligible l) (hp : ¬ eligible p = true) :
    Chained s eligible (p :: l) := by
  intro q hq hqe
  rcases List.mem_cons.mp hq with rfl | hq
  · exact absurd hqe hp
  · exact h q hq hqe

variable {piece : List String} {f f' : Filling}

theorem carries_empty : Carries s limit [] {} := by
  refine ⟨fun id => ?_, .nil, rfl, .inl (Nat.zero_le 1)⟩
  simp

theorem Carries.skip (h : Carries s limit piece f) (hid : f.visited.contains id = true) :
    Carries s limit (piece ++ [id]) f := by
  have hmem := (h.visited id).mp hid
  refine { h with visited := fun d => ?_, wires := ?_ }
  · rw [h.visited, List.mem_append, List.mem_singleton]
    constructor
    · exact .inl
    · rintro (hd | rfl)
      · exact hd
      · exact hmem
  · unfold Store.Says
    rw [fresh_append, List.nil_append]
    simp only [fresh, if_pos hmem, List.append_nil]
    exact h.wires

theorem Carries.push (h : Carries s limit piece f) (hid : ¬ f.visited.contains id = true) {wire : Value}
    (hwire : s.wireEvent id = .ok wire)
    (hroom : ¬ (f.items ≠ [] ∧ (limit.1 ≤ f.items.length ∨ limit.2 < f.bytes + wireSize wire))) :
    Carries s limit (piece ++ [id])
      { items := f.items ++ [wire], bytes := f.bytes + wireSize wire, visited := f.visited.insert id } := by
  have hmem := mt (h.visited id).mpr hid
  refine ⟨fun d => ?_, ?_, ?_, ?_⟩
  · rw [Std.ExtTreeSet.contains_insert, Bool.or_eq_true, h.visited, List.mem_append,
      List.mem_singleton, beq_iff_eq, Std.LawfulEqCmp.compare_eq_iff_eq, or_comm, eq_comm (a := d)]
  · unfold Store.Says
    rw [fresh_append, List.nil_append]
    simp only [fresh, if_neg hmem]
    exact List.rel_append h.wires (.cons hwire .nil)
  · simp [h.bytes]
  · by_cases hnil : f.items = []
    · exact .inl (by simp [hnil])
    · rw [not_and_or, not_not, not_or] at hroom
      obtain ⟨hitems, hbytes⟩ := hroom.resolve_left hnil
      refine .inr ⟨?_, ?_⟩
      · rw [List.length_append, List.length_singleton]
        omega
      · rw [List.map_append, List.sum_append, ← h.bytes]
        simp
        omega

/-- Events are put on a page in order, up to the first one that has no room. -/
theorem pushIds_ok : ∀ {l : List (String × Nat)} {piece : List String} {f f' : Filling} {full : Option Nat},
    Carries s limit piece f → s.pushIds limit l f = .ok (f', full) →
      ∃ sent rest, l = sent ++ rest ∧ Carries s limit (piece ++ sent.map Prod.fst) f'
        ∧ (full = none ∧ rest = []
          ∨ ∃ id k rest', rest = (id, k) :: rest' ∧ full = some k ∧ f'.items ≠ [])
  | [], piece, f, f', full, hf, h => by
    obtain ⟨rfl, rfl⟩ := Prod.mk.inj (except_pure_ok.mp h)
    exact ⟨[], [], rfl, by simpa using hf, .inl ⟨rfl, rfl⟩⟩
  | (id, k) :: l, piece, f, f', full, hf, h => by
    unfold Store.pushIds at h
    split at h
    · next hid =>
      obtain ⟨sent, rest, rfl, hcarries, hfull⟩ := pushIds_ok (hf.skip hid) h
      exact ⟨(id, k) :: sent, rest, rfl, by simpa using hcarries, hfull⟩
    · next hid =>
      obtain ⟨wire, hwire, h⟩ := except_bind_ok.mp h
      simp only at h
      split at h
      · next hroom =>
        obtain ⟨rfl, rfl⟩ := Prod.mk.inj (except_pure_ok.mp h)
        exact ⟨[], _, rfl, by simpa using hf, .inr ⟨id, k, l, rfl, rfl, hroom.1⟩⟩
      · next hroom =>
        obtain ⟨sent, rest, rfl, hcarries, hfull⟩ := pushIds_ok (hf.push hid hwire hroom) h
        exact ⟨(id, k) :: sent, rest, rfl, by simpa using hcarries, hfull⟩

omit [Externals] in
/-- A numbered list from an offset on, split. -/
theorem zipIdx_split {sent rest : List (String × Nat)} (h : ids.zipIdx.drop offset = sent ++ rest) :
    ids.drop offset = sent.map Prod.fst ++ rest.map Prod.fst := by
  rw [← List.map_append, ← h, List.map_drop, List.zipIdx_map_fst]

omit [Externals] in
/-- What follows is the list from the number on that the next member has. -/
theorem zipIdx_next {sent rest : List (String × Nat)} {k : Nat}
    (h : ids.zipIdx.drop offset = sent ++ (id, k) :: rest) :
    k < ids.length ∧ ((id, k) :: rest).map Prod.fst = ids.drop k := by
  have hget : ids.zipIdx[offset + sent.length]? = some (id, k) := by
    rw [← List.getElem?_drop, h]
    simp
  rw [List.getElem?_zipIdx] at hget
  obtain ⟨x, hx, hk⟩ := Option.map_eq_some_iff.mp hget
  obtain ⟨rfl, hk⟩ := Prod.mk.inj hk
  have hk : k = offset + sent.length := by omega
  refine ⟨hk ▸ (List.getElem?_eq_some_iff.mp hx).1, ?_⟩
  have hdrop : ids.drop k = (ids.drop offset).drop (sent.map Prod.fst).length := by
    rw [List.drop_drop, List.length_map, hk]
  rw [hdrop, zipIdx_split h, List.drop_left]

/-- A page is the next piece of the stream. It ends with the stream, or in front of something. -/
theorem fillPage_ok : ∀ {l : List Published} {cursor offset : Nat} {piece : List String} {f : Filling}
    {page : ExportPage}, Carries s limit piece f →
    s.fillPage limit eligible through l cursor offset f = .ok page →
      ∃ more f', page.items = f'.items ∧ Carries s limit (piece ++ more) f'
        ∧ (page.complete = true ∧ Chained s eligible l ∧ more = (s.stream eligible l).drop offset
          ∨ page.complete = false ∧ page.items ≠ [] ∧ ∃ done p rest, l = done ++ p :: rest
            ∧ Chained s eligible done ∧ eligible p = true ∧ page.dependencyOffset < (s.chainOf p).length
            ∧ page.cursor = (done.getLast?.map Published.position).getD cursor
            ∧ (s.stream eligible l).drop offset =
              more ++ (s.stream eligible (p :: rest)).drop page.dependencyOffset)
  | [], cursor, offset, piece, f, page, hf, h => by
    obtain rfl := except_pure_ok.mp h
    exact ⟨[], f, rfl, by simpa using hf, .inl ⟨rfl, fun q hq => (List.not_mem_nil hq).elim,
      by simp [Store.stream]⟩⟩
  | p :: l, cursor, offset, piece, f, page, hf, h => by
    unfold Store.fillPage at h
    rw [stream_cons]
    split at h
    · next hp =>
      obtain ⟨ids, hids, h⟩ := except_bind_ok.mp h
      obtain ⟨_, hoffset, h⟩ := except_bind_ok.mp h
      obtain ⟨⟨f', full⟩, hpush, h⟩ := except_bind_ok.mp h
      rw [except_refuse_ok, not_le] at hoffset
      obtain ⟨sent, rest, hsplit, hf', hfull⟩ := pushIds_ok hf hpush
      have hdrop := zipIdx_split hsplit
      rw [if_pos hp, chainOf_ok hids, List.drop_append_of_le_length hoffset.le]
      rcases hfull with ⟨rfl, rfl⟩ | ⟨id, k, rest', rfl, rfl, hne⟩
      · obtain ⟨more, f'', hitems, hcarries, hends⟩ := fillPage_ok hf' h
        rw [List.append_assoc] at hcarries
        rw [List.map_nil, List.append_nil] at hdrop
        refine ⟨sent.map Prod.fst ++ more, f'', hitems, hcarries, ?_⟩
        rw [hdrop]
        rcases hends with ⟨hcomplete, hchained, hmore⟩ |
          ⟨hcomplete, hne, done, q, rest, rfl, hchained, hq, hlt, hcursor, hmore⟩
        · exact .inl ⟨hcomplete, hchained.cons_ok hids, by rw [hmore, List.drop_zero]⟩
        · refine .inr ⟨hcomplete, hne, p :: done, q, rest, rfl, hchained.cons_ok hids, hq, hlt, ?_, ?_⟩
          · rw [hcursor, List.getLast?_cons]
            cases done.getLast? <;> rfl
          · rw [← List.drop_zero (l := s.stream eligible (done ++ q :: rest)), hmore, List.append_assoc]
      · obtain rfl := except_pure_ok.mp h
        obtain ⟨hlt, hk⟩ := zipIdx_next hsplit
        refine ⟨sent.map Prod.fst, f', rfl, hf', .inr ⟨rfl, hne, [], p, l, rfl,
          fun q hq => (List.not_mem_nil hq).elim, hp, ?_, rfl, ?_⟩⟩
        · rw [chainOf_ok hids]
          exact hlt
        · rw [hdrop, hk, stream_cons, if_pos hp, chainOf_ok hids, List.append_assoc]
          exact congrArg _ (List.drop_append_of_le_length hlt.le).symm
    · next hp =>
      rw [if_neg hp, List.nil_append]
      obtain ⟨more, f', hitems, hcarries, hends⟩ := fillPage_ok hf h
      refine ⟨more, f', hitems, hcarries, ?_⟩
      rcases hends with ⟨hcomplete, hchained, hmore⟩ |
        ⟨hcomplete, hne, done, q, rest, rfl, hchained, hq, hlt, hcursor, hmore⟩
      · exact .inl ⟨hcomplete, hchained.cons_not hp, hmore⟩
      · refine .inr ⟨hcomplete, hne, p :: done, q, rest, rfl, hchained.cons_not hp, hq, hlt, ?_, hmore⟩
        rw [hcursor, List.getLast?_cons]
        cases done.getLast? <;> rfl

/-! ## Places -/

variable {host : String} {page : ExportPage} {pages : List ExportPage}

omit [Externals] in
/-- A place to resume at: the offset is one into the first publication that is left. -/
structure Store.Place (s : Store) (eligible : Published → Bool) (through after offset : Nat) : Prop where
  before : after ≤ through
  inside : offset = 0 ∨ ∃ p rest, (s.eventsBetween after through).filter eligible = p :: rest
    ∧ offset < (s.chainOf p).length

/-- A page is the next piece of what is left, and ends at a place to resume at. -/
theorem exportSliceBy_ok (hs : Indexed s)
    (h : s.exportSliceBy host after through offset limit eligible = .ok page) :
    ∃ piece, s.Says piece page.items ∧ Fits limit page.items
      ∧ (page.complete = true ∧ Chained s eligible (s.eventsBetween after through)
            ∧ piece = s.left eligible through after offset
        ∨ page.complete = false ∧ piece ≠ [] ∧ after ≤ page.cursor
          ∧ Chained s eligible (s.eventsBetween after page.cursor)
          ∧ s.Place eligible through page.cursor page.dependencyOffset
          ∧ s.left eligible through after offset =
            piece ++ s.left eligible through page.cursor page.dependencyOffset) := by
  unfold Store.exportSliceBy at h
  obtain ⟨_, -, h⟩ := except_bind_ok.mp h
  obtain ⟨_, hbounds, h⟩ := except_bind_ok.mp h
  rw [except_refuse_ok, not_or, not_lt, not_lt] at hbounds
  obtain ⟨piece, f, hitems, hcarries, hends⟩ := fillPage_ok carries_empty h
  rw [List.nil_append] at hcarries
  refine ⟨piece, hitems ▸ hcarries.wires, hitems ▸ hcarries.fits, ?_⟩
  rcases hends with ⟨hcomplete, hchained, hpiece⟩ |
    ⟨hcomplete, hne, done, p, rest, hl, hchained, hp, hlt, hcursor, hleft⟩
  · exact .inl ⟨hcomplete, hchained, hpiece⟩
  · have hrest := eventsBetween_after hs hbounds.2 hl
    rw [← hcursor] at hrest
    have hwithin : after ≤ page.cursor ∧ page.cursor ≤ through := by
      rw [hcursor]
      cases hlast : done.getLast? with
      | none => exact ⟨Nat.le_refl _, hbounds.2⟩
      | some q =>
        have hq : q ∈ s.eventsBetween after through := by
          rw [hl]
          exact List.mem_append_left _ (List.mem_of_getLast? hlast)
        obtain ⟨-, hafter, hthrough⟩ := (mem_eventsBetween hs hbounds.2).mp hq
        exact ⟨hafter.le, hthrough⟩
    refine .inr ⟨hcomplete, ?_, hwithin.1, fun q hq => ?_, ⟨hwithin.2, .inr ⟨p, rest.filter eligible, ?_, hlt⟩⟩, ?_⟩
    · rintro rfl
      have hnil := hcarries.wires
      rw [Store.Says, fresh_nil, List.forall₂_nil_left_iff] at hnil
      exact hne (hitems.trans hnil)
    · obtain ⟨hq, hafter, hbelow⟩ := (mem_eventsBetween hs hwithin.1).mp hq
      have hmem : q ∈ s.eventsBetween after through :=
        (mem_eventsBetween hs hbounds.2).mpr ⟨hq, hafter, hbelow.trans hwithin.2⟩
      rw [hl, ← hrest] at hmem
      refine hchained q ((List.mem_append.mp hmem).resolve_right fun hlater => ?_)
      have hpast := ((mem_eventsBetween hs hwithin.2).mp hlater).2.1
      omega
    · rw [hrest, List.filter_cons_of_pos hp]
    · unfold Store.left
      rw [hrest]
      exact hleft

/-- An eligible publication cannot be sent, for its chain is broken or one of its events unreadable. -/
def Broken (s : Store) (eligible : Published → Bool) (after through : Nat) (failure : ChatError) : Prop :=
  ∃ p ∈ s.eventsBetween after through, eligible p = true
    ∧ (s.chain p = .error failure ∨ ∃ id ∈ s.chainOf p, s.wireEvent id = .error failure)

theorem pushIds_error {failure : ChatError} : ∀ {l : List (String × Nat)} {f : Filling},
    s.pushIds limit l f = .error failure → ∃ q ∈ l, s.wireEvent q.1 = .error failure
  | [], f, h => by cases h
  | (id, k) :: l, f, h => by
    unfold Store.pushIds at h
    split at h
    · obtain ⟨q, hq, hfailure⟩ := pushIds_error h
      exact ⟨q, List.mem_cons_of_mem _ hq, hfailure⟩
    · rcases except_bind_error.mp h with h | ⟨wire, hwire, h⟩
      · exact ⟨(id, k), List.mem_cons_self, h⟩
      · simp only at h
        split at h
        · cases h
        · obtain ⟨q, hq, hfailure⟩ := pushIds_error h
          exact ⟨q, List.mem_cons_of_mem _ hq, hfailure⟩

/-- From a place to resume at, a page only fails on a publication that cannot be sent. -/
theorem fillPage_error {failure : ChatError} : ∀ {l : List Published} {cursor offset : Nat} {f : Filling},
    (offset = 0 ∨ ∃ p rest, l.filter eligible = p :: rest ∧ offset < (s.chainOf p).length) →
      s.fillPage limit eligible through l cursor offset f = .error failure →
        ∃ p ∈ l, eligible p = true
          ∧ (s.chain p = .error failure ∨ ∃ id ∈ s.chainOf p, s.wireEvent id = .error failure)
  | [], cursor, offset, f, _, h => by cases h
  | p :: l, cursor, offset, f, hplace, h => by
    unfold Store.fillPage at h
    split at h
    · next hp =>
      rcases except_bind_error.mp h with h | ⟨ids, hids, h⟩
      · exact ⟨p, List.mem_cons_self, hp, .inl h⟩
      have hoffset : offset < ids.length := by
        rcases hplace with rfl | ⟨q, rest, hq, hlt⟩
        · -- a chain always ends with the publication itself
          obtain ⟨above, rfl, -⟩ := chain_ok hids
          simp
        · rw [List.filter_cons_of_pos hp] at hq
          obtain ⟨rfl, -⟩ := List.cons.inj hq
          rwa [chainOf_ok hids] at hlt
      rw [refuse, if_neg (not_le.mpr hoffset)] at h
      rcases except_bind_error.mp h with h | ⟨_, -, h⟩
      · cases h
      rcases except_bind_error.mp h with h | ⟨⟨f', full⟩, -, h⟩
      · obtain ⟨q, hq, hfailure⟩ := pushIds_error h
        refine ⟨p, List.mem_cons_self, hp, .inr ⟨q.1, ?_, hfailure⟩⟩
        rw [chainOf_ok hids]
        exact List.fst_mem_of_mem_zipIdx (List.mem_of_mem_drop hq)
      · cases full with
        | some stopped => cases h
        | none =>
          obtain ⟨q, hq, hfailure⟩ := fillPage_error (.inl rfl) h
          exact ⟨q, List.mem_cons_of_mem _ hq, hfailure⟩
    · next hp =>
      rw [List.filter_cons_of_neg hp] at hplace
      obtain ⟨q, hq, hfailure⟩ := fillPage_error hplace h
      exact ⟨q, List.mem_cons_of_mem _ hq, hfailure⟩

omit [Externals] in
/-- Chains are whole in an interval where they are in its two halves. -/
theorem Chained.join (hs : Indexed s) {middle high : Nat} (hle : after ≤ middle) (hhigh : middle ≤ high)
    (h : Chained s eligible (s.eventsBetween after middle))
    (h' : Chained s eligible (s.eventsBetween middle high)) :
    Chained s eligible (s.eventsBetween after high) := by
  intro q hq
  obtain ⟨hmem, hafter, hbelow⟩ := (mem_eventsBetween hs (hle.trans hhigh)).mp hq
  by_cases hq : q.position ≤ middle
  · exact h q ((mem_eventsBetween hs hle).mpr ⟨hmem, hafter, hq⟩)
  · exact h' q ((mem_eventsBetween hs hhigh).mpr ⟨hmem, by omega, hbelow⟩)

/-! ## Following the pages -/

/-- The pages up to one that is not the last are pieces, up to the place where the next one starts. -/
theorem exportPages_place (hs : Indexed s) : ∀ {front back : List ExportPage} {n after offset : Nat},
    s.exportPages host through limit eligible n after offset = .ok (front ++ page :: back) →
      page.complete = false →
      ∃ pieces, List.Forall₂ s.Says pieces ((front ++ [page]).map ExportPage.items)
        ∧ after ≤ page.cursor ∧ Chained s eligible (s.eventsBetween after page.cursor)
        ∧ s.Place eligible through page.cursor page.dependencyOffset
        ∧ s.left eligible through after offset =
          pieces.flatten ++ s.left eligible through page.cursor page.dependencyOffset
  | front, back, 0, after, offset, h, _ => by
    have := congrArg List.length (except_pure_ok.mp h)
    simp at this
  | [], back, n + 1, after, offset, h, hcomplete => by
    obtain ⟨first, hfirst, h⟩ := except_bind_ok.mp h
    obtain ⟨piece, hpiece, -, hends⟩ := exportSliceBy_ok hs hfirst
    have hsame : first = page := by
      split at h
      · exact (List.cons.inj (except_pure_ok.mp h)).1
      · obtain ⟨pages, -, h⟩ := except_bind_ok.mp h
        exact (List.cons.inj (except_pure_ok.mp h)).1
    subst hsame
    rcases hends with ⟨hlast, -⟩ | ⟨-, -, hle, hchained, hplace, hleft⟩
    · rw [hcomplete] at hlast
      cases hlast
    · exact ⟨[piece], .cons hpiece .nil, hle, hchained, hplace, by simpa using hleft⟩
  | q :: front, back, n + 1, after, offset, h, hcomplete => by
    obtain ⟨first, hfirst, h⟩ := except_bind_ok.mp h
    obtain ⟨piece, hpiece, -, hends⟩ := exportSliceBy_ok hs hfirst
    split at h
    · have := congrArg List.length (List.cons.inj (except_pure_ok.mp h)).2
      simp at this
    next hmore =>
    obtain ⟨pages, hpages, h⟩ := except_bind_ok.mp h
    obtain ⟨rfl, rfl⟩ := List.cons.inj (except_pure_ok.mp h)
    obtain ⟨pieces, hpieces, hle, hchained, hplace, hrest⟩ := exportPages_place hs hpages hcomplete
    rcases hends with ⟨hlast, -⟩ | ⟨-, -, hle', hchained', -, hleft⟩
    · exact absurd hlast hmore
    · refine ⟨piece :: pieces, .cons hpiece hpieces, hle'.trans hle, .join hs hle' hle hchained' hchained,
        hplace, ?_⟩
      rw [hleft, hrest, List.flatten_cons, List.append_assoc]

/-- Pages are pieces of what is left, all of it where they end with the last one. -/
theorem exportPages_pieces (hs : Indexed s) : ∀ {n after offset : Nat} {pages : List ExportPage},
    s.exportPages host through limit eligible n after offset = .ok pages →
      ∃ pieces rest, List.Forall₂ s.Says pieces (pages.map ExportPage.items)
        ∧ (∀ page ∈ pages, Fits limit page.items)
        ∧ s.left eligible through after offset = pieces.flatten ++ rest
        ∧ ((∃ page ∈ pages, page.complete = true) →
          rest = [] ∧ Chained s eligible (s.eventsBetween after through))
  | 0, after, offset, pages, h => by
    obtain rfl := except_pure_ok.mp h
    refine ⟨[], _, .nil, fun p hp => (List.not_mem_nil hp).elim, rfl, ?_⟩
    rintro ⟨p, hp, -⟩
    exact (List.not_mem_nil hp).elim
  | n + 1, after, offset, pages, h => by
    obtain ⟨first, hfirst, h⟩ := except_bind_ok.mp h
    obtain ⟨piece, hpiece, hfits, hends⟩ := exportSliceBy_ok hs hfirst
    split at h
    · next hcomplete =>
      obtain rfl := except_pure_ok.mp h
      rcases hends with ⟨-, hchained, rfl⟩ | ⟨hmore, -⟩
      · exact ⟨[_], [], .cons hpiece .nil, fun p hp => List.mem_singleton.mp hp ▸ hfits, by simp,
          fun _ => ⟨rfl, hchained⟩⟩
      · rw [hmore] at hcomplete
        cases hcomplete
    · next hmore =>
      obtain ⟨others, hothers, h⟩ := except_bind_ok.mp h
      obtain rfl := except_pure_ok.mp h
      obtain ⟨pieces, rest, hpieces, hfit, hrest, hnone⟩ := exportPages_pieces hs hothers
      rcases hends with ⟨hlast, -⟩ | ⟨-, -, hle, hchained, hplace, hleft⟩
      · exact absurd hlast hmore
      · refine ⟨piece :: pieces, rest, .cons hpiece hpieces, fun p hp => ?_, ?_, ?_⟩
        · rcases List.mem_cons.mp hp with rfl | hp
          · exact hfits
          · exact hfit p hp
        · rw [hleft, hrest, List.flatten_cons, List.append_assoc]
        · rintro ⟨p, hp, hcomplete⟩
          rcases List.mem_cons.mp hp with rfl | hp
          · exact absurd hcomplete hmore
          · obtain ⟨hrest, hchained'⟩ := hnone ⟨p, hp, hcomplete⟩
            exact ⟨hrest, .join hs hle hplace.before hchained hchained'⟩

/-- Each page but the last makes what is left shorter, so the pages come to an end. -/
theorem exportPages_ends (hs : Indexed s) (hhost : s.hostAuthorized host none = true)
    (hthrough : through ≤ s.position) : ∀ {n after offset : Nat}, s.Place eligible through after offset →
    (s.left eligible through after offset).length < n →
      (∃ pages, s.exportPages host through limit eligible n after offset = .ok pages
          ∧ ∃ page ∈ pages, page.complete = true)
        ∨ ∃ failure, s.exportPages host through limit eligible n after offset = .error failure
          ∧ Broken s eligible after through failure
  | 0, after, offset, hplace, hn => by omega
  | n + 1, after, offset, hplace, hn => by
    unfold Store.exportPages
    cases hfirst : s.exportSliceBy host after through offset limit eligible with
    | error failure =>
      refine .inr ⟨failure, rfl, ?_⟩
      unfold Store.exportSliceBy at hfirst
      have hbounds : ¬ (s.position < through ∨ through < after) := by
        have := hplace.before
        omega
      rw [refuse, refuse, if_neg (not_not.mpr hhost), if_neg hbounds] at hfirst
      exact fillPage_error hplace.inside hfirst
    | ok page =>
      obtain ⟨piece, -, -, hends⟩ := exportSliceBy_ok hs hfirst
      rcases hends with ⟨hcomplete, -⟩ | ⟨hmore, hne, hle, -, hnext, hleft⟩
      · refine .inl ⟨[page], ?_, page, List.mem_singleton_self _, hcomplete⟩
        rw [show (Except.ok page : Except ChatError ExportPage) = pure page from rfl, pure_bind,
          if_pos hcomplete]
        rfl
      · have hshorter : (s.left eligible through page.cursor page.dependencyOffset).length < n := by
          have hpiece := List.length_pos_iff.mpr hne
          rw [hleft, List.length_append] at hn
          omega
        rw [show (Except.ok page : Except ChatError ExportPage) = pure page from rfl, pure_bind,
          if_neg (by rw [hmore]; exact Bool.false_ne_true)]
        rcases exportPages_ends hs hhost hthrough hnext hshorter with
          ⟨pages, hpages, p, hp, hcomplete⟩ | ⟨failure, hfailure, q, hq, hbroken⟩
        · rw [hpages]
          exact .inl ⟨page :: pages, rfl, p, List.mem_cons_of_mem _ hp, hcomplete⟩
        · rw [hfailure]
          refine .inr ⟨failure, rfl, q, ?_, hbroken⟩
          obtain ⟨hq, hafter, hbelow⟩ := (mem_eventsBetween hs hnext.before).mp hq
          exact (mem_eventsBetween hs hplace.before).mpr ⟨hq, by omega, hbelow⟩

/-! ## What the pages deliver -/

/-- What a publication brings with it: itself, and what lies above it. -/
def Brings (s : Store) (p : Published) (id : String) : Prop :=
  id = strv p.event "id" ∨ Above s (dependency p.event) id

/-- An event is among the items. -/
def Sent (s : Store) (items : List Value) (id : String) : Prop :=
  ∃ wire ∈ items, s.wireEvent id = .ok wire

omit [Externals] in
theorem brings_iff (h : s.chain p = .ok ids) : Brings s p id ↔ id ∈ s.chainOf p := by
  obtain ⟨above, rfl, habove, -⟩ := chain_ok h
  rw [chainOf_ok h, List.mem_append, List.mem_singleton, habove, or_comm]
  rfl

omit [Externals] in
theorem mem_stream (hp : p ∈ l) (heligible : eligible p = true) (hid : id ∈ s.chainOf p) :
    id ∈ s.stream eligible l :=
  List.mem_flatMap.mpr ⟨p, List.mem_filter.mpr ⟨hp, heligible⟩, hid⟩

variable {pieces : List (List String)} {sent rest : List Value} {wire : Value}

/-- Pages that say pieces, item by item. -/
theorem wires_flatten (h : List.Forall₂ s.Says pieces (pages.map ExportPage.items)) :
    List.Forall₂ (fun id wire => s.wireEvent id = .ok wire) (pieces.map (Program.fresh [])).flatten
      (pages.flatMap ExportPage.items) := by
  rw [List.flatMap_def]
  exact List.rel_flatten (List.forall₂_map_left_iff.mpr h)

/-- What the pieces say is sent. -/
theorem sent_of_says (h : List.Forall₂ s.Says pieces (pages.map ExportPage.items))
    (hid : id ∈ pieces.flatten) : Sent s (pages.flatMap ExportPage.items) id := by
  obtain ⟨i, hi, hget⟩ := List.mem_iff_getElem.mp (mem_pages.mpr hid)
  have hwires := wires_flatten h
  have hi' : i < (pages.flatMap ExportPage.items).length := hwires.length_eq ▸ hi
  refine ⟨_, List.getElem_mem hi', hget ▸ ?_⟩
  exact List.forall₂_iff_get.mp hwires |>.2 i hi hi'

/-- Before an item, everything that stands before it in the pieces is sent. -/
theorem wires_before (h : List.Forall₂ s.Says pieces (pages.map ExportPage.items))
    (hsplit : pages.flatMap ExportPage.items = sent ++ wire :: rest) :
    ∃ id l₁ l₂, pieces.flatten = l₁ ++ id :: l₂ ∧ s.wireEvent id = .ok wire
      ∧ ∀ d ∈ l₁, Sent s sent d := by
  have hwires := wires_flatten h
  rw [hsplit] at hwires
  have htake := List.forall₂_take_append _ _ _ hwires
  have hdrop := List.forall₂_drop_append _ _ _ hwires
  obtain ⟨id, ids, hid, -, hids⟩ := List.forall₂_cons_right_iff.mp hdrop
  obtain ⟨l₁, l₂, hl, hl₁⟩ := pages_before
    (b := (pieces.map (Program.fresh [])).flatten.take sent.length) (x := id) (a := ids)
    (by rw [← hids, List.take_append_drop])
  refine ⟨id, l₁, l₂, hl, hid, fun d hd => ?_⟩
  obtain ⟨i, hi, hget⟩ := List.mem_iff_getElem.mp (hl₁ d hd)
  have hi' : i < sent.length := htake.length_eq ▸ hi
  refine ⟨_, List.getElem_mem hi', hget ▸ ?_⟩
  exact List.forall₂_iff_get.mp htake |>.2 i hi hi'

omit [Externals] in
/-- Something in the stream stands in the chain of one publication. -/
theorem stream_split : ∀ {l : List Published} {l₁ l₂ : List String},
    s.stream eligible l = l₁ ++ id :: l₂ →
      ∃ p ∈ l, eligible p = true ∧ ∃ u v, s.chainOf p = u ++ id :: v ∧ ∀ d ∈ u, d ∈ l₁
  | [], l₁, l₂, h => by
    have := congrArg List.length h
    simp [Store.stream] at this
  | p :: l, l₁, l₂, h => by
    rw [stream_cons] at h
    rcases List.append_eq_append_iff.mp h with ⟨l₁', rfl, hrest⟩ | ⟨v, hchain, hrest⟩
    · obtain ⟨q, hq, heligible, u, v, hsplit, hu⟩ := stream_split hrest
      exact ⟨q, List.mem_cons_of_mem _ hq, heligible, u, v, hsplit,
        fun d hd => List.mem_append_right _ (hu d hd)⟩
    · cases v with
      | nil =>
        rw [List.append_nil] at hchain
        have hnext : s.stream eligible l = [] ++ id :: l₂ := hrest.symm
        obtain ⟨q, hq, heligible, u, v, hsplit, hu⟩ := stream_split hnext
        exact ⟨q, List.mem_cons_of_mem _ hq, heligible, u, v, hsplit,
          fun d hd => (List.not_mem_nil (hu d hd)).elim⟩
      | cons id' v =>
        obtain ⟨rfl, -⟩ := List.cons.inj hrest
        split at hchain
        · next hp => exact ⟨p, List.mem_cons_self, hp, l₁, v, hchain, fun d hd => hd⟩
        · have := congrArg List.length hchain
          simp at this

/-- Pages of an export: every event is one that an eligible publication brings with it, and is sent
after everything that lies above it. -/
structure Delivers (s : Store) (limit : Nat × Nat) (eligible : Published → Bool) (after through : Nat)
    (pages : List ExportPage) : Prop where
  fits : ∀ page ∈ pages, Fits limit page.items
  ordered : ∀ sent wire rest, pages.flatMap ExportPage.items = sent ++ wire :: rest →
    ∃ p ∈ s.eventsBetween after through, eligible p = true ∧ ∃ id, s.wireEvent id = .ok wire
      ∧ (id = strv p.event "id" ∧ (∀ d, Above s (dependency p.event) d → Sent s sent d)
        ∨ Above s (dependency p.event) id ∧ ∃ q, s.published id = some q
          ∧ ∀ d, Above s (replyTo q.event) d → Sent s sent d)
  reached : ∀ front page back, pages = front ++ page :: back → page.complete = false →
    ∀ p ∈ s.eventsBetween after page.cursor, eligible p = true → ∀ id, Brings s p id →
      Sent s ((front ++ [page]).flatMap ExportPage.items) id
  whole : (∃ page ∈ pages, page.complete = true) → ∀ p ∈ s.eventsBetween after through,
    eligible p = true → ∀ id, Brings s p id → Sent s (pages.flatMap ExportPage.items) id

theorem exportPages_sound (hs : Indexed s) {n : Nat}
    (h : s.exportPages host through limit eligible n after 0 = .ok pages) :
    Delivers s limit eligible after through pages := by
  obtain ⟨pieces, left, hpieces, hfits, hleft, hwhole⟩ := exportPages_pieces hs h
  rw [Store.left, List.drop_zero] at hleft
  refine ⟨hfits, fun sent wire rest hsplit => ?_, fun front page back hpages hcomplete => ?_, fun hend => ?_⟩
  · obtain ⟨id, l₁, l₂, hl, hwire, hl₁⟩ := wires_before hpieces hsplit
    rw [hl, List.append_assoc, List.cons_append] at hleft
    obtain ⟨p, hp, heligible, u, v, hchain, hu⟩ := stream_split hleft
    refine ⟨p, hp, heligible, id, hwire, ?_⟩
    have hchained : ∃ ids, s.chain p = .ok ids := by
      cases hids : s.chain p with
      | ok ids => exact ⟨ids, rfl⟩
      | error failure =>
        have := congrArg List.length hchain
        simp [Store.chainOf, hids, Except.toOption] at this
    obtain ⟨ids, hids⟩ := hchained
    obtain ⟨above, rfl, habove, hrest⟩ := chain_ok hids
    rw [chainOf_ok hids] at hchain
    -- the event is the publication itself, at the end of its chain, or one above it
    rcases List.eq_nil_or_concat v with rfl | ⟨v, last, rfl⟩
    · obtain ⟨rfl, hid⟩ := List.append_inj' hchain rfl
      refine .inl ⟨(List.cons.inj hid).1.symm, fun d hd => hl₁ d (hu d ((habove d).mpr hd))⟩
    · rw [List.concat_eq_append, ← List.cons_append, ← List.append_assoc] at hchain
      obtain ⟨rfl, -⟩ := List.append_inj' hchain rfl
      obtain ⟨q, hq, -, hbefore⟩ := hrest u id v rfl
      refine .inr ⟨(habove id).mp (by simp), q, hq, fun d hd => hl₁ d (hu d ((hbefore d).mpr hd))⟩
  · subst hpages
    obtain ⟨pieces, hpieces, hle, hchained, hplace, hrest⟩ := exportPages_place hs h hcomplete
    rw [Store.left, List.drop_zero, eventsBetween_append hs hle hplace.before, stream_append] at hrest
    have hsent : pieces.flatten = s.stream eligible (s.eventsBetween after page.cursor) ++
        (s.stream eligible (s.eventsBetween page.cursor through)).take page.dependencyOffset := by
      have hboth := hrest
      rw [Store.left, ← List.take_append_drop page.dependencyOffset
        (s.stream eligible (s.eventsBetween page.cursor through)), ← List.append_assoc] at hboth
      refine (List.append_cancel_right (hboth.trans ?_)).symm
      rw [List.take_append_drop]
    intro p hp heligible id hbrings
    obtain ⟨ids, hids⟩ := hchained p hp heligible
    refine sent_of_says hpieces ?_
    rw [hsent]
    exact List.mem_append_left _ (mem_stream hp heligible ((brings_iff hids).mp hbrings))
  · obtain ⟨rfl, hchained⟩ := hwhole hend
    rw [List.append_nil] at hleft
    intro p hp heligible id hbrings
    obtain ⟨ids, hids⟩ := hchained p hp heligible
    refine sent_of_says hpieces ?_
    rw [← hleft]
    exact mem_stream hp heligible ((brings_iff hids).mp hbrings)

/-! ## Failures -/

omit [Externals] in
theorem required_error {v : Value} {key : String} {failure : ChatError}
    (h : required v key = .error failure) : failure.code = "invalid_params" := by
  rcases except_bind_error.mp h with h | ⟨_, -, h⟩
  · exact except_refuse_error h ▸ rfl
  · cases h

omit [Externals] in
/-- What cannot be sent fails otherwise than a wrong offset. -/
theorem parents_error {failure : ChatError} : ∀ {fuel : Nat} {seen : List String} {start : Option String},
    s.parents e fuel seen start = .error failure → failure.code ≠ "invalid_cursor"
  | 0, seen, none, h => by cases h
  | _ + 1, seen, none, h => by cases h
  | 0, seen, some id, h => by
    obtain rfl := Except.error.inj h
    decide
  | fuel + 1, seen, some id, h => by
    unfold Store.parents at h
    rcases except_bind_error.mp h with h | ⟨_, -, h⟩
    · exact except_refuse_error h ▸ by decide
    rcases except_bind_error.mp h with h | ⟨p, -, h⟩
    · exact except_okOr_error h ▸ by decide
    rcases except_bind_error.mp h with h | ⟨_, -, h⟩
    · exact except_refuse_error h ▸ by decide
    rcases except_bind_error.mp h with h | ⟨_, -, h⟩
    · exact parents_error h
    · cases h

omit [Externals] in
theorem chain_error {failure : ChatError} (h : s.chain p = .error failure) :
    failure.code ≠ "invalid_cursor" := by
  rcases except_bind_error.mp h with h | ⟨_, -, h⟩
  · rcases except_bind_error.mp h with h | ⟨_, -, h⟩
    · exact parents_error h
    · cases h
  · rcases except_bind_error.mp h with h | ⟨_, -, h⟩
    · rw [required_error h]
      decide
    · cases h

theorem eventPath_error {failure : ChatError} (h : s.eventPath e = .error failure) :
    failure.code ≠ "invalid_cursor" := by
  unfold Store.eventPath at h
  rcases except_bind_error.mp h with h | ⟨_, -, h⟩
  · rw [required_error h]
    decide
  rcases except_bind_error.mp h with h | ⟨_, -, h⟩
  · exact except_okOr_error h ▸ by decide
  rcases except_bind_error.mp h with h | ⟨_, -, h⟩
  · exact except_refuse_error h ▸ by decide
  split at h
  · cases h
  · split at h
    · cases h
    · rcases except_bind_error.mp h with h | ⟨_, -, h⟩
      · exact except_refuse_error h ▸ by decide
      · cases h

theorem wireEvent_error {failure : ChatError} (h : s.wireEvent id = .error failure) :
    failure.code ≠ "invalid_cursor" := by
  rcases except_bind_error.mp h with h | ⟨_, -, h⟩
  · exact except_okOr_error h ▸ by decide
  rcases except_bind_error.mp h with h | ⟨_, -, h⟩
  · rcases except_bind_error.mp h with h | ⟨_, -, h⟩
    · exact eventPath_error h
    · exact except_okOr_error h ▸ by decide
  · cases h

theorem Broken.code {failure : ChatError} (h : Broken s eligible after through failure) :
    failure.code ≠ "invalid_cursor" := by
  obtain ⟨p, -, -, h | ⟨id, -, h⟩⟩ := h
  · exact chain_error h
  · exact wireEvent_error h

/-! ## Any export -/

omit [Externals] in
/-- A host may read an event: Owner's reading with Owner's access, a DM with one of its members, and
what lies in a channel or in no conversation. -/
def MayRead (s : Store) (host : String) (e : Value) : Prop :=
  if strv e "type" = "read.ack" ∨ strv e "type" = "read.cursor" then s.ownerAccess host = true
  else ∀ conv, e["conversation_id"] = .str conv →
    (∃ members, s.conversations[conv]? = some members ∧ ∃ m ∈ members, s.owns host m = true)
      ∨ s.conversations[conv]? = none ∧ s.hasChannel conv = true

omit [Externals] in
theorem mayRead_of_eligible {interests : StrSet} (h : s.eligibleForHost host interests e = true) :
    MayRead s host e := by
  unfold Store.eligibleForHost at h
  unfold MayRead
  split
  · next htype => rwa [if_pos htype] at h
  · next htype =>
    rw [if_neg htype] at h
    intro conv hconv
    rw [hconv] at h
    simp only [Value.asStr_str] at h
    cases hmembers : s.conversations[conv]? with
    | some members =>
      rw [hmembers] at h
      obtain ⟨m, hm, howns⟩ := List.any_eq_true.mp h
      exact .inl ⟨members, rfl, m, hm, howns⟩
    | none =>
      rw [hmembers] at h
      refine .inr ⟨rfl, ?_⟩
      cases hchannel : s.hasChannel conv with
      | true => rfl
      | false => simp [hchannel] at h

/-- What a page shows is what the host may read, or an ancestor of it in the same conversation. -/
def Private (s : Store) (host : String) (page : ExportPage) : Prop :=
  ∀ wire ∈ page.items, ∃ p ∈ s.events, MayRead s host p.event
    ∧ ∃ id q, Brings s p id ∧ s.wireEvent id = .ok wire ∧ s.published id = some q
      ∧ q.event["conversation_id"] = p.event["conversation_id"]

theorem exportSliceBy_private (hs : Indexed s) (hread : ∀ p, eligible p = true → MayRead s host p.event)
    (h : s.exportSliceBy host after through offset limit eligible = .ok page) : Private s host page := by
  intro wire hwire
  obtain ⟨piece, hsays, -, hends⟩ := exportSliceBy_ok hs h
  obtain ⟨rest, hleft⟩ : ∃ rest, s.left eligible through after offset = piece ++ rest := by
    rcases hends with ⟨-, -, rfl⟩ | ⟨-, -, -, -, -, hleft⟩
    · exact ⟨[], (List.append_nil _).symm⟩
    · exact ⟨_, hleft⟩
  obtain ⟨i, hi, hget⟩ := List.mem_iff_getElem.mp hwire
  have hi' : i < (Program.fresh [] piece).length := hsays.length_eq ▸ hi
  have hid := (mem_fresh.mp (List.getElem_mem hi')).1
  have hevent := (List.forall₂_iff_get.mp hsays).2 i hi' hi
  have hstream : (Program.fresh [] piece)[i] ∈ s.stream eligible (s.eventsBetween after through) := by
    refine List.mem_of_mem_drop (i := offset) ?_
    rw [← Store.left, hleft]
    exact List.mem_append_left _ hid
  obtain ⟨p, hp, hchain⟩ := List.mem_flatMap.mp hstream
  obtain ⟨hp, heligible⟩ := List.mem_filter.mp hp
  have hretained : p ∈ s.events := List.mem_of_mem_take (List.mem_of_mem_drop hp)
  cases hids : s.chain p with
  | error failure => simp [Store.chainOf, hids, Except.toOption] at hchain
  | ok ids =>
    have hbrings := (brings_iff hids).mpr hchain
    refine ⟨p, hretained, hread p heligible, (Program.fresh [] piece)[i], ?_⟩
    obtain ⟨above, rfl, habove, hrest⟩ := chain_ok hids
    rcases hbrings with hself | habove'
    · exact ⟨p, .inl hself, hget ▸ hevent, (hs.published_iff).mpr ⟨hretained, hself.symm⟩, rfl⟩
    · obtain ⟨u, v, hsplit⟩ := List.append_of_mem ((habove _).mpr habove')
      obtain ⟨q, hq, hconv, -⟩ := hrest u _ v hsplit
      exact ⟨q, .inr habove', hget ▸ hevent, hq, hconv⟩

end

end

/-! ## An enrolled peer -/

/-- The library, where texts are short and identifiers only grow longer. -/
@[reducible] def briefText : Externals where
  parse _ := .error "expected value at line 1 column 1"
  pretty _ := "p"
  compact _ := "c"
  mismatch _ := "invalid type"
  sha256 s := s
  isUuid _ := true
  isRfc3339 _ := true
  nfkc s := s
  caseFold s := s
  graphemes _ := []
  isAlphanumeric _ := true
  uuid _ n := String.ofList (List.replicate (n + 1) 'a')
  now _ := "t"

section

local instance relayingText : Externals := briefText

theorem briefText_once : MintsOnce := by
  intro daemon m n h
  have hl : (String.ofList (List.replicate (m + 1) 'a')).toList.length =
      (String.ofList (List.replicate (n + 1) 'a')).toList.length :=
    congrArg (fun s : String => s.toList.length) h
  simpa using hl

/-- The coordinator's empty store. -/
def emptyHub : Store :=
  .open "hub" {
    spaceId := "space", coordinatorId := "hub", generation := "generation"
    enrollmentRevision := "enrollment", ownerIdentityRevision := "owner" } false

/-- A peer is enrolled, and Owner writes in a channel. -/
def relayed : Store :=
  after (send "owner" "" "owner" (object [("request_id", "two"), ("channel", "general"),
      ("body", "Hello")]) [])
    (after (createChannel "owner" (object [("request_id", "one"), ("path", "general")]) [])
      (after (registerHost "peer" true false []) emptyHub.reopen))

theorem relayed_opened : Opened relayed := by
  refine ⟨emptyHub, fun p hp => (List.not_mem_nil hp).elim, ?_⟩
  exact ((Relation.ReflTransGen.single (.registerHost _ true false [])).tail
    (.createChannel "owner" _ [] (by decide))).tail (.send "owner" "" "owner" _ [] none)

/-- The peer follows every channel. -/
theorem relayed_exports : ∃ page, relayed.exportSlice "peer" (.ofList ["*"]) 0 4 0 = .ok page := by
  have hok : (relayed.exportSlice "peer" (.ofList ["*"]) 0 4 0).toOption.isSome = true := by
    decide +kernel
  cases hpage : relayed.exportSlice "peer" (.ofList ["*"]) 0 4 0 with
  | ok page => exact ⟨page, rfl⟩
  | error failure =>
    rw [hpage] at hok
    cases hok

def followed (p : Published) : Bool := relayed.eligibleForHost "peer" (.ofList ["*"]) p.event

end

end ClaudeManager
