import ClaudeManager.Messaging.NameKeys
import ClaudeManager.Messaging.Upkeep
import ClaudeManager.Messaging.Send

/-!
# Names stay unambiguous

* `Unambiguous` — two participants that are not released hold no key both
* `Benign` — an event whose identity keeps the names so
* `Named.commit` — a benign event keeps the names of a store unambiguous
-/

namespace ClaudeManager

open Json Containers Program

/-! ## Names -/

/-- Each participant has the name it had, or a later one. -/
def Advances (names names' : Map Name) : Prop :=
  ∀ (a : String) (n : Name), names[a]? = some n → ∃ n', names'[a]? = some n' ∧ (n' = n ∨ n.revision < n'.revision)

/-- The identity an event gives is known, or outdated. -/
def Spent (names : Map Name) (e : Value) : Prop :=
  ∀ a v, Store.eventIdentity e = some (a, v) →
    ∃ n, names[a]? = some n ∧ (n = v ∨ v.revision < n.revision)

variable {names names' : Map Name} {e : Value}

theorem Advances.refl : Advances names names := fun _ n h => ⟨n, h, .inl rfl⟩

theorem Spent.advance (h : Spent names e) (ha : Advances names names') : Spent names' e := by
  intro a v hv
  obtain ⟨n, hn, hle⟩ := h a v hv
  obtain ⟨n', hn', hle'⟩ := ha a n hn
  refine ⟨n', hn', ?_⟩
  rcases hle with rfl | hlt
  · exact hle'
  · rcases hle' with rfl | hlt'
    · exact .inr hlt
    · exact .inr (Nat.lt_trans hlt hlt')

/-- Such an identity changes nothing. -/
theorem Spent.nextNames (h : Spent names e) : Store.nextNames names e = names := by
  unfold Store.nextNames
  split
  · rfl
  · rename_i a v hv
    obtain ⟨n, hn, hle⟩ := h a v hv
    unfold Store.adoptName
    split
    · rename_i hnewer
      rw [hn, Option.all_some, decide_eq_true_eq] at hnewer
      rcases hle with rfl | hlt
      · ext1 b
        rw [getElem?_insert_map]
        split
        · rename_i hb
          rw [hb, hn]
        · rfl
      · omega
    · rfl

theorem mem_nextAliases {old : Option Name} {name x : String}
    (h : x ∈ Store.nextAliases old name) : ∃ n, old = some n ∧ x ∈ n.name :: n.aliases := by
  unfold Store.nextAliases at h
  split at h
  · cases h
  · rename_i n
    refine ⟨n, rfl, ?_⟩
    split at h
    · rcases List.mem_append.mp h with h | h
      · exact List.mem_cons_of_mem _ h
      · rw [List.mem_singleton.mp h]
        exact List.mem_cons_self
    · exact List.mem_cons_of_mem _ h

/-- A newer name of `actor` in place of its old one. -/
theorem adoptName_newer {v : Name} {actor : String}
    (h : ∀ old : Name, names[actor]? = some old → old.revision < v.revision) :
    Store.adoptName names actor v = names.insert actor v ∧ Advances names (names.insert actor v) := by
  constructor
  · unfold Store.adoptName
    rw [if_pos]
    cases hold : names[actor]? with
    | none => rfl
    | some old =>
      rw [Option.all_some, decide_eq_true_eq]
      exact Nat.le_of_lt (h old hold)
  · intro a n hn
    rw [getElem?_insert_map]
    split
    · rename_i ha
      exact ⟨v, rfl, .inr (h n (ha ▸ hn))⟩
    · exact ⟨n, hn, .inl rfl⟩

theorem nextRevision_ok {old : Option Name} {r : Nat} (h : nextRevision old = .ok r) :
    r < 2 ^ 64 ∧ ∀ n, old = some n → r = n.revision + 1 := by
  unfold nextRevision at h
  split at h
  · obtain rfl := except_pure_ok.mp h
    exact ⟨by omega, fun n hn => nomatch hn⟩
  · rename_i old
    obtain ⟨rfl, hlt⟩ := checkedAdd_ok.mp h
    exact ⟨hlt, fun n hn => Option.some.inj hn ▸ rfl⟩

section

variable [Externals] {names : Map Name}

/-- Two participants that are not released hold no key both, and every name is spelled as an
allocation spells it. -/
structure Unambiguous (names : Map Name) : Prop where
  apart : ∀ (a b : String) (n m : Name), names[a]? = some n → names[b]? = some m → a ≠ b → n.released = false →
    m.released = false → ∀ k ∈ n.keys, k ∉ m.keys
  spelled : ∀ (a : String) (n : Name), names[a]? = some n → ∀ x ∈ n.name :: n.aliases, Spelled x

/-- Another participant that stays holds a key that `actor` had when it was released. -/
def Reclaims (names : Map Name) (stays : String → Prop) (actor : String) : Prop :=
  ∃ (old : Name) (other : String) (n : Name), names[actor]? = some old ∧ old.released = true ∧ other ≠ actor ∧ stays other
    ∧ names[other]? = some n ∧ n.released = false ∧ ∃ k ∈ old.keys, k ∈ n.keys

theorem mem_keys_iff {n : Name} {k : String} :
    k ∈ n.keys ↔ ∃ x ∈ n.name :: n.aliases, nameKey x = k := List.mem_map

theorem not_occupied {s : Store} {actor name : String} (h : s.occupied actor name = false)
    {other : String} {n : Name} (hn : s.names[other]? = some n) (hne : other ≠ actor)
    (hlive : n.released = false) : nameKey name ∉ n.keys := by
  intro hk
  refine Bool.eq_false_iff.mp h (List.any_eq_true.mpr ⟨(other, n), mem_toList_map.mpr hn, ?_⟩)
  simp [hne, hlive, hk]

/-- An allocated name keeps the names unambiguous, unless it brings back a key that is held. -/
theorem Unambiguous.allocated {s : Store} {actor : String} {n : Name} (h : Unambiguous s.names)
    (hn : Allocated s actor n) (hback : ¬ Reclaims s.names (fun _ => True) actor) :
    Unambiguous (s.names.insert actor n) := by
  have hapart : ∀ (b : String) (m : Name), s.names[b]? = some m → b ≠ actor → m.released = false →
      ∀ k ∈ n.keys, k ∉ m.keys := by
    intro b m hm hb hlive k hk hkm
    obtain ⟨x, hx, rfl⟩ := mem_keys_iff.mp hk
    rcases List.mem_cons.mp hx with rfl | hx
    · exact not_occupied hn.free hm hb hlive hkm
    · rw [hn.aliases] at hx
      obtain ⟨old, hold, hx⟩ := mem_nextAliases hx
      have hkold : nameKey x ∈ old.keys := mem_keys_iff.mpr ⟨x, hx, rfl⟩
      cases hreleased : old.released with
      | true => exact hback ⟨old, b, m, hold, hreleased, hb, trivial, hm, hlive, _, hkold, hkm⟩
      | false => exact h.apart actor b old m hold hm hb.symm hreleased hlive _ hkold hkm
  constructor
  · intro a b x y hx hy hab hxl hyl k hkx hky
    rw [getElem?_insert_map] at hx hy
    split at hx
    · rename_i ha
      obtain rfl := Option.some.inj hx
      rw [if_neg (fun hb => hab (ha.trans hb.symm))] at hy
      exact hapart b y hy (fun hb => hab (ha.trans hb.symm)) hyl k hkx hky
    · rename_i ha
      split at hy
      · obtain rfl := Option.some.inj hy
        exact hapart a x hx ha hxl k hky hkx
      · exact h.apart a b x y hx hy hab hxl hyl k hkx hky
  · intro a m hm x hx
    rw [getElem?_insert_map] at hm
    split at hm
    · obtain rfl := Option.some.inj hm
      rcases List.mem_cons.mp hx with rfl | hx
      · exact hn.spelled
      · rw [hn.aliases] at hx
        obtain ⟨old, hold, hx⟩ := mem_nextAliases hx
        exact h.spelled actor old hold x hx
    · exact h.spelled a m hm x hx

/-- A participant that is released holds nothing. -/
theorem Unambiguous.release {actor : String} {old n : Name} (h : Unambiguous names)
    (hold : names[actor]? = some old) (hreleased : n.released = true)
    (hsame : n.name = old.name ∧ n.aliases = old.aliases) :
    Unambiguous (names.insert actor n) := by
  constructor
  · intro a b x y hx hy hab hxl hyl
    rw [getElem?_insert_map] at hx hy
    split at hx
    · obtain rfl := Option.some.inj hx
      rw [hreleased] at hxl
      cases hxl
    split at hy
    · obtain rfl := Option.some.inj hy
      rw [hreleased] at hyl
      cases hyl
    exact h.apart a b x y hx hy hab hxl hyl
  · intro a m hm x hx
    rw [getElem?_insert_map] at hm
    split at hm
    · obtain rfl := Option.some.inj hm
      rw [hsame.1, hsame.2] at hx
      exact h.spelled actor old hold x hx
    · exact h.spelled a m hm x hx

/-! ## Commits -/

/-- A store whose names are unambiguous, and whose retained messages attest to no name that is not
known. -/
structure Named (s : Store) : Prop where
  names : Unambiguous s.names
  attested : ∀ p ∈ s.events, ∀ text a, p.event["data"]["identity_attestation"].asStr = some text →
    fromSlice text = .ok a → Spent s.names a ∧ a["data"]["identity_attestation"].asStr = none

/-- An event whose identity keeps the names unambiguous. -/
structure Benign (names : Map Name) (e : Value) : Prop where
  clear : Unambiguous (Store.nextNames names e)
  advances : Advances names (Store.nextNames names e)
  attested : ∀ text a, e["data"]["identity_attestation"].asStr = some text → fromSlice text = .ok a →
    Spent (Store.nextNames names e) a ∧ a["data"]["identity_attestation"].asStr = none

variable {s t : Store} {e : Value}

/-- The identities of `t` are those of `s`, before or after the event. -/
def Adopts (e : Value) (s t : Store) : Prop :=
  t.events = s.events ∧ (t.names = s.names ∨ t.names = Store.nextNames s.names e)

omit [Externals] in
theorem adoptName_twice {a : String} {v : Name} :
    Store.adoptName (Store.adoptName names a v) a v = Store.adoptName names a v := by
  unfold Store.adoptName
  by_cases h : names[a]?.all (fun old => old.revision ≤ v.revision) = true
  · rw [if_pos h, if_pos]
    · ext1 b
      rw [getElem?_insert_map, getElem?_insert_map]
      split <;> rfl
    · rw [getElem?_insert_map, if_pos rfl, Option.all_some, decide_eq_true_eq]
  · rw [if_neg h, if_neg h]

omit [Externals] in
theorem nextNames_twice :
    Store.nextNames (Store.nextNames names e) e = Store.nextNames names e := by
  unfold Store.nextNames
  cases Store.eventIdentity e with
  | none => rfl
  | some entry => exact adoptName_twice

instance : Std.Refl (Adopts e) := ⟨fun _ => ⟨rfl, .inl rfl⟩⟩

instance : IsTrans Store (Adopts e) := by
  refine ⟨fun s t u hst htu => ⟨htu.1.trans hst.1, ?_⟩⟩
  rcases hst.2 with hst | hst
  · rw [← hst]
    exact htu.2
  · rcases htu.2 with htu | htu
    · exact .inr (htu.trans hst)
    · exact .inr (by rw [htu, hst, nextNames_twice])

theorem reduceIdentity_adopts : Evolves (Adopts e) (reduceIdentity e) s := by
  show Adopts e s (after (reduceIdentity e) s)
  unfold after
  cases h : reduceIdentity e s with
  | ok _ t =>
    rw [reduceIdentity_ok h]
    exact ⟨rfl, .inr rfl⟩
  | error f t =>
    have hsame : t = s := by
      unfold reduceIdentity at h
      cases hfield : identityField e with
      | none =>
        rw [hfield] at h
        exact absurd h pure_error
      | some n =>
        simp only [hfield] at h
        rw [bind_check_error] at h
        obtain ⟨-, rfl⟩ | ⟨id, -, h⟩ := h
        · rfl
        rw [bind_check_error] at h
        obtain ⟨-, rfl⟩ | ⟨v, -, h⟩ := h
        · rfl
        rw [bind_get_error, bind_unit_error] at h
        obtain h | ⟨s', hok, h⟩ := h
        · exact (refuse_error.mp h).2.2.symm
        · by_cases hnewer : s.names[id]?.all fun old => old.revision ≤ v.revision
          · rw [if_pos hnewer] at h
            cases h
          · rw [if_neg hnewer] at h
            exact absurd h pure_error
    rw [hsame]
    exact Std.Refl.refl s

theorem reduce_adopts : Evolves (Adopts e) (reduce e) s := by
  have hkept : ∀ s t, Alike Store.sansReads s t → Adopts e s t := fun _ _ h =>
    ⟨(congrArg Store.events h).symm, .inl (congrArg Store.names h).symm⟩
  refine reduce_evolves (fun s t h => hkept s t (Store.sansReads_congr h))
    (fun s => hkept _ _ reducePrivateSync_frame) fun _ => reduceIdentity_adopts

/-- The identities, the history and the requests. -/
def Store.naming (s : Store) : Map Name × List Published × Map (String × String × String) :=
  (s.names, s.events, s.requests)

theorem replayed_naming {bytes source : String} {receipt : Option Value} {path : EventPath}
    {time : Nat} {j : Value} :
    (after (applyReplicationJournal j) (s.written e bytes source receipt path time)).naming
      = s.naming := by
  have hbeside : Store.Beside s (after (applyReplicationJournal j)
      (s.written e bytes source receipt path time)) := (replayed_beside rfl).1
  have hnaming := congrArg Store.naming hbeside.kept
  exact hnaming

/-- A commit that succeeds adopts the identity of its event, and retains it. -/
theorem commit_ok {v : Value} (h : commit e s = .ok v t) : v = e
    ∧ (∃ p, p.event = e ∧ t.events = s.events ++ [p])
    ∧ t.names = Store.nextNames s.names e
    ∧ t.requests = s.requests.insert (Store.requestOf e) (Store.requestEntry e) := by
  obtain ⟨path, time, s2, s3, -, -, hj, hr, hv, rfl⟩ := commitBytes_ok.mp h
  have h2 : s2.naming = s.naming := by
    rw [← after_ok hj]
    exact replayed_naming
  rw [Store.pushPublished_eq, reduce_ok hr]
  refine ⟨hv, ⟨s.publication e (Externals.pretty e), rfl, ?_⟩, ?_, ?_⟩
  · exact congrArg (·.2.1 ++ [_]) h2
  · exact congrArg (Store.nextNames · e) (congrArg Prod.fst h2)
  · show s2.requests.insert _ _ = _
    rw [show s2.requests = s.requests from congrArg (·.2.2) h2]

/-- A commit that fails adopts the identity of its event, or does not. -/
theorem commit_error {f : ChatError} (h : commit e s = .error f t) : Adopts e s t := by
  have hsame : ∀ {u : Store}, u.naming = s.naming → Adopts e s u := fun hu =>
    ⟨congrArg (·.2.1) hu, .inl (congrArg Prod.fst hu)⟩
  obtain rfl | rfl | ⟨path, time, -, ⟨-, reason, rfl⟩ | ⟨-, hj | ⟨s2, s3, e', hj, hr, rfl⟩⟩⟩ :=
    commitBytes_error h
  · exact hsame rfl
  · exact hsame rfl
  · exact hsame rfl
  · rw [← after_error hj]
    exact hsame replayed_naming
  · have h2 : Adopts e s s2 := by
      rw [← after_ok hj]
      exact hsame replayed_naming
    have h3 : Adopts e s2 s3 := after_error hr ▸ reduce_adopts
    have hdone := IsTrans.trans s s2 s3 h2 h3
    exact ⟨hdone.1, hdone.2⟩

/-- A benign event keeps a store's names unambiguous. -/
theorem Named.commit (hs : Named s) (he : Benign s.names e) :
    Named (after (ClaudeManager.commit e) s)
      ∧ Advances s.names (after (ClaudeManager.commit e) s).names := by
  have hnext : ∀ {u : Store}, u.names = Store.nextNames s.names e →
      (∀ p ∈ u.events, p ∈ s.events ∨ p.event = e) → Named u ∧ Advances s.names u.names := by
    intro u hu hevents
    refine ⟨⟨hu ▸ he.clear, fun p hp text a htext ha => ?_⟩, hu ▸ he.advances⟩
    rw [hu]
    rcases hevents p hp with hp | hp
    · obtain ⟨hspent, hnone⟩ := hs.attested p hp text a htext ha
      exact ⟨hspent.advance he.advances, hnone⟩
    · exact he.attested text a (hp ▸ htext) ha
  unfold after
  cases h : ClaudeManager.commit e s with
  | ok v t =>
    obtain ⟨-, ⟨p, hp, hevents⟩, hnames, -⟩ := commit_ok h
    refine hnext hnames fun q hq => ?_
    rw [hevents] at hq
    rcases List.mem_append.mp hq with hq | hq
    · exact .inl hq
    · exact .inr (List.mem_singleton.mp hq ▸ hp)
  | error f t =>
    obtain ⟨hevents, hnames | hnames⟩ := commit_error h
    · refine ⟨⟨hnames ▸ hs.names, fun p hp text a htext ha => ?_⟩, hnames ▸ Advances.refl⟩
      rw [hnames]
      exact hs.attested p (hevents ▸ hp) text a htext ha
    · exact hnext hnames fun p hp => .inl (hevents ▸ hp)

end

end ClaudeManager
