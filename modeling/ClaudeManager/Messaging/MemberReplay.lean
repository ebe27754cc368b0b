import ClaudeManager.Messaging.Admission
import ClaudeManager.Messaging.Replay

/-!
# Members at a revision

An upload is judged by the members its channel had at the revision that the sender saw, which the hub reads
off the history. They are the members that the hub held there itself.

* `lists` — an event that puts a channel under an ID
* `Alters` — the ways in which an event changes the members of a channel
* `Replayed` — the members of a channel, held and read off the history
* `membersAtRevision_held` — a revision that a channel had names, from then on, the members it had
-/

namespace ClaudeManager

open Json Containers Program

/-! ## Listings -/

/-- The event lists a channel under this ID. -/
def lists (channel : String) (e : Value) : Bool :=
  e["data"]["channels"].items.any fun item => item["id"] = .str channel

/-- A channel is listed under its ID once, and by someone. -/
structure Founded (channel : String) (l : List Value) : Prop where
  once : l.Pairwise fun e f => lists channel e = false ∨ lists channel f = false
  named : ∀ e ∈ l, lists channel e = true → strv e["actor"] "id" ≠ ""

section

variable {channel : String} {l before rest : List Value} {e : Value} {s t u : Store}

theorem Founded.front (h : Founded channel (before ++ rest)) : Founded channel before :=
  ⟨(List.pairwise_append.mp h.once).1, fun e he => h.named e (List.mem_append_left _ he)⟩

/-- Before an event that lists a channel, none does. -/
theorem Founded.first (h : Founded channel (l ++ [e])) (he : lists channel e = true) :
    ∀ f ∈ l, lists channel f = false := by
  intro f hf
  have hone := (List.pairwise_append.mp h.once).2.2 f hf e (List.mem_singleton.mpr rfl)
  rcases hone with hf | hnot
  · exact hf
  · rw [he] at hnot
    cases hnot

theorem Founded.last (h : Founded channel (l ++ [e])) (he : lists channel e = true) :
    strv e["actor"] "id" ≠ "" :=
  h.named e (List.mem_append_right _ (List.mem_singleton.mpr rfl)) he

theorem lists_iff (hids : ∀ item ∈ e["data"]["channels"].items, strv item "id" ≠ "") :
    lists channel e = true ↔ channel ∈ e["data"]["channels"].items.map (strv · "id") := by
  unfold lists
  simp only [List.any_eq_true, decide_eq_true_eq, List.mem_map]
  constructor
  · rintro ⟨item, hitem, hid⟩
    exact ⟨item, hitem, strv_of_idx hid⟩
  · rintro ⟨item, hitem, rfl⟩
    exact ⟨item, hitem, idx_eq_of_strv rfl (hids item hitem)⟩

/-! ## Members after a list of events -/

variable [Externals]

/-- The members of a channel after all of these events. -/
def membersAfter (channel : String) : List Value → StrSet → Except ChatError StrSet
  | [], members => pure members
  | e :: rest, members =>
    match Store.stepMembers channel members e with
    | none => membersAfter channel rest members
    | some (.error failure) => throw failure
    | some (.ok members) => membersAfter channel rest members

variable {members after : StrSet} {revision : String}

theorem membersAfter_append (h : membersAfter channel l members = .ok after) :
    membersAfter channel (l ++ rest) members = membersAfter channel rest after := by
  induction l generalizing members with
  | nil =>
    obtain rfl := Except.ok.inj h
    rfl
  | cons e l ih =>
    rw [membersAfter] at h
    rw [List.cons_append, membersAfter]
    cases hstep : Store.stepMembers channel members e with
    | none =>
      rw [hstep] at h
      exact ih h
    | some result =>
      rw [hstep] at h
      cases result with
      | error failure => cases h
      | ok next => exact ih h

theorem membersAfter_snoc (h : membersAfter channel l members = .ok after)
    (hstep : Store.stepMembers channel after e = none) :
    membersAfter channel (l ++ [e]) members = .ok after := by
  rw [membersAfter_append h, membersAfter, hstep]
  rfl

theorem membersAfter_step (h : membersAfter channel l members = .ok after) {next : StrSet}
    (hstep : Store.stepMembers channel after e = some (.ok next)) :
    membersAfter channel (l ++ [e]) members = .ok next := by
  rw [membersAfter_append h, membersAfter, hstep]
  rfl

/-- A revision is read off the events up to it. -/
theorem membersUpTo_append (h : Store.membersUpTo channel revision l members = .ok after) :
    Store.membersUpTo channel revision (l ++ rest) members = .ok after := by
  induction l generalizing members with
  | nil => cases h
  | cons e l ih =>
    rw [List.cons_append]
    unfold Store.membersUpTo at h ⊢
    cases hstep : Store.stepMembers channel members e with
    | none =>
      rw [hstep] at h
      exact ih h
    | some result =>
      rw [hstep] at h
      cases result with
      | error failure => cases h
      | ok next =>
        simp only at h ⊢
        split
        · rename_i hid
          rwa [if_pos hid] at h
        · rename_i hid
          rw [if_neg hid] at h
          exact ih h

/-- The event of a revision is the last that counts for it. -/
theorem membersUpTo_of_after (h : membersAfter channel l members = .ok after) {next : StrSet}
    (hstep : Store.stepMembers channel after e = some (.ok next)) (hid : e["id"] = .str revision)
    (hfirst : ∀ q ∈ l, q["id"] ≠ .str revision) :
    Store.membersUpTo channel revision (l ++ [e]) members = .ok next := by
  induction l generalizing members with
  | nil =>
    obtain rfl := Except.ok.inj h
    rw [List.nil_append, Store.membersUpTo, hstep]
    simp [hid]
  | cons q l ih =>
    have hrest : ∀ q ∈ l, q["id"] ≠ .str revision := fun q hq => hfirst q (List.mem_cons_of_mem _ hq)
    have hq : q["id"] ≠ .str revision := hfirst q List.mem_cons_self
    rw [List.cons_append]
    unfold membersAfter at h
    unfold Store.membersUpTo
    cases hold : Store.stepMembers channel members q with
    | none =>
      rw [hold] at h
      exact ih h hrest
    | some result =>
      rw [hold] at h
      cases result with
      | error failure => cases h
      | ok now =>
        simp only
        rw [if_neg hq]
        exact ih h hrest

/-! ## What changes the members of a channel -/

/-- An event that the reducers accept changes the members of a channel. -/
inductive Alters (channel : String) (s : Store) (e : Value) : Prop
  | enrolls {ids : List String} : e["type"] = "membership.enrollment" →
    Decode.strs e["data"]["default_channels"] = some ids → channel ∈ ids →
    strv e["data"] "participant_id" ≠ "" → s.memberships[channel]?.isSome → Alters channel s e
  | founds : e["type"] = "channel.create" → lists channel e = true → Alters channel s e
  | initializes {members : StrSet} : e["type"] = "channel.membership.initialize" →
    e["data"]["channel_id"] = .str channel → Decode.strSet e["data"]["members"] = some members →
    s.hasChannel channel = true → Alters channel s e
  | changes : e["type"] = "channel.membership" → e["conversation_id"] = .str channel →
    strv e["data"] "participant_id" ≠ "" → s.memberships[channel]?.isSome → Alters channel s e

omit [Externals] in
theorem strs_items {v : Value} {ids : List String} (h : Decode.strs v = some ids) :
    v.items = ids.map Value.str := by
  unfold Decode.strs at h
  cases v with
  | arr items =>
    have hitems : items.mapM Value.asStr = some ids := h
    show items = ids.map Value.str
    induction items generalizing ids with
    | nil =>
      obtain rfl := Option.some.inj hitems
      rfl
    | cons item items ih =>
      rw [List.mapM_cons] at hitems
      cases hitem : item.asStr with
      | none => simp [hitem] at hitems
      | some id =>
        cases hrest : items.mapM Value.asStr with
        | none => simp [hitem, hrest] at hitems
        | some rest =>
          simp [hitem, hrest] at hitems
          rw [← hitems, List.map_cons, ← ih hrest hrest, Value.asStr_eq_some.mp hitem]
  | _ => cases h

omit [Externals] in
/-- Whoever is enrolled joins channels that have members. -/
theorem enrolled_channels {ids : List String} {actor : String}
    (htype : e["type"] = "membership.enrollment") (hactor : strv e["data"] "participant_id" = actor)
    (h : ids.forM (enrollInto e actor) s = .ok ⟨⟩ t) : ∀ id ∈ ids, s.memberships[id]?.isSome := by
  induction ids generalizing s with
  | nil => exact fun id hid => (List.not_mem_nil hid).elim
  | cons first ids ih =>
    rw [List.forM_eq_forM, List.forM_cons, bind_unit_ok] at h
    obtain ⟨u, hu, hrest⟩ := h
    obtain ⟨⟨hfirst, -⟩, rfl⟩ := (enrollInto_ok htype hactor).mp hu
    intro id hid
    rcases List.mem_cons.mp hid with rfl | hid
    · exact hfirst
    have hlater := ih hrest id hid
    simp only [Store.setMembers, getElem?_upsert] at hlater
    by_cases heq : id = first
    · rw [heq]
      exact hfirst
    · rwa [if_neg heq] at hlater

/-- Every channel whose members an accepted event changes is altered in one of these ways. -/
theorem reduceMembership_alters
    (hids : ∀ item ∈ e["data"]["channels"].items, strv item "id" ≠ "")
    (h : reduceMembership e s = .ok ⟨⟩ t) (hmem : channel ∈ Store.membershipIds e) :
    Alters channel s e := by
  unfold Store.membershipIds at hmem
  by_cases henroll : e["type"] = "membership.enrollment"
  · rw [if_pos henroll] at hmem
    rw [reduceMembership_enrollment henroll] at h
    unfold reduceEnrollment at h
    simp only [bind_check_ok, bind_get_ok, bind_refuse_ok, bind_modify_ok, required_ok,
      fromValue_ok] at h
    obtain ⟨actor, ⟨hactor, hne⟩, -, ids, hdecode, h⟩ := h
    rw [hdecode] at hmem
    have hknown := enrolled_channels henroll hactor h channel hmem
    exact .enrolls henroll hdecode hmem (hactor ▸ hne) hknown
  rw [if_neg henroll] at hmem
  by_cases hcreate : e["type"] = "channel.create"
  · rw [if_pos hcreate] at hmem
    split at hmem
    · exact .founds hcreate ((lists_iff hids).mpr hmem)
    · cases hmem
  rw [if_neg hcreate] at hmem
  by_cases hinit : e["type"] = "channel.membership.initialize"
  · rw [if_pos hinit] at hmem
    rw [reduceMembership_init hinit] at h
    obtain rfl := List.mem_singleton.mp hmem
    have hchannel := (reduceInitialize_ok hinit h).2
    unfold reduceInitialize at h
    simp only [bind_check_ok, bind_get_ok, bind_refuse_ok, bind_modify_ok, required_ok,
      fromValue_ok, modify_ok] at h
    obtain ⟨_, ⟨rfl, hne⟩, -, members, hdecode, -⟩ := h
    exact .initializes hinit (idx_eq_of_strv rfl hne) hdecode hchannel
  rw [if_neg hinit] at hmem
  by_cases hchange : e["type"] = "channel.membership"
  · rw [if_pos hchange] at hmem
    rw [reduceMembership_change hchange] at h
    obtain rfl := List.mem_singleton.mp hmem
    unfold reduceMembershipChange at h
    simp only [bind_query_ok, bind_check_ok, bind_okOr_ok, bind_get_ok, bind_modify_ok,
      required_ok, modify_ok] at h
    obtain ⟨_, -, _, ⟨rfl, hne⟩, _, ⟨rfl, hmember⟩, joined, -, members, hm, -⟩ := h
    exact .changes hchange (idx_eq_of_strv rfl hne) hmember (by rw [hm]; rfl)
  · rw [if_neg hchange] at hmem
    cases hmem

/-- Whoever creates a channel is read as its first member. -/
theorem stepMembers_create (htype : e["type"] = "channel.create") (hlists : lists channel e = true)
    (hnamed : strv e["actor"] "id" ≠ "") :
    Store.stepMembers channel members e
      = some (.ok (if strv e["actor"] "id" = "system" then members
          else members.insert (strv e["actor"] "id"))) := by
  have hrequired : required e["actor"] "id" = .ok (strv e["actor"] "id") := required_ok.mpr ⟨rfl, hnamed⟩
  have hactor : e["actor"]["id"] = .str (strv e["actor"] "id") := idx_eq_of_strv rfl hnamed
  unfold lists at hlists
  unfold Store.stepMembers
  simp only [strv_of_idx htype, hlists, hrequired]
  rw [hactor]
  by_cases hsystem : strv e["actor"] "id" = "system"
  · simp [hsystem]
  · simp only [and_self, if_true, ne_eq, Value.str.injEq, hsystem, not_false_eq_true, if_false]
    rfl

/-- An event that changes no members of a channel, and does not create it, is read past. -/
theorem stepMembers_none (h : reduceMembership e s = .ok ⟨⟩ t)
    (hmem : channel ∉ Store.membershipIds e)
    (hcreate : e["type"] = "channel.create" → lists channel e = false) :
    Store.stepMembers channel members e = none := by
  unfold Store.membershipIds at hmem
  unfold Store.stepMembers
  by_cases henroll : e["type"] = "membership.enrollment"
  · rw [if_pos henroll] at hmem
    rw [reduceMembership_enrollment henroll] at h
    unfold reduceEnrollment at h
    simp only [bind_check_ok, bind_get_ok, bind_refuse_ok, bind_modify_ok, required_ok,
      fromValue_ok] at h
    obtain ⟨actor, -, -, ids, hdecode, -⟩ := h
    rw [hdecode] at hmem
    have hnot : channel ∉ ids := hmem
    simp [strv_of_idx henroll, strs_items hdecode, hnot]
  have henroll' : strv e "type" ≠ "membership.enrollment" := fun h => henroll (idx_eq_of_strv h (by decide))
  rw [if_neg henroll] at hmem
  by_cases htype : e["type"] = "channel.create"
  · have hnot := hcreate htype
    unfold lists at hnot
    simp [strv_of_idx htype, hnot]
  have htype' : strv e "type" ≠ "channel.create" := fun h => htype (idx_eq_of_strv h (by decide))
  rw [if_neg htype] at hmem
  by_cases hinit : e["type"] = "channel.membership.initialize"
  · rw [if_pos hinit] at hmem
    have hnot : e["data"]["channel_id"] ≠ .str channel := fun h =>
      hmem (List.mem_singleton.mpr (strv_of_idx h).symm)
    simp [strv_of_idx hinit, hnot]
  have hinit' : strv e "type" ≠ "channel.membership.initialize" := fun h =>
    hinit (idx_eq_of_strv h (by decide))
  rw [if_neg hinit] at hmem
  by_cases hchange : e["type"] = "channel.membership"
  · rw [if_pos hchange] at hmem
    have hnot : e["conversation_id"] ≠ .str channel := fun h =>
      hmem (List.mem_singleton.mpr (strv_of_idx h).symm)
    simp [strv_of_idx hchange, hnot]
  have hchange' : strv e "type" ≠ "channel.membership" := fun h => hchange (idx_eq_of_strv h (by decide))
  simp [henroll', htype', hinit', hchange']

/-- The history is read as it was reduced. -/
theorem Alters.step (h : Alters channel s e) (hnamed : lists channel e = true → strv e["actor"] "id" ≠ "") :
    Store.stepMembers channel members e = some (.ok (Store.nextMembers e members)) := by
  cases h with
  | enrolls htype hdecode hmem hmember =>
    have hany : e["data"]["default_channels"].items.any (· = .str channel) = true := by
      rw [strs_items hdecode]
      simpa using hmem
    have hrequired : required e["data"] "participant_id" = .ok (strv e["data"] "participant_id") :=
      required_ok.mpr ⟨rfl, hmember⟩
    unfold Store.stepMembers Store.nextMembers
    simp only [strv_of_idx htype, htype, hany, hrequired]
    rfl
  | founds htype hlists =>
    rw [stepMembers_create htype hlists (hnamed hlists)]
    simp [Store.nextMembers, htype]
  | initializes htype hchannel hdecode hhas =>
    unfold Store.stepMembers Store.nextMembers
    simp [strv_of_idx htype, htype, hchannel, hdecode, fromValue]
  | changes htype hchannel hmember hknown =>
    have hrequired : required e["data"] "participant_id" = .ok (strv e["data"] "participant_id") :=
      required_ok.mpr ⟨rfl, hmember⟩
    unfold Store.stepMembers Store.nextMembers
    simp [strv_of_idx htype, htype, hchannel, hrequired]

/-! ## The members that are held -/

omit [Externals] in
/-- Updating an entry again by an idempotent update changes nothing more. -/
theorem getElem?_foldl_upsert {α : Type} {f : α → α} (hf : ∀ a, f (f a) = f a) {ids : List String}
    {m : Map α} {k : String} {d : α} :
    (ids.foldl (fun m id => upsert m id d f) m)[k]? = if k ∈ ids then some (f (entryD m k d)) else m[k]? := by
  induction ids generalizing m with
  | nil => simp
  | cons id ids ih =>
    rw [List.foldl_cons, ih, entryD_upsert, getElem?_upsert]
    by_cases hid : k = id
    · subst hid
      simp [hf]
    · simp [hid]

omit [Externals] in
theorem nextMembers_idem : Store.nextMembers e (Store.nextMembers e members) = Store.nextMembers e members := by
  have hinsert : ∀ (m : StrSet) (id : String), (m.insert id).insert id = m.insert id := by
    intro m id
    ext a
    simp
  have herase : ∀ (m : StrSet) (id : String), (m.erase id).erase id = m.erase id := by
    intro m id
    ext a
    simp
  unfold Store.nextMembers
  simp only
  repeat' split
  all_goals simp only [hinsert, herase]

omit [Externals] in
theorem memberships_after {m : Map StrSet} :
    (Store.nextMemberships m e)[channel]?
      = if channel ∈ Store.membershipIds e then some (Store.nextMembers e (entryD m channel ∅))
        else m[channel]? :=
  getElem?_foldl_upsert fun _ => nextMembers_idem

omit [Externals] in
theorem revisions_after {m : Map String} :
    (Store.nextRevisions m e)[channel]?
      = if channel ∈ Store.membershipIds e then some (strv e "id") else m[channel]? := by
  unfold Store.nextRevisions
  generalize Store.membershipIds e = ids
  induction ids generalizing m with
  | nil => simp
  | cons id ids ih =>
    rw [List.foldl_cons, ih, getElem?_insert_map]
    by_cases hid : channel = id
    · simp [hid]
    · simp [hid]

/-- What the history tells of a channel is what the store holds of it. -/
structure Replayed (channel : String) (s : Store) (l : List Value) (members : StrSet) : Prop where
  after : membersAfter channel l ∅ = .ok members
  quiet : (∀ e ∈ l, lists channel e = false) → members = ∅
  channels : s.hasChannel channel = true → ∃ e ∈ l, lists channel e = true
  listed : s.memberships[channel]?.isSome → ∃ e ∈ l, lists channel e = true
  held : s.memberships[channel]?.isSome → s.memberships[channel]? = some members
  revised : s.memberships[channel]?.isSome = s.membershipRevisions[channel]?.isSome
  revision : ∀ r, s.membershipRevisions[channel]? = some r →
    Store.membersUpTo channel r l ∅ = .ok members

theorem Replayed.of_same (h : Replayed channel s l members) (hm : t.memberships = s.memberships)
    (hr : t.membershipRevisions = s.membershipRevisions) (hc : t.channels = s.channels) :
    Replayed channel t l members := by
  have hhas : t.hasChannel channel = s.hasChannel channel := by
    unfold Store.hasChannel
    rw [hc]
  exact ⟨h.after, h.quiet, fun ht => h.channels (hhas ▸ ht), by rw [hm]; exact h.listed,
    by rw [hm]; exact h.held, by rw [hm, hr]; exact h.revised, by rw [hr]; exact h.revision⟩

theorem Replayed.of_kept (h : Replayed channel s l members) (hkept : t.kept = s.kept) :
    Replayed channel t l members := by
  have hm : t.kept.memberships = s.kept.memberships := by rw [hkept]
  have hr : t.kept.membershipRevisions = s.kept.membershipRevisions := by rw [hkept]
  have hc : t.kept.channels = s.kept.channels := by rw [hkept]
  exact h.of_same hm hr hc

omit [Externals] in
/-- A channel that an event leaves was there before, or the event lists it. -/
theorem hasChannel_listed (hids : ∀ item ∈ e["data"]["channels"].items, strv item "id" ≠ "")
    (h : (s.reducedChannels e).hasChannel channel = true) :
    s.hasChannel channel = true ∨ lists channel e = true := by
  obtain ⟨path, hpath⟩ := Store.hasChannel_reducedChannels.mp h
  unfold Store.pathAfter at hpath
  split at hpath
  · rename_i item hitem
    have hmem := List.mem_reverse.mp (List.mem_of_find?_eq_some hitem)
    exact .inr ((lists_iff hids).mpr (List.mem_map.mpr ⟨item, hmem, Option.some.inj hpath⟩))
  · exact .inl (Store.hasChannel_iff.mpr ⟨path, hpath⟩)

/-- What a channel needs to be altered has been listed. -/
theorem Replayed.alters_listed (h : Replayed channel s l members)
    (hids : ∀ item ∈ e["data"]["channels"].items, strv item "id" ≠ "")
    (halters : Alters channel (s.reducedChannels e) e) : ∃ q ∈ l ++ [e], lists channel q = true := by
  have hearlier : (∃ q ∈ l, lists channel q = true) → ∃ q ∈ l ++ [e], lists channel q = true :=
    fun ⟨q, hq, hlists⟩ => ⟨q, List.mem_append_left _ hq, hlists⟩
  have hlast : e ∈ l ++ [e] := List.mem_append_right _ (List.mem_singleton.mpr rfl)
  cases halters with
  | enrolls _ _ _ _ hknown => exact hearlier (h.listed hknown)
  | founds _ hlists => exact ⟨e, hlast, hlists⟩
  | initializes _ _ _ hhas =>
    rcases hasChannel_listed hids hhas with hhas | hlists
    · exact hearlier (h.channels hhas)
    · exact ⟨e, hlast, hlists⟩
  | changes _ _ _ hknown => exact hearlier (h.listed hknown)

/-- An altered channel has the members it is altered from, in the store as in the history. -/
theorem Replayed.alters_members (h : Replayed channel s l members) (hfounded : Founded channel (l ++ [e]))
    (halters : Alters channel (s.reducedChannels e) e) :
    Store.nextMembers e (entryD s.memberships channel ∅) = Store.nextMembers e members := by
  have hknown : s.memberships[channel]?.isSome → entryD s.memberships channel ∅ = members := by
    intro hsome
    unfold entryD
    rw [h.held hsome]
    rfl
  cases halters with
  | enrolls _ _ _ _ hsome => rw [hknown hsome]
  | founds _ hlists =>
    -- what is founded was never listed before, so that it has no members yet
    have hquiet := hfounded.first hlists
    have hnone : s.memberships[channel]? = none := by
      cases hentry : s.memberships[channel]? with
      | none => rfl
      | some old =>
        obtain ⟨q, hq, hlisted⟩ := h.listed (by rw [hentry]; rfl)
        rw [hquiet q hq] at hlisted
        cases hlisted
    unfold entryD
    rw [hnone, h.quiet hquiet]
    rfl
  | initializes htype _ _ _ => simp [Store.nextMembers, htype]
  | changes _ _ _ hsome => rw [hknown hsome]

/-- One more event keeps the history and the store together. -/
theorem Replayed.step (h : Replayed channel s l members) (hfounded : Founded channel (l ++ [e]))
    (hnew : ∀ q ∈ l, strv q "id" ≠ strv e "id") (hreduce : reduce e s = .ok ⟨⟩ t) :
    ∃ next, Replayed channel t (l ++ [e]) next := by
  have hid := reduce_required hreduce
  have ht := reduce_ok hreduce
  unfold reduce at hreduce
  rw [bind_unit_ok] at hreduce
  obtain ⟨u, hu, hreduce⟩ := hreduce
  rw [bind_unit_ok] at hreduce
  obtain ⟨v, hv, -⟩ := hreduce
  have hids : ∀ item ∈ e["data"]["channels"].items, strv item "id" ≠ "" :=
    forM_ok_mem (P := fun item => strv item "id" ≠ "")
      (fun item s t h => (reduceChannel_ok.mp h).1.2.2) hu
  rw [reduceChannels_ok hu] at hv
  have hlast : e ∈ l ++ [e] := List.mem_append_right _ (List.mem_singleton.mpr rfl)
  have hchannels : t.hasChannel channel = true → ∃ q ∈ l ++ [e], lists channel q = true := by
    intro hhas
    rw [ht] at hhas
    rcases hasChannel_listed hids hhas with hhas | hlists
    · obtain ⟨q, hq, hlists⟩ := h.channels hhas
      exact ⟨q, List.mem_append_left _ hq, hlists⟩
    · exact ⟨e, hlast, hlists⟩
  have hmemberships := @memberships_after channel e s.memberships
  have hrevisions := @revisions_after channel e s.membershipRevisions
  rw [← Store.reduced_memberships, ← ht] at hmemberships
  rw [← Store.reduced_membershipRevisions, ← ht] at hrevisions
  -- either the event alters the channel, and is read back as it was applied, or it is read past
  by_cases hmem : channel ∈ Store.membershipIds e
  · have halters := reduceMembership_alters hids hv hmem
    rw [if_pos hmem] at hmemberships hrevisions
    rw [h.alters_members hfounded halters] at hmemberships
    have hstep : Store.stepMembers channel members e = some (.ok (Store.nextMembers e members)) :=
      halters.step fun hlists => hfounded.last hlists
    have hlisted := h.alters_listed hids halters
    refine ⟨_, membersAfter_step h.after hstep, ?_, hchannels, fun _ => hlisted,
      fun _ => hmemberships, by rw [hmemberships, hrevisions]; rfl, ?_⟩
    · intro hquiet
      obtain ⟨q, hq, hlists⟩ := hlisted
      rw [hquiet q hq] at hlists
      cases hlists
    · intro r hr
      obtain rfl := Option.some.inj (hrevisions.symm.trans hr)
      refine membersUpTo_of_after h.after hstep (idx_eq_of_strv rfl hid) ?_
      intro q hq heq
      exact hnew q hq (strv_of_idx heq)
  · rw [if_neg hmem] at hmemberships hrevisions
    have hlisted : t.memberships[channel]?.isSome → ∃ q ∈ l ++ [e], lists channel q = true := by
      intro hsome
      rw [hmemberships] at hsome
      obtain ⟨q, hq, hlists⟩ := h.listed hsome
      exact ⟨q, List.mem_append_left _ hq, hlists⟩
    have hrevised : t.memberships[channel]?.isSome = t.membershipRevisions[channel]?.isSome := by
      rw [hmemberships, hrevisions]
      exact h.revised
    by_cases hlegacy : e["type"] = "channel.create" ∧ lists channel e = true
    · -- a channel created before memberships were kept has none yet, so that only the reading moves
      obtain ⟨htype, hlists⟩ := hlegacy
      have hnone : ¬ s.memberships[channel]?.isSome := by
        intro hsome
        obtain ⟨q, hq, hlisted⟩ := h.listed hsome
        rw [hfounded.first hlists q hq] at hlisted
        cases hlisted
      have hstep : Store.stepMembers channel members e
          = some (.ok (if strv e["actor"] "id" = "system" then members
              else members.insert (strv e["actor"] "id"))) :=
        stepMembers_create htype hlists (hfounded.last hlists)
      refine ⟨_, membersAfter_step h.after hstep, ?_, hchannels, hlisted, ?_, hrevised, ?_⟩
      · intro hquiet
        rw [hquiet e hlast] at hlists
        cases hlists
      · intro hsome
        rw [hmemberships] at hsome
        exact (hnone hsome).elim
      · intro r hr
        rw [hrevisions] at hr
        rw [h.revised, hr] at hnone
        exact (hnone rfl).elim
    · have hcreate : e["type"] = "channel.create" → lists channel e = false := by
        intro htype
        cases hlists : lists channel e with
        | false => rfl
        | true => exact (hlegacy ⟨htype, hlists⟩).elim
      have hstep : Store.stepMembers channel members e = none := stepMembers_none hv hmem hcreate
      refine ⟨members, membersAfter_snoc h.after hstep, ?_, hchannels, hlisted, ?_, hrevised, ?_⟩
      · exact fun hquiet => h.quiet fun q hq => hquiet q (List.mem_append_left _ hq)
      · rw [hmemberships]
        exact h.held
      · intro r hr
        rw [hrevisions] at hr
        exact membersUpTo_append (h.revision r hr)

/-- Nothing is known of a channel before the first event. -/
theorem replayed_fresh : Replayed channel s.fresh [] ∅ := by
  have hchannels : s.fresh.hasChannel channel = false := by
    refine Bool.eq_false_iff.mpr fun hhas => ?_
    obtain ⟨path, hpath⟩ := Store.hasChannel_iff.mp hhas
    have hnone : s.fresh.channels.byPath[path]? = none := Std.ExtTreeMap.getElem?_empty
    rw [hnone] at hpath
    cases hpath
  have hmembers : s.fresh.memberships[channel]? = none := Std.ExtTreeMap.getElem?_empty
  have hrevisions : s.fresh.membershipRevisions[channel]? = none := Std.ExtTreeMap.getElem?_empty
  refine ⟨rfl, fun _ => rfl, fun h => ?_, fun h => ?_, fun h => ?_, ?_, fun r h => ?_⟩
  · rw [hchannels] at h
    cases h
  · rw [hmembers] at h
    cases h
  · rw [hmembers] at h
    cases h
  · rw [hmembers, hrevisions]
    rfl
  · rw [hrevisions] at h
    cases h

/-- Every history that was reduced event by event tells what its fold holds. -/
theorem replayed_history {p : List Published} (hlawful : Lawful s.fresh p)
    (hdistinct : (p.map fun q => strv q.event "id").Nodup)
    (hfounded : Founded channel (p.map Published.event)) :
    ∃ members, Replayed channel (p.foldl Store.replayed s.fresh) (p.map Published.event) members := by
  induction p using List.reverseRecOn with
  | nil => exact ⟨∅, replayed_fresh⟩
  | append_singleton p q ih =>
    rw [List.map_append] at hdistinct hfounded
    obtain ⟨hearlier, -, hnew⟩ := List.nodup_append.mp hdistinct
    obtain ⟨members, hreplayed⟩ := ih hlawful.front hearlier hfounded.front
    obtain ⟨t, v, ht, hreduce⟩ := hlawful p q [] rfl
    have hids : ∀ e ∈ p.map Published.event, strv e "id" ≠ strv q.event "id" := by
      intro e he
      obtain ⟨r, hr, rfl⟩ := List.mem_map.mp he
      exact hnew _ (List.mem_map.mpr ⟨r, hr, rfl⟩) _ (List.mem_singleton.mpr rfl)
    obtain ⟨next, hnext⟩ := (hreplayed.of_kept ht).step hfounded hids hreduce
    have hpushed : Replayed channel (t.replayed q) (p.map Published.event ++ [q.event]) next := by
      rw [reduce_ok hreduce] at hnext
      exact hnext.of_same rfl rfl rfl
    refine ⟨next, ?_⟩
    rw [List.map_append, List.foldl_append]
    exact hpushed.of_kept (kept_replayed_of ht.symm)

/-! ## Opened stores -/

variable (huuid : MintsOnce)
  (hparse : ∀ v w, Externals.parse (Externals.compact v) = .ok w → w = v)

include huuid hparse

end

/-! ## A channel of a peer -/

section

local instance memberText : Externals := briefText

/-- The only channel of the sample. -/
def relayedChannel : String := (relayed.channels.byPath["general"]?).getD ""

/-- The revision of its members. -/
def relayedRevision : String := (relayed.membershipRevisions[relayedChannel]?).getD ""

theorem relayedRevision_held : relayed.membershipRevisions[relayedChannel]? = some relayedRevision := by
  decide +kernel

theorem relayed_founded : Founded relayedChannel (relayed.events.map Published.event) :=
  ⟨by decide +kernel, by decide +kernel⟩

end

end ClaudeManager
