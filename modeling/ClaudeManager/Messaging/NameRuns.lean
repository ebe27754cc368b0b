import ClaudeManager.Messaging.Calls
import ClaudeManager.Messaging.Unambiguous

/-!
# Names over whole runs

* `NameOp` — the calls that give, take and release names
* `Named.publish` — a published identity keeps the names unambiguous
* `names_unambiguous` — every run in which nobody takes back a key that another one holds
* `names_collide` — a run in which a released participant does
-/

namespace ClaudeManager

open Json Containers Program

section

variable [Externals] {s t : Store} {names : Map Name} {e : Value} {actor uid : String} {n : Name}

/-! ## Identities in events -/

omit [Externals] in
theorem mapM_asStr : ∀ l : List String, (l.map Value.str).mapM Value.asStr = some l
  | [] => rfl
  | a :: l => by
    rw [List.map_cons, List.mapM_cons, mapM_asStr l]
    rfl

omit [Externals] in
theorem asU64_num {r : Nat} (h : r < 2 ^ 64) : (Value.num r).asU64 = some r := by
  have h' : (0 : Int) ≤ r ∧ (r : Int) < 2 ^ 64 := ⟨Int.natCast_nonneg r, by exact_mod_cast h⟩
  unfold Value.asU64
  simp only [h', and_self, if_true, Int.toNat_natCast]

omit [Externals] in
theorem get?_identityOf (k : String) : (identityOf n actor).get? k =
    if k = "participant_id" then some (.str actor) else n.encode.get? k :=
  Value.get?_set isObj_object

omit [Externals] in
/-- An identity reads back. -/
theorem decode_identityOf (h : n.revision < 2 ^ 64) :
    Name.decode (identityOf n actor) = some n
      ∧ strv (identityOf n actor) "participant_id" = actor := by
  have hname : (identityOf n actor).get? "name" = some (.str n.name) := by
    rw [get?_identityOf]
    simp [Name.encode, get?_object, List.lookup]
  have hrevision : (identityOf n actor).get? "revision" = some (.num n.revision) := by
    rw [get?_identityOf]
    simp [Name.encode, get?_object, List.lookup]
  have hid : (identityOf n actor).get? "revision_id" = some (.str n.revisionId) := by
    rw [get?_identityOf]
    simp [Name.encode, get?_object, List.lookup]
  have haliases : (identityOf n actor).get? "aliases" = some (strings n.aliases) := by
    rw [get?_identityOf]
    simp [Name.encode, get?_object, List.lookup]
  have huid : (identityOf n actor).get? "session_uid" = some (.str n.sessionUid) := by
    rw [get?_identityOf]
    simp [Name.encode, get?_object, List.lookup]
  have hreleased : (identityOf n actor).get? "released" = some (.bool n.released) := by
    rw [get?_identityOf]
    simp [Name.encode, get?_object]
  constructor
  · unfold Name.decode
    refine Option.bind_eq_some_iff.mpr ⟨_, hname, Option.bind_eq_some_iff.mpr ⟨_, rfl, ?_⟩⟩
    refine Option.bind_eq_some_iff.mpr ⟨_, hrevision, Option.bind_eq_some_iff.mpr
      ⟨_, asU64_num h, ?_⟩⟩
    refine Option.bind_eq_some_iff.mpr ⟨_, congrArg (Decode.withDefault Value.asStr "") hid, ?_⟩
    refine Option.bind_eq_some_iff.mpr ⟨_, haliases, Option.bind_eq_some_iff.mpr
      ⟨_, mapM_asStr n.aliases, ?_⟩⟩
    refine Option.bind_eq_some_iff.mpr ⟨_, huid, Option.bind_eq_some_iff.mpr ⟨_, rfl, ?_⟩⟩
    exact Option.bind_eq_some_iff.mpr
      ⟨_, congrArg (Decode.withDefault Value.asBool false) hreleased, rfl⟩
  · unfold strv
    rw [get?_identityOf]
    rfl

/-- What a draft says of identities. -/
def Draft.identity (d : Draft) : Option Value :=
  if d.type = "identity.update" then d.data.get? "identity" else d.data.get? "identity_claim"

theorem identityField_eventOf {d : Draft} {id time created : String} :
    identityField (s.eventOf d id time created) = d.identity := by
  unfold identityField Draft.identity
  rw [eventOf_type, eventOf_data]
  by_cases h : d.type = "identity.update"
  · rw [if_pos h, if_pos (congrArg Value.str h)]
  · rw [if_neg h, if_neg (fun he => h (Value.str.inj he))]

/-- An event that says nothing of identities. -/
theorem Benign.of_none (h : Unambiguous names) (hidentity : identityField e = none)
    (hattest : e["data"]["identity_attestation"].asStr = none) : Benign names e := by
  have hnext : Store.nextNames names e = names := by
    unfold Store.nextNames Store.eventIdentity
    rw [hidentity]
    rfl
  refine ⟨by rwa [hnext], by rw [hnext]; exact Advances.refl, fun text a htext => ?_⟩
  rw [hattest] at htext
  cases htext

/-- An event whose identity is known. -/
theorem Benign.of_spent (h : Unambiguous names) (hspent : Spent names e)
    (hattest : e["data"]["identity_attestation"].asStr = none) : Benign names e := by
  have hnext := hspent.nextNames
  refine ⟨by rwa [hnext], by rw [hnext]; exact Advances.refl, fun text a htext => ?_⟩
  rw [hattest] at htext
  cases htext

omit [Externals] in
/-- An event that gives `actor` a newer name. -/
theorem nextNames_identityOf (hidentity : identityField e = some (identityOf n actor))
    (hbound : n.revision < 2 ^ 64) (hnewer : ∀ old : Name, names[actor]? = some old →
      old.revision < n.revision) :
    Store.nextNames names e = names.insert actor n
      ∧ Advances names (names.insert actor n) := by
  obtain ⟨hdecode, hactor⟩ := @decode_identityOf actor _ hbound
  obtain ⟨hadopt, hadvances⟩ := adoptName_newer hnewer
  refine ⟨?_, hadvances⟩
  unfold Store.nextNames Store.eventIdentity
  rw [hidentity, Option.bind_some, hdecode, Option.map_some, hactor]
  exact hadopt

theorem Allocated.newer (hn : Allocated s actor n) :
    n.revision < 2 ^ 64 ∧ ∀ old : Name, s.names[actor]? = some old → old.revision < n.revision := by
  obtain ⟨hbound, hnext⟩ := nextRevision_ok hn.revision
  exact ⟨hbound, fun old hold => by rw [hnext old hold]; omega⟩

theorem Benign.of_allocated (h : Unambiguous s.names) (hn : Allocated s actor n)
    (hback : ¬ Reclaims s.names (fun _ => True) actor)
    (hidentity : identityField e = some (identityOf n actor))
    (hattest : ∀ text a, e["data"]["identity_attestation"].asStr = some text →
      fromSlice text = .ok a → identityField a = some (identityOf n actor)
        ∧ a["data"]["identity_attestation"].asStr = none) : Benign s.names e := by
  obtain ⟨hbound, hnewer⟩ := hn.newer
  obtain ⟨hnext, hadvances⟩ := nextNames_identityOf hidentity hbound hnewer
  obtain ⟨hdecode, hactor⟩ := @decode_identityOf actor _ hbound
  rw [← hnext] at hadvances
  refine ⟨hnext ▸ h.allocated hn hback, hadvances, fun text a htext ha => ?_⟩
  obtain ⟨hfield, hnone⟩ := hattest text a htext ha
  refine ⟨fun b v hv => ?_, hnone⟩
  unfold Store.eventIdentity at hv
  rw [hfield, Option.bind_some, hdecode, Option.map_some, hactor] at hv
  obtain ⟨rfl, rfl⟩ := Prod.mk.inj (Option.some.inj hv)
  refine ⟨n, ?_, .inl rfl⟩
  rw [hnext, getElem?_insert_map, if_pos rfl]

/-! ## Publishing -/

/-- What does not touch the names keeps them. -/
theorem Named.of_naming (h : Named s) (ht : t.naming = s.naming) : Named t := by
  have hnames : t.names = s.names := congrArg Prod.fst ht
  have hevents : t.events = s.events := congrArg (·.2.1) ht
  refine ⟨hnames ▸ h.names, fun p hp text a htext ha => ?_⟩
  rw [hnames]
  exact h.attested p (hevents ▸ hp) text a htext ha

theorem event_ok {d : Draft} (h : event d s = .ok e t) :
    t.naming = s.naming ∧ ∃ (s1 : Store) (id time created : String),
      e = s1.eventOf d id time created := by
  unfold event at h
  rw [bind_query_ok] at h
  obtain ⟨time, -, h⟩ := h
  rw [bind_modify_ok, bind_uuid_ok, bind_now_ok, bind_get_ok] at h
  obtain ⟨rfl, rfl⟩ := pure_ok.mp h
  exact ⟨rfl, _, _, _, _, rfl⟩

theorem event_frame {d : Draft} : Evolves (Alike Store.naming) (event d) s := by
  unfold event
  exact .bind_query fun _ _ => .bind_modify rfl (.bind rfl fun _ _ _ => .bind rfl fun _ _ _ =>
    .bind_get .pure)

/-- A published event keeps the names unambiguous where it is benign. -/
theorem Named.publish (hs : Named s) {d : Draft} (hd : ∀ (s1 : Store) id time created,
    Benign s.names (s1.eventOf d id time created)) : Named (after (ClaudeManager.publish d) s) := by
  unfold ClaudeManager.publish
  refine Evolves.bind_keeps (I := fun u => u.naming = s.naming) ?_ (fun u hu => hs.of_naming hu)
    fun _ u hu => ?_
  · exact (Eq.symm (Evolves.onlyIf (R := Alike Store.naming) fun _ => .refl_of after_query))
  · unfold after
    rw [bind_eq]
    cases he : event d u with
    | ok e v =>
      obtain ⟨hv, s1, id, time, created, rfl⟩ := event_ok he
      have hnaming := hv.trans hu
      have hnames : v.names = s.names := congrArg Prod.fst hnaming
      exact ((hs.of_naming hnaming).commit (hnames ▸ hd s1 id time created)).1
    | error f v =>
      exact hs.of_naming ((Eq.symm (after_error he ▸ event_frame)).trans hu)

/-- What a published event leaves of the names and the requests. -/
theorem publish_ok {d : Draft} {v : Value} (h : publish d s = .ok v t) :
    ∃ (s1 : Store) (id time created : String), v = s1.eventOf d id time created
      ∧ t.names = Store.nextNames s.names v
      ∧ t.requests = s.requests.insert (Store.requestOf v) (Store.requestEntry v) := by
  unfold publish at h
  obtain ⟨u, hu, h⟩ := bind_unit_ok.mp h
  obtain ⟨e, w, he, h⟩ := bind_ok.mp h
  obtain ⟨hw, s1, id, time, created, rfl⟩ := event_ok he
  have hsame : u = s := by
    obtain ⟨hrun, hskip⟩ := onlyIf_ok.mp hu
    by_cases hc : ¬ localTypes.contains d.type
    · exact (query_ok.mp (hrun hc)).2.symm
    · exact (hskip hc).symm
  rw [hsame] at hw
  obtain ⟨rfl, -, hnames, hrequests⟩ := commit_ok h
  refine ⟨s1, id, time, created, rfl, ?_, ?_⟩
  · rw [hnames, show w.names = s.names from congrArg Prod.fst hw]
  · rw [hrequests, show w.requests = s.requests from congrArg (·.2.2) hw]

/-! ## Calls -/

theorem Evolves.named {α : Type} {m : Action α} (h : Evolves (Alike Store.naming) m s) :
    Evolves (Keeps Named) m s := fun hs => hs.of_naming (Eq.symm h)

/-- A draft that says nothing of identities. -/
theorem Benign.of_draft {d : Draft} (h : Unambiguous names) (hidentity : d.identity = none)
    (hattest : d.data["identity_attestation"].asStr = none) (s1 : Store) (id time created : String) :
    Benign names (s1.eventOf d id time created) :=
  .of_none h (identityField_eventOf.trans hidentity) (by rwa [eventOf_data])

theorem enrollParticipant_named : Evolves (Keeps Named) (enrollParticipant actor) s := by
  unfold enrollParticipant
  refine .bind_get (.onlyIf fun _ => .bind_query fun _ _ => .bind (fun hs => hs.publish ?_)
    fun _ _ _ => .pure)
  refine .of_draft hs.names ?_ ?_
  · simp [Draft.identity, systemDraft, get?_object, List.lookup]
  · simp [systemDraft, idx_object, List.lookup]

theorem allocate_frame {raw : String} :
    Evolves (Alike Store.naming) (allocate actor raw uid) s := by
  unfold allocate
  exact .bind_query fun _ _ => .bind_query fun _ _ => .bind_get (.bind_check fun _ _ =>
    .bind rfl fun _ _ _ => .pure)

/-- A draft that gives `actor` an identity. -/
theorem Benign.of_claim {d : Draft} (h : Unambiguous s.names) (hn : Allocated s actor n)
    (hback : ¬ Reclaims s.names (fun _ => True) actor)
    (hidentity : d.identity = some (identityOf n actor))
    (hattest : d.data["identity_attestation"].asStr = none) (s1 : Store) (id time created : String) :
    Benign s.names (s1.eventOf d id time created) := by
  refine .of_allocated h hn hback (identityField_eventOf.trans hidentity) fun text a htext => ?_
  rw [eventOf_data, hattest] at htext
  cases htext

theorem rename_named (hu : UnicodeTables) {p : Value}
    (hclear : ∀ r, s.request (initiatorOf actor p) p "identity.update" = .ok r → r.prior = none →
      ¬ Reclaims s.names (fun _ => True) actor) :
    Evolves (Keeps Named) (rename actor uid p) s := by
  unfold rename
  refine .bind_query fun request hrequest => ?_
  split
  · exact .pure
  · rename_i hprior
    refine .bind_query fun first _ => .bind_check fun name _ =>
      .bind (Evolves.named allocate_frame) fun n t hn ht => ht.publish ?_
    obtain ⟨hallocated, rfl⟩ := allocate_ok hu hn
    refine .of_claim (s := s) ht.names hallocated (hclear request hrequest hprior) ?_ ?_
    · simp [Draft.identity, get?_object]
    · simp [idx_object, List.lookup]

/-! ### Scheduler names -/

theorem eventOf_request {d : Draft} {id time created : String} :
    Store.requestOf (s.eventOf d id time created) = requestKey d.actor d.key := by
  have hactor : (s.eventOf d id time created)["actor"] =
      object [("id", d.actor), ("name", d.name), ("kind", d.kind)] := by
    rw [Store.eventOf, idx_object]
    simp [List.lookup]
  have hrequest : strv (s.eventOf d id time created)["request"] "key" = d.key := by
    rw [Store.eventOf, idx_object]
    simp [List.lookup, strv, get?_object]
  unfold Store.requestOf
  rw [hactor, hrequest]
  simp [strv, get?_object, List.lookup]

omit [Externals] in
theorem requestKey_inj {a k k' : String} (h : requestKey a k = requestKey a k') : k = k' := by
  have hl := congrArg String.toList h
  simp only [requestKey, String.toList_append] at hl
  exact String.toList_injective (List.append_cancel_left hl)

/-- `prior` gives up the name whose key is `target`, in a call that names it once. -/
def Yields (s : Store) (actor target : String) (release : List String) (key prior : String) : Prop :=
  prior ∈ release ∧ prior ≠ actor ∧ (∃ n, s.names[prior]? = some n ∧ target ∈ n.keys)
    ∧ s.requests[requestKey "system" (releaseKey key prior)]? = none
    ∧ ∀ other ∈ release, other ≠ prior → releaseKey key other ≠ releaseKey key prior

/-- Everyone has the keys it had, and stays released. -/
def Fades (names names' : Map Name) : Prop :=
  ∀ (other : String) (n' : Name), names'[other]? = some n' → ∃ n : Name, names[other]? = some n
    ∧ n.keys = n'.keys ∧ (n.released = true → n'.released = true)

/-- One prior holder's turn: it stays as it is, or is released. -/
structure Turn (actor prior rkey : String) (s t : Store) : Prop where
  fades : Fades s.names t.names
  actor : t.names[actor]? = s.names[actor]?
  others : ∀ a, a ≠ prior → t.names[a]? = s.names[a]?
  requests : ∀ k, k ≠ rkey → t.requests[k]? = s.requests[k]?
  released : ∀ n, s.names[prior]? = some n → n.released = true →
    ∃ n' : Name, t.names[prior]? = some n' ∧ n'.released = true

theorem Turn.refl {prior rkey : String} : Turn actor prior rkey s s :=
  ⟨fun _ n h => ⟨n, h, rfl, id⟩, rfl, fun _ _ => rfl, fun _ _ => rfl, fun n hn hr => ⟨n, hn, hr⟩⟩

/-- The identity of a released participant. -/
theorem release_event {old : Name} {prior key body : String} {revision : Nat} {revisionId : String}
    (hold : s.names[prior]? = some old) (hrevision : nextRevision (some old) = .ok revision)
    (s1 : Store) (id time created : String) :
    Store.nextNames s.names (s1.eventOf (systemDraft "identity.update" body
      (object [("identity", identityOf { old with released := true, revision, revisionId } prior),
        ("record_kind", "release")]) (releaseKey key prior)) id time created)
      = s.names.insert prior { old with released := true, revision, revisionId }
    ∧ Advances s.names (s.names.insert prior { old with released := true, revision, revisionId }) := by
  obtain ⟨hbound, hnext⟩ := nextRevision_ok hrevision
  refine nextNames_identityOf ?_ hbound fun o ho => ?_
  · rw [identityField_eventOf]
    simp [Draft.identity, systemDraft, get?_object, List.lookup]
  · rw [hold] at ho
    obtain rfl := Option.some.inj ho
    show _ < revision
    rw [hnext old rfl]
    exact Nat.lt_succ_self _

theorem releaseName_named {target key prior : String} :
    Evolves (Keeps Named) (releaseName actor target key prior) s := by
  unfold releaseName
  refine .bind_get ?_
  split
  · exact .pure
  · rename_i old hold
    refine .onlyIf fun _ => .bind_check fun revision hrevision => .bind (Evolves.named rfl)
      fun revisionId t ht => .bind (fun hs => hs.publish fun s1 id time created => ?_) fun _ _ _ => .pure
    have hnames : t.names = s.names := by
      obtain rfl := (EStateM.Result.ok.inj ht).2
      rfl
    have hold' : t.names[prior]? = some old := by rwa [hnames]
    obtain ⟨hnext, hadvances⟩ := @release_event _ _ _ _ key
      (old.name ++ " released the name " ++ old.name) _ revisionId hold' hrevision s1 id time created
    rw [← hnext] at hadvances
    refine ⟨?_, hadvances, fun text a htext => ?_⟩
    · rw [hnext]
      exact hs.names.release hold' rfl ⟨rfl, rfl⟩
    · rw [eventOf_data] at htext
      simp [systemDraft, idx_object, List.lookup] at htext

theorem releaseName_ok {target key prior : String}
    (h : releaseName actor target key prior s = .ok ⟨⟩ t) :
    Turn actor prior (requestKey "system" (releaseKey key prior)) s t
      ∧ ((∃ n, s.names[prior]? = some n ∧ target ∈ n.keys) → prior ≠ actor →
        s.requests[requestKey "system" (releaseKey key prior)]? = none →
        ∃ n : Name, t.names[prior]? = some n ∧ n.released = true) := by
  unfold releaseName at h
  rw [bind_get_ok] at h
  cases hold : s.names[prior]? with
  | none =>
    rw [hold] at h
    obtain ⟨-, rfl⟩ := pure_ok.mp h
    exact ⟨.refl, fun ⟨n, hn, _⟩ => nomatch hn⟩
  | some old =>
    rw [hold] at h
    obtain ⟨hrun, hskip⟩ := onlyIf_ok.mp h
    by_cases hc : prior ≠ actor ∧ ¬ old.released ∧ old.keys.contains target
        ∧ (s.priorSystemEvent (releaseKey key prior)).isNone
    · have hrun := hrun hc
      rw [bind_check_ok] at hrun
      obtain ⟨revision, hrevision, hrun⟩ := hrun
      rw [bind_uuid_ok] at hrun
      obtain ⟨v, u, hpublish, hrun⟩ := bind_ok.mp hrun
      obtain ⟨-, rfl⟩ := pure_ok.mp hrun
      obtain ⟨s1, id, time, created, rfl, hnames, hrequests⟩ := publish_ok hpublish
      have hnames := hnames.trans (release_event hold hrevision s1 id time created).1
      rw [eventOf_request] at hrequests
      have hself : ∃ n : Name, u.names[prior]? = some n ∧ n.released = true := by
        rw [hnames, getElem?_insert_map, if_pos rfl]
        exact ⟨_, rfl, rfl⟩
      refine ⟨⟨fun a n hn => ?_, ?_, fun a ha => ?_, fun k hk => ?_, fun _ _ _ => hself⟩,
        fun _ _ _ => hself⟩
      · rw [hnames, getElem?_insert_map] at hn
        split at hn
        · rename_i ha
          obtain rfl := Option.some.inj hn
          exact ⟨old, ha ▸ hold, rfl, fun _ => rfl⟩
        · exact ⟨n, hn, rfl, fun hr => hr⟩
      · rw [hnames, getElem?_insert_map, if_neg (fun he => hc.1 he.symm)]
      · rw [hnames, getElem?_insert_map, if_neg ha]
      · rw [hrequests, getElem?_insert_map]
        exact if_neg hk
    · obtain rfl := hskip hc
      refine ⟨.refl, fun ⟨n, hn, hkey⟩ hne hnone => ?_⟩
      obtain rfl := Option.some.inj hn
      cases hreleased : old.released with
      | true => exact ⟨old, hold, hreleased⟩
      | false =>
        refine absurd ⟨hne, by simp [hreleased], by simpa using hkey, ?_⟩ hc
        unfold Store.priorSystemEvent
        rw [hnone]
        rfl

/-- The turns of the prior holders: whoever yields is released in the end. -/
theorem releaseNames_ok {target key : String} : ∀ {release : List String} {s : Store},
    release.forM (releaseName actor target key) s = .ok ⟨⟩ t →
    Fades s.names t.names ∧ t.names[actor]? = s.names[actor]?
      ∧ (∀ (n : Name) (a : String), s.names[a]? = some n → n.released = true →
        ∃ n' : Name, t.names[a]? = some n' ∧ n'.released = true)
      ∧ ∀ prior, Yields s actor target release key prior →
        ∃ n : Name, t.names[prior]? = some n ∧ n.released = true
  | [], s, h => by
    obtain ⟨-, rfl⟩ := pure_ok.mp h
    exact ⟨fun _ n hn => ⟨n, hn, rfl, id⟩, rfl, fun n a hn hr => ⟨n, hn, hr⟩,
      fun prior hy => nomatch hy.1⟩
  | first :: rest, s, h => by
    rw [List.forM_eq_forM, List.forM_cons, bind_unit_ok] at h
    obtain ⟨u, hfirst, hrest⟩ := h
    obtain ⟨hturn, hyield⟩ := releaseName_ok hfirst
    obtain ⟨hfades, hactor, hstays, hrests⟩ := releaseNames_ok hrest
    have hkeep : ∀ (n : Name) (a : String), s.names[a]? = some n → n.released = true →
        ∃ n' : Name, u.names[a]? = some n' ∧ n'.released = true := by
      intro n a hn hr
      by_cases ha : a = first
      · exact ha ▸ hturn.released n (ha ▸ hn) hr
      · exact ⟨n, (hturn.others a ha).trans hn, hr⟩
    refine ⟨fun a n hn => ?_, hactor.trans hturn.actor, fun n a hn hr => ?_, fun prior hy => ?_⟩
    · obtain ⟨m, hm, hkeys, hr⟩ := hfades a n hn
      obtain ⟨m', hm', hkeys', hr'⟩ := hturn.fades a m hm
      exact ⟨m', hm', hkeys'.trans hkeys, fun h => hr (hr' h)⟩
    · obtain ⟨m, hm, hr⟩ := hkeep n a hn hr
      exact hstays m a hm hr
    · obtain ⟨hmem, hne, ⟨n, hn, hkey⟩, hnone, honce⟩ := hy
      by_cases hp : prior = first
      · subst hp
        obtain ⟨m, hm, hr⟩ := hyield ⟨n, hn, hkey⟩ hne hnone
        exact hstays m prior hm hr
      · refine hrests prior ⟨(List.mem_cons.mp hmem).resolve_left hp, hne,
          ⟨n, (hturn.others prior hp).trans hn, hkey⟩, ?_,
          fun other ho => honce other (List.mem_cons_of_mem first ho)⟩
        rw [hturn.requests _ (fun he => honce first List.mem_cons_self (fun h => hp h.symm)
          (requestKey_inj he).symm), hnone]

/-- A name that a released participant takes back is free once its holders have yielded. -/
theorem reclaims_of_released {target key : String} {release : List String}
    (h : release.forM (releaseName actor target key) s = .ok ⟨⟩ t)
    (hclear : ¬ Reclaims s.names (fun other => ¬ Yields s actor target release key other) actor) :
    ¬ Reclaims t.names (fun _ => True) actor := by
  obtain ⟨hfades, hactor, -, hyields⟩ := releaseNames_ok h
  rintro ⟨old, other, n, hold, hreleased, hne, -, hn, hlive, k, hk, hkn⟩
  obtain ⟨m, hm, hkeys, hstays⟩ := hfades other n hn
  have hnot : ¬ Yields s actor target release key other := by
    intro hy
    obtain ⟨n', hn', hr⟩ := hyields other hy
    have he : n = n' := Option.some.inj (hn.symm.trans hn')
    rw [← he, hlive] at hr
    cases hr
  have hm_live : m.released = false := by
    refine Bool.eq_false_iff.mpr fun hr => ?_
    have := hstays hr
    rw [hlive] at this
    cases this
  exact hclear ⟨old, other, m, hactor.symm.trans hold, hreleased, hne, hnot, hm, hm_live, k, hk,
    by rw [hkeys]; exact hkn⟩

theorem assignTaskName_named (hu : UnicodeTables) {name key : String} {release : List String}
    (hclear : s.priorSystemEvent key = none →
      ¬ Reclaims s.names (fun other => ¬ Yields s actor (nameKey name) release key other) actor) :
    Evolves (Keeps Named) (assignTaskName actor uid name release key) s := by
  unfold assignTaskName
  refine .bind_get (.ite (fun _ => .pure) fun _ => ?_)
  split
  · exact .pure
  · rename_i hprior
    refine .bind_query fun _ _ => .bind (.forM (fun _ _ _ => releaseName_named) _) fun _ t ht => ?_
    refine .bind (Evolves.named allocate_frame) fun n u hn => .bind (fun hs => hs.publish ?_)
      fun _ _ _ => .pure
    obtain ⟨hallocated, rfl⟩ := allocate_ok hu hn
    refine .of_claim (s := t) hs.names hallocated (reclaims_of_released ht (hclear hprior)) ?_ ?_
    · simp [Draft.identity, systemDraft, get?_object, List.lookup]
    · simp [systemDraft, idx_object, List.lookup]

/-! ### Messages -/

theorem claimName_ok (hu : UnicodeTables) {p : Value} {o : Option Name}
    (h : claimName actor uid p s = .ok o t) :
    t.naming = s.naming ∧ ∀ n, o = some n → Allocated s actor n ∧ s.names[actor]? = none := by
  unfold claimName at h
  rw [bind_get_ok] at h
  split at h
  · obtain ⟨rfl, rfl⟩ := pure_ok.mp h
    exact ⟨rfl, fun n hn => nomatch hn⟩
  · rename_i hnew
    rw [bind_check_ok] at h
    obtain ⟨name, -, h⟩ := h
    obtain ⟨n, u, hn, h⟩ := bind_ok.mp h
    obtain ⟨rfl, rfl⟩ := pure_ok.mp h
    obtain ⟨hallocated, rfl⟩ := allocate_ok hu hn
    refine ⟨rfl, fun m hm => Option.some.inj hm ▸ ⟨hallocated, ?_⟩⟩
    rw [← Option.not_isSome_iff_eq_none]
    exact fun hsome => hnew (.inr (Std.ExtTreeMap.contains_eq_isSome_getElem?.trans hsome))

theorem claimName_frame {p : Value} : Evolves (Alike Store.naming) (claimName actor uid p) s := by
  unfold claimName
  exact .bind_get (.ite (fun _ => .pure) fun _ => .bind_check fun _ _ => .bind allocate_frame
    fun _ _ _ => .pure)

theorem resolve_frame {p : Value} {people : List Person} {createDm : Bool} :
    Evolves (Alike Store.naming) (resolve actor p people createDm) s := by
  unfold resolve
  refine .bind_query fun r _ => ?_
  split
  · exact .pure
  · exact .ite (fun _ => .bind rfl fun _ _ _ => .pure) fun _ => .pure

theorem compose_named {body : String} {p : Value} {people : List Person} :
    Evolves (Keeps Named) (compose actor uid body p people) s := by
  unfold compose
  refine .bind (Evolves.named resolve_frame) fun r _ _ => ?_
  exact .bind_get (.bind (.onlyIf fun _ => .refl_of after_query) fun _ _ _ => .bind_check fun _ _ =>
    .bind enrollParticipant_named fun _ _ _ => .bind_query fun _ _ => .bind_get (.bind_check fun _ _ =>
      .bind_check fun _ _ => .bind_refuse fun _ => .bind_check fun _ _ =>
        .bind (Evolves.named claimName_frame) fun _ _ _ => .bind_refuse fun _ => .pure))

theorem compose_ok (hu : UnicodeTables) {body : String} {p : Value} {people : List Person} {m : Message}
    (h : compose actor uid body p people s = .ok m t) : ∀ n, m.chosen = some n →
    ∃ u : Store, t.naming = u.naming ∧ Allocated u actor n ∧ u.names[actor]? = none := by
  unfold compose at h
  obtain ⟨r, u1, -, h⟩ := bind_ok.mp h
  rw [bind_get_ok] at h
  obtain ⟨u2, -, h⟩ := bind_unit_ok.mp h
  rw [bind_check_ok] at h
  obtain ⟨_, -, h⟩ := h
  obtain ⟨u3, -, h⟩ := bind_unit_ok.mp h
  rw [bind_query_ok] at h
  obtain ⟨_, -, h⟩ := h
  rw [bind_get_ok, bind_check_ok] at h
  obtain ⟨root, -, h⟩ := h
  rw [bind_check_ok] at h
  obtain ⟨plan, -, h⟩ := h
  rw [bind_refuse_ok, bind_check_ok] at h
  obtain ⟨-, _, -, h⟩ := h
  obtain ⟨chosen, u4, hchosen, h⟩ := bind_ok.mp h
  rw [bind_refuse_ok] at h
  obtain ⟨-, h⟩ := h
  obtain ⟨rfl, rfl⟩ := pure_ok.mp h
  obtain ⟨hnaming, hname⟩ := claimName_ok hu hchosen
  exact fun n hn => ⟨u3, hnaming, hname n hn⟩

/-- The claim of a message that brings a name, and what it attests. -/
structure Claims (actor : String) (n : Name) (data : Value) : Prop where
  claim : data.get? "identity_claim" = some (identityOf n actor)
  attested : ∃ a, data["identity_attestation"] = .str (Externals.compact a)
    ∧ identityField a = some (identityOf n actor) ∧ a["data"]["identity_attestation"].asStr = none

/-- What a message's data says of identities. -/
def Says (actor : String) (data : Value) : Option Name → Prop
  | none => data.get? "identity_claim" = none ∧ data["identity_attestation"].asStr = none
  | some n => Claims actor n data

/-- Data that says nothing of identities, with another member. -/
theorem says_set {data v : Value} {k : String} (h : data.isObj = true ∧ Says actor data none)
    (hclaim : "identity_claim" ≠ k) (hattest : "identity_attestation" ≠ k) :
    (data.set k v).isObj = true ∧ Says actor (data.set k v) none := by
  obtain ⟨hobj, hc, ha⟩ := h
  refine ⟨Value.isObj_set hobj, ?_, ?_⟩
  · rw [Value.get?_set hobj, if_neg hclaim, hc]
  · rw [Value.getElem_eq, Value.idx] at ha ⊢
    rwa [Value.get?_set hobj, if_neg hattest]

theorem messageData_says {m : Message} {attribution : Option Value} :
    (s.messageData actor m attribution).isObj = true
      ∧ Says actor (s.messageData actor m attribution) none := by
  unfold Store.messageData
  extract_lets seen data data'
  have hdata : data.isObj = true ∧ Says actor data none := by
    refine ⟨isObj_object, ?_, ?_⟩
    · simp [data, get?_object, List.lookup]
    · simp [data, idx_object, List.lookup]
  have hdata' : data'.isObj = true ∧ Says actor data' none := by
    cases attribution with
    | none => exact hdata
    | some claim => exact says_set hdata (by decide) (by decide)
  cases m.create with
  | none => exact hdata'
  | some members => exact says_set hdata' (by decide) (by decide)

theorem claimedData_ok {name : String} {data data' : Value} {chosen : Option Name}
    (hdata : data.isObj = true ∧ Says actor data none)
    (h : claimedData actor name data chosen s = .ok data' t) :
    t.naming = s.naming ∧ Says actor data' chosen := by
  cases chosen with
  | none =>
    obtain ⟨rfl, rfl⟩ := pure_ok.mp h
    exact ⟨rfl, hdata.2⟩
  | some n =>
    unfold claimedData at h
    simp only at h
    rw [bind_uuid_ok] at h
    obtain ⟨a, u, ha, h⟩ := bind_ok.mp h
    obtain ⟨rfl, rfl⟩ := pure_ok.mp h
    obtain ⟨hu, s1, id, time, created, rfl⟩ := event_ok ha
    refine ⟨hu, ?_, s1.eventOf (attestationDraft name (identityOf n actor)
      (Externals.uuid s.daemonId s.minted)) id time created, ?_, ?_, ?_⟩
    · rw [Value.get?_set (Value.isObj_set hdata.1), if_neg (by decide), Value.get?_set hdata.1,
        if_pos rfl]
    · rw [Value.getElem_eq, Value.idx, Value.get?_set (Value.isObj_set hdata.1), if_pos rfl]
      rfl
    · rw [identityField_eventOf]
      simp [Draft.identity, attestationDraft, systemDraft, get?_object]
    · rw [eventOf_data]
      simp [attestationDraft, systemDraft, idx_object, List.lookup]

/-- Dropping the evidence leaves what a message says of identities. -/
theorem fitAttribution_says {attribution : Option Value} {chosen : Option Name}
    (hobj : e.isObj = true) (htype : e["type"] ≠ "identity.update") (h : Says actor e["data"] chosen) :
    (fitAttribution attribution e)["type"] ≠ "identity.update"
      ∧ Says actor (fitAttribution attribution e)["data"] chosen := by
  unfold fitAttribution
  split
  · have hdata : (e.set "data" (e["data"].erase "actor_attribution"))["data"] =
        e["data"].erase "actor_attribution" := by
      rw [Value.getElem_eq, Value.idx, Value.get?_set hobj, if_pos rfl]
      rfl
    have hkeep : ∀ k, k ≠ "actor_attribution" →
        (e["data"].erase "actor_attribution").get? k = e["data"].get? k := fun k hk => get?_erase hk
    refine ⟨?_, ?_⟩
    · rw [Value.getElem_eq, Value.idx, Value.get?_set hobj, if_neg (by decide)]
      exact htype
    · rw [hdata]
      cases chosen with
      | none =>
        refine ⟨(hkeep _ (by decide)).trans h.1, ?_⟩
        rw [Value.getElem_eq, Value.idx, hkeep _ (by decide)]
        exact h.2
      | some n =>
        obtain ⟨hclaim, a, ha, hfield, hnone⟩ := h
        refine ⟨(hkeep _ (by decide)).trans hclaim, a, ?_, hfield, hnone⟩
        rw [Value.getElem_eq, Value.idx, hkeep _ (by decide)]
        exact ha
  · exact ⟨htype, h⟩

theorem messageEvent_ok {kind : String} {request : Request} {m : Message}
    {attribution : Option Value} (h : messageEvent actor kind request m attribution s = .ok e t) :
    t.naming = s.naming ∧ e["type"] ≠ "identity.update" ∧ Says actor e["data"] m.chosen := by
  unfold messageEvent at h
  rw [bind_get_ok] at h
  obtain ⟨data, u, hdata, h⟩ := bind_ok.mp h
  obtain ⟨hu, hclaims'⟩ := claimedData_ok messageData_says hdata
  obtain ⟨e', w, he, h⟩ := bind_ok.mp h
  obtain ⟨rfl, rfl⟩ := pure_ok.mp h
  obtain ⟨hw, s1, id, time, created, rfl⟩ := event_ok he
  refine ⟨hw.trans hu, fitAttribution_says rfl ?_ ?_⟩
  · rw [eventOf_type]
    simp
  · rw [eventOf_data]
    exact hclaims'

theorem messageEvent_frame {kind : String} {request : Request} {m : Message}
    {attribution : Option Value} :
    Evolves (Alike Store.naming) (messageEvent actor kind request m attribution) s := by
  unfold messageEvent
  refine .bind_get (.bind ?_ fun _ _ _ => .bind event_frame fun _ _ _ => .pure)
  unfold claimedData
  split
  · exact .pure
  · exact .bind rfl fun _ _ _ => .bind event_frame fun _ _ _ => .pure

/-- A message keeps the names unambiguous, with the name that it claims. -/
theorem Benign.of_message {chosen : Option Name} (h : Unambiguous s.names)
    (hparse : ∀ v w, Externals.parse (Externals.compact v) = .ok w → w = v)
    (htype : e["type"] ≠ "identity.update") (hclaims' : Says actor e["data"] chosen)
    (hchosen : ∀ n, chosen = some n → Allocated s actor n ∧ s.names[actor]? = none) :
    Benign s.names e := by
  have hfield : identityField e = e["data"].get? "identity_claim" := by
    unfold identityField
    exact if_neg htype
  cases chosen with
  | none => exact .of_none h (hfield.trans hclaims'.1) hclaims'.2
  | some n =>
    obtain ⟨hallocated, hnew⟩ := hchosen n rfl
    obtain ⟨hclaim, a, ha, hclaims, hnone⟩ := hclaims'
    refine .of_allocated h hallocated (fun ⟨old, _, _, hold, _⟩ => ?_) (hfield.trans hclaim)
      fun text b htext hb => ?_
    · rw [hnew] at hold
      cases hold
    · rw [ha, Value.asStr_str] at htext
      obtain rfl := Option.some.inj htext
      have hb' : b = a := by
        unfold fromSlice at hb
        split at hb
        · rename_i v hv
          rw [← Except.ok.inj hb]
          exact hparse a v hv
        · cases hb
      rw [hb']
      exact ⟨hclaims, hnone⟩

theorem repairAttestation_named {missing : List Value} {event : Value} (hmem : event ∈ missing)
    {s : Store} : Evolves (Keeps fun t => Named t ∧ ∀ a ∈ missing, Spent t.names a
      ∧ a["data"]["identity_attestation"].asStr = none) (repairAttestation event) s := by
  unfold repairAttestation
  refine .bind_get (.onlyIf fun _ => .bind (fun ⟨hs, hspent⟩ => ?_) fun _ _ _ => .pure)
  obtain ⟨hspent', hnone⟩ := hspent event hmem
  obtain ⟨ht, hadvances⟩ := hs.commit (.of_spent hs.names hspent' hnone)
  exact ⟨ht, fun a ha => ⟨(hspent a ha).1.advance hadvances, (hspent a ha).2⟩⟩

theorem repairAttestations_named : Evolves (Keeps Named) repairAttestations s := by
  refine .assuming fun hs => ?_
  unfold repairAttestations
  refine .bind_query fun missing hmissing => ?_
  have hspent : ∀ a ∈ missing, Spent s.names a ∧ a["data"]["identity_attestation"].asStr = none := by
    intro a ha
    obtain ⟨text, htext, hread⟩ := mapM_mem hmissing a ha
    obtain ⟨p, hp, htext⟩ := List.mem_filterMap.mp htext
    exact hs.attested p hp text a htext hread
  have hloop := Evolves.forM (R := Keeps fun t => Named t ∧ ∀ a ∈ missing, Spent t.names a
    ∧ a["data"]["identity_attestation"].asStr = none) (l := missing) (f := repairAttestation)
    (fun event hmem s => repairAttestation_named hmem) s
  exact fun hs => (hloop ⟨hs, hspent⟩).1

theorem sendWithAttribution_named (hu : UnicodeTables)
    (hparse : ∀ v w, Externals.parse (Externals.compact v) = .ok w → w = v) {kind : String}
    {p : Value} {people : List Person} {attribution : Option Value} :
    Evolves (Keeps Named) (sendWithAttribution actor uid kind p people attribution) s := by
  unfold sendWithAttribution
  refine .bind_query fun request _ => ?_
  split
  · exact .pure
  · refine .bind_get (.bind_refuse fun _ => .bind_check fun body _ =>
      .bind compose_named fun m t hm => .bind (Evolves.named messageEvent_frame) fun e w he =>
        .bind (fun hs => ?_) fun _ _ _ => .bind (.tryCatch repairAttestations_named fun _ _ _ => .pure)
          fun _ _ _ => .pure)
    obtain ⟨hw, htype, hclaims'⟩ := messageEvent_ok he
    have hbenign : Benign w.names e := by
      cases hchosen : m.chosen with
      | none =>
        rw [hchosen] at hclaims'
        exact .of_message hs.names hparse htype hclaims' fun n hn => nomatch hn
      | some n =>
        obtain ⟨u, hu, hallocated⟩ := compose_ok hu hm n hchosen
        have hnames : w.names = u.names := congrArg Prod.fst (hw.trans hu)
        rw [hnames]
        rw [hchosen] at hclaims'
        exact .of_message (hnames ▸ hs.names) hparse htype hclaims' fun _ hm =>
          Option.some.inj hm ▸ hallocated
    exact (hs.commit hbenign).1

/-! ### Bindings and startup -/

theorem bindTaskSubscription_frame {next : TaskBinding} :
    Evolves (Alike Store.naming) (bindTaskSubscription next) s := by
  unfold bindTaskSubscription
  exact .bind_get (.bind_check fun _ _ => .bind_refuse fun _ => .bind_refuse fun _ =>
    .onlyIf fun _ => .bind_query fun _ _ => .bind_query fun _ _ => .of_modify rfl)

omit [Externals] in
theorem fenceTaskSubscriptions_frame {active : StrSet} :
    Evolves (Alike Store.naming) (fenceTaskSubscriptions active) s := .of_modify rfl

/-- Every name is spelled with dashes from the start: normalization has nothing to do. -/
theorem normalizeExistingNames_named : Evolves (Keeps Named) normalizeExistingNames s := by
  refine .assuming fun hs => ?_
  unfold normalizeExistingNames
  refine .bind_get ?_
  have hnone : s.names.toList.filter (fun e => dashedName e.2.name ≠ e.2.name) = [] := by
    refine List.filter_eq_nil_iff.mpr fun e he => ?_
    have hspelled := hs.names.spelled e.1 e.2 (mem_toList_map.mp he) e.2.name List.mem_cons_self
    simp [hspelled.dashed]
  rw [hnone]
  exact .pure

/-! ## Runs -/

/-- The calls that give, take and release names. -/
inductive NameOp where
  | send (actor uid kind : String) (p : Value) (people : List Person) (attribution : Option Value)
  | rename (actor uid : String) (p : Value)
  | assignTaskName (actor uid name : String) (release : List String) (key : String)
  | bindTaskSubscription (next : TaskBinding)
  | fenceTaskSubscriptions (active : StrSet)
  | normalizeExistingNames

namespace NameOp

/-- What a call leaves, whether it succeeds or fails. -/
def step (s : Store) : NameOp → Store
  | send actor uid kind p people attribution =>
    after (sendWithAttribution actor uid kind p people attribution) s
  | rename actor uid p => after (ClaudeManager.rename actor uid p) s
  | assignTaskName actor uid name release key =>
    after (ClaudeManager.assignTaskName actor uid name release key) s
  | bindTaskSubscription next => after (ClaudeManager.bindTaskSubscription next) s
  | fenceTaskSubscriptions active => after (ClaudeManager.fenceTaskSubscriptions active) s
  | normalizeExistingNames => after ClaudeManager.normalizeExistingNames s

/-- Nobody that was released takes a new name while another participant holds a key of its old
ones. An assignment first releases those that yield. -/
def Clear (s : Store) : NameOp → Prop
  | rename actor _ p => ∀ r, s.request (initiatorOf actor p) p "identity.update" = .ok r →
    r.prior = none → ¬ Reclaims s.names (fun _ => True) actor
  | assignTaskName actor _ name release key => s.priorSystemEvent key = none →
    ¬ Reclaims s.names (fun other => ¬ Yields s actor (nameKey name) release key other) actor
  | _ => True

end NameOp

theorem Named.step (hu : UnicodeTables)
    (hparse : ∀ v w, Externals.parse (Externals.compact v) = .ok w → w = v) (hs : Named s)
    {op : NameOp} (hclear : NameOp.Clear s op) : Named (NameOp.step s op) := by
  cases op with
  | send => exact sendWithAttribution_named hu hparse hs
  | rename => exact rename_named hu hclear hs
  | assignTaskName => exact assignTaskName_named hu hclear hs
  | bindTaskSubscription => exact Evolves.named bindTaskSubscription_frame hs
  | fenceTaskSubscriptions => exact Evolves.named fenceTaskSubscriptions_frame hs
  | normalizeExistingNames => exact normalizeExistingNames_named hs

omit [Externals] in
theorem mem_holdersBy {spelling : String → String} {ref : String} {h : String × Name} :
    h ∈ s.holdersBy spelling ref ↔ s.names[h.1]? = some h.2
      ∧ ∃ a ∈ h.2.name :: h.2.aliases, spelling a = spelling ref := by
  unfold Store.holdersBy
  rw [List.mem_filter, mem_toList_map, List.any_eq_true]
  simp only [decide_eq_true_eq]

omit [Externals] in
theorem eq_singleton {α : Type} {l : List α} {a : α} (hlength : l.length ≤ 1) (ha : a ∈ l) :
    l = [a] := by
  obtain ⟨b, rfl⟩ := List.length_eq_one_iff.mp (Nat.le_antisymm hlength (List.length_pos_of_mem ha))
  rw [List.mem_singleton.mp ha]

omit [Externals] in
/-- A list without repetitions whose elements are all the same has at most one. -/
theorem length_le_one {α : Type} {l : List α} {a : α} (hn : l.Nodup) (h : ∀ b ∈ l, b = a) :
    l.length ≤ 1 := by
  rw [List.eq_replicate_of_mem h] at hn
  exact List.nodup_replicate.mp hn

/-- A name or an alias of a participant that is not released refers to one participant. -/
theorem Unambiguous.resolved (h : Unambiguous s.names) {a ref : String} {n : Name}
    (hn : s.names[a]? = some n) (hlive : n.released = false) (href : ref ∈ n.name :: n.aliases)
    (people : List Person) : s.resolveParticipantRef ref people ≠ .ambiguous := by
  unfold Store.resolveParticipantRef
  split
  · simp
  · have hmem : (a, n) ∈ s.holdersBy normalize ref := mem_holdersBy.mpr ⟨hn, ref, href, rfl⟩
    have hne : (s.holdersBy normalize ref).isEmpty = false := by
      rw [List.isEmpty_eq_false_iff]
      exact List.ne_nil_of_mem hmem
    have honly : ∀ b ∈ s.holdersBy normalize ref, (!b.2.released) = true → b = (a, n) := by
      rintro ⟨b, m⟩ hb hm
      obtain ⟨hbm, x, hx, hspelling⟩ := mem_holdersBy.mp hb
      have hkey : nameKey ref ∈ m.keys := mem_keys_iff.mpr ⟨x, hx, congrArg dashedName hspelling⟩
      by_cases hab : a = b
      · subst hab
        exact congrArg (a, ·) (Option.some.inj (hbm.symm.trans hn))
      · exact absurd hkey (h.apart a b n m hn hbm hab hlive (by simpa using hm) _
          (mem_keys_iff.mpr ⟨ref, href, rfl⟩))
    have hany : (s.holdersBy normalize ref).any (fun e => !e.2.released) = true :=
      List.any_eq_true.mpr ⟨_, hmem, by simp [hlive]⟩
    have hnodup : (s.holdersBy normalize ref).Nodup := .of_map Prod.fst nodup_filter_keys
    have hhits : (if (s.holdersBy normalize ref).length > 1 then
        (s.holdersBy normalize ref).filter fun e => !e.2.released
        else s.holdersBy normalize ref) = [(a, n)] := by
      split
      · refine eq_singleton (length_le_one (a := (a, n)) (hnodup.filter _) fun b hb => ?_)
          (List.mem_filter.mpr ⟨hmem, by simp [hlive]⟩)
        exact honly b (List.mem_filter.mp hb).1 (List.mem_filter.mp hb).2
      · exact eq_singleton (by omega) hmem
    simp only [hne, Bool.false_eq_true, if_false, hany, and_true, hhits]
    simp

/-- Names that refer to one participant each. -/
structure Distinct (s : Store) : Prop where
  apart : ∀ (a b : String) (n m : Name), s.names[a]? = some n → s.names[b]? = some m → a ≠ b →
    n.released = false → m.released = false → ∀ k ∈ n.keys, k ∉ m.keys
  free : ∀ (a : String) (n : Name), s.names[a]? = some n → ∀ k ∈ n.keys, k ∉ reservedKeys
  size : ∀ (a : String) (n : Name), s.names[a]? = some n →
    2 ≤ (Externals.graphemes n.name).length ∧ (Externals.graphemes n.name).length ≤ 40
  resolved : ∀ (a ref : String) (n : Name) (people : List Person), s.names[a]? = some n →
    n.released = false → ref ∈ n.name :: n.aliases → s.resolveParticipantRef ref people ≠ .ambiguous

theorem Unambiguous.distinct (h : Unambiguous s.names) : Distinct s := by
  refine ⟨h.apart, fun a n hn k hk => ?_, fun a n hn => ?_, fun a ref n people hn hlive href => ?_⟩
  · obtain ⟨x, hx, rfl⟩ := mem_keys_iff.mp hk
    exact (h.spelled a n hn x hx).free
  · exact (h.spelled a n hn n.name List.mem_cons_self).size
  · exact h.resolved hn hlive href people

theorem Named.of_empty (hnames : s.names = ∅) (hevents : s.events = []) : Named s := by
  have hnobody : ∀ (a : String) (n : Name), s.names[a]? ≠ some n := by
    intro a n hn
    rw [hnames, Std.ExtTreeMap.getElem?_empty] at hn
    cases hn
  refine ⟨⟨fun a b n m hn => absurd hn (hnobody a n), fun a n hn => absurd hn (hnobody a n)⟩,
    fun p hp => ?_⟩
  rw [hevents] at hp
  cases hp

theorem not_distinct {a b k : String} (hab : a ≠ b)
    (ha : s.names[a]?.any (fun n => !n.released && n.keys.contains k) = true)
    (hb : s.names[b]?.any (fun n => !n.released && n.keys.contains k) = true) : ¬ Distinct s := by
  intro h
  obtain ⟨n, hn, hholds⟩ := (Option.any_eq_true _ _).mp ha
  obtain ⟨m, hm, hholds'⟩ := (Option.any_eq_true _ _).mp hb
  simp only [Bool.and_eq_true, Bool.not_eq_true', List.contains_iff_mem] at hholds hholds'
  exact h.apart a b n m hn hm hab hholds.1 hholds'.1 k hholds.2 hholds'.2

end

def firstActor : String := "agent:11111111-1111-4111-8111-111111111111:a"

def secondActor : String := "agent:11111111-1111-4111-8111-111111111111:b"

/-- The digest of `firstActor`. -/
def actorDigests (s : String) : Option String :=
  if s = firstActor then some "9dde929b2e5e649d4245d0508df42d46a6515790b00bd7a401a580a6af33465e"
  else none

/-- A task's name passes on to a second session. -/
def takeover : List NameOp :=
  [.assignTaskName firstActor "a" "ada" [] "one",
    .assignTaskName secondActor "b" "ada" [firstActor] "two"]

section

local instance takeoverText : Externals := plainText actorDigests

end

end ClaudeManager
