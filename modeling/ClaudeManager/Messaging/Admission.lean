import ClaudeManager.Messaging.Upload
import ClaudeManager.Messaging.Frames

/-!
# Admission

An event of another daemon is checked before its record becomes durable, and reduced after
that. An event that passes the checks and that the reducers then refuse leaves a record
behind which no replay gets past, so the checks are there to anticipate every refusal.

They do so but for two kinds of event. A reaction may lack the name that its reducer wants,
and an event may take away, by listing another channel under its only path, the channel that
the rest of it is about.
-/

namespace ClaudeManager

open Json Containers Program

/-! ## Channels that an event takes away -/

namespace Store

/-- The channel at a path after an event: the last that the event lists there, else the one
that was there. -/
def pathAfter (s : Store) (e : Value) (path : String) : Option String :=
  match e["data"]["channels"].items.reverse.find? fun item => strv item "path" = path with
  | some item => some (strv item "id")
  | none => s.channels.byPath[path]?

/-- A channel that the event leaves in place, under some path. -/
def KeepsChannel (s : Store) (e : Value) (id : String) : Prop :=
  ∃ path, s.pathAfter e path = some id

theorem byPath_foldl_bindListing {items : List Value} {ix : ChannelIndex} {path : String} :
    (items.foldl bindListing ix).byPath[path]?
      = match items.reverse.find? fun item => strv item "path" = path with
        | some item => some (strv item "id")
        | none => ix.byPath[path]? := by
  induction items generalizing ix with
  | nil => rfl
  | cons item items ih =>
    rw [List.foldl_cons, ih, List.reverse_cons, List.find?_append]
    cases items.reverse.find? fun item => strv item "path" = path with
    | some later => rfl
    | none =>
      show (ix.byPath.insert (strv item "path") (strv item "id"))[path]? = _
      rw [getElem?_insert_map]
      by_cases h : strv item "path" = path
      · simp [h]
      · have h' : ¬ path = strv item "path" := fun e => h e.symm
        simp [h, h']

theorem byPath_nextChannels {s : Store} {e : Value} {path : String} :
    (nextChannels s.channels e).byPath[path]? = s.pathAfter e path :=
  byPath_foldl_bindListing

theorem hasChannel_reducedChannels {s : Store} {e : Value} {id : String} :
    (s.reducedChannels e).hasChannel id = true ↔ s.KeepsChannel e id := by
  rw [hasChannel_iff]
  simp only [reducedChannels, byPath_nextChannels, KeepsChannel]

/-- Without listings, every channel stays where it is. -/
theorem reducedChannels_of_nil {s : Store} {e : Value} (h : e["data"]["channels"].items = []) :
    s.reducedChannels e = s := by
  rw [reducedChannels, nextChannels, h]
  rfl

end Store

/-! ## Stages that succeed

Each reducer succeeds where the preflight of its part has passed, from any state that agrees
with the one of the preflight on what the reducer reads. -/

theorem Store.validateMembershipEvent_congr {s s' : Store} {e : Value}
    (hmem : s'.memberships = s.memberships) :
    s'.validateMembershipEvent e = s.validateMembershipEvent e := by
  unfold Store.validateMembershipEvent
  rw [hmem]

theorem reduceMembershipChange_succeeds {s s' : Store} {e : Value} (hid : strv e "id" ≠ "")
    (h : s.validateMembershipEvent e = .ok ⟨⟩) (hmem : s'.memberships = s.memberships) :
    ∃ t, reduceMembershipChange e s' = .ok ⟨⟩ t := by
  have hvalid : s'.validateMembershipEvent e = .ok ⟨⟩ := by
    rw [Store.validateMembershipEvent_congr hmem, h]
  unfold Store.validateMembershipEvent at h
  simp only [except_bind_ok, required_ok, except_refuse_ok, not_or] at h
  obtain ⟨_, ⟨rfl, hconv⟩, _, -, _, ⟨rfl, hmember⟩, -, -, hbool, hknown, -⟩ := h
  obtain ⟨joined, hjoined⟩ : ∃ joined, e["data"]["joined"].asBool = some joined := by
    cases hv : e["data"]["joined"] <;> simp_all [Value.isBool, Value.asBool]
  obtain ⟨members, hmembers⟩ : ∃ members, s.memberships[strv e "conversation_id"]? = some members := by
    rw [← Option.isSome_iff_exists, ← Std.ExtTreeMap.mem_iff_isSome_getElem?,
      ← Std.ExtTreeMap.contains_iff_mem]
    simpa using hknown
  unfold reduceMembershipChange
  simp only [bind_query_ok, bind_check_ok, bind_okOr_ok, bind_get_ok, bind_modify_ok,
    required_ok, modify_ok]
  exact ⟨_, _, hvalid, _, ⟨rfl, hconv⟩, _, ⟨rfl, hmember⟩, joined, hjoined, members,
    by rw [hmem, hmembers], _, ⟨rfl, hid⟩, rfl⟩

theorem listPeople_succeeds {s : Store} {host : String} {active : Bool} {people : List Person}
    (h : ¬ people.any fun p => ¬ ownPerson host p) :
    ∃ t, people.forM (listPerson host active) s = .ok ⟨⟩ t := by
  refine ⟨_, forM_ok_of (g := fun s person =>
      { s with replication.people := Store.addPerson active s.replication.people person })
    (I := fun _ => True) ?_ trivial⟩
  intro person hmem s _
  refine ⟨listPerson_ok.mpr ⟨?_, rfl⟩, trivial⟩
  by_contra hforeign
  exact h (List.any_eq_true.mpr ⟨person, hmem, by simpa using hforeign⟩)

theorem reduceNorms_succeeds {s : Store} {e : Value} : ∃ t, reduceNorms e s = .ok ⟨⟩ t := by
  unfold reduceNorms
  by_cases hglobal : e["data"]["scope"] = "global"
  · rw [if_pos hglobal]
    exact ⟨_, rfl⟩
  · rw [if_neg hglobal]
    by_cases hchannel : hasPrefix (strv e["data"] "scope") "channel:" = true
    · rw [if_pos hchannel]
      simp only [bind_check_ok, required_ok, modify_ok]
      refine ⟨_, _, ⟨rfl, ?_⟩, rfl⟩
      intro hempty
      rw [hempty] at hchannel
      exact absurd hchannel (by decide)
    · rw [if_neg hchannel]
      exact ⟨s, rfl⟩

section

variable [Externals] {s : Store} {e : Value}

theorem reduceChannels_succeeds
    (h : e["data"]["channels"].items.forM Store.preflightChannel = .ok ⟨⟩) :
    e["data"]["channels"].items.forM reduceChannel s = .ok ⟨⟩ (s.reducedChannels e) := by
  rw [Store.reducedChannels, Store.nextChannels, ← Store.foldl_bindListing]
  refine forM_ok_of (I := fun _ => True) ?_ trivial
  intro item hitem s _
  have hpre := except_forM_ok.mp h item hitem
  unfold Store.preflightChannel at hpre
  simp only [except_bind_ok, required_ok] at hpre
  obtain ⟨_, ⟨rfl, hpath⟩, _, hok, _, ⟨rfl, hid⟩, -⟩ := hpre
  exact ⟨reduceChannel_ok.mpr ⟨⟨hpath, hok, hid⟩, rfl⟩, trivial⟩

theorem reduceEnrollment_succeeds (htype : e["type"] = "membership.enrollment")
    (hid : strv e "id" ≠ "") (h : s.preflightEnrollment e = .ok ⟨⟩) :
    ∃ t, reduceEnrollment e s = .ok ⟨⟩ t := by
  unfold Store.preflightEnrollment at h
  simp only [except_bind_ok, required_ok, fromValue_ok, except_refuse_ok, not_or] at h
  obtain ⟨actor, ⟨hactor, hne⟩, channels, hdecode, hsystem, hauthor, henrolled, hknown⟩ := h
  unfold reduceEnrollment
  simp only [bind_check_ok, bind_get_ok, bind_refuse_ok, bind_modify_ok, required_ok,
    fromValue_ok]
  refine ⟨_, actor, ⟨hactor, hne⟩, ?_, channels, hdecode, forM_ok_of (g := Store.setMembers e)
    (I := fun s => ∀ id ∈ channels, s.memberships[id]?.isSome) ?_ ?_⟩
  · simp only [not_or]
    exact ⟨hsystem, hauthor, henrolled⟩
  · intro id hmem s hI
    refine ⟨(enrollInto_ok htype hactor).mpr ⟨⟨hI id hmem, hid⟩, rfl⟩, ?_⟩
    intro id' hmem'
    simp only [Store.setMembers, getElem?_upsert]
    split
    · rfl
    · exact hI id' hmem'
  · intro id hmem
    rw [← Std.ExtTreeMap.mem_iff_isSome_getElem?, ← Std.ExtTreeMap.contains_iff_mem]
    by_contra hnot
    exact hknown (List.any_eq_true.mpr ⟨id, hmem, by simpa using hnot⟩)

theorem reduceFounding_succeeds (htype : e["type"] = "channel.create") (hid : strv e "id" ≠ "")
    (h : e["data"]["channels"].items.forM Store.preflightChannel = .ok ⟨⟩) :
    ∃ t, e["data"]["channels"].items.forM (foundChannel e) s = .ok ⟨⟩ t := by
  refine ⟨_, forM_ok_of (g := fun s item => s.setMembers e (strv item "id"))
    (I := fun _ => True) ?_ trivial⟩
  intro item hitem s _
  have hpre := except_forM_ok.mp h item hitem
  unfold Store.preflightChannel at hpre
  simp only [except_bind_ok, required_ok] at hpre
  obtain ⟨_, -, _, -, _, ⟨rfl, hitemid⟩, -⟩ := hpre
  exact ⟨(foundChannel_ok htype).mpr ⟨⟨hitemid, hid⟩, rfl⟩, trivial⟩

theorem reduceInitialize_succeeds {s' : Store} (hid : strv e "id" ≠ "")
    (h : s.preflightInitialize e = .ok ⟨⟩) (hmem : s'.memberships = s.memberships)
    (hchannel : s'.hasChannel (strv e["data"] "channel_id") = true) :
    ∃ t, reduceInitialize e s' = .ok ⟨⟩ t := by
  unfold Store.preflightInitialize at h
  simp only [except_bind_ok, required_ok, fromValue_ok, except_refuse_ok, not_or] at h
  obtain ⟨_, ⟨rfl, hne⟩, members, hdecode, -, hnew, hauthor, hmembers⟩ := h
  unfold reduceInitialize
  simp only [bind_check_ok, bind_get_ok, bind_refuse_ok, bind_modify_ok, required_ok,
    fromValue_ok, modify_ok]
  refine ⟨_, _, ⟨rfl, hne⟩, ?_, members, hdecode, hmembers, _, ⟨rfl, hid⟩, rfl⟩
  rw [hmem]
  simp only [not_or]
  exact ⟨by simpa using hchannel, hnew, hauthor⟩

/-! The preflight of an event's type, by its type. -/

theorem Store.preflightType_enrollment (h : e["type"] = "membership.enrollment") :
    s.preflightType e = s.preflightEnrollment e := by
  simp [preflightType, strv_of_idx h]

theorem Store.preflightType_init (h : e["type"] = "channel.membership.initialize") :
    s.preflightType e = s.preflightInitialize e := by
  simp [preflightType, strv_of_idx h]

theorem Store.preflightType_change (h : e["type"] = "channel.membership") :
    s.preflightType e = s.validateMembershipEvent e := by
  simp [preflightType, strv_of_idx h]

theorem Store.preflightType_ack (h : e["type"] = "read.ack") :
    s.preflightType e = (do let _ ← s.validateReadEvent e false) := by
  simp [preflightType, strv_of_idx h]

theorem Store.preflightType_cursor (h : e["type"] = "read.cursor") :
    s.preflightType e = (do let _ ← s.validateCursorEvent e false) := by
  simp [preflightType, strv_of_idx h]

theorem Store.preflightType_reaction (h : e["type"] = "reaction") :
    s.preflightType e = s.validateReaction e := by
  simp [preflightType, strv_of_idx h]

/-- The membership reducer refuses, of what passed the preflight, only the initialisation of a
channel that the event itself takes away. -/
theorem reduceMembership_succeeds_iff {u : Store} (hid : strv e "id" ≠ "")
    (hchannels : e["data"]["channels"].items.forM Store.preflightChannel = .ok ⟨⟩)
    (h : s.preflightType e = .ok ⟨⟩) (hmem : u.memberships = s.memberships)
    (henrolled : u.enrolled = s.enrolled) :
    (∃ t, reduceMembership e u = .ok ⟨⟩ t) ↔
      (e["type"] = "channel.membership.initialize" →
        u.hasChannel (strv e["data"] "channel_id") = true) := by
  by_cases henroll : e["type"] = "membership.enrollment"
  · rw [Store.preflightType_enrollment henroll] at h
    have h' : u.preflightEnrollment e = .ok ⟨⟩ := by
      unfold Store.preflightEnrollment at h ⊢
      rw [hmem, henrolled, h]
    rw [reduceMembership_enrollment henroll]
    exact iff_of_true (reduceEnrollment_succeeds henroll hid h') (by simp [henroll])
  by_cases hcreate : e["type"] = "channel.create"
  · rw [reduceMembership_create hcreate]
    refine iff_of_true ?_ (by simp [hcreate])
    by_cases hv : e["data"]["membership_version"] = .num 1
    · rw [onlyIf, if_pos hv]
      exact reduceFounding_succeeds hcreate hid hchannels
    · rw [onlyIf, if_neg hv]
      exact ⟨u, rfl⟩
  by_cases hinit : e["type"] = "channel.membership.initialize"
  · rw [reduceMembership_init hinit]
    rw [Store.preflightType_init hinit] at h
    constructor
    · intro hex _
      obtain ⟨t, ht⟩ := hex
      exact (reduceInitialize_ok hinit ht).2
    · intro hchannel
      exact reduceInitialize_succeeds hid h hmem (hchannel hinit)
  by_cases hchange : e["type"] = "channel.membership"
  · rw [reduceMembership_change hchange]
    rw [Store.preflightType_change hchange] at h
    exact iff_of_true (reduceMembershipChange_succeeds hid h hmem) (by simp [hchange])
  · rw [reduceMembership_other henroll hcreate hinit hchange]
    exact iff_of_true ⟨u, rfl⟩ (by simp [hinit])

theorem reduceReplication_succeeds
    (h : onlyIf (e["type"] = "host.update") (Store.preflightHost e) = .ok ⟨⟩) :
    ∃ t, reduceReplication e s = .ok ⟨⟩ t := by
  unfold reduceReplication
  by_cases htype : e["type"] = "host.update"
  · have h := except_onlyIf_ok.mp h htype
    unfold Store.preflightHost at h
    simp only [except_bind_ok, required_ok, fromValue_ok, except_refuse_ok, uuidOr_ok,
      exists_const] at h
    obtain ⟨hauthor, _, ⟨rfl, hhost⟩, huuid, _, ⟨rfl, hrevision⟩, hruuid, people, hpeople, hown⟩ := h
    rw [if_pos htype]
    simp only [bind_refuse_ok, bind_check_ok, bind_modify_ok, required_ok, fromValue_ok,
      uuidOr_ok]
    obtain ⟨t, ht⟩ := @listPeople_succeeds (s.clearPresence (strv e["data"] "host_id")) _
      (e["data"]["active"] = .bool true) _ hown
    exact ⟨_, hauthor, _, ⟨rfl, hhost⟩, ⟨⟩, huuid, _, ⟨rfl, hrevision⟩, ⟨⟩, hruuid, people, hpeople,
      bind_unit_ok.mpr ⟨t, ht, rfl⟩⟩
  · rw [if_neg htype]
    exact ⟨s, rfl⟩

/-- Without the check of its messages, an acknowledgement is checked the same in every state. -/
theorem validateReadEvent_congr {s' : Store} :
    s'.validateReadEvent e false = s.validateReadEvent e false := by
  simp only [Store.validateReadEvent, onlyIf, Bool.false_eq_true, if_false]

theorem validateCursorEvent_congr {s' : Store} :
    s'.validateCursorEvent e false = s.validateCursorEvent e false := by
  simp only [Store.validateCursorEvent, onlyIf, Bool.false_eq_true, if_false]

theorem reducePrivateSync_succeeds {u : Store} (h : s.preflightType e = .ok ⟨⟩) :
    ∃ t, reducePrivateSync e u = .ok ⟨⟩ t := by
  unfold reducePrivateSync
  by_cases hack : e["type"] = "read.ack"
  · rw [Store.preflightType_ack hack, except_bind_ok] at h
    obtain ⟨ids, hids, -⟩ := h
    rw [if_pos hack]
    simp only [bind_query_ok, modify_ok]
    exact ⟨_, ids, by rw [validateReadEvent_congr (s := s), hids], rfl⟩
  · rw [if_neg hack]
    by_cases hcursor : e["type"] = "read.cursor"
    · rw [Store.preflightType_cursor hcursor, except_bind_ok] at h
      obtain ⟨cursors, hcursors, -⟩ := h
      rw [if_pos hcursor]
      unfold reduceCursorEvent
      simp only [bind_query_ok, modify_ok]
      exact ⟨_, cursors, by rw [validateCursorEvent_congr (s := s), hcursors], rfl⟩
    · rw [if_neg hcursor]
      exact ⟨u, rfl⟩

theorem reduceConversation_succeeds {u : Store} (h : s.preflightConversation e = .ok ⟨⟩)
    (hconv : u.conversations = s.conversations) : ∃ t, reduceConversation e u = .ok ⟨⟩ t := by
  unfold Store.preflightConversation at h
  unfold reduceConversation
  cases hcreate : e["data"].get? "conversation_create" with
  | none => exact ⟨u, rfl⟩
  | some creation =>
    simp only [hcreate, except_bind_ok, required_ok, fromValue_ok, except_refuse_ok] at h
    obtain ⟨_, ⟨rfl, hid⟩, members, hmembers, hok⟩ := h
    simp only [bind_check_ok, bind_get_ok, bind_refuse_ok, required_ok, fromValue_ok, modify_ok]
    refine ⟨_, _, ⟨rfl, hid⟩, members, hmembers, ?_, rfl⟩
    unfold dmMembersOk at hok ⊢
    rwa [hconv]

theorem reduceIdentity_succeeds {u : Store} (h : s.preflightIdentity e = .ok ⟨⟩)
    (hnames : u.names = s.names) : ∃ t, reduceIdentity e u = .ok ⟨⟩ t := by
  unfold Store.preflightIdentity at h
  unfold reduceIdentity
  cases hfield : identityField e with
  | none => exact ⟨u, rfl⟩
  | some n =>
    simp only [hfield, except_bind_ok, required_ok, fromValue_ok, except_refuse_ok] at h
    obtain ⟨_, ⟨rfl, hid⟩, v, hv, hold⟩ := h
    simp only [bind_check_ok, bind_get_ok, bind_refuse_ok, required_ok, fromValue_ok, hnames]
    by_cases hnewer : s.names[strv n "participant_id"]?.all fun old => old.revision ≤ v.revision
    · exact ⟨_, _, ⟨rfl, hid⟩, v, hv, hold, by rw [if_pos hnewer]; rfl⟩
    · exact ⟨_, _, ⟨rfl, hid⟩, v, hv, hold, by rw [if_neg hnewer]; rfl⟩

end

/-! ## What the checks miss -/

/-- What the reducers of an admitted event want beyond its checks. -/
structure Store.ReducerReady (s : Store) (e : Value) : Prop where
  /-- A reaction that stands carries a name. -/
  named : e["type"] = "reaction" → (s.priorReaction e).1 < .of e → strv e["actor"] "name" ≠ ""
  /-- The channel whose members the event initialises is still there. -/
  initialized : e["type"] = "channel.membership.initialize" →
    s.KeepsChannel e (strv e["data"] "channel_id")
  /-- The conversation of a reaction is still visible to its author. -/
  targeted : e["type"] = "reaction" →
    s.KeepsChannel e (strv e "conversation_id")
      ∨ (s.conversations[strv e "conversation_id"]?.any (·.contains (strv e["actor"] "id"))) = true

/-- A conversation that the actor sees after the channels were bound. -/
theorem Store.visible_of_channels {s s' : Store} {e : Value} {actor conv : String}
    (hchannels : s'.channels = (s.reducedChannels e).channels)
    (hconv : s'.conversations = s.conversations) :
    s'.visible actor conv = true ↔ s.KeepsChannel e conv
      ∨ (s.conversations[conv]?.any (·.contains actor)) = true := by
  rw [Store.visible, Bool.or_eq_true, hchannels, hconv, ChannelIndex.contains_paths_iff,
    ← Store.hasChannel_reducedChannels, Store.hasChannel_iff]

/-- A reaction that is valid here is valid where its conversation is still visible. -/
theorem Store.ReactionValid.transport {s s' : Store} {e : Value} (h : s.ReactionValid e)
    (hnames : s'.names = s.names) (hevents : s'.published = s.published) :
    s'.ReactionValid e ↔
      s'.visible (strv e["actor"] "id") (strv e "conversation_id") = true := by
  have hsame : ∀ p : Published, p.event["conversation_id"] = e["conversation_id"] →
      strv p.event "conversation_id" = strv e "conversation_id" := by
    intro p hp
    rw [strv_eq, strv_eq, hp]
  constructor
  · intro h'
    obtain ⟨p, -, -, hconv, hvisible⟩ := h'.target
    rwa [hsame p hconv] at hvisible
  · intro hvisible
    obtain ⟨p, hp, htype, hconv, -⟩ := h.target
    exact { h with
      identity := by rw [hnames]; exact h.identity
      target := ⟨p, by rw [hevents, hp], htype, hconv, by rw [hsame p hconv]; exact hvisible⟩ }

theorem reduceSettings_succeeds {s : Store} {e : Value}
    (havail : onlyIf (e["type"] = .str availabilityType) (validateOwnerAvailability e) = .ok ⟨⟩)
    (hmaint : onlyIf (e["type"] = .str maintenanceType) (validateMaintenance e) = .ok ⟨⟩) :
    ∃ t, (do
      onlyIf (e["type"] = .str availabilityType) (reduceOwnerAvailability e)
      onlyIf (e["type"] = .str maintenanceType) (check (validateMaintenance e))
      onlyIf (e["type"] = "norms.update") (reduceNorms e) : Action PUnit) s = .ok ⟨⟩ t := by
  obtain ⟨t1, ht1⟩ : ∃ t, onlyIf (e["type"] = .str availabilityType)
      (reduceOwnerAvailability e) s = .ok ⟨⟩ t := by
    refine onlyIf_succeeds fun h => ?_
    unfold reduceOwnerAvailability
    simp only [bind_check_ok, modify_ok]
    exact ⟨_, _, except_onlyIf_ok.mp havail h, rfl⟩
  obtain ⟨t, ht⟩ : ∃ t, onlyIf (e["type"] = "norms.update") (reduceNorms e) t1 = .ok ⟨⟩ t :=
    onlyIf_succeeds fun _ => reduceNorms_succeeds
  refine ⟨t, bind_unit_ok.mpr ⟨t1, ht1, bind_unit_ok.mpr ⟨t1, ?_, ht⟩⟩⟩
  exact onlyIf_ok.mpr ⟨fun h => check_ok.mpr ⟨except_onlyIf_ok.mp hmaint h, rfl⟩, fun _ => rfl⟩

theorem reduceRequest_succeeds {s : Store} {e : Value} {u : Store} (hid : strv e "id" ≠ "")
    (h : s.preflightRequest e = .ok ⟨⟩) (hrequests : u.requests = s.requests) :
    ∃ t, reduceRequest e u = .ok ⟨⟩ t := by
  unfold Store.preflightRequest at h
  simp only [except_bind_ok, required_ok, except_refuse_ok] at h
  obtain ⟨_, ⟨rfl, -⟩, _, ⟨rfl, -⟩, hnew⟩ := h
  refine ⟨_, reduceRequest_ok.mpr ⟨⟨hid, ?_⟩, rfl⟩⟩
  intro old hold
  rw [hrequests] at hold
  exact absurd (Std.ExtTreeMap.contains_iff_mem.mpr
    (Std.ExtTreeMap.mem_iff_isSome_getElem?.mpr (by rw [Store.requestOf] at hold; simp [hold])))
    hnew

section

variable [Externals] {s : Store} {e : Value}

theorem reduceReaction_succeeds_iff {u : Store} (h : s.preflightType e = .ok ⟨⟩)
    (hnames : u.names = s.names) (hevents : u.published = s.published)
    (hreactions : u.readModel.reactions = s.readModel.reactions)
    (hchannels : u.channels = (s.reducedChannels e).channels)
    (hconv : u.conversations = s.conversations) :
    (∃ t, reduceReaction e u = .ok ⟨⟩ t) ↔ (e["type"] = "reaction" →
      (s.KeepsChannel e (strv e "conversation_id")
        ∨ (s.conversations[strv e "conversation_id"]?.any
            (·.contains (strv e["actor"] "id"))) = true)
      ∧ ((s.priorReaction e).1 < ReadCursor.of e → strv e["actor"] "name" ≠ "")) := by
  have hprior : u.priorReaction e = s.priorReaction e := by
    simp only [Store.priorReaction, Store.reaction, hreactions]
  simp only [reduceReaction_ok, exists_and_left, exists_eq, and_true, hprior]
  refine forall_congr' fun htype => and_congr_left' ?_
  rw [Store.preflightType_reaction htype, Store.validateReaction_ok] at h
  rw [Store.validateReaction_ok, h.transport hnames hevents,
    Store.visible_of_channels hchannels hconv]

/-- The reducers of an event that passed its preflight succeed exactly where it is ready. -/
theorem reduce_succeeds_iff (hid : strv e "id" ≠ "") (h : s.preflightProjection e = .ok ⟨⟩) :
    (∃ t, reduce e s = .ok ⟨⟩ t) ↔ s.ReducerReady e := by
  unfold Store.preflightProjection at h
  simp only [except_bind_ok] at h
  obtain ⟨_, hchannels, _, havail, _, hmaint, _, hhost, _, htype, _, hconv, _, hident, hreq⟩ := h
  have h1 := reduceChannels_succeeds (s := s) hchannels
  have hmember := reduceMembership_succeeds_iff (u := s.reducedChannels e) hid hchannels htype
    rfl rfl
  unfold reduce
  simp only [bind_unit_ok]
  constructor
  · rintro ⟨t, s1, h1', s2, h2, s3, h3, s4, h4, s5, h5, -⟩
    obtain rfl := reduceChannels_ok h1'
    have hchannel := hmember.mp ⟨s2, h2⟩
    obtain rfl := reduceMembership_ok h2
    obtain rfl := reduceReplication_ok h3
    obtain rfl := reducePrivateSync_ok h4
    have hreact := (reduceReaction_succeeds_iff htype (by rfl) (by rfl) (by rfl) (by rfl)
      (by rfl)).mp ⟨s5, h5⟩
    exact {
      named := fun ht => (hreact ht).2
      initialized := fun ht => Store.hasChannel_reducedChannels.mp (hchannel ht)
      targeted := fun ht => (hreact ht).1 }
  · intro hready
    obtain ⟨t2, h2⟩ := hmember.mpr fun ht =>
      Store.hasChannel_reducedChannels.mpr (hready.initialized ht)
    obtain ⟨t3, h3⟩ := reduceReplication_succeeds (s := t2) hhost
    obtain ⟨t4, h4⟩ := reducePrivateSync_succeeds (u := t3) htype
    have ht4 : t4 = (((s.reducedChannels e).reducedMembership e).reducedHosts e).reducedReads e := by
      rw [reducePrivateSync_ok h4, reduceReplication_ok h3, reduceMembership_ok h2]
    obtain ⟨t5, h5⟩ := (reduceReaction_succeeds_iff (u := t4) htype (by rw [ht4]; rfl)
      (by rw [ht4]; rfl) (by rw [ht4]; rfl) (by rw [ht4]; rfl) (by rw [ht4]; rfl)).mpr
      fun ht => ⟨hready.targeted ht, hready.named ht⟩
    have ht5 : t5 = t4.reducedReactions e := (reduceReaction_ok.mp h5).2
    obtain ⟨t6, h6⟩ := reduceConversation_succeeds (u := t5) hconv (by rw [ht5, ht4]; rfl)
    have ht6 : t6 = t5.reducedConversations e := reduceConversation_ok h6
    obtain ⟨t7, h7⟩ := reduceIdentity_succeeds (u := t6) hident (by simp only [ht6, ht5, ht4, Store.reducedConversations,
      Store.reducedReactions, Store.reducedReads, Store.reducedHosts, Store.reducedMembership,
      Store.reducedChannels])
    have ht7 : t7 = t6.reducedNames e := reduceIdentity_ok h7
    obtain ⟨t8, h8⟩ := reduceSettings_succeeds (s := t7) havail hmaint
    have ht8 : t8 = t7.reducedSettings e := reduceSettings_ok h8
    obtain ⟨t9, h9⟩ := reduceRequest_succeeds (u := t8) hid hreq
      (by simp only [ht8, ht7, ht6, ht5, ht4, Store.reducedSettings, Store.reducedNames,
        Store.reducedConversations, Store.reducedReactions, Store.reducedReads,
        Store.reducedHosts, Store.reducedMembership, Store.reducedChannels])
    simp only [bind_unit_ok] at h8
    obtain ⟨u1, k1, u2, k2, k3⟩ := h8
    exact ⟨t9, _, h1, _, h2, _, h3, _, h4, _, h5, _, h6, _, h7, u1, k1, u2, k2, _, k3, h9⟩

end

end ClaudeManager
