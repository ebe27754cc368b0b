import ClaudeManager.Messaging.Reduce
import ClaudeManager.Program.Views

/-!
# What the reducers do

Each reducer that succeeds has one effect, a function of the event and the state. A reducer
that fails has changed at most the fields it writes.

The effects are stated once here. Nothing else unfolds a reducer.
-/

namespace ClaudeManager

open Json Containers Program

/-! ## Channels -/

namespace Store

/-- Bind the channel that a listing names. -/
def bindListing (ix : ChannelIndex) (item : Value) : ChannelIndex :=
  ix.bind (strv item "path") (strv item "id")

/-- The channels after an event. -/
def nextChannels (ix : ChannelIndex) (e : Value) : ChannelIndex :=
  e["data"]["channels"].items.foldl bindListing ix

def reducedChannels (s : Store) (e : Value) : Store :=
  { s with channels := nextChannels s.channels e }

theorem foldl_bindListing {items : List Value} {s : Store} :
    items.foldl (fun s item => { s with channels := bindListing s.channels item }) s
      = { s with channels := items.foldl bindListing s.channels } := by
  induction items generalizing s with
  | nil => rfl
  | cons item items ih => rw [List.foldl_cons, ih, List.foldl_cons]

end Store

theorem reduceChannel_ok {item : Value} {s t : Store} :
    reduceChannel item s = .ok ⟨⟩ t ↔
      (strv item "path" ≠ "" ∧ channelPath (strv item "path") = .ok ⟨⟩ ∧ strv item "id" ≠ "")
        ∧ t = { s with channels := Store.bindListing s.channels item } := by
  unfold reduceChannel
  simp only [bind_check_ok, required_ok, modify_ok]
  constructor
  · rintro ⟨path, ⟨rfl, hpath⟩, _, hok, id, ⟨rfl, hid⟩, rfl⟩
    exact ⟨⟨hpath, hok, hid⟩, rfl⟩
  · rintro ⟨⟨hpath, hok, hid⟩, rfl⟩
    exact ⟨_, ⟨rfl, hpath⟩, _, hok, _, ⟨rfl, hid⟩, rfl⟩

theorem reduceChannels_ok {e : Value} {s t : Store}
    (h : e["data"]["channels"].items.forM reduceChannel s = .ok ⟨⟩ t) :
    t = s.reducedChannels e := by
  rw [Store.reducedChannels, Store.nextChannels, ← Store.foldl_bindListing]
  exact forM_ok_foldl (fun _ _ _ h => (reduceChannel_ok.mp h).2) h

/-! ## Membership -/

namespace Store

/-- A participant among the members of a channel. -/
def addMembers (actor : String) (m : Map StrSet) (id : String) : Map StrSet :=
  upsert m id ∅ (·.insert actor)

/-- The channels whose members an event changes. -/
def membershipIds (e : Value) : List String :=
  if e["type"] = "membership.enrollment" then
    (Decode.strs e["data"]["default_channels"]).getD []
  else if e["type"] = "channel.create" then
    if e["data"]["membership_version"] = .num 1 then
      e["data"]["channels"].items.map (strv · "id")
    else []
  else if e["type"] = "channel.membership.initialize" then [strv e["data"] "channel_id"]
  else if e["type"] = "channel.membership" then [strv e "conversation_id"]
  else []

/-- The members of a channel after an event about it. -/
def nextMembers (e : Value) (members : StrSet) : StrSet :=
  let member := strv e["data"] "participant_id"
  let creator := strv e["actor"] "id"
  if e["type"] = "membership.enrollment" then members.insert member
  else if e["type"] = "channel.create" then
    if creator = "system" then members else members.insert creator
  else if e["type"] = "channel.membership.initialize" then
    (Decode.strSet e["data"]["members"]).getD ∅
  else if e["data"]["joined"] = .bool true then members.insert member
  else members.erase member

/-- The memberships after an event. -/
def nextMemberships (m : Map StrSet) (e : Value) : Map StrSet :=
  (membershipIds e).foldl (fun m id => upsert m id ∅ (nextMembers e)) m

/-- The membership revisions after an event: a change is a revision. -/
def nextRevisions (m : Map String) (e : Value) : Map String :=
  (membershipIds e).foldl (fun m id => m.insert id (strv e "id")) m

/-- Who is enrolled after an event. -/
def nextEnrolled (enrolled : StrSet) (e : Value) : StrSet :=
  if e["type"] = "membership.enrollment" then
    enrolled.insert (strv e["data"] "participant_id")
  else enrolled

def reducedMembership (s : Store) (e : Value) : Store :=
  { s with
    memberships := nextMemberships s.memberships e
    membershipRevisions := nextRevisions s.membershipRevisions e
    enrolled := nextEnrolled s.enrolled e }

/-- The members of one channel, as of an event. -/
def setMembers (e : Value) (s : Store) (id : String) : Store :=
  { s with
    memberships := upsert s.memberships id ∅ (nextMembers e)
    membershipRevisions := s.membershipRevisions.insert id (strv e "id") }

theorem foldl_setMembers {e : Value} {ids : List String} {s : Store} :
    ids.foldl (setMembers e) s
      = { s with
          memberships := ids.foldl (fun m id => upsert m id ∅ (nextMembers e)) s.memberships
          membershipRevisions :=
            ids.foldl (fun m id => m.insert id (strv e "id")) s.membershipRevisions } := by
  induction ids generalizing s with
  | nil => rfl
  | cons id ids ih =>
    rw [List.foldl_cons, ih]
    rfl

end Store

theorem enrollInto_ok {e : Value} {actor id : String} {s t : Store}
    (htype : e["type"] = "membership.enrollment")
    (hactor : strv e["data"] "participant_id" = actor) :
    enrollInto e actor id s = .ok ⟨⟩ t ↔
      (s.memberships[id]?.isSome ∧ strv e "id" ≠ "") ∧ t = s.setMembers e id := by
  have hnext : ∀ members, Store.nextMembers e members = members.insert actor := by
    intro members
    rw [Store.nextMembers, if_pos htype, hactor]
  unfold enrollInto
  simp only [bind_get_ok, bind_okOr_ok, bind_modify_ok, bind_check_ok, required_ok, modify_ok,
    Option.isSome_iff_exists]
  constructor
  · rintro ⟨members, hm, _, ⟨rfl, hid⟩, rfl⟩
    refine ⟨⟨⟨members, hm⟩, hid⟩, ?_⟩
    simp [Store.setMembers, upsert, hnext, entryD, hm]
  · rintro ⟨⟨⟨members, hm⟩, hid⟩, rfl⟩
    refine ⟨members, hm, _, ⟨rfl, hid⟩, ?_⟩
    simp [Store.setMembers, upsert, hnext, entryD, hm]

theorem foundChannel_ok {e channel : Value} {s t : Store} (htype : e["type"] = "channel.create") :
    foundChannel e channel s = .ok ⟨⟩ t ↔
      (strv channel "id" ≠ "" ∧ strv e "id" ≠ "")
        ∧ t = s.setMembers e (strv channel "id") := by
  have hnext : Store.nextMembers e = fun members =>
      if strv e["actor"] "id" = "system" then members
      else members.insert (strv e["actor"] "id") := by
    funext members
    simp [Store.nextMembers, htype]
  unfold foundChannel
  simp only [bind_check_ok, bind_modify_ok, required_ok, modify_ok]
  constructor
  · rintro ⟨_, ⟨rfl, hid⟩, _, ⟨rfl, he⟩, rfl⟩
    refine ⟨⟨hid, he⟩, ?_⟩
    rw [Store.setMembers, hnext]
  · rintro ⟨⟨hid, he⟩, rfl⟩
    refine ⟨_, ⟨rfl, hid⟩, _, ⟨rfl, he⟩, ?_⟩
    rw [Store.setMembers, hnext]

theorem reduceMembershipChange_ok {e : Value} {s t : Store}
    (htype : e["type"] = "channel.membership")
    (h : reduceMembershipChange e s = .ok ⟨⟩ t) : t = s.setMembers e (strv e "conversation_id") := by
  unfold reduceMembershipChange at h
  simp only [bind_query_ok, bind_check_ok, bind_okOr_ok, bind_get_ok, bind_modify_ok,
    required_ok, modify_ok, Value.asBool_eq_some] at h
  obtain ⟨_, -, _, ⟨rfl, -⟩, _, ⟨rfl, -⟩, joined, hjoined, members, hm, _, ⟨rfl, -⟩, rfl⟩ := h
  cases joined <;> simp [Store.setMembers, Store.nextMembers, upsert, htype, hjoined, entryD, hm]

theorem reduceFounding_ok {e : Value} {s t : Store} (htype : e["type"] = "channel.create")
    (hv : e["data"]["membership_version"] = .num 1)
    (h : e["data"]["channels"].items.forM (foundChannel e) s = .ok ⟨⟩ t) :
    t = s.reducedMembership e := by
  have ht := forM_ok_foldl (g := fun s channel => s.setMembers e (strv channel "id"))
    (fun _ _ _ h => ((foundChannel_ok htype).mp h).2) h
  rw [ht, ← List.foldl_map (f := (strv · "id")) (g := Store.setMembers e),
    Store.foldl_setMembers]
  simp [Store.reducedMembership, Store.nextMemberships, Store.nextRevisions,
    Store.nextEnrolled, Store.membershipIds, htype, hv]

/-- An event that changes the members of one channel. -/
theorem Store.reducedMembership_single {s : Store} {e : Value} {id : String}
    (hids : membershipIds e = [id]) (henroll : e["type"] ≠ "membership.enrollment") :
    s.reducedMembership e = s.setMembers e id := by
  simp [reducedMembership, nextMemberships, nextRevisions, nextEnrolled, hids, henroll,
    setMembers]

/-- An event that changes no members. -/
theorem Store.reducedMembership_none {s : Store} {e : Value}
    (hids : membershipIds e = []) (henroll : e["type"] ≠ "membership.enrollment") :
    s.reducedMembership e = s := by
  simp [reducedMembership, nextMemberships, nextRevisions, nextEnrolled, hids, henroll]

section

variable [Externals]

theorem reduceEnrollment_ok {e : Value} {s t : Store} (htype : e["type"] = "membership.enrollment")
    (h : reduceEnrollment e s = .ok ⟨⟩ t) : t = s.reducedMembership e := by
  unfold reduceEnrollment at h
  simp only [bind_check_ok, bind_get_ok, bind_refuse_ok, bind_modify_ok, required_ok,
    fromValue_ok] at h
  obtain ⟨actor, ⟨hactor, -⟩, -, channels, hdecode, h⟩ := h
  have ht := forM_ok_foldl (fun _ _ _ h => ((enrollInto_ok htype hactor).mp h).2) h
  rw [ht, Store.foldl_setMembers]
  simp [Store.reducedMembership, Store.nextMemberships, Store.nextRevisions,
    Store.nextEnrolled, Store.membershipIds, htype, hdecode, hactor]

theorem reduceInitialize_ok {e : Value} {s t : Store}
    (htype : e["type"] = "channel.membership.initialize")
    (h : reduceInitialize e s = .ok ⟨⟩ t) :
    t = s.setMembers e (strv e["data"] "channel_id")
      ∧ s.hasChannel (strv e["data"] "channel_id") = true := by
  unfold reduceInitialize at h
  simp only [bind_check_ok, bind_get_ok, bind_refuse_ok, bind_modify_ok, required_ok,
    fromValue_ok, modify_ok, not_or] at h
  obtain ⟨_, ⟨rfl, -⟩, ⟨hchannel, -⟩, members, hdecode, -, _, ⟨rfl, -⟩, rfl⟩ := h
  refine ⟨?_, by simpa using hchannel⟩
  simp [Store.setMembers, Store.nextMembers, upsert, htype, hdecode]

/-! An event changes memberships in the way of its type. -/

theorem reduceMembership_enrollment {e : Value} (h : e["type"] = "membership.enrollment") :
    reduceMembership e = reduceEnrollment e := by
  simp [reduceMembership, onlyIf, h]

theorem reduceMembership_create {e : Value} (h : e["type"] = "channel.create") :
    reduceMembership e = onlyIf (e["data"]["membership_version"] = .num 1)
      (e["data"]["channels"].items.forM (foundChannel e)) := by
  simp [reduceMembership, onlyIf, h]

theorem reduceMembership_init {e : Value}
    (h : e["type"] = "channel.membership.initialize") :
    reduceMembership e = reduceInitialize e := by
  simp [reduceMembership, onlyIf, h]

theorem reduceMembership_change {e : Value} (h : e["type"] = "channel.membership") :
    reduceMembership e = reduceMembershipChange e := by
  simp [reduceMembership, onlyIf, h]

theorem reduceMembership_other {e : Value} (h1 : e["type"] ≠ "membership.enrollment")
    (h2 : e["type"] ≠ "channel.create") (h3 : e["type"] ≠ "channel.membership.initialize")
    (h4 : e["type"] ≠ "channel.membership") : reduceMembership e = pure ⟨⟩ := by
  simp [reduceMembership, onlyIf, h1, h2, h3, h4]

theorem reduceMembership_ok {e : Value} {s t : Store} (h : reduceMembership e s = .ok ⟨⟩ t) :
    t = s.reducedMembership e := by
  by_cases henroll : e["type"] = "membership.enrollment"
  · rw [reduceMembership_enrollment henroll] at h
    exact reduceEnrollment_ok henroll h
  by_cases hcreate : e["type"] = "channel.create"
  · rw [reduceMembership_create hcreate, onlyIf_ok] at h
    by_cases hv : e["data"]["membership_version"] = .num 1
    · exact reduceFounding_ok hcreate hv (h.1 hv)
    · rw [Store.reducedMembership_none (by simp [Store.membershipIds, hcreate, hv]) henroll]
      exact (h.2 hv).symm
  by_cases hinit : e["type"] = "channel.membership.initialize"
  · rw [reduceMembership_init hinit] at h
    rw [@Store.reducedMembership_single s e (strv e["data"] "channel_id")
      (by simp [Store.membershipIds, hinit]) henroll]
    exact (reduceInitialize_ok hinit h).1
  by_cases hchange : e["type"] = "channel.membership"
  · rw [reduceMembership_change hchange] at h
    rw [@Store.reducedMembership_single s e (strv e "conversation_id")
      (by simp [Store.membershipIds, hchange]) henroll]
    exact reduceMembershipChange_ok hchange h
  · rw [reduceMembership_other henroll hcreate hinit hchange] at h
    rw [Store.reducedMembership_none
      (by simp [Store.membershipIds, henroll, hcreate, hinit, hchange]) henroll]
    exact (pure_ok.mp h).2.symm

end

/-! ## Hosts -/

namespace Store

/-- List one person of a host, present where the host is active. -/
def addPerson (active : Bool) (people : Map Person) (person : Person) : Map Person :=
  people.insert person.id { person with present := person.present && active }

/-- The people after an event: a host's directory replaces what was known of the host. -/
def nextPeople (people : Map Person) (e : Value) : Map Person :=
  if e["type"] = "host.update" then
    ((Decode.list Person.decode e["data"]["people"]).getD []).foldl
      (addPerson (e["data"]["active"] = .bool true))
      (people.map fun _ p =>
        if hasPrefix p.id (agentPrefix (strv e["data"] "host_id")) then { p with present := false }
        else p)
  else people

/-- The hosts after an event. -/
def nextHosts (hosts : Map Value) (e : Value) : Map Value :=
  if e["type"] = "host.update" then hosts.insert (strv e["data"] "host_id") e["data"] else hosts

/-- The enrollment revision of daemon `daemonId` after an event. -/
def nextEnrollment (daemonId revision : String) (e : Value) : String :=
  if e["type"] = "host.update" ∧ strv e["data"] "host_id" = daemonId then
    strv e["data"] "enrollment_revision"
  else revision

def reducedHosts (s : Store) (e : Value) : Store :=
  { s with
    replication.people := nextPeople s.replication.people e
    replication.hosts := nextHosts s.replication.hosts e
    enrollmentRevision := nextEnrollment s.daemonId s.enrollmentRevision e }

theorem foldl_addPerson {active : Bool} {people : List Person} {s : Store} :
    people.foldl (fun s person =>
        { s with replication.people := addPerson active s.replication.people person }) s
      = { s with replication.people := people.foldl (addPerson active) s.replication.people } := by
  induction people generalizing s with
  | nil => rfl
  | cons p people ih => rw [List.foldl_cons, ih, List.foldl_cons]

end Store

theorem listPerson_ok {host : String} {active : Bool} {person : Person} {s t : Store} :
    listPerson host active person s = .ok ⟨⟩ t ↔ ownPerson host person = true
      ∧ t = { s with
          replication.people := Store.addPerson active s.replication.people person } := by
  unfold listPerson
  simp only [bind_refuse_ok, modify_ok, Store.addPerson, not_not]
  exact and_congr_right fun _ => eq_comm

section

variable [Externals]

theorem reduceReplication_ok {e : Value} {s t : Store} (h : reduceReplication e s = .ok ⟨⟩ t) :
    t = s.reducedHosts e := by
  unfold reduceReplication at h
  unfold Store.reducedHosts
  by_cases htype : e["type"] = "host.update"
  · rw [if_pos htype] at h
    simp only [bind_refuse_ok, bind_check_ok, bind_modify_ok, required_ok, fromValue_ok] at h
    obtain ⟨-, host, ⟨rfl, -⟩, _, -, revision, ⟨rfl, -⟩, _, -, people, hpeople, h⟩ := h
    obtain ⟨t1, hlist, h⟩ := bind_unit_ok.mp h
    simp only [bind_modify_ok, modify_ok] at h
    subst h
    have ht1 := forM_ok_foldl (g := fun s person =>
      { s with replication.people :=
          Store.addPerson (e["data"]["active"] = .bool true) s.replication.people person })
      (fun person s t h => ((listPerson_ok).mp h).2) hlist
    rw [Store.foldl_addPerson] at ht1
    subst ht1
    have htype' : e["type"] = .str "host.update" := htype
    simp only [Store.nextPeople, Store.nextHosts, Store.nextEnrollment, htype', if_true, true_and,
      hpeople, Option.getD_some, Store.clearPresence]
    rfl
  · rw [if_neg htype] at h
    obtain ⟨-, rfl⟩ := pure_ok.mp h
    simp [Store.nextPeople, Store.nextHosts, Store.nextEnrollment, htype]

end

/-! ## Read state -/

namespace Store

/-- A later cursor replaces an earlier one. -/
def advance (cursor old : ReadCursor) : ReadCursor := if old < cursor then cursor else old

/-- The cursors after a participant read up to `cursor`. -/
def mergeCursor (reads : Map ReadState) (actor cid : String) (cursor : ReadCursor) :
    Map ReadState :=
  upsert reads actor {} fun r => { r with cursors := upsert r.cursors cid .origin (advance cursor) }

/-- The cursors and the waiting acknowledgements after one more acknowledgement. -/
def acknowledge (published : String → Option Published) (actor : String)
    (memory : Map ReadState × Map StrSet) (id : String) : Map ReadState × Map StrSet :=
  match published id with
  | some e => (mergeCursor memory.1 actor (strv e.event "conversation_id") (.of e.event), memory.2)
  | none => (memory.1, upsert memory.2 id ∅ fun actors => actors.insert actor)

/-- What Owner acknowledges with a `read.ack`. -/
def ackIds (e : Value) : List String :=
  if e["type"] = "read.ack" then ((Decode.strSet e["data"]["ids"]).map (·.toList)).getD [] else []

/-- The cursors that Owner publishes with a `read.cursor`. -/
def ownerCursors (e : Value) : List (String × ReadCursor) :=
  if e["type"] = "read.cursor" then
    ((Decode.map ReadCursor.decode e["data"]["cursors"]).map (·.toList)).getD []
  else []

/-- The cursors and the waiting acknowledgements after an event. -/
def nextMemory (published : String → Option Published) (memory : Map ReadState × Map StrSet)
    (e : Value) : Map ReadState × Map StrSet :=
  let memory := (ackIds e).foldl (acknowledge published "owner") memory
  ((ownerCursors e).foldl (fun reads entry => mergeCursor reads "owner" entry.1 entry.2) memory.1,
    memory.2)

/-- Owner's retained cursors after an event. -/
def nextRetained (retained : Map ReadCursor) (e : Value) : Map ReadCursor :=
  (ownerCursors e).foldl (fun retained entry => upsert retained entry.1 .origin (advance entry.2))
    retained

def reducedReads (s : Store) (e : Value) : Store :=
  let memory := nextMemory s.published (s.reads, s.readModel.pendingLegacy) e
  { s with
    reads := memory.1
    readModel.pendingLegacy := memory.2
    readModel.ownerRetained := nextRetained s.readModel.ownerRetained e }

theorem mergeLegacyMemory_eq {s : Store} {actor : String} {ids : List String} :
    s.mergeLegacyMemory actor ids
      = { s with
          reads := (ids.foldl (acknowledge s.published actor)
            (s.reads, s.readModel.pendingLegacy)).1
          readModel.pendingLegacy := (ids.foldl (acknowledge s.published actor)
            (s.reads, s.readModel.pendingLegacy)).2 } := by
  unfold mergeLegacyMemory
  induction ids generalizing s with
  | nil => rfl
  | cons id ids ih =>
    rw [List.foldl_cons, ih]
    cases h : s.published id with
    | some e => simp only [List.foldl_cons, acknowledge, h]; rfl
    | none => simp only [List.foldl_cons, acknowledge, h]; rfl

theorem foldl_retainCursor {s : Store} {cursors : List (String × ReadCursor)} :
    cursors.foldl retainCursor s
      = { s with
          reads := cursors.foldl
            (fun reads entry => mergeCursor reads "owner" entry.1 entry.2) s.reads
          readModel.ownerRetained := cursors.foldl
            (fun retained entry => upsert retained entry.1 .origin (advance entry.2))
            s.readModel.ownerRetained } := by
  induction cursors generalizing s with
  | nil => rfl
  | cons entry cursors ih =>
    rw [List.foldl_cons, ih]
    rfl

section

variable [Externals]

theorem validateReadEvent_ok {s : Store} {e : Value} {b : Bool} {ids : List String}
    (h : s.validateReadEvent e b = .ok ids) :
    (Decode.strSet e["data"]["ids"]).map (·.toList) = some ids := by
  unfold validateReadEvent at h
  simp only [except_bind_ok, except_refuse_ok, fromValue_ok, except_pure_ok] at h
  obtain ⟨_, -, set, hset, _, -, _, -, rfl⟩ := h
  rw [hset]
  rfl

theorem validateCursorEvent_ok {s : Store} {e : Value} {b : Bool}
    {cursors : List (String × ReadCursor)} (h : s.validateCursorEvent e b = .ok cursors) :
    (Decode.map ReadCursor.decode e["data"]["cursors"]).map (·.toList) = some cursors := by
  unfold validateCursorEvent at h
  simp only [except_bind_ok, except_refuse_ok, fromValue_ok, except_pure_ok] at h
  obtain ⟨_, -, map, hmap, _, -, _, -, rfl⟩ := h
  rw [hmap]
  rfl

end

end Store

section

variable [Externals]

theorem reducePrivateSync_ok {e : Value} {s t : Store} (h : reducePrivateSync e s = .ok ⟨⟩ t) :
    t = s.reducedReads e := by
  unfold reducePrivateSync at h
  unfold Store.reducedReads Store.nextMemory Store.nextRetained Store.ackIds Store.ownerCursors
  by_cases hack : e["type"] = "read.ack"
  · have hcursor : e["type"] ≠ "read.cursor" := by simp [hack]
    rw [if_pos hack] at h
    simp only [bind_query_ok, modify_ok] at h
    obtain ⟨ids, hids, rfl⟩ := h
    simp only [if_pos hack, if_neg hcursor, Store.validateReadEvent_ok hids, Option.getD_some,
      Store.mergeLegacyMemory_eq, List.foldl_nil]
  · rw [if_neg hack] at h
    by_cases hcursor : e["type"] = "read.cursor"
    · rw [if_pos hcursor] at h
      unfold reduceCursorEvent at h
      simp only [bind_query_ok, modify_ok] at h
      obtain ⟨cursors, hcursors, rfl⟩ := h
      simp only [if_neg hack, if_pos hcursor, Store.validateCursorEvent_ok hcursors,
        Option.getD_some, Store.foldl_retainCursor, List.foldl_nil]
    · rw [if_neg hcursor] at h
      obtain ⟨-, rfl⟩ := pure_ok.mp h
      simp only [if_neg hack, if_neg hcursor, List.foldl_nil]

end

/-! ## Reactions -/

namespace Store

/-- A reaction that the store may retain. -/
structure ReactionValid (s : Store) (e : Value) : Prop where
  actor : strv e["actor"] "id" ≠ ""
  emoji : strv e["data"] "emoji" ∈ emojis
  remove : e["data"]["remove"].isBool = true
  kind : e["actor"]["kind"] = .str (kindOf (strv e["actor"] "id"))
  identity : strv e["actor"] "id" = "owner" ∨ s.names.contains (strv e["actor"] "id") = true
  message : strv e["data"] "message_id" ≠ ""
  target : ∃ p, s.published (strv e["data"] "message_id") = some p
    ∧ p.event["type"] = "message.create" ∧ p.event["conversation_id"] = e["conversation_id"]
    ∧ s.visible (strv e["actor"] "id") (strv p.event "conversation_id") = true

theorem validateReaction_ok {s : Store} {e : Value} :
    s.validateReaction e = .ok ⟨⟩ ↔ s.ReactionValid e := by
  unfold validateReaction
  simp only [except_bind_ok, except_refuse_ok, except_okOr_ok, required_ok, exists_const,
    not_or, not_and, not_not]
  constructor
  · rintro ⟨_, ⟨rfl, hactor⟩, ⟨hemoji, hremove, hkind⟩, hidentity, _, ⟨rfl, hmessage⟩, p, hp,
      htype, hconv, hvisible⟩
    refine ⟨hactor, by simpa using hemoji, hremove, hkind, ?_, hmessage, p, hp, htype, hconv,
      hvisible⟩
    by_cases howner : strv e["actor"] "id" = "owner"
    · exact .inl howner
    · exact .inr (hidentity howner)
  · rintro ⟨hactor, hemoji, hremove, hkind, hidentity, hmessage, p, hp, htype, hconv, hvisible⟩
    refine ⟨_, ⟨rfl, hactor⟩, ⟨by simpa using hemoji, hremove, hkind⟩, ?_, _, ⟨rfl, hmessage⟩, p,
      hp, htype, hconv, hvisible⟩
    intro howner
    exact hidentity.resolve_left howner

theorem ReactionValid.emoji_ne {s : Store} {e : Value} (h : s.ReactionValid e) :
    strv e["data"] "emoji" ≠ "" := by
  intro hempty
  have := h.emoji
  rw [hempty] at this
  exact absurd this (by decide)

/-- What a reaction says: the later of two statements stands. -/
def laterReaction (e : Value) (old : Reaction) : Reaction :=
  if old.1 < .of e then
    (.of e, decide (e["data"]["remove"] ≠ .bool true), strv e["actor"] "name")
  else old

/-- The reactions after an event. -/
def nextReactions (reactions : Map (Map (Map Reaction))) (e : Value) :
    Map (Map (Map Reaction)) :=
  if e["type"] = "reaction" then
    upsert reactions (strv e["data"] "message_id") ∅ fun m =>
      upsert m (strv e["data"] "emoji") ∅ fun m =>
        upsert m (strv e["actor"] "id") noReaction (laterReaction e)
  else reactions

def reducedReactions (s : Store) (e : Value) : Store :=
  { s with readModel.reactions := nextReactions s.readModel.reactions e }

theorem reducedReactions_of {s : Store} {e : Value} (htype : e["type"] = "reaction") :
    s.reducedReactions e = s.upsertReaction (strv e["data"] "message_id") (strv e["data"] "emoji")
      (strv e["actor"] "id") (laterReaction e) := by
  rw [reducedReactions, nextReactions, if_pos htype]
  rfl

/-- The statement that a reaction would replace. -/
def priorReaction (s : Store) (e : Value) : Reaction :=
  s.reaction (strv e["data"] "message_id") (strv e["data"] "emoji") (strv e["actor"] "id")

theorem reaction_upsertReaction_id {s : Store} {message emoji actor : String} :
    (s.upsertReaction message emoji actor id).reaction message emoji actor
      = s.reaction message emoji actor := by
  simp [reaction, upsertReaction, entryD_upsert]

theorem upsertReaction_congr {s : Store} {message emoji actor : String}
    {f g : Reaction → Reaction}
    (h : f (s.reaction message emoji actor) = g (s.reaction message emoji actor)) :
    s.upsertReaction message emoji actor f = s.upsertReaction message emoji actor g := by
  unfold upsertReaction
  rw [upsert_congr]
  rw [upsert_congr]
  rw [upsert_congr]
  exact h

theorem upsertReaction_twice {s : Store} {message emoji actor : String}
    {f g : Reaction → Reaction} :
    (s.upsertReaction message emoji actor f).upsertReaction message emoji actor g
      = s.upsertReaction message emoji actor (g ∘ f) := by
  simp only [upsertReaction, upsert_twice, Function.comp_def]

/-- The later statement replaces the prior one. -/
theorem upsertReaction_later {s : Store} {e : Value}
    (h : (s.priorReaction e).1 < ReadCursor.of e) :
    (s.upsertReaction (strv e["data"] "message_id") (strv e["data"] "emoji")
        (strv e["actor"] "id") id).upsertReaction (strv e["data"] "message_id")
          (strv e["data"] "emoji") (strv e["actor"] "id")
          (fun _ => (.of e, decide (e["data"]["remove"] ≠ .bool true), strv e["actor"] "name"))
      = s.upsertReaction (strv e["data"] "message_id") (strv e["data"] "emoji")
          (strv e["actor"] "id") (laterReaction e) := by
  rw [upsertReaction_twice]
  refine upsertReaction_congr ?_
  show _ = laterReaction e (s.priorReaction e)
  rw [laterReaction, if_pos h]
  rfl

/-- An earlier statement changes nothing. -/
theorem upsertReaction_earlier {s : Store} {e : Value}
    (h : ¬ (s.priorReaction e).1 < ReadCursor.of e) :
    s.upsertReaction (strv e["data"] "message_id") (strv e["data"] "emoji")
        (strv e["actor"] "id") id
      = s.upsertReaction (strv e["data"] "message_id") (strv e["data"] "emoji")
          (strv e["actor"] "id") (laterReaction e) := by
  refine upsertReaction_congr ?_
  show _ = laterReaction e (s.priorReaction e)
  rw [laterReaction, if_neg h]
  rfl

end Store

theorem reduceReaction_ok {e : Value} {s t : Store} :
    reduceReaction e s = .ok ⟨⟩ t ↔
      (e["type"] = "reaction" → s.validateReaction e = .ok ⟨⟩
        ∧ ((s.priorReaction e).1 < ReadCursor.of e → strv e["actor"] "name" ≠ ""))
        ∧ t = s.reducedReactions e := by
  unfold reduceReaction
  by_cases htype : e["type"] = "reaction"
  · rw [if_pos htype, Store.reducedReactions_of htype]
    simp only [bind_query_ok, bind_check_ok, bind_modify_ok, bind_get_ok, required_ok,
      htype, true_implies]
    constructor
    · rintro ⟨_, hvalid, _, ⟨rfl, -⟩, _, ⟨rfl, -⟩, _, ⟨rfl, -⟩, h⟩
      rw [Store.reaction_upsertReaction_id] at h
      by_cases hlater : (s.priorReaction e).1 < ReadCursor.of e
      · rw [if_pos (by exact hlater)] at h
        simp only [bind_check_ok, required_ok, modify_ok] at h
        obtain ⟨_, ⟨rfl, hname⟩, rfl⟩ := h
        exact ⟨⟨hvalid, fun _ => hname⟩, Store.upsertReaction_later hlater⟩
      · rw [if_neg (by exact hlater)] at h
        obtain ⟨-, rfl⟩ := pure_ok.mp h
        exact ⟨⟨hvalid, fun h => absurd h hlater⟩, Store.upsertReaction_earlier hlater⟩
    · rintro ⟨⟨hvalid, hname⟩, rfl⟩
      have hv := Store.validateReaction_ok.mp hvalid
      refine ⟨_, hvalid, _, ⟨rfl, hv.message⟩, _, ⟨rfl, hv.emoji_ne⟩, _, ⟨rfl, hv.actor⟩, ?_⟩
      rw [Store.reaction_upsertReaction_id]
      by_cases hlater : (s.priorReaction e).1 < ReadCursor.of e
      · rw [if_pos (by exact hlater)]
        simp only [bind_check_ok, required_ok, modify_ok]
        exact ⟨_, ⟨rfl, hname hlater⟩, (Store.upsertReaction_later hlater)⟩
      · rw [if_neg (by exact hlater), pure_ok]
        exact ⟨rfl, Store.upsertReaction_earlier hlater⟩
  · rw [if_neg htype, pure_ok, Store.reducedReactions, Store.nextReactions, if_neg htype]
    constructor
    · rintro ⟨-, rfl⟩
      exact ⟨fun h => absurd h htype, rfl⟩
    · rintro ⟨-, rfl⟩
      exact ⟨rfl, rfl⟩

/-! ## Conversations and identities -/

namespace Store

/-- The DMs after an event. -/
def nextConversations (conversations : Map (List String)) (e : Value) : Map (List String) :=
  match e["data"].get? "conversation_create" with
  | none => conversations
  | some creation =>
    conversations.insert (strv creation "id") ((Decode.strs creation["members"]).getD [])

def reducedConversations (s : Store) (e : Value) : Store :=
  { s with conversations := nextConversations s.conversations e }

/-- The identity an event gives a participant. -/
def eventIdentity (e : Value) : Option (String × Name) :=
  (identityField e).bind fun n => (Name.decode n).map fun v => (strv n "participant_id", v)

/-- The newer of two identities stands. -/
def adoptName (names : Map Name) (id : String) (v : Name) : Map Name :=
  if names[id]?.all fun old => old.revision ≤ v.revision then names.insert id v else names

/-- The identities after an event. -/
def nextNames (names : Map Name) (e : Value) : Map Name :=
  match eventIdentity e with
  | none => names
  | some (id, v) => adoptName names id v

def reducedNames (s : Store) (e : Value) : Store :=
  { s with names := nextNames s.names e }

end Store

section

variable [Externals]

theorem reduceConversation_ok {e : Value} {s t : Store} (h : reduceConversation e s = .ok ⟨⟩ t) :
    t = s.reducedConversations e := by
  unfold reduceConversation at h
  unfold Store.reducedConversations Store.nextConversations
  cases hcreate : e["data"].get? "conversation_create" with
  | none =>
    rw [hcreate] at h
    exact (pure_ok.mp h).2.symm
  | some creation =>
    simp only [hcreate, bind_check_ok, bind_get_ok, bind_refuse_ok, required_ok, fromValue_ok,
      modify_ok] at h
    obtain ⟨_, ⟨rfl, -⟩, members, hmembers, -, rfl⟩ := h
    simp only [hmembers, Option.getD_some, Store.insertDm]

theorem reduceIdentity_ok {e : Value} {s t : Store} (h : reduceIdentity e s = .ok ⟨⟩ t) :
    t = s.reducedNames e := by
  unfold reduceIdentity at h
  unfold Store.reducedNames Store.nextNames Store.eventIdentity
  cases hfield : identityField e with
  | none =>
    rw [hfield] at h
    exact (pure_ok.mp h).2.symm
  | some n =>
    simp only [hfield, bind_check_ok, bind_get_ok, bind_refuse_ok, required_ok,
      fromValue_ok] at h
    obtain ⟨_, ⟨rfl, -⟩, v, hv, -, h⟩ := h
    simp only [Option.bind_some, hv, Option.map_some, Store.adoptName]
    split
    · rename_i hall
      rw [if_pos hall] at h
      exact (modify_ok.mp h).symm
    · rename_i hall
      rw [if_neg hall] at h
      exact (pure_ok.mp h).2.symm

end

/-! ## Settings and requests -/

namespace Store

/-- Owner's availability after an event. -/
def nextAvailability (availability e : Value) : Value :=
  if e["type"] = .str availabilityType then
    (e["data"].set "changed_at" e["created_at"]).set "event_id" e["id"]
  else availability

/-- The global norms after an event. -/
def nextNorms (norms e : Value) : Value :=
  if e["type"] = "norms.update" ∧ e["data"]["scope"] = "global" then e["data"] else norms

/-- The norms of the channels after an event. -/
def nextChannelNorms (norms : Map Value) (e : Value) : Map Value :=
  if e["type"] = "norms.update" ∧ hasPrefix (strv e["data"] "scope") "channel:" then
    norms.insert (strv e["data"] "scope") e["data"]
  else norms

/-- How an event's request is remembered. -/
def requestEntry (e : Value) : String × String × String :=
  (strv e "id", strv e["request"] "sha256", strv e["request"] "origin_daemon_id")

/-- The key of an event's request. -/
def requestOf (e : Value) : String := requestKey (strv e["actor"] "id") (strv e["request"] "key")

def reducedSettings (s : Store) (e : Value) : Store :=
  { s with
    ownerAvailability := nextAvailability s.ownerAvailability e
    norms := nextNorms s.norms e
    channelNorms := nextChannelNorms s.channelNorms e }

def reducedRequests (s : Store) (e : Value) : Store :=
  { s with requests := s.requests.insert (requestOf e) (requestEntry e) }

/-- What an event changes, except the history itself. -/
def reduced (s : Store) (e : Value) : Store :=
  let memory := nextMemory s.published (s.reads, s.readModel.pendingLegacy) e
  { s with
    channels := nextChannels s.channels e
    memberships := nextMemberships s.memberships e
    membershipRevisions := nextRevisions s.membershipRevisions e
    enrolled := nextEnrolled s.enrolled e
    enrollmentRevision := nextEnrollment s.daemonId s.enrollmentRevision e
    reads := memory.1
    conversations := nextConversations s.conversations e
    names := nextNames s.names e
    ownerAvailability := nextAvailability s.ownerAvailability e
    norms := nextNorms s.norms e
    channelNorms := nextChannelNorms s.channelNorms e
    requests := s.requests.insert (requestOf e) (requestEntry e)
    replication :=
      { s.replication with
        people := nextPeople s.replication.people e
        hosts := nextHosts s.replication.hosts e }
    readModel :=
      { s.readModel with
        pendingLegacy := memory.2
        ownerRetained := nextRetained s.readModel.ownerRetained e
        reactions := nextReactions s.readModel.reactions e } }

end Store

theorem reduceSettings_ok {e : Value} {s t : Store}
    (h : (do
      onlyIf (e["type"] = .str availabilityType) (reduceOwnerAvailability e)
      onlyIf (e["type"] = .str maintenanceType) (check (validateMaintenance e))
      onlyIf (e["type"] = "norms.update") (reduceNorms e) : Action PUnit) s = .ok ⟨⟩ t) :
    t = s.reducedSettings e := by
  simp only [bind_unit_ok, onlyIf_ok, check_ok] at h
  obtain ⟨s1, ⟨h1, h1'⟩, s2, ⟨h2, h2'⟩, h3, h3'⟩ := h
  have hs2 : s1 = s2 := by
    by_cases hm : e["type"] = .str maintenanceType
    · exact (h2 hm).2
    · exact h2' hm
  subst hs2
  unfold Store.reducedSettings Store.nextAvailability Store.nextNorms Store.nextChannelNorms
  by_cases havail : e["type"] = .str availabilityType
  · have hnorms : e["type"] ≠ "norms.update" := by simp [havail, availabilityType]
    obtain rfl := h3' hnorms
    have h1 := h1 havail
    unfold reduceOwnerAvailability at h1
    simp only [bind_check_ok, modify_ok] at h1
    obtain ⟨_, -, rfl⟩ := h1
    simp only [if_pos havail, hnorms, false_and, if_false]
  · obtain rfl := h1' havail
    by_cases hnorms : e["type"] = "norms.update"
    · have h3 := h3 hnorms
      unfold reduceNorms at h3
      by_cases hglobal : e["data"]["scope"] = "global"
      · have hchannel : ¬ hasPrefix (strv e["data"] "scope") "channel:" = true := by
          rw [strv_of_idx hglobal]
          decide
        rw [if_pos hglobal] at h3
        obtain rfl := modify_ok.mp h3
        simp [hnorms, hglobal, hchannel, availabilityType]
      · rw [if_neg hglobal] at h3
        by_cases hchannel : hasPrefix (strv e["data"] "scope") "channel:" = true
        · rw [if_pos hchannel] at h3
          simp only [bind_check_ok, required_ok, modify_ok] at h3
          obtain ⟨_, ⟨rfl, -⟩, rfl⟩ := h3
          simp [hnorms, hglobal, hchannel, availabilityType]
        · rw [if_neg hchannel] at h3
          obtain ⟨-, rfl⟩ := pure_ok.mp h3
          simp [hnorms, hglobal, hchannel, availabilityType]
    · obtain rfl := h3' hnorms
      simp [havail, hnorms]

theorem reduceRequest_ok {e : Value} {s t : Store} :
    reduceRequest e s = .ok ⟨⟩ t ↔
      (strv e "id" ≠ ""
        ∧ ∀ old, s.requests[Store.requestOf e]? = some old → old = Store.requestEntry e)
        ∧ t = s.reducedRequests e := by
  unfold reduceRequest
  simp only [bind_check_ok, bind_get_ok, bind_modify_ok, required_ok, refuse_ok]
  constructor
  · rintro ⟨_, ⟨rfl, hid⟩, hold, rfl⟩
    refine ⟨⟨hid, ?_⟩, rfl⟩
    intro old hsome
    change ¬ (s.requests[Store.requestOf e]?.any _) = true at hold
    rw [hsome] at hold
    simpa [Store.requestEntry] using hold
  · rintro ⟨⟨hid, hold⟩, rfl⟩
    refine ⟨_, ⟨rfl, hid⟩, ?_, rfl⟩
    show ¬ (s.requests[Store.requestOf e]?.any _) = true
    cases hsome : s.requests[Store.requestOf e]? with
    | none => simp
    | some old => simpa [Store.requestEntry] using hold old hsome

/-! ## The whole event -/

namespace Store

variable {s : Store} {e : Value}

@[simp] theorem reduced_channels : (s.reduced e).channels = nextChannels s.channels e := rfl
@[simp] theorem reduced_memberships :
    (s.reduced e).memberships = nextMemberships s.memberships e := rfl
@[simp] theorem reduced_membershipRevisions :
    (s.reduced e).membershipRevisions = nextRevisions s.membershipRevisions e := rfl
@[simp] theorem reduced_enrolled : (s.reduced e).enrolled = nextEnrolled s.enrolled e := rfl
@[simp] theorem reduced_hosts :
    (s.reduced e).replication.hosts = nextHosts s.replication.hosts e := rfl
@[simp] theorem reduced_people :
    (s.reduced e).replication.people = nextPeople s.replication.people e := rfl
@[simp] theorem reduced_conversations :
    (s.reduced e).conversations = nextConversations s.conversations e := rfl
@[simp] theorem reduced_names : (s.reduced e).names = nextNames s.names e := rfl
@[simp] theorem reduced_requests :
    (s.reduced e).requests = s.requests.insert (requestOf e) (requestEntry e) := rfl
@[simp] theorem reduced_reactions :
    (s.reduced e).readModel.reactions = nextReactions s.readModel.reactions e := rfl
@[simp] theorem reduced_events : (s.reduced e).events = s.events := rfl
@[simp] theorem reduced_eventIndex : (s.reduced e).eventIndex = s.eventIndex := rfl
@[simp] theorem reduced_receipts :
    (s.reduced e).replication.receipts = s.replication.receipts := rfl
@[simp] theorem reduced_rejections :
    (s.reduced e).replication.rejections = s.replication.rejections := rfl
@[simp] theorem reduced_position : (s.reduced e).position = s.position := rfl
@[simp] theorem reduced_degraded : (s.reduced e).degraded = s.degraded := rfl

end Store

/-- A successful reduction has one effect. -/
theorem reduce_ok [Externals] {e : Value} {s t : Store} (h : reduce e s = .ok ⟨⟩ t) :
    t = s.reduced e := by
  unfold reduce at h
  simp only [bind_unit_ok] at h
  obtain ⟨s1, h1, s2, h2, s3, h3, s4, h4, s5, h5, s6, h6, s7, h7, s8, h8, s9, h9, s10, h10, h11⟩ := h
  rw [reduceChannels_ok h1] at h2
  rw [reduceMembership_ok h2] at h3
  rw [reduceReplication_ok h3] at h4
  rw [reducePrivateSync_ok h4] at h5
  rw [(reduceReaction_ok.mp h5).2] at h6
  rw [reduceConversation_ok h6] at h7
  rw [reduceIdentity_ok h7] at h8
  have hsettings := reduceSettings_ok (s := _) (t := s10)
    (by simp only [bind_unit_ok]; exact ⟨s8, h8, s9, h9, h10⟩)
  rw [hsettings] at h11
  rw [(reduceRequest_ok.mp h11).2]
  simp only [Store.reduced, Store.reducedChannels, Store.reducedMembership, Store.reducedHosts,
    Store.reducedReads, Store.reducedReactions, Store.reducedConversations, Store.reducedNames,
    Store.reducedSettings, Store.reducedRequests]
  rfl

/-- An event without an ID is not reduced. -/
theorem reduce_required [Externals] {e : Value} {s t : Store} (h : reduce e s = .ok ⟨⟩ t) :
    strv e "id" ≠ "" := by
  unfold reduce at h
  simp only [bind_unit_ok] at h
  obtain ⟨_, -, _, -, _, -, _, -, _, -, _, -, _, -, _, -, _, -, _, -, hrequest⟩ := h
  exact (reduceRequest_ok.mp hrequest).1.1

/-! ## The read model -/

namespace Store

/-- The outbox after one more event: an event of this daemon that the hub has not decided
joins it. -/
def nextPending (s : Store) (e : Published) (index : Nat) : List Nat :=
  if e.event["origin_daemon_id"] = s.daemonId
      ∧ ¬ s.replication.receipts.contains (strv e.event "id")
      ∧ ¬ s.replication.rejections.contains (strv e.event "id") then
    s.readModel.pendingLocal ++ [index]
  else s.readModel.pendingLocal

/-- A conversation's indexes with one more timeline entry. -/
def addTimeline (e : Published) (index : Nat) (c : ConversationIndex) : ConversationIndex :=
  { c with timeline := insertSorted EntryLt (.of e.event, index) c.timeline }

/-- The timelines after one more event. -/
def nextTimelines (m : Map ConversationIndex) (e : Published) (index : Nat) :
    Map ConversationIndex :=
  if readableEvent e.event then upsert m (strv e.event "conversation_id") {} (addTimeline e index)
  else m

/-- The conversations' indexes after one more event. -/
def nextIndexes (m : Map ConversationIndex) (e : Published) (index : Nat) :
    Map ConversationIndex :=
  if e.event["type"] = "message.create" then
    upsert (nextTimelines m e index) (strv e.event "conversation_id") {} (indexMessage e index)
  else nextTimelines m e index

/-- The pins after one more event. -/
def nextPins (pins : List Nat) (e : Published) (index : Nat) : List Nat :=
  if e.event["type"] = "conversation.pin" then pins ++ [index] else pins

/-- The metadata after one more event: what is neither a message, nor a pin, nor private. -/
def nextMetadata (metadata : List Nat) (e : Published) (index : Nat) : List Nat :=
  if e.event["type"] ≠ "message.create" ∧ e.event["type"] ≠ "conversation.pin"
      ∧ ¬ privateTypes.contains (strv e.event "type") then metadata ++ [index]
  else metadata

/-- The cursors and the waiting acknowledgements once a message has arrived. -/
def settledMemory (memory : Map ReadState × Map StrSet) (e : Value) :
    Map ReadState × Map StrSet :=
  if e["type"] = "message.create" then
    match memory.2[strv e "id"]? with
    | some actors =>
      (actors.toList.foldl (fun reads actor =>
        mergeCursor reads actor (strv e "conversation_id") (.of e)) memory.1,
        memory.2.erase (strv e "id"))
    | none => memory
  else memory

/-- The store with one more event in its indexes. -/
def indexed (s : Store) (e : Published) (index : Nat) : Store :=
  let memory := settledMemory (s.reads, s.readModel.pendingLegacy) e.event
  { s with
    reads := memory.1
    readModel :=
      { s.readModel with
        pendingLocal := s.nextPending e index
        conversations := nextIndexes s.readModel.conversations e index
        pins := nextPins s.readModel.pins e index
        metadata := nextMetadata s.readModel.metadata e index
        pendingLegacy := memory.2 } }

theorem foldl_mergeCursorMemory {actors : List String} {cid : String} {cursor : ReadCursor}
    {s : Store} :
    actors.foldl (fun s actor => s.mergeCursorMemory actor cid cursor) s
      = { s with
          reads := actors.foldl (fun reads actor => mergeCursor reads actor cid cursor) s.reads } := by
  induction actors generalizing s with
  | nil => rfl
  | cons actor actors ih =>
    rw [List.foldl_cons, ih]
    rfl

theorem settleLegacy_eq {s : Store} {e : Value} (htype : e["type"] = "message.create") :
    s.settleLegacy e =
      { s with
        reads := (settledMemory (s.reads, s.readModel.pendingLegacy) e).1
        readModel.pendingLegacy := (settledMemory (s.reads, s.readModel.pendingLegacy) e).2 } := by
  unfold settleLegacy settledMemory
  rw [if_pos htype]
  cases s.readModel.pendingLegacy[strv e "id"]? with
  | none => rfl
  | some actors => simp only [foldl_mergeCursorMemory]

theorem indexPending_eq {s : Store} {e : Published} {index : Nat} :
    s.indexPending e index = { s with readModel.pendingLocal := s.nextPending e index } := by
  unfold indexPending nextPending
  split <;> rfl

theorem indexTimeline_eq {s : Store} {e : Published} {index : Nat} :
    s.indexTimeline e index =
      { s with readModel.conversations := nextTimelines s.readModel.conversations e index } := by
  unfold indexTimeline nextTimelines
  split <;> rfl

theorem indexReadModel_eq {s : Store} {e : Published} {index : Nat} :
    s.indexReadModel e index = s.indexed e index := by
  unfold indexReadModel indexed nextIndexes nextPins nextMetadata
  rw [indexPending_eq, indexTimeline_eq]
  by_cases hmessage : e.event["type"] = "message.create"
  · have hpin : e.event["type"] ≠ "conversation.pin" := by simp [hmessage]
    simp only [hmessage, settleLegacy_eq hmessage]
    simp
  · by_cases hpin : e.event["type"] = "conversation.pin"
    · simp [hpin, settledMemory]
    · by_cases hprivate : strv e.event "type" ∈ privateTypes
      · simp [hmessage, hpin, hprivate, settledMemory]
      · simp [hmessage, hpin, hprivate, settledMemory]

variable [Externals]

/-- The store with one more publication in its history. -/
def appended (s : Store) (p : Published) : Store :=
  { s.indexed p s.events.length with
    lookups := s.lookups.observe p.event p.position s.events.length
    eventIndex := s.eventIndex.insert (strv p.event "id") s.events.length
    events := s.events ++ [p] }

theorem pushPublished_eq {s : Store} {p : Published} : s.pushPublished p = s.appended p := by
  simp only [pushPublished, appended, indexReadModel_eq]
  rfl

end Store

end ClaudeManager
