import ClaudeManager.Messaging.Journal

/-!
# Channel settings

A channel's settings are not stored. They are read off the retained metadata events.
-/

namespace ClaudeManager

open Json Containers

/-- The settings a channel starts from. -/
def channelBase (path id : String) : Value :=
  object [("path", path), ("id", id), ("name", path), ("revision", id), ("kind", "channel"),
    ("description", ""), ("created_by", "owner"), ("admins", .arr []),
    ("allow_agent_edits", .bool false), ("default_join", .bool false), ("archived", .bool false)]

/-- The fields that a creation record may set. -/
def creationFields : List String :=
  ["name", "description", "admins", "allow_agent_edits", "default_join", "archived"]

/-- The settings after a creation record; only its first entry for the channel applies. -/
def applyCreation (id : String) (e channel : Value) : Value :=
  match e["data"]["channels"].items.find? fun item => item["id"] = .str id with
  | none => channel
  | some created =>
    let creator := if e["actor"]["id"] = "system" then "owner" else strv e["actor"] "id"
    let channel := (channel.set "created_by" creator).set "admins"
      (if creator = "owner" then .arr [] else .arr [.str creator])
    creationFields.foldl (fun channel key =>
      match created.get? key with
      | some value => channel.set key value
      | none => channel) channel

/-- The settings of channel `id` after one more metadata event. -/
def applyChannelEvent (id : String) (channel e : Value) : Value :=
  let channel := applyCreation id e channel
  let channel :=
    if e["type"] = "channel.update" ∧ e["data"]["channel"]["id"] = .str id then
      e["data"]["channel"]
    else channel
  if e["type"] = "channel.membership.initialize" ∧ e["data"]["channel_id"] = .str id then
    channel.set "default_join" e["data"]["default_join"]
  else channel

namespace Store

/-- A channel's settings as of position `high`. -/
def channelAt (s : Store) (path id : String) (high : Nat) : Value :=
  ((s.readModel.metadata.filterMap (s.events[·]?)).filter (·.position ≤ high)).foldl
    (fun channel p => applyChannelEvent id channel p.event) (channelBase path id)

def withMembership (s : Store) (id : String) (channel : Value) : Value :=
  (channel.set "member_count" (.num ((s.memberships[id]?.map (·.size)).getD 0))).set
    "membership_revision" (optStr s.membershipRevisions[id]?)

def channelInfo (s : Store) (path id : String) : Value :=
  s.withMembership id (s.channelAt path id s.position)

end Store

end ClaudeManager
