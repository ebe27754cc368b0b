import ClaudeManager.Messaging.Names

/-!
# Mentions

Whom a message mentions: the participants its sender lists, and those whom an `@token` of
its body names, where the token names exactly one member of the conversation. Everything
else comes back as a warning.
-/

namespace ClaudeManager

open Json Containers Program

section

variable [Externals]

/-! ## Tokens of a body -/

/-- A character before which an `@` belongs to a word, a path or an address. -/
def joinsWord (c : Char) : Bool := Externals.isAlphanumeric c || "_.-/@:+=\\".toList.contains c

def isTokenChar (c : Char) : Bool := Externals.isAlphanumeric c || "-_.".toList.contains c

/-- A token without its trailing punctuation. -/
def trimToken (token : List Char) : List Char :=
  (token.reverse.dropWhile fun c => ['.', '-', '_'].contains c).reverse

/-- The tokens of one line, outside its code spans. `skip` characters belong to a token that
was read already. -/
def lineTokens (prev : Option Char) (inCode : Bool) (skip : Nat) : List Char → List (List Char)
  | [] => []
  | c :: rest =>
    if skip > 0 then lineTokens (some c) inCode (skip - 1) rest
    else if c = '`' then lineTokens (some c) (!inCode) 0 rest
    else if inCode ∨ c ≠ '@' ∨ prev.any joinsWord then lineTokens (some c) inCode 0 rest
    else
      let token := rest.takeWhile isTokenChar
      trimToken token :: lineTokens (some c) inCode token.length rest

/-- The tokens of the lines, outside fenced blocks. -/
def fencedTokens (inFence : Bool) : List (List Char) → List (List Char)
  | [] => []
  | line :: rest =>
    if "```".toList.isPrefixOf (line.dropWhile isWhitespace) then fencedTokens (!inFence) rest
    else if inFence then fencedTokens inFence rest
    else lineTokens none false 0 line ++ fencedTokens inFence rest

/-- `@token`s in a message body, in order of first appearance and without the `@`. -/
def bodyMentionTokens (body : String) : List String :=
  (fencedTokens false (splitChars '\n' body.toList)).foldl (fun out token =>
    let token := String.ofList token
    if token = "" ∨ out.any fun t => nameKey t = nameKey token then out else out ++ [token]) []

/-! ## The plan -/

/-- Body words that look like broadcasts in other chat tools. -/
def broadcastTokens : List String := ["here", "channel", "everyone", "all"]

/-- `eq_ignore_ascii_case`. -/
def eqIgnoreAsciiCase (a b : String) : Bool := a.toList.map Char.toLower = b.toList.map Char.toLower

structure MentionPlan where
  mentions : StrSet := ∅
  resolved : List Value := []
  warnings : List Value := []

namespace Store

def participantDisplayName (s : Store) (id : String) (people : List Person) : String :=
  if id = "owner" then "Owner"
  else match s.names[id]?, people.find? (·.id = id) with
    | some n, _ => n.name
    | none, some p => p.name
    | none, none => id

/-- A shell has no agent to read messages. -/
def isShell (people : List Person) (id : String) : Bool :=
  people.any fun p => p.id = id && !readsMessages p

/-- The participant that one entry of `mentions[]` names. -/
def resolveMention (s : Store) (dmMembers : Option (List String)) (people : List Person)
    (raw : String) : Except ChatError String := do
  let id ← (s.resolveParticipantRef ((stripPrefix? raw "@").getD raw) people).orFail
    (err "not_found" "Mention participant not found")
    (err "ambiguous_mention" ("'" ++ raw ++
      "' names more than one participant; use chat_people and pass the participant ID"))
  refuse (isShell people id)
    (err "invalid_mention" "agent_only: bash is a shell and cannot receive agent chat")
  refuse (dmMembers.any fun v => ¬ v.contains id)
    (err "invalid_mention" "DM mentions are restricted to its members")
  return id

def addMention (plan : MentionPlan) (token id name source : String) : MentionPlan :=
  { plan with
    mentions := plan.mentions.insert id
    resolved := plan.resolved ++
      [object [("token", token), ("id", id), ("name", name), ("source", source)]] }

/-- The explicit mentions. One that does not resolve fails the send. -/
def paramMentions (s : Store) (dmMembers : Option (List String)) (people : List Person) :
    List String → MentionPlan → Except ChatError MentionPlan
  | [], plan => pure plan
  | raw :: rest, plan => do
    let id ← s.resolveMention dmMembers people raw
    let plan := if plan.mentions.contains id then plan
      else addMention plan raw id (s.participantDisplayName id people) "param"
    s.paramMentions dmMembers people rest plan

def warn (plan : MentionPlan) (warning : Value) : MentionPlan :=
  { plan with warnings := plan.warnings ++ [warning] }

/-- One token of the body. It never fails a send. -/
def bodyMention (s : Store) (actor : String) (isDm : Bool) (members : StrSet)
    (people : List Person) (plan : MentionPlan) (token : String) : MentionPlan :=
  let «at» := "@" ++ token
  if broadcastTokens.any fun b => eqIgnoreAsciiCase b token then
    warn plan (object [("code", "body_broadcast_not_promoted"), ("token", «at»),
      ("hint", if isDm then "DMs already notify their members" else
        "Body text does not notify the channel; pass mention_here=true to notify current members")])
  else if nameKey token = "owner" then
    warn plan (object [("code", "owner_not_promoted"), ("token", «at»),
      ("hint", "Body text never notifies Owner; use notify_user when Owner action is needed")])
  else match s.resolveParticipantRef token people with
    | .notFound => warn plan (object [("code", "unresolved_body_mention"), ("token", «at»),
        ("hint", "No participant has this name, so nobody was notified; resolve the recipient with chat_people and pass mentions=[\"<participant id>\"]")])
    | .ambiguous => warn plan (object [("code", "ambiguous_body_mention"), ("token", «at»),
        ("hint", "This name matches more than one participant, so nobody was notified; resolve with chat_people and pass mentions=[\"<participant id>\"]")])
    | .found id =>
      let name := s.participantDisplayName id people
      if id = actor ∨ plan.mentions.contains id then plan
      else if ¬ members.contains id then
        warn plan (object [("code", "body_mention_not_member"), ("token", «at»), ("id", id),
          ("name", name), ("hint", if isDm then
            "Not a member of this DM, so not notified; message them directly" else
            "Not a member of this channel, so not notified; pass mentions=[\"<participant id>\"] to notify them anyway")])
      else if plan.mentions.size ≥ 32 then
        warn plan (object [("code", "too_many_mentions"), ("token", «at»), ("id", id),
          ("name", name),
          ("hint", "A message can mention at most 32 participants; this one was not notified")])
      else addMention plan «at» id name "body"

/-- Whom a send mentions. `dmMembers` is a DM's fixed membership, none for a channel. -/
def planMentions (s : Store) (actor conv : String) (dmMembers : Option (List String)) (p : Value)
    (body : String) (people : List Person) : Except ChatError MentionPlan := do
  let plan ← s.paramMentions dmMembers people (p["mentions"].items.filterMap Value.asStr) {}
  let members : StrSet := match dmMembers with
    | some m => .ofList m
    | none => entryD s.memberships conv ∅
  return (bodyMentionTokens body).foldl
    (s.bodyMention actor dmMembers.isSome members people) plan

end Store

end

end ClaudeManager
