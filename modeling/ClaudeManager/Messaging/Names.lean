import ClaudeManager.Messaging.Publish

/-!
# Participant names

A participant claims a name with its first message, renames itself, or is named by the
scheduler when it becomes a continuous task's orchestrator. A collision is resolved by a
suffix taken from a hash of the participant's ID.
-/

namespace ClaudeManager

open Json Containers Program

section

variable [Externals]

/-! ## Name keys -/

def normalize (s : String) : String :=
  joinWords (Externals.nfkc (Externals.caseFold (Externals.nfkc s))) " "

def dashedName (s : String) : String := joinWords s "-"

def nameKey (s : String) : String := dashedName (normalize s)

namespace Name

/-- The keys a participant holds: those of its name and of its aliases. -/
def keys (n : Name) : List String := (n.name :: n.aliases).map nameKey

end Name

/-- Keys that no participant may hold. -/
def reservedKeys : List String := ["owner", "system"]

/-! ## Allocation -/

namespace Store

/-- Another participant, not released, holds the key of `name`. -/
def occupied (s : Store) (actor name : String) : Bool :=
  s.names.toList.any fun e =>
    e.1 ≠ actor && !e.2.released && e.2.keys.contains (nameKey name)

/-- `base`, shortened to make room for a suffix of `len` digits. -/
def suffixed (actor base : String) (len : Nat) : String :=
  let tail := String.ofList ('-' :: (hash actor).toList.take len)
  let take := 40 - (Externals.graphemes tail).length
  String.join ((Externals.graphemes base).take take) ++ tail

/-- The first spelling of `base` that nobody else holds. -/
def freeSpelling (s : Store) (actor base : String) : Except ChatError String :=
  let candidates := base :: (List.range' 3 30).map (suffixed actor base)
  okOr (candidates.find? fun name => !s.occupied actor name)
    (err "name_conflict" "No unique name available")

/-- The checks of a name that do not depend on who holds it. -/
def checkName (s : Store) (actor base : String) : Except ChatError String := do
  refuse (base.toList.any isControl) (err "invalid_name" "Choose a name without controls")
  let base := dashedName base
  let count := (Externals.graphemes base).length
  refuse (¬ (2 ≤ count ∧ count ≤ 40))
    (err "invalid_name" "Choose a name of 2–40 characters without controls")
  refuse (reservedKeys.contains (nameKey base))
    (err "reserved_name" "Owner and System are reserved")
  refuse (hasSuffix (nameKey base) "-orchestrator" ∧ ¬ s.isTaskSubscriptionActor actor)
    (err "reserved_name" "Names ending in -orchestrator are reserved for the session bound as a continuous task's parent; choose a short codename")
  return base

/-- The aliases of a participant that takes `name`. -/
def nextAliases (old : Option Name) (name : String) : List String :=
  match old with
  | none => []
  | some old =>
    if old.name ≠ name ∧ ¬ old.aliases.contains old.name then old.aliases ++ [old.name]
    else old.aliases

end Store

/-- The revision of a participant's next name. -/
def nextRevision : Option Name → Except ChatError Nat
  | none => pure 1
  | some old => checkedAdd old.revision (err "revision_overflow" "Name revision exhausted")

/-- The identity that `actor` gets when it asks for `base`. -/
def allocate (actor base uid : String) : Action Name := do
  let base ← query (·.checkName actor base)
  let name ← query (·.freeSpelling actor base)
  let old := (← get).names[actor]?
  let revision ← check (nextRevision old)
  let revisionId ← uuid
  return ⟨name, revision, revisionId, Store.nextAliases old name, uid, false⟩

/-- An identity under the participant it belongs to. -/
def identityOf (n : Name) (actor : String) : Value := n.encode.set "participant_id" actor

/-! ## Renaming -/

/-- The request's initiator, where the caller authenticated one. -/
def initiatorOf (actor : String) (p : Value) : String :=
  (textAt p "_authenticated_actor").getD actor

/-- Whether the rename is a first claim; a later one names the revision it replaces. -/
def Store.checkRevision (s : Store) (actor : String) (p : Value) : Except ChatError Bool :=
  match s.names[actor]? with
  | none =>
    if p["expected_name_revision"] = .null then pure true
    else throw (err "not_enrolled" "This session has not chosen a messaging name yet")
  | some old => do
    refuse (p["expected_name_revision"].asU64 ≠ some old.revision)
      (err "name_revision_conflict" ("Current name revision is " ++ toString old.revision))
    return false

def rename (actor uid : String) (p : Value) : Action Value := do
  let initiator := initiatorOf actor p
  let request ← query (·.request initiator p "identity.update")
  match request.prior with
  | some e => return e
  | none =>
    let first ← query (·.checkRevision actor p)
    let name ← check (required p "name")
    let n ← allocate actor name uid
    publish
      { type := "identity.update"
        body := (if first then "Session named " else "Session renamed to ") ++ n.name
        data := object [("identity", identityOf n actor)]
        actor := initiator
        name := if initiator = "owner" then "Owner" else n.name
        kind := kindOf initiator
        key := request.key
        digest := request.digest }

/-! ## Scheduler names -/

/-- The request key under which the scheduler releases one prior holder. -/
def releaseKey (key prior : String) : String := key ++ ":release:" ++ hash prior

/-- A prior orchestrator gives up its name, where it still holds it. -/
def releaseName (actor target key prior : String) : Action PUnit := do
  let s ← get
  match s.names[prior]? with
  | none => pure ⟨⟩
  | some old =>
    onlyIf (prior ≠ actor ∧ ¬ old.released ∧ old.keys.contains target
        ∧ (s.priorSystemEvent (releaseKey key prior)).isNone) do
      let revision ← check (nextRevision (some old))
      let revisionId ← uuid
      let released := { old with released := true, revision, revisionId }
      let _ ← publish (systemDraft "identity.update"
        (old.name ++ " released the name " ++ old.name)
        (object [("identity", identityOf released prior), ("record_kind", "release")])
        (releaseKey key prior))

/-- Name the session bound as a continuous task's parent. -/
def assignTaskName (actor uid name : String) (release : List String) (key : String) :
    Action (Option Value) := do
  let s ← get
  if s.names[actor]?.any fun n => nameKey n.name = nameKey name && !n.released then
    return none
  else match s.priorSystemEvent key with
    | some e => return some e
    | none =>
      query (·.sharedMutationAllowed)
      release.forM (releaseName actor (nameKey name) key)
      let n ← allocate actor name uid
      let e ← publish (systemDraft "identity.update" ("Session named " ++ n.name)
        (object [("identity", identityOf n actor), ("record_kind", "scheduler_assignment")]) key)
      return some e

/-! ## Startup normalization -/

/-- Give one participant the dashed spelling of its name. -/
def normalizeName (entry : String × Name) : Action PUnit := do
  let (actor, old) := entry
  let n ← allocate actor old.name old.sessionUid
  let _ ← publish (systemDraft "identity.update"
    ("System normalized session name to " ++ n.name)
    (object [("identity", identityOf n actor)])
    ("normalize-name-v1:" ++ actor ++ ":" ++ old.revisionId))

def normalizeExistingNames : Action PUnit := do
  let pending := (← get).names.toList.filter fun e => dashedName e.2.name ≠ e.2.name
  pending.forM normalizeName

/-! ## Resolving -/

inductive ParticipantRef where
  | found (id : String)
  | notFound
  | ambiguous
  deriving DecidableEq

/-- The participant, or the failure of a reference that names nobody or more than one. -/
def ParticipantRef.orFail (missing several : ChatError) : ParticipantRef → Except ChatError String
  | .found id => pure id
  | .notFound => throw missing
  | .ambiguous => throw several

namespace Store

/-- The participants one of whose spellings matches `s` under `spelling`. -/
def holdersBy (s : Store) (spelling : String → String) (ref : String) : List (String × Name) :=
  s.names.toList.filter fun e =>
    (e.2.name :: e.2.aliases).any fun a => spelling a = spelling ref

/-- A participant ID, else a current name or alias by normalized spelling, then by key. A
released name yields to the participant holding it now. -/
def resolveParticipantRef (s : Store) (ref : String) (people : List Person) : ParticipantRef :=
  if ref = "owner" ∨ s.names.contains ref ∨ people.any (·.id = ref) then .found ref
  else
    let exact := s.holdersBy normalize ref
    let hits := if exact.isEmpty then s.holdersBy nameKey ref else exact
    let hits :=
      if hits.length > 1 ∧ hits.any (fun e => !e.2.released) then
        hits.filter fun e => !e.2.released
      else hits
    match hits with
    | [] => .notFound
    | [hit] => .found hit.1
    | _ => .ambiguous

end Store

/-! ## Task subscriptions -/

/-- `next` is older than the binding it would replace, or conflicts with it. -/
def staleFor (next old : TaskBinding) : Bool :=
  old.taskId ≠ next.taskId || old.channelId ≠ next.channelId || old.revision > next.revision
    || (old.revision = next.revision && old.actor ≠ next.actor)

/-- Bind a task's subscription to a session. The session's watch is not modelled. -/
def bindTaskSubscription (next : TaskBinding) : Action PUnit := do
  let s ← get
  check (uuidOr next.id (err "invalid_binding" "Invalid subscription identity"))
  refuse (¬ s.hasChannel next.channelId ∨ ¬ hasPrefix next.actor (agentPrefix s.daemonId))
    (err "invalid_binding"
      "Task subscription requires a known channel and a local scheduler session")
  refuse (s.taskBindings[next.id]?.any (staleFor next))
    (err "stale_binding" "Task subscription binding is stale or conflicts")
  onlyIf (s.taskBindings[next.id]? ≠ some next) do
    query (·.ensureMessagingWritable)
    query (·.notDegraded)
    modify fun s => { s with taskBindings := s.taskBindings.insert next.id next }

/-- Deactivate every subscription that is not listed. -/
def fenceTaskSubscriptions (active : StrSet) : Action PUnit :=
  modify fun s =>
    { s with
      taskBindings := s.taskBindings.map fun _ b =>
        if b.active && !active.contains b.id then { b with active := false } else b }

end

end ClaudeManager
