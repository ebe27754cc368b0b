import ClaudeManager.Messaging.Ledger
import ClaudeManager.Messaging.Publish
import ClaudeManager.Messaging.Upload

/-!
# Keeping invariants over calls

* `Fresh` — the retained events use no identifier that this daemon has not minted yet
* `Composed` — what is known of an event that this daemon composes, where it commits it
* `Upkeep` — an invariant that commits of such events keep, and everything beside the ledger
* `Upkeep.publish` — a publication keeps such an invariant
-/

namespace ClaudeManager

open Json Containers Program

section

variable [Externals]

/-! ## Identifiers -/

/-- The attestation that an event carries. -/
def attestationText (e : Value) : Option String := e["data"]["identity_attestation"].asStr

/-- `b` is the event `a`, or one that it attests to. -/
inductive Carried : Value → Value → Prop
  | self {a : Value} : Carried a a
  | attested {a b c : Value} {text : String} : attestationText a = some text →
    fromSlice text = .ok b → Carried b c → Carried a c

/-- The ID of an event under the daemon's `n`-th identifier. -/
def Store.mintedId (s : Store) (n : Nat) : String :=
  s.daemonId ++ ":" ++ Externals.uuid s.daemonId n

/-- The event uses no identifier that is still to be minted. -/
def Past (s : Store) (a : Value) : Prop :=
  ∀ n, s.minted ≤ n → strv a "id" ≠ s.mintedId n
    ∧ ∀ item ∈ a["data"]["channels"].items, item["id"] ≠ .str (Externals.uuid s.daemonId n)

/-- The retained events use no identifier that is still to be minted. -/
def Fresh (s : Store) : Prop := ∀ p ∈ s.events, ∀ a, Carried p.event a → Past s a

variable {s t u : Store} {e a : Value}

theorem Carried.of_none (h : Carried e a) (hnone : attestationText e = none) : a = e := by
  cases h with
  | self => rfl
  | attested htext =>
    rw [hnone] at htext
    cases htext

theorem Past.mono (h : Past s a) (hdaemon : t.daemonId = s.daemonId) (hminted : s.minted ≤ t.minted) :
    Past t a := by
  intro n hn
  unfold Store.mintedId
  rw [hdaemon]
  exact h n (hminted.trans hn)

theorem Fresh.of_beside (h : Fresh s) (ht : Store.Beside s t) : Fresh t := by
  intro p hp a ha
  rw [ht.events] at hp
  exact (h p hp a ha).mono ht.daemonId ht.minted

/-- A commit keeps the store fresh, where the event and its attestation are. -/
theorem Fresh.extend (h : Fresh s) (he : ∀ a, Carried e a → Past s a) (hu : Extends e s u) :
    Fresh u := by
  intro p hp a ha
  refine Past.mono ?_ hu.daemonId hu.minted
  obtain ⟨hevents, -⟩ | ⟨q, rfl, -, -, -, hevents, -⟩ := hu.history
  · exact h p (hevents ▸ hp) a ha
  · rw [hevents] at hp
    rcases List.mem_append.mp hp with hp | hp
    · exact h p hp a ha
    · rw [List.mem_singleton.mp hp] at ha
      exact he a ha

/-- No retained event has an ID that is still to be minted. -/
theorem Fresh.hasEvent (h : Fresh s) (hs : Indexed s) {n : Nat} (hn : s.minted ≤ n) :
    s.hasEvent (s.mintedId n) = false := by
  refine Bool.eq_false_iff.mpr fun hhas => ?_
  obtain ⟨p, hp, hid⟩ := hs.hasEvent_iff.mp hhas
  exact ((h p hp p.event .self) n hn).1 hid

/-- Identifiers are minted once. -/
def MintsOnce : Prop := ∀ (daemon : String) (m n : Nat),
  Externals.uuid daemon m = Externals.uuid daemon n → m = n

theorem mintedId_inj (huuid : MintsOnce) {m n : Nat} (h : s.mintedId m = s.mintedId n) : m = n := by
  refine huuid s.daemonId m n (String.toList_injective ?_)
  have hl := congrArg String.toList h
  simp only [Store.mintedId, String.toList_append] at hl
  exact List.append_cancel_left hl

/-! ## Composed events -/

/-- No retained event lists a channel under this ID. -/
def Unlisted (s : Store) (id : Value) : Prop :=
  ∀ p ∈ s.events, ∀ item ∈ p.event["data"]["channels"].items, item["id"] ≠ id

/-- An attestation, as a message carries it. -/
structure Attestation (a : Value) : Prop where
  type : a["type"] = "identity.update"
  actor : strv a["actor"] "id" ≠ ""
  channels : a["data"]["channels"].items = []
  text : attestationText a = none

/-- What is known of an event that this daemon composes, where it commits it. -/
structure Composed (s : Store) (e : Value) : Prop where
  past : ∀ a, Carried e a → Past s a
  new : s.hasEvent (strv e "id") = false
  attests : ∀ text a, attestationText e = some text → fromSlice text = .ok a → Attestation a
  founds : ∀ item ∈ e["data"]["channels"].items, e["type"] = "channel.create"
    ∧ e["data"]["membership_version"] = .num 1 ∧ strv e["actor"] "id" ≠ "" ∧ Unlisted s item["id"]

/-- An event that a retained message attests to, and the history lacks. -/
structure Attested (s : Store) (e : Value) : Prop where
  new : s.hasEvent (strv e "id") = false
  carried : ∃ p ∈ s.events, ∃ text, attestationText p.event = some text ∧ fromSlice text = .ok e

/-- What the hub has checked of an upload, where it commits it. -/
structure Uploaded (s : Store) (host raw : String) (e : Value) : Prop where
  coordinator : s.isCoordinator = true
  envelope : s.validateReplicationEnvelope raw = .ok e
  origin : e["origin_daemon_id"] = .str host
  new : s.hasEvent (strv e "id") = false
  sender : ∃ actor, required e["actor"] "id" = .ok actor ∧ s.admitSender e host actor = .ok ⟨⟩
    ∧ if strv e "type" ≠ "message.create" then s.admitPrivate e actor = .ok ⟨⟩
      else ∃ stale, s.admitMessage e host actor = .ok stale

/-- What a replica has checked of an event of its hub, where it commits it. -/
structure Delivered (s : Store) (raw : String) (e receipt : Value) : Prop where
  envelope : s.validateReplicationEnvelope raw = .ok e
  new : s.hasEvent (strv e "id") = false
  checked : s.admitReplica e raw receipt = .ok ⟨⟩

/-- An invariant that commits of fitting events keep, and everything beside the ledger. -/
structure Upkeep (Fit : Store → Value → Prop) (I : Store → Prop) : Prop where
  beside : ∀ {s t}, Store.Beside s t → I s → I t
  commit : ∀ {s e} (bytes source : String) (receipt : Option Value), Fit s e → I s →
    I (after (commitBytes e bytes source receipt) s)
  composed : ∀ {s e}, I s → Composed s e → Fit s e
  attested : ∀ {s e}, I s → Attested s e → Fit s e
  uploaded : ∀ {s host raw e}, I s → Uploaded s host raw e → Fit s e
  delivered : ∀ {s raw e receipt}, I s → Delivered s raw e receipt → Fit s e
  new : ∀ {s e}, Fit s e → s.hasEvent (strv e "id") = false

/-- The invariant holds in a store that is indexed and fresh. -/
structure Held (I : Store → Prop) (s : Store) : Prop where
  holds : I s
  indexed : Indexed s
  fresh : Fresh s

variable {Fit : Store → Value → Prop} {I : Store → Prop}

namespace Upkeep

theorem held_beside (h : Upkeep Fit I) (hs : Held I s) (ht : Store.Beside s t) : Held I t :=
  ⟨h.beside ht hs.holds, hs.indexed.of_same ht.events ht.eventIndex ht.position,
    hs.fresh.of_beside ht⟩

/-- What stays beside the ledger keeps the invariant. -/
theorem of_beside (h : Upkeep Fit I) {α : Type} {m : Action α} (hm : Evolves Store.Beside m s) :
    Evolves (Keeps (Held I)) m s := fun hs => h.held_beside hs hm

theorem held_commit (h : Upkeep Fit I) (hs : Held I s) (hfit : Fit s e)
    (hpast : ∀ a, Carried e a → Past s a) (bytes source : String) (receipt : Option Value) :
    Held I (after (commitBytes e bytes source receipt) s) :=
  ⟨h.commit bytes source receipt hfit hs.holds,
    hs.indexed.commit (h.new hfit) (commitBytes_extends rfl),
    hs.fresh.extend hpast (commitBytes_extends rfl)⟩

/-- A commit of a composed event keeps the invariant. -/
theorem commit_composed (h : Upkeep Fit I) (hcomposed : Held I s → Composed s e) :
    Evolves (Keeps (Held I)) (ClaudeManager.commit e) s := by
  unfold ClaudeManager.commit
  exact .bind_get fun hs => h.held_commit hs (h.composed hs.holds (hcomposed hs)) (hcomposed hs).past
    _ _ _

end Upkeep

/-! ## Publishing -/

/-- A draft of which a composed event comes. -/
structure Draft.Sound (s : Store) (d : Draft) : Prop where
  plain : d.data["identity_attestation"].asStr = none
  founds : ∀ item ∈ d.data["channels"].items, d.type = "channel.create"
    ∧ d.data["membership_version"] = .num 1 ∧ d.actor ≠ "" ∧ Unlisted s item["id"]
    ∧ ∃ n < s.minted, item["id"] = .str (Externals.uuid s.daemonId n)

omit [Externals] in
theorem beside_mint : Store.Beside s s.mint :=
  ⟨rfl, Nat.le_refl _, Nat.le_succ _, .of_eq rfl, id⟩

theorem uuid_beside : Evolves Store.Beside uuid s := beside_mint

theorem event_ok_minted {d : Draft} {v : Value} (h : event d s = .ok v t) :
    Store.Beside s t ∧ t.minted = s.minted + 1 ∧ ∃ (s1 : Store) (time created : String),
      s1.daemonId = s.daemonId ∧ v = s1.eventOf d (Externals.uuid s.daemonId s.minted) time created := by
  unfold event at h
  rw [bind_query_ok] at h
  obtain ⟨time, -, h⟩ := h
  rw [bind_modify_ok, bind_uuid_ok, bind_now_ok, bind_get_ok] at h
  obtain ⟨rfl, rfl⟩ := pure_ok.mp h
  exact ⟨⟨rfl, Nat.le_refl _, Nat.le_succ _, .of_eq rfl, id⟩, rfl, _, _, _, rfl, rfl⟩

theorem event_beside {d : Draft} : Evolves Store.Beside (event d) s := by
  unfold event
  exact .bind_query fun _ _ => .bind_modify (.of_eq rfl rfl rfl rfl id) (.bind beside_mint
    fun _ _ _ => .bind (.of_eq rfl rfl rfl rfl id) fun _ _ _ => .bind_get .pure)

theorem eventOf_type {d : Draft} {id time created : String} :
    (s.eventOf d id time created)["type"] = .str d.type := by
  rw [Store.eventOf, idx_object]
  simp [List.lookup]

theorem eventOf_data {d : Draft} {id time created : String} :
    (s.eventOf d id time created)["data"] = d.data := by
  rw [Store.eventOf, idx_object]
  simp [List.lookup]

theorem eventOf_id {d : Draft} {id time created : String} :
    strv (s.eventOf d id time created) "id" = s.daemonId ++ ":" ++ id := by
  rw [Store.eventOf]
  simp [strv, get?_object, List.lookup]

theorem eventOf_actor {d : Draft} {id time created : String} :
    strv (s.eventOf d id time created)["actor"] "id" = d.actor := by
  rw [Store.eventOf, idx_object]
  simp [strv, get?_object, List.lookup]

/-- An event of a sound draft is a composed one. -/
theorem composed_event (huuid : MintsOnce) (hs : Indexed s) (hfresh : Fresh s) {d : Draft}
    (hd : d.Sound s) (h : event d s = .ok e t) : Composed t e := by
  obtain ⟨ht, hminted, s1, time, created, hdaemon, rfl⟩ := event_ok_minted h
  have hid : strv (s1.eventOf d (Externals.uuid s.daemonId s.minted) time created) "id"
      = s.mintedId s.minted := by
    rw [eventOf_id, hdaemon]
    rfl
  have hplain : attestationText (s1.eventOf d (Externals.uuid s.daemonId s.minted) time created)
      = none := by
    unfold attestationText
    rw [eventOf_data]
    exact hd.plain
  refine ⟨fun a ha n hn => ?_, ?_, fun text a htext => ?_, fun item hitem => ?_⟩
  · obtain rfl := ha.of_none hplain
    have hmid : t.mintedId n = s.mintedId n := by
      unfold Store.mintedId
      rw [ht.daemonId]
    rw [hid, hmid, ht.daemonId, eventOf_data]
    refine ⟨fun he => ?_, fun item hitem => ?_⟩
    · have := mintedId_inj huuid he
      omega
    · obtain ⟨-, -, -, -, m, hm, hitem⟩ := hd.founds item hitem
      rw [hitem]
      intro he
      have := huuid _ _ _ (Value.str.inj he)
      omega
  · rw [ht.hasEvent, hid]
    exact hfresh.hasEvent hs (Nat.le_refl _)
  · rw [hplain] at htext
    cases htext
  · rw [eventOf_data] at hitem
    obtain ⟨htype, hversion, hactor, hunlisted, -⟩ := hd.founds item hitem
    rw [eventOf_type, eventOf_data, eventOf_actor]
    refine ⟨congrArg Value.str htype, hversion, hactor, fun p hp => ?_⟩
    exact hunlisted p (ht.events ▸ hp)

/-- A publication keeps the invariant. -/
theorem Upkeep.publish (h : Upkeep Fit I) (huuid : MintsOnce) {d : Draft}
    (hd : Held I s → d.Sound s) : Evolves (Keeps (Held I)) (publish d) s := by
  unfold ClaudeManager.publish
  refine .assuming fun hs => .bind (h.of_beside (.onlyIf fun _ => .query)) fun _ t ht =>
    .bind (h.of_beside event_beside) fun e u he => h.commit_composed fun _ => ?_
  have hsame : t = s := by
    obtain ⟨hrun, hskip⟩ := onlyIf_ok.mp ht
    by_cases hc : ¬ localTypes.contains d.type
    · exact (query_ok.mp (hrun hc)).2.symm
    · exact (hskip hc).symm
  rw [hsame] at he
  exact composed_event huuid hs.indexed hs.fresh (hd hs) he

/-- A draft that lists no channels and attests to nothing. -/
theorem Draft.Sound.of_plain {d : Draft} (hplain : d.data["identity_attestation"].asStr = none)
    (hchannels : d.data["channels"].items = []) : d.Sound s := by
  refine ⟨hplain, fun item hitem => ?_⟩
  rw [hchannels] at hitem
  cases hitem

end

end ClaudeManager
