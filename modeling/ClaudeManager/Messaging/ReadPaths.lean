import ClaudeManager.Messaging.Read

/-!
# Reading by index and by arrival

* `mem_messageCandidates` — what the indexes of a conversation offer to a query
* `items_indexed`, `items_arrived` — the items of a page that is large enough
* `reads_agree` — the two ways supply the same messages, except for the actor's own mentions
-/

namespace ClaudeManager

open Json Containers Program

section

variable {s : Store} {actor cid : String}

/-! ## Candidates -/

theorem between_suffix {α : Type} {key : α → ReadCursor} {v : List α} {lower : Option ReadCursor} :
    Store.between key v lower none = Store.suffix key v lower := by
  have hle : (lower.elim 0 fun k => (v.takeWhile fun x => key x ≤ k).length) ≤ v.length := by
    cases lower with
    | none => exact Nat.zero_le _
    | some k => exact (List.takeWhile_sublist _).length_le
  unfold Store.between Store.suffix
  simp only [Option.elim_none, List.take_length]
  rw [Nat.min_eq_left hle]

/-- Lookups that all succeed keep what is said of the keys. -/
theorem filterMap_map {α β γ : Type} {f : α → Option β} {g : β → γ} {key : α → γ} :
    ∀ {l : List α}, (∀ x ∈ l, ∃ p, f x = some p ∧ g p = key x) →
      (l.filterMap f).map g = l.map key
  | [], _ => rfl
  | x :: l, h => by
    obtain ⟨p, hp, hkey⟩ := h x List.mem_cons_self
    rw [List.filterMap_cons, hp, List.map_cons, List.map_cons, hkey,
      filterMap_map fun y hy => h y (List.mem_cons_of_mem x hy)]

/-- What a query may skip of a conversation: nothing, or what the actor has read. -/
def Store.beyond (s : Store) (actor cid : String) (unread : Bool) (k : ReadCursor) : Bool :=
  Store.isAfter (if unread then s.cursor actor cid else none) k

/-- The kind of events that a conversation's index lists for a query. -/
def candidateOf (cid actor : String) (mentions : Bool) (e : Value) : Bool :=
  if mentions then addressedTo cid actor e else readableOf cid e

theorem mem_directed {α : Type} {newest : Bool} {v : List α} {x : α} :
    x ∈ (if newest = true then v.reverse else v) ↔ x ∈ v := by
  split
  · exact List.mem_reverse
  · exact Iff.rfl

/-- What the first page's candidates are: the events of the kind, beyond what is skipped, each
once. -/
theorem mem_messageCandidates (hs : Indexed s) (ht : Tallied s) {newest unread mentions : Bool} :
    (∀ e, e ∈ s.messageCandidates actor cid none newest unread mentions ↔
        e ∈ s.events ∧ candidateOf cid actor mentions e.event = true
          ∧ s.beyond actor cid unread e.cursor = true)
      ∧ (s.messageCandidates actor cid none newest unread mentions).Nodup := by
  have htally := ht cid
  have hlower : (if newest = true then (if unread = true then s.cursor actor cid else none)
      else Store.later (if unread = true then s.cursor actor cid else none) none)
      = if unread = true then s.cursor actor cid else none := by
    cases newest with
    | true => rfl
    | false => cases (if unread = true then s.cursor actor cid else none) <;> rfl
  unfold entryD at htally
  unfold Store.messageCandidates candidateOf Store.beyond
  cases hindex : s.readModel.conversations[cid]? with
  | none =>
    rw [hindex] at htally
    refine ⟨fun e => iff_of_false List.not_mem_nil fun ⟨he, hkind, _⟩ => ?_, List.nodup_nil⟩
    obtain ⟨i, hi⟩ := List.mem_iff_getElem?.mp he
    cases mentions with
    | true =>
      refine absurd ((htally.messages.mem_iff (e.cursor, i)).mpr ⟨e, hi, ?_, rfl⟩) List.not_mem_nil
      exact (addressedTo_iff.mp hkind).1
    | false =>
      exact absurd ((htally.timeline.mem_iff (e.cursor, i)).mpr ⟨e, hi, hkind, rfl⟩) List.not_mem_nil
  | some c =>
    rw [hindex] at htally
    simp only [hlower, ite_self, between_suffix]
    generalize (if unread = true then s.cursor actor cid else none) = read
    cases mentions with
    | true =>
      have hkeys := htally.mentions actor
      simp only [Option.getD_some] at hkeys
      simp only [if_true]
      have hsuffix : ∀ k, k ∈ Store.suffix id (entryD c.mentions actor []) read ↔
          KeyOf s.events (addressedTo cid actor) k ∧ Store.isAfter read k = true := fun k => by
        rw [@Store.mem_suffix _ _ _ id (hkeys.sorted.imp le_of_lt), hkeys.mem_iff]
        rfl
      have hfound : ∀ k ∈ (if newest = true then (Store.suffix id (entryD c.mentions actor []) read).reverse
          else Store.suffix id (entryD c.mentions actor []) read),
          ∃ p, s.published k.eventId = some p ∧ p.cursor = k := fun k hk => by
        obtain ⟨⟨p, hp, -, rfl⟩, -⟩ := (hsuffix k).mp (mem_directed.mp hk)
        exact ⟨p, hs.published_iff.mpr ⟨hp, rfl⟩, rfl⟩
      refine ⟨fun e => ?_, ?_⟩
      · rw [List.mem_filterMap]
        constructor
        · rintro ⟨k, hk, he⟩
          obtain ⟨⟨p, hp, hq, rfl⟩, hafter⟩ := (hsuffix k).mp (mem_directed.mp hk)
          obtain rfl := Option.some.inj ((hs.published_iff.mpr ⟨hp, rfl⟩).symm.trans he)
          exact ⟨hp, hq, hafter⟩
        · rintro ⟨he, hq, hafter⟩
          refine ⟨e.cursor, mem_directed.mpr ((hsuffix _).mpr ⟨⟨e, he, hq, rfl⟩, hafter⟩), ?_⟩
          exact hs.published_iff.mpr ⟨he, rfl⟩
      · refine List.Nodup.of_map Published.cursor ?_
        rw [filterMap_map hfound, List.map_id']
        have hnodup : (Store.suffix id (entryD c.mentions actor []) read).Nodup :=
          (hkeys.sorted.imp ne_of_lt).sublist (List.drop_sublist _ _)
        split
        · exact List.nodup_reverse.mpr hnodup
        · exact hnodup
    | false =>
      have hplaced := htally.timeline
      simp only [Option.getD_some] at hplaced
      simp only [Bool.false_eq_true, if_false]
      have hsuffix : ∀ x, x ∈ Store.suffix Prod.fst c.timeline read ↔
          PlacedAt s.events (readableOf cid) Published.cursor x ∧ Store.isAfter read x.1 = true :=
        fun x => by
          rw [Store.mem_suffix (hplaced.sorted.imp fun hab => hab.elim le_of_lt fun hab => hab.1.le),
            hplaced.mem_iff]
      have hfound : ∀ x ∈ (if newest = true then (Store.suffix Prod.fst c.timeline read).reverse
          else Store.suffix Prod.fst c.timeline read),
          ∃ p, s.events[x.2]? = some p ∧ p.cursor = x.1 := fun x hx => by
        obtain ⟨⟨p, hp, -, hkey⟩, -⟩ := (hsuffix x).mp (mem_directed.mp hx)
        exact ⟨p, hp, hkey⟩
      refine ⟨fun e => ?_, ?_⟩
      · rw [List.mem_filterMap]
        constructor
        · rintro ⟨x, hx, he⟩
          obtain ⟨⟨p, hp, hq, hkey⟩, hafter⟩ := (hsuffix x).mp (mem_directed.mp hx)
          obtain rfl := Option.some.inj (hp.symm.trans he)
          exact ⟨List.mem_of_getElem? hp, hq, hkey ▸ hafter⟩
        · rintro ⟨he, hq, hafter⟩
          obtain ⟨i, hi⟩ := List.mem_iff_getElem?.mp he
          exact ⟨(e.cursor, i), mem_directed.mpr ((hsuffix _).mpr ⟨⟨e, hi, hq, rfl⟩, hafter⟩), hi⟩
      · refine List.Nodup.of_map Published.cursor ?_
        rw [filterMap_map hfound]
        have hnodup : ((Store.suffix Prod.fst c.timeline read).map Prod.fst).Nodup :=
          (placed_nodup hs hplaced).sublist ((List.drop_sublist _ _).map _)
        split
        · rw [List.map_reverse]
          exact List.nodup_reverse.mpr hnodup
        · exact hnodup

/-! ## Items -/

/-- A selection of the history that lists nothing twice is no longer than it. -/
theorem length_le_events {l : List Published} (hnodup : l.Nodup) (hsub : ∀ e ∈ l, e ∈ s.events) :
    l.length ≤ s.events.length := (List.subperm_of_subset hnodup hsub).length_le

variable [Instants] {w : Watchers} {q : Query} {limit : Nat}

/-- What the filter says of an event that it accepts. -/
structure Accepted (s : Store) (w : Watchers) (actor : String) (q : Query) (e : Published) : Prop where
  visible : s.visible actor (strv e.event "conversation_id") = true
  conversation : q.conversation.all (· = strv e.event "conversation_id") = true
  bound : e.position ≤ s.position ∧ q.floor < e.position
  mentions : q.mentionsOnly = true → actor ∈ mentionRecipients e.event
  incoming : q.broad = true → s.incoming w actor q e = true
  unread : q.unreadOnly = true → s.isRead actor e.event = false

theorem accepted (h : s.accepts w actor q s.position e = true) : Accepted s w actor q e := by
  unfold Store.accepts at h
  simp only [Bool.and_eq_true, Bool.or_eq_true, Bool.not_eq_true', decide_eq_true_eq,
    List.contains_iff_mem] at h
  obtain ⟨⟨⟨⟨⟨⟨⟨⟨⟨⟨⟨⟨⟨⟨-, -⟩, -⟩, -⟩, hhigh⟩, hlow⟩, hvisible⟩, hconv⟩, -⟩, hmentions⟩, hbroad⟩,
    hunread⟩, -⟩, -⟩, -⟩ := h
  refine ⟨hvisible, hconv, ⟨hhigh, hlow⟩, fun hq => ?_, fun hq => ?_, fun hq => ?_⟩
  · exact hmentions.resolve_left (by simp [hq])
  · exact hbroad.resolve_left (by simp [hq])
  · exact (hunread.resolve_left (by simp [hq])).1

omit [Instants] in
/-- What the actor has not read lies beyond its cursor. -/
theorem beyond_of_accepted {e : Published} (h : Accepted s w actor q e) :
    s.beyond actor (strv e.event "conversation_id") q.unreadOnly e.cursor = true := by
  unfold Store.beyond
  cases hq : q.unreadOnly with
  | false => rfl
  | true =>
    have hread := h.unread hq
    unfold Store.isRead at hread
    rw [Bool.or_eq_false_iff] at hread
    rw [if_pos rfl]
    unfold Store.isAfter
    cases hcursor : s.cursor actor (strv e.event "conversation_id") with
    | none => rfl
    | some r =>
      rw [hcursor] at hread
      show decide (r < e.cursor) = true
      rw [decide_eq_true_eq, ← not_le]
      exact of_decide_eq_false hread.2

/-- The events that the indexes of their own conversation offer. -/
def Store.offers (s : Store) (w : Watchers) (actor : String) (q : Query) (e : Published) : Bool :=
  candidateOf (strv e.event "conversation_id") actor
    (s.readsMentions w actor (strv e.event "conversation_id") q) e.event

omit [Instants] in
/-- An event is offered in its own conversation. -/
theorem candidateOf_conversation {mentions : Bool} {e : Value}
    (h : candidateOf cid actor mentions e = true) : strv e "conversation_id" = cid := by
  unfold candidateOf at h
  split at h
  · exact (messageOf_iff.mp (addressedTo_iff.mp h).1).2
  · exact (readableOf_iff.mp h).2

/-- One conversation's share of a page that is large enough. -/
theorem mem_byIndex (hs : Indexed s) (ht : Tallied s) (hlimit : s.events.length ≤ limit) :
    (∀ e, e ∈ s.byIndex w actor q s.position none limit cid ↔
        e ∈ s.events ∧ s.accepts w actor q s.position e = true ∧ s.offers w actor q e = true
          ∧ strv e.event "conversation_id" = cid)
      ∧ (s.byIndex w actor q s.position none limit cid).Nodup := by
  obtain ⟨hmem, hnodup⟩ := @mem_messageCandidates s actor cid hs ht q.newest q.unreadOnly
    (s.readsMentions w actor cid q)
  have hfilter := hnodup.filter (s.accepts w actor q s.position)
  have hlength := length_le_events hfilter fun e he => ((hmem e).mp (List.mem_filter.mp he).1).1
  unfold Store.byIndex
  rw [List.take_of_length_le (by omega)]
  refine ⟨fun e => ?_, hfilter⟩
  rw [List.mem_filter, hmem]
  constructor
  · rintro ⟨⟨he, hkind, -⟩, haccepts⟩
    obtain rfl := candidateOf_conversation hkind
    exact ⟨he, haccepts, hkind, rfl⟩
  · rintro ⟨he, haccepts, hkind, rfl⟩
    exact ⟨⟨he, hkind, beyond_of_accepted (accepted haccepts)⟩, haccepts⟩

/-- The items of a first page by the indexes: what the filter accepts and the indexes offer. -/
theorem items_indexed (hs : Indexed s) (ht : Tallied s) (hq : q.after = none)
    (hlimit : s.events.length ≤ limit) (e : Published) :
    e ∈ s.items w actor q s.position none limit ↔
      e ∈ s.events ∧ s.accepts w actor q s.position e = true ∧ s.offers w actor q e = true := by
  have hconversation := fun cid => @mem_byIndex s actor cid _ w q _ hs ht hlimit
  have hmem : ∀ e, e ∈ (s.readModel.conversations.keys.filter fun cid =>
      q.conversation.all (· = cid) && s.visible actor cid).flatMap
        (s.byIndex w actor q s.position none limit) ↔
      e ∈ s.events ∧ s.accepts w actor q s.position e = true ∧ s.offers w actor q e = true := by
    intro e
    rw [List.mem_flatMap]
    constructor
    · rintro ⟨cid, -, he⟩
      obtain ⟨he, haccepts, hoffers, -⟩ := ((hconversation cid).1 e).mp he
      exact ⟨he, haccepts, hoffers⟩
    · rintro ⟨he, haccepts, hoffers⟩
      have haccepted := accepted haccepts
      have hshare := ((hconversation _).1 e).mpr ⟨he, haccepts, hoffers, rfl⟩
      refine ⟨strv e.event "conversation_id", List.mem_filter.mpr ⟨?_, ?_⟩, hshare⟩
      · refine mem_keys_map.mpr (Option.isSome_iff_exists.mp ?_)
        by_contra hnone
        rw [Bool.not_eq_true, Option.isSome_eq_false_iff, Option.isNone_iff_eq_none] at hnone
        unfold Store.byIndex Store.messageCandidates at hshare
        rw [hnone] at hshare
        cases hshare
      · rw [Bool.and_eq_true]
        exact ⟨haccepted.conversation, haccepted.visible⟩
  have hnodup : ((s.readModel.conversations.keys.filter fun cid =>
      q.conversation.all (· = cid) && s.visible actor cid).flatMap
        (s.byIndex w actor q s.position none limit)).Nodup := by
    refine List.nodup_flatMap.mpr ⟨fun cid _ => (hconversation cid).2, ?_⟩
    refine (Std.ExtTreeMap.nodup_keys.filter _).imp fun {cid cid'} hne e he he' => hne ?_
    exact (((hconversation cid).1 e).mp he).2.2.2.symm.trans (((hconversation cid').1 e).mp he').2.2.2
  have hlength := length_le_events hnodup fun e he => ((hmem e).mp he).1
  unfold Store.items
  simp only [hq, Option.isSome_none, Bool.false_eq_true, if_false, Option.map_none]
  rw [List.take_of_length_le, mem_directed, mem_sortByKey, hmem]
  split
  · rw [List.length_reverse, sortByKey_perm.length_eq]
    omega
  · rw [sortByKey_perm.length_eq]
    omega

omit [Instants] in
theorem takeWhile_position (hs : Indexed s) (n : Nat) :
    (s.events.takeWhile fun e => e.position ≤ n) = s.events.filter fun e => e.position ≤ n :=
  takeWhile_eq_filter (hs.ordered.imp fun hab hb => by
    rw [decide_eq_true_eq] at hb ⊢
    omega)

omit [Instants] in
/-- The events that arrived in an interval. -/
theorem mem_eventsBetween (hs : Indexed s) {after high : Nat} (hle : after ≤ high) {e : Published} :
    e ∈ s.eventsBetween after high ↔ e ∈ s.events ∧ after < e.position ∧ e.position ≤ high := by
  have hmin : min (s.events.takeWhile fun e => e.position ≤ after).length
      (s.events.takeWhile fun e => e.position ≤ high).length
      = (s.events.takeWhile fun e => e.position ≤ after).length := by
    refine Nat.min_eq_left ?_
    rw [takeWhile_position hs, takeWhile_position hs]
    refine (List.monotone_filter_right _ fun e he => ?_).length_le
    rw [decide_eq_true_eq] at he ⊢
    exact he.trans hle
  have hslice : s.eventsBetween after high = Store.slice Published.position s.events after high := by
    unfold Store.eventsBetween Store.slice
    simp only
    rw [hmin]
  rw [hslice, Store.mem_slice (hs.ordered.imp Nat.le_of_lt) hle]

/-- The items of a first page by arrival: what the filter accepts and a page may show. -/
theorem items_arrived (hs : Indexed s) (hq : q.after = some (some 0))
    (hlimit : s.events.length ≤ limit) (e : Published) :
    e ∈ s.items w actor q s.position none limit ↔
      e ∈ s.events ∧ s.accepts w actor q s.position e = true ∧ readableEvent e.event = true := by
  have hfloor : q.floor = 0 := by
    unfold Query.floor
    rw [hq]
    rfl
  have hbetween : (s.eventsBetween 0 s.position).Nodup := by
    have hnodup : s.events.Nodup := hs.ordered.imp fun h heq => h.ne (congrArg Published.position heq)
    exact hnodup.sublist ((List.drop_sublist _ _).trans (List.take_sublist _ _))
  have hfilter := (hbetween.filter fun e => readableEvent e.event).filter (s.accepts w actor q s.position)
  have hlength := length_le_events (s := s) hfilter fun e he =>
    ((mem_eventsBetween hs (Nat.zero_le _)).mp (List.mem_filter.mp (List.mem_filter.mp he).1).1).1
  unfold Store.items Store.byArrival
  simp only [hq, hfloor, Option.isSome_some, if_true, Option.elim_none]
  rw [List.take_of_length_le (i := limit + 1), mem_directed, mem_sortByKey,
    List.take_of_length_le (by omega), List.mem_filter, List.mem_filter,
    mem_eventsBetween hs (Nat.zero_le _)]
  · constructor
    · rintro ⟨⟨⟨he, -⟩, hreadable⟩, haccepts⟩
      exact ⟨he, haccepts, hreadable⟩
    · rintro ⟨he, haccepts, hreadable⟩
      have hbound := (accepted haccepts).bound
      rw [hfloor] at hbound
      exact ⟨⟨⟨he, hbound.2, hbound.1⟩, hreadable⟩, haccepts⟩
  · split
    · rw [List.length_reverse, sortByKey_perm.length_eq, List.length_take]
      omega
    · rw [sortByKey_perm.length_eq, List.length_take]
      omega

/-! ## The two ways -/

omit [Instants] in
/-- A message is readable. -/
theorem readable_of_message {e : Value} (h : messageOf cid e = true) (hconv : e["conversation_id"].isStr = true) :
    readableEvent e = true := by
  unfold readableEvent
  rw [hconv, Bool.true_and, strv_of_idx (messageOf_iff.mp h).1]
  decide

omit [Instants] in
/-- The inbox of someone without rules and watches holds messages that others wrote to the actor. -/
theorem incoming_default {e : Published} (hq : Store.defaultInboxOnly w actor q = true)
    (hmentions : q.mentionsOnly = false)
    (hdm : s.conversations.contains (strv e.event "conversation_id") = false)
    (h : s.incoming w actor q e = true) :
    addressedTo (strv e.event "conversation_id") actor e.event = true := by
  unfold Store.defaultInboxOnly at hq
  rw [Bool.and_eq_true] at hq
  have hwatch : s.monitorInbox w actor e = false := by
    unfold Store.monitorInbox
    cases hp : w.personal[actor]? with
    | none => rfl
    | some p =>
      rw [hp, Option.all_some, Bool.and_eq_true] at hq
      have hnone : p.monitors.values = [] := by
        rw [Std.ExtTreeMap.isEmpty_iff.mp hq.2.2]
        rfl
      rw [Option.any_some, hnone]
      rfl
  unfold Store.incoming at h
  simp only [hmentions, hq.1, hwatch, Bool.false_eq_true, if_false, if_true, Bool.or_false,
    Bool.and_false, Bool.and_eq_true, decide_eq_true_eq] at h
  obtain ⟨hother, hinbox⟩ := h
  unfold Store.preferenceForEvent at hinbox
  simp only at hinbox
  split at hinbox
  · cases hinbox
  rename_i hshown
  rw [not_or, not_not] at hshown
  have hwanted : ∀ dnd, (s.defaultWanted actor e.event dnd).inbox = true →
      actor ∈ mentionRecipients e.event := by
    intro dnd hinbox
    have hdefault : s.defaultInbox actor e.event = true := hinbox
    unfold Store.defaultInbox at hdefault
    rw [hdm, Bool.false_or, List.contains_iff_mem] at hdefault
    exact hdefault
  refine addressedTo_iff.mpr ⟨messageOf_iff.mpr ⟨hshown.1, rfl⟩, ?_, hother⟩
  cases hp : w.personal[actor]? with
  | none =>
    rw [hp] at hinbox
    exact hwanted false (Bool.and_eq_true _ _ ▸ hinbox).1
  | some p =>
    rw [hp] at hinbox hq
    rw [Option.all_some, Bool.and_eq_true] at hq
    have hrules : s.rulesFor p actor e.event = [] := by
      unfold Store.rulesFor
      rw [show p.preferences.rules.values = [] from by
        rw [Std.ExtTreeMap.isEmpty_iff.mp hq.2.1]
        rfl]
      simp [sortByKey]
    simp only [hrules, List.foldl_nil, Bool.and_eq_true] at hinbox
    exact hwanted _ hinbox.1

/-- What a query accepts, its indexes offer, unless it is read as a mention and is none from somebody
else. -/
theorem offers_iff {e : Published} (h : s.accepts w actor q s.position e = true)
    (hreadable : readableEvent e.event = true) : s.offers w actor q e = true ↔
      (q.mentionsOnly = true →
        e.event["type"] = "message.create" ∧ e.event["actor"]["id"] ≠ .str actor) := by
  have haccepted := accepted h
  unfold Store.offers Store.readsMentions candidateOf
  cases hmentions : q.mentionsOnly with
  | true =>
    rw [Bool.true_or, if_pos rfl, addressedTo_iff, messageOf_iff]
    constructor
    · rintro ⟨⟨htype, -⟩, -, hother⟩ -
      exact ⟨htype, hother⟩
    · intro hmessage
      exact ⟨⟨(hmessage rfl).1, rfl⟩, haccepted.mentions hmentions, (hmessage rfl).2⟩
  | false =>
    rw [Bool.false_or]
    refine iff_of_true ?_ fun h => by cases h
    split
    · rename_i hdefault
      rw [Bool.and_eq_true, Bool.not_eq_true'] at hdefault
      have hinbox := hdefault.1
      unfold Store.defaultInboxOnly at hinbox
      rw [Bool.and_eq_true] at hinbox
      have hbroad : q.broad = true := by
        unfold Query.broad
        rw [hinbox.1, Bool.or_true]
      exact incoming_default hdefault.1 hmentions hdefault.2 (haccepted.incoming hbroad)
    · exact readableOf_iff.mpr ⟨hreadable, rfl⟩

omit [Instants] in
/-- What is offered may be shown. -/
theorem readable_of_offers {e : Published} (h : s.offers w actor q e = true)
    (hconv : e.event["conversation_id"].isStr = true) : readableEvent e.event = true := by
  unfold Store.offers candidateOf at h
  split at h
  · exact readable_of_message (addressedTo_iff.mp h).1 hconv
  · exact (readableOf_iff.mp h).1

omit [Instants] in
/-- What somebody sees is in a conversation with an ID. -/
theorem conversation_of_visible (hs : s.Addressed) {e : Value}
    (h : s.visible actor (strv e "conversation_id") = true) : e["conversation_id"].isStr = true := by
  by_cases hcid : strv e "conversation_id" = ""
  · rw [hcid, visible_iff, hs.1] at h
    rcases h with h | ⟨members, h, -⟩
    · cases h
    · have hcontains := hs.2
      rw [Std.ExtTreeMap.contains_eq_isSome_getElem?, h] at hcontains
      cases hcontains
  · rw [idx_eq_of_strv rfl hcid]
    rfl

/-- A first page by the indexes shows what one by arrival shows exactly where every event that the
query accepts as a mention is a message of somebody else. -/
theorem items_agree_iff (hs : Indexed s) (ht : Tallied s) (haddressed : s.Addressed)
    (hlimit : s.events.length ≤ limit) :
    (∀ e, e ∈ s.items w actor { q with after := none } s.position none limit ↔
        e ∈ s.items w actor { q with after := some (some 0) } s.position none limit) ↔
      (q.mentionsOnly = true → ∀ e ∈ s.events, readableEvent e.event = true →
        s.accepts w actor { q with after := none } s.position e = true →
          e.event["type"] = "message.create" ∧ e.event["actor"]["id"] ≠ .str actor) := by
  have hfilter : ∀ e, s.accepts w actor { q with after := some (some 0) } s.position e
      = s.accepts w actor { q with after := none } s.position e := fun _ => rfl
  have hindexed := @items_indexed s actor _ w { q with after := none } _ hs ht rfl hlimit
  have harrived := @items_arrived s actor _ w { q with after := some (some 0) } _ hs rfl
    hlimit
  constructor
  · intro hagree hmentions e he hreadable haccepts
    have hmem := (hagree e).mpr ((harrived e).mpr ⟨he, (hfilter e).trans haccepts, hreadable⟩)
    exact (offers_iff haccepts hreadable).mp ((hindexed e).mp hmem).2.2 hmentions
  · intro hown e
    rw [hindexed, harrived, hfilter]
    refine and_congr_right fun he => and_congr_right fun haccepts => ⟨fun hoffers => ?_, fun hreadable => ?_⟩
    · exact readable_of_offers hoffers (conversation_of_visible haddressed (accepted haccepts).visible)
    · exact (offers_iff haccepts hreadable).mpr fun hmentions => hown hmentions e he hreadable haccepts

end

/-- The vectors of an opened store list its history, and its channels and DMs have IDs. -/
theorem Opened.tallied [Externals] (huuid : MintsOnce)
    (hparse : ∀ v w, Externals.parse (Externals.compact v) = .ok w → w = v) {s : Store}
    (hs : Opened s) : Held (fun s => Tallied s ∧ s.Addressed) s :=
  hs.holds huuid hparse (fun h ht => ⟨ht.1.grows h, h.addressed ht.2⟩) fun _ =>
    ⟨fun cid => tally_empty cid, rfl, rfl⟩

section

local instance readingText : Externals := mintingText

/-- Every time is one instant. -/
local instance oneInstant : Instants := ⟨fun _ => some 0⟩

/-- Owner creates a channel and writes to all of it. -/
def announced : Store :=
  after (send "owner" "" "owner" (object [("request_id", "two"), ("channel", "general"),
      ("body", "Hello"), ("mention_here", .bool true)]) [])
    (after (createChannel "owner" (object [("request_id", "one"), ("path", "general")]) [])
      freshStore.reopen)

theorem announced_opened : Opened announced := by
  obtain ⟨r, hfresh, hrun⟩ := freshStore_opened.reached
  refine ⟨r, hfresh, hrun.trans ?_⟩
  exact .tail (.single (.createChannel "owner" _ [] (by decide))) (.send "owner" "" "owner" _ [] none)

/-- Owner's query for its mentions. -/
def ownMentions : Query := { mentionsOnly := true, everyChannel := true }

/-- The announcement names its author among those it is for. -/
theorem announced_own : (announced.events.filter fun e => announced.accepts {} "owner"
    { ownMentions with after := none } announced.position e).any (fun e =>
      readableEvent e.event && e.event["actor"]["id"] = .str "owner") = true := by
  decide +kernel

end

end ClaudeManager
