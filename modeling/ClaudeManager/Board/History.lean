import Mathlib
import ClaudeManager.Program.Histories
import ClaudeManager.Board.Dependents
import ClaudeManager.Board.Placement

/-!
# The history of an item

Writes leave entries with the old and the new values of the fields they change. Read back in
order, the entries of an item tell its fields:

* `history` — the fields of an item, as its entries tell them
* `Exact` — the old values of an entry are those the entries before it tell
* `Silent` — what changes no field that history records, and tells none
-/

namespace Board

open Json Python Containers Program

/-! ## Reading back -/

/-- The members of an entry's values. -/
def members : Value → Fields
  | .obj fields => fields
  | _ => []

/-- Fields with the new ones of an entry in place. -/
def overlay (fields new : Fields) : Fields := fields.map fun p => (p.1, (new.lookup p.1).getD p.2)

/-- What one entry makes of the fields told so far. -/
def Event.onto (e : Event) (told : Option Fields) : Option Fields :=
  if e.type = "created" then some (members e.new)
  else if e.type = "updated" ∨ e.type = "unblocked" then told.map (overlay · (members e.new))
  else told

/-- The fields of an item, as its entries tell them. -/
def history (n : Nat) (events : List Event) : Option Fields :=
  (events.filter fun e => e.n = some n).foldl (fun told e => e.onto told) none

/-- The old values of an entry are those the entries before it tell. -/
def Exact (before : List Event) (e : Event) : Prop :=
  ∀ n, e.n = some n → ∀ p ∈ members e.prev, (history n before).bind (List.lookup p.1) = some p.2

variable {n m : Nat} {events : List Event} {e : Event}

theorem history_append {es : List Event} : history n (events ++ es)
    = (es.filter fun e => e.n = some n).foldl (fun told e => e.onto told) (history n events) := by
  unfold history
  rw [List.filter_append, List.foldl_append]

theorem history_concat : history n (events ++ [e])
    = if e.n = some n then e.onto (history n events) else history n events := by
  rw [history_append]
  by_cases h : e.n = some n <;> simp [h]

/-! ## Overlays -/

/-- In a list of fields without repetition, a field is what its name finds. -/
theorem lookup_of_mem {fields : Fields} {k : String} {v : Value}
    (hnodup : (fields.map Prod.fst).Nodup) (h : (k, v) ∈ fields) : fields.lookup k = some v := by
  induction fields with
  | nil => cases h
  | cons p fields ih =>
    obtain ⟨hnew, hnodup⟩ := List.nodup_cons.mp hnodup
    rcases List.mem_cons.mp h with rfl | h
    · exact List.lookup_cons_self
    · have hne : k ≠ p.1 := by
        rintro rfl
        exact hnew (List.mem_map.mpr ⟨_, h, rfl⟩)
      rw [List.lookup_cons, beq_false_of_ne hne]
      exact ih hnodup h

theorem mem_of_lookup {fields : Fields} {k : String} {v : Value} (h : fields.lookup k = some v) :
    (k, v) ∈ fields := by
  obtain ⟨l, l', hsplit, -⟩ := List.lookup_eq_some_iff.mp h
  rw [hsplit]
  simp

/-- Only a field that is there is found. -/
theorem lookup_eq_none_of {fields : Fields} {k : String} (h : k ∉ fields.map Prod.fst) :
    fields.lookup k = none := by
  rw [List.lookup_eq_none_iff]
  intro p hp
  exact bne_iff_ne.mpr fun he => h (he ▸ List.mem_map_of_mem hp)

/-- The fields that changed, put over the old ones, are the new ones. Further marks do not
matter where no field has their names. -/
theorem overlay_changed {old new marks : Fields} (hkeys : old.map Prod.fst = new.map Prod.fst)
    (hnodup : (new.map Prod.fst).Nodup) (hmarks : ∀ p ∈ marks, p.1 ∉ new.map Prod.fst) :
    overlay old ((new.filter fun p => old.lookup p.1 ≠ some p.2) ++ marks) = new := by
  have hold : (old.map Prod.fst).Nodup := hkeys ▸ hnodup
  have hlen : old.length = new.length := by
    have := congrArg List.length hkeys
    simpa using this
  refine List.ext_getElem ?_ ?_
  · simp [overlay, hlen]
  · intro i hi hi'
    have hio : i < old.length := by omega
    have hkey : (old[i]).1 = (new[i]).1 := by
      have := congrArg (fun l => l[i]?) hkeys
      simpa [hio, hi'] using this
    have hmemo : ((new[i]).1, (old[i]).2) ∈ old := hkey ▸ List.getElem_mem hio
    have hfound := lookup_of_mem hold hmemo
    have hmemn : new[i] ∈ new := List.getElem_mem hi'
    have hnomark : marks.lookup (new[i]).1 = none :=
      lookup_eq_none_of fun hm => by
        obtain ⟨p, hp, heq⟩ := List.mem_map.mp hm
        exact hmarks p hp (heq ▸ List.mem_map_of_mem hmemn)
    simp only [overlay, List.getElem_map, hkey]
    refine Prod.ext rfl ?_
    simp only
    by_cases hsame : (old[i]).2 = (new[i]).2
    · -- An unchanged field is not among the new ones.
      have hnone : (new.filter fun p => old.lookup p.1 ≠ some p.2).lookup (new[i]).1 = none := by
        cases hl : (new.filter fun p => old.lookup p.1 ≠ some p.2).lookup (new[i]).1 with
        | none => rfl
        | some v =>
          obtain ⟨hin, hch⟩ := List.mem_filter.mp (mem_of_lookup hl)
          have hv : (new[i]).2 = v :=
            Option.some.inj ((lookup_of_mem hnodup hmemn).symm.trans (lookup_of_mem hnodup hin))
          simp [hfound, hsame, hv] at hch
      rw [List.lookup_append, hnone, hnomark]
      exact hsame
    · have hsub : ((new.filter fun p => old.lookup p.1 ≠ some p.2).map Prod.fst).Nodup :=
        hnodup.sublist (List.filter_sublist.map _)
      have hin : ((new[i]).1, (new[i]).2) ∈ new.filter fun p => old.lookup p.1 ≠ some p.2 :=
        List.mem_filter.mpr ⟨hmemn, by simp [hfound, hsame]⟩
      rw [List.lookup_append, lookup_of_mem hsub hin]
      rfl

/-- Nothing new leaves the fields as they are. -/
theorem overlay_nil {fields : Fields} : overlay fields [] = fields := by
  simp [overlay]

/-! ## Blockers -/

theorem natSet_insert_erase {s : NatSet} (h : n ∈ s) : (s.erase n).insert n = s := by
  refine Std.ExtTreeSet.ext_mem fun k => ?_
  rw [natSet_mem_insert, natSet_mem_erase]
  constructor
  · rintro (rfl | ⟨-, hk⟩)
    · exact h
    · exact hk
  · intro hk
    by_cases hkn : k = n
    · exact .inl hkn
    · exact .inr ⟨hkn, hk⟩

/-- A set that is empty without `n` has nothing but `n`. -/
theorem natSet_alone {s : NatSet} (h : n ∈ s) (hempty : (s.erase n).isEmpty = true) :
    s.toList = [n] ∧ (s.erase n).toList = [] := by
  have herase : s.erase n = ∅ := Std.ExtTreeSet.isEmpty_iff.mp hempty
  have hs : s = (∅ : NatSet).insert n := by
    rw [← herase, natSet_insert_erase h]
  refine ⟨?_, ?_⟩
  · rw [hs]
    rfl
  · rw [herase]
    rfl

/-! ## The fields of an item -/

section

variable [Runtime]

/-- What history records of an item, with its holders and blockers themselves. -/
def Item.told (it : Item) : Fields × List Holder × NatSet := (it.snapshot, it.holders, it.blockedBy)

theorem snapshot_keys {it : Item} : it.snapshot.map Prod.fst = ["title", "status", "note", "group",
    "blocked_on", "blocked_by", "check_back_at", "eta_at", "job", "group_id", "links", "holders",
    "owner"] := rfl

theorem snapshot_nodup {it : Item} : (it.snapshot.map Prod.fst).Nodup := by
  rw [snapshot_keys]
  decide

/-- The entry of a write tells the item after it, from the item before. -/
theorem overlay_snapshot {before after : Item} {marks : Fields}
    (hmarks : ∀ p ∈ marks, p.1 = "reopened") :
    overlay before.snapshot
      ((after.snapshot.filter fun p => before.snapshot.lookup p.1 ≠ some p.2) ++ marks)
        = after.snapshot := by
  refine overlay_changed rfl snapshot_nodup ?_
  intro p hp
  rw [hmarks p hp, snapshot_keys]
  decide

/-- An item that loses blockers, in the fields history records. -/
theorem overlay_blockers {it : Item} {s : NatSet} :
    overlay it.snapshot (members (blockersValue s)) = { it with blockedBy := s }.snapshot := rfl

theorem overlay_unblocked {it : Item} {s : NatSet} {status : Status} {now : Instant} :
    overlay it.snapshot [("blocked_by", .arr (s.toList.map fun b => .num b)),
      ("status", .str status.name)]
        = ({ it with blockedBy := s }.unblocked status now).snapshot := rfl

/-- What an item that goes on has in history follows from what it had. -/
theorem snapshot_unblocked {it it' : Item} {status : Status} {now : Instant}
    (h : it'.snapshot = it.snapshot) :
    (it'.unblocked status now).snapshot = (it.unblocked status now).snapshot := by
  show overlay it'.snapshot [("status", .str status.name)]
    = overlay it.snapshot [("status", .str status.name)]
  rw [h]

end

/-! ## Silent effects -/

/-- An entry that tells no field, and names no old value. -/
structure Event.Silent (e : Event) : Prop where
  onto : ∀ told, e.onto told = told
  prev : members e.prev = []

theorem Event.silent_of_type (hcreated : e.type ≠ "created") (hupdated : e.type ≠ "updated")
    (hunblocked : e.type ≠ "unblocked") (hprev : e.prev = .null) : e.Silent := by
  refine ⟨fun told => ?_, by rw [hprev]; rfl⟩
  unfold Event.onto
  rw [if_neg hcreated, if_neg (by simp [hupdated, hunblocked])]

theorem history_silent {es : List Event} (h : ∀ e ∈ es, e.Silent) :
    history n (events ++ es) = history n events := by
  induction es using List.reverseRecOn with
  | nil => rw [List.append_nil]
  | append_singleton es e ih =>
    rw [← List.append_assoc, history_concat, (h e (by simp)).onto,
      ih fun e' he' => h e' (List.mem_append_left _ he')]
    exact ite_self _

/-- The last letter of a reference's kind is none that ends a telling one. -/
theorem ref_ne {source type : String} (h : type.toList.getLast? ≠ some 'f') :
    source ++ "_ref" ≠ type := by
  rintro rfl
  refine h ?_
  rw [String.toList_append, List.getLast?_append_of_ne_nil]
  all_goals decide

theorem exact_silent (h : e.Silent) : Exact events e := by
  intro n _ p hp
  rw [h.prev] at hp
  cases hp

section

variable [Runtime]

/-- What changes no field that history records, and tells none. -/
structure Silent (tx tx' : BoardTx) : Prop where
  actor : tx'.actor = tx.actor
  holders : tx'.holdersChanged = tx.holdersChanged
  events : ∃ es, tx'.events = tx.events ++ es ∧ ∀ e ∈ es, e.Silent
  told : ∀ m : Nat, tx'.items[m]?.map Item.told = tx.items[m]?.map Item.told

namespace Silent

variable {tx tx' tx'' : BoardTx}

theorem of_items (hactor : tx'.actor = tx.actor) (hholders : tx'.holdersChanged = tx.holdersChanged)
    (hevents : tx'.events = tx.events) (hitems : tx'.items = tx.items) : Silent tx tx' :=
  ⟨hactor, hholders, ⟨[], by rw [hevents, List.append_nil], by simp⟩, fun m => by rw [hitems]⟩

theorem refl (tx : BoardTx) : Silent tx tx := of_items rfl rfl rfl rfl

theorem trans (h : Silent tx tx') (h' : Silent tx' tx'') : Silent tx tx'' := by
  obtain ⟨es, hes, hsilent⟩ := h.events
  obtain ⟨es', hes', hsilent'⟩ := h'.events
  refine ⟨h'.actor.trans h.actor, h'.holders.trans h.holders, ⟨es ++ es', ?_, ?_⟩,
    fun m => (h'.told m).trans (h.told m)⟩
  · rw [hes', hes, List.append_assoc]
  · intro e he
    rcases List.mem_append.mp he with he | he
    · exact hsilent e he
    · exact hsilent' e he

/-- A fold of silent steps. -/
theorem foldl {α : Type} {f : BoardTx → α → BoardTx} (hf : ∀ tx a, Silent tx (f tx a)) (l : List α)
    (tx : BoardTx) : Silent tx (l.foldl f tx) := by
  induction l generalizing tx with
  | nil => exact refl tx
  | cons a l ih => exact (hf tx a).trans (ih (f tx a))

theorem history (h : Silent tx tx') {log : List Event} {n : Nat} :
    Board.history n (log ++ tx'.events) = Board.history n (log ++ tx.events) := by
  obtain ⟨es, hes, hsilent⟩ := h.events
  rw [hes, ← List.append_assoc, history_silent hsilent]

theorem exact (h : Silent tx tx') {log : List Event} (hlog : Justified Exact (log ++ tx.events)) :
    Justified Exact (log ++ tx'.events) := by
  obtain ⟨es, hes, hsilent⟩ := h.events
  rw [hes, ← List.append_assoc]
  exact hlog.append fun e he _ => exact_silent (hsilent e he)

end Silent

namespace BoardTx

variable {tx : BoardTx} {f : Item → Item} {it : Item}

theorem silent_modifyItem (hf : ∀ it, (f it).told = it.told) : Silent tx (tx.modifyItem n f) := by
  refine ⟨rfl, rfl, ⟨[], (List.append_nil _).symm, by simp⟩, fun m => ?_⟩
  rw [modifyItem_items]
  by_cases h : m = n
  · subst h
    rw [if_pos rfl, Option.map_map]
    exact Option.map_congr fun it _ => hf it
  · rw [if_neg h]

theorem silent_event {type : String} {new : Value} {reason : Option String}
    (hcreated : type ≠ "created") (hupdated : type ≠ "updated") (hunblocked : type ≠ "unblocked") :
    Silent tx (tx.event n type .null new reason) := by
  refine ⟨rfl, rfl, ⟨_, rfl, fun e he => ?_⟩, fun _ => rfl⟩
  obtain rfl := List.mem_singleton.mp he
  exact Event.silent_of_type hcreated hupdated hunblocked rfl

theorem silent_markDirty : Silent tx (tx.markDirty n) := .of_items rfl rfl rfl rfl

theorem silent_markDeps : Silent tx (tx.markDeps n) := .of_items rfl rfl rfl rfl

theorem silent_push {h : Holder} {kind text : String} : Silent tx (tx.push n h kind text) := by
  unfold push
  split
  · exact .of_items rfl rfl rfl rfl
  · exact .refl tx

theorem silent_pushAll {holders : List Holder} {kind text : String} :
    Silent tx (tx.pushAll n holders kind text) :=
  Silent.foldl (fun _ _ => silent_push) holders tx

/-! ### Flags -/

theorem silent_openFlag {kind : String} {flag : Flag} : Silent tx (tx.openFlag n kind flag) :=
  silent_modifyItem fun _ => rfl

theorem silent_closeFlag {kind : String} : Silent tx (tx.closeFlag n kind) :=
  silent_modifyItem fun _ => rfl

theorem silent_raiseFlag {kind : String} {detail : Value} :
    Silent tx (tx.raiseFlag n kind detail) := by
  have hdetail : ∀ {tx : BoardTx} {mark : FlagMark}, Silent tx (tx.recordDetail mark) :=
    .of_items rfl rfl rfl rfl
  have hraised : ∀ {tx : BoardTx} {mark : FlagMark}, Silent tx (tx.recordRaised mark) :=
    .of_items rfl rfl rfl rfl
  unfold raiseFlag
  simp only
  split
  · split
    · exact (silent_openFlag.trans hdetail).trans (silent_event (by decide) (by decide) (by decide))
    · exact .refl tx
  · exact (silent_openFlag.trans hraised).trans (silent_event (by decide) (by decide) (by decide))

theorem silent_resolveFlag {kind resolution : String} {snooze : Option Instant} :
    Silent tx (tx.resolveFlag n kind resolution snooze) := by
  have hresolved : ∀ {tx : BoardTx} {mark : FlagSettled}, Silent tx (tx.recordResolved mark) :=
    .of_items rfl rfl rfl rfl
  unfold resolveFlag
  split
  · exact (silent_closeFlag.trans hresolved).trans
      (silent_event (by decide) (by decide) (by decide))
  · exact .refl tx

theorem silent_resolveFlags {kinds : List String} {resolution : String} :
    Silent tx (tx.resolveFlags n kinds resolution) :=
  Silent.foldl (fun _ _ => silent_resolveFlag) kinds tx

theorem silent_clearBlockerDropped : Silent tx (tx.clearBlockerDropped n) := by
  unfold clearBlockerDropped
  split
  · split
    · exact .refl tx
    · exact silent_resolveFlag
  · exact .refl tx

theorem silent_flagDependent : Silent tx (tx.flagDependent n) := by
  unfold flagDependent
  split
  · exact .refl tx
  · split
    · exact .refl tx
    · exact silent_raiseFlag.trans silent_markDirty

/-! ### Steps of a write -/

theorem silent_announce {w : Write} {before : Item} : Silent tx (tx.announce w before it) := by
  have howner : ∀ {tx : BoardTx} {prevOwner : Option String} {prev : Option Status},
      Silent tx (tx.recordOwner w.n prevOwner prev it) := by
    intro tx prevOwner prev
    unfold recordOwner
    simp only
    split_ifs <;> exact .of_items rfl rfl rfl rfl
  have hpick : ∀ {tx : BoardTx}, Silent tx (tx.clearPickOwner w.n it.holders) := by
    intro tx
    unfold clearPickOwner
    split
    · exact silent_resolveFlag
    · exact .refl tx
  have hwarn : ∀ {tx : BoardTx}, Silent tx (tx.warnStrict w.n it) := by
    intro tx
    unfold warnStrict
    split
    · exact .of_items rfl rfl rfl rfl
    · exact .refl tx
  have hmove : ∀ {tx : BoardTx} {prev : Option Status} {status : Status},
      Silent tx (tx.recordTransition w.n prev status) := by
    intro tx prev status
    unfold recordTransition
    simp only
    split_ifs <;> exact .of_items rfl rfl rfl rfl
  exact ((howner.trans hpick).trans hwarn).trans hmove

theorem silent_recheckDeps {tx' : BoardTx} (h : tx.recheckDeps n it = .ok tx') :
    Silent tx tx' := by
  unfold recheckDeps at h
  split at h
  · obtain ⟨_, -, h⟩ := except_bind_ok.mp h
    obtain rfl := except_pure_ok.mp h
    exact silent_clearBlockerDropped
  · obtain rfl := Except.ok.inj h
    exact .refl tx

theorem silent_settleSuggestion {w : Write} {before : Item} :
    Silent tx (tx.settleSuggestion w before it) := by
  unfold settleSuggestion
  split
  · exact silent_resolveFlag
  · exact .refl tx

theorem silent_closeOrReopen {prev : Option Status} {status : Status} :
    Silent tx (tx.closeOrReopen n prev status) := by
  unfold closeOrReopen close reopen
  simp only
  split_ifs
  · refine Silent.trans (silent_modifyItem ?_) silent_resolveFlags
    exact fun _ => rfl
  · refine Silent.trans (silent_modifyItem ?_) (.foldl (fun _ _ => silent_clearBlockerDropped) _ _)
    exact fun _ => rfl
  · exact .refl tx

theorem silent_pushAssigned {prevPids : List String} : Silent tx (tx.pushAssigned n it prevPids) :=
  Silent.foldl (fun _ _ => silent_push) _ tx

/-! ### Steps of the other calls -/

theorem silent_recordResolution {action : String} {kinds : List String} {reason : Option String} :
    Silent tx (tx.recordResolution n action kinds reason) :=
  silent_event (by decide) (by decide) (by decide)

theorem silent_dismiss {target : Value} : Silent tx (tx.dismiss n target) := by
  refine Silent.trans (silent_modifyItem ?_) silent_markDirty
  exact fun _ => rfl

theorem silent_checkIn : Silent tx (tx.checkIn n) := by
  refine Silent.trans (silent_modifyItem ?_) silent_markDirty
  exact fun _ => rfl

theorem silent_suggest {request : Value} {messageId : Option String} :
    Silent tx (tx.suggest n it request messageId) := by
  unfold suggest
  obtain ⟨keyword, hkeyword⟩ : ∃ keyword, firstChars 20 (if truthy (request.idx "keyword") then
    str (request.idx "keyword") else "") = keyword := ⟨_, rfl⟩
  simp only [hkeyword]
  split
  · exact .refl tx
  split
  · exact .refl tx
  split
  · exact .refl tx
  have hraised : ∀ (c : Bool) (detail : Value), Silent tx
      ((if c = true then tx.resolveFlag n suggested "superseded" none else tx).raiseFlag n suggested
        detail) := by
    intro c detail
    cases c
    · exact silent_raiseFlag
    · exact silent_resolveFlag.trans silent_raiseFlag
  split
  · exact hraised _ _
  · exact (hraised _ _).trans silent_pushAll

theorem silent_touchOne {t : Touch} : Silent tx (touchOne t tx n) := by
  have href : ∀ {tx : BoardTx} {new : Value},
      Silent tx (tx.event n (t.source ++ "_ref") .null new none) :=
    silent_event (ref_ne (by decide)) (ref_ne (by decide)) (ref_ne (by decide))
  unfold touchOne
  split
  · next it _ _ =>
    simp only
    obtain ⟨mid, hmid⟩ : ∃ mid, (if tx.actor.pid ∈ it.holders.map Holder.pid then tx.checkIn n
      else tx) = mid := ⟨_, rfl⟩
    have hchecked : Silent tx mid := by
      rw [← hmid]
      split
      · exact silent_checkIn
      · exact .refl tx
    simp only [hmid]
    split
    · split
      · exact (hchecked.trans href).trans silent_suggest
      · exact hchecked.trans href
    · exact hchecked.trans href
  · exact .refl tx

theorem silent_touch {t : Touch} : Silent tx (tx.touch t) :=
  Silent.foldl (fun _ _ => silent_touchOne) _ tx

end BoardTx

end

end Board
