import Mathlib
import ClaudeManager.Board.Settle

/-!
# What a write does to the items it blocks

* `Freed` — an item waits for one other item alone
* `Lightened` — a dependent after one of its blockers is done
* `Dropped` — a `blocker_dropped` flag has a dropped blocker

Each step of a cascade changes one dependent and no other item.
-/

namespace Board

open Json Python Containers Program

/-- The item waits for `n` alone. -/
def Freed (n : Nat) (it : Item) : Prop :=
  it.status = .blocked ∧ isSet it.blockedOn = false ∧ ∀ b ∈ it.blockedBy, b = n

/-- A dependent after its blocker `n` is done: without it, and under way again where it
waited for `n` alone. -/
structure Lightened (n : Nat) (it it' : Item) : Prop where
  shape : it'.shape = { it.shape with blockedBy := it.blockedBy.erase n, status := it'.status }
  status : it'.status = it.status ∨ Freed n it ∧ (it'.status = .active ∨ it'.status = .open)
  flags : ∀ k, k ∈ it'.openFlags → k ∈ it.openFlags

/-- Where the item's `blocker_dropped` flag is open, some blocker is dropped. -/
def Dropped (tx : BoardTx) (n : Nat) : Prop :=
  ∀ it : Item, tx.items[n]? = some it → blockerDropped ∈ it.openFlags →
    ∃ b ∈ it.blockedBy, tx.isDropped b = true

namespace BoardTx

variable {tx tx' : BoardTx} {n m dep : Nat}

theorem isDropped_iff :
    tx.isDropped n = true ↔ ∃ it : Item, tx.items[n]? = some it ∧ it.status = .dropped := by
  unfold isDropped
  rw [Option.any_eq_true]
  simp

theorem isDropped_quiet (h : Quiet tx tx') : tx'.isDropped n = tx.isDropped n := by
  rw [Bool.eq_iff_iff, isDropped_iff, isDropped_iff]
  constructor
  · rintro ⟨it', hit', hst⟩
    obtain ⟨it, hit, hr⟩ := h.back n it' hit'
    exact ⟨it, hit, hr.status ▸ hst⟩
  · rintro ⟨it, hit, hst⟩
    obtain ⟨it', hit', hr⟩ := h.forth n it hit
    exact ⟨it', hit', hr.status.trans hst⟩

theorem dropped_quiet (hd : Dropped tx n) (h : Quiet tx tx') : Dropped tx' n := by
  intro it' hit' hflag
  obtain ⟨it, hit, hr⟩ := h.back n it' hit'
  obtain ⟨b, hb, hdrop⟩ := hd it hit (hr.flags _ hflag)
  exact ⟨b, hr.blockedBy ▸ hb, (isDropped_quiet h).trans hdrop⟩

theorem mem_dependents : m ∈ tx.dependents n ↔ Edge tx.items m n := by
  unfold dependents Edge
  rw [List.mem_map]
  constructor
  · rintro ⟨⟨m', it⟩, hmem, rfl⟩
    obtain ⟨hmem, hb⟩ := List.mem_filter.mp hmem
    exact ⟨it, natMap_mem_toList.mp hmem, by simpa using hb⟩
  · rintro ⟨it, hit, hb⟩
    exact ⟨(m, it), List.mem_filter.mpr ⟨natMap_mem_toList.mpr hit, by simpa using hb⟩, rfl⟩

theorem nodup_dependents : (tx.dependents n).Nodup := by
  have hkeys : (tx.items.toList.map Prod.fst).Nodup := by
    rw [Std.ExtTreeMap.map_fst_toList_eq_keys]
    exact Std.ExtTreeMap.nodup_keys
  exact hkeys.sublist (List.filter_sublist.map _)

theorem modifyItem_other {f : Item → Item} (h : m ≠ n) :
    (tx.modifyItem n f).items[m]? = tx.items[m]? := by
  rw [modifyItem_items, if_neg h]

theorem freedStatus_cases {it : Item} :
    tx.freedStatus it = .active ∨ tx.freedStatus it = .open := by
  unfold freedStatus
  split
  · exact .inl rfl
  · exact .inr rfl

/-- At most the flag of a dropped blocker opens, on an open item. -/
structure Flagged (it it' : Item) : Prop where
  shape : it'.shape = it.shape
  flags : ∀ k, k ∈ it'.openFlags → k ∈ it.openFlags ∨ k = blockerDropped ∧ it.status.closed = false

theorem Flagged.refl (it : Item) : Flagged it it := ⟨rfl, fun _ h => .inl h⟩

theorem openFlag_self {kind : String} {flag : Flag} {it : Item} (h : tx.items[n]? = some it) :
    (tx.openFlag n kind flag).items[n]?
      = some { it with openFlags := it.openFlags.insert kind flag } := by
  unfold openFlag
  rw [modifyItem_items, if_pos rfl, h]
  rfl

theorem raiseFlag_other {kind : String} {detail : Value} (h : m ≠ n) :
    (tx.raiseFlag n kind detail).items[m]? = tx.items[m]? := by
  unfold raiseFlag
  simp only
  split
  · split
    · exact modifyItem_other h
    · rfl
  · exact modifyItem_other h

/-- Raising a flag changes the flags of its item, by the flag alone. -/
theorem raiseFlag_self {kind : String} {detail : Value} {it : Item} (h : tx.items[n]? = some it) :
    ∃ it' : Item, (tx.raiseFlag n kind detail).items[n]? = some it' ∧ it'.shape = it.shape
      ∧ ∀ k, k ∈ it'.openFlags → k ∈ it.openFlags ∨ k = kind := by
  have hins : ∀ flag : Flag, ∀ k, k ∈ it.openFlags.insert kind flag →
      k ∈ it.openFlags ∨ k = kind := by
    intro flag k hk
    rcases Std.ExtTreeMap.mem_insert.mp hk with hk | hk
    · exact .inr (Std.LawfulEqCmp.compare_eq_iff_eq.mp hk).symm
    · exact .inl hk
  unfold raiseFlag
  simp only
  split
  · split
    · exact ⟨_, openFlag_self h, rfl, hins _⟩
    · exact ⟨it, h, rfl, fun _ hk => .inl hk⟩
  · exact ⟨_, openFlag_self h, rfl, hins _⟩

theorem raiseFlag_board {kind : String} {detail : Value} :
    (tx.raiseFlag n kind detail).board = tx.board := by
  unfold raiseFlag
  simp only
  split
  · split <;> rfl
  · rfl

section

variable [Runtime]

/-! ## Resolving a flag -/

theorem resolveFlag_other {kind resolution : String} {snooze : Option Instant} (h : m ≠ n) :
    (tx.resolveFlag n kind resolution snooze).items[m]? = tx.items[m]? := by
  unfold resolveFlag
  split
  · exact modifyItem_other h
  · rfl

/-- A flag that was resolved is not open. -/
theorem resolveFlag_gone {kind resolution : String} {snooze : Option Instant} {it : Item}
    (h : (tx.resolveFlag n kind resolution snooze).items[n]? = some it) : kind ∉ it.openFlags := by
  unfold resolveFlag at h
  split at h
  · have h' : (tx.closeFlag n kind).items[n]? = some it := h
    unfold closeFlag at h'
    rw [modifyItem_items, if_pos rfl] at h'
    obtain ⟨old, -, rfl⟩ := Option.map_eq_some_iff.mp h'
    simp [Std.ExtTreeMap.mem_erase]
  · next hnone =>
    unfold flagsOf at hnone
    rw [h] at hnone
    rw [Std.ExtTreeMap.mem_iff_isSome_getElem?]
    simp only at hnone
    rw [hnone]
    simp

theorem clearBlockerDropped_other (h : m ≠ n) :
    (tx.clearBlockerDropped n).items[m]? = tx.items[m]? := by
  unfold clearBlockerDropped
  split
  · split
    · rfl
    · exact resolveFlag_other h
  · rfl

/-- The flag of a dropped blocker is cleared where no blocker is dropped. -/
theorem dropped_clear : Dropped (tx.clearBlockerDropped n) n := by
  intro it hit hflag
  have hq : Quiet tx (tx.clearBlockerDropped n) := quiet_clearBlockerDropped
  obtain ⟨old, hold, hr⟩ := hq.back n it hit
  by_cases hany : old.blockedBy.toList.any tx.isDropped = true
  · obtain ⟨b, hb, hdrop⟩ := List.any_eq_true.mp hany
    exact ⟨b, hr.blockedBy ▸ natSet_mem_toList.mp hb, (isDropped_quiet hq).trans hdrop⟩
  · unfold clearBlockerDropped at hit
    rw [hold] at hit
    simp only [hany] at hit
    exact absurd hflag (resolveFlag_gone hit)

/-! ## A dependent loses a blocker -/

theorem dropBlocker_other (h : m ≠ dep) : (tx.dropBlocker n dep).items[m]? = tx.items[m]? := by
  unfold dropBlocker
  rw [clearBlockerDropped_other h]
  exact modifyItem_other h

theorem dropBlocker_board : (tx.dropBlocker n dep).board = tx.board :=
  quiet_clearBlockerDropped.board

theorem dropBlocker_self {it : Item} (h : tx.items[dep]? = some it) :
    ∃ it' : Item, (tx.dropBlocker n dep).items[dep]? = some it'
      ∧ it'.shape = { it.shape with blockedBy := it.blockedBy.erase n }
      ∧ (∀ k, k ∈ it'.openFlags → k ∈ it.openFlags) := by
  obtain ⟨mid, hmid⟩ : ∃ mid, ((tx.modifyItem dep fun it =>
    { it with blockedBy := it.blockedBy.erase n }).markDeps dep).markDirty dep = mid := ⟨_, rfl⟩
  have hitem : mid.items[dep]? = some { it with blockedBy := it.blockedBy.erase n } := by
    rw [← hmid]
    show (tx.modifyItem dep _).items[dep]? = _
    rw [modifyItem_items, if_pos rfl, h]
    rfl
  unfold dropBlocker
  rw [hmid]
  obtain ⟨it', hit', hr⟩ :=
    (quiet_clearBlockerDropped : Quiet mid (mid.clearBlockerDropped dep)).forth dep _ hitem
  exact ⟨it', hit', hr.shape, hr.flags⟩

theorem dropBlocker_none (h : tx.items[dep]? = none) :
    (tx.dropBlocker n dep).items[dep]? = none := by
  rw [Option.eq_none_iff_forall_ne_some]
  intro it' hit'
  obtain ⟨mid, hmid, -⟩ := quiet_clearBlockerDropped.back dep it' hit'
  have hmod : (tx.modifyItem dep fun it =>
      { it with blockedBy := it.blockedBy.erase n }).items[dep]? = some mid := hmid
  rw [modifyItem_items, if_pos rfl, h] at hmod
  cases hmod

theorem isDropped_dropBlocker : (tx.dropBlocker n dep).isDropped m = tx.isDropped m := by
  unfold isDropped
  by_cases hm : m = dep
  · subst hm
    cases h : tx.items[m]? with
    | none => rw [dropBlocker_none h]
    | some it =>
      obtain ⟨it', hit', hshape, -⟩ := dropBlocker_self (n := n) h
      have hstatus : it'.status = it.status := congrArg Shape.status hshape
      rw [hit', Option.any_some, Option.any_some, hstatus]
  · rw [dropBlocker_other hm]

theorem dropped_dropBlocker : Dropped (tx.dropBlocker n dep) dep := dropped_clear

theorem free_other {title : String} {it : Item} (h : m ≠ dep) :
    (tx.free n title dep it).items[m]? = tx.items[m]? := by
  unfold free
  rw [pushAll_items]
  exact modifyItem_other h

theorem free_self {title : String} {it old : Item} (h : tx.items[dep]? = some old) :
    (tx.free n title dep it).items[dep]? = some (old.unblocked (tx.freedStatus it) tx.now) := by
  unfold free
  rw [pushAll_items]
  show (tx.modifyItem dep _).items[dep]? = _
  rw [modifyItem_items, if_pos rfl, h]
  rfl

theorem unblock_other {title : String} (h : m ≠ dep) :
    (tx.unblock n title dep).items[m]? = tx.items[m]? := by
  have hdrop : (tx.dropBlocker n dep).items[m]? = tx.items[m]? := dropBlocker_other h
  unfold unblock
  simp only
  split
  · exact hdrop
  · split
    · exact hdrop
    · rw [free_other h]
      exact hdrop

/-- A dependent of an item that is done is lightened. -/
theorem unblock_self {title : String} {it : Item} (h : tx.items[dep]? = some it) :
    ∃ it' : Item, (tx.unblock n title dep).items[dep]? = some it' ∧ Lightened n it it' := by
  obtain ⟨mid, hmid, hshape, hflags⟩ := dropBlocker_self (n := n) h
  have hstatus : mid.status = it.status := congrArg Shape.status hshape
  have hon : mid.blockedOn = it.blockedOn := congrArg Shape.blockedOn hshape
  have hby : mid.blockedBy = it.blockedBy.erase n := congrArg Shape.blockedBy hshape
  unfold unblock
  simp only [hmid]
  split
  · refine ⟨mid, hmid, ?_, .inl hstatus, hflags⟩
    rw [hshape, hstatus]
    rfl
  · next hgo =>
    simp only [not_or, Bool.not_eq_false, ne_eq, not_not, Bool.not_eq_true] at hgo
    obtain ⟨hempty, hblocked, hset⟩ := hgo
    refine ⟨_, free_self hmid, ?_, .inr ⟨⟨hstatus ▸ hblocked, hon ▸ hset, ?_⟩, ?_⟩, hflags⟩
    · exact congrArg (fun s : Shape =>
        { s with status := (tx.dropBlocker n dep).freedStatus mid }) hshape
    · intro b hb
      by_contra hne
      exact natSet_isEmpty_iff.mp hempty b (hby ▸ natSet_mem_erase.mpr ⟨hne, hb⟩)
    · exact freedStatus_cases

theorem unblock_board {title : String} : (tx.unblock n title dep).board = tx.board := by
  unfold unblock
  simp only
  split
  · exact dropBlocker_board
  · split
    · exact dropBlocker_board
    · unfold free
      exact (congrArg Ledger.board pushAll_ledger).trans dropBlocker_board

/-- Whether an item is dropped does not change as dependents go on. -/
theorem isDropped_unblock {title : String} :
    (tx.unblock n title dep).isDropped m = tx.isDropped m := by
  by_cases hm : m = dep
  · subst hm
    cases h : tx.items[m]? with
    | none =>
      have hnone := dropBlocker_none (n := n) h
      unfold isDropped unblock
      simp only [hnone, h]
    | some it =>
      obtain ⟨it', hit', hl⟩ := @unblock_self _ n _ _ title _ h
      unfold isDropped
      rw [hit', h]
      rcases hl.status with hs | ⟨⟨hb, -, -⟩, hs | hs⟩
      · simp [hs]
      · simp [hs, hb]
      · simp [hs, hb]
  · unfold isDropped
    rw [unblock_other hm]

theorem dropped_unblock {title : String} : Dropped (tx.unblock n title dep) dep := by
  have hdrop : Dropped (tx.dropBlocker n dep) dep := dropped_dropBlocker
  intro it hit hflag
  obtain ⟨b, hb, hdropped⟩ : ∃ b ∈ it.blockedBy, (tx.dropBlocker n dep).isDropped b = true := by
    unfold unblock at hit
    simp only at hit
    split at hit
    · exact hdrop it hit hflag
    · next old hold =>
      split at hit
      · exact hdrop it hit hflag
      · rw [free_self hold] at hit
        obtain rfl := Option.some.inj hit
        exact hdrop old hold hflag
  refine ⟨b, hb, ?_⟩
  rw [isDropped_unblock, ← @isDropped_dropBlocker tx n b dep]
  exact hdropped

/-! ## The whole cascade -/

/-- What a cascade over some dependents did. -/
structure Cascaded (n : Nat) (deps : List Nat) (tx tx' : BoardTx) : Prop where
  board : tx'.board = tx.board
  isDropped : ∀ m, tx'.isDropped m = tx.isDropped m
  other : ∀ m ∉ deps, tx'.items[m]? = tx.items[m]?
  self : ∀ m ∈ deps, ∀ it : Item, tx.items[m]? = some it →
    ∃ it' : Item, tx'.items[m]? = some it' ∧ Lightened n it it'
  dropped : ∀ m ∈ deps, Dropped tx' m

theorem cascade_ok {title : String} : ∀ (deps : List Nat) (tx : BoardTx), deps.Nodup →
    Cascaded n deps tx (deps.foldl (fun tx dep => tx.unblock n title dep) tx)
  | [], tx, _ => ⟨rfl, fun _ => rfl, fun _ _ => rfl, by simp, by simp⟩
  | dep :: deps, tx, hnd => by
    obtain ⟨hnotin, hnd⟩ := List.nodup_cons.mp hnd
    have ih := @cascade_ok title deps (tx.unblock n title dep) hnd
    rw [List.foldl_cons]
    refine ⟨ih.board.trans unblock_board, fun m => (ih.isDropped m).trans isDropped_unblock,
      ?_, ?_, ?_⟩
    · intro m hm
      rw [ih.other m fun h => hm (List.mem_cons_of_mem dep h)]
      exact unblock_other fun h => hm (h ▸ List.mem_cons_self)
    · intro m hm it hit
      by_cases hdep : m = dep
      · subst hdep
        obtain ⟨it', hit', hl⟩ := @unblock_self _ n _ _ title _ hit
        exact ⟨it', (ih.other m hnotin).trans hit', hl⟩
      · exact ih.self m ((List.mem_cons.mp hm).resolve_left hdep) it
          ((unblock_other hdep).trans hit)
    · intro m hm
      by_cases hdep : m = dep
      · subst hdep
        intro it hit hflag
        obtain ⟨b, hb, hdrop⟩ := @dropped_unblock tx n _ _ title it
          ((ih.other m hnotin).symm.trans hit) hflag
        exact ⟨b, hb, (ih.isDropped b).trans hdrop⟩
      · exact ih.dropped m ((List.mem_cons.mp hm).resolve_left hdep)

theorem cascadeDone_ok {title : String} :
    Cascaded n (tx.dependents n) tx (tx.cascadeDone n title) :=
  cascade_ok _ tx nodup_dependents

end

/-! ## A dependent hears of a dropped blocker -/

theorem flagDependent_other (h : m ≠ dep) : (tx.flagDependent dep).items[m]? = tx.items[m]? := by
  unfold flagDependent
  split
  · rfl
  · split
    · rfl
    · exact raiseFlag_other h

theorem flagDependent_board : (tx.flagDependent dep).board = tx.board := by
  unfold flagDependent
  split
  · rfl
  · split
    · rfl
    · exact raiseFlag_board

theorem flagDependent_self {it : Item} (h : tx.items[dep]? = some it) :
    ∃ it' : Item, (tx.flagDependent dep).items[dep]? = some it' ∧ Flagged it it' := by
  unfold flagDependent
  rw [h]
  simp only
  split
  · exact ⟨it, h, .refl it⟩
  · next hopen =>
    obtain ⟨it', hit', hshape, hflags⟩ := @raiseFlag_self tx dep blockerDropped
      (.obj [("blockers", .arr ((it.blockedBy.toList.filter tx.isDropped).map
        fun b => .num b))]) it h
    refine ⟨it', hit', hshape, fun k hk => (hflags k hk).imp_right fun he => ⟨he, ?_⟩⟩
    simpa using hopen

/-- Flagging some dependents flags no other item. -/
theorem flagAll_ok : ∀ (deps : List Nat) (tx : BoardTx), deps.Nodup →
    (deps.foldl flagDependent tx).board = tx.board
      ∧ (∀ m ∉ deps, (deps.foldl flagDependent tx).items[m]? = tx.items[m]?)
      ∧ ∀ m ∈ deps, ∀ it : Item, tx.items[m]? = some it →
        ∃ it' : Item, (deps.foldl flagDependent tx).items[m]? = some it' ∧ Flagged it it'
  | [], tx, _ => ⟨rfl, fun _ _ => rfl, by simp⟩
  | dep :: deps, tx, hnd => by
    obtain ⟨hnotin, hnd⟩ := List.nodup_cons.mp hnd
    obtain ⟨hboard, hother, hself⟩ := flagAll_ok deps (tx.flagDependent dep) hnd
    rw [List.foldl_cons]
    refine ⟨hboard.trans flagDependent_board, ?_, ?_⟩
    · intro m hm
      rw [hother m fun h => hm (List.mem_cons_of_mem dep h)]
      exact flagDependent_other fun h => hm (h ▸ List.mem_cons_self)
    · intro m hm it hit
      by_cases hdep : m = dep
      · subst hdep
        obtain ⟨it', hit', hf⟩ := flagDependent_self hit
        exact ⟨it', (hother m hnotin).trans hit', hf⟩
      · exact hself m ((List.mem_cons.mp hm).resolve_left hdep) it
          ((flagDependent_other hdep).trans hit)

end BoardTx

end Board
