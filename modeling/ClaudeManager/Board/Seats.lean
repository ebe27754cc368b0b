import Mathlib
import ClaudeManager.Board.Placement

/-!
# Who sits on an item

Launch grants depend on a few fields of an item and on the owner changes a transaction records.

* `Seat`, `Seating` — those fields, of an item and of a transaction
* `seating_…` — most effects of a transaction leave them alone
-/

namespace Board

open Json Python Containers Program BoardTx

/-- What launch grants depend on of an item. -/
structure Seat where
  holders : List Holder
  closed : Bool
  taskId : Option String
  linkArchivedAt : Option Instant

def Item.seat (it : Item) : Seat := ⟨it.holders, it.status.closed, it.taskId, it.linkArchivedAt⟩

abbrev OwnerChange := Nat × Option String × Option Holder

/-- What launch grants depend on of a transaction. -/
structure Seating where
  board : BoardRow
  actor : Actor
  ownerChanges : List OwnerChange
  seat : Nat → Option Seat

def BoardTx.seating (tx : BoardTx) : Seating :=
  ⟨tx.board, tx.actor, tx.ownerChanges, fun n => tx.items[n]?.map Item.seat⟩

/-- The pids of the holders that own the item. -/
def ownerPids (holders : List Holder) : List String := (holders.filter Holder.owns).map Holder.pid

theorem ownerOf_eq_head? {holders : List Holder} :
    ownerOf holders = (ownerPids holders).head? := by
  unfold ownerOf ownerPids
  rw [List.head?_map, List.head?_filter]

/-- Who owns is told by the pids and the roles. -/
theorem ownerPids_congr {l l' : List Holder} (hpid : l.map Holder.pid = l'.map Holder.pid)
    (hrole : l.map Holder.role = l'.map Holder.role) : ownerPids l = ownerPids l' := by
  induction l generalizing l' with
  | nil =>
    cases l' with
    | nil => rfl
    | cons h' l' => simp at hpid
  | cons h l ih =>
    cases l' with
    | nil => simp at hpid
    | cons h' l' =>
      simp only [List.map_cons, List.cons.injEq] at hpid hrole
      have hrest := ih hpid.2 hrole.2
      have howns : h.owns = h'.owns := by
        unfold Holder.owns
        rw [hrole.1]
      unfold ownerPids at hrest ⊢
      rw [List.filter_cons, List.filter_cons, howns]
      split
      · rw [List.map_cons, List.map_cons, hpid.1, hrest]
      · exact hrest

variable {tx tx' : BoardTx} {n : Nat} {f : Item → Item} {it : Item}

theorem seating_modifyItem (hf : ∀ it, tx.items[n]? = some it → (f it).seat = it.seat) :
    (tx.modifyItem n f).seating = tx.seating := by
  have hseat : (tx.modifyItem n f).seating.seat = tx.seating.seat := by
    funext m
    show (tx.modifyItem n f).items[m]?.map Item.seat = tx.items[m]?.map Item.seat
    rw [modifyItem_items]
    by_cases hm : m = n
    · rw [if_pos hm, hm]
      cases hit : tx.items[n]? with
      | none => rfl
      | some it => exact congrArg some (hf it hit)
    · rw [if_neg hm]
  unfold seating at hseat ⊢
  simp only [Seating.mk.injEq]
  exact ⟨rfl, rfl, rfl, hseat⟩

theorem seating_setItem : (tx.setItem n it).seating =
    { tx.seating with seat := Function.update tx.seating.seat n (some it.seat) } := by
  have hseat : (tx.setItem n it).seating.seat =
      Function.update tx.seating.seat n (some it.seat) := by
    funext m
    show (tx.setItem n it).items[m]?.map Item.seat = _
    rw [setItem_items]
    by_cases hm : m = n
    · rw [if_pos hm, hm, Function.update_self]
      rfl
    · rw [if_neg hm, Function.update_of_ne hm]
      rfl
  unfold seating at hseat ⊢
  simp only [Seating.mk.injEq]
  exact ⟨rfl, rfl, rfl, hseat⟩

/-- A loop of effects that leave the seats alone. -/
theorem seating_foldl {α : Type} {step : BoardTx → α → BoardTx}
    (hstep : ∀ tx a, (step tx a).seating = tx.seating) {l : List α} :
    (l.foldl step tx).seating = tx.seating := by
  induction l generalizing tx with
  | nil => rfl
  | cons a l ih => rw [List.foldl_cons, ih, hstep]

/-! ## Marks, history and flags -/

@[simp] theorem seating_markDirty : (tx.markDirty n).seating = tx.seating := rfl

@[simp] theorem seating_markDeps : (tx.markDeps n).seating = tx.seating := rfl

@[simp] theorem seating_event {type : String} {prev new : Value} {reason : Option String} :
    (tx.event n type prev new reason).seating = tx.seating := rfl

@[simp] theorem seating_recordRaised {mark : FlagMark} :
    (tx.recordRaised mark).seating = tx.seating := rfl

@[simp] theorem seating_recordDetail {mark : FlagMark} :
    (tx.recordDetail mark).seating = tx.seating := rfl

@[simp] theorem seating_recordResolved {mark : FlagSettled} :
    (tx.recordResolved mark).seating = tx.seating := rfl

@[simp] theorem seating_openFlag {kind : String} {flag : Flag} :
    (tx.openFlag n kind flag).seating = tx.seating := seating_modifyItem fun _ _ => rfl

@[simp] theorem seating_closeFlag {kind : String} : (tx.closeFlag n kind).seating = tx.seating :=
  seating_modifyItem fun _ _ => rfl

@[simp] theorem seating_checkIn : (tx.checkIn n).seating = tx.seating := by
  unfold checkIn
  rw [seating_markDirty]
  exact seating_modifyItem fun _ _ => rfl

@[simp] theorem seating_recordResolution {action : String} {kinds : List String}
    {reason : Option String} : (tx.recordResolution n action kinds reason).seating = tx.seating :=
  rfl

@[simp] theorem seating_recordTransition {prev : Option Status} {status : Status} :
    (tx.recordTransition n prev status).seating = tx.seating := by
  unfold recordTransition
  simp only
  split <;> rfl

@[simp] theorem seating_warnStrict : (tx.warnStrict n it).seating = tx.seating := by
  unfold warnStrict
  split <;> rfl

@[simp] theorem seating_recordUnblocked : (tx.recordUnblocked n).seating = tx.seating := rfl

@[simp] theorem seating_raiseFlag {kind : String} {detail : Value} :
    (tx.raiseFlag n kind detail).seating = tx.seating := by
  unfold raiseFlag
  simp only
  split
  · split
    · simp
    · rfl
  · simp

theorem freedStatus_closed : (tx.freedStatus it).closed = false := by
  unfold freedStatus
  split <;> rfl

@[simp] theorem seating_flagDependent : (tx.flagDependent n).seating = tx.seating := by
  unfold flagDependent
  split
  · rfl
  · split
    · rfl
    · simp

section

variable [Runtime]

@[simp] theorem seating_push {h : Holder} {kind text : String} :
    (tx.push n h kind text).seating = tx.seating := by
  unfold push
  split <;> rfl

@[simp] theorem seating_pushAll {holders : List Holder} {kind text : String} :
    (tx.pushAll n holders kind text).seating = tx.seating :=
  seating_foldl fun _ _ => seating_push

@[simp] theorem seating_resolveFlag {kind resolution : String} {snooze : Option Instant} :
    (tx.resolveFlag n kind resolution snooze).seating = tx.seating := by
  unfold resolveFlag
  split
  · simp
  · rfl

@[simp] theorem seating_resolveFlags {kinds : List String} {resolution : String} :
    (tx.resolveFlags n kinds resolution).seating = tx.seating :=
  seating_foldl fun _ _ => seating_resolveFlag

@[simp] theorem seating_clearBlockerDropped : (tx.clearBlockerDropped n).seating = tx.seating := by
  unfold clearBlockerDropped
  split
  · split
    · rfl
    · simp
  · rfl

@[simp] theorem seating_clearPickOwner {holders : List Holder} :
    (tx.clearPickOwner n holders).seating = tx.seating := by
  unfold clearPickOwner
  split
  · simp
  · rfl

/-! ## What a write does to other items -/

@[simp] theorem seating_close : (tx.close n).seating = tx.seating := by
  unfold close
  rw [seating_resolveFlags]
  exact seating_modifyItem fun _ _ => rfl

@[simp] theorem seating_reopen : (tx.reopen n).seating = tx.seating := by
  unfold reopen
  rw [seating_foldl fun _ _ => seating_clearBlockerDropped]
  exact seating_modifyItem fun _ _ => rfl

@[simp] theorem seating_closeOrReopen {prev : Option Status} {status : Status} :
    (tx.closeOrReopen n prev status).seating = tx.seating := by
  unfold closeOrReopen
  simp only
  split_ifs <;> simp

@[simp] theorem seating_dropBlocker {dep : Nat} : (tx.dropBlocker n dep).seating = tx.seating := by
  unfold dropBlocker
  rw [seating_clearBlockerDropped, seating_markDirty, seating_markDeps]
  exact seating_modifyItem fun _ _ => rfl

/-- A blocked item that goes on was open and is. -/
theorem seating_free {title : String} {dep : Nat} (hit : tx.items[dep]? = some it)
    (hopen : it.status.closed = false) : (tx.free n title dep it).seating = tx.seating := by
  unfold free
  simp only [seating_pushAll, seating_event, seating_recordUnblocked]
  refine seating_modifyItem fun it' hit' => ?_
  obtain rfl := Option.some.inj (hit.symm.trans hit')
  unfold Item.seat Item.unblocked
  simp only [freedStatus_closed, hopen]

@[simp] theorem seating_unblock {title : String} {dep : Nat} :
    (tx.unblock n title dep).seating = tx.seating := by
  unfold unblock
  simp only
  split
  · exact seating_dropBlocker
  · next it hit =>
    split
    · rw [seating_event, seating_dropBlocker]
    · next hfree =>
      have hblocked : it.status = .blocked := by
        by_contra hne
        exact hfree (.inr (.inl hne))
      rw [seating_free hit (by rw [hblocked]; rfl), seating_dropBlocker]

@[simp] theorem seating_cascadeDone {title : String} :
    (tx.cascadeDone n title).seating = tx.seating :=
  seating_foldl fun _ _ => seating_unblock

@[simp] theorem seating_tellDependents {title : String} {prev : Option Status} {status : Status} :
    (tx.tellDependents n title prev status).seating = tx.seating := by
  unfold tellDependents
  split_ifs
  · exact seating_cascadeDone
  · exact seating_foldl fun _ _ => seating_flagDependent
  · rfl

theorem seating_recheckDeps (h : tx.recheckDeps n it = .ok tx') : tx'.seating = tx.seating := by
  unfold recheckDeps at h
  split at h
  · obtain ⟨_, -, h⟩ := except_bind_ok.mp h
    obtain rfl := except_pure_ok.mp h
    exact seating_clearBlockerDropped
  · obtain rfl := Except.ok.inj h
    rfl

@[simp] theorem seating_settleSuggestion {w : Write} {before : Item} :
    (tx.settleSuggestion w before it).seating = tx.seating := by
  unfold settleSuggestion
  split
  · simp
  · rfl

@[simp] theorem seating_pushAssigned {prevPids : List String} :
    (tx.pushAssigned n it prevPids).seating = tx.seating :=
  seating_foldl fun _ _ => seating_push

@[simp] theorem seating_recordWrite {w : Write} {before after : Item} :
    (tx.recordWrite w before after).seating = tx.seating := by
  unfold recordWrite
  simp only
  split_ifs <;> rfl

@[simp] theorem seating_finish {w : Write} {before : Item} :
    (tx.finish w before).seating = tx.seating := by
  have htouch : (tx.modifyItem w.n fun it => { it with touchedAt := some tx.now }).seating =
      tx.seating := seating_modifyItem fun _ _ => rfl
  unfold finish
  simp only
  split
  · exact htouch
  · rw [seating_recordWrite, seating_markDirty, seating_pushAssigned, htouch]

end

end Board
