import Mathlib
import ClaudeManager.Board.Consistent

/-!
# Committing a write

What the second half of `apply` puts in order, step by step: new blockers, the marks of a
closed item, and the items it blocks.
-/

namespace Board

open Json Python Containers Program BoardTx

variable {tx tx' : BoardTx} {n : Nat} {P : Set Nat}

/-- An item that would go on once `n` is done has no check-back. -/
def Eased (P : Set Nat) (n : Nat) (tx : BoardTx) : Prop :=
  ∀ m ∉ P, ∀ it : Item, tx.items[m]? = some it → n ∈ it.blockedBy → Freed n it →
    it.checkBackAt = none

/-- A change of closing time alone. -/
theorem near_modifyItem {f : Item → Item} (hf : ∀ it, Item.Near it (f it)) :
    Near tx (tx.modifyItem n f) := by
  refine ⟨rfl, ?_, ?_⟩
  · intro m it' hm
    rw [modifyItem_items] at hm
    by_cases h : m = n
    · rw [if_pos h] at hm
      obtain ⟨it, hit, rfl⟩ := Option.map_eq_some_iff.mp hm
      exact ⟨it, h ▸ hit, hf it⟩
    · rw [if_neg h] at hm
      exact ⟨it', hm, (Item.Rests.refl it').near⟩
  · intro m it hm
    rw [modifyItem_items]
    by_cases h : m = n
    · rw [if_pos h, ← h, hm]
      exact ⟨f it, rfl, hf it⟩
    · rw [if_neg h]
      exact ⟨it, hm, (Item.Rests.refl it).near⟩

theorem prevStatus_closed {w : Write} {before : Item}
    (hnew : w.creating = true → before.status = .open) :
    (w.prevStatus before).any Status.closed = before.status.closed := by
  unfold Write.prevStatus
  split
  · next hcreating =>
    rw [hnew hcreating]
    rfl
  · rfl

/-- A lightened item stays sound. -/
theorem Lightened.sound {it it' : Item} (h : Lightened n it it') (hs : it.Sound) : it'.Sound := by
  have hby : ∀ b ∈ it'.blockedBy, b ≠ n ∧ b ∈ it.blockedBy := by
    intro b hb
    have heq : it'.blockedBy = it.blockedBy.erase n := congrArg Shape.blockedBy h.shape
    obtain ⟨hne, hmem⟩ := natSet_mem_erase.mp (heq ▸ hb)
    exact ⟨hne, hmem⟩
  have hon : it'.blockedOn = it.blockedOn := congrArg Shape.blockedOn h.shape
  have heta : it'.etaAt = it.etaAt := congrArg Shape.etaAt h.shape
  have hjob : it'.job = it.job := congrArg Shape.job h.shape
  have hholders : it'.holders = it.holders := congrArg Shape.holders h.shape
  rcases h.status with hst | ⟨⟨hblocked, hset, halone⟩, hst⟩
  · refine ⟨fun b hb => ?_, ?_, ?_, ?_, ?_, ?_, ?_⟩
    · rw [hst]
      exact hs.blocked b (hby b hb).2
    · rw [hon, hst]
      exact hs.trigger
    · rw [hon]
      exact hs.text
    · rw [hst, heta]
      exact hs.waiting
    · rw [hst, heta]
      exact hs.eta
    · rw [hst, hjob]
      exact hs.job
    · rw [hst, hholders]
      exact hs.owner
  · -- It waited for `n` alone, so nothing else ties it to being blocked.
    have hnone : it.blockedOn = none := by
      cases hv : it.blockedOn with
      | none => rfl
      | some t =>
        rw [hv] at hset
        refine absurd hv ?_
        have ht : t = "" := by simpa [isSet] using hset
        exact ht ▸ hs.text
    have hnoEta : it.etaAt = none := by
      by_contra hne
      rcases hs.eta hne with h | h <;> rw [hblocked] at h <;> cases h
    have hnoJob : it.job = none := by
      by_contra hne
      have h := hs.job hne
      rw [hblocked] at h
      cases h
    refine ⟨fun b hb => ?_, ?_, ?_, ?_, ?_, ?_, ?_⟩
    · exact absurd (halone b (hby b hb).2) (hby b hb).1
    · rw [hon, hnone]
      exact fun h => absurd rfl h
    · rw [hon]
      exact hs.text
    · intro hw
      rcases hst with hst | hst <;> rw [hst] at hw <;> cases hw
    · rw [heta, hnoEta]
      exact fun h => absurd rfl h
    · rw [hjob, hnoJob]
      exact fun h => absurd rfl h
    · rw [hholders]
      exact fun _ => hs.owner (by rw [hblocked]; rfl)

theorem Lightened.marked {it it' : Item} (h : Lightened n it it') (hm : it.Marked) :
    it'.Marked := by
  have hat : it'.closedAt = it.closedAt := congrArg Shape.closedAt h.shape
  have hstatus : it'.status.closed = it.status.closed := by
    rcases h.status with hst | ⟨⟨hblocked, -, -⟩, hst | hst⟩
    · rw [hst]
    · rw [hst, hblocked]
      rfl
    · rw [hst, hblocked]
      rfl
  unfold Item.Marked
  rw [hat, hstatus]
  exact ⟨hm.1, fun hc k hk => hm.2 hc k (h.flags k hk)⟩

/-- A lightened item has no check-back unless it stays blocked, where what goes on has none. -/
theorem Lightened.parked {it it' : Item} (h : Lightened n it it') (hp : it.Parked)
    (heased : Freed n it → it.checkBackAt = none) : it'.Parked := by
  have hback : it'.checkBackAt = it.checkBackAt := congrArg Shape.checkBackAt h.shape
  unfold Item.Parked
  rw [hback]
  intro hne
  rcases h.status with hst | ⟨hfreed, -⟩
  · exact hst.trans (hp hne)
  · exact absurd (heased hfreed) hne

theorem Lightened.number {it it' : Item} (h : Lightened n it it') : it'.n = it.n :=
  congrArg Shape.n h.shape

namespace BoardTx.Flagged

variable {it it' : Item}

theorem status (h : Flagged it it') : it'.status = it.status := congrArg Shape.status h.shape

theorem blockedBy (h : Flagged it it') : it'.blockedBy = it.blockedBy :=
  congrArg Shape.blockedBy h.shape

end BoardTx.Flagged

section

variable [Runtime]

/-! ## Blockers -/

theorem recheck_ok {w : Write} {before : Item} {s : Settled}
    (hc : Consistent (insert w.n P) tx) (hbefore : tx.items[w.n]? = some before)
    (hs : SettleSpec w tx before s)
    (h : ((s.tx.setItem w.n s.it).announce w before s.it).recheckDeps w.n s.it = .ok tx') :
    Holds ⟨P, {w.n}, {w.n}, {m | Lost before s.it ∧ Edge tx'.items m w.n}⟩ tx' := by
  obtain ⟨stored, hstored⟩ : ∃ stored, s.tx.setItem w.n s.it = stored := ⟨_, rfl⟩
  rw [hstored] at h
  have hq : Quiet stored (stored.announce w before s.it) := quiet_announce
  have hq' : Quiet stored tx' := hq.trans (quiet_recheckDeps h)
  have hdeps : (stored.announce w before s.it).depsChanged = s.tx.depsChanged := by
    rw [announce_deps, ← hstored]
    rfl
  have hitem : stored.items[w.n]? = some s.it := by
    rw [← hstored, setItem_items, if_pos rfl]
  have hholds : Holds (storedExempt P w.n before s.it stored.items) stored := by
    rw [← hstored]
    refine hc.store hbefore hs ?_
    intro hmem b hb
    unfold recheckDeps at h
    rw [hdeps, if_pos hmem] at h
    obtain ⟨_, hcheck, -⟩ := except_bind_ok.mp h
    have hreach := checkCycles_ok hcheck (natSet_mem_toList.mpr hb)
    rw [hstored]
    intro hway
    refine hreach (Relation.ReflTransGen.mono ?_ b w.n hway)
    exact fun x y hxy => (Near.of_quiet hq).edge.mpr hxy
  have hself : Dropped tx' w.n := by
    unfold recheckDeps at h
    split at h
    · obtain ⟨_, -, h⟩ := except_bind_ok.mp h
      obtain rfl := except_pure_ok.mp h
      exact dropped_clear
    · next hmem =>
      obtain rfl := Except.ok.inj h
      rw [hdeps] at hmem
      have hby := hs.blockedBy.resolve_right hmem
      refine dropped_quiet ?_ hq
      intro it hit hflag
      obtain rfl := Option.some.inj (hitem.symm.trans hit)
      rw [hs.openFlags] at hflag
      obtain ⟨b, hb, hdrop⟩ := hc.dropped w.n (fun h => h) before hbefore hflag
      have hbn : b ≠ w.n := fun he => hc.apart ⟨before, hbefore, he ▸ hb⟩
      refine ⟨b, hby ▸ hb, ?_⟩
      obtain ⟨bt, hbt, hst⟩ := isDropped_iff.mp hdrop
      refine isDropped_iff.mpr ⟨bt, ?_, hst⟩
      rw [← hstored, setItem_items, if_neg hbn, hs.marked.items]
      exact hbt
  have hall := hholds.quiet hq'
  refine ⟨hall.numbered, hall.sound, hall.parked, hall.marked, hall.edges, hall.acyclic, ?_⟩
  intro m hm
  by_cases hmn : m = w.n
  · exact hmn ▸ hself
  · refine hall.dropped m ?_
    rintro (he | ⟨hl, he⟩)
    · exact hmn he
    · exact hm ⟨hl, (Near.of_quiet hq').edge.mpr he⟩

/-! ## Marks of a closed item -/

/-- Resolving a flag opens none. -/
theorem resolveFlags_gone {kinds : List String} {resolution : String} {it : Item}
    (h : (tx.resolveFlags n kinds resolution).items[n]? = some it) :
    ∀ k ∈ kinds, k ∉ it.openFlags := by
  unfold resolveFlags at h
  induction kinds generalizing tx with
  | nil => simp
  | cons kind kinds ih =>
    rw [List.foldl_cons] at h
    intro k hk
    rcases List.mem_cons.mp hk with rfl | hk
    · obtain ⟨mid, hmid, hr⟩ := (Quiet.foldl (fun _ _ => quiet_resolveFlag) kinds
        (tx.resolveFlag n k resolution none)).back n it h
      exact fun hflag => resolveFlag_gone hmid (hr.flags k hflag)
    · exact ih h k hk

/-- Resolving all open flags leaves none. -/
theorem resolveFlags_all {resolution : String} {it : Item}
    (h : (tx.resolveFlags n (tx.openKinds n) resolution).items[n]? = some it) (k : String) :
    k ∉ it.openFlags := by
  intro hflag
  obtain ⟨old, hold, hr⟩ := (quiet_resolveFlags : Quiet tx _).back n it h
  refine resolveFlags_gone h k ?_ hflag
  unfold openKinds flagsOf
  rw [hold]
  exact Std.ExtTreeMap.mem_keys.mpr (hr.flags k hflag)

/-- Clearing the flags of several items clears each. -/
theorem dropped_clearAll {l : List Nat} {m : Nat} (hm : m ∈ l) :
    Dropped (l.foldl clearBlockerDropped tx) m := by
  induction l generalizing tx with
  | nil => cases hm
  | cons a l ih =>
    rw [List.foldl_cons]
    rcases List.mem_cons.mp hm with rfl | hm
    · exact dropped_quiet dropped_clear (Quiet.foldl (fun _ _ => quiet_clearBlockerDropped) l _)
    · exact ih hm

/-! ## Closing and reopening -/

theorem near_close : Near tx (tx.close n) := by
  refine Near.trans (near_modifyItem fun it => ?_) (.of_quiet quiet_resolveFlags)
  exact ⟨rfl, fun _ hk => hk⟩

theorem near_reopen : Near tx (tx.reopen n) := by
  refine Near.trans (near_modifyItem fun it => ?_)
    (.of_quiet (Quiet.foldl (fun _ _ => quiet_clearBlockerDropped) _ _))
  exact ⟨rfl, fun _ hk => hk⟩

theorem near_closeOrReopen {prev : Option Status} {status : Status} :
    Near tx (tx.closeOrReopen n prev status) := by
  unfold closeOrReopen
  simp only
  split
  · exact near_close
  · split
    · exact near_reopen
    · exact .of_quiet (.refl tx)

theorem close_other {m : Nat} (hm : m ≠ n) {it' : Item} (h : (tx.close n).items[m]? = some it') :
    ∃ it, tx.items[m]? = some it ∧ it.Rests it' := by
  obtain ⟨mid, hmid, hr⟩ := (quiet_resolveFlags : Quiet _ (tx.close n)).back m it' h
  exact ⟨mid, (modifyItem_other hm).symm.trans hmid, hr⟩

theorem reopen_other {m : Nat} (hm : m ≠ n) {it' : Item} (h : (tx.reopen n).items[m]? = some it') :
    ∃ it, tx.items[m]? = some it ∧ it.Rests it' := by
  obtain ⟨mid, hmid, hr⟩ :=
    (Quiet.foldl (fun _ _ => quiet_clearBlockerDropped) _ _ : Quiet _ (tx.reopen n)).back m it' h
  exact ⟨mid, (modifyItem_other hm).symm.trans hmid, hr⟩

/-- A closed item is marked, and has no open flag. -/
theorem close_self {it' : Item} (hclosed : it'.status.closed = true)
    (h : (tx.close n).items[n]? = some it') : it'.Marked := by
  obtain ⟨mid, hmid, hr⟩ := (quiet_resolveFlags : Quiet _ (tx.close n)).back n it' h
  rw [modifyItem_items, if_pos rfl] at hmid
  obtain ⟨old, -, rfl⟩ := Option.map_eq_some_iff.mp hmid
  refine ⟨⟨fun _ => hclosed, fun _ => ?_⟩, fun _ => resolveFlags_all h⟩
  rw [hr.closedAt]
  simp

theorem reopen_self {it' : Item} (hopen : it'.status.closed = false)
    (h : (tx.reopen n).items[n]? = some it') : it'.Marked := by
  obtain ⟨mid, hmid, hr⟩ :=
    (Quiet.foldl (fun _ _ => quiet_clearBlockerDropped) _ _ : Quiet _ (tx.reopen n)).back n it' h
  rw [modifyItem_items, if_pos rfl] at hmid
  obtain ⟨old, -, rfl⟩ := Option.map_eq_some_iff.mp hmid
  unfold Item.Marked
  rw [hr.closedAt, hopen]
  simp

theorem dropped_reopen {m : Nat} (hm : Edge tx.items m n) : Dropped (tx.reopen n) m := by
  refine dropped_clearAll (mem_dependents.mpr ?_)
  have hnear : Near tx (tx.modifyItem n fun it => { it with closedAt := none, archivedAt := none }) :=
    near_modifyItem fun it => ⟨rfl, fun _ hk => hk⟩
  exact hnear.edge.mpr hm

/-- After its marks are settled an item is in order; what remains is a cascade. -/
theorem closeOrReopen_ok {w : Write} {before it cur : Item}
    (hc : Holds ⟨P, {w.n}, {w.n}, {m | Lost before it ∧ Edge tx.items m w.n}⟩ tx)
    (hcur : tx.items[w.n]? = some cur) (hrest : it.Rests cur)
    (hclosed : it.closedAt = before.closedAt) (hflags : it.openFlags = before.openFlags)
    (hbefore : before.Marked) (hnew : w.creating = true → before.status = .open) :
    Holds ⟨P, ∅, {w.n}, {m | it.status = .done ∧ before.status ≠ .done ∧ Edge tx.items m w.n}⟩
      (tx.closeOrReopen w.n (w.prevStatus before) it.status) := by
  have hnear : Near tx (tx.closeOrReopen w.n (w.prevStatus before) it.status) :=
    near_closeOrReopen
  have hmarked : ∀ m ∉ (∅ : Set Nat), ∀ it' : Item,
      (tx.closeOrReopen w.n (w.prevStatus before) it.status).items[m]? = some it' →
        it'.Marked := by
    intro m _ it' hit'
    have hstatus : m = w.n → it'.status = it.status := by
      rintro rfl
      obtain ⟨old, hold, hr⟩ := hnear.back w.n it' hit'
      obtain rfl := Option.some.inj (hcur.symm.trans hold)
      exact hr.status.trans hrest.status
    have hold : m ≠ w.n → ∀ mt : Item, tx.items[m]? = some mt → mt.Rests it' → it'.Marked :=
      fun hm mt hmt hr => hr.marked (hc.marked m hm mt hmt)
    unfold closeOrReopen at hit'
    rw [prevStatus_closed hnew] at hit'
    simp only at hit'
    split at hit'
    · next hcloses =>
      by_cases hm : m = w.n
      · subst hm
        exact close_self (hstatus rfl ▸ hcloses.1) hit'
      · obtain ⟨mt, hmt, hr⟩ := close_other hm hit'
        exact hold hm mt hmt hr
    · split at hit'
      · next hopens =>
        by_cases hm : m = w.n
        · subst hm
          exact reopen_self (hstatus rfl ▸ hopens.1) hit'
        · obtain ⟨mt, hmt, hr⟩ := reopen_other hm hit'
          exact hold hm mt hmt hr
      · next hcloses hopens =>
        by_cases hm : m = w.n
        · -- Closed as it was: the marks it had fit.
          have hsame : it.status.closed = before.status.closed := by
            cases hi : it.status.closed <;> cases hb : before.status.closed <;>
              simp [hi, hb] at hcloses hopens ⊢
          have hit : it.Marked := by
            unfold Item.Marked
            rw [hclosed, hflags, hsame]
            exact hbefore
          subst hm
          obtain rfl := Option.some.inj (hcur.symm.trans hit')
          exact hrest.marked hit
        · exact hold hm it' hit' (.refl it')
  have hall := hc.near hnear hmarked
  refine ⟨hall.numbered, hall.sound, hall.parked, hall.marked, hall.edges, hall.acyclic, ?_⟩
  intro m hm
  by_cases hlost : Lost before it ∧ Edge tx.items m w.n
  · obtain ⟨⟨hwas, hnow⟩, hedge⟩ := hlost
    have hdone : it.status ≠ .done := by
      intro hd
      refine hm ⟨hd, ?_, hedge⟩
      rw [hwas]
      decide
    have hopens : it.status.closed = false := by
      cases hs : it.status <;> first | rfl | exact absurd hs hnow | exact absurd hs hdone
    unfold closeOrReopen
    rw [prevStatus_closed hnew, hwas, hopens]
    exact dropped_reopen hedge
  · exact hall.dropped m hlost

/-! ## The items it blocks -/

theorem cascade_back {title : String} {m : Nat} {it' : Item}
    (h : (tx.cascadeDone n title).items[m]? = some it') :
    ∃ it : Item, tx.items[m]? = some it ∧
      ((n ∈ it.blockedBy ∧ Lightened n it it') ∨ (n ∉ it.blockedBy ∧ it' = it)) := by
  have hcas : Cascaded n (tx.dependents n) tx (tx.cascadeDone n title) := cascadeDone_ok
  by_cases hm : m ∈ tx.dependents n
  · obtain ⟨it, hit, hb⟩ := mem_dependents.mp hm
    obtain ⟨it2, hit2, hl⟩ := hcas.self m hm it hit
    obtain rfl := Option.some.inj (hit2.symm.trans h)
    exact ⟨it, hit, .inl ⟨hb, hl⟩⟩
  · have hit := (hcas.other m hm).symm.trans h
    exact ⟨it', hit, .inr ⟨fun hb => hm (mem_dependents.mpr ⟨it', hit, hb⟩), rfl⟩⟩

theorem cascade_forth {title : String} {m : Nat} {it : Item} (h : tx.items[m]? = some it) :
    ∃ it' : Item, (tx.cascadeDone n title).items[m]? = some it' ∧
      ((n ∈ it.blockedBy ∧ Lightened n it it') ∨ (n ∉ it.blockedBy ∧ it' = it)) := by
  have hcas : Cascaded n (tx.dependents n) tx (tx.cascadeDone n title) := cascadeDone_ok
  by_cases hm : m ∈ tx.dependents n
  · obtain ⟨it2, hit2, hb⟩ := mem_dependents.mp hm
    obtain rfl := Option.some.inj (hit2.symm.trans h)
    obtain ⟨it', hit', hl⟩ := hcas.self m hm it2 hit2
    exact ⟨it', hit', .inl ⟨hb, hl⟩⟩
  · refine ⟨it, (hcas.other m hm).trans h, .inr ⟨fun hb => hm ?_, rfl⟩⟩
    exact mem_dependents.mpr ⟨it, h, hb⟩

/-- A cascade puts the dependents of an item that is done in order. -/
theorem cascade_holds {title : String}
    (hc : Holds ⟨P, ∅, {n}, {m | Edge tx.items m n}⟩ tx) (heased : Eased P n tx) :
    Consistent P (tx.cascadeDone n title) := by
  have hcas : Cascaded n (tx.dependents n) tx (tx.cascadeDone n title) := cascadeDone_ok
  have hedge : ∀ a b, Edge (tx.cascadeDone n title).items a b → b ≠ n ∧ Edge tx.items a b := by
    rintro a b ⟨it', hit', hb⟩
    obtain ⟨it, hit, ⟨-, hl⟩ | ⟨hn, rfl⟩⟩ := cascade_back hit'
    · have heq : it'.blockedBy = it.blockedBy.erase n := congrArg Shape.blockedBy hl.shape
      obtain ⟨hne, hmem⟩ := natSet_mem_erase.mp (heq ▸ hb)
      exact ⟨hne, it, hit, hmem⟩
    · exact ⟨fun he => hn (he ▸ hb), it', hit, hb⟩
  exact {
    numbered := by
      intro m it' hit'
      rw [hcas.board]
      obtain ⟨it, hit, ⟨-, hl⟩ | ⟨-, rfl⟩⟩ := cascade_back hit'
      · rw [hl.number]
        exact hc.numbered m it hit
      · exact hc.numbered m it' hit
    sound := by
      intro m it' hit'
      obtain ⟨it, hit, ⟨-, hl⟩ | ⟨-, rfl⟩⟩ := cascade_back hit'
      · exact hl.sound (hc.sound m it hit)
      · exact hc.sound m it' hit
    parked := by
      intro m hm it' hit'
      obtain ⟨it, hit, ⟨hb, hl⟩ | ⟨-, rfl⟩⟩ := cascade_back hit'
      · exact hl.parked (hc.parked m hm it hit) (heased m hm it hit hb)
      · exact hc.parked m hm it' hit
    marked := by
      intro m hm it' hit'
      obtain ⟨it, hit, ⟨-, hl⟩ | ⟨-, rfl⟩⟩ := cascade_back hit'
      · exact hl.marked (hc.marked m hm it hit)
      · exact hc.marked m hm it' hit
    edges := by
      intro a b hab
      obtain ⟨hne, hold⟩ := hedge a b hab
      obtain ⟨bt, hbt, hopen⟩ := hc.edges a b hold
      obtain ⟨bt', hbt', ⟨-, hl⟩ | ⟨-, rfl⟩⟩ := @cascade_forth tx n _ title b bt hbt
      · refine ⟨bt', hbt', fun hd => ?_⟩
        rcases hl.status with hst | ⟨-, hst | hst⟩
        · exact absurd (hopen (hst ▸ hd)) hne
        · rw [hst] at hd
          cases hd
        · rw [hst] at hd
          cases hd
      · exact ⟨bt', hbt', fun hd => absurd (hopen hd) hne⟩
    acyclic := hc.acyclic.mono fun a b hab => (hedge a b hab).2
    dropped := by
      intro m _
      by_cases hm : m ∈ tx.dependents n
      · exact hcas.dropped m hm
      · intro it hit hflag
        have hold := (hcas.other m hm).symm.trans hit
        obtain ⟨b, hb, hdrop⟩ := hc.dropped m (fun h => hm (mem_dependents.mpr h)) it hold hflag
        exact ⟨b, hb, (hcas.isDropped b).trans hdrop⟩ }

end

theorem flagged_back {m : Nat} {it' : Item}
    (h : (tx.flagDependentsDropped n).items[m]? = some it') :
    ∃ it : Item, tx.items[m]? = some it ∧ Flagged it it' ∧ (n ∈ it.blockedBy ∨ it' = it) := by
  obtain ⟨-, hother, hself⟩ := flagAll_ok (tx.dependents n) tx nodup_dependents
  by_cases hm : m ∈ tx.dependents n
  · obtain ⟨it, hit, hb⟩ := mem_dependents.mp hm
    obtain ⟨it2, hit2, hf⟩ := hself m hm it hit
    obtain rfl := Option.some.inj (hit2.symm.trans h)
    exact ⟨it, hit, hf, .inl hb⟩
  · exact ⟨it', (hother m hm).symm.trans h, .refl it', .inr rfl⟩

theorem flagged_forth {m : Nat} {it : Item} (h : tx.items[m]? = some it) :
    ∃ it' : Item, (tx.flagDependentsDropped n).items[m]? = some it' ∧ Flagged it it' := by
  obtain ⟨-, hother, hself⟩ := flagAll_ok (tx.dependents n) tx nodup_dependents
  by_cases hm : m ∈ tx.dependents n
  · exact hself m hm it h
  · exact ⟨it, (hother m hm).trans h, .refl it⟩

/-- Every item keeps its shape; a flag opens on an open item alone, and the flag of a dropped
blocker where there is one. -/
structure Tagged (tx tx' : BoardTx) : Prop where
  board : tx'.board = tx.board
  back : ∀ (m : Nat) (it' : Item), tx'.items[m]? = some it' → ∃ it : Item,
    tx.items[m]? = some it ∧ it'.shape = it.shape ∧ ∀ k, k ∈ it'.openFlags → k ∈ it.openFlags ∨
      it.status.closed = false ∧
        (k = blockerDropped → ∃ b ∈ it.blockedBy, tx.isDropped b = true)
  forth : ∀ (m : Nat) (it : Item), tx.items[m]? = some it → ∃ it' : Item,
    tx'.items[m]? = some it' ∧ it'.shape = it.shape

theorem Tagged.isDropped (h : Tagged tx tx') {m : Nat} : tx'.isDropped m = tx.isDropped m := by
  rw [Bool.eq_iff_iff, isDropped_iff, isDropped_iff]
  constructor
  · rintro ⟨it', hit', hst⟩
    obtain ⟨it, hit, hshape, -⟩ := h.back m it' hit'
    exact ⟨it, hit, (congrArg Shape.status hshape).symm.trans hst⟩
  · rintro ⟨it, hit, hst⟩
    obtain ⟨it', hit', hshape⟩ := h.forth m it hit
    exact ⟨it', hit', (congrArg Shape.status hshape).trans hst⟩

/-- Flags that open where they may keep a board in order. -/
theorem Holds.tagged {P : Set Nat} (hc : Consistent P tx) (h : Tagged tx tx') :
    Consistent P tx' where
  numbered := by
    intro m it' hit'
    obtain ⟨it, hit, hshape, -⟩ := h.back m it' hit'
    have hnum : it'.n = it.n := congrArg Shape.n hshape
    rw [h.board, hnum]
    exact hc.numbered m it hit
  sound := by
    intro m it' hit'
    obtain ⟨it, hit, hshape, -⟩ := h.back m it' hit'
    have hmid : Item.Rests { it with openFlags := it'.openFlags } it' := ⟨hshape, fun _ hk => hk⟩
    have hs := hc.sound m it hit
    exact hmid.sound ⟨hs.blocked, hs.trigger, hs.text, hs.waiting, hs.eta, hs.job, hs.owner⟩
  parked := by
    intro m hm it' hit'
    obtain ⟨it, hit, hshape, -⟩ := h.back m it' hit'
    have hmid : Item.Rests { it with openFlags := it'.openFlags } it' := ⟨hshape, fun _ hk => hk⟩
    exact hmid.parked (hc.parked m hm it hit)
  marked := by
    intro m hm it' hit'
    obtain ⟨it, hit, hshape, hflags⟩ := h.back m it' hit'
    have hmid : Item.Rests { it with openFlags := it'.openFlags } it' := ⟨hshape, fun _ hk => hk⟩
    have hold := hc.marked m hm it hit
    refine hmid.marked ⟨hold.1, fun hclosed k hk => ?_⟩
    rcases hflags k hk with hk | ⟨hopen, -⟩
    · exact hold.2 hclosed k hk
    · rw [show it.status.closed = true from hclosed] at hopen
      cases hopen
  edges := by
    rintro a b ⟨it', hit', hb⟩
    obtain ⟨it, hit, hshape, -⟩ := h.back a it' hit'
    have hby : it'.blockedBy = it.blockedBy := congrArg Shape.blockedBy hshape
    obtain ⟨bt, hbt, hopen⟩ := hc.edges a b ⟨it, hit, hby ▸ hb⟩
    obtain ⟨bt', hbt', hshape'⟩ := h.forth b bt hbt
    exact ⟨bt', hbt', fun hd => hopen ((congrArg Shape.status hshape').symm.trans hd)⟩
  acyclic := by
    refine hc.acyclic.mono ?_
    rintro a b ⟨it', hit', hb⟩
    obtain ⟨it, hit, hshape, -⟩ := h.back a it' hit'
    have hby : it'.blockedBy = it.blockedBy := congrArg Shape.blockedBy hshape
    exact ⟨it, hit, hby ▸ hb⟩
  dropped := by
    intro m hm it' hit' hflag
    obtain ⟨it, hit, hshape, hflags⟩ := h.back m it' hit'
    have hby : it'.blockedBy = it.blockedBy := congrArg Shape.blockedBy hshape
    obtain ⟨b, hb, hdrop⟩ : ∃ b ∈ it.blockedBy, tx.isDropped b = true := by
      rcases hflags _ hflag with hold | ⟨-, hnew⟩
      · exact hc.dropped m hm it hit hold
      · exact hnew rfl
    exact ⟨b, hby ▸ hb, h.isDropped.trans hdrop⟩

/-- Flagging the dependents of an item that is dropped keeps a board in order. -/
theorem flagDependents_holds {P : Set Nat} (hc : Consistent P tx) (hn : tx.isDropped n = true) :
    Consistent P (tx.flagDependentsDropped n) := by
  obtain ⟨hboard, -⟩ := flagAll_ok (tx.dependents n) tx nodup_dependents
  refine hc.tagged ⟨hboard, ?_, ?_⟩
  · intro m it' hit'
    obtain ⟨it, hit, hf, hb⟩ := flagged_back hit'
    refine ⟨it, hit, hf.shape, fun k hk => ?_⟩
    rcases hb with hb | rfl
    · exact (hf.flags k hk).imp_right fun h => ⟨h.2, fun _ => ⟨n, hb, hn⟩⟩
    · exact .inl hk
  · intro m it hit
    obtain ⟨it', hit', hf⟩ := flagged_forth (n := n) hit
    exact ⟨it', hit', hf.shape⟩

/-- So does any other flag that opens on an open item. -/
theorem raiseFlag_tagged {kind : String} {detail : Value} {it : Item}
    (hkind : kind ≠ blockerDropped) (hit : tx.items[n]? = some it)
    (hopen : it.status.closed = false) : Tagged tx (tx.raiseFlag n kind detail) := by
  obtain ⟨new, hnew, hshape, hflags⟩ := @raiseFlag_self tx n kind detail it hit
  refine ⟨raiseFlag_board, ?_, ?_⟩
  · intro m it' hit'
    by_cases hm : m = n
    · subst hm
      obtain rfl := Option.some.inj (hnew.symm.trans hit')
      refine ⟨it, hit, hshape, fun k hk => ?_⟩
      refine (hflags k hk).imp_right fun he => ⟨hopen, fun hd => ?_⟩
      exact absurd (he.symm.trans hd) hkind
    · rw [raiseFlag_other hm] at hit'
      exact ⟨it', hit', rfl, fun k hk => .inl hk⟩
  · intro m it2 hit2
    by_cases hm : m = n
    · subst hm
      obtain rfl := Option.some.inj (hit.symm.trans hit2)
      exact ⟨new, hnew, hshape⟩
    · exact ⟨it2, (raiseFlag_other hm).trans hit2, rfl⟩

end Board
