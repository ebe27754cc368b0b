import Mathlib
import ClaudeManager.Board.HandBack

/-!
# No hold is lost

* `Only` — steps of a write that leave every other item, and the posts of its own
* `handed_write` — what a write that hands one hold over leaves
* `handBackHolds_loses_none` — every open item is handed back or kept as it was
-/

namespace Board

open Json Python Containers Program BoardTx

/-! ## Steps on one item -/

/-- What decides who holds an item, and whether it is open. -/
structure Custody where
  holders : List Holder
  closedAt : Option Instant
  archivedAt : Option Instant
  linkArchivedAt : Option Instant

def Item.custody (it : Item) : Custody :=
  ⟨it.holders, it.closedAt, it.archivedAt, it.linkArchivedAt⟩

/-- A step on the item `n` that leaves all others, and who holds it. -/
structure Only (n : Nat) (tx tx' : BoardTx) : Prop where
  others : ∀ m ≠ n, tx'.items[m]? = tx.items[m]?
  custody : ∀ m : Nat, tx'.items[m]?.map Item.custody = tx.items[m]?.map Item.custody
  changed : tx'.holdersChanged = tx.holdersChanged
  board : tx'.board = tx.board
  groups : tx'.groups = tx.groups

namespace Only

variable {n : Nat} {tx tx' tx'' : BoardTx} {f : Item → Item}

theorem of_items (hitems : tx'.items = tx.items) (hchanged : tx'.holdersChanged = tx.holdersChanged)
    (hboard : tx'.board = tx.board) (hgroups : tx'.groups = tx.groups) : Only n tx tx' :=
  ⟨fun m _ => by rw [hitems], fun m => by rw [hitems], hchanged, hboard, hgroups⟩

theorem refl : Only n tx tx := of_items rfl rfl rfl rfl

theorem trans (h : Only n tx tx') (h' : Only n tx' tx'') : Only n tx tx'' where
  others m hm := (h'.others m hm).trans (h.others m hm)
  custody m := (h'.custody m).trans (h.custody m)
  changed := h'.changed.trans h.changed
  board := h'.board.trans h.board
  groups := h'.groups.trans h.groups

theorem foldl {α : Type} {f : BoardTx → α → BoardTx} (hf : ∀ tx a, Only n tx (f tx a)) :
    ∀ (l : List α) (tx : BoardTx), Only n tx (l.foldl f tx)
  | [], _ => refl
  | a :: l, tx => (hf tx a).trans (foldl hf l (f tx a))

theorem modifyItem (hf : ∀ it, (f it).custody = it.custody) : Only n tx (tx.modifyItem n f) := by
  refine ⟨fun m hm => ?_, fun m => ?_, rfl, rfl, rfl⟩
  · rw [modifyItem_items, if_neg hm]
  · rw [modifyItem_items]
    by_cases hm : m = n
    · subst hm
      rw [if_pos rfl, Option.map_map]
      exact Option.map_congr fun it _ => hf it
    · rw [if_neg hm]

section

variable [Runtime]

theorem push {m : Nat} {h : Holder} {kind text : String} : Only n tx (tx.push m h kind text) := by
  unfold BoardTx.push
  split
  · exact of_items rfl rfl rfl rfl
  · exact refl

theorem resolveFlag {kind resolution : String} {snooze : Option Instant} :
    Only n tx (tx.resolveFlag n kind resolution snooze) := by
  have hclosed : Only n tx (tx.closeFlag n kind) := modifyItem fun _ => rfl
  unfold BoardTx.resolveFlag
  split
  · exact hclosed.trans (of_items rfl rfl rfl rfl)
  · exact refl

theorem clearBlockerDropped : Only n tx (tx.clearBlockerDropped n) := by
  unfold BoardTx.clearBlockerDropped
  split
  · split
    · exact refl
    · exact resolveFlag
  · exact refl

theorem announce {w : Write} {before it : Item} (hn : w.n = n) : Only n tx (tx.announce w before it) := by
  subst hn
  have howner : ∀ {prevOwner : Option String} {prev : Option Status},
      Only w.n tx (tx.recordOwner w.n prevOwner prev it) := by
    intro prevOwner prev
    unfold recordOwner
    simp only
    split
    · exact of_items rfl rfl rfl rfl
    · split
      · exact of_items rfl rfl rfl rfl
      · exact refl
  have hpick : ∀ {tx : BoardTx}, Only w.n tx (tx.clearPickOwner w.n it.holders) := by
    intro tx
    unfold clearPickOwner
    split
    · exact resolveFlag
    · exact refl
  have hwarn : ∀ {tx : BoardTx}, Only w.n tx (tx.warnStrict w.n it) := by
    intro tx
    unfold warnStrict
    split
    · exact of_items rfl rfl rfl rfl
    · exact refl
  have htransition : ∀ {tx : BoardTx} {prev : Option Status},
      Only w.n tx (tx.recordTransition w.n prev it.status) := by
    intro tx prev
    unfold recordTransition
    simp only
    split
    · exact refl
    · exact of_items rfl rfl rfl rfl
  exact ((howner.trans hpick).trans hwarn).trans htransition

theorem recheckDeps {it : Item} (h : tx.recheckDeps n it = .ok tx') : Only n tx tx' := by
  unfold BoardTx.recheckDeps at h
  split at h
  · obtain ⟨_, -, h⟩ := except_bind_ok.mp h
    obtain rfl := except_pure_ok.mp h
    exact clearBlockerDropped
  · obtain rfl := Except.ok.inj h
    exact refl

theorem settleSuggestion {w : Write} {before it : Item} (hn : w.n = n) :
    Only n tx (tx.settleSuggestion w before it) := by
  subst hn
  unfold BoardTx.settleSuggestion
  split
  · exact resolveFlag
  · exact refl

theorem finish {w : Write} {before : Item} (hn : w.n = n) : Only n tx (tx.finish w before) := by
  subst hn
  have htouched : Only w.n tx (tx.modifyItem w.n fun it => { it with touchedAt := some tx.now }) :=
    modifyItem fun _ => rfl
  have hpush : ∀ {tx : BoardTx} {it : Item} {pids : List String},
      Only w.n tx (tx.pushAssigned w.n it pids) := fun {tx} _ _ => foldl (fun _ _ => push) _ tx
  have hwrite : ∀ {tx : BoardTx} {it : Item}, Only w.n tx (tx.recordWrite w before it) := by
    intro tx it
    unfold recordWrite
    simp only
    split
    · exact of_items rfl rfl rfl rfl
    · split <;> exact of_items rfl rfl rfl rfl
  have hmark : ∀ {tx : BoardTx}, Only w.n tx (tx.markDirty w.n) := of_items rfl rfl rfl rfl
  unfold BoardTx.finish
  simp only
  split
  · exact htouched
  · exact (htouched.trans hpush).trans (hmark.trans hwrite)

end

end Only

/-! ## A write of no fields -/

section

variable [Runtime] {w : Write} {tx tx' : BoardTx} {it before : Item} {s : Settled}

omit [Runtime] in
theorem lookup_plain (hf : w.fields = []) (key : String) : w.fields.lookup key = none := by
  rw [hf]
  rfl

omit [Runtime] in
theorem has_plain (hf : w.fields = []) (key : String) : w.has key = false := by
  unfold Write.has
  rw [lookup_plain hf]
  rfl

omit [Runtime] in
theorem given_plain (hf : w.fields = []) (key : String) : w.given key = false := by
  unfold Write.given Write.get
  rw [lookup_plain hf]
  simp

omit [Runtime] in
theorem withField_plain (hf : w.fields = []) {key : String} {f : Value → Draft → Except Fault Draft}
    {d : Draft} : withField w key f d = .ok d := by
  unfold withField
  rw [lookup_plain hf]

theorem setFields_plain (hf : w.fields = []) {d : Draft} : setFields w d = .ok d := by
  have hgroup : ∀ d, setGroup w d = .ok d := by
    intro d
    unfold setGroup
    rw [if_neg]
    simp [has_plain hf]
  unfold setFields
  simp only [withField_plain hf, hgroup]
  rfl

omit [Runtime] in
/-- Its status follows from the holders alone, and does not open or close the item. -/
theorem deriveStatus_plain (hf : w.fields = []) (hc : w.creating = false) {held changed : Bool} :
    (deriveStatus w tx it none held changed).1 = it.status ∨
      it.status.closed = false ∧ (deriveStatus w tx it none held changed).1.closed = false := by
  have hfields : ∀ status, statusOfFields w tx it held status = status := by
    intro status
    unfold statusOfFields
    simp [has_plain hf, given_plain hf]
  have hadds : ∀ status, ownerAdds w tx held status = false := by
    intro status
    unfold ownerAdds
    simp [hc]
  unfold deriveStatus
  simp only [hfields, hadds, Bool.false_eq_true, if_false]
  unfold statusOfHolders
  simp only [hc, Bool.false_eq_true, if_false]
  split_ifs with h1 h2 h3 h4 h5
  · exact .inl rfl
  · exact .inl h2.2.1.symm
  · refine .inr ⟨?_, rfl⟩
    rw [h3.2]
    rfl
  · exact .inl rfl
  · refine .inr ⟨?_, rfl⟩
    rw [h5]
    rfl
  · exact .inl rfl

/-- What the first half of such a write leaves. -/
structure Plain (w : Write) (tx : BoardTx) (before : Item) (s : Settled) : Prop where
  items : s.tx.items = tx.items
  board : s.tx.board = tx.board
  groups : s.tx.groups = tx.groups
  closedAt : s.it.closedAt = before.closedAt
  archivedAt : s.it.archivedAt = before.archivedAt
  linkArchivedAt : s.it.linkArchivedAt = before.linkArchivedAt
  status : s.it.status = before.status ∨ before.status.closed = false ∧ s.it.status.closed = false

theorem settle_plain (hf : w.fields = []) (hc : w.creating = false)
    (h : settle w ⟨tx, before⟩ = .ok s) : Plain w tx before s := by
  have hspec := settle_ok h
  unfold settle at h
  obtain ⟨_, -, h⟩ := except_bind_ok.mp h
  have hexplicit : explicitStatus w = .ok none := by
    unfold explicitStatus
    rw [lookup_plain hf]
  rw [hexplicit, setFields_plain hf] at h
  obtain ⟨_, hnone, h⟩ := except_bind_ok.mp h
  obtain rfl := Except.ok.inj hnone
  obtain ⟨_, hsame, h⟩ := except_bind_ok.mp h
  obtain rfl := Except.ok.inj hsame
  obtain ⟨d2, hd2⟩ : ∃ d2, setHolders w ⟨tx, before⟩ = d2 := ⟨_, rfl⟩
  rw [hd2] at h
  have hblockers : setBlockers w d2 = .ok d2 := by
    unfold setBlockers
    rw [lookup_plain hf]
  obtain ⟨_, hsame, h⟩ := except_bind_ok.mp h
  rw [hblockers] at hsame
  obtain rfl := Except.ok.inj hsame
  have h2 : d2.tx.groups = tx.groups ∧ d2.it.archivedAt = before.archivedAt ∧
      d2.it.status = before.status := by
    unfold setHolders at hd2
    split at hd2 <;> subst hd2 <;> exact ⟨rfl, rfl, rfl⟩
  obtain ⟨status, warnings, hstatus⟩ : ∃ status warnings, deriveStatus w d2.tx d2.it none
    (decide (newHolders w before ≠ [])) (holdersChange w before) = (status, warnings) := ⟨_, _, rfl⟩
  simp only [hstatus] at h
  obtain ⟨_, -, h⟩ := except_bind_ok.mp h
  obtain ⟨_, -, h⟩ := except_bind_ok.mp h
  obtain ⟨_, -, h⟩ := except_bind_ok.mp h
  obtain ⟨d4, hblocked, h⟩ := except_bind_ok.mp h
  obtain ⟨d5, hset, h⟩ := except_bind_ok.mp h
  obtain ⟨d6, hjob, h⟩ := except_bind_ok.mp h
  obtain ⟨_, -, h⟩ := except_bind_ok.mp h
  obtain rfl := except_pure_ok.mp h
  have h4 : d4.tx.groups = d2.tx.groups ∧ d4.it.archivedAt = d2.it.archivedAt := by
    unfold settleBlocked at hblocked
    split at hblocked
    · obtain ⟨_, -, hblocked⟩ := except_bind_ok.mp hblocked
      obtain ⟨_, -, hblocked⟩ := except_bind_ok.mp hblocked
      obtain rfl := except_pure_ok.mp hblocked
      refine ⟨?_, rfl⟩
      simp only
      split <;> rfl
    · split at hblocked <;> obtain rfl := Except.ok.inj hblocked <;> exact ⟨rfl, rfl⟩
  obtain ⟨htx5, hit5, -⟩ := settleEta_spec hset
  obtain ⟨htx6, hit6, -⟩ := settleJob_spec hjob
  have h6 : d6.it.archivedAt = d4.it.archivedAt := by
    rcases hit5 with h5 | h5 <;> rcases hit6 with h6 | h6 <;> rw [h6, h5] <;> rfl
  refine ⟨hspec.marked.items, hspec.marked.board, ?_, hspec.closedAt, ?_,
    congrArg Identity.linkArchivedAt hspec.identity, ?_⟩
  · show d6.tx.groups = tx.groups
    rw [htx6, htx5, h4.1]
    exact h2.1
  · show d6.it.archivedAt = before.archivedAt
    rw [h6, h4.2]
    exact h2.2.1
  · have hderived : (deriveStatus w d2.tx d2.it none (decide (newHolders w before ≠ []))
        (holdersChange w before)).1 = d2.it.status ∨ d2.it.status.closed = false ∧ _ :=
      deriveStatus_plain hf hc
    rw [hstatus, h2.2.2] at hderived
    exact hderived

/-- Such a write changes no other item, and puts its holders on its own. -/
theorem apply_plain (hf : w.fields = []) (hc : w.creating = false)
    (hitem : tx.items[w.n]? = some before) (h : tx.apply w = .ok tx') :
    (∀ m ≠ w.n, tx'.items[m]? = tx.items[m]?) ∧ tx'.board = tx.board ∧ tx'.groups = tx.groups ∧
      (∃ it', tx'.items[w.n]? = some it' ∧
        it'.custody = { before.custody with holders := it'.holders } ∧
        (changedHolders w before = none ∧ it'.holders = before.holders ∧
            tx'.holdersChanged = tx.holdersChanged ∨
          changedHolders w before = some it'.holders ∧
            tx'.holdersChanged = tx.holdersChanged.insert w.n)) := by
  unfold BoardTx.apply at h
  obtain ⟨it₀, hit₀, h⟩ := except_bind_ok.mp h
  have hsame := item_ok hit₀
  rw [hitem] at hsame
  obtain rfl := Option.some.inj hsame
  obtain ⟨s, hsettle, h⟩ := except_bind_ok.mp h
  have hplain := settle_plain hf hc hsettle
  have hacc := settle_accounted hsettle
  unfold commit at h
  obtain ⟨tx3, hdeps, h⟩ := except_bind_ok.mp h
  obtain rfl := except_pure_ok.mp h
  have hprev : w.prevStatus before = some before.status := by
    unfold Write.prevStatus
    rw [hc]
    rfl
  have hclosed : s.it.status.closed = before.status.closed := by
    rcases hplain.status with hst | ⟨hb, hs⟩
    · rw [hst]
    · rw [hb, hs]
  have hstay : ∀ tx : BoardTx, tx.closeOrReopen w.n (w.prevStatus before) s.it.status = tx := by
    intro tx
    unfold closeOrReopen
    rw [hprev, hclosed, Option.any_some]
    cases before.status.closed <;> simp
  have htell : ∀ (tx : BoardTx) (title : String),
      tx.tellDependents w.n title (w.prevStatus before) s.it.status = tx := by
    intro tx title
    unfold tellDependents
    rw [hprev, if_neg, if_neg]
    · rintro ⟨hdropped, hopen⟩
      rw [Option.any_some, ← hclosed, hdropped] at hopen
      cases hopen
    · rintro ⟨hdone, hne⟩
      rcases hplain.status with hst | ⟨-, hs⟩
      · exact hne (congrArg some (hst.symm.trans hdone))
      · rw [hdone] at hs
        cases hs
  have honly : Only w.n (s.tx.setItem w.n s.it) ((((tx3.settleSuggestion w before s.it).closeOrReopen
      w.n (w.prevStatus before) s.it.status).tellDependents w.n s.it.title (w.prevStatus before)
      s.it.status).finish w before) := by
    rw [hstay, htell]
    exact (((Only.announce rfl).trans (Only.recheckDeps hdeps)).trans
      (Only.settleSuggestion rfl)).trans (Only.finish rfl)
  refine ⟨fun m hm => ?_, ?_, ?_, ?_⟩
  · rw [honly.others m hm, setItem_items, if_neg hm, hplain.items]
  · exact honly.board.trans hplain.board
  · exact honly.groups.trans hplain.groups
  · have hself := honly.custody w.n
    rw [setItem_items, if_pos rfl] at hself
    obtain ⟨it', hit', hcustody⟩ := Option.map_eq_some_iff.mp hself
    have hholders : it'.holders = s.it.holders := congrArg Custody.holders hcustody
    refine ⟨it', hit', ?_, ?_⟩
    · rw [hcustody, hholders]
      unfold Item.custody
      rw [hplain.closedAt, hplain.archivedAt, hplain.linkArchivedAt]
    · have hchanged := honly.changed
      have hset : (s.tx.setItem w.n s.it).holdersChanged = s.tx.holdersChanged := rfl
      rw [hset] at hchanged
      rw [hchanged, hholders]
      exact hacc.holders

end

/-! ## One hold -/

/-- What handing one hold over leaves of its item. -/
structure Handed (source target : String) (role : Option Role) (it it' : Item) : Prop where
  once : (it'.holders.map Holder.pid).Nodup
  gone : ∀ k ∈ it'.holders, k.pid ≠ source
  /-- The receiver owns what was owned, keeps a role it has there already, and else gets one. -/
  receives : ∃ k ∈ it'.holders, k.pid = target ∧
    if role = some .owner then k.role = some .owner
    else if target ∈ it.holders.map Holder.pid then ∃ h ∈ it.holders, h.pid = target ∧ k.role = h.role
    else k.role = some (received role it.holders)
  sole : role = some .owner → ∀ k ∈ it'.holders, k.owns = true → k.pid = target
  /-- The others stay in their roles; beside an owner that is named, no other owner remains. -/
  others : ∀ p, p ≠ source → p ≠ target → ∀ r, (p, r) ∈ it'.holders.map Holder.post ↔
    (p, r) ∈ it.holders.map (if role = some .owner then Holder.demoted else Holder.post)
  owned : it.holders.any Holder.owns = true → it'.holders.any Holder.owns = true
  isOpen : it'.isOpen = it.isOpen

variable {source reason : String} {target : Holder} {role : Option Role} {it it' : Item}

/-- The posts a handed item has, in some order. -/
def handedPosts (source target : String) (role : Option Role) (l : List Holder) :
    List (String × Option Role) :=
  if role = some .owner then
    (target, some .owner) ::
      (l.filter fun h => h.pid ≠ source ∧ h.pid ≠ target).map Holder.demoted
  else (l.filter fun h => h.pid ≠ source).map Holder.post ++
    if target ∈ l.map Holder.pid then [] else [(target, some (received role l))]

theorem owns_iff_post {l : List Holder} : l.any Holder.owns = true ↔
    ∃ p, (p, some Role.owner) ∈ l.map Holder.post := by
  rw [List.any_eq_true]
  constructor
  · rintro ⟨h, hh, howns⟩
    have hrole : h.role = some .owner := by simpa [Holder.owns] using howns
    exact ⟨h.pid, List.mem_map.mpr ⟨h, hh, by rw [Holder.post, hrole]⟩⟩
  · rintro ⟨p, hp⟩
    obtain ⟨h, hh, hpost⟩ := List.mem_map.mp hp
    have hrole : h.role = some .owner := congrArg Prod.snd hpost
    exact ⟨h, hh, by simp [Holder.owns, hrole]⟩

theorem handedPosts_nodup {target : String} {l : List Holder} (hnodup : (l.map Holder.pid).Nodup)
    (hne : target ≠ source) : ((handedPosts source target role l).map Prod.fst).Nodup := by
  have hfilter : ∀ p : Holder → Bool, ((l.filter p).map Holder.pid).Nodup := fun p =>
    hnodup.sublist (List.filter_sublist.map Holder.pid)
  unfold handedPosts
  split
  · rw [List.map_cons, List.map_map]
    refine List.nodup_cons.mpr ⟨fun hmem => ?_, hfilter _⟩
    obtain ⟨h, hh, hpid⟩ := List.mem_map.mp hmem
    exact (of_decide_eq_true (List.mem_filter.mp hh).2).2 hpid
  · rw [List.map_append, List.map_map]
    refine List.nodup_append.mpr ⟨hfilter _, ?_, fun p hp q hq heq => ?_⟩
    · split
      · exact .nil
      · exact List.nodup_singleton _
    · split at hq
      · cases hq
      · rename_i hnot
        obtain rfl := List.mem_singleton.mp hq
        obtain ⟨h, hh, hpid⟩ := List.mem_map.mp hp
        exact hnot (List.mem_map.mpr ⟨h, (List.mem_filter.mp hh).1, hpid.trans heq⟩)

theorem handed_of_posts (hnodup : (it.holders.map Holder.pid).Nodup) (hne : target.pid ≠ source)
    (hopen : it'.isOpen = it.isOpen)
    (hsource : ∀ h ∈ it.holders, h.pid = source → h.role = role)
    (hposts : (it'.holders.map Holder.post).Perm (handedPosts source target.pid role it.holders)) :
    Handed source target.pid role it it' := by
  have hmem : ∀ e, e ∈ it'.holders.map Holder.post ↔ e ∈ handedPosts source target.pid role it.holders :=
    fun _ => hposts.mem_iff
  have honce : (it'.holders.map Holder.pid).Nodup := by
    have hpids := (hposts.map Prod.fst).nodup_iff.mpr (handedPosts_nodup hnodup hne)
    rw [List.map_map] at hpids
    exact hpids
  by_cases hrole : role = some .owner
  · have hlist : handedPosts source target.pid role it.holders = (target.pid, some .owner) ::
        (it.holders.filter fun h => h.pid ≠ source ∧ h.pid ≠ target.pid).map Holder.demoted := by
      rw [handedPosts, if_pos hrole]
    have hall : ∀ k ∈ it'.holders, k.post = (target.pid, some .owner) ∨
        ∃ h ∈ it.holders, h.pid ≠ source ∧ h.pid ≠ target.pid ∧ k.post = h.demoted := by
      intro k hk
      have hin := (hmem k.post).mp (List.mem_map_of_mem hk)
      rw [hlist] at hin
      rcases List.mem_cons.mp hin with heq | hin
      · exact .inl heq
      · obtain ⟨h, hh, heq⟩ := List.mem_map.mp hin
        obtain ⟨hh, hc⟩ := List.mem_filter.mp hh
        have hc := of_decide_eq_true hc
        exact .inr ⟨h, hh, hc.1, hc.2, heq.symm⟩
    have hdemoted : ∀ h : Holder, h.demoted.2 ≠ some .owner := by
      intro h hc
      unfold Holder.demoted at hc
      simp only at hc
      split at hc
      · cases hc
      · rename_i hno
        simp [Holder.owns, hc] at hno
    have hfirst : (target.pid, some Role.owner) ∈ it'.holders.map Holder.post := by
      rw [hmem, hlist]
      exact List.mem_cons_self
    refine ⟨honce, fun k hk => ?_, ?_, fun _ k hk howns => ?_, fun p hp hp' r => ?_, fun _ => ?_, hopen⟩
    · rcases hall k hk with heq | ⟨h, -, hs, -, heq⟩
      · exact (congrArg Prod.fst heq).trans_ne hne
      · exact (congrArg Prod.fst heq).trans_ne hs
    · obtain ⟨k, hk, heq⟩ := List.mem_map.mp hfirst
      refine ⟨k, hk, congrArg Prod.fst heq, ?_⟩
      rw [if_pos hrole]
      exact congrArg Prod.snd heq
    · rcases hall k hk with heq | ⟨h, -, -, -, heq⟩
      · exact congrArg Prod.fst heq
      · have hk : k.role = some .owner := by simpa [Holder.owns] using howns
        exact absurd ((congrArg Prod.snd heq).symm.trans hk) (hdemoted h)
    · rw [hmem, hlist, if_pos hrole]
      constructor
      · intro hin
        rcases List.mem_cons.mp hin with heq | hin
        · exact absurd (congrArg Prod.fst heq) hp'
        · obtain ⟨h, hh, heq⟩ := List.mem_map.mp hin
          exact List.mem_map.mpr ⟨h, (List.mem_filter.mp hh).1, heq⟩
      · intro hin
        obtain ⟨h, hh, heq⟩ := List.mem_map.mp hin
        have hpid : h.pid = p := congrArg Prod.fst heq
        refine List.mem_cons_of_mem _ (List.mem_map.mpr ⟨h, List.mem_filter.mpr ⟨hh, ?_⟩, heq⟩)
        rw [hpid]
        exact decide_eq_true ⟨hp, hp'⟩
    · exact owns_iff_post.mpr ⟨target.pid, hfirst⟩
  · have hlist : handedPosts source target.pid role it.holders =
        (it.holders.filter fun h => h.pid ≠ source).map Holder.post ++
          if target.pid ∈ it.holders.map Holder.pid then []
          else [(target.pid, some (received role it.holders))] := by
      rw [handedPosts, if_neg hrole]
    have hstays : ∀ h ∈ it.holders, h.pid ≠ source → h.post ∈ it'.holders.map Holder.post := by
      intro h hh hs
      rw [hmem, hlist]
      exact List.mem_append_left _
        (List.mem_map_of_mem (List.mem_filter.mpr ⟨hh, decide_eq_true hs⟩))
    have hall : ∀ k ∈ it'.holders, (∃ h ∈ it.holders, h.pid ≠ source ∧ k.post = h.post) ∨
        target.pid ∉ it.holders.map Holder.pid ∧
          k.post = (target.pid, some (received role it.holders)) := by
      intro k hk
      have hin := (hmem k.post).mp (List.mem_map_of_mem hk)
      rw [hlist] at hin
      rcases List.mem_append.mp hin with hin | hin
      · obtain ⟨h, hh, heq⟩ := List.mem_map.mp hin
        obtain ⟨hh, hc⟩ := List.mem_filter.mp hh
        exact .inl ⟨h, hh, of_decide_eq_true hc, heq.symm⟩
      · split at hin
        · cases hin
        · rename_i hnot
          exact .inr ⟨hnot, List.mem_singleton.mp hin⟩
    refine ⟨honce, fun k hk => ?_, ?_, fun hc => absurd hc hrole, fun p hp hp' r => ?_,
      fun hany => ?_, hopen⟩
    · rcases hall k hk with ⟨h, -, hs, heq⟩ | ⟨-, heq⟩
      · exact (congrArg Prod.fst heq).trans_ne hs
      · exact (congrArg Prod.fst heq).trans_ne hne
    · by_cases hin : target.pid ∈ it.holders.map Holder.pid
      · obtain ⟨h, hh, hpid⟩ := List.mem_map.mp hin
        obtain ⟨k, hk, heq⟩ := List.mem_map.mp (hstays h hh (hpid.trans_ne hne))
        refine ⟨k, hk, (congrArg Prod.fst heq).trans hpid, ?_⟩
        rw [if_neg hrole, if_pos hin]
        exact ⟨h, hh, hpid, congrArg Prod.snd heq⟩
      · have hnew : (target.pid, some (received role it.holders)) ∈ it'.holders.map Holder.post := by
          rw [hmem, hlist, if_neg hin]
          exact List.mem_append_right _ List.mem_cons_self
        obtain ⟨k, hk, heq⟩ := List.mem_map.mp hnew
        refine ⟨k, hk, congrArg Prod.fst heq, ?_⟩
        rw [if_neg hrole, if_neg hin]
        exact congrArg Prod.snd heq
    · rw [if_neg hrole]
      constructor
      · intro hin
        obtain ⟨k, hk, heq⟩ := List.mem_map.mp hin
        rcases hall k hk with ⟨h, hh, -, hsame⟩ | ⟨-, hsame⟩
        · exact List.mem_map.mpr ⟨h, hh, hsame.symm.trans heq⟩
        · exact absurd (congrArg Prod.fst (heq.symm.trans hsame)) hp'
      · intro hin
        obtain ⟨h, hh, heq⟩ := List.mem_map.mp hin
        rw [← heq]
        exact hstays h hh ((congrArg Prod.fst heq).trans_ne hp)
    · obtain ⟨h, hh, howns⟩ := List.any_eq_true.mp hany
      have howner : h.role = some .owner := by simpa [Holder.owns] using howns
      have hs : h.pid ≠ source := fun hs => hrole ((hsource h hh hs).symm.trans howner)
      refine owns_iff_post.mpr ⟨h.pid, ?_⟩
      rw [← howner]
      exact hstays h hh hs

/-! ## Holds, as they are listed -/

/-- An item of a board. -/
def Org.item (o : Org) (ref : String) (n : Nat) : Option Item :=
  (o.boards[ref]?).bind fun s => s.items[n]?

/-- The table of holders has one row for an item and a session. -/
def Org.Rows (o : Org) : Prop := ∀ (ref : String) (n : Nat) (it : Item), o.item ref n = some it →
  (it.holders.map Holder.pid).Nodup

/-- The session holds this open item, in this role. -/
def Org.Holds (o : Org) (source : String) (x : Hold) : Prop :=
  ∃ it, o.item x.board x.n = some it ∧ it.isOpen = true ∧
    ∃ h ∈ it.holders, h.pid = source ∧ h.role = x.role

theorem item_board {o : Org} {ref : String} {s : BoardState} (hs : o.boards[ref]? = some s) (n : Nat) :
    o.item ref n = s.items[n]? := by
  unfold Org.item
  rw [hs]
  rfl

theorem mem_heldBy {items : Items} {e : Nat × Option Role} : e ∈ heldBy source items ↔
    ∃ it, items[e.1]? = some it ∧ it.isOpen = true ∧ ∃ h ∈ it.holders, h.pid = source ∧ h.role = e.2 := by
  unfold heldBy
  rw [List.mem_flatMap]
  constructor
  · rintro ⟨⟨n, it⟩, hmem, he⟩
    split at he
    · rename_i hopen
      obtain ⟨h, hh, rfl⟩ := List.mem_map.mp he
      obtain ⟨hh, hpid⟩ := List.mem_filter.mp hh
      exact ⟨it, Std.ExtTreeMap.mem_toList_iff_getElem?_eq_some.mp hmem, hopen, h, hh,
        of_decide_eq_true hpid, rfl⟩
    · cases he
  · rintro ⟨it, hit, hopen, h, hh, hpid, hrole⟩
    refine ⟨(e.1, it), Std.ExtTreeMap.mem_toList_iff_getElem?_eq_some.mpr hit, ?_⟩
    rw [if_pos hopen]
    exact List.mem_map.mpr ⟨h, List.mem_filter.mpr ⟨hh, decide_eq_true hpid⟩, by rw [hrole]⟩

/-- A session holds an item once. -/
theorem holds_once {l : List Holder} (h : (l.map Holder.pid).Nodup) {k k' : Holder} (hk : k ∈ l)
    (hk' : k' ∈ l) (hpid : k.pid = k'.pid) : k = k' :=
  List.inj_on_of_nodup_map h hk hk' hpid

theorem heldBy_nodup {items : Items}
    (h : ∀ (n : Nat) (it : Item), items[n]? = some it → (it.holders.map Holder.pid).Nodup) :
    (heldBy source items).Nodup := by
  unfold heldBy
  rw [List.nodup_flatMap]
  constructor
  · rintro ⟨n, it⟩ hmem
    have hrows := h n it (Std.ExtTreeMap.mem_toList_iff_getElem?_eq_some.mp hmem)
    split
    · refine List.Nodup.map_on (fun k hk k' hk' _ => ?_) ((List.Nodup.of_map _ hrows).filter _)
      obtain ⟨hk, hpid⟩ := List.mem_filter.mp hk
      obtain ⟨hk', hpid'⟩ := List.mem_filter.mp hk'
      exact holds_once hrows hk hk' ((of_decide_eq_true hpid).trans (of_decide_eq_true hpid').symm)
    · exact .nil
  · refine Std.ExtTreeMap.distinct_keys_toList.imp fun {e e'} hne => ?_
    have hkey : ∀ (d : Nat × Item) (x : Nat × Option Role), x ∈ (if d.2.isOpen then
        (d.2.holders.filter fun h => h.pid = source).map fun h => (d.1, h.role) else []) →
        x.1 = d.1 := by
      intro d x hx
      split at hx
      · obtain ⟨_, -, rfl⟩ := List.mem_map.mp hx
        rfl
      · cases hx
    intro x hx hx'
    exact hne (compare_eq_iff_eq.mpr ((hkey e x hx).symm.trans (hkey e' x hx')))

/-- A hold is known by its item. -/
theorem Org.Rows.holds_eq {o : Org} (hrows : o.Rows) {x y : Hold} (hx : o.Holds source x)
    (hy : o.Holds source y) (hboard : x.board = y.board) (hn : x.n = y.n) : x = y := by
  obtain ⟨it, hit, -, h, hh, hpid, hrole⟩ := hx
  obtain ⟨it', hit', -, h', hh', hpid', hrole'⟩ := hy
  rw [hboard, hn, hit'] at hit
  obtain rfl := Option.some.inj hit
  obtain rfl := holds_once (hrows _ _ _ hit') hh hh' (hpid.trans hpid'.symm)
  cases x
  cases y
  simp_all

/-! ## A single reassignment -/

section

variable [Runtime] {o o' : Org} {around : Around} {actor : Actor} {x y : Hold}

/-- One hold is handed over, and nothing else is asked. -/
def Org.reassign (o : Org) (around : Around) (actor : Actor) (source : String) (target : Holder)
    (reason : String) (x : Hold) : Except Fault Org :=
  o.transact around x.board actor fun tx => tx.apply (handWrite source target reason x.n x.role)

omit [Runtime] in
theorem reloaded_posts (it : Item) :
    ((it.reloaded around).holders.map Holder.post).Perm (it.holders.map Holder.post) := by
  have hperm := (List.mergeSort_perm (it.holders.map (Holder.stored around.now))
    (holderLe around.collate)).map Holder.post
  rw [List.map_map] at hperm
  exact hperm

omit [Runtime] in
theorem handWrite_n {n : Nat} : (handWrite source target reason n role).n = n := by
  unfold handWrite
  split <;> rfl

omit [Runtime] in
theorem handWrite_plain {n : Nat} : (handWrite source target reason n role).fields = [] ∧
    (handWrite source target reason n role).creating = false := by
  unfold handWrite
  split <;> exact ⟨rfl, rfl⟩

omit [Runtime] in
/-- The posts a handed hold leaves. -/
theorem handWrite_posts {n : Nat} (hnodup : (it.holders.map Holder.pid).Nodup)
    (hne : target.pid ≠ source) (hevidence : target.attribution = none)
    (hsource : ∀ h ∈ it.holders, h.pid = source → h.role = role) :
    (newHolders (handWrite source target reason n role) it).map Holder.post =
      handedPosts source target.pid role it.holders := by
  unfold handedPosts
  split
  · rename_i hrole
    rw [hrole]
    exact handWrite_owner hnodup
  · rename_i hrole
    exact handWrite_role hnodup hne hevidence hrole hsource

omit [Runtime] in
/-- A write whose source leaves changes the holders. -/
theorem changedHolders_gone {w : Write} {h : Holder} (hc : w.creating = false) (hh : h ∈ it.holders)
    (hgone : ∀ k ∈ newHolders w it, k.pid ≠ h.pid) : changedHolders w it = some (newHolders w it) := by
  have hpids : (newHolders w it).map Holder.pid ≠ w.prevPids it := by
    intro heq
    have hmem : h.pid ∈ w.prevPids it := by
      unfold Write.prevPids
      rw [hc]
      exact List.mem_map_of_mem hh
    rw [← heq] at hmem
    obtain ⟨k, hk, hpid⟩ := List.mem_map.mp hmem
    exact hgone k hk hpid
  unfold changedHolders holdersChange
  rw [if_pos]
  simp [hpids]

omit [Runtime] in
theorem transact_ok {ref : String} {body : BoardTx → Except Fault BoardTx}
    (h : o.transact around ref actor body = .ok o') : ∃ s tx tx' s',
      o.boards[ref]? = some s ∧ tx.items = s.items ∧ tx.holdersChanged = ∅ ∧ body tx = .ok tx' ∧
        tx'.store around = .ok s' ∧ o'.boards = o.boards.insert ref s' := by
  obtain ⟨s, hs, h⟩ := except_bind_ok.mp h
  obtain ⟨tx, hstart, h⟩ := except_bind_ok.mp h
  obtain ⟨tx', hbody, h⟩ := except_bind_ok.mp h
  obtain ⟨s', hstore, h⟩ := except_bind_ok.mp h
  obtain rfl := except_pure_ok.mp h
  obtain ⟨hitems, -, hchanged⟩ := start_rest hstart
  exact ⟨s, tx, tx', s', Org.board_ok hs, hitems, hchanged, hbody, hstore, rfl⟩

/-- A hold that is handed over leaves its item handed, and every other as it was. -/
theorem reassign_handed (hx : o.Holds source x)
    (hrows : ∀ it, o.item x.board x.n = some it → (it.holders.map Holder.pid).Nodup)
    (hne : target.pid ≠ source) (hevidence : target.attribution = none)
    (h : o.reassign around actor source target reason x = .ok o') :
    (∃ it it', o.item x.board x.n = some it ∧ o'.item x.board x.n = some it' ∧
      Handed source target.pid x.role it it') ∧
    ∀ (ref : String) (n : Nat), (x.board = ref → x.n ≠ n) → o'.item ref n = o.item ref n := by
  obtain ⟨it, hit, -, k, hk, hpid, hrole⟩ := hx
  have hnodup := hrows it hit
  have hsource : ∀ h ∈ it.holders, h.pid = source → h.role = x.role := by
    intro h hh hs
    rw [holds_once hnodup hh hk (hs.trans hpid.symm), hrole]
  obtain ⟨s, tx, tx', s', hs, hitems, hchanged, happly, hstore, hboards⟩ := transact_ok h
  rw [item_board hs, ← hitems] at hit
  obtain ⟨hf, hc⟩ : (handWrite source target reason x.n x.role).fields = [] ∧
      (handWrite source target reason x.n x.role).creating = false := handWrite_plain
  obtain ⟨w, hw⟩ : ∃ w, handWrite source target reason x.n x.role = w := ⟨_, rfl⟩
  have hn : w.n = x.n := by rw [← hw, handWrite_n]
  have hposts : (newHolders w it).map Holder.post = handedPosts source target.pid x.role it.holders := by
    rw [← hw]
    exact handWrite_posts hnodup hne hevidence hsource
  have hgone : ∀ h ∈ newHolders w it, h.pid ≠ source := by
    have hfresh : Handed source target.pid x.role it { it with holders := newHolders w it } :=
      handed_of_posts hnodup hne rfl hsource (.of_eq hposts)
    exact hfresh.gone
  have hwrites : changedHolders w it = some (newHolders w it) := by
    refine changedHolders_gone (hw ▸ hc) hk ?_
    rw [hpid]
    exact hgone
  rw [hw] at happly hf hc
  obtain ⟨hothers, -, -, it', hit', hcustody, hcases⟩ := apply_plain hf hc (hn ▸ hit) happly
  have hboard : o'.boards[x.board]? = some s' := by
    rw [hboards, getElem?_insert_map, if_pos rfl]
  rcases hcases with ⟨hnone, -, -⟩ | ⟨hsome, hmark⟩
  · rw [hwrites] at hnone
    cases hnone
  rw [hwrites] at hsome
  have hholders : it'.holders = newHolders w it := (Option.some.inj hsome).symm
  have hmarked : x.n ∈ tx'.holdersChanged := by
    rw [hmark, ← hn]
    exact Std.ExtTreeSet.mem_insert_self
  refine ⟨⟨it, it'.reloaded around, ?_, ?_, ?_⟩, ?_⟩
  · rw [item_board hs, ← hitems]
    exact hit
  · rw [item_board hboard, store_items hstore, ← hn, hit', hn, Option.map_some, if_pos hmarked]
  · refine handed_of_posts hnodup hne ?_ hsource ?_
    · have hclosed : it'.closedAt = it.closedAt := congrArg Custody.closedAt hcustody
      have harchived : it'.archivedAt = it.archivedAt := congrArg Custody.archivedAt hcustody
      have hlink : it'.linkArchivedAt = it.linkArchivedAt := congrArg Custody.linkArchivedAt hcustody
      show (it'.closedAt.isNone && it'.archivedAt.isNone && it'.linkArchivedAt.isNone) = it.isOpen
      rw [hclosed, harchived, hlink]
      rfl
    · rw [← hposts, ← hholders]
      exact reloaded_posts it'
  · intro ref n hother
    by_cases hr : x.board = ref
    · subst hr
      have hne' : n ≠ w.n := fun heq => hother rfl (hn.symm.trans heq.symm)
      have hkept : n ∉ tx'.holdersChanged := by
        rw [hmark, hchanged, Std.ExtTreeSet.mem_insert]
        rintro (heq | hmem)
        · exact hne' (compare_eq_iff_eq.mp heq).symm
        · exact Std.ExtTreeSet.not_mem_empty hmem
      rw [item_board hboard, item_board hs, store_items hstore, hothers n hne', hitems]
      cases s.items[n]? with
      | none => rfl
      | some it => rw [Option.map_some, if_neg hkept]
    · unfold Org.item
      rw [hboards, getElem?_insert_map, if_neg fun heq => hr heq.symm]

/-! ## All holds -/

/-- What was listed so far. -/
def Handing.Lists (b : Handing) (x : Hold) : Prop := x ∈ b.handed ∨ x ∈ b.kept

/-- What holds of the holds listed so far; `given` is the receiver, if there is one. -/
structure Progress (o : Org) (around : Around) (actor : Actor) (source : String)
    (given : Option Holder) (reason : String) (b : Handing) : Prop where
  apart : (b.handed ++ b.kept).Nodup
  held : ∀ x, b.Lists x → o.Holds source x
  handed : ∀ x ∈ b.handed, ∃ target ∈ given, ∃ it it', o.item x.board x.n = some it ∧
    b.org.item x.board x.n = some it' ∧ Handed source target.pid x.role it it'
  left : ∀ (ref : String) (n : Nat), (∀ x ∈ b.handed, x.board = ref → x.n ≠ n) →
    b.org.item ref n = o.item ref n
  singly : ∀ target ∈ given, b.handed.foldlM (fun (o : Org) x =>
    o.reassign around actor source target reason x) o = .ok b.org

namespace Progress

variable {given : Option Holder} {b b' : Handing}

/-- A hold that is not listed yet is as it was. -/
theorem still (h : Progress o around actor source given reason b) (hrows : o.Rows)
    (hx : o.Holds source x) (hnew : ¬ b.Lists x) : b.org.item x.board x.n = o.item x.board x.n := by
  refine h.left x.board x.n fun y hy hboard hn => hnew ?_
  rw [← hrows.holds_eq (h.held y (.inl hy)) hx hboard hn]
  exact .inl hy

/-- A hold is kept. -/
theorem keep (h : Progress o around actor source given reason b) (hx : o.Holds source x)
    (hnew : ¬ b.Lists x) :
    Progress o around actor source given reason { b with kept := b.kept ++ [x] } where
  apart := by
    show (b.handed ++ (b.kept ++ [x])).Nodup
    rw [← List.append_assoc, List.nodup_append]
    refine ⟨h.apart, List.nodup_singleton x, fun y hy z hz heq => hnew ?_⟩
    obtain rfl := List.mem_singleton.mp hz
    exact heq ▸ List.mem_append.mp hy
  held := by
    rintro y (hy | hy)
    · exact h.held y (.inl hy)
    · rcases List.mem_append.mp hy with hy | hy
      · exact h.held y (.inr hy)
      · obtain rfl := List.mem_singleton.mp hy
        exact hx
  handed := h.handed
  left := h.left
  singly := h.singly

/-- A hold is handed over. -/
theorem hand (h : Progress o around actor source (some target) reason b) (hrows : o.Rows)
    (hx : o.Holds source x) (hnew : ¬ b.Lists x) (hne : target.pid ≠ source)
    (hevidence : target.attribution = none)
    (hstep : b.org.reassign around actor source target reason x = .ok o') :
    Progress o around actor source (some target) reason
      { b with org := o', handed := b.handed ++ [x] } := by
  have hstill := h.still hrows hx hnew
  have hheld : b.org.Holds source x := by
    obtain ⟨it, hit, hrest⟩ := hx
    exact ⟨it, hstill.trans hit, hrest⟩
  obtain ⟨⟨it, it', hit, hit', hhanded⟩, hothers⟩ := reassign_handed hheld
    (fun it hit => hrows _ _ it (hstill ▸ hit)) hne hevidence hstep
  -- the item of another hold is another item
  have hother : ∀ y, b.Lists y → x.board = y.board → x.n ≠ y.n := by
    intro y hy hboard hn
    exact hnew (hrows.holds_eq hx (h.held y hy) hboard hn ▸ hy)
  refine ⟨?_, ?_, ?_, ?_, ?_⟩
  · show (b.handed ++ [x] ++ b.kept).Nodup
    rw [List.append_assoc, List.singleton_append, List.nodup_middle]
    exact List.nodup_cons.mpr ⟨fun hmem => hnew (List.mem_append.mp hmem), h.apart⟩
  · rintro y (hy | hy)
    · rcases List.mem_append.mp hy with hy | hy
      · exact h.held y (.inl hy)
      · obtain rfl := List.mem_singleton.mp hy
        exact hx
    · exact h.held y (.inr hy)
  · intro y hy
    rcases List.mem_append.mp hy with hy | hy
    · obtain ⟨t, ht, i, i', hi, hi', hgiven⟩ := h.handed y hy
      exact ⟨t, ht, i, i', hi, (hothers _ _ (hother y (.inl hy))).trans hi', hgiven⟩
    · obtain rfl := List.mem_singleton.mp hy
      exact ⟨target, rfl, it, it', hstill ▸ hit, hit', hhanded⟩
  · intro ref n hnone
    rw [hothers ref n (hnone x (List.mem_append_right _ List.mem_cons_self))]
    exact h.left ref n fun y hy => hnone y (List.mem_append_left _ hy)
  · rintro t ⟨⟩
    have hone : [x].foldlM (fun (o : Org) x => o.reassign around actor source target reason x)
        b.org = .ok o' := by
      rw [List.foldlM_cons, hstep]
      rfl
    rw [List.foldlM_append, h.singly target rfl]
    exact hone

/-- One hold is gone through. -/
theorem item (h : Progress o around actor source (some target) reason b) (hrows : o.Rows)
    (hx : o.Holds source x) (hnew : ¬ b.Lists x) (hne : target.pid ≠ source)
    (hevidence : target.attribution = none)
    (hstep : b.item around actor source target reason x.board (x.n, x.role) = .ok b') :
    Progress o around actor source (some target) reason b' ∧
      ∀ y, b'.Lists y ↔ b.Lists y ∨ y = x := by
  unfold Handing.item at hstep
  split at hstep
  · rename_i o' ho'
    obtain rfl := Except.ok.inj hstep
    refine ⟨h.hand hrows hx hnew hne hevidence ho', fun y => ?_⟩
    unfold Handing.Lists
    simp only [List.mem_append, List.mem_singleton]
    tauto
  · obtain rfl := Except.ok.inj hstep
    refine ⟨h.keep hx hnew, fun y => ?_⟩
    unfold Handing.Lists
    simp only [List.mem_append, List.mem_singleton]
    tauto
  · cases hstep

/-- The holds of a board are gone through one by one. -/
theorem items (hrows : o.Rows) (hne : target.pid ≠ source) (hevidence : target.attribution = none)
    {ref : String} : ∀ {l : List (Nat × Option Role)} {b b' : Handing},
      Progress o around actor source (some target) reason b → l.Nodup →
      (∀ e ∈ l, o.Holds source ⟨ref, e.1, e.2⟩ ∧ ¬ b.Lists ⟨ref, e.1, e.2⟩) →
      l.foldlM (fun b e => b.item around actor source target reason ref e) b = .ok b' →
      Progress o around actor source (some target) reason b' ∧
        ∀ y, b'.Lists y ↔ b.Lists y ∨ ∃ e ∈ l, y = ⟨ref, e.1, e.2⟩
  | [], b, b', h, _, _, hrun => by
    rw [List.foldlM_nil] at hrun
    obtain rfl := except_pure_ok.mp hrun
    exact ⟨h, fun y => by simp⟩
  | e :: l, b, b', h, hnodup, hall, hrun => by
    rw [List.foldlM_cons] at hrun
    obtain ⟨b1, hstep, hrun⟩ := except_bind_ok.mp hrun
    obtain ⟨hx, hnew⟩ := hall e List.mem_cons_self
    obtain ⟨h1, hlists1⟩ := h.item hrows hx hnew hne hevidence hstep
    obtain ⟨he, hnodup⟩ := List.nodup_cons.mp hnodup
    have hall1 : ∀ d ∈ l, o.Holds source ⟨ref, d.1, d.2⟩ ∧ ¬ b1.Lists ⟨ref, d.1, d.2⟩ := by
      intro d hd
      obtain ⟨hheld, hnot⟩ := hall d (List.mem_cons_of_mem e hd)
      refine ⟨hheld, fun hc => ?_⟩
      rcases (hlists1 _).mp hc with hc | hc
      · exact hnot hc
      · have heq : d = e := Prod.ext (congrArg Hold.n hc) (congrArg Hold.role hc)
        exact he (heq ▸ hd)
    obtain ⟨h2, hlists2⟩ := items hrows hne hevidence h1 hnodup hall1 hrun
    refine ⟨h2, fun y => ?_⟩
    rw [hlists2, hlists1, List.exists_mem_cons_iff, or_assoc]

/-- The holds of a board are kept one by one. -/
theorem keeps {ref : String} : ∀ {l : List (Nat × Option Role)} {b : Handing},
    Progress o around actor source given reason b → l.Nodup →
    (∀ e ∈ l, o.Holds source ⟨ref, e.1, e.2⟩ ∧ ¬ b.Lists ⟨ref, e.1, e.2⟩) →
    Progress o around actor source given reason
      { b with kept := b.kept ++ l.map fun e => ⟨ref, e.1, e.2⟩ }
  | [], b, h, _, _ => by
    rw [List.map_nil, List.append_nil]
    exact h
  | e :: l, b, h, hnodup, hall => by
    obtain ⟨hx, hnew⟩ := hall e List.mem_cons_self
    obtain ⟨he, hnodup⟩ := List.nodup_cons.mp hnodup
    have hall1 : ∀ d ∈ l, o.Holds source ⟨ref, d.1, d.2⟩ ∧
        ¬ Handing.Lists { b with kept := b.kept ++ [⟨ref, e.1, e.2⟩] } ⟨ref, d.1, d.2⟩ := by
      intro d hd
      obtain ⟨hheld, hnot⟩ := hall d (List.mem_cons_of_mem e hd)
      refine ⟨hheld, fun hc => ?_⟩
      rcases hc with hc | hc
      · exact hnot (.inl hc)
      · rcases List.mem_append.mp hc with hc | hc
        · exact hnot (.inr hc)
        · have hc := List.mem_singleton.mp hc
          have heq : d = e := Prod.ext (congrArg Hold.n hc) (congrArg Hold.role hc)
          exact he (heq ▸ hd)
    have hrest := keeps (h.keep hx hnew) hnodup hall1
    rw [List.append_assoc] at hrest
    exact hrest

/-- A board is gone through. -/
theorem board (h : Progress o around actor source given reason b) (hrows : o.Rows)
    (hgiven : ∀ target ∈ given, target.pid ≠ source ∧ target.attribution = none) {ref : String}
    (hnew : ∀ y, b.Lists y → y.board ≠ ref)
    (hstep : b.board around actor source given reason ref = .ok b') :
    Progress o around actor source given reason b' ∧
      ∀ y, b'.Lists y ↔ b.Lists y ∨ (y.board = ref ∧ o.Holds source y) := by
  obtain ⟨s, hs, hstep⟩ := except_bind_ok.mp hstep
  have hs := Org.board_ok hs
  have hsame : ∀ n : Nat, s.items[n]? = o.item ref n := by
    intro n
    rw [← item_board hs]
    exact h.left ref n fun x hx hr => absurd hr (hnew x (.inl hx))
  have hholds : ∀ y, (∃ e ∈ heldBy source s.items, y = ⟨ref, e.1, e.2⟩) ↔
      y.board = ref ∧ o.Holds source y := by
    intro y
    constructor
    · rintro ⟨e, he, rfl⟩
      obtain ⟨it, hit, hrest⟩ := mem_heldBy.mp he
      exact ⟨rfl, it, hsame e.1 ▸ hit, hrest⟩
    · rintro ⟨rfl, it, hit, hrest⟩
      exact ⟨(y.n, y.role), mem_heldBy.mpr ⟨it, (hsame y.n).trans hit, hrest⟩, rfl⟩
  have hall : ∀ e ∈ heldBy source s.items,
      o.Holds source ⟨ref, e.1, e.2⟩ ∧ ¬ b.Lists ⟨ref, e.1, e.2⟩ := fun e he =>
    ⟨((hholds _).mp ⟨e, he, rfl⟩).2, fun hc => hnew _ hc rfl⟩
  have hnodup : (heldBy source s.items).Nodup :=
    heldBy_nodup fun n it hit => hrows ref n it (hsame n ▸ hit)
  cases given with
  | none =>
    obtain rfl := except_pure_ok.mp hstep
    refine ⟨h.keeps hnodup hall, fun y => ?_⟩
    rw [← hholds y]
    unfold Handing.Lists
    simp only [List.mem_append, List.mem_map, or_assoc, eq_comm]
  | some target =>
    obtain ⟨hne, hevidence⟩ := hgiven target rfl
    obtain ⟨h', hlists⟩ := items hrows hne hevidence h hnodup hall hstep
    exact ⟨h', fun y => (hlists y).trans (or_congr_right (hholds y))⟩

/-- All boards are gone through. -/
theorem boards (hrows : o.Rows)
    (hgiven : ∀ target ∈ given, target.pid ≠ source ∧ target.attribution = none) :
    ∀ {refs : List String} {b b' : Handing}, Progress o around actor source given reason b →
      refs.Nodup → (∀ y, b.Lists y → y.board ∉ refs) →
      refs.foldlM (fun b ref => b.board around actor source given reason ref) b = .ok b' →
      Progress o around actor source given reason b' ∧
        ∀ y, b'.Lists y ↔ b.Lists y ∨ (y.board ∈ refs ∧ o.Holds source y)
  | [], b, b', h, _, _, hrun => by
    rw [List.foldlM_nil] at hrun
    obtain rfl := except_pure_ok.mp hrun
    exact ⟨h, fun y => by simp⟩
  | ref :: refs, b, b', h, hnodup, hnew, hrun => by
    rw [List.foldlM_cons] at hrun
    obtain ⟨b1, hstep, hrun⟩ := except_bind_ok.mp hrun
    obtain ⟨href, hnodup⟩ := List.nodup_cons.mp hnodup
    obtain ⟨h1, hlists1⟩ := h.board hrows hgiven
      (fun y hy heq => hnew y hy (heq ▸ List.mem_cons_self)) hstep
    have hnew1 : ∀ y, b1.Lists y → y.board ∉ refs := by
      intro y hy hmem
      rcases (hlists1 y).mp hy with hy | ⟨heq, -⟩
      · exact hnew y hy (List.mem_cons_of_mem ref hmem)
      · exact href (heq ▸ hmem)
    obtain ⟨h2, hlists2⟩ := boards hrows hgiven h1 hnodup hnew1 hrun
    refine ⟨h2, fun y => ?_⟩
    rw [hlists2, hlists1, List.mem_cons, or_assoc, or_and_right]

end Progress

omit [Runtime] in
theorem receiver_pid {sessions : List SessionRow} {pid : String} :
    (receiver sessions pid).pid = pid ∧ (receiver sessions pid).attribution = none := by
  unfold receiver
  simp only
  split <;> exact ⟨rfl, rfl⟩

/-- What handing back the holds of a session means. -/
structure LosesNone (o : Org) (around : Around) (actor : Actor) (sessions : List SessionRow)
    (source : String) (given : Option String) (reason : String) (r : Handing) : Prop where
  /-- Every hold is listed, once. -/
  apart : (r.handed ++ r.kept).Nodup
  listed : ∀ x, x ∈ r.handed ∨ x ∈ r.kept ↔ o.Holds source x
  handed : ∀ x ∈ r.handed, ∃ pid it it', given = some pid ∧ o.item x.board x.n = some it ∧
    r.org.item x.board x.n = some it' ∧ Handed source pid x.role it it'
  kept : ∀ x ∈ r.kept, r.org.item x.board x.n = o.item x.board x.n
  /-- All other items are as they were. -/
  others : ∀ (ref : String) (n : Nat), (∀ x ∈ r.handed, x.board = ref → x.n ≠ n) →
    r.org.item ref n = o.item ref n
  /-- Of the handed ones, what single reassignments change is what changes. -/
  singly : ∀ pid, given = some pid → pid ≠ "" → r.handed.foldlM (fun (o : Org) x =>
    o.reassign around actor source (receiver sessions pid) reason x) o = .ok r.org
  owned : ∀ (ref : String) (n : Nat) (it : Item), o.item ref n = some it →
    it.holders.any Holder.owns = true →
      ∃ it', r.org.item ref n = some it' ∧ it'.holders.any Holder.owns = true

/-- Every hold of the session is gone through. -/
theorem handBackHolds_progress {sessions : List SessionRow} {given : Option String} {r : Handing}
    (hrows : o.Rows) (hother : given ≠ some source)
    (h : o.handBackHolds around actor sessions source given reason = .ok r) :
    Progress o around actor source ((given.filter fun pid => pid ≠ "").map (receiver sessions)) reason r ∧
      ∀ x, r.Lists x ↔ o.Holds source x := by
  obtain ⟨t, ht⟩ : ∃ t, (given.filter fun pid => pid ≠ "").map (receiver sessions) = t := ⟨_, rfl⟩
  have hproper : ∀ target ∈ t, target.pid ≠ source ∧ target.attribution = none := by
    intro target htarget
    rw [← ht, Option.mem_def, Option.map_eq_some_iff] at htarget
    obtain ⟨pid, hpid, rfl⟩ := htarget
    obtain ⟨hself, hevidence⟩ : (receiver sessions pid).pid = pid ∧
        (receiver sessions pid).attribution = none := receiver_pid
    refine ⟨fun heq => hother ?_, hevidence⟩
    rw [(Option.filter_eq_some_iff.mp hpid).1, ← hself, heq]
  have hempty : ∀ x, ¬ Handing.Lists ⟨o, [], []⟩ x := by
    rintro x (hx | hx) <;> cases hx
  have hstart : Progress o around actor source t reason ⟨o, [], []⟩ := by
    refine ⟨List.nodup_nil, fun x hx => absurd hx (hempty x), fun x hx => ?_, fun _ _ _ => rfl,
      fun _ _ => rfl⟩
    exact absurd (.inl hx) (hempty x)
  unfold Org.handBackHolds at h
  rw [ht] at h ⊢
  obtain ⟨hend, hlists⟩ := hstart.boards hrows hproper nodup_filter_keys
    (fun y hy => absurd hy (hempty y)) h
  refine ⟨hend, fun x => (hlists x).trans ⟨?_, fun hx => .inr ⟨?_, hx⟩⟩⟩
  · rintro (hx | ⟨-, hx⟩)
    · exact absurd hx (hempty x)
    · exact hx
  · obtain ⟨it, hit, hrest⟩ := hx
    obtain ⟨s, hs, hitem⟩ := Option.bind_eq_some_iff.mp hit
    refine List.mem_map.mpr ⟨(x.board, s), List.mem_filter.mpr
      ⟨Std.ExtTreeMap.mem_toList_iff_getElem?_eq_some.mpr hs, decide_eq_true ?_⟩, rfl⟩
    exact List.ne_nil_of_mem (a := (x.n, x.role)) (mem_heldBy.mpr ⟨it, hitem, hrest⟩)

/-- No hold is lost: every open item a session holds is handed to the receiver or kept as it was. -/
theorem handBackHolds_loses_none {sessions : List SessionRow} {given : Option String} {r : Handing}
    (hrows : o.Rows) (hother : given ≠ some source)
    (h : o.handBackHolds around actor sessions source given reason = .ok r) :
    LosesNone o around actor sessions source given reason r := by
  obtain ⟨hend, hlisted⟩ := handBackHolds_progress hrows hother h
  refine ⟨hend.apart, hlisted, fun x hx => ?_, fun x hx => ?_, hend.left, fun pid hpid hne => ?_,
    fun ref n it hit hany => ?_⟩
  · obtain ⟨target, htarget, it, it', hit, hit', hhanded⟩ := hend.handed x hx
    obtain ⟨pid, hpid, rfl⟩ := Option.map_eq_some_iff.mp htarget
    rw [receiver_pid.1] at hhanded
    exact ⟨pid, it, it', (Option.filter_eq_some_iff.mp hpid).1, hit, hit', hhanded⟩
  · refine hend.left x.board x.n fun y hy hboard hn => ?_
    have heq := hrows.holds_eq (hend.held y (.inl hy)) (hend.held x (.inr hx)) hboard hn
    exact (List.nodup_append.mp hend.apart).2.2 y hy x hx heq
  · refine hend.singly _ ?_
    rw [hpid, Option.filter_some, if_pos (decide_eq_true hne)]
    rfl
  · by_cases hmem : ∃ x ∈ r.handed, x.board = ref ∧ x.n = n
    · obtain ⟨x, hx, rfl, rfl⟩ := hmem
      obtain ⟨target, -, it₀, it', hit₀, hit', hhanded⟩ := hend.handed x hx
      rw [hit] at hit₀
      obtain rfl := Option.some.inj hit₀
      exact ⟨it', hit', hhanded.owned hany⟩
    · refine ⟨it, ?_, hany⟩
      rw [hend.left ref n fun x hx hboard hn => hmem ⟨x, hx, hboard, hn⟩]
      exact hit

end

/-! ## A receiver that reviews the item -/

/-- A session in a role. -/
def inRole (pid : String) (role : Role) : Holder :=
  ⟨pid, .null, .null, .null, some role, none, none, none, some 0⟩

/-- An item of three sessions. -/
def sharedItem : Item where
  n := 1
  title := "schema"
  status := .active
  id := some 1
  note := none
  group := none
  blockedOn := none
  checkBackAt := none
  etaAt := none
  waitingSetAt := none
  job := none
  groupId := none
  teamId := none
  taskId := none
  linkArchivedAt := none
  description := none
  descriptionRev := 0
  actionableAt := none
  launchedAt := none
  links := []
  touchedAt := none
  clockResetAt := none
  closedAt := none
  closedBy := none
  archivedAt := none
  createdBy := none
  createdAt := none
  staleNudgedAt := none
  flagPushed := ∅
  gateHead := .null
  holders := [inRole "agent:d:a" .owner, inRole "agent:d:b" .contributor, inRole "agent:d:c" .reviewer]
  blockedBy := ∅
  openFlags := ∅

def sharedOrg : Org :=
  ⟨(∅ : Map BoardState).insert "b-1" ⟨emptyBoard.board, (∅ : Items).insert 1 sharedItem, []⟩, []⟩

theorem sharedOrg_item {ref : String} {n : Nat} {it : Item} (h : sharedOrg.item ref n = some it) :
    it = sharedItem := by
  obtain ⟨s, hs, hit⟩ := Option.bind_eq_some_iff.mp h
  unfold sharedOrg at hs
  simp only [getElem?_insert_map, Std.ExtTreeMap.getElem?_empty] at hs
  split at hs
  · obtain rfl := Option.some.inj hs
    rw [natMap_getElem?_insert] at hit
    split at hit
    · exact (Option.some.inj hit).symm
    · simp at hit
  · cases hs

theorem sharedOrg_rows : sharedOrg.Rows := by
  intro ref n it hit
  rw [sharedOrg_item hit]
  decide

/-- The contributor's hold goes to the reviewer. -/
def shareBack [Runtime] : Except Fault Handing :=
  sharedOrg.handBackHolds ⟨0, fun _ => "", [], none, fun a b => a ≤ b⟩
    ⟨ownerPid, some "Owner", none, none, none⟩ [] "agent:d:b" (some "agent:d:c") "rebound"

theorem shareBack_ok : letI := sampleRuntime
    ∃ r, shareBack = .ok r ∧ r.handed = [⟨"b-1", 1, some .contributor⟩] := by
  let _ := sampleRuntime
  have hrun : shareBack.toOption.map Handing.handed = some [⟨"b-1", 1, some .contributor⟩] := by
    decide +kernel
  cases hback : shareBack with
  | ok r =>
    rw [hback] at hrun
    exact ⟨r, rfl, Option.some.inj hrun⟩
  | error f =>
    rw [hback] at hrun
    cases hrun

theorem handBackHolds_loses_none_shared : letI := sampleRuntime
    ∃ r, LosesNone sharedOrg ⟨0, fun _ => "", [], none, fun a b => a ≤ b⟩
      ⟨ownerPid, some "Owner", none, none, none⟩ [] "agent:d:b" (some "agent:d:c") "rebound" r := by
  let _ := sampleRuntime
  obtain ⟨r, hran, -⟩ := shareBack_ok
  exact ⟨r, handBackHolds_loses_none sharedOrg_rows (by decide) hran⟩

/-- The receiver stays a reviewer: it does not get the contributor's role. -/
theorem reviewer_stays : letI := sampleRuntime
    ∃ r it', shareBack = .ok r ∧ r.handed = [⟨"b-1", 1, some .contributor⟩] ∧
      r.org.item "b-1" 1 = some it' ∧ (∃ k ∈ it'.holders, k.pid = "agent:d:c") ∧
      ∀ k ∈ it'.holders, k.pid = "agent:d:c" → k.role = some .reviewer := by
  let _ := sampleRuntime
  obtain ⟨r, hran, hone⟩ := shareBack_ok
  obtain ⟨hend, -⟩ := handBackHolds_progress sharedOrg_rows (by decide) hran
  obtain ⟨target, htarget, it, it', hit, hit', hhanded⟩ := hend.handed _ (hone ▸ List.mem_cons_self)
  obtain rfl := Option.some.inj htarget
  obtain rfl := sharedOrg_item hit
  obtain ⟨k, hk, hpid, hrole⟩ := hhanded.receives
  refine ⟨r, it', hran, hone, hit', ⟨k, hk, hpid⟩, fun k' hk' hpid' => ?_⟩
  obtain rfl := holds_once hhanded.once hk hk' (hpid.trans hpid'.symm)
  rw [if_neg (by decide), if_pos (by decide +kernel)] at hrole
  obtain ⟨h, hh, hself, hsame⟩ := hrole
  rw [hsame]
  rcases List.mem_cons.mp hh with rfl | hh
  · exact absurd hself (by decide +kernel)
  rcases List.mem_cons.mp hh with rfl | hh
  · exact absurd hself (by decide +kernel)
  obtain rfl := List.mem_singleton.mp hh
  rfl

end Board
