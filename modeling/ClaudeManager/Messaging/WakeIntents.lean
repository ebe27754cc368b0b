import ClaudeManager.Messaging.Watches

/-!
# Wakes by index and by scan

* `Swept` — the candidates of a conversation so far, and what a sweep of intervals has covered
* `conversation_evaluate` — for one event, the candidates decide what the plain evaluation does
* `wakes_scanned` — the indexes give what a scan of the history gives, in its order
-/

namespace ClaudeManager

open Json Containers Program

/-! ## Parts of the vectors -/

namespace Store

section

variable {α : Type} {v : List α} {x : α}

theorem mem_slice {key : α → Nat} (hv : v.Pairwise fun a b => key a ≤ key b) {lo hi : Nat}
    (hle : lo ≤ hi) : x ∈ slice key v lo hi ↔ x ∈ v ∧ lo < key x ∧ key x ≤ hi := by
  have hdown : ∀ {w : List α} (n : Nat), w.Pairwise (fun a b => key a ≤ key b) →
      w.Pairwise fun a b => decide (key b ≤ n) = true → decide (key a ≤ n) = true := by
    intro w n hw
    refine hw.imp fun hab hb => ?_
    rw [decide_eq_true_eq] at hb ⊢
    exact hab.trans hb
  have htake : v.take (v.takeWhile fun x => key x ≤ hi).length = v.filter fun x => key x ≤ hi := by
    rw [← takeWhile_eq_filter (hdown hi hv)]
    exact (List.prefix_iff_eq_take.mp (List.takeWhile_prefix _)).symm
  have hlow : (v.takeWhile fun x => key x ≤ lo)
      = (v.filter fun x => key x ≤ hi).takeWhile fun x => key x ≤ lo := by
    rw [takeWhile_eq_filter (hdown lo hv), takeWhile_eq_filter (hdown lo (hv.filter _)),
      List.filter_filter]
    refine List.filter_congr fun a _ => ?_
    by_cases ha : key a ≤ lo
    · simp [ha, ha.trans hle]
    · simp [ha]
  unfold slice
  rw [htake, hlow, drop_takeWhile, dropWhile_eq_filter (hdown lo (hv.filter _)), List.mem_filter,
    List.mem_filter, Bool.not_eq_true', decide_eq_false_iff_not, decide_eq_true_eq, not_le, and_assoc]
  exact and_congr_right fun _ => and_comm

theorem mem_suffix {key : α → ReadCursor} (hv : v.Pairwise fun a b => key a ≤ key b)
    {read : Option ReadCursor} : x ∈ suffix key v read ↔ x ∈ v ∧ isAfter read (key x) = true := by
  cases read with
  | none => simp [suffix, isAfter]
  | some r =>
    show x ∈ v.drop (v.takeWhile fun k => key k ≤ r).length ↔ _
    rw [drop_takeWhile, dropWhile_eq_filter (hv.imp fun hab hb => ?_), List.mem_filter]
    · simp [isAfter]
    · rw [decide_eq_true_eq] at hb ⊢
      exact hab.trans hb

end

end Store

/-! ## Candidates -/

theorem getElem?_foldl_insert {l : List Nat} {m : Store.Candidates} {j : Nat} :
    (l.foldl (fun m i => m.insert i true) m)[j]? = if j ∈ l then some true else m[j]? := by
  induction l generalizing m with
  | nil => simp
  | cons i l ih =>
    rw [List.foldl_cons, ih, Std.ExtTreeMap.getElem?_insert]
    by_cases hj : j ∈ l
    · simp [hj]
    · by_cases hij : j = i
      · simp [hij]
      · have hne : ¬ i = j := fun h => hij h.symm
        simp [hj, hij, hne]

theorem getElem?_foldl_insertIfNew {l : List Nat} {m : Store.Candidates} {j : Nat} :
    (l.foldl (fun m i => m.insertIfNew i false) m)[j]?
      = m[j]?.or (if j ∈ l then some false else none) := by
  induction l generalizing m with
  | nil => simp
  | cons i l ih =>
    rw [List.foldl_cons, ih, Std.ExtTreeMap.getElem?_insertIfNew]
    simp only [Std.ExtTreeMap.mem_iff_isSome_getElem?]
    by_cases hij : i = j
    · subst hij
      cases m[i]? <;> simp
    · have hne : ¬ j = i := fun h => hij h.symm
      simp [hij, hne]

section

variable {s : Store} {actor cid : String} {index : ConversationIndex} {read : Option ReadCursor}

/-- The event is a message of the conversation, at this place. -/
def Store.MessageAt (s : Store) (cid : String) (i : Nat) (e : Published) : Prop :=
  s.events[i]? = some e ∧ messageOf cid e.event = true

/-- The messages of a conversation, by index. -/
structure Store.Index (s : Store) (cid : String) (index : ConversationIndex) : Prop where
  indexed : Indexed s
  tally : Tally s.events cid index

/-- The unread messages of a conversation. -/
theorem mem_unread (h : s.Index cid index) {x : ReadCursor × Nat} :
    x ∈ Store.suffix Prod.fst index.messages read ↔
      ∃ e, s.MessageAt cid x.2 e ∧ e.cursor = x.1 ∧ Store.isAfter read x.1 = true := by
  rw [Store.mem_suffix (h.tally.messages.sorted.imp fun hab => hab.elim le_of_lt fun hab => hab.1.le),
    h.tally.messages.mem_iff]
  constructor
  · rintro ⟨⟨e, he, hcid, hkey⟩, hafter⟩
    exact ⟨e, ⟨he, hcid⟩, hkey, hafter⟩
  · rintro ⟨e, ⟨he, hcid⟩, hkey, hafter⟩
    exact ⟨⟨e, he, hcid, hkey⟩, hafter⟩

/-- The arrivals of a conversation come in the order of their positions. -/
theorem arrivals_sorted (h : s.Index cid index) :
    index.arrivals.Pairwise fun a b => a.1 ≤ b.1 := by
  refine h.tally.arrivals.sorted.imp_of_mem fun {a b} ha hb hab => ?_
  obtain ⟨p, hp, -, hpos⟩ := (h.tally.arrivals.mem_iff a).mp ha
  obtain ⟨q, hq, -, hqpos⟩ := (h.tally.arrivals.mem_iff b).mp hb
  obtain ⟨hi, rfl⟩ := List.getElem?_eq_some_iff.mp hp
  obtain ⟨hj, rfl⟩ := List.getElem?_eq_some_iff.mp hq
  rw [← hpos, ← hqpos]
  exact (List.pairwise_iff_getElem.mp h.indexed.ordered _ _ hi hj hab).le

/-- An interval yields messages of the conversation, and every unread one that arrived in it. -/
theorem mem_rangeCandidates (h : s.Index cid index) {after high i : Nat} (hle : after ≤ high) :
    (i ∈ s.rangeCandidates index (Store.suffix Prod.fst index.messages read) after high →
        ∃ e, s.MessageAt cid i e)
      ∧ ∀ e, s.MessageAt cid i e → Store.isAfter read e.cursor = true → after < e.position →
        e.position ≤ high →
        i ∈ s.rangeCandidates index (Store.suffix Prod.fst index.messages read) after high := by
  unfold Store.rangeCandidates
  simp only
  split
  · refine ⟨fun hi => ?_, fun e he hafter hlow hhigh => ?_⟩
    · obtain ⟨⟨k, i⟩, hx, rfl⟩ := List.mem_map.mp (List.mem_filter.mp hi).1
      obtain ⟨e, he, -⟩ := (mem_unread h).mp hx
      exact ⟨e, he⟩
    · refine List.mem_filter.mpr ⟨List.mem_map.mpr ⟨(e.cursor, i), ?_, rfl⟩, ?_⟩
      · exact (mem_unread h).mpr ⟨e, he, rfl, hafter⟩
      · simp [he.1, hlow, hhigh]
  · refine ⟨fun hi => ?_, fun e he hafter hlow hhigh => ?_⟩
    · obtain ⟨x, hx, rfl⟩ := List.mem_map.mp hi
      obtain ⟨e, he, hcid, -⟩ := (h.tally.arrivals.mem_iff x).mp
        ((Store.mem_slice (arrivals_sorted h) hle).mp hx).1
      exact ⟨e, he, hcid⟩
    · refine List.mem_map.mpr ⟨(e.position, i), ?_, rfl⟩
      exact (Store.mem_slice (arrivals_sorted h) hle).mpr
        ⟨(h.tally.arrivals.mem_iff _).mpr ⟨e, he.1, he.2, rfl⟩, hlow, hhigh⟩

/-- The candidates so far, after a sweep of intervals: those that wake without a rule are marked,
and every unread message of an interval is there. -/
structure Swept (s : Store) (cid : String) (read : Option ReadCursor) (default : List Nat)
    (ranges : List (Nat × Nat)) (state : Store.Candidates × Nat) : Prop where
  marked : ∀ i : Nat, state.1[i]? = some true ↔ i ∈ default
  placed : ∀ (i : Nat) (b : Bool), state.1[i]? = some b → ∃ e, s.MessageAt cid i e
  covered : ∀ (i : Nat) (e : Published), s.MessageAt cid i e → Store.isAfter read e.cursor = true →
    (∃ r ∈ ranges, r.1 < e.position ∧ e.position ≤ r.2) → state.1[i]? ≠ none
  through : state.2 = 0 ∨ ∃ r ∈ ranges, r.2 = state.2

/-- One more interval, which starts no earlier than those before it. -/
theorem Swept.range (hs : s.Index cid index) {default : List Nat} {ranges : List (Nat × Nat)}
    {state : Store.Candidates × Nat} {r : Nat × Nat} (h : Swept s cid read default ranges state)
    (hstart : ∀ q ∈ ranges, q.1 ≤ r.1) :
    Swept s cid read default (ranges ++ [r])
      (s.sweepRange index (Store.suffix Prod.fst index.messages read) state r) := by
  -- What the sweep has passed beyond the start of `r` belongs to an interval before it.
  have hpassed : ∀ (i : Nat) (e : Published), s.MessageAt cid i e →
      Store.isAfter read e.cursor = true → r.1 < e.position → e.position ≤ state.2 →
      state.1[i]? ≠ none := by
    intro i e he hafter hlow hhigh
    obtain hzero | ⟨q, hq, hqhigh⟩ := h.through
    · omega
    · exact h.covered i e he hafter ⟨q, hq, (hstart q hq).trans_lt hlow, hqhigh ▸ hhigh⟩
  unfold Store.sweepRange
  simp only
  split
  · rename_i hskip
    refine ⟨h.marked, h.placed, fun i e he hafter hin => ?_, ?_⟩
    · obtain ⟨q, hq, hlow, hhigh⟩ := hin
      rcases List.mem_append.mp hq with hq | hq
      · exact h.covered i e he hafter ⟨q, hq, hlow, hhigh⟩
      · obtain rfl := List.mem_singleton.mp hq
        exact hpassed i e he hafter hlow (by omega)
    · exact h.through.imp id fun ⟨q, hq, hqhigh⟩ => ⟨q, List.mem_append_left _ hq, hqhigh⟩
  · rename_i hvisit
    have hrange := fun i => @mem_rangeCandidates _ _ _ read hs _ _ i (not_le.mp hvisit).le
    refine ⟨fun i => ?_, fun i b hb => ?_, fun i e he hafter hin => ?_, .inr ⟨r, by simp, rfl⟩⟩
    · rw [getElem?_foldl_insertIfNew, ← h.marked]
      cases state.1[i]? with
      | none => split <;> simp
      | some b => simp
    · rw [getElem?_foldl_insertIfNew] at hb
      cases hi : state.1[i]? with
      | none =>
        rw [hi, Option.none_or] at hb
        split at hb
        · exact (hrange i).1 ‹_›
        · cases hb
      | some b' => exact h.placed i b' hi
    · rw [getElem?_foldl_insertIfNew]
      obtain ⟨q, hq, hlow, hhigh⟩ := hin
      have hold : state.1[i]? ≠ none → (state.1[i]?.or (if i ∈ s.rangeCandidates index
          (Store.suffix Prod.fst index.messages read) (max r.1 state.2) r.2 then some false
            else none)) ≠ none := by
        intro hi
        cases hm : state.1[i]? with
        | none => exact absurd hm hi
        | some b => simp
      rcases List.mem_append.mp hq with hq | hq
      · exact hold (h.covered i e he hafter ⟨q, hq, hlow, hhigh⟩)
      · obtain rfl := List.mem_singleton.mp hq
        by_cases hpast : e.position ≤ state.2
        · exact hold (hpassed i e he hafter hlow hpast)
        · rw [if_pos ((hrange i).2 e he hafter (by omega) hhigh)]
          cases state.1[i]? <;> simp

/-- A whole sweep, of intervals in the order of their starts. -/
theorem Swept.ranges (hs : s.Index cid index) {default : List Nat} :
    ∀ {l done : List (Nat × Nat)} {state : Store.Candidates × Nat},
      (done ++ l).Pairwise (fun a b => a.1 ≤ b.1) → Swept s cid read default done state →
      Swept s cid read default (done ++ l)
        (l.foldl (s.sweepRange index (Store.suffix Prod.fst index.messages read)) state)
  | [], done, _, _, h => by simpa using h
  | r :: l, done, state, hsorted, h => by
    have happend : done ++ r :: l = (done ++ [r]) ++ l := by simp
    rw [happend] at hsorted ⊢
    refine Swept.ranges hs hsorted (h.range hs fun q hq => ?_)
    have hfirst := (List.pairwise_append.mp hsorted).1
    exact (List.pairwise_append.mp hfirst).2.2 q hq r (List.mem_singleton.mpr rfl)

/-- The candidates that wake without a rule: the unread messages of a DM, and the unread messages of
a channel that somebody else wrote to the actor. -/
theorem mem_defaultCandidates (h : s.Index cid index) {i : Nat} :
    i ∈ s.defaultCandidates actor cid index read ↔
      actor ≠ "owner" ∧ ∃ e, s.MessageAt cid i e ∧ Store.isAfter read e.cursor = true
        ∧ (s.conversations.contains cid = true ∨ addressedTo cid actor e.event = true) := by
  unfold Store.defaultCandidates
  split
  · exact iff_of_false List.not_mem_nil fun hi => hi.1 ‹_›
  rw [and_iff_right ‹_›]
  split
  · rename_i hdm
    constructor
    · intro hi
      obtain ⟨x, hx, rfl⟩ := List.mem_map.mp hi
      obtain ⟨e, he, hkey, hafter⟩ := (mem_unread h).mp hx
      exact ⟨e, he, hkey ▸ hafter, .inl hdm⟩
    · rintro ⟨e, he, hafter, -⟩
      exact List.mem_map.mpr ⟨(e.cursor, i), (mem_unread h).mpr ⟨e, he, rfl, hafter⟩, rfl⟩
  · rename_i hdm
    have hkeys := h.tally.mentions actor
    have hsuffix : ∀ k, k ∈ Store.suffix id (entryD index.mentions actor []) read ↔
        KeyOf s.events (addressedTo cid actor) k ∧ Store.isAfter read k = true := by
      intro k
      rw [@Store.mem_suffix _ _ _ id (hkeys.sorted.imp le_of_lt), hkeys.mem_iff]
      rfl
    rw [List.mem_filterMap]
    constructor
    · rintro ⟨k, hk, hi⟩
      obtain ⟨⟨e, he, hq, rfl⟩, hafter⟩ := (hsuffix k).mp hk
      obtain ⟨j, hj⟩ := List.mem_iff_getElem?.mp he
      have hsame := (h.indexed.index (strv e.event "id") j).mpr ⟨e, hj, rfl⟩
      obtain rfl := Option.some.inj (hsame.symm.trans hi)
      exact ⟨e, ⟨hj, (addressedTo_iff.mp hq).1⟩, hafter, .inr hq⟩
    · rintro ⟨e, he, hafter, hwho⟩
      have hq := hwho.resolve_left hdm
      refine ⟨e.cursor, (hsuffix _).mpr ⟨⟨e, List.mem_of_getElem? he.1, hq, rfl⟩, hafter⟩, ?_⟩
      exact (h.indexed.index (strv e.event "id") i).mpr ⟨e, he.1, rfl⟩

/-- The candidates of a conversation, after the sweep of its intervals. -/
theorem swept_candidates (h : s.Index cid index) {c : WakeRules} :
    ∃ through, Swept s cid read (s.defaultCandidates actor cid index read) (s.wakeRanges c)
      (s.candidates actor cid index read c, through) := by
  refine ⟨_, @Swept.ranges _ _ _ _ h _ _ [] _ ?_ ⟨fun i => ?_, fun i b hb => ?_, ?_, .inl rfl⟩⟩
  · refine (@pairwise_sortByKey _ _ _ (fun r : Nat × Nat => toLex r) _).imp fun {a b} hab => ?_
    rcases Prod.Lex.le_iff.mp hab with hab | hab
    · exact Nat.le_of_lt hab
    · exact Nat.le_of_eq hab.1
  · rw [getElem?_foldl_insert]
    split <;> simp [*]
  · rw [getElem?_foldl_insert] at hb
    split at hb
    · obtain ⟨-, e, he, -⟩ := (mem_defaultCandidates h).mp ‹_›
      exact ⟨e, he⟩
    · simp at hb
  · rintro i e - - ⟨r, hr, -⟩
    cases hr

end

/-! ## One event -/

section

variable {s : Store} {actor : String} {e : Published} {read : Option ReadCursor} {c : WakeRules}

/-- What is not read yet wakes somebody, where a rule, a watch or the message itself says so. -/
theorem evaluate_nil_of_quiet {b : Bool} (h : s.quiet actor e.event read = true) :
    s.evaluate actor c e read b = [] := by
  unfold Store.evaluate
  simp only
  rw [if_pos h]

/-- Rules whose boundary the event has not passed wake nobody. -/
theorem wakeStep_foldlM {id : String} {root : Option String} : ∀ {rules : List Follow},
    (∀ rule ∈ rules, rule.wake = true → ¬ rule.boundary < e.position) →
    rules.foldlM (wakeStep e id root) false ≠ some true
  | [], _ => by simp
  | rule :: rules, h => by
    rw [List.foldlM_cons]
    have hrest := @wakeStep_foldlM id root _ fun r hr => h r (List.mem_cons_of_mem _ hr)
    unfold wakeStep
    split
    · split
      · simp
      · split
        · rename_i hrule
          cases hwake : rule.wake with
          | true =>
            rw [hwake] at hrule
            exact absurd (hrule.resolve_right (by simp)) (h rule List.mem_cons_self hwake)
          | false => exact hrest
        · exact hrest
    · exact hrest

/-- Outside the intervals of its conversation, an event that does not wake by itself wakes nobody. -/
theorem evaluate_outside (hbound : e.position ≤ s.position)
    (hout : ∀ r ∈ s.wakeRanges c, ¬ (r.1 < e.position ∧ e.position ≤ r.2)) :
    s.evaluate actor c e read false = [] := by
  have hrange : ∀ lo hi, (lo, hi) ∈ ((c.rules.filter (·.wake)).map fun rule =>
      (rule.boundary, s.position)) ++ c.monitors.map (fun m =>
        (m.monitor.acknowledged, m.monitor.hitHigh)) → lo < e.position → e.position ≤ hi → False := by
    intro lo hi hmem hlow hhigh
    refine hout (lo, hi) ?_ ⟨hlow, hhigh⟩
    unfold Store.wakeRanges
    exact mem_sortByKey.mpr (List.mem_filter.mpr ⟨hmem, decide_eq_true (hlow.trans_le hhigh)⟩)
  have hrules : c.rules.foldlM (wakeStep e (strv e.event "id") e.event["data"]["thread_root"].asStr)
      false ≠ some true := by
    refine wakeStep_foldlM fun rule hrule hwake hlow => ?_
    refine hrange rule.boundary s.position (List.mem_append_left _ ?_) hlow hbound
    exact List.mem_map.mpr ⟨rule, List.mem_filter.mpr ⟨hrule, hwake⟩, rfl⟩
  have hmonitors : c.monitors.filter (opensHit e (strv e.event "id")
      e.event["data"]["thread_root"].asStr) = [] := by
    refine List.filter_eq_nil_iff.mpr fun m hm hopen => ?_
    unfold opensHit at hopen
    simp only [Bool.and_eq_true, decide_eq_true_eq] at hopen
    refine hrange m.monitor.acknowledged m.monitor.hitHigh (List.mem_append_right _ ?_)
      hopen.1.1.1 hopen.1.1.2
    exact List.mem_map.mpr ⟨m, hm, rfl⟩
  unfold Store.evaluate
  simp only
  split
  · rfl
  · rw [hmonitors]
    split
    · rfl
    · rename_i wake hwake
      cases wake with
      | true => exact absurd hwake hrules
      | false => rfl

theorem quiet_eq_false : s.quiet actor e.event read = false ↔ e.event["actor"]["id"] ≠ .str actor
    ∧ s.replication.rejections.contains (strv e.event "id") = false
    ∧ Store.isAfter read e.cursor = true := by
  unfold Store.quiet Store.isAfter
  rw [Bool.or_eq_false_iff, Bool.or_eq_false_iff, decide_eq_false_iff_not, and_assoc]
  refine and_congr_right fun _ => and_congr_right fun _ => ?_
  cases read with
  | none => simp
  | some r =>
    show decide (e.cursor ≤ r) = false ↔ decide (r < e.cursor) = true
    rw [decide_eq_false_iff_not, decide_eq_true_eq, not_le]

/-- What is not quiet is a default candidate where it wakes by itself. -/
theorem default_iff {cid : String} {index : ConversationIndex} (h : s.Index cid index) {i : Nat}
    (he : s.MessageAt cid i e) (hquiet : s.quiet actor e.event read = false) :
    i ∈ s.defaultCandidates actor cid index read ↔ s.defaultWake actor e.event = true := by
  obtain ⟨hother, -, hafter⟩ := quiet_eq_false.mp hquiet
  rw [mem_defaultCandidates h]
  unfold Store.defaultWake Store.defaultInbox
  rw [Bool.and_eq_true, Bool.or_eq_true, decide_eq_true_eq, List.contains_iff_mem,
    (messageOf_iff.mp he.2).2]
  refine and_congr_right fun _ => ⟨fun hi => ?_, fun hwake => ⟨e, he, hafter, ?_⟩⟩
  · obtain ⟨e', he', -, hwho⟩ := hi
    obtain rfl := Option.some.inj (he.1.symm.trans he'.1)
    exact hwho.imp id fun hq => (addressedTo_iff.mp hq).2.1
  · exact hwake.imp id fun hmention => addressedTo_iff.mpr ⟨he.2, hmention, hother⟩

/-- For one event, the candidates of a conversation decide what the plain evaluation does. -/
theorem candidate_evaluate {cid : String} {index : ConversationIndex} (h : s.Index cid index)
    {i : Nat} (he : s.events[i]? = some e) :
    (s.candidates actor cid index read c)[i]?.elim [] (s.evaluate actor c e read)
      = if messageOf cid e.event = true then s.evaluate actor c e read (s.defaultWake actor e.event)
        else [] := by
  obtain ⟨through, hswept⟩ := @swept_candidates _ actor _ _ read h c
  cases hquiet : s.quiet actor e.event read with
  | true =>
    rw [evaluate_nil_of_quiet hquiet, ite_self]
    cases (s.candidates actor cid index read c)[i]? with
    | none => rfl
    | some b => exact evaluate_nil_of_quiet hquiet
  | false =>
    by_cases hcid : messageOf cid e.event = true
    · rw [if_pos hcid]
      have hdefault := default_iff h ⟨he, hcid⟩ hquiet
      have hmarked := (hswept.marked i).trans hdefault
      cases hi : (s.candidates actor cid index read c)[i]? with
      | none =>
        have hwake : s.defaultWake actor e.event = false := by
          rw [← Bool.not_eq_true, ← hmarked]
          simp [hi]
        rw [hwake]
        refine (evaluate_outside (h.indexed.bounded e (List.mem_of_getElem? he)) fun r hr hin => ?_).symm
        exact hswept.covered i e ⟨he, hcid⟩ (quiet_eq_false.mp hquiet).2.2 ⟨r, hr, hin⟩ hi
      | some b =>
        have hb : b = s.defaultWake actor e.event := by
          rw [Bool.eq_iff_iff, ← hmarked]
          simp [hi]
        rw [hb]
        rfl
    · rw [if_neg hcid]
      cases hi : (s.candidates actor cid index read c)[i]? with
      | none => rfl
      | some b =>
        obtain ⟨e', he', hcid'⟩ := hswept.placed i b hi
        obtain rfl := Option.some.inj (he.symm.trans he')
        exact absurd hcid' hcid

/-! ## One conversation -/

/-- Values under one key, as those of a key. -/
theorem ofKey_map {β : Type} {p k : Nat} {l : List β} :
    ofKey Prod.fst k (l.map fun x => (p, x)) = if p = k then l.map fun x => (p, x) else [] := by
  unfold ofKey
  by_cases h : p = k
  · simp [h, List.filter_map, Function.comp_def]
  · simp [h, List.filter_map, Function.comp_def]

/-- The intents of a conversation for what arrived at one position. -/
theorem conversationIntents_at {cid : String} {index : ConversationIndex} (h : s.Index cid index)
    {i : Nat} (he : s.events[i]? = some e) (plan : WakeRules) :
    ofKey Prod.fst e.position (s.conversationIntents actor cid index plan)
      = if messageOf cid e.event = true then
          (s.evaluate actor (s.conversationWake actor cid plan) e (s.cursor actor cid)
            (s.defaultWake actor e.event)).map fun intent => (e.position, intent)
        else [] := by
  have hone : ∀ entry : Nat × Bool, ofKey Prod.fst e.position
      (s.events[entry.1]?.toList.flatMap fun e' => (s.evaluate actor (s.conversationWake actor cid plan)
        e' (s.cursor actor cid) entry.2).map fun intent => (e'.position, intent))
      = if entry.1 = i then (s.evaluate actor (s.conversationWake actor cid plan) e
          (s.cursor actor cid) entry.2).map fun intent => (e.position, intent) else [] := by
    intro entry
    by_cases hentry : entry.1 = i
    · rw [if_pos hentry, hentry, he, Option.toList_some, List.flatMap_singleton, ofKey_map, if_pos rfl]
    · rw [if_neg hentry]
      cases he' : s.events[entry.1]? with
      | none => rfl
      | some e' =>
        have hne : e'.position ≠ e.position := by
          intro hpos
          obtain ⟨hi, rfl⟩ := List.getElem?_eq_some_iff.mp he
          obtain ⟨hj, rfl⟩ := List.getElem?_eq_some_iff.mp he'
          have hordered := List.pairwise_iff_getElem.mp h.indexed.ordered
          rcases Nat.lt_or_gt_of_ne hentry with hlt | hlt
          · exact absurd hpos (hordered _ _ hj hi hlt).ne
          · exact absurd hpos (hordered _ _ hi hj hlt).ne'
        rw [Option.toList_some, List.flatMap_singleton, ofKey_map, if_neg hne]
  have hsingle : ofKey Prod.fst e.position (s.conversationIntents actor cid index plan)
      = ((s.candidates actor cid index (s.cursor actor cid) (s.conversationWake actor cid plan))[i]?.elim
          [] fun b => (s.evaluate actor (s.conversationWake actor cid plan) e (s.cursor actor cid) b).map
            fun intent => (e.position, intent)) := by
    unfold Store.conversationIntents ofKey
    rw [List.filter_flatMap]
    refine (List.flatMap_congr fun entry _ => hone entry).trans ?_
    cases hi : (s.candidates actor cid index (s.cursor actor cid)
        (s.conversationWake actor cid plan))[i]? with
    | none =>
      refine List.flatMap_eq_nil_iff.mpr fun entry hentry => if_neg fun hi' => ?_
      have hget := Std.ExtTreeMap.mem_toList_iff_getElem?_eq_some.mp hentry
      rw [hi', hi] at hget
      cases hget
    | some b =>
      refine (flatMap_single (a := (i, b)) ?_ ?_ fun entry hentry hne => if_neg fun hi' => hne ?_).trans
        (if_pos rfl)
      · exact (Std.ExtTreeMap.distinct_keys_toList).imp fun hab heq => by
          subst heq
          exact hab Std.ReflCmp.compare_self
      · exact Std.ExtTreeMap.mem_toList_iff_getElem?_eq_some.mpr hi
      · have hget := Std.ExtTreeMap.mem_toList_iff_getElem?_eq_some.mp hentry
        rw [hi', hi] at hget
        exact Prod.ext hi' (Option.some.inj hget).symm
  rw [hsingle]
  have heval := @candidate_evaluate s actor e (s.cursor actor cid)
    (s.conversationWake actor cid plan) cid _ h _ he
  have hmap := congrArg (List.map fun intent => (e.position, intent)) heval
  rw [apply_ite (List.map fun intent => (e.position, intent)), List.map_nil] at hmap
  rw [← hmap]
  cases (s.candidates actor cid index (s.cursor actor cid) (s.conversationWake actor cid plan))[i]? <;>
    rfl

end

/-! ## All conversations -/

section

variable {s : Store} {actor : String}

theorem visible_iff {cid : String} : s.visible actor cid = true ↔
    s.channels.paths.contains cid = true
      ∨ ∃ members, s.conversations[cid]? = some members ∧ members.contains actor = true := by
  unfold Store.visible
  rw [Bool.or_eq_true, Option.any_eq_true]

theorem mem_memberDms {cid : String} : cid ∈ s.memberDms actor ↔
    ∃ members, s.conversations[cid]? = some members ∧ members.contains actor = true := by
  unfold Store.memberDms
  rw [List.mem_map]
  constructor
  · rintro ⟨entry, hentry, rfl⟩
    obtain ⟨hmem, hactor⟩ := List.mem_filter.mp hentry
    exact ⟨entry.2, Std.ExtTreeMap.mem_toList_iff_getElem?_eq_some.mp hmem, hactor⟩
  · rintro ⟨members, hmembers, hactor⟩
    refine ⟨(cid, members), List.mem_filter.mpr ⟨?_, hactor⟩, rfl⟩
    exact Std.ExtTreeMap.mem_toList_iff_getElem?_eq_some.mpr hmembers

/-- The conversations of a participant are those that it sees and that have events. -/
theorem mem_visibleConversations {cid : String} {index : ConversationIndex} :
    (cid, index) ∈ s.visibleConversations actor ↔
      s.visible actor cid = true ∧ s.readModel.conversations[cid]? = some index := by
  unfold Store.visibleConversations
  rw [mem_sortByKey, List.mem_filterMap, visible_iff]
  constructor
  · rintro ⟨cid', hcid, hindex⟩
    obtain ⟨index', hindex', heq⟩ := Option.map_eq_some_iff.mp hindex
    obtain ⟨rfl, rfl⟩ := Prod.mk.inj heq
    refine ⟨?_, hindex'⟩
    rcases List.mem_append.mp hcid with hcid | hcid
    · exact .inl (Std.ExtTreeMap.contains_iff_mem.mpr (Std.ExtTreeMap.mem_keys.mp hcid))
    · exact .inr (mem_memberDms.mp (List.mem_filter.mp hcid).1)
  · rintro ⟨hvisible, hindex⟩
    refine ⟨cid, ?_, Option.map_eq_some_iff.mpr ⟨index, hindex, rfl⟩⟩
    by_cases hchannel : s.channels.paths.contains cid = true
    · exact List.mem_append_left _ (Std.ExtTreeMap.mem_keys.mpr
        (Std.ExtTreeMap.contains_iff_mem.mp hchannel))
    · refine List.mem_append_right _ (List.mem_filter.mpr ⟨mem_memberDms.mpr
        (hvisible.resolve_left hchannel), decide_eq_true hchannel⟩)

theorem visibleConversations_nodup : (s.visibleConversations actor).Nodup := by
  unfold Store.visibleConversations
  refine (sortByKey_perm.nodup_iff).mpr (List.Nodup.filterMap (fun a a' b hb hb' => ?_) ?_)
  · obtain ⟨_, -, rfl⟩ := Option.map_eq_some_iff.mp (Option.mem_def.mp hb)
    obtain ⟨_, -, heq⟩ := Option.map_eq_some_iff.mp (Option.mem_def.mp hb')
    exact (Prod.mk.inj heq).1.symm
  · rw [List.nodup_append]
    refine ⟨Std.ExtTreeMap.nodup_keys, nodup_filter_keys.filter _, fun a ha b hb hab => ?_⟩
    subst hab
    have hchannel := of_decide_eq_true (List.mem_filter.mp hb).2
    exact hchannel (Std.ExtTreeMap.contains_iff_mem.mpr (Std.ExtTreeMap.mem_keys.mp ha))

/-- A conversation with a message has indexes. -/
theorem index_of_message (hs : Indexed s) (ht : Tallied s) {cid : String} {e : Published}
    (he : e ∈ s.events) (hcid : messageOf cid e.event = true) :
    ∃ index, s.readModel.conversations[cid]? = some index ∧ s.Index cid index := by
  have htally := ht cid
  unfold entryD at htally
  cases hindex : s.readModel.conversations[cid]? with
  | none =>
    rw [hindex] at htally
    obtain ⟨i, hi⟩ := List.mem_iff_getElem?.mp he
    exact absurd ((htally.messages.mem_iff (e.cursor, i)).mpr ⟨e, hi, hcid, rfl⟩) List.not_mem_nil
  | some index =>
    rw [hindex] at htally
    exact ⟨index, rfl, hs, htally⟩

theorem index_of_visible (hs : Indexed s) (ht : Tallied s) {cid : String} {index : ConversationIndex}
    (hindex : s.readModel.conversations[cid]? = some index) : s.Index cid index := by
  have htally := ht cid
  unfold entryD at htally
  rw [hindex] at htally
  exact ⟨hs, htally⟩

/-- What arrived at one position comes from one conversation. -/
theorem visible_intents_at (hs : Indexed s) (ht : Tallied s) (w : Watchers) {e : Published}
    (he : e ∈ s.events) (hdnd : ¬ w.personal[actor]?.any (·.preferences.dnd) = true) :
    ofKey Prod.fst e.position ((s.visibleConversations actor).flatMap fun entry =>
        s.conversationIntents actor entry.1 entry.2 (s.wakeRules w actor w.personal[actor]?))
      = (s.eventWakeIntents w actor e).map fun intent => (e.position, intent) := by
  obtain ⟨i, hi⟩ := List.mem_iff_getElem?.mp he
  unfold ofKey
  rw [List.filter_flatMap]
  have hat : ∀ entry ∈ s.visibleConversations actor,
      List.filter (fun a => decide (a.1 = e.position)) (s.conversationIntents actor entry.1 entry.2
          (s.wakeRules w actor w.personal[actor]?))
        = if messageOf entry.1 e.event = true then
            (s.evaluate actor (s.conversationWake actor entry.1 (s.wakeRules w actor w.personal[actor]?))
              e (s.cursor actor entry.1) (s.defaultWake actor e.event)).map
                fun intent => (e.position, intent)
          else [] := by
    intro entry hentry
    exact conversationIntents_at (index_of_visible hs ht (mem_visibleConversations.mp hentry).2) hi _
  rw [List.flatMap_congr hat]
  unfold Store.eventWakeIntents
  simp only
  split
  · rename_i hskip
    refine List.flatMap_eq_nil_iff.mpr fun entry hentry => if_neg fun hcid => ?_
    obtain ⟨htype, hconv⟩ := messageOf_iff.mp hcid
    rw [hconv] at hskip
    rcases hskip with hskip | hskip | hskip
    · exact hskip htype
    · exact hskip (mem_visibleConversations.mp hentry).1
    · exact hdnd hskip
  · rename_i hkeep
    rw [not_or, not_or, not_not, not_not] at hkeep
    obtain ⟨htype, hvisible, -⟩ := hkeep
    have hcid : messageOf (strv e.event "conversation_id") e.event = true :=
      messageOf_iff.mpr ⟨htype, rfl⟩
    obtain ⟨index, hindex, -⟩ := index_of_message hs ht he hcid
    refine (flatMap_single (a := (strv e.event "conversation_id", index))
      visibleConversations_nodup (mem_visibleConversations.mpr ⟨hvisible, hindex⟩)
      fun entry hentry hne => if_neg fun hcid' => hne ?_).trans (if_pos hcid)
    have hsame : entry.1 = strv e.event "conversation_id" := (messageOf_iff.mp hcid').2.symm
    refine Prod.ext hsame (Option.some.inj ?_)
    rw [← (mem_visibleConversations.mp hentry).2, hsame, hindex]

/-- Every intent of a conversation comes with the position of an event. -/
theorem conversationIntents_position {cid : String} {index : ConversationIndex} {plan : WakeRules}
    {x : Nat × WakeIntent} (hx : x ∈ s.conversationIntents actor cid index plan) :
    ∃ e ∈ s.events, e.position = x.1 := by
  obtain ⟨entry, -, hx⟩ := List.mem_flatMap.mp hx
  obtain ⟨e, he, hx⟩ := List.mem_flatMap.mp hx
  obtain ⟨_, -, rfl⟩ := List.mem_map.mp hx
  exact ⟨e, List.mem_of_getElem? (Option.mem_toList.mp he), rfl⟩

/-- What a scan finds at the position of an event. -/
theorem scan_at (hs : Indexed s) {f : Published → List WakeIntent} {e : Published}
    (he : e ∈ s.events) : ofKey Prod.fst e.position (s.events.flatMap fun e =>
      (f e).map fun intent => (e.position, intent)) = (f e).map fun intent => (e.position, intent) := by
  unfold ofKey
  rw [List.filter_flatMap]
  have hsingle : ∀ e' : Published, List.filter (fun a => decide (a.1 = e.position))
      ((f e').map fun intent => (e'.position, intent))
      = if e'.position = e.position then (f e').map fun intent => (e'.position, intent) else [] :=
    fun e' => ofKey_map
  rw [List.flatMap_congr fun e' _ => hsingle e']
  refine (flatMap_single (hs.ordered.imp fun h heq => h.ne (congrArg Published.position heq)) he
    fun e' he' hne => if_neg fun hpos => hne ?_).trans (if_pos rfl)
  have hinj : (s.events.map Published.position).Nodup :=
    List.pairwise_map.mpr (hs.ordered.imp fun h => h.ne)
  exact List.inj_on_of_nodup_map hinj he' he hpos

theorem scan_none {f : Published → List WakeIntent} {k : Nat} (h : ∀ e ∈ s.events, e.position ≠ k) :
    ofKey Prod.fst k (s.events.flatMap fun e => (f e).map fun intent => (e.position, intent)) = [] := by
  unfold ofKey
  rw [List.filter_flatMap]
  exact List.flatMap_eq_nil_iff.mpr fun e he => ofKey_map.trans (if_neg (h e he))

/-- The indexes give what a scan of the history gives, in its order. -/
theorem wakeIntents_scanned (hs : Indexed s) (ht : Tallied s) (w : Watchers) :
    s.wakeIntentsForActor w actor = s.events.flatMap (s.eventWakeIntents w actor) := by
  unfold Store.wakeIntentsForActor
  simp only
  split
  · rename_i hdnd
    refine (List.flatMap_eq_nil_iff.mpr fun e _ => ?_).symm
    unfold Store.eventWakeIntents
    simp only
    rw [if_pos (.inr (.inr hdnd))]
  · rename_i hdnd
    have hsort : sortByKey Prod.fst ((s.visibleConversations actor).flatMap fun entry =>
          s.conversationIntents actor entry.1 entry.2 (s.wakeRules w actor w.personal[actor]?))
        = s.events.flatMap fun e => (s.eventWakeIntents w actor e).map
            fun intent => (e.position, intent) := by
      refine sortByKey_eq ?_ fun k => ?_
      · rw [List.pairwise_flatMap]
        refine ⟨fun e _ => ?_, hs.ordered.imp fun hlt x hx y hy => ?_⟩
        · rw [List.pairwise_map]
          exact List.pairwise_of_forall fun _ _ => Nat.le_refl _
        · obtain ⟨_, -, rfl⟩ := List.mem_map.mp hx
          obtain ⟨_, -, rfl⟩ := List.mem_map.mp hy
          exact hlt.le
      · by_cases hk : ∃ e ∈ s.events, e.position = k
        · obtain ⟨e, he, rfl⟩ := hk
          rw [visible_intents_at hs ht w he hdnd, scan_at hs he]
        · rw [scan_none fun e he hpos => hk ⟨e, he, hpos⟩]
          refine List.filter_eq_nil_iff.mpr fun x hx hkey => hk ?_
          obtain ⟨entry, -, hx⟩ := List.mem_flatMap.mp hx
          obtain ⟨e, he, hpos⟩ := conversationIntents_position hx
          exact ⟨e, he, hpos.trans (of_decide_eq_true hkey)⟩
    rw [hsort, List.map_flatMap]
    refine List.flatMap_congr fun e _ => ?_
    rw [List.map_map]
    exact List.map_id _

end

/-! ## Rules of the two evaluators -/

/-- Every event has an ID. -/
def Identified (s : Store) : Prop := ∀ e ∈ s.events, strv e.event "id" ≠ ""

theorem Identified.grows {s t : Store} (h : Grows s t) (hs : Identified s) : Identified t := by
  intro e he
  obtain ⟨hevents, -⟩ | ⟨p, hid, -, -, -, hevents, -⟩ := h.history
  · exact hs e (hevents ▸ he)
  · rw [hevents] at he
    rcases List.mem_append.mp he with he | he
    · exact hs e he
    · rw [List.mem_singleton.mp he]
      exact hid

section

variable {s : Store} {actor : String} {w : Watchers} {e : Published}

/-- A rule's thread is that of the event, in the reading of either evaluator. -/
theorem threadMatches_iff (hid : strv e.event "id" ≠ "") (scope : Scope) :
    threadMatches scope (strv e.event "id") e.event["data"]["thread_root"].asStr
      = scope.thread.all fun root =>
        e.event["id"] = .str root || e.event["data"]["thread_root"] = .str root := by
  unfold threadMatches
  cases scope.thread with
  | none => rfl
  | some root =>
    have hroot : (e.event["data"]["thread_root"].asStr = some root)
        = (e.event["data"]["thread_root"] = .str root) := propext Value.asStr_eq_some
    have hevent : (root = strv e.event "id") = (e.event["id"] = .str root) := by
      refine propext ⟨fun h => idx_eq_of_strv h.symm (h ▸ hid), fun h => (strv_of_idx h).symm⟩
    simp only [Option.all_some, hroot, hevent]

/-- A mute stays, whatever rules follow. -/
theorem applyFollow_muted {rules : List Follow} {wanted : Wanted} (h : wanted.muted = true) :
    (rules.foldl (s.applyFollow e) wanted).muted = true := by
  induction rules generalizing wanted with
  | nil => exact h
  | cons rule rules ih => exact ih (by simp [Store.applyFollow, h])

/-- Over the same rules, the two evaluators agree. -/
theorem follows_agree {id : String} {root : Option String} : ∀ {rules : List Follow} {wanted : Wanted},
    wanted.muted = false → (∀ rule ∈ rules, threadMatches rule.scope id root = true) →
    rules.foldlM (wakeStep e id root) wanted.wake
      = if (rules.foldl (s.applyFollow e) wanted).muted = true then none
        else some (rules.foldl (s.applyFollow e) wanted).wake
  | [], wanted, hmuted, _ => by simp [hmuted]
  | rule :: rules, wanted, hmuted, hthread => by
    rw [List.foldlM_cons, List.foldl_cons]
    have hrest := fun r hr => hthread r (List.mem_cons_of_mem rule hr)
    have hstep : (s.applyFollow e wanted rule).muted = rule.muted := by
      simp [Store.applyFollow, hmuted]
    unfold wakeStep
    rw [if_pos (hthread rule List.mem_cons_self)]
    cases hrule : rule.muted with
    | true =>
      rw [if_pos rfl, applyFollow_muted (hstep.trans hrule), if_pos rfl]
      rfl
    | false =>
      rw [← follows_agree (hstep.trans hrule) hrest]
      have hwake : (s.applyFollow e wanted rule).wake
          = if rule.boundary < e.position ∨ ¬ rule.wake = true then rule.wake else wanted.wake := rfl
      rw [hwake]
      split
      · rename_i h
        cases h
      · split <;> rfl

/-- Rules of other threads change nothing. -/
theorem wakeStep_filter {id : String} {root : Option String} : ∀ {rules : List Follow} {wake : Bool},
    rules.foldlM (wakeStep e id root) wake
      = (rules.filter fun rule => threadMatches rule.scope id root).foldlM (wakeStep e id root) wake
  | [], _ => rfl
  | rule :: rules, wake => by
    cases h : threadMatches rule.scope id root with
    | true =>
      rw [List.filter_cons, if_pos h, List.foldlM_cons, List.foldlM_cons]
      exact bind_congr fun _ => wakeStep_filter
    | false =>
      rw [List.filter_cons, if_neg (by simp [h]), List.foldlM_cons, ← wakeStep_filter]
      simp [wakeStep, h]

/-- The rules of a conversation that are about the event's thread are the participant's rules about
the event. -/
theorem conversation_rules (hid : strv e.event "id" ≠ "")
    (hvisible : s.visible actor (strv e.event "conversation_id") = true) {p : Watcher} :
    (s.conversationWake actor (strv e.event "conversation_id")
        (s.wakeRules w actor (some p))).rules.filter (fun rule =>
          threadMatches rule.scope (strv e.event "id") e.event["data"]["thread_root"].asStr)
      = s.rulesFor p actor e.event := by
  unfold Store.conversationWake Store.wakeRules Store.rulesFor
  rw [List.filter_filter, Option.elim_some, sortByKey_filter]
  refine congrArg (sortByKey _) (List.filter_congr fun rule _ => ?_)
  unfold Store.scopeMatches
  simp only
  rw [hvisible, Bool.true_and, threadMatches_iff hid, Bool.and_comm]

/-- What is quiet was written by the actor, read or rejected. -/
theorem quiet_eq : s.quiet actor e.event (s.cursor actor (strv e.event "conversation_id"))
    = (s.isRead actor e.event || s.replication.rejections.contains (strv e.event "id")) := by
  unfold Store.quiet Store.isRead
  rw [Bool.or_assoc, Bool.or_assoc, Bool.or_comm (s.replication.rejections.contains _)]

theorem mem_intents {id : String} {b : Bool} {l : List WakeMonitor} :
    directIntent id ∈ (if b = true then [directIntent id] else []) ++ l.map (monitorIntent id)
      ↔ b = true := by
  rw [List.mem_append, List.mem_map]
  constructor
  · rintro (h | ⟨m, -, h⟩)
    · cases b with
      | true => rfl
      | false => exact absurd h List.not_mem_nil
    · exact absurd (congrArg WakeIntent.monitor h) (Option.some_ne_none _)
  · intro h
    rw [if_pos h]
    exact .inl (List.mem_singleton.mpr rfl)

/-- The evaluation of a conversation's rules gives a direct intent where the preferences, folded over
the rules about the event's thread, wake. -/
theorem direct_evaluate {c : WakeRules} {rules : List Follow} {wanted : Wanted}
    (hrules : c.rules.filter (fun rule => threadMatches rule.scope (strv e.event "id")
      e.event["data"]["thread_root"].asStr) = rules) (hmuted : wanted.muted = false)
    {read : Option ReadCursor} :
    directIntent (strv e.event "id") ∈ s.evaluate actor c e read wanted.wake ↔
      ((rules.foldl (s.applyFollow e) wanted).wake = true
        ∧ (rules.foldl (s.applyFollow e) wanted).muted = false) ∧ s.quiet actor e.event read = false := by
  unfold Store.evaluate
  simp only
  cases hquiet : s.quiet actor e.event read with
  | true =>
    rw [if_pos rfl]
    exact iff_of_false List.not_mem_nil fun h => by cases h.2
  | false =>
    have hthread : ∀ rule ∈ rules, threadMatches rule.scope (strv e.event "id")
        e.event["data"]["thread_root"].asStr = true := by
      intro rule hrule
      rw [← hrules] at hrule
      exact (List.mem_filter.mp hrule).2
    rw [if_neg Bool.false_ne_true, wakeStep_filter, hrules, follows_agree hmuted hthread,
      and_iff_left rfl]
    cases (rules.foldl (s.applyFollow e) wanted).muted with
    | true =>
      rw [if_pos rfl]
      exact iff_of_false List.not_mem_nil fun h => by cases h.2
    | false =>
      rw [if_neg Bool.false_ne_true, and_iff_left rfl]
      exact mem_intents

/-- Read and rejected messages are quiet, and the actor's own. -/
theorem wakes_iff {wanted : Wanted} :
    ((wanted.wake = true ∧ wanted.muted = false)
        ∧ s.quiet actor e.event (s.cursor actor (strv e.event "conversation_id")) = false) ↔
      (wanted.wake && !wanted.muted && decide (e.event["actor"]["id"] ≠ .str actor)) = true
        ∧ s.isRead actor e.event = false
        ∧ s.replication.rejections.contains (strv e.event "id") = false := by
  rw [quiet_eq, Bool.or_eq_false_iff, Bool.and_eq_true, Bool.and_eq_true, Bool.not_eq_true',
    decide_eq_true_eq]
  constructor
  · rintro ⟨hwake, hread, hrejected⟩
    refine ⟨⟨hwake, fun hown => ?_⟩, hread, hrejected⟩
    unfold Store.isRead at hread
    rw [hown, decide_eq_true rfl, Bool.true_or] at hread
    cases hread
  · rintro ⟨⟨hwake, -⟩, hread, hrejected⟩
    exact ⟨hwake, hread, hrejected⟩

/-- A message wakes by itself exactly where the preferences say so, and it is neither read, written
by the actor nor rejected. -/
theorem directIntent_iff (hid : strv e.event "id" ≠ "") :
    directIntent (strv e.event "id") ∈ s.eventWakeIntents w actor e ↔
      (s.preferenceForEvent w actor e).wake = true ∧ s.isRead actor e.event = false
        ∧ s.replication.rejections.contains (strv e.event "id") = false := by
  unfold Store.eventWakeIntents Store.preferenceForEvent
  simp only
  by_cases hskip : e.event["type"] ≠ "message.create"
      ∨ ¬ s.visible actor (strv e.event "conversation_id") = true
  · rw [if_pos (hskip.elim .inl fun h => .inr (.inl h)), if_pos hskip]
    exact iff_of_false List.not_mem_nil fun h => by cases h.1
  rw [if_neg hskip]
  rw [not_or, not_not, not_not] at hskip
  cases hpersonal : w.personal[actor]? with
  | none =>
    rw [if_neg (by simp [hskip])]
    have heval := @direct_evaluate s actor e
      (s.conversationWake actor (strv e.event "conversation_id") (s.wakeRules w actor none))
      [] (s.defaultWanted actor e.event false)
      (by simp [Store.conversationWake, Store.wakeRules, sortByKey]) rfl
      (s.cursor actor (strv e.event "conversation_id"))
    exact heval.trans wakes_iff
  | some p =>
    cases hdnd : p.preferences.dnd with
    | true =>
      rw [if_pos (by simp [hdnd])]
      refine iff_of_false List.not_mem_nil fun h => ?_
      have hmuted : ((s.rulesFor p actor e.event).foldl (s.applyFollow e)
          (s.defaultWanted actor e.event p.preferences.dnd)).muted = true := applyFollow_muted hdnd
      simp [hmuted] at h
    | false =>
      rw [if_neg (by simp [hskip, hdnd])]
      have heval := @direct_evaluate s actor e _ _ (s.defaultWanted actor e.event false)
        (@conversation_rules s actor w e hid hskip.2 p) rfl (s.cursor actor (strv e.event "conversation_id"))
      have hwanted : s.defaultWanted actor e.event p.preferences.dnd
          = s.defaultWanted actor e.event false := by rw [hdnd]
      rw [← hwanted] at heval
      exact heval.trans wakes_iff

/-- The intents of an event name it, and a direct one is the only one without a watch. -/
theorem mem_eventWakeIntents {intent : WakeIntent} (h : intent ∈ s.eventWakeIntents w actor e) :
    intent.eventId = strv e.event "id"
      ∧ (intent.monitor = none → intent = directIntent (strv e.event "id")) := by
  unfold Store.eventWakeIntents at h
  simp only at h
  split at h
  · cases h
  unfold Store.evaluate at h
  simp only at h
  split at h
  · cases h
  split at h
  · cases h
  · rcases List.mem_append.mp h with h | h
    · split at h
      · obtain rfl := List.mem_singleton.mp h
        exact ⟨rfl, fun _ => rfl⟩
      · cases h
    · obtain ⟨m, -, rfl⟩ := List.mem_map.mp h
      exact ⟨rfl, fun hnone => by cases hnone⟩

end

section

local instance wakingText : Externals := mintingText

/-- A rule to wake for every channel. -/
def everyChannel : Follow :=
  { scope := { channel := some "*" }, inbox := true, wake := true, muted := false, since := 0 }

/-- An agent that follows every channel. -/
def following : Watchers :=
  { personal := (∅ : Map Watcher).insert "agent:desk:one"
      { preferences := { rules := (∅ : Map Follow).insert "all" everyChannel } } }

end

end ClaudeManager
