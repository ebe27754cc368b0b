import Mathlib
import ClaudeManager.Program.Runs
import ClaudeManager.Alerts.Relayed

/-!
# What the hub shows over runs

* `forward` — the hub only moves on to later snapshots
* `Cleared.step` — an alert that was acknowledged is gone for good
* `Relayed` — what the hub lists, hides, announces and clears
* `relayed_exactly` — runs of timely events; `relayed_stale` — a run with a late snapshot
-/

namespace Alerts

open Containers Program

variable {fits : Snapshot → Bool} {s : Source} {f : Net} {host : String} {e : Event} {x : Snapshot}

/-! ## The hosts in one step -/

theorem record_queue : (s.record x).alerts = s.alerts ∧ (s.record x).nextId = s.nextId := ⟨rfl, rfl⟩

theorem store_queue {n : Nat} :
    (s.store fits x n).alerts = s.alerts ∧ (s.store fits x n).nextId = s.nextId := by
  unfold Source.store
  split
  · exact record_queue
  · exact ⟨rfl, rfl⟩

/-- A snapshot leaves the queue as it is. -/
theorem take_queue {hostLabel : String} : (s.take fits hostLabel).alerts = s.alerts ∧
    (s.take fits hostLabel).nextId = s.nextId := by
  unfold Source.take
  split
  · exact store_queue
  · split
    · exact record_queue
    · split
      · exact store_queue
      · exact ⟨rfl, rfl⟩

theorem remint_queue {n : Nat} : (s.remint n).alerts = s.alerts ∧ (s.remint n).nextId = s.nextId := by
  unfold Source.remint
  split
  · exact ⟨rfl, rfl⟩
  · split <;> exact ⟨rfl, rfl⟩

namespace Net

theorem updateSource_spec (f : Net) (host o : String) (g : Source → Source) :
    (f.updateSource o g).sources host = if host = o then g (f.sources host) else f.sources host := by
  by_cases ho : host = o
  · subst ho
    rw [if_pos rfl]
    exact Function.update_self ..
  · rw [if_neg ho]
    exact Function.update_of_ne ho ..

/-- What a step does to a host. -/
theorem step_source (fits : Snapshot → Bool) (f : Net) (e : Event) (host : String) :
    Changes (f.sources host) ((f.step fits e).sources host) ∨
      (∃ l, (f.step fits e).sources host = (f.sources host).take fits l) ∨
      ∃ n, (f.step fits e).sources host = (f.sources host).remint n := by
  have hqueue : ∀ o (g : Source → Source), Changes (f.sources host) (g (f.sources host)) →
      Changes (f.sources host) ((f.updateSource o g).sources host) := by
    intro o g hg
    rw [updateSource_spec]
    split
    · exact hg
    · exact .refl
  cases e with
  | notify o key a => exact .inl (hqueue o (fun s => s.notify key a) .notify)
  | escalate o key a => exact .inl (hqueue o (fun s => s.escalate key a) .deliver)
  | withdraw o key id => exact .inl (hqueue o (fun s => s.withdraw key id) .withdraw)
  | update o key id message => exact .inl (hqueue o (fun s => s.update key id message) .update)
  | acknowledge o ids => exact .inl (hqueue o (fun s => s.acknowledge ids) (.acknowledge ids))
  | take o hostLabel =>
    have hspec := updateSource_spec f host o fun s => s.take fits hostLabel
    by_cases ho : host = o
    · rw [if_pos ho] at hspec
      exact .inr (.inl ⟨hostLabel, hspec⟩)
    · rw [if_neg ho] at hspec
      exact .inl (hspec ▸ .refl)
  | remint o expected =>
    have hspec := updateSource_spec f host o fun s => s.remint expected
    by_cases ho : host = o
    · rw [if_pos ho] at hspec
      exact .inr (.inr ⟨expected, hspec⟩)
    · rw [if_neg ho] at hspec
      exact .inl (hspec ▸ .refl)
  | deliver o y now =>
    left
    unfold step Net.deliver
    simp only
    split
    · split <;> exact .refl
    · exact .refl
  | seen o key id =>
    left
    unfold step Net.markSeen
    simp only
    split <;> exact .refl
  | send o => exact .inl .refl
  | apply o ids =>
    left
    unfold step
    simp only
    split
    · exact hqueue o (fun s => s.acknowledge ids) (.acknowledge ids)
    · exact .refl

theorem mem_taken_step {y : Snapshot} (hy : y ∈ (f.sources host).taken) :
    y ∈ ((f.step fits e).sources host).taken := by
  rcases step_source fits f e host with hc | ⟨l, hl⟩ | ⟨n, hn⟩
  · rw [hc.taken]
    exact hy
  · rw [hl]
    exact mem_take hy
  · rw [hn, taken_remint]
    exact hy

/-- The host has no alert with the key and the id, and ids have passed it. -/
def Cleared (f : Net) (host : String) (z : String × Nat) : Prop :=
  z ∉ has (f.sources host).alerts ∧ z.2 < (f.sources host).nextId

/-- Ids are not drawn twice. -/
theorem Cleared.step {z : String × Nat} (h : f.Cleared host z) : (f.step fits e).Cleared host z := by
  rcases step_source fits f e host with hc | ⟨l, hl⟩ | ⟨n, hn⟩
  · refine ⟨fun hmem => ?_, h.2.trans_le hc.next⟩
    rcases hc.has z hmem with hold | ⟨hlow, -⟩
    · exact h.1 hold
    · exact absurd h.2 (Nat.not_lt.mpr hlow)
  · unfold Cleared
    rw [hl, take_queue.1, take_queue.2]
    exact h
  · unfold Cleared
    rw [hn, remint_queue.1, remint_queue.2]
    exact h

/-! ## The hub in one step -/

/-- The hub has the snapshot of the host, or one that was taken later. -/
def AtLeast (f : Net) (host : String) (x : Snapshot) : Prop :=
  ∃ r, f.hub.origins[host]? = some r ∧ (r.snapshot = x ∨ x.Before r.snapshot)

/-- The hub only moves on to later snapshots. -/
theorem forward (ht : e.Timely f) {r : Remote}
    (hr : f.hub.origins[host]? = some r) : (f.step fits e).AtLeast host r.snapshot := by
  cases e with
  | deliver o y now =>
    unfold Net.step
    simp only
    split
    · rename_i hy
      unfold Net.deliver
      cases hi : f.hub.ingest fits o y now with
      | error _ => exact ⟨r, hr, .inl rfl⟩
      | ok res =>
        obtain ⟨hub', added⟩ := res
        rcases ingest_ok hi with ⟨rfl, rfl⟩ | ⟨haccept, hlater⟩
        · exact ⟨r, hr, .inl rfl⟩
        · obtain ⟨rfl, rfl⟩ := Prod.mk.inj haccept
          by_cases ho : host = o
          · subst ho
            refine ⟨_, by rw [getElem?_insert_map, if_pos rfl], .inr ?_⟩
            have hle := ht hy r hr
            have hlater' := hlater r hr
            show r.snapshot.Before y
            unfold Snapshot.Before
            omega
          · refine ⟨r, ?_, .inl rfl⟩
            rw [getElem?_insert_map, if_neg ho]
            exact hr
    · exact ⟨r, hr, .inl rfl⟩
  | seen o key id =>
    unfold Net.step Net.markSeen
    simp only
    split
    · exact ⟨r, hr, .inl rfl⟩
    · rename_i hub' hseen
      obtain ⟨r', hr', -, horigins⟩ := seen_ok hseen
      by_cases ho : host = o
      · subst ho
        rw [hr] at hr'
        obtain rfl := Option.some.inj hr'
        refine ⟨{ r with pending := r.pending.insert key id }, ?_, .inl rfl⟩
        rw [horigins, getElem?_insert_map, if_pos rfl]
      · refine ⟨r, ?_, .inl rfl⟩
        rw [horigins, getElem?_insert_map, if_neg ho]
        exact hr
  | apply o ids =>
    unfold Net.step
    simp only
    split <;> exact ⟨r, hr, .inl rfl⟩
  | _ => exact ⟨r, hr, .inl rfl⟩

theorem AtLeast.step (h : f.AtLeast host x) (ht : e.Timely f) : (f.step fits e).AtLeast host x := by
  obtain ⟨r, hr, hx⟩ := h
  have hnext : (f.step fits e).AtLeast host r.snapshot := forward ht hr
  obtain ⟨r', hr', hr₂⟩ := hnext
  refine ⟨r', hr', ?_⟩
  rcases hx with rfl | hlt
  · exact hr₂
  · rcases hr₂ with heq | hlt'
    · exact .inr (heq ▸ hlt)
    · exact .inr (hlt.trans hlt')

/-- Snapshots with the same generation and revision are the same. -/
theorem Trusted.same (h : f.Trusted) {y : Snapshot} (hx : x ∈ (f.sources host).taken)
    (hy : y ∈ (f.sources host).taken) (hg : x.generation = y.generation)
    (hr : x.revision = y.revision) : x = y := by
  by_contra hne
  have hsorted : (f.sources host).taken.Pairwise fun a b => a.Before b ∨ b.Before a :=
    (h.sources host).sorted.imp fun hb => Or.inl hb
  have : Std.Symm fun a b : Snapshot => a.Before b ∨ b.Before a := ⟨fun _ _ => Or.symm⟩
  have hor := hsorted.forall hx hy hne
  unfold Snapshot.Before at hor
  omega

/-- A snapshot that is valid is accepted, or the hub has it, or a later one. -/
theorem Trusted.delivered (h : f.Trusted) {now : Int} (hx : x ∈ (f.sources host).taken)
    (hvalid : x.validate fits = true)
    (hroom : f.hub.origins[host]? = none → f.hub.origins.size < maxHosts) :
    (f.step fits (.deliver host x now)).AtLeast host x := by
  have hstep : f.step fits (.deliver host x now) = f.deliver fits host x now := by
    unfold Net.step
    simp only
    rw [if_pos hx]
  have haccept : ∀ g : Net, g.hub = (f.hub.accept host x now).1 → g.AtLeast host x := by
    intro g hg
    refine ⟨⟨x, Hub.keep (((f.hub.origins[host]?).map Remote.pending).getD ∅) x⟩, ?_, .inl rfl⟩
    rw [hg]
    unfold Hub.accept
    rw [getElem?_insert_map, if_pos rfl]
  rw [hstep]
  unfold Net.deliver Hub.ingest
  rw [if_neg (by rw [hvalid]; exact Bool.noConfusion)]
  cases hr : f.hub.origins[host]? with
  | none =>
    simp only
    rw [if_neg (Nat.not_le.mpr (hroom hr))]
    exact haccept _ rfl
  | some r =>
    have hr' : r.snapshot ∈ (f.sources host).taken := (h.known host r hr).taken
    simp only
    by_cases hg : r.snapshot.generation = x.generation
    · rw [if_pos hg]
      by_cases hlow : x.revision < r.snapshot.revision
      · rw [if_pos hlow]
        exact ⟨r, hr, .inr (.inr ⟨hg.symm, hlow⟩)⟩
      · rw [if_neg hlow]
        by_cases hsame : r.snapshot.revision = x.revision
        · have heq := h.same hr' hx hg hsame
          rw [if_pos hsame, if_pos heq]
          exact ⟨r, hr, .inl heq⟩
        · rw [if_neg hsame]
          exact haccept _ rfl
    · rw [if_neg hg]
      exact haccept _ rfl

end Net

/-! ## Runs -/

variable {events : List Event}

/-- What a run shows. -/
structure Relayed (fits : Snapshot → Bool) (events : List Event) : Prop where
  /-- A snapshot is replaced by one that the host took later. -/
  ordered : ∀ before e after, events = before ++ e :: after → ∀ host r r',
    (before.foldl (Net.step fits) .start).hub.origins[host]? = some r →
    ((before ++ [e]).foldl (Net.step fits) .start).hub.origins[host]? = some r' →
    r'.snapshot = r.snapshot ∨ [r.snapshot, r'.snapshot].Sublist
      (((before ++ [e]).foldl (Net.step fits) .start).sources host).taken
  /-- What was marked Seen is not listed. -/
  listed : ∀ host key a, (events.foldl (Net.step fits) .start).hub.Listed host key a →
    (key, a.id) ∉ (events.foldl (Net.step fits) .start).seen host
  /-- What is hidden, though the last snapshot has it, was marked Seen itself. -/
  hidden : ∀ host r key a, (events.foldl (Net.step fits) .start).hub.origins[host]? = some r →
    r.snapshot.alerts[key]? = some a →
    ¬ (events.foldl (Net.step fits) .start).hub.Listed host key a →
    (key, a.id) ∈ (events.foldl (Net.step fits) .start).seen host
  /-- An acknowledgement clears the alerts with its keys and ids, and no others. -/
  cleared : ∀ before e host ids after, events = before ++ e :: after →
    e = .acknowledge host ids ∨
      e = .apply host ids ∧ (host, ids) ∈ (before.foldl (Net.step fits) .start).batches →
    ∀ o key a, (((before ++ [e]).foldl (Net.step fits) .start).sources o).alerts[key]? = some a ↔
      ((before.foldl (Net.step fits) .start).sources o).alerts[key]? = some a ∧
        (o = host → (key, a.id) ∉ ids)
  /-- The hub acknowledges what was marked Seen. -/
  batches : ∀ host ids, (host, ids) ∈ (events.foldl (Net.step fits) .start).batches →
    ∀ z ∈ ids, z ∈ (events.foldl (Net.step fits) .start).seen host
  /-- Nothing is announced twice. -/
  announced : ∀ host, ((events.foldl (Net.step fits) .start).announced host).Nodup
  /-- The hub lists what a host has, once its last snapshot was delivered, and every mark. -/
  converged : ∀ before host x now after, events = before ++ .deliver host x now :: after →
    x ∈ ((before.foldl (Net.step fits) .start).sources host).taken → x.validate fits = true →
    ((before.foldl (Net.step fits) .start).hub.origins[host]? = none →
      (before.foldl (Net.step fits) .start).hub.origins.size < maxHosts) →
    ((events.foldl (Net.step fits) .start).sources host).snapshot = some x →
    x.alerts = ((events.foldl (Net.step fits) .start).sources host).capped →
    (∀ z ∈ (events.foldl (Net.step fits) .start).seen host, ∃ before ids after,
      events = before ++ .apply host ids :: after ∧
        (host, ids) ∈ (before.foldl (Net.step fits) .start).batches ∧ z ∈ ids) →
    ∀ key a, (events.foldl (Net.step fits) .start).hub.Listed host key a ↔
      ((events.foldl (Net.step fits) .start).sources host).capped[key]? = some a

theorem trusted_run (h : Meets (Net.step fits) (fun f e => e.Timely f) .start events) :
    (events.foldl (Net.step fits) .start).Trusted :=
  h.invariant (fun _ _ hf ht => hf.step ht) Net.trusted_start

/-- What timely events keep, once it holds, holds at the end of the run. -/
theorem from_split (h : Meets (Net.step fits) (fun f e => e.Timely f) .start events) {I : Net → Prop}
    (hstep : ∀ f e, I f → e.Timely f → I (f.step fits e)) {before after : List Event}
    (hsplit : events = before ++ e :: after)
    (hI : I ((before ++ [e]).foldl (Net.step fits) .start)) :
    I (events.foldl (Net.step fits) .start) := by
  have hsplit' : events = (before ++ [e]) ++ after := by
    rw [hsplit, List.append_assoc, List.singleton_append]
  rw [hsplit'] at h ⊢
  rw [List.foldl_append]
  exact h.of_append.2.invariant hstep hI

theorem foldl_snoc {before : List Event} : (before ++ [e]).foldl (Net.step fits) .start =
    (before.foldl (Net.step fits) .start).step fits e := by
  rw [List.foldl_append]
  rfl

theorem Net.Trusted.known_ids (h : f.Trusted) {z : String × Nat} (hz : z ∈ f.seen host) :
    z.2 < (f.sources host).nextId := by
  cases hr : f.hub.origins[host]? with
  | none =>
    rw [(h.unknown host hr).1] at hz
    cases hz
  | some r =>
    have hfollowed := h.known host r hr
    rcases hfollowed.seen z hz with hpending | ⟨-, y, hy, -, hhas⟩
    · exact (h.sources host).takenIds _ hfollowed.taken z (hfollowed.pending _ _ hpending).1
    · exact (h.sources host).takenIds y hy z hhas

/-- What a batch of marks has is cleared. -/
theorem Net.Trusted.applied (h : f.Trusted) {z : String × Nat} {ids : List (String × Nat)}
    (hids : (host, ids) ∈ f.batches) (hz : z ∈ ids) :
    (f.step fits (.apply host ids)).Cleared host z := by
  have hstep : (f.step fits (.apply host ids)).sources host = (f.sources host).acknowledge ids := by
    unfold Net.step
    simp only
    rw [if_pos hids, Net.updateSource_spec, if_pos rfl]
  unfold Net.Cleared
  rw [hstep]
  refine ⟨?_, (h.known_ids (h.batches _ hids z hz)).trans_le (Changes.acknowledge ids).next⟩
  rintro ⟨a, ha, hid⟩
  refine ((acknowledge_spec ids).mp ha).2 ?_
  rw [hid]
  exact hz

/-- An acknowledgement that comes to a host is one that Owner gave, or a batch of marks. -/
theorem step_clears {ids : List (String × Nat)}
    (he : e = .acknowledge host ids ∨ e = .apply host ids ∧ (host, ids) ∈ f.batches) :
    f.step fits e = f.updateSource host fun s => s.acknowledge ids := by
  rcases he with rfl | ⟨rfl, hids⟩
  · rfl
  · unfold Net.step
    simp only
    rw [if_pos hids]

/-- The latest snapshot is the last one that the hub moves on to. -/
theorem Net.Trusted.latest (h : f.Trusted) (hx : f.AtLeast host x)
    (hlast : (f.sources host).snapshot = some x) :
    ∃ r, f.hub.origins[host]? = some r ∧ r.snapshot = x := by
  obtain ⟨r, hr, hxr⟩ := hx
  refine ⟨r, hr, ?_⟩
  obtain ⟨y, hy, hry⟩ := (h.sources host).last _ (h.known host r hr).taken
  rw [hlast] at hy
  obtain rfl := Option.some.inj hy
  rcases hxr with heq | hlt
  · exact heq
  · rcases hry with heq | hgt
    · exact heq
    · exact absurd hgt (Snapshot.Before.asymm _ _ hlt)

/-- When the hub has what the host has, and the marks have come back, nothing is hidden. -/
theorem Net.Trusted.lists (h : f.Trusted) {r : Remote} (hr : f.hub.origins[host]? = some r)
    (hhas : r.snapshot.alerts = (f.sources host).capped)
    (hcleared : ∀ z ∈ f.seen host, f.Cleared host z) {key : String} {a : Alert} :
    f.hub.Listed host key a ↔ (f.sources host).capped[key]? = some a := by
  rw [← hhas]
  constructor
  · rintro ⟨r', hr', ha, -⟩
    rw [hr] at hr'
    obtain rfl := Option.some.inj hr'
    exact ha
  · intro ha
    refine ⟨r, hr, ha, fun hpending => ?_⟩
    refine (hcleared _ ((h.known host r hr).pending key a.id hpending).2).1 ?_
    rw [← has_capped, ← hhas]
    exact ⟨a, ha, rfl⟩

/-- While nothing but timely snapshots comes, the hub shows what hosts have. -/
theorem relayed_exactly (h : Meets (Net.step fits) (fun f e => e.Timely f) .start events) :
    Relayed fits events := by
  have htrusted := trusted_run h
  refine ⟨fun before e after hsplit host r r' hr hr' => ?_, ?_, fun host r key a hr ha hnot => ?_,
    fun before e host ids after _ he o key a => ?_, fun host ids hb => htrusted.batches _ hb,
    htrusted.once, fun before host x now after hsplit hx hvalid hroom hlast hcapped hacks key a => ?_⟩
  · rw [hsplit] at h
    obtain ⟨hbefore, ht, -⟩ := h.of_append
    have hf := trusted_run hbefore
    have hnext : ((before.foldl (Net.step fits) .start).step fits e).Trusted := hf.step ht
    have hforward : ((before.foldl (Net.step fits) .start).step fits e).AtLeast host r.snapshot :=
      Net.forward ht hr
    obtain ⟨r₂, hr₂, hle⟩ := hforward
    rw [foldl_snoc] at hr' ⊢
    rw [hr'] at hr₂
    obtain rfl := Option.some.inj hr₂
    refine hle.imp_right fun hlt => ?_
    exact sublist_of_pairwise Snapshot.Before.asymm (hnext.sources host).sorted
      (Net.mem_taken_step (hf.known host r hr).taken) (hnext.known host r' hr').taken hlt
  · rintro host key a ⟨r, hr, ha, hnot⟩ hseen
    rcases (htrusted.known host r hr).seen _ hseen with hpending | ⟨hgone, -⟩
    · exact hnot hpending
    · exact hgone ⟨a, ha, rfl⟩
  · by_contra hunseen
    refine hnot ⟨r, hr, ha, fun hpending => hunseen ?_⟩
    exact ((htrusted.known host r hr).pending key a.id hpending).2
  · have hstep : ∀ g : Net, (g.updateSource host fun s => s.acknowledge ids).sources o =
        if o = host then (g.sources o).acknowledge ids else g.sources o :=
      fun g => Net.updateSource_spec g o host _
    rw [foldl_snoc, step_clears he, hstep]
    by_cases ho : o = host
    · rw [if_pos ho, acknowledge_spec]
      exact and_congr_right fun _ => ⟨fun hn _ => hn, fun hn => hn ho⟩
    · rw [if_neg ho]
      exact ⟨fun ha => ⟨ha, fun he => absurd he ho⟩, And.left⟩
  · have hcopy := h
    rw [hsplit] at hcopy
    obtain ⟨hbefore, -, -⟩ := hcopy.of_append
    have hat : (events.foldl (Net.step fits) .start).AtLeast host x := by
      refine from_split (I := fun f => f.AtLeast host x) h (fun _ _ hI ht => hI.step ht) hsplit ?_
      rw [foldl_snoc]
      exact (trusted_run hbefore).delivered hx hvalid hroom
    have hcleared : ∀ z ∈ (events.foldl (Net.step fits) .start).seen host,
        (events.foldl (Net.step fits) .start).Cleared host z := by
      intro z hz
      obtain ⟨before, ids, after, hsplit', hids, hmem⟩ := hacks z hz
      have hcopy := h
      rw [hsplit'] at hcopy
      obtain ⟨hbefore', -, -⟩ := hcopy.of_append
      refine from_split (I := fun f => f.Cleared host z) h (fun _ _ hI _ => hI.step) hsplit' ?_
      rw [foldl_snoc]
      exact (trusted_run hbefore').applied hids hmem
    obtain ⟨r, hr, hrx⟩ := htrusted.latest hat hlast
    exact htrusted.lists hr (by rw [hrx, hcapped]) hcleared

instance : Decidable (e.Timely f) :=
  match e with
  | .deliver host x _ =>
    decidable_of_iff (x ∈ (f.sources host).taken →
      ∀ r ∈ f.hub.origins[host]?, r.snapshot.generation ≤ x.generation) Iff.rfl
  | .notify .. | .escalate .. | .withdraw .. | .update .. | .acknowledge .. | .take .. | .remint ..
  | .seen .. | .send .. | .apply .. => .isTrue trivial

/-- A question of a session. -/
def question : Alert := ⟨0, "s1", "worker", "Which branch?", none, some 100⟩

def asked (generation revision : Nat) : Snapshot :=
  ⟨generation, revision, "laptop", (∅ : Map Alert).insert "s1" question⟩

def answered : Snapshot := ⟨0, 2, "laptop", ∅⟩

/-- A question is seen at the hub, and cleared at the host. -/
theorem relayed_question : Relayed (fun _ => true)
    [.notify "laptop" "s1" question, .take "laptop" "laptop", .deliver "laptop" (asked 0 1) 100,
      .seen "laptop" "s1" 0, .send "laptop", .apply "laptop" [("s1", 0)], .take "laptop" "laptop",
      .deliver "laptop" answered 101, .deliver "laptop" (asked 0 1) 102] :=
  relayed_exactly ⟨trivial, trivial, by decide +kernel, trivial, trivial, trivial, trivial,
    by decide +kernel, by decide +kernel, trivial⟩

/-- The first snapshot comes again: it is refused, another generation starts, and it comes once more. -/
def stale : List Event :=
  [.notify "laptop" "s1" question, .take "laptop" "laptop", .deliver "laptop" (asked 0 1) 100,
    .seen "laptop" "s1" 0, .acknowledge "laptop" [("s1", 0)], .take "laptop" "laptop",
    .deliver "laptop" answered 101, .deliver "laptop" (asked 0 1) 102, .remint "laptop" 0,
    .take "laptop" "laptop", .deliver "laptop" ⟨1, 1, "laptop", ∅⟩ 103,
    .deliver "laptop" (asked 0 1) 104]

/-- The late snapshot brings the question back, which was marked Seen. -/
theorem relayed_stale : ¬ Relayed (fun _ => true) stale := by
  intro h
  have hseen : ("s1", 0) ∈ (stale.foldl (Net.step fun _ => true) .start).seen "laptop" := by
    decide +kernel
  have hany : ((stale.foldl (Net.step fun _ => true) .start).hub.origins["laptop"]?).any
      (fun r => r.snapshot.alerts["s1"]? = some question ∧ r.pending["s1"]? ≠ some 0) = true := by
    decide +kernel
  obtain ⟨r, hr, hlisted⟩ := (Option.any_eq_true _ _).mp hany
  rw [decide_eq_true_eq] at hlisted
  exact h.listed "laptop" "s1" question ⟨r, hr, hlisted⟩ hseen

end Alerts
