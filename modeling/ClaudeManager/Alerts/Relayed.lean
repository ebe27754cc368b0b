import Mathlib
import ClaudeManager.Program.Runs
import ClaudeManager.Alerts.Sources

/-!
# Hosts and the hub

* `Net`, `Event` — hosts, the hub, and what is on its way between them
* `Followed` — what the hub has of a host is a snapshot of it, and its marks are of that snapshot
* `Event.Timely` — no snapshot of an earlier generation comes late
* `Net.Trusted` — what timely events preserve
-/

namespace Alerts

open Containers Program

/-! ## Events -/

structure Net where
  sources : String → Source
  hub : Hub
  /-- The batches of Seen marks that were sent to hosts. -/
  batches : List (String × List (String × Nat))
  /-- What was marked Seen at the hub, by host. -/
  seen : String → List (String × Nat)
  /-- What the hub announced, by host. -/
  announced : String → List (String × Nat)

/-- Snapshots and batches that were sent may come late, again, or never. -/
inductive Event where
  | notify (host key : String) (a : Alert)
  | escalate (host key : String) (a : Alert)
  | withdraw (host key : String) (id : Nat)
  | update (host key : String) (id : Nat) (message : String)
  /-- Owner acknowledges at the host itself. -/
  | acknowledge (host : String) (ids : List (String × Nat))
  | take (host hostLabel : String)
  | remint (host : String) (expected : Nat)
  | deliver (host : String) (x : Snapshot) (now : Int)
  | seen (host key : String) (id : Nat)
  | send (host : String)
  | apply (host : String) (ids : List (String × Nat))

namespace Net

variable (fits : Snapshot → Bool) (f : Net)

def updateSource (host : String) (g : Source → Source) : Net :=
  { f with sources := Function.update f.sources host (g (f.sources host)) }

def deliver (host : String) (x : Snapshot) (now : Int) : Net :=
  match f.hub.ingest fits host x now with
  | .error _ => f
  | .ok (hub, added) =>
    { f with
      hub := hub
      announced := Function.update f.announced host
        (f.announced host ++ added.map fun e => (e.1, e.2.id)) }

def markSeen (host key : String) (id : Nat) : Net :=
  match f.hub.seen host key id with
  | (_, false) => f
  | (hub, true) =>
    { f with hub := hub, seen := Function.update f.seen host (f.seen host ++ [(key, id)]) }

def step : Event → Net
  | .notify host key a => f.updateSource host fun s => s.notify key a
  | .escalate host key a => f.updateSource host fun s => s.escalate key a
  | .withdraw host key id => f.updateSource host fun s => s.withdraw key id
  | .update host key id message => f.updateSource host fun s => s.update key id message
  | .acknowledge host ids => f.updateSource host fun s => s.acknowledge ids
  | .take host hostLabel => f.updateSource host fun s => s.take fits hostLabel
  | .remint host expected => f.updateSource host fun s => s.remint expected
  | .deliver host x now => if x ∈ (f.sources host).taken then f.deliver fits host x now else f
  | .seen host key id => f.markSeen host key id
  | .send host => { f with batches := f.batches ++ [(host, f.hub.marks host)] }
  | .apply host ids =>
    if (host, ids) ∈ f.batches then f.updateSource host fun s => s.acknowledge ids else f

/-- Nothing has been raised yet. -/
def start : Net := ⟨fun _ => ⟨∅, 0, none, 0, []⟩, ⟨∅⟩, [], fun _ => [], fun _ => []⟩

end Net

/-! ## The hub and one host -/

variable {fits : Snapshot → Bool} {s s' : Source} {r : Remote} {x : Snapshot}
  {marks told : List (String × Nat)}

theorem keep_spec {pending : Map Nat} {key : String} {id : Nat} :
    (Hub.keep pending x)[key]? = some id ↔ pending[key]? = some id ∧ (key, id) ∈ has x.alerts := by
  unfold Hub.keep has
  rw [Std.ExtTreeMap.getElem?_filter']
  simp [Option.filter_eq_some_iff, Option.any_eq_true]

theorem mem_news {old : Option Remote} {pending : Map Nat} {now : Int} {e : String × Alert}
    (he : e ∈ Hub.news old pending x now) : (e.1, e.2.id) ∈ has x.alerts ∧
      ∀ r, old = some r → (e.1, e.2.id) ∉ has r.snapshot.alerts := by
  obtain ⟨hmem, hc⟩ := List.mem_filter.mp he
  refine ⟨⟨e.2, mem_toList_map.mp hmem, rfl⟩, ?_⟩
  rintro r rfl ⟨prev, hprev, hid⟩
  have hnew := (Bool.and_eq_true _ _ ▸ hc).2
  rw [Option.all_some, hprev, Option.all_some, decide_eq_true_eq] at hnew
  exact hnew hid

theorem nodup_news {old : Option Remote} {pending : Map Nat} {now : Int} :
    ((Hub.news old pending x now).map fun e => (e.1, e.2.id)).Nodup := by
  have hkeys : ((Hub.news old pending x now).map Prod.fst).Nodup := nodup_filter_keys
  refine List.Nodup.of_map Prod.fst ?_
  rw [List.map_map]
  exact hkeys

/-- What the hub has of a host: a snapshot that was taken, marks of what it has, and the past. -/
structure Followed (s : Source) (r : Remote) (marks told : List (String × Nat)) : Prop where
  taken : r.snapshot ∈ s.taken
  pending : ∀ key id, r.pending[key]? = some id →
    (key, id) ∈ has r.snapshot.alerts ∧ (key, id) ∈ marks
  /-- What was marked is hidden, or gone from the host. -/
  seen : ∀ z ∈ marks, r.pending[z.1]? = some z.2 ∨
    z ∉ has r.snapshot.alerts ∧ ∃ y ∈ s.taken, y.Before r.snapshot ∧ z ∈ has y.alerts
  told : ∀ z ∈ told, ∃ y ∈ s.taken, (y = r.snapshot ∨ y.Before r.snapshot) ∧ z ∈ has y.alerts

namespace Followed

theorem mono (h : Followed s r marks told) (hs : ∀ y ∈ s.taken, y ∈ s'.taken) :
    Followed s' r marks told := by
  refine ⟨hs _ h.taken, h.pending, fun z hz => ?_, fun z hz => ?_⟩
  · rcases h.seen z hz with hpending | ⟨hgone, y, hy, hbefore, hhas⟩
    · exact .inl hpending
    · exact .inr ⟨hgone, y, hs y hy, hbefore, hhas⟩
  · obtain ⟨y, hy, hle, hhas⟩ := h.told z hz
    exact ⟨y, hs y hy, hle, hhas⟩

theorem first {now : Int} (hx : x ∈ s.taken) : Followed s ⟨x, Hub.keep ∅ x⟩ []
    ((Hub.news none (Hub.keep ∅ x) x now).map fun e => (e.1, e.2.id)) := by
  refine ⟨hx, fun key id hp => ?_, fun z hz => ?_, fun z hz => ?_⟩
  · rw [keep_spec] at hp
    simp at hp
  · cases hz
  · obtain ⟨e, he, rfl⟩ := List.mem_map.mp hz
    exact ⟨x, hx, .inl rfl, (mem_news he).1⟩

/-- A later snapshot is accepted: marks of what is gone are dropped, and what is announced is new. -/
theorem accept (h : Followed s r marks told) (hs : s.Ordered) (hx : x ∈ s.taken)
    (hb : r.snapshot.Before x) {now : Int} {added : List (String × Nat)}
    (hadded : added = (Hub.news (some r) (Hub.keep r.pending x) x now).map fun e => (e.1, e.2.id)) :
    Followed s ⟨x, Hub.keep r.pending x⟩ marks (told ++ added) ∧ ∀ z ∈ told, z ∉ added := by
  have hnew : ∀ z ∈ added, z ∈ has x.alerts ∧ z ∉ has r.snapshot.alerts := by
    intro z hz
    rw [hadded] at hz
    obtain ⟨e, he, rfl⟩ := List.mem_map.mp hz
    exact ⟨(mem_news he).1, (mem_news he).2 r rfl⟩
  refine ⟨⟨hx, fun key id hp => ?_, fun z hz => ?_, fun z hz => ?_⟩, fun z hz hz' => ?_⟩
  · obtain ⟨hp, hhas⟩ := keep_spec.mp hp
    exact ⟨hhas, (h.pending key id hp).2⟩
  · rcases h.seen z hz with hpending | ⟨hgone, y, hy, hbefore, hhas⟩
    · by_cases hhas : z ∈ has x.alerts
      · exact .inl (keep_spec.mpr ⟨hpending, hhas⟩)
      · exact .inr ⟨hhas, r.snapshot, h.taken, hb, (h.pending z.1 z.2 hpending).1⟩
    · exact .inr ⟨(hs.gone y hy r.snapshot h.taken hbefore z hhas hgone).2 x hx hb, y, hy,
        hbefore.trans hb, hhas⟩
  · rcases List.mem_append.mp hz with hz | hz
    · obtain ⟨y, hy, hle, hhas⟩ := h.told z hz
      refine ⟨y, hy, .inr ?_, hhas⟩
      rcases hle with rfl | hlt
      · exact hb
      · exact hlt.trans hb
    · exact ⟨x, hx, .inl rfl, (hnew z hz).1⟩
  · -- what was announced, and is gone from the last snapshot, does not return
    obtain ⟨y, hy, hle, hhas⟩ := h.told z hz
    obtain ⟨hin, hout⟩ := hnew z hz'
    rcases hle with rfl | hlt
    · exact hout hhas
    · exact (hs.gone y hy r.snapshot h.taken hlt z hhas hout).2 x hx hb hin

theorem mark (h : Followed s r marks told) {key : String} {id : Nat}
    (hhas : (key, id) ∈ has r.snapshot.alerts) :
    Followed s { r with pending := r.pending.insert key id } (marks ++ [(key, id)]) told := by
  refine ⟨h.taken, fun k i hp => ?_, fun z hz => ?_, h.told⟩
  · rw [getElem?_insert_map] at hp
    by_cases hk : k = key
    · rw [if_pos hk] at hp
      rw [hk, ← Option.some.inj hp]
      exact ⟨hhas, List.mem_append_right _ (List.mem_singleton.mpr rfl)⟩
    · rw [if_neg hk] at hp
      obtain ⟨hold, hmark⟩ := h.pending k i hp
      exact ⟨hold, List.mem_append_left _ hmark⟩
  · have hinsert : ∀ k : String, (r.pending.insert key id)[k]? =
        if k = key then some id else r.pending[k]? := fun _ => getElem?_insert_map
    rcases List.mem_append.mp hz with hz | hz
    · rcases h.seen z hz with hpending | hgone
      · by_cases hk : z.1 = key
        · -- the snapshot has one alert under the key
          obtain ⟨⟨a, ha, hida⟩, -⟩ := h.pending z.1 z.2 hpending
          obtain ⟨b, hb, hidb⟩ := hhas
          have ha' : r.snapshot.alerts[key]? = some a := hk ▸ ha
          have hb' : r.snapshot.alerts[key]? = some b := hb
          have hab : a = b := Option.some.inj (ha'.symm.trans hb')
          left
          rw [hinsert, if_pos hk, ← hida, hab]
          exact congrArg some hidb.symm
        · left
          rw [hinsert, if_neg hk]
          exact hpending
      · exact .inr hgone
    · rw [List.mem_singleton.mp hz]
      left
      rw [hinsert, if_pos rfl]

end Followed

/-! ## All hosts -/

namespace Net

variable {f : Net} {host : String}

/-- What holds after every run of timely events. -/
structure Trusted (f : Net) : Prop where
  sources : ∀ host, (f.sources host).Ordered
  known : ∀ host r, f.hub.origins[host]? = some r →
    Followed (f.sources host) r (f.seen host) (f.announced host)
  unknown : ∀ host, f.hub.origins[host]? = none → f.seen host = [] ∧ f.announced host = []
  once : ∀ host, (f.announced host).Nodup
  batches : ∀ b ∈ f.batches, ∀ z ∈ b.2, z ∈ f.seen b.1

theorem trusted_start : Trusted start := by
  refine ⟨fun host => ⟨.nil, fun x hx => ?_, fun y hy => ?_, fun x hx => ?_, fun y hy => ?_, .nil⟩,
    fun host r hr => ?_, fun host _ => ⟨rfl, rfl⟩, fun host => List.nodup_nil, fun b hb => ?_⟩
  · cases hx
  · cases hy
  · obtain ⟨a, ha, -⟩ := hx
    simp [start] at ha
  · cases hy
  · simp [start] at hr
  · cases hb

theorem Trusted.updateSource (h : f.Trusted) {g : Source → Source}
    (hordered : (g (f.sources host)).Ordered)
    (hmono : ∀ y ∈ (f.sources host).taken, y ∈ (g (f.sources host)).taken) :
    (f.updateSource host g).Trusted := by
  have hsource : ∀ o, (f.updateSource host g).sources o =
      if o = host then g (f.sources host) else f.sources o := by
    intro o
    by_cases ho : o = host
    · subst ho
      rw [if_pos rfl]
      exact Function.update_self ..
    · rw [if_neg ho]
      exact Function.update_of_ne ho ..
  refine ⟨fun o => ?_, fun o r hr => ?_, h.unknown, h.once, h.batches⟩
  · rw [hsource]
    split
    · exact hordered
    · exact h.sources o
  · have hfollowed := h.known o r hr
    rw [hsource]
    split
    · rename_i ho
      subst ho
      exact hfollowed.mono hmono
    · exact hfollowed

theorem Trusted.change (h : f.Trusted) {g : Source → Source}
    (hc : Changes (f.sources host) (g (f.sources host))) : (f.updateSource host g).Trusted :=
  h.updateSource ((h.sources host).change hc) fun _ hy => hc.taken ▸ hy

theorem mem_record {y z : Snapshot} (hy : y ∈ s.taken) : y ∈ (s.record z).taken := by
  unfold Source.record
  simp only
  split
  · exact hy
  · exact List.mem_append_left _ hy

theorem mem_take {y : Snapshot} {hostLabel : String} (hy : y ∈ s.taken) :
    y ∈ (s.take fits hostLabel).taken := by
  have hstore : ∀ z n, y ∈ (s.store fits z n).taken := by
    intro z n
    unfold Source.store
    split
    · exact mem_record hy
    · exact hy
  unfold Source.take
  split
  · exact hstore _ _
  · split
    · exact mem_record hy
    · split
      · exact hstore _ _
      · exact hy

theorem taken_remint {expected : Nat} : (s.remint expected).taken = s.taken := by
  unfold Source.remint
  split
  · rfl
  · split <;> rfl

/-- A snapshot is accepted, or is the last one again. -/
theorem ingest_ok {hub hub' : Hub} {now : Int} {added : List (String × Alert)}
    (h : hub.ingest fits host x now = .ok (hub', added)) :
    (hub' = hub ∧ added = []) ∨ ((hub', added) = hub.accept host x now ∧
      ∀ r, hub.origins[host]? = some r →
        r.snapshot.generation ≠ x.generation ∨ r.snapshot.revision < x.revision) := by
  unfold Hub.ingest at h
  split at h
  · cases h
  · cases hr : hub.origins[host]? with
    | none =>
      simp only [hr] at h
      split at h
      · cases h
      · exact .inr ⟨(Except.ok.inj h).symm, fun r hr' => by cases hr'⟩
    | some r =>
      simp only [hr] at h
      split at h
      · rename_i hgen
        split at h
        · cases h
        · rename_i hlow
          split at h
          · split at h
            · obtain ⟨rfl, rfl⟩ := Prod.mk.inj (Except.ok.inj h)
              exact .inl ⟨rfl, rfl⟩
            · cases h
          · rename_i hne
            refine .inr ⟨(Except.ok.inj h).symm, fun r' hr' => .inr ?_⟩
            rw [← Option.some.inj hr']
            omega
      · rename_i hgen
        refine .inr ⟨(Except.ok.inj h).symm, fun r' hr' => .inl ?_⟩
        rw [← Option.some.inj hr']
        exact hgen

/-- What is accepted follows the host, and what is announced is announced once. -/
theorem Trusted.accept (h : f.Trusted) (now : Int) (hx : x ∈ (f.sources host).taken)
    (hb : ∀ r, f.hub.origins[host]? = some r → r.snapshot.Before x) {pending : Map Nat}
    (hp : pending = Hub.keep (((f.hub.origins[host]?).map Remote.pending).getD ∅) x)
    {added : List (String × Nat)} (hadded : added =
      (Hub.news f.hub.origins[host]? pending x now).map fun e => (e.1, e.2.id)) :
    Followed (f.sources host) ⟨x, pending⟩ (f.seen host) (f.announced host ++ added) ∧
      (f.announced host ++ added).Nodup := by
  rw [hadded, hp]
  cases hold : f.hub.origins[host]? with
  | none =>
    obtain ⟨hseen, htold⟩ := h.unknown host hold
    rw [hseen, htold, List.nil_append]
    exact ⟨.first hx, nodup_news⟩
  | some old =>
    obtain ⟨hfollowed, hnew⟩ := (h.known host old hold).accept (h.sources host) hx (hb old hold) rfl
    refine ⟨hfollowed, List.nodup_append.mpr ⟨h.once host, nodup_news, ?_⟩⟩
    rintro z hz w hw rfl
    exact hnew z hz hw

theorem Trusted.deliver (h : f.Trusted) {now : Int} (hx : x ∈ (f.sources host).taken)
    (ht : ∀ r, f.hub.origins[host]? = some r → r.snapshot.generation ≤ x.generation) :
    (f.deliver fits host x now).Trusted := by
  unfold Net.deliver
  cases hi : f.hub.ingest fits host x now with
  | error e => exact h
  | ok res =>
    obtain ⟨hub', added⟩ := res
    simp only
    rcases ingest_ok hi with ⟨rfl, rfl⟩ | ⟨haccept, hlater⟩
    · rw [List.map_nil, List.append_nil, Function.update_eq_self]
      exact h
    · have hb : ∀ r, f.hub.origins[host]? = some r → r.snapshot.Before x := by
        intro r hr
        have hle := ht r hr
        have hlater' := hlater r hr
        unfold Snapshot.Before
        omega
      obtain ⟨rfl, rfl⟩ := Prod.mk.inj haccept
      obtain ⟨hnext, honce⟩ := h.accept now hx hb rfl rfl
      refine ⟨h.sources, fun o r hr => ?_, fun o ho => ?_, fun o => ?_, h.batches⟩
      · by_cases he : o = host
        · subst he
          rw [getElem?_insert_map, if_pos rfl] at hr
          rw [← Option.some.inj hr]
          simp only [Function.update_self]
          exact hnext
        · rw [getElem?_insert_map, if_neg he] at hr
          simp only [Function.update_of_ne he]
          exact h.known o r hr
      · have hne : o ≠ host := by
          rintro rfl
          rw [getElem?_insert_map, if_pos rfl] at ho
          cases ho
        rw [getElem?_insert_map, if_neg hne] at ho
        simp only [Function.update_of_ne hne]
        exact h.unknown o ho
      · by_cases he : o = host
        · subst he
          simp only [Function.update_self]
          exact honce
        · simp only [Function.update_of_ne he]
          exact h.once o

theorem seen_ok {hub hub' : Hub} {key : String} {id : Nat} (h : hub.seen host key id = (hub', true)) :
    ∃ r, hub.origins[host]? = some r ∧ (key, id) ∈ has r.snapshot.alerts ∧
      hub'.origins = hub.origins.insert host { r with pending := r.pending.insert key id } := by
  unfold Hub.seen at h
  cases hr : hub.origins[host]? with
  | none =>
    simp only [hr] at h
    cases h
  | some r =>
    simp only [hr] at h
    split at h
    · rename_i hany
      obtain ⟨a, ha, hid⟩ := (Option.any_eq_true _ _).mp hany
      obtain ⟨rfl, -⟩ := Prod.mk.inj h
      exact ⟨r, rfl, ⟨a, ha, by simpa using hid⟩, rfl⟩
    · cases (Prod.mk.inj h).2

theorem Trusted.markSeen (h : f.Trusted) {key : String} {id : Nat} :
    (f.markSeen host key id).Trusted := by
  unfold Net.markSeen
  split
  · exact h
  · rename_i hub' hseen
    obtain ⟨r, hr, hhas, horigins⟩ := seen_ok hseen
    have hmore : ∀ o, ∀ z ∈ f.seen o,
        z ∈ Function.update f.seen host (f.seen host ++ [(key, id)]) o := by
      intro o z hz
      by_cases he : o = host
      · subst he
        rw [Function.update_self]
        exact List.mem_append_left _ hz
      · rw [Function.update_of_ne he]
        exact hz
    refine ⟨h.sources, fun o r' hr' => ?_, fun o ho => ?_, h.once, fun b hb z hz => ?_⟩
    · rw [horigins] at hr'
      by_cases he : o = host
      · subst he
        rw [getElem?_insert_map, if_pos rfl] at hr'
        rw [← Option.some.inj hr']
        simp only [Function.update_self]
        exact (h.known o r hr).mark hhas
      · rw [getElem?_insert_map, if_neg he] at hr'
        simp only [Function.update_of_ne he]
        exact h.known o r' hr'
    · rw [horigins] at ho
      have hne : o ≠ host := by
        rintro rfl
        rw [getElem?_insert_map, if_pos rfl] at ho
        cases ho
      rw [getElem?_insert_map, if_neg hne] at ho
      simp only [Function.update_of_ne hne]
      exact h.unknown o ho
    · exact hmore b.1 z (h.batches b hb z hz)

theorem Trusted.send (h : f.Trusted) : (f.step fits (.send host)).Trusted := by
  refine ⟨h.sources, h.known, h.unknown, h.once, fun b hb z hz => ?_⟩
  rcases List.mem_append.mp hb with hb | hb
  · exact h.batches b hb z hz
  · rw [List.mem_singleton.mp hb] at hz ⊢
    unfold Hub.marks at hz
    cases hr : f.hub.origins[host]? with
    | none =>
      rw [hr] at hz
      cases hz
    | some r =>
      rw [hr] at hz
      exact ((h.known host r hr).pending z.1 z.2 (mem_toList_map.mp hz)).2

end Net

/-- No snapshot of an earlier generation comes after one of a later generation was accepted. -/
def Event.Timely (f : Net) : Event → Prop
  | .deliver host x _ => x ∈ (f.sources host).taken →
      ∀ r, f.hub.origins[host]? = some r → r.snapshot.generation ≤ x.generation
  | _ => True

namespace Net

variable {f : Net} {host : String}

theorem Trusted.step (h : f.Trusted) {e : Event} (ht : e.Timely f) : (f.step fits e).Trusted := by
  cases e with
  | notify host key a => exact Trusted.change (g := fun s => s.notify key a) h .notify
  | escalate host key a => exact Trusted.change (g := fun s => s.escalate key a) h .deliver
  | withdraw host key id => exact Trusted.change (g := fun s => s.withdraw key id) h .withdraw
  | update host key id message =>
    exact Trusted.change (g := fun s => s.update key id message) h .update
  | acknowledge host ids =>
    exact Trusted.change (g := fun s => s.acknowledge ids) h (.acknowledge ids)
  | take host hostLabel =>
    exact Trusted.updateSource (g := fun s => s.take fits hostLabel) h
      ((h.sources host).take hostLabel) fun _ hy => mem_take hy
  | remint host expected =>
    refine Trusted.updateSource (g := fun s => s.remint expected) h
      ((h.sources host).remint expected) fun y hy => ?_
    rw [taken_remint]
    exact hy
  | deliver host x now =>
    unfold Net.step
    simp only
    split
    · rename_i hx
      exact h.deliver hx (ht hx)
    · exact h
  | seen host key id => exact h.markSeen
  | send host => exact h.send
  | apply host ids =>
    unfold Net.step
    simp only
    split
    · exact Trusted.change (g := fun s => s.acknowledge ids) h (.acknowledge ids)
    · exact h

end Net

end Alerts
