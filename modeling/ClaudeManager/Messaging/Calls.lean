import ClaudeManager.Messaging.Administration
import ClaudeManager.Messaging.Upload
import ClaudeManager.Messaging.Upkeep

/-!
# What the calls keep

Every call of a store goes beside the ledger, and commits events that this daemon composes, that
a retained message attests to, or that another daemon delivers. An invariant that such commits
keep therefore holds after every call, whether the call succeeds or fails.
-/

namespace ClaudeManager

open Json Containers Program

theorem lookup_filter_ne {members : List (String × Value)} {key k : String} (h : k ≠ key) :
    (members.filter (·.1 ≠ key)).lookup k = members.lookup k := by
  induction members with
  | nil => rfl
  | cons m rest ih =>
    obtain ⟨k', v⟩ := m
    by_cases hk : k' = key
    · rw [List.filter_cons_of_neg (by simp [hk]), ih, lookup_cons_eq, if_neg (hk ▸ h)]
    · rw [List.filter_cons_of_pos (by simp [hk]), lookup_cons_eq, lookup_cons_eq, ih]

theorem get?_erase {v : Value} {key k : String} (h : k ≠ key) :
    (v.erase key).get? k = v.get? k := by
  cases v with
  | obj members => exact lookup_filter_ne h
  | _ => rfl

section

variable [Externals] {Fit : Store → Value → Prop} {I : Store → Prop} {s : Store}

/-! ## Names -/

theorem allocate_beside {actor raw uid : String} :
    Evolves Store.Beside (allocate actor raw uid) s := by
  unfold allocate
  exact .bind_query fun _ _ => .bind_query fun _ _ => .bind_get (.bind_check fun _ _ =>
    .bind uuid_beside fun _ _ _ => .pure)

section

variable (h : Upkeep Fit I) (huuid : MintsOnce)

include h huuid

theorem enrollParticipant_keeps {actor : String} :
    Evolves (Keeps (Held I)) (enrollParticipant actor) s := by
  unfold enrollParticipant
  refine .bind_get (.onlyIf fun _ => .bind_query fun _ _ => .bind (h.publish huuid fun _ => ?_)
    fun _ _ _ => .pure)
  exact .of_plain (by simp [systemDraft, idx_object, List.lookup])
    (by simp [systemDraft, idx_object, List.lookup])

theorem enrollParticipants_keeps {people : List Person} :
    Evolves (Keeps (Held I)) (enrollParticipants people) s := by
  unfold enrollParticipants
  exact .bind_get (.onlyIf fun _ => .forM (fun _ _ _ => enrollParticipant_keeps h huuid) _)

theorem rename_keeps {actor uid : String} {p : Value} :
    Evolves (Keeps (Held I)) (rename actor uid p) s := by
  unfold rename
  refine .bind_query fun request _ => ?_
  split
  · exact .pure
  · refine .bind_query fun _ _ => .bind_check fun _ _ => .bind (h.of_beside allocate_beside)
      fun n t _ => h.publish huuid fun _ => ?_
    exact .of_plain (by simp [idx_object, List.lookup]) (by simp [idx_object, List.lookup])

theorem releaseName_keeps {actor target key prior : String} :
    Evolves (Keeps (Held I)) (releaseName actor target key prior) s := by
  unfold releaseName
  refine .bind_get ?_
  split
  · exact .pure
  · refine .onlyIf fun _ => .bind_check fun _ _ => .bind (h.of_beside uuid_beside) fun _ _ _ =>
      .bind (h.publish huuid fun _ => ?_) fun _ _ _ => .pure
    exact .of_plain (by simp [systemDraft, idx_object, List.lookup])
      (by simp [systemDraft, idx_object, List.lookup])

theorem assignTaskName_keeps {actor uid name key : String} {release : List String} :
    Evolves (Keeps (Held I)) (assignTaskName actor uid name release key) s := by
  unfold assignTaskName
  refine .bind_get (.ite (fun _ => .pure) fun _ => ?_)
  split
  · exact .pure
  · refine .bind_query fun _ _ => .bind (.forM (fun _ _ _ => releaseName_keeps h huuid) _)
      fun _ _ _ => .bind (h.of_beside allocate_beside) fun _ _ _ =>
      .bind (h.publish huuid fun _ => ?_) fun _ _ _ => .pure
    exact .of_plain (by simp [systemDraft, idx_object, List.lookup])
      (by simp [systemDraft, idx_object, List.lookup])

theorem normalizeExistingNames_keeps : Evolves (Keeps (Held I)) normalizeExistingNames s := by
  unfold normalizeExistingNames
  refine .bind_get (.forM (fun entry _ s => ?_) _)
  obtain ⟨actor, old⟩ := entry
  unfold normalizeName
  refine .bind (h.of_beside allocate_beside) fun _ _ _ => .bind (h.publish huuid fun _ => ?_)
    fun _ _ _ => .pure
  exact .of_plain (by simp [systemDraft, idx_object, List.lookup])
    (by simp [systemDraft, idx_object, List.lookup])

end

theorem bindTaskSubscription_beside {next : TaskBinding} :
    Evolves Store.Beside (bindTaskSubscription next) s := by
  unfold bindTaskSubscription
  exact .bind_get (.bind_check fun _ _ => .bind_refuse fun _ => .bind_refuse fun _ =>
    .onlyIf fun _ => .bind_query fun _ _ => .bind_query fun _ _ =>
      .of_modify (.of_eq rfl rfl rfl rfl id))

omit [Externals] in
theorem fenceTaskSubscriptions_beside {active : StrSet} :
    Evolves Store.Beside (fenceTaskSubscriptions active) s :=
  .of_modify (.of_eq rfl rfl rfl rfl id)

/-! ## Messages -/

theorem resolve_beside {actor : String} {p : Value} {people : List Person} {createDm : Bool} :
    Evolves Store.Beside (resolve actor p people createDm) s := by
  unfold resolve
  refine .bind_query fun r _ => ?_
  split
  · exact .pure
  · exact .ite (fun _ => .bind uuid_beside fun _ _ _ => .pure) fun _ => .pure

theorem claimName_beside {actor uid : String} {p : Value} :
    Evolves Store.Beside (claimName actor uid p) s := by
  unfold claimName
  exact .bind_get (.ite (fun _ => .pure) fun _ => .bind_check fun _ _ => .bind allocate_beside
    fun _ _ _ => .pure)

theorem compose_keeps (h : Upkeep Fit I) (huuid : MintsOnce) {actor uid body : String} {p : Value}
    {people : List Person} : Evolves (Keeps (Held I)) (compose actor uid body p people) s := by
  unfold compose
  refine .bind (h.of_beside resolve_beside) fun r _ _ => ?_
  exact .bind_get (.bind (.onlyIf fun _ => .query) fun _ _ _ => .bind_check fun _ _ =>
    .bind (enrollParticipant_keeps h huuid) fun _ _ _ => .bind_query fun _ _ => .bind_get
      (.bind_check fun _ _ => .bind_check fun _ _ => .bind_refuse fun _ => .bind_check fun _ _ =>
        .bind (h.of_beside claimName_beside) fun _ _ _ => .bind_refuse fun _ => .pure))

/-- An object without channels that attests to nothing, or to an event under an identifier minted
since `n`. -/
structure Carrying (s t : Store) (data : Value) : Prop where
  isObj : data.isObj = true
  channels : data.get? "channels" = none
  attests : ∀ text, data["identity_attestation"].asStr = some text → ∃ m, s.minted ≤ m ∧ m < t.minted
    ∧ ∃ (s1 : Store) (name key time created : String) (claim : Value), s1.daemonId = s.daemonId
      ∧ text = Externals.compact (s1.eventOf (attestationDraft name claim key)
        (Externals.uuid s.daemonId m) time created)

theorem Carrying.set {t : Store} {data v : Value} {k : String} (h : Carrying s t data)
    (hchannels : "channels" ≠ k) (hattests : "identity_attestation" ≠ k) :
    Carrying s t (data.set k v) := by
  refine ⟨Value.isObj_set h.isObj, ?_, fun text htext => h.attests text ?_⟩
  · rw [Value.get?_set h.isObj, if_neg hchannels]
    exact h.channels
  · rw [Value.getElem_eq, Value.idx, Value.get?_set h.isObj, if_neg hattests] at htext
    rw [Value.getElem_eq, Value.idx]
    exact htext

theorem messageData_carrying {actor : String} {m : Message} {attribution : Option Value} :
    Carrying s s (s.messageData actor m attribution) := by
  unfold Store.messageData
  extract_lets seen data data'
  have hdata : Carrying s s data := by
    refine ⟨isObj_object, ?_, fun text htext => ?_⟩
    · simp [data, get?_object, List.lookup]
    · simp [data, idx_object, List.lookup] at htext
  have hdata' : Carrying s s data' := by
    cases attribution with
    | none => exact hdata
    | some claim => exact hdata.set (by decide) (by decide)
  cases m.create with
  | none => exact hdata'
  | some members => exact hdata'.set (by decide) (by decide)

theorem claimedData_carrying {actor name : String} {data data' : Value} {chosen : Option Name}
    {t : Store} (hdata : Carrying s s data) (h : claimedData actor name data chosen s = .ok data' t) :
    Store.Beside s t ∧ Carrying s t data' := by
  cases chosen with
  | none =>
    obtain ⟨rfl, rfl⟩ := pure_ok.mp h
    exact ⟨Std.Refl.refl (r := Store.Beside) s, hdata⟩
  | some n =>
    unfold claimedData at h
    simp only at h
    rw [bind_uuid_ok] at h
    obtain ⟨a, u, ha, h⟩ := bind_ok.mp h
    obtain ⟨rfl, rfl⟩ := pure_ok.mp h
    obtain ⟨hu, hminted, s1, time, created, hdaemon, rfl⟩ := event_ok_minted ha
    refine ⟨IsTrans.trans (r := Store.Beside) _ _ _ beside_mint hu,
      Value.isObj_set (Value.isObj_set hdata.isObj), ?_, fun text htext => ?_⟩
    · rw [Value.get?_set (Value.isObj_set hdata.isObj), if_neg (by decide),
        Value.get?_set hdata.isObj, if_neg (by decide)]
      exact hdata.channels
    · rw [Value.getElem_eq, Value.idx, Value.get?_set (Value.isObj_set hdata.isObj),
        if_pos rfl] at htext
      refine ⟨s.minted + 1, Nat.le_succ _, ?_, s1, _, _, time, created, _, hdaemon,
        (Option.some.inj htext).symm⟩
      rw [hminted]
      exact Nat.lt_succ_self _

/-- Dropping the evidence leaves the event's own fields. -/
theorem fitAttribution_get {attribution : Option Value} {e : Value} {k : String}
    (hobj : e.isObj = true) (hk : k ≠ "data") : (fitAttribution attribution e).get? k = e.get? k := by
  unfold fitAttribution
  split
  · rw [Value.get?_set hobj, if_neg hk]
  · rfl

/-- Dropping the evidence leaves the rest of the data. -/
theorem fitAttribution_data {attribution : Option Value} {e : Value} {k : String}
    (hobj : e.isObj = true) (hk : k ≠ "actor_attribution") :
    (fitAttribution attribution e)["data"].get? k = e["data"].get? k := by
  unfold fitAttribution
  split
  · have hdata : (e.set "data" (e["data"].erase "actor_attribution"))["data"]
        = e["data"].erase "actor_attribution" := by
      rw [Value.getElem_eq, Value.idx, Value.get?_set hobj, if_pos rfl]
      rfl
    rw [hdata]
    exact get?_erase hk
  · rfl

theorem claimedData_beside {actor name : String} {data : Value} {chosen : Option Name} :
    Evolves Store.Beside (claimedData actor name data chosen) s := by
  cases chosen with
  | none => exact .pure
  | some n => exact .bind uuid_beside fun _ _ _ => .bind event_beside fun _ _ _ => .pure

theorem messageEvent_beside {actor kind : String} {request : Request} {m : Message}
    {attribution : Option Value} :
    Evolves Store.Beside (messageEvent actor kind request m attribution) s := by
  unfold messageEvent
  exact .bind_get (.bind claimedData_beside fun _ _ _ => .bind event_beside fun _ _ _ => .pure)

/-- A message is a composed event. -/
theorem messageEvent_composed (huuid : MintsOnce)
    (hparse : ∀ v w, Externals.parse (Externals.compact v) = .ok w → w = v) (hs : Indexed s)
    (hfresh : Fresh s) {actor kind : String} {request : Request} {m : Message}
    {attribution : Option Value} {e : Value} {t : Store}
    (h : messageEvent actor kind request m attribution s = .ok e t) :
    Store.Beside s t ∧ Composed t e := by
  unfold messageEvent at h
  rw [bind_get_ok] at h
  obtain ⟨data, u, hdata, h⟩ := bind_ok.mp h
  obtain ⟨hu, hcarrying⟩ := claimedData_carrying messageData_carrying hdata
  obtain ⟨e', w, he, h⟩ := bind_ok.mp h
  obtain ⟨rfl, rfl⟩ := pure_ok.mp h
  obtain ⟨hw, hminted, s1, time, created, hdaemon, rfl⟩ := event_ok_minted he
  have ht := IsTrans.trans (r := Store.Beside) _ _ _ hu hw
  generalize hevent : fitAttribution attribution (s1.eventOf _ _ time created) = e
  have hmid : ∀ n, w.mintedId n = s.mintedId n := by
    intro n
    unfold Store.mintedId
    rw [ht.daemonId]
  have hid : strv e "id" = s.mintedId u.minted := by
    rw [← hevent]
    unfold strv
    rw [fitAttribution_get rfl (by decide)]
    show strv (s1.eventOf _ _ time created) "id" = _
    rw [eventOf_id, hdaemon, hu.daemonId]
    rfl
  have hfield : ∀ k, k ≠ "actor_attribution" → e["data"].get? k = data.get? k := by
    intro k hk
    rw [← hevent, fitAttribution_data rfl hk, eventOf_data]
  have hchannels : e["data"]["channels"].items = [] := by
    rw [Value.getElem_eq (e["data"]), Value.idx, hfield _ (by decide), hcarrying.channels]
    rfl
  have hattests : ∀ text b, attestationText e = some text → fromSlice text = .ok b →
      (∃ n, s.minted ≤ n ∧ n < u.minted ∧ strv b "id" = s.mintedId n) ∧ Attestation b := by
    intro text b htext hb
    have hdata : data["identity_attestation"].asStr = some text := by
      rw [← htext]
      unfold attestationText
      rw [Value.getElem_eq (e["data"]), Value.idx, hfield _ (by decide)]
      rfl
    obtain ⟨n, hn, hnu, s2, name, key, time', created', claim, hdaemon', rfl⟩ :=
      hcarrying.attests text hdata
    have hread : b = s2.eventOf (attestationDraft name claim key) (Externals.uuid s.daemonId n)
        time' created' := by
      unfold fromSlice at hb
      split at hb
      · rename_i v hv
        rw [← Except.ok.inj hb]
        exact hparse _ v hv
      · cases hb
    subst hread
    refine ⟨⟨n, hn, hnu, ?_⟩, ?_, ?_, ?_, ?_⟩
    · rw [eventOf_id, hdaemon']
      rfl
    · rw [eventOf_type]
      rfl
    · rw [eventOf_actor]
      simp [attestationDraft, systemDraft]
    · rw [eventOf_data]
      simp [attestationDraft, systemDraft, idx_object, List.lookup]
    · unfold attestationText
      rw [eventOf_data]
      simp [attestationDraft, systemDraft, idx_object, List.lookup]
  have hpast : ∀ b, (∃ n, n < w.minted ∧ strv b "id" = s.mintedId n) →
      b["data"]["channels"].items = [] → Past w b := by
    rintro b ⟨m, hm, hb⟩ hnone n hn
    rw [hb, hmid, hnone]
    refine ⟨fun he => ?_, fun item hitem => absurd hitem List.not_mem_nil⟩
    have := mintedId_inj huuid he
    omega
  refine ⟨ht, fun a ha => ?_, ?_, fun text b htext hb => (hattests text b htext hb).2, ?_⟩
  · cases ha with
    | self => exact hpast e ⟨u.minted, by omega, hid⟩ hchannels
    | attested htext hb hrest =>
      obtain ⟨⟨n, -, hn, hbid⟩, hattestation⟩ := hattests _ _ htext hb
      obtain rfl := hrest.of_none hattestation.text
      exact hpast a ⟨n, by omega, hbid⟩ hattestation.channels
  · rw [ht.hasEvent, hid]
    exact hfresh.hasEvent hs hu.minted
  · rw [hchannels]
    exact fun item hitem => absurd hitem List.not_mem_nil

/-! ## Attestations -/

/-- The events are ones that retained messages attest to. -/
def Retained (missing : List Value) (s : Store) : Prop :=
  ∀ e ∈ missing, ∃ p ∈ s.events, ∃ text, attestationText p.event = some text ∧ fromSlice text = .ok e

theorem repairAttestation_keeps (h : Upkeep Fit I) {missing : List Value} {e : Value}
    (he : e ∈ missing) :
    Evolves (Keeps fun s => Held I s ∧ Retained missing s) (repairAttestation e) s := by
  unfold repairAttestation
  refine .bind_get (.onlyIf fun hnew => .bind ?_ fun _ _ _ => .pure)
  unfold ClaudeManager.commit
  refine .bind_get fun ⟨hs, hmissing⟩ => ?_
  obtain ⟨p, hp, text, htext, hread⟩ := hmissing e he
  have hext := @commitBytes_extends _ s e (Externals.pretty e)
    (if s.isCoordinator then "coordinated" else "local") none _ rfl
  refine ⟨h.held_commit hs (h.attested hs.holds ⟨Bool.not_eq_true _ ▸ hnew, p, hp, text, htext, hread⟩)
    (fun a ha => hs.fresh p hp a (.attested htext hread ha)) _ _ _, fun e' he' => ?_⟩
  obtain ⟨q, hq, htext'⟩ := hmissing e' he'
  refine ⟨q, ?_, htext'⟩
  obtain ⟨hevents, -⟩ | ⟨r, -, -, -, -, hevents, -⟩ := hext.history
  · exact hevents ▸ hq
  · exact hevents ▸ List.mem_append_left _ hq

theorem repairAttestations_keeps (h : Upkeep Fit I) :
    Evolves (Keeps (Held I)) repairAttestations s := by
  unfold repairAttestations
  refine .bind_query fun missing hmissing hs => ?_
  have hretained : Retained missing s := by
    intro e he
    obtain ⟨text, htext, hread⟩ := mapM_mem hmissing e he
    obtain ⟨p, hp, hattested⟩ := List.mem_filterMap.mp htext
    exact ⟨p, hp, text, hattested, hread⟩
  have hloop : Evolves (Keeps fun s => Held I s ∧ Retained missing s)
      (missing.forM repairAttestation) s :=
    .forM (fun _ he _ => repairAttestation_keeps h he) s
  exact (hloop ⟨hs, hretained⟩).1

theorem sendWithAttribution_keeps (h : Upkeep Fit I) (huuid : MintsOnce)
    (hparse : ∀ v w, Externals.parse (Externals.compact v) = .ok w → w = v)
    {actor uid kind : String} {p : Value} {people : List Person} {attribution : Option Value} :
    Evolves (Keeps (Held I)) (sendWithAttribution actor uid kind p people attribution) s := by
  unfold sendWithAttribution
  refine .bind_query fun request _ => ?_
  split
  · exact .pure
  · refine .bind_get (.bind_refuse fun _ => .bind_check fun body _ => .bind
      (compose_keeps h huuid) fun m t _ => .assuming fun ht => ?_)
    refine .bind (h.of_beside ?_) fun e u he => .bind (h.commit_composed fun _ =>
      (messageEvent_composed huuid hparse ht.indexed ht.fresh he).2) fun _ _ _ =>
      .bind (.tryCatch (repairAttestations_keeps h) fun _ _ _ => .pure) fun _ _ _ => .pure
    exact messageEvent_beside

/-! ## Channels -/

omit [Externals] in
/-- Merging fields leaves a member that they lack. -/
theorem mergeFields_get {v fields : Value} {k : String} (hv : v.isObj = true)
    (hk : fields.get? k = none) :
    (mergeFields v fields).isObj = true ∧ (mergeFields v fields).get? k = v.get? k := by
  cases fields with
  | obj members =>
    have hlookup : members.lookup k = none := hk
    show (members.foldl (fun v m => v.set m.1 m.2) v).isObj = true
      ∧ (members.foldl (fun v m => v.set m.1 m.2) v).get? k = v.get? k
    clear hk
    induction members generalizing v with
    | nil => exact ⟨hv, rfl⟩
    | cons m rest ih =>
      obtain ⟨key, value⟩ := m
      rw [lookup_cons_eq] at hlookup
      by_cases hkey : k = key
      · rw [if_pos hkey] at hlookup
        cases hlookup
      · rw [if_neg hkey] at hlookup
        obtain ⟨hobj, hget⟩ := ih (Value.isObj_set hv) hlookup
        exact ⟨hobj, hget.trans (by rw [Value.get?_set hv, if_neg hkey])⟩
  | _ => exact ⟨hv, rfl⟩

/-- An object without the member `k`. -/
def Lacks (k : String) (v : Value) : Prop := v.isObj = true ∧ v.get? k = none

omit [Externals] in
theorem Lacks.set {k key : String} {v value : Value} (h : Lacks k v) (hk : k ≠ key) :
    Lacks k (v.set key value) :=
  ⟨Value.isObj_set h.1, by rw [Value.get?_set h.1, if_neg hk, h.2]⟩

omit [Externals] in
theorem Lacks.idx {k : String} {v : Value} (h : Lacks k v) : v[k] = .null := by
  rw [Value.getElem_eq, Value.idx, h.2]
  rfl

omit [Externals] in
theorem textField_lacks {p fields f : Value} {key k : String} {max : Nat} (hk : k ≠ key)
    (hfields : Lacks k fields) (h : textField p key max fields = .ok f) : Lacks k f := by
  unfold textField at h
  split at h
  · exact except_pure_ok.mp h ▸ hfields
  · obtain ⟨text, -, h⟩ := except_bind_ok.mp h
    obtain ⟨-, -, h⟩ := except_bind_ok.mp h
    exact except_pure_ok.mp h ▸ hfields.set hk

omit [Externals] in
theorem flagField_lacks {p fields f : Value} {key k : String} (hk : k ≠ key)
    (hfields : Lacks k fields) (h : flagField p key fields = .ok f) : Lacks k f := by
  unfold flagField at h
  split at h
  · exact except_pure_ok.mp h ▸ hfields
  · obtain ⟨-, -, h⟩ := except_bind_ok.mp h
    exact except_pure_ok.mp h ▸ hfields.set hk

omit [Externals] in
theorem adminsField_lacks {p fields f : Value} {creator k : String} {people : List Person}
    {existing : List Value} (hk : k ≠ "admins") (hfields : Lacks k fields)
    (h : s.adminsField p creator people existing fields = .ok f) : Lacks k f := by
  unfold Store.adminsField at h
  split at h
  · exact except_pure_ok.mp h ▸ hfields
  · obtain ⟨admins, -, h⟩ := except_bind_ok.mp h
    obtain ⟨-, -, h⟩ := except_bind_ok.mp h
    obtain ⟨ids, -, h⟩ := except_bind_ok.mp h
    exact except_pure_ok.mp h ▸ hfields.set hk

omit [Externals] in
/-- The settings of a channel name no ID. -/
theorem validateChannelFields_lacks {p f : Value} {creator : String} {people : List Person}
    {existing : List Value} (h : s.validateChannelFields p creator people existing = .ok f) :
    Lacks "id" f := by
  unfold Store.validateChannelFields at h
  obtain ⟨f1, h1, h⟩ := except_bind_ok.mp h
  obtain ⟨f2, h2, h⟩ := except_bind_ok.mp h
  obtain ⟨f3, h3, h⟩ := except_bind_ok.mp h
  obtain ⟨f4, h4, h⟩ := except_bind_ok.mp h
  obtain ⟨f5, h5, h⟩ := except_bind_ok.mp h
  have hempty : Lacks "id" (object []) := ⟨isObj_object, by simp [get?_object]⟩
  exact adminsField_lacks (by decide) (flagField_lacks (by decide) (flagField_lacks (by decide)
    (flagField_lacks (by decide) (textField_lacks (by decide) (textField_lacks (by decide) hempty h1)
      h2) h3) h4) h5) h

omit [Externals] in
/-- The entry of a new channel has the ID it is given. -/
theorem itemOf_id {actor path part id : String} {fields : Value} (h : Lacks "id" fields) :
    (itemOf actor path part id fields)["id"] = .str id := by
  unfold itemOf
  extract_lets item item'
  have hitem : item.isObj = true ∧ item.get? "id" = some (.str id) :=
    ⟨isObj_object, by simp [item, get?_object, List.lookup]⟩
  have hitem' : item'.isObj = true ∧ item'.get? "id" = some (.str id) := by
    by_cases hpart : part = path
    · have hmerged := mergeFields_get hitem.1 h.2
      simp only [item', if_pos hpart]
      exact ⟨hmerged.1, hmerged.2.trans hitem.2⟩
    · simp only [item', if_neg hpart]
      exact hitem
  split
  · rw [Value.getElem_eq, Value.idx, Value.get?_set hitem'.1, if_neg (by decide), hitem'.2]
    rfl
  · rw [Value.getElem_eq, Value.idx, hitem'.2]
    rfl

/-- Every entry of a creation has an identifier of its own. -/
theorem creationItems_minted {actor path : String} {fields : Value} (hfields : Lacks "id" fields) :
    ∀ {parts : List String} {s t : Store} {items : List Value},
      creationItems actor path fields parts s = .ok items t → Store.Beside s t ∧
        ∀ item ∈ items, ∃ n, s.minted ≤ n ∧ n < t.minted
          ∧ item["id"] = .str (Externals.uuid s.daemonId n)
  | [], s, t, items, h => by
    unfold creationItems at h
    obtain ⟨rfl, rfl⟩ := pure_ok.mp h
    exact ⟨Std.Refl.refl (r := Store.Beside) s, fun item hitem => by cases hitem⟩
  | part :: rest, s, t, items, h => by
    unfold creationItems at h
    rw [bind_get_ok] at h
    split at h
    · exact creationItems_minted hfields h
    · rw [bind_uuid_ok, bind_check_ok] at h
      obtain ⟨item, hitem, h⟩ := h
      obtain ⟨tail, u, htail, h⟩ := bind_ok.mp h
      obtain ⟨rfl, rfl⟩ := pure_ok.mp h
      obtain ⟨hu, hminted⟩ := creationItems_minted hfields htail
      refine ⟨IsTrans.trans (r := Store.Beside) _ _ _ beside_mint hu, fun i hi => ?_⟩
      rcases List.mem_cons.mp hi with rfl | hi
      · unfold creationItem at hitem
        obtain ⟨-, -, hitem⟩ := except_bind_ok.mp hitem
        refine ⟨s.minted, Nat.le_refl _, hu.minted, ?_⟩
        rw [← except_pure_ok.mp hitem]
        exact itemOf_id hfields
      · obtain ⟨n, hn, hlt, hid⟩ := hminted i hi
        exact ⟨n, (Nat.le_succ _).trans hn, hlt, hid⟩

theorem creationItems_beside {actor path : String} {fields : Value} :
    ∀ {parts : List String} {s : Store},
      Evolves Store.Beside (creationItems actor path fields parts) s
  | [], s => .pure
  | part :: rest, s => by
    unfold creationItems
    exact .bind_get (.ite (fun _ => creationItems_beside) fun _ => .bind uuid_beside fun _ _ _ =>
      .bind_check fun _ _ => .bind creationItems_beside fun _ _ _ => .pure)

/-- No retained event lists a channel under an identifier that was not minted yet. -/
theorem Fresh.unlisted (h : Fresh s) {n : Nat} (hn : s.minted ≤ n) :
    Unlisted s (.str (Externals.uuid s.daemonId n)) :=
  fun p hp item hitem => ((h p hp p.event .self) n hn).2 item hitem

/-- A draft that lists channels under identifiers minted since `s`. -/
theorem Draft.Sound.of_items {t : Store} (hs : Fresh s) (ht : Store.Beside s t) {d : Draft}
    (hplain : d.data["identity_attestation"].asStr = none) (htype : d.type = "channel.create")
    (hversion : d.data["membership_version"] = .num 1) (hactor : d.actor ≠ "")
    (hitems : ∀ item ∈ d.data["channels"].items, ∃ n, s.minted ≤ n ∧ n < t.minted
      ∧ item["id"] = .str (Externals.uuid s.daemonId n)) : d.Sound t := by
  refine ⟨hplain, fun item hitem => ?_⟩
  obtain ⟨n, hn, hlt, hid⟩ := hitems item hitem
  refine ⟨htype, hversion, hactor, fun p hp => ?_, n, hlt, ht.daemonId ▸ hid⟩
  rw [hid]
  exact hs.unlisted hn p (ht.events ▸ hp)

theorem createChannel_keeps (h : Upkeep Fit I) (huuid : MintsOnce) {actor : String} {p : Value}
    {people : List Person} (hactor : actor ≠ "") :
    Evolves (Keeps (Held I)) (createChannel actor p people) s := by
  unfold createChannel
  refine .bind_query fun request _ => ?_
  split
  · exact .pure
  · refine .bind_check fun path _ => .bind_check fun _ _ => .bind_get (.bind_refuse fun _ =>
      .bind_query fun fields hfields => .assuming fun hs => .bind (h.of_beside creationItems_beside)
        fun items t hitems => .bind_get (h.publish huuid fun _ => ?_))
    obtain ⟨ht, hminted⟩ := creationItems_minted (validateChannelFields_lacks hfields) hitems
    refine .of_items hs.fresh ht ?_ rfl ?_ hactor fun item hitem => hminted item ?_
    · simp [idx_object, List.lookup]
    · simp [idx_object]
    · simpa [idx_object, List.lookup] using hitem

theorem bootstrapChannel_keeps (h : Upkeep Fit I) (huuid : MintsOnce) {channel : String × String} :
    Evolves (Keeps (Held I)) (bootstrapChannel channel) s := by
  unfold bootstrapChannel
  refine .bind_get (.onlyIf fun _ => .assuming fun hs => .bind (h.of_beside uuid_beside)
    fun id t hid => .bind (h.publish huuid fun _ => ?_) fun _ _ _ => .pure)
  cases hid
  refine .of_items hs.fresh beside_mint ?_ rfl ?_ (by simp [systemDraft]) fun item hitem =>
    ⟨s.minted, Nat.le_refl _, Nat.lt_succ_self _, ?_⟩
  · simp [systemDraft, idx_object, List.lookup]
  · simp [systemDraft, idx_object, List.lookup]
  · have hone : item = object [("path", .str channel.1), ("id", .str (Externals.uuid s.daemonId s.minted)),
        ("description", .str channel.2), ("default_join", .bool true)] := by
      simpa [systemDraft, idx_object, List.lookup] using hitem
    rw [hone]
    simp [idx_object, List.lookup]

theorem selectChannel_beside {actor : String} {p : Value} {people : List Person} :
    Evolves Store.Beside (selectChannel actor p people) s := by
  unfold selectChannel
  exact .bind resolve_beside fun _ _ _ => .bind_get (.refl_of after_okOr)

section

variable (h : Upkeep Fit I) (huuid : MintsOnce)

include h huuid

theorem updateChannel_keeps {actor : String} {p : Value} {people : List Person} :
    Evolves (Keeps (Held I)) (updateChannel actor p people) s := by
  unfold updateChannel
  refine .bind_query fun request _ => ?_
  split
  · exact .pure
  · refine .bind (h.of_beside selectChannel_beside) fun channel t _ => .bind_get
      (.bind_query fun merged _ => ?_)
    split
    · exact .pure
    · refine .bind (h.of_beside uuid_beside) fun _ _ _ => .bind_get (.bind (h.publish huuid fun _ =>
        ?_) fun _ _ _ => .pure)
      exact .of_plain (by simp [idx_object, List.lookup]) (by simp [idx_object, List.lookup])

theorem changeMembership_keeps {actor : String} {p : Value} {people : List Person} :
    Evolves (Keeps (Held I)) (changeMembership actor p people) s := by
  unfold changeMembership
  refine .bind_query fun request _ => ?_
  split
  · exact .pure
  · refine .bind (h.of_beside selectChannel_beside) fun channel t _ => .bind_query fun member _ =>
      .bind_get (h.publish huuid fun _ => ?_)
    have hlacks : ∀ k, k ≠ "participant_id" → k ≠ "joined" → k ≠ "action" →
        ∀ {add joined : Bool}, Lacks k (if add then
          (object [("participant_id", .str member), ("joined", .bool joined)]).set "action" "add_member"
          else object [("participant_id", .str member), ("joined", .bool joined)]) := by
      intro k hparticipant hjoined haction add joined
      have hdata : Lacks k (object [("participant_id", .str member), ("joined", .bool joined)]) :=
        ⟨isObj_object, by simp [get?_object, List.lookup, beq_eq_false_iff_ne.mpr hparticipant,
          beq_eq_false_iff_ne.mpr hjoined]⟩
      split
      · exact hdata.set haction
      · exact hdata
    refine .of_plain ?_ ?_
    · rw [(hlacks "identity_attestation" (by decide) (by decide) (by decide)).idx]
      rfl
    · rw [(hlacks "channels" (by decide) (by decide) (by decide)).idx]
      rfl

theorem initializeMembership_keeps {channel : String × String} :
    Evolves (Keeps (Held I)) (initializeMembership channel) s := by
  unfold initializeMembership
  refine .bind_get (.onlyIf fun _ => .bind_query fun members _ => .bind (h.publish huuid fun _ => ?_)
    fun _ _ _ => .pure)
  exact .of_plain (by simp [systemDraft, idx_object, List.lookup])
    (by simp [systemDraft, idx_object, List.lookup])

theorem initializeMemberships_keeps : Evolves (Keeps (Held I)) initializeMemberships s := by
  unfold initializeMemberships
  exact .bind_get (.forM (fun _ _ _ => initializeMembership_keeps h huuid) _)

/-! ## Settings and notices -/

theorem pins_keeps {actor : String} {p : Value} {people : List Person} :
    Evolves (Keeps (Held I)) (pins actor p people) s := by
  unfold pins
  refine .bind_refuse fun _ => .bind_query fun request _ => ?_
  split
  · exact .pure
  · refine .bind (h.of_beside resolve_beside) fun _ _ _ => .bind_query fun _ _ => .bind_get
      (.bind_check fun _ _ => .ite (fun _ => .pure) fun _ => .bind_check fun _ _ =>
        .bind (h.publish huuid fun _ => ?_) fun _ _ _ => .pure)
    exact .of_plain (by simp [Store.pinDraft, idx_object, List.lookup])
      (by simp [Store.pinDraft, idx_object, List.lookup])

theorem changeNorms_keeps {actor kind name : String} {p : Value} :
    Evolves (Keeps (Held I)) (changeNorms actor kind name p) s := by
  unfold changeNorms
  refine .bind_check fun action _ => .bind_refuse fun _ => .bind_query fun request _ => ?_
  split
  · exact .pure
  · refine .bind_query fun _ _ => .bind_get (.bind_check fun _ _ => .bind_check fun _ _ =>
      .bind_check fun _ _ => .bind_refuse fun _ => .bind_query fun _ _ => .ite (fun _ => .pure)
        fun _ => .bind (h.of_beside uuid_beside) fun _ _ _ => .bind (h.publish huuid fun _ => ?_)
          fun _ _ _ => .pure)
    exact .of_plain (by simp [Store.normsDraft, idx_object, List.lookup])
      (by simp [Store.normsDraft, idx_object, List.lookup])

theorem setAvailability_keeps {actor : String} {p : Value} :
    Evolves (Keeps (Held I)) (setAvailability actor p) s := by
  unfold setAvailability
  refine .bind_refuse fun _ => .bind_query fun request _ => ?_
  split
  · exact .pure
  · refine .bind_check fun _ _ => .bind_refuse fun _ => .bind_refuse fun _ => .bind_refuse fun _ =>
      .bind_get (h.publish huuid fun _ => ?_)
    exact .of_plain (by simp [idx_object, List.lookup]) (by simp [idx_object, List.lookup])

theorem publishMaintenance_keeps {notice : MaintenanceNotice} :
    Evolves (Keeps (Held I)) (publishMaintenance notice) s := by
  unfold publishMaintenance
  refine .bind_get (.ite (fun _ => .pure) fun _ => .bind (.onlyIf fun _ =>
    .bind (h.publish huuid fun _ => ?_) fun _ _ _ => .pure) fun _ _ _ => .pure)
  exact .of_plain
    (by simp [MaintenanceNotice.draft, MaintenanceNotice.encode, systemDraft, idx_object, List.lookup])
    (by simp [MaintenanceNotice.draft, MaintenanceNotice.encode, systemDraft, idx_object, List.lookup])

theorem postSystemNotice_keeps {channelId body key : String} :
    Evolves (Keeps (Held I)) (postSystemNotice channelId body key) s := by
  unfold postSystemNotice
  refine .bind_get (.bind_refuse fun _ => ?_)
  split
  · exact .pure
  · refine h.publish huuid fun _ => ?_
    exact .of_plain (by simp [noticeDraft, systemDraft, idx_object, List.lookup])
      (by simp [noticeDraft, systemDraft, idx_object, List.lookup])

theorem registerHost_keeps {host : String} {active ownerAccess : Bool} {people : List Person} :
    Evolves (Keeps (Held I)) (registerHost host active ownerAccess people) s := by
  unfold registerHost
  refine .bind_query fun _ _ => .bind_check fun _ _ => .bind_refuse fun _ =>
    .bind (h.of_beside ?_) fun revision t _ => .bind_get (.bind (.onlyIf fun _ =>
      .bind (h.of_beside uuid_beside) fun _ _ _ => .bind (h.publish huuid fun _ => ?_)
        fun _ _ _ => .pure) fun _ _ _ => .bind (.onlyIf fun _ => enrollParticipants_keeps h huuid)
          fun _ _ _ => .pure)
  · unfold hostRevisionOrNew
    refine .bind_get ?_
    split
    · exact .pure
    · exact uuid_beside
  · exact .of_plain (by simp [hostData, systemDraft, idx_object, List.lookup])
      (by simp [hostData, systemDraft, idx_object, List.lookup])

theorem bootstrapNorms_keeps {norms : String} :
    Evolves (Keeps (Held I)) (bootstrapNorms norms) s := by
  unfold bootstrapNorms
  refine .bind_get (.onlyIf fun _ => .bind (h.of_beside uuid_beside) fun _ _ _ =>
    .bind (h.publish huuid fun _ => ?_) fun _ _ _ => .pure)
  exact .of_plain (by simp [systemDraft, idx_object, List.lookup])
    (by simp [systemDraft, idx_object, List.lookup])

end

end

end ClaudeManager
