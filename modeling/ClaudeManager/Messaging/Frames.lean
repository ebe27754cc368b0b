import ClaudeManager.Messaging.Effects

/-!
# What the reducers leave alone

A reducer that fails may have written some of its fields, but nothing else. What it does
depends on the derived state and on the retained events only: not on the place of the event
in the journal, on the clock, or on the cursors of this daemon.
-/

namespace ClaudeManager

open Json Containers Program

namespace Store

/-- A store without what the reducers derive. -/
def sansDerived (s : Store) : Store :=
  { s with
    channels := .empty, memberships := ∅, membershipRevisions := ∅, enrolled := ∅
    conversations := ∅, requests := ∅, reads := ∅, norms := .null, ownerAvailability := .null
    channelNorms := ∅, names := ∅, enrollmentRevision := ""
    replication := { s.replication with hosts := ∅, people := ∅ }
    readModel :=
      { s.readModel with pendingLegacy := ∅, ownerRetained := ∅, reactions := ∅ } }

/-- A store without what the reducers derive, identities apart. -/
def sansReads (s : Store) : Store := { s.sansDerived with names := s.names }

/-- A store without what the reducers derive, identities and cursors apart. -/
def sansRest (s : Store) : Store := { s.sansReads with reads := s.reads }

/-- A store without these, channels and DMs apart. -/
def sansMinor (s : Store) : Store :=
  { s.sansRest with channels := s.channels, conversations := s.conversations }

theorem sansDerived_congr {s t : Store} (h : s.sansReads = t.sansReads) :
    s.sansDerived = t.sansDerived := by
  have hderived := congrArg sansDerived h
  exact hderived

theorem sansReads_congr {s t : Store} (h : s.sansRest = t.sansRest) :
    s.sansReads = t.sansReads := by
  have hreads := congrArg sansReads h
  exact hreads

theorem sansRest_congr {s t : Store} (h : s.sansMinor = t.sansMinor) :
    s.sansRest = t.sansRest := by
  have hrest := congrArg sansRest h
  exact hrest

theorem upsertReaction_frame {s : Store} {message emoji actor : String}
    {f : Reaction → Reaction} :
    Alike sansMinor s (s.upsertReaction message emoji actor f) := by
  unfold Alike sansMinor upsertReaction
  rfl

end Store

theorem reduceChannel_frame {item : Value} {s : Store} :
    Evolves (Alike Store.sansRest) (reduceChannel item) s := by
  unfold reduceChannel
  exact .bind_check fun _ _ => .bind_check fun _ _ => .bind_check fun _ _ => .of_modify rfl

theorem foundChannel_frame {e channel : Value} {s : Store} :
    Evolves (Alike Store.sansMinor) (foundChannel e channel) s := by
  unfold foundChannel
  exact .bind_check fun _ _ => .bind_modify rfl (.bind_check fun _ _ => .of_modify rfl)

theorem enrollInto_frame {e : Value} {actor id : String} {s : Store} :
    Evolves (Alike Store.sansMinor) (enrollInto e actor id) s := by
  unfold enrollInto
  exact .bind_get (.bind_okOr fun _ _ => .bind_modify rfl
    (.bind_check fun _ _ => .of_modify rfl))

theorem listPerson_frame {host : String} {active : Bool} {person : Person} {s : Store} :
    Evolves (Alike Store.sansMinor) (listPerson host active person) s := by
  unfold listPerson
  exact .bind_refuse fun _ => .of_modify rfl

theorem reduceReaction_frame {e : Value} {s : Store} :
    Evolves (Alike Store.sansMinor) (reduceReaction e) s := by
  unfold reduceReaction
  refine .ite (fun _ => ?_) fun _ => .pure
  exact .bind_query fun _ _ => .bind_check fun _ _ => .bind_check fun _ _ => .bind_check fun _ _ =>
    .bind_modify Store.upsertReaction_frame (.bind_get (.ite
      (fun _ => .bind_check fun _ _ => .of_modify Store.upsertReaction_frame) fun _ => .pure))

theorem reduceRequest_frame {e : Value} {s : Store} :
    Evolves (Alike Store.sansMinor) (reduceRequest e) s := by
  unfold reduceRequest
  exact .bind_check fun _ _ => .bind_get (.bind_modify rfl (.refl_of after_refuse))

theorem reduceNorms_frame {e : Value} {s : Store} :
    Evolves (Alike Store.sansMinor) (reduceNorms e) s := by
  unfold reduceNorms
  exact .ite (fun _ => .of_modify rfl) fun _ => .ite (fun _ => .bind_check fun _ _ =>
    .of_modify rfl) fun _ => .pure

theorem reduceOwnerAvailability_frame {e : Value} {s : Store} :
    Evolves (Alike Store.sansMinor) (reduceOwnerAvailability e) s := by
  unfold reduceOwnerAvailability
  exact .bind_check fun _ _ => .of_modify rfl

section

variable [Externals]

theorem reduceMembership_frame {e : Value} {s : Store} :
    Evolves (Alike Store.sansMinor) (reduceMembership e) s := by
  unfold reduceMembership
  refine .bind (.onlyIf fun _ => ?_) fun _ _ _ => .bind (.onlyIf fun _ => ?_) fun _ _ _ =>
    .bind (.onlyIf fun _ => ?_) fun _ _ _ => .onlyIf fun _ => ?_
  · unfold reduceEnrollment
    exact .bind_check fun _ _ => .bind_get (.bind_refuse fun _ => .bind_modify rfl
      (.bind_check fun _ _ => .forM (fun _ _ _ => enrollInto_frame) _))
  · exact .forM (fun _ _ _ => foundChannel_frame) _
  · unfold reduceInitialize
    exact .bind_check fun _ _ => .bind_get (.bind_refuse fun _ => .bind_check fun _ _ =>
      .bind_refuse fun _ => .bind_modify rfl (.bind_check fun _ _ => .of_modify rfl))
  · unfold reduceMembershipChange
    exact .bind_query fun _ _ => .bind_check fun _ _ => .bind_check fun _ _ =>
      .bind_okOr fun _ _ => .bind_get (.bind_okOr fun _ _ => .bind_modify rfl
        (.bind_check fun _ _ => .of_modify rfl))

theorem reduceReplication_frame {e : Value} {s : Store} :
    Evolves (Alike Store.sansMinor) (reduceReplication e) s := by
  unfold reduceReplication
  refine .ite (fun _ => ?_) fun _ => .pure
  exact .bind_refuse fun _ => .bind_check fun _ _ => .bind_check fun _ _ => .bind_check fun _ _ =>
    .bind_check fun _ _ => .bind_check fun _ _ => .bind_modify rfl
      (.bind (.forM (fun _ _ _ => listPerson_frame) _) fun _ _ _ =>
        .bind_modify rfl (.of_modify rfl))

theorem reducePrivateSync_frame {e : Value} {s : Store} :
    Evolves (Alike Store.sansReads) (reducePrivateSync e) s := by
  unfold reducePrivateSync
  refine .ite (fun _ => .bind_query fun ids _ => .of_modify ?_) fun _ => .ite (fun _ => ?_) fun _ =>
    .pure
  · rw [Alike, Store.mergeLegacyMemory_eq]
    rfl
  · unfold reduceCursorEvent
    refine .bind_query fun cursors _ => .of_modify ?_
    rw [Alike, Store.foldl_retainCursor]
    rfl

theorem reduceConversation_frame {e : Value} {s : Store} :
    Evolves (Alike Store.sansRest) (reduceConversation e) s := by
  unfold reduceConversation
  split
  · exact .pure
  · exact .bind_check fun _ _ => .bind_check fun _ _ => .bind_get (.bind_refuse fun _ =>
      .of_modify rfl)

theorem reduceIdentity_frame {e : Value} {s : Store} :
    Evolves (Alike Store.sansDerived) (reduceIdentity e) s := by
  unfold reduceIdentity
  split
  · exact .pure
  · exact .bind_check fun _ _ => .bind_check fun _ _ => .bind_get (.bind_refuse fun _ =>
      .ite (fun _ => .of_modify rfl) fun _ => .pure)

/-- What the minor reducers do, and the others each, the whole does. -/
theorem reduce_evolves_all {R : Store → Store → Prop} [Std.Refl R] [IsTrans Store R] {e : Value}
    (hminor : ∀ s t, Alike Store.sansMinor s t → R s t)
    (hchannel : ∀ item s, Evolves R (reduceChannel item) s)
    (hreads : ∀ s, Evolves R (reducePrivateSync e) s)
    (hconversation : ∀ s, Evolves R (reduceConversation e) s)
    (hidentity : ∀ s, Evolves R (reduceIdentity e) s) {s : Store} : Evolves R (reduce e) s := by
  have hlift : ∀ {m : Action PUnit} {s : Store}, Evolves (Alike Store.sansMinor) m s → Evolves R m s :=
    fun h => hminor _ _ h
  unfold reduce
  exact .bind (.forM (fun item _ s => hchannel item s) _) fun _ _ _ =>
    .bind (hlift reduceMembership_frame) fun _ _ _ => .bind (hlift reduceReplication_frame) fun _ _ _ =>
    .bind (hreads _) fun _ _ _ => .bind (hlift reduceReaction_frame) fun _ _ _ =>
    .bind (hconversation _) fun _ _ _ => .bind (hidentity _) fun _ _ _ =>
    .bind (.onlyIf fun _ => hlift reduceOwnerAvailability_frame) fun _ _ _ =>
    .bind (.onlyIf fun _ => .refl_of after_check) fun _ _ _ =>
    .bind (.onlyIf fun _ => hlift reduceNorms_frame) fun _ _ _ => hlift reduceRequest_frame

/-- What every reducer but those of read state and identities does, and what these two do, the
whole does. -/
theorem reduce_evolves {R : Store → Store → Prop} [Std.Refl R] [IsTrans Store R] {e : Value}
    (hrest : ∀ s t, Alike Store.sansRest s t → R s t)
    (hreads : ∀ s, Evolves R (reducePrivateSync e) s)
    (hidentity : ∀ s, Evolves R (reduceIdentity e) s) {s : Store} : Evolves R (reduce e) s :=
  reduce_evolves_all (fun s t h => hrest s t (Store.sansRest_congr h))
    (fun _ _ => hrest _ _ reduceChannel_frame) hreads (fun _ => hrest _ _ reduceConversation_frame)
    hidentity

/-- Every channel and DM has an ID. -/
def Store.Addressed (s : Store) : Prop :=
  s.channels.paths.contains "" = false ∧ s.conversations.contains "" = false

omit [Externals] in
theorem Store.Addressed.of_eq {s t : Store} (hs : s.Addressed) (hchannels : t.channels = s.channels)
    (hconversations : t.conversations = s.conversations) : t.Addressed := by
  unfold Store.Addressed
  rw [hchannels, hconversations]
  exact hs

/-- Channels and DMs have IDs after a reduction that fails as after one that succeeds. -/
theorem reduce_addressed {e : Value} {s : Store} : Evolves (Keeps Store.Addressed) (reduce e) s := by
  have hkept : ∀ {s t : Store}, s.channels = t.channels → s.conversations = t.conversations →
      Keeps Store.Addressed s t := fun hc hv hs => hs.of_eq hc.symm hv.symm
  refine reduce_evolves_all (fun s t h => ?_) (fun item s => ?_) (fun s => ?_) (fun s => ?_) fun s => ?_
  · have hchannels := congrArg Store.channels h
    have hconversations := congrArg Store.conversations h
    exact hkept hchannels hconversations
  · unfold reduceChannel
    refine .bind_check fun path _ => .bind_check fun _ _ => .bind_check fun id hid =>
      .of_modify fun hs => ⟨?_, hs.2⟩
    show (s.channels.bind path id).paths.contains "" = false
    rw [← Bool.not_eq_true, ChannelIndex.contains_paths_iff]
    rintro ⟨p, hp⟩
    have hbind : (s.channels.bind path id).byPath[p]? = if p = path then some id else s.channels.byPath[p]? :=
      getElem?_insert_map
    rw [hbind] at hp
    split at hp
    · exact (required_ok.mp hid).2 (Option.some.inj hp)
    · exact absurd (ChannelIndex.contains_paths_iff.mpr ⟨p, hp⟩) (by simp [hs.1])
  · unfold reducePrivateSync
    refine .ite (fun _ => .bind_query fun ids _ => .of_modify ?_) fun _ => .ite (fun _ => ?_) fun _ =>
      .pure
    · rw [Store.mergeLegacyMemory_eq]
      exact hkept rfl rfl
    · unfold reduceCursorEvent
      refine .bind_query fun cursors _ => .of_modify ?_
      rw [Store.foldl_retainCursor]
      exact hkept rfl rfl
  · unfold reduceConversation
    split
    · exact .pure
    · refine .bind_check fun id hid => .bind_check fun _ _ => .bind_get (.bind_refuse fun _ =>
        .of_modify fun hs => ⟨hs.1, ?_⟩)
      show (s.conversations.insert id _).contains "" = false
      rw [Std.ExtTreeMap.contains_insert, hs.2, Bool.or_false, beq_eq_false_iff_ne, ne_eq,
        Std.LawfulEqCmp.compare_eq_iff_eq]
      exact (required_ok.mp hid).2
  · unfold reduceIdentity
    split
    · exact .pure
    · exact .bind_check fun _ _ => .bind_check fun _ _ => .bind_get (.bind_refuse fun _ =>
        .ite (fun _ => .of_modify (hkept rfl rfl)) fun _ => .pure)

theorem reduce_frame {e : Value} {s : Store} :
    Evolves (Alike Store.sansDerived) (reduce e) s :=
  reduce_evolves (R := Alike Store.sansDerived)
    (fun _ _ h => Store.sansDerived_congr (Store.sansReads_congr h)) (fun _ => Store.sansDerived_congr reducePrivateSync_frame) fun _ => reduceIdentity_frame

end

/-! ## What the reducers read -/

namespace Store

/-- What the reducers read and write, without the cursors of this daemon. -/
def reducing (s : Store) : Store :=
  { s with
    space := default, spaceId := "", generation := "", degraded := none
    replication :=
      { coordinatorId := "", hosts := s.replication.hosts, people := s.replication.people }
    taskBindings := ∅, taskAuthority := none, lookups := {}, ingestBatch := none, position := 0
    clock := 0, reads := ∅
    readModel :=
      { ownerRetained := s.readModel.ownerRetained, reactions := s.readModel.reactions }
    personal := ∅, ownerIdentityRevision := "", frozen := false, files := [], journal := []
    minted := 0, readings := 0 }

end Store

theorem reduceChannel_blind {item : Value} : Blind Store.reducing (reduceChannel item) := by
  unfold reduceChannel
  exact .bind .check fun _ => .bind .check fun _ => .bind .check fun _ => .of_modify fun _ => rfl

theorem foundChannel_blind {e channel : Value} :
    Blind Store.reducing (foundChannel e channel) := by
  unfold foundChannel
  exact .bind .check fun _ => .bind (.of_modify fun _ => rfl) fun _ => .bind .check fun _ =>
    .of_modify fun _ => rfl

theorem enrollInto_blind {e : Value} {actor id : String} :
    Blind Store.reducing (enrollInto e actor id) := by
  unfold enrollInto
  exact .of_get (fun _ => .bind .okOr fun _ => .bind (.of_modify fun _ => rfl) fun _ =>
    .bind .check fun _ => .of_modify fun _ => rfl) fun _ => rfl

theorem listPerson_blind {host : String} {active : Bool} {person : Person} :
    Blind Store.reducing (listPerson host active person) := by
  unfold listPerson
  exact .bind .refuse fun _ => .of_modify fun _ => rfl

/-- Acknowledgements change the cursors of this daemon only. -/
theorem Store.reducing_mergeLegacyMemory {s : Store} {actor : String} {ids : List String} :
    (s.mergeLegacyMemory actor ids).reducing = s.reducing := by
  rw [mergeLegacyMemory_eq]
  rfl

theorem Store.reducing_foldl_retainCursor {s : Store} {cursors : List (String × ReadCursor)} :
    (cursors.foldl Store.retainCursor s).reducing
      = (cursors.foldl Store.retainCursor s.reducing).reducing := by
  rw [foldl_retainCursor, foldl_retainCursor]
  rfl

theorem reduceReaction_blind {e : Value} : Blind Store.reducing (reduceReaction e) := by
  unfold reduceReaction
  refine .ite (fun _ => ?_) fun _ => .pure
  exact .bind (.of_query fun _ => rfl) fun _ => .bind .check fun _ => .bind .check fun _ =>
    .bind .check fun _ => .bind (.of_modify fun _ => rfl) fun _ =>
      .of_get (fun _ => .ite (fun _ => .bind .check fun _ => .of_modify fun _ => rfl) fun _ =>
        .pure) fun _ => rfl

theorem reduceRequest_blind {e : Value} : Blind Store.reducing (reduceRequest e) := by
  unfold reduceRequest
  exact .bind .check fun _ => .of_get (fun _ => .bind (.of_modify fun _ => rfl) fun _ =>
    .refuse) fun _ => rfl

section

variable [Externals] {e : Value}

theorem reduceMembership_blind : Blind Store.reducing (reduceMembership e) := by
  unfold reduceMembership
  refine .bind (.onlyIf ?_) fun _ => .bind (.onlyIf ?_) fun _ => .bind (.onlyIf ?_) fun _ =>
    .onlyIf ?_
  · unfold reduceEnrollment
    exact .bind .check fun _ => .of_get (fun _ => .bind .refuse fun _ =>
      .bind (.of_modify fun _ => rfl) fun _ => .bind .check fun _ =>
        .forM fun _ => enrollInto_blind) fun _ => rfl
  · exact .forM fun _ => foundChannel_blind
  · unfold reduceInitialize
    exact .bind .check fun _ => .of_get (fun _ => .bind .refuse fun _ => .bind .check fun _ =>
      .bind .refuse fun _ => .bind (.of_modify fun _ => rfl) fun _ => .bind .check fun _ =>
        .of_modify fun _ => rfl) fun _ => rfl
  · unfold reduceMembershipChange
    exact .bind (.of_query fun _ => rfl) fun _ => .bind .check fun _ => .bind .check fun _ =>
      .bind .okOr fun _ => .of_get (fun _ => .bind .okOr fun _ =>
        .bind (.of_modify fun _ => rfl) fun _ => .bind .check fun _ =>
          .of_modify fun _ => rfl) fun _ => rfl

theorem reduceReplication_blind : Blind Store.reducing (reduceReplication e) := by
  unfold reduceReplication
  refine .ite (fun _ => ?_) fun _ => .pure
  exact .bind .refuse fun _ => .bind .check fun _ => .bind .check fun _ => .bind .check fun _ =>
    .bind .check fun _ => .bind .check fun _ => .bind (.of_modify fun _ => rfl) fun _ =>
      .bind (.forM fun _ => listPerson_blind) fun _ => .bind (.of_modify fun _ => rfl) fun _ =>
        .of_modify fun _ => rfl

theorem reducePrivateSync_blind : Blind Store.reducing (reducePrivateSync e) := by
  unfold reducePrivateSync
  refine .ite (fun _ => .bind (.of_query fun _ => ?_) fun _ => .of_modify fun _ => ?_) fun _ =>
    .ite (fun _ => ?_) fun _ => .pure
  · simp only [Store.validateReadEvent, onlyIf, Bool.false_eq_true, if_false]
  · rw [Store.reducing_mergeLegacyMemory, Store.reducing_mergeLegacyMemory]
    rfl
  · unfold reduceCursorEvent
    refine .bind (.of_query fun _ => ?_) fun _ => .of_modify fun _ =>
      Store.reducing_foldl_retainCursor
    simp only [Store.validateCursorEvent, onlyIf, Bool.false_eq_true, if_false]

theorem reduceConversation_blind : Blind Store.reducing (reduceConversation e) := by
  unfold reduceConversation
  split
  · exact .pure
  · exact .bind .check fun _ => .bind .check fun _ => .of_get (fun _ => .bind .refuse fun _ =>
      .of_modify fun _ => rfl) fun _ => rfl

theorem reduceIdentity_blind : Blind Store.reducing (reduceIdentity e) := by
  unfold reduceIdentity
  split
  · exact .pure
  · exact .bind .check fun _ => .bind .check fun _ => .of_get (fun _ => .bind .refuse fun _ =>
      .ite (fun _ => .of_modify fun _ => rfl) fun _ => .pure) fun _ => rfl

/-- What a reduction does depends on the derived state and the retained events only. -/
theorem reduce_blind : Blind Store.reducing (reduce e) := by
  unfold reduce
  refine .bind (.forM fun _ => reduceChannel_blind) fun _ => .bind reduceMembership_blind fun _ =>
    .bind reduceReplication_blind fun _ => .bind reducePrivateSync_blind fun _ =>
    .bind reduceReaction_blind fun _ => .bind reduceConversation_blind fun _ =>
    .bind reduceIdentity_blind fun _ => .bind (.onlyIf ?_) fun _ =>
    .bind (.onlyIf .check) fun _ => .bind (.onlyIf ?_) fun _ => reduceRequest_blind
  · unfold reduceOwnerAvailability
    exact .bind .check fun _ => .of_modify fun _ => rfl
  · unfold reduceNorms
    exact .ite (fun _ => .of_modify fun _ => rfl) fun _ => .ite (fun _ => .bind .check fun _ =>
      .of_modify fun _ => rfl) fun _ => .pure

end

end ClaudeManager
