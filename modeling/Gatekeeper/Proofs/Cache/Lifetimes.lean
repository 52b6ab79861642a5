import Gatekeeper.Proofs.Cache.EntryLemmas
import Gatekeeper.Proofs.Cache.Stages

/-!
# The two ways in which an entry runs out

An entry runs out by the time of day, when a check compares its expiry, and by the
eviction clock, when its lifetime has passed since it was written.  If the two clocks
move together, and only between checks, both come at the same second: what a look-up
finds is never stale, and what was written last for a token is found just as long as
it is valid.
-/

namespace Gatekeeper

/-- The slot of an entry that expires is empty by the eviction clock just when the entry has run out
by the other. -/
def Slot.RunsOutWith (slot : Slot) (clocks : Clocks) : Prop :=
  match slot.deadline with
  | none => slot.entry.expiresAt = 0
  | some deadline =>
    slot.entry.expiresAt ≠ 0 ∧
      (deadline : Int) - clocks.eviction = slot.entry.expiresAt - clocks.wall

theorem Slot.RunsOutWith.isLive_iff {slot : Slot} {clocks : Clocks}
    (hslot : slot.RunsOutWith clocks) :
    slot.isLive clocks.eviction = true <-> slot.entry.isValidAt clocks.wall = true := by
  rw [Entry.isValidAt_iff]
  unfold Slot.RunsOutWith at hslot
  unfold Slot.isLive
  cases hdeadline : slot.deadline with
  | none =>
      simp only [hdeadline] at hslot
      exact iff_of_true rfl (Or.inl hslot)
  | some deadline =>
      simp only [hdeadline] at hslot
      simp only [decide_eq_true_eq]
      omega

theorem Slot.RunsOutWith.advance {slot : Slot} {clocks : Clocks}
    (hslot : slot.RunsOutWith clocks) (seconds : Nat) :
    slot.RunsOutWith (clocks.advance seconds seconds) := by
  unfold Slot.RunsOutWith at hslot ⊢
  cases hdeadline : slot.deadline with
  | none =>
      simp only [hdeadline] at hslot ⊢
      exact hslot
  | some deadline =>
      simp only [hdeadline, Clocks.advance] at hslot ⊢
      omega

theorem Slot.runsOutWith_written {claims : Claims} {clocks : Clocks} {entry : Entry}
    (hentry : Entry.ofClaims claims clocks.wall = some entry) :
    (Store.written clocks.eviction entry).RunsOutWith clocks := by
  have hgrants := Entry.grants_of_ofClaims hentry
  unfold Entry.Grants at hgrants
  unfold Slot.RunsOutWith Store.written
  cases hexpiry : claims.expiresAt with
  | none =>
      simp only [hexpiry] at hgrants
      simp only [hgrants.right, Option.map_none]
      exact hgrants.left
  | some expiry =>
      have hne := Claims.expiresAt_ne_zero hexpiry
      simp only [hexpiry] at hgrants
      rcases hgrants with ⟨_, hexpires, ttl, hlifetime, hspan⟩
      simp only [hlifetime, Option.map_some]
      omega

namespace Check

/-!
# What was written last
-/

def Happening.entry? (token : BearerToken) : Happening → Option Entry
  | kept _ other entry => if other = token then some entry else none
  | _ => none

/-- The entry that was written last for the token. -/
def lastKept (history : List Happening) (token : BearerToken) : Option Entry :=
  history.reverse.findSome? (Happening.entry? token)

theorem lastKept_append (history more : List Happening) (token : BearerToken) :
    lastKept (history ++ more) token = (lastKept more token).or (lastKept history token) := by
  unfold lastKept
  rw [List.reverse_append, List.findSome?_append]

theorem lastKept_kept (history : List Happening) (check : Nat) (token other : BearerToken)
    (entry : Entry) (answer : Answer) :
    lastKept (history ++ [.kept check token entry, .answered check answer]) other =
      if token = other then some entry else lastKept history other := by
  rw [lastKept_append]
  by_cases hother : token = other
  · simp [lastKept, List.findSome?_cons, Happening.entry?, hother]
  · simp [lastKept, List.findSome?_cons, Happening.entry?, hother]

/-!
# Stores in time
-/

/-- What is in the store runs out in time and was written last, and what was written last is there
as long as it is valid. -/
structure Timely (store : Store) (clocks : Clocks) (history : List Happening) : Prop where
  slots : forall token slot, (token, slot) ∈ store.slots ->
    slot.RunsOutWith clocks ∧ lastKept history token = some slot.entry
  kept : forall token entry, lastKept history token = some entry ->
    entry.isValidAt clocks.wall = true -> exists slot, store.Holds token slot

namespace Timely

variable {store : Store} {clocks : Clocks} {history : List Happening}

theorem get?_eq (htimely : Timely store clocks history) (token : BearerToken) :
    store.get? clocks.eviction token =
      (lastKept history token).filter fun entry => entry.isValidAt clocks.wall := by
  ext entry
  rw [Option.filter_eq_some_iff]
  constructor
  · intro hget
    rcases Store.exists_isLive_of_get?_eq_some hget with ⟨slot, hmem, hlive, hentry⟩
    rcases htimely.slots token slot hmem with ⟨hslot, hlast⟩
    rw [← hentry]
    exact ⟨hlast, hslot.isLive_iff.mp hlive⟩
  · intro ⟨hlast, hvalid⟩
    rcases htimely.kept token entry hlast hvalid with ⟨slot, hholds⟩
    rcases htimely.slots token slot hholds.mem with ⟨hslot, hentry⟩
    rw [hlast] at hentry
    injection hentry with hentry
    rw [hentry] at hvalid ⊢
    exact Store.get?_eq_some_of_holds hholds (hslot.isLive_iff.mpr hvalid)

theorem lookup_ne_stale (htimely : Timely store clocks history) (token : BearerToken) :
    lookup store clocks.eviction token clocks.wall ≠ .stale := by
  unfold lookup
  rw [htimely.get?_eq]
  cases hlast : (lastKept history token).filter fun entry => entry.isValidAt clocks.wall with
  | none => exact nofun
  | some entry =>
      have hvalid := (Option.filter_eq_some_iff.mp hlast).right
      simp only [if_pos hvalid]
      exact nofun

theorem append (htimely : Timely store clocks history) {more : List Happening}
    (hmore : forall token, lastKept more token = none) :
    Timely store clocks (history ++ more) := by
  have hsame : forall token, lastKept (history ++ more) token = lastKept history token := by
    intro token
    rw [lastKept_append, hmore, Option.none_or]
  refine ⟨?_, ?_⟩
  · intro token slot hmem
    rw [hsame]
    exact htimely.slots token slot hmem
  · intro token entry hlast hvalid
    rw [hsame] at hlast
    exact htimely.kept token entry hlast hvalid

theorem advance (htimely : Timely store clocks history) (seconds : Nat) :
    Timely store (clocks.advance seconds seconds) history := by
  refine ⟨?_, ?_⟩
  · intro token slot hmem
    rcases htimely.slots token slot hmem with ⟨hslot, hlast⟩
    exact ⟨hslot.advance seconds, hlast⟩
  · intro token entry hlast hvalid
    refine htimely.kept token entry hlast (Entry.isValidAt_iff.mpr ?_)
    rcases Entry.isValidAt_iff.mp hvalid with hnever | hlater
    · exact Or.inl hnever
    · simp only [Clocks.advance] at hlater
      exact Or.inr (by omega)

theorem sweep (htimely : Timely store clocks history) :
    Timely (store.sweep clocks.eviction) clocks history := by
  refine ⟨?_, ?_⟩
  · intro token slot hmem
    exact htimely.slots token slot (Store.mem_of_mem_sweep hmem)
  · intro token entry hlast hvalid
    rcases htimely.kept token entry hlast hvalid with ⟨slot, hholds⟩
    rcases htimely.slots token slot hholds.mem with ⟨hslot, hentry⟩
    rw [hlast] at hentry
    injection hentry with hentry
    rw [hentry] at hvalid
    exact ⟨slot, hholds.sweep (hslot.isLive_iff.mpr hvalid)⟩

theorem insert (htimely : Timely store clocks history) (hunbounded : store.capacity = none)
    {claims : Claims} {entry : Entry} (hentry : Entry.ofClaims claims clocks.wall = some entry)
    (check : Nat) (token : BearerToken) (answer : Answer) :
    Timely (store.insert clocks.eviction token entry) clocks
      (history ++ [.kept check token entry, .answered check answer]) := by
  refine ⟨?_, ?_⟩
  · intro other slot hmem
    rw [lastKept_kept]
    rcases (Store.mem_insert_of_unbounded hunbounded).mp hmem with hnew | hold
    · rw [hnew.right, if_pos hnew.left.symm]
      exact ⟨Slot.runsOutWith_written hentry, rfl⟩
    · rw [if_neg (Ne.symm hold.right)]
      exact htimely.slots other slot hold.left
  · intro other last hlast hvalid
    rw [lastKept_kept] at hlast
    by_cases hother : token = other
    · rw [← hother]
      exact ⟨_, Store.holds_insert hunbounded clocks.eviction token entry⟩
    · rw [if_neg hother] at hlast
      rcases htimely.kept other last hlast hvalid with ⟨slot, hholds⟩
      exact ⟨slot, hholds.of_iff fun _ => Store.mem_insert_of_ne (Ne.symm hother)⟩

end Timely

theorem exists_claims_of_keep {now : Int} {answer : Except Refusal Claims} {entry : Entry}
    (hkeep : verdict now answer = .keep entry) :
    exists claims, Entry.ofClaims claims now = some entry := by
  cases answer with
  | error refusal =>
      unfold verdict at hkeep
      cases hacceptable : refusal.isAcceptable <;> simp [hacceptable] at hkeep
  | ok claims =>
      cases hentry : Entry.ofClaims claims now with
      | none => simp [verdict, hentry] at hkeep
      | some made =>
          simp only [verdict, hentry, Verdict.keep.injEq] at hkeep
          exact ⟨claims, by rw [hentry, hkeep]⟩

/-!
# Runs in which the clocks move together
-/

def staleLookups (journal : Journal) : Nat :=
  journal.count (.count (.lookup .stale))

namespace Stage

/-- What a check has read of the time is still so. -/
def Current (clocks : Clocks) : Stage → Prop
  | reading .. => True
  | timing _ => True
  | lookingUp _ now => now = clocks.wall
  | discarding .. => False
  | asking _ now => now = clocks.wall
  | keeping _ entry => exists claims, Entry.ofClaims claims clocks.wall = some entry
  | done _ => True

def Idle (stages : List Stage) : Prop :=
  forall stage, stage ∈ stages -> exists answer, stage = done answer

theorem Current.of_idle {stages : List Stage} (hidle : Idle stages) {stage : Stage}
    (hmem : stage ∈ stages) (clocks : Clocks) : stage.Current clocks := by
  rcases hidle stage hmem with ⟨answer, hdone⟩
  rw [hdone]
  trivial

end Stage

namespace Crowd

/-- Nothing is evicted for want of room, and the clocks move only while no check is under way, both
by as many seconds. -/
def Permits (crowd : Crowd σ) : Move → Prop
  | .start .. => True
  | .advance _ => True
  | .answer .. => True
  | .setClocks clocks =>
    Stage.Idle crowd.checks ∧
      exists seconds : Nat, clocks = crowd.world.clocks.advance seconds seconds
  | .sweep => True
  | .evict _ => False

def Synchronous (crowd : Crowd σ) : List Move → Prop
  | [] => True
  | move :: rest => crowd.Permits move ∧ Synchronous (crowd.step move) rest

structure InTime (crowd : Crowd σ) (stale : Nat) : Prop where
  unbounded : crowd.world.store.capacity = none
  stages : forall stage, stage ∈ crowd.checks -> stage.Current crowd.world.clocks
  timely : Timely crowd.world.store crowd.world.clocks crowd.history
  found : staleLookups crowd.world.journal = stale

theorem inTime_empty (world : World σ) :
    (empty world none).InTime (staleLookups world.journal) where
  unbounded := rfl
  stages := by
    intro stage hmem
    cases hmem
  timely := by
    refine ⟨?_, ?_⟩
    · intro token slot hmem
      cases hmem
    · intro token entry hlast
      cases hlast
  found := rfl

theorem InTime.proceed {crowd : Crowd σ} {stale : Nat} (hcrowd : crowd.InTime stale) {check : Nat}
    {operation : StateM (World σ) Stage} {happenings : Stage → List Happening}
    {stage : Stage} {store : Store} {noted : Journal}
    (hrun : operation.run crowd.world = (stage, { crowd.world with
      store := store, journal := crowd.world.journal ++ noted }))
    (hstage : stage.Current crowd.world.clocks)
    (hunbounded : store.capacity = none)
    (htimely : Timely store crowd.world.clocks (crowd.history ++ happenings stage))
    (hnoted : staleLookups noted = 0) :
    (crowd.proceed check operation happenings).InTime stale := by
  unfold Crowd.proceed
  rw [hrun]
  refine ⟨hunbounded, ?_, htimely, ?_⟩
  · intro other hmem
    rcases List.mem_or_eq_of_mem_set hmem with hold | hnew
    · exact hcrowd.stages other hold
    · rw [hnew]
      exact hstage
  · have hfound := hcrowd.found
    unfold staleLookups at hfound hnoted ⊢
    rw [List.count_append, hfound, hnoted, Nat.add_zero]

theorem InTime.proceed_silently {crowd : Crowd σ} {stale : Nat} (hcrowd : crowd.InTime stale)
    {check : Nat} {operation : StateM (World σ) Stage} {happenings : Stage → List Happening}
    {stage : Stage} (noted : Journal)
    (hrun : operation.run crowd.world = (stage, { crowd.world with
      journal := crowd.world.journal ++ noted }))
    (hstage : stage.Current crowd.world.clocks)
    (hhappenings : forall token, lastKept (happenings stage) token = none)
    (hnoted : staleLookups noted = 0) :
    (crowd.proceed check operation happenings).InTime stale :=
  hcrowd.proceed hrun hstage hcrowd.unbounded (hcrowd.timely.append hhappenings) hnoted

theorem InTime.proceed_idly {crowd : Crowd σ} {stale : Nat} (hcrowd : crowd.InTime stale)
    {check : Nat} {operation : StateM (World σ) Stage} {happenings : Stage → List Happening}
    {stage : Stage} (hrun : operation.run crowd.world = (stage, crowd.world))
    (hstage : stage.Current crowd.world.clocks)
    (hhappenings : forall token, lastKept (happenings stage) token = none) :
    (crowd.proceed check operation happenings).InTime stale := by
  apply hcrowd.proceed_silently [] _ hstage hhappenings rfl
  rw [List.append_nil, hrun]

theorem InTime.advance_reading {crowd : Crowd σ} {stale : Nat} (hcrowd : crowd.InTime stale)
    (check : Nat) (reader : TokenReader) (headers : Headers) :
    (crowd.proceed check (Stage.reading reader headers).advance
      ((Stage.reading reader headers).happenings check)).InTime stale := by
  cases hread : reader headers with
  | ok token =>
      apply hcrowd.proceed_idly
      · simp only [Stage.advance, hread]
        rfl
      · trivial
      · exact fun _ => rfl
  | error fault =>
      cases fault with
      | noToken =>
          apply hcrowd.proceed_idly
          · simp only [Stage.advance, hread]
            rfl
          · trivial
          · exact fun _ => rfl
      | malformed reason =>
          apply hcrowd.proceed_silently [unreadable (.malformed reason)]
          · simp only [Stage.advance, hread]
            rfl
          · trivial
          · exact fun _ => rfl
          · rfl
      | backend cause =>
          apply hcrowd.proceed_silently [unreadable (.backend cause)]
          · simp only [Stage.advance, hread]
            rfl
          · trivial
          · exact fun _ => rfl
          · rfl

theorem InTime.advance_lookingUp {crowd : Crowd σ} {stale : Nat} (hcrowd : crowd.InTime stale)
    (check : Nat) (token : BearerToken) :
    (crowd.proceed check (Stage.lookingUp token crowd.world.clocks.wall).advance
      ((Stage.lookingUp token crowd.world.clocks.wall).happenings check)).InTime stale := by
  cases hlookup : lookup crowd.world.store crowd.world.clocks.eviction token
      crowd.world.clocks.wall with
  | hit =>
      apply hcrowd.proceed_silently _ (Stage.advance_lookingUp_run hlookup)
      · trivial
      · exact fun _ => rfl
      · rfl
  | stale => exact absurd hlookup (hcrowd.timely.lookup_ne_stale token)
  | miss =>
      apply hcrowd.proceed_silently _ (Stage.advance_lookingUp_run hlookup)
      · rfl
      · exact fun _ => rfl
      · rfl

theorem InTime.advance_keeping {crowd : Crowd σ} {stale : Nat} (hcrowd : crowd.InTime stale)
    (check : Nat) (token : BearerToken) {claims : Claims} {entry : Entry}
    (hentry : Entry.ofClaims claims crowd.world.clocks.wall = some entry) :
    (crowd.proceed check (Stage.keeping token entry).advance
      ((Stage.keeping token entry).happenings check)).InTime stale := by
  have hunbounded := hcrowd.unbounded
  apply hcrowd.proceed
  · rfl
  · trivial
  · exact (Store.capacity_insert _ _ _ _).trans hunbounded
  · exact hcrowd.timely.insert hunbounded hentry check token _
  · rfl

theorem InTime.advance {crowd : Crowd σ} {stale : Nat} (hcrowd : crowd.InTime stale)
    {check : Nat} {stage : Stage} (hfound : crowd.checks[check]? = some stage) :
    (crowd.proceed check stage.advance (stage.happenings check)).InTime stale := by
  have hstage := hcrowd.stages stage (List.mem_of_getElem? hfound)
  cases stage with
  | reading reader headers => exact hcrowd.advance_reading check reader headers
  | timing token =>
      apply hcrowd.proceed_idly
      · rfl
      · rfl
      · exact fun _ => rfl
  | lookingUp token now =>
      rw [show now = crowd.world.clocks.wall from hstage]
      exact hcrowd.advance_lookingUp check token
  | discarding token now => cases hstage
  | asking token now =>
      apply hcrowd.proceed_idly
      · rfl
      · exact hstage
      · exact fun _ => rfl
  | keeping token entry =>
      rcases hstage with ⟨claims, hentry⟩
      exact hcrowd.advance_keeping check token hentry
  | done answer =>
      apply hcrowd.proceed_idly
      · rfl
      · trivial
      · exact fun _ => rfl

theorem InTime.receive {crowd : Crowd σ} {stale : Nat} (hcrowd : crowd.InTime stale)
    (check : Nat) (token : BearerToken) (answer : Except Refusal Claims) :
    (crowd.proceed check (Stage.receive token crowd.world.clocks.wall answer) fun stage =>
      .verified check token answer ::
        (Stage.asking token crowd.world.clocks.wall).happenings check stage).InTime stale := by
  cases hverdict : verdict crowd.world.clocks.wall answer with
  | keep entry =>
      apply hcrowd.proceed_idly
      · simp only [Stage.receive, hverdict]
        rfl
      · exact exists_claims_of_keep hverdict
      · exact fun _ => rfl
  | tooLate =>
      apply hcrowd.proceed_idly
      · simp only [Stage.receive, hverdict]
        rfl
      · trivial
      · exact fun _ => rfl
  | refuse refusal =>
      apply hcrowd.proceed_silently [refused token refusal]
      · simp only [Stage.receive, hverdict]
        rfl
      · trivial
      · exact fun _ => rfl
      · rfl
  | fail refusal =>
      apply hcrowd.proceed_idly
      · simp only [Stage.receive, hverdict]
        rfl
      · trivial
      · exact fun _ => rfl

theorem InTime.step {crowd : Crowd σ} {stale : Nat} (hcrowd : crowd.InTime stale) {move : Move}
    (hmove : crowd.Permits move) : (crowd.step move).InTime stale := by
  cases move with
  | start reader headers =>
      refine ⟨hcrowd.unbounded, ?_, hcrowd.timely.append fun _ => rfl, hcrowd.found⟩
      intro stage hmem
      rcases List.mem_append.mp hmem with hold | hnew
      · exact hcrowd.stages stage hold
      · rw [List.mem_singleton.mp hnew]
        trivial
  | advance check =>
      cases hfound : crowd.checks[check]? with
      | none =>
          simp only [Crowd.step, hfound]
          exact hcrowd
      | some stage =>
          simp only [Crowd.step, hfound]
          exact hcrowd.advance hfound
  | answer check answer =>
      cases hfound : crowd.checks[check]? with
      | none =>
          simp only [Crowd.step, hfound]
          exact hcrowd
      | some stage =>
          cases stage with
          | asking token now =>
              have hnow : now = crowd.world.clocks.wall :=
                hcrowd.stages _ (List.mem_of_getElem? hfound)
              simp only [Crowd.step, hfound, hnow]
              exact hcrowd.receive check token answer
          | _ =>
              simp only [Crowd.step, hfound]
              exact hcrowd
  | setClocks clocks =>
      rcases hmove with ⟨hidle, seconds, hclocks⟩
      rw [hclocks]
      exact ⟨hcrowd.unbounded, fun stage hmem => Stage.Current.of_idle hidle hmem _,
        hcrowd.timely.advance seconds, hcrowd.found⟩
  | sweep => exact ⟨hcrowd.unbounded, hcrowd.stages, hcrowd.timely.sweep, hcrowd.found⟩
  | evict token => cases hmove

theorem InTime.run {crowd : Crowd σ} {stale : Nat} (hcrowd : crowd.InTime stale)
    {moves : List Move} (hmoves : crowd.Synchronous moves) : (crowd.run moves).InTime stale := by
  induction moves generalizing crowd with
  | nil => exact hcrowd
  | cons move rest ih => exact ih (hcrowd.step hmoves.left) hmoves.right

/-- In a run from an empty store without a capacity, in which the clocks move together and only
between checks, no look-up is stale, and what is found for a token at the end is what was written
last for it, if that is valid by the time of day. -/
theorem found_while_valid (world : World σ) {moves : List Move}
    (hmoves : (empty world none).Synchronous moves) :
    let after := (empty world none).run moves
    staleLookups after.world.journal = staleLookups world.journal ∧
      forall token, after.world.store.get? after.world.clocks.eviction token =
        (lastKept after.history token).filter fun entry =>
          entry.isValidAt after.world.clocks.wall := by
  have hafter := (inTime_empty world).run hmoves
  exact ⟨hafter.found, hafter.timely.get?_eq⟩

def lastSecond : List Move :=
  [.start (fun _ => .ok ⟨"t"⟩) [], .advance 0, .advance 0, .advance 0,
    .answer 0 (.ok { Claims.none with exp := some 10 }), .advance 0,
    .setClocks ⟨9, 12⟩, .sweep,
    .start (fun _ => .ok ⟨"t"⟩) [], .advance 1, .advance 1, .advance 1,
    .setClocks ⟨10, 13⟩]

theorem found_while_valid_lastSecond :
    let start : World Unit := ⟨.empty none, ⟨0, 3⟩, [], ()⟩
    let after := (empty start none).run lastSecond
    (empty start none).Synchronous lastSecond ∧
      staleLookups after.world.journal = 0 ∧
      lastKept after.history ⟨"t"⟩ = some ⟨10, some 10⟩ ∧
      after.world.store.get? after.world.clocks.eviction ⟨"t"⟩ = none := by
  have hone : Stage.Idle [Stage.done (.ok (some ⟨"t"⟩))] := by
    intro stage hmem
    exact ⟨_, List.mem_singleton.mp hmem⟩
  have htwo : Stage.Idle [Stage.done (.ok (some ⟨"t"⟩)), Stage.done (.ok (some ⟨"t"⟩))] := by
    intro stage hmem
    rcases List.mem_cons.mp hmem with hfirst | hsecond
    · exact ⟨_, hfirst⟩
    · exact hone stage hsecond
  have hmoves : (empty (⟨.empty none, ⟨0, 3⟩, [], ()⟩ : World Unit) none).Synchronous lastSecond :=
    ⟨trivial, trivial, trivial, trivial, trivial, trivial, ⟨hone, 9, rfl⟩, trivial,
      trivial, trivial, trivial, trivial, ⟨htwo, 1, rfl⟩, trivial⟩
  have hafter := found_while_valid _ hmoves
  refine ⟨hmoves, ?_, rfl, ?_⟩
  · rw [hafter.left]
    rfl
  · rw [hafter.right]
    rfl

end Crowd

end Check
end Gatekeeper
