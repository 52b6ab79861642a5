import Gatekeeper.Proofs.Cache.Persistence

/-!
# What one check does to the store

A check touches at most the slot of its own token.  It asks the verifier once, or not
at all where it finds a valid entry or reads no token; then it leaves the store as it
was.  Once it has asked, the token has an entry exactly if the answer is the token, and
the entry is new.
-/

namespace Gatekeeper
namespace Check

/-!
# Verifiers that are watched
-/

def Oracle.watched (oracle : Oracle σ) : Oracle (List BearerToken × σ) :=
  fun token clocks outside =>
    let reply := oracle token clocks outside.2
    ⟨reply.answer, reply.wall, reply.eviction, (outside.1 ++ [token], reply.outside)⟩

theorem outside_settle (token : BearerToken) (now : Int) (answer : Except Refusal Claims)
    (world : World σ) : ((settle token now answer).run world).2.outside = world.outside := by
  have hsettles := settles token now answer world
  generalize (settle token now answer).run world = outcome at hsettles
  cases hsettles <;> rfl

theorem outside_consult_watched (oracle : Oracle σ) (token : BearerToken) (now : Int)
    (world : World (List BearerToken × σ)) :
    ((consult oracle.watched.asTokenVerifier token now).run world).2.outside.1 =
      world.outside.1 ++ [token] := by
  rw [consult_oracle_run, outside_settle]
  rfl

/-!
# Slots of other tokens
-/

theorem slot?_settle_of_ne {token other : BearerToken} (hother : other ≠ token) (now : Int)
    (answer : Except Refusal Claims) (world : World σ) :
    ((settle token now answer).run world).2.store.slot? other = world.store.slot? other := by
  have hsettles := settles token now answer world
  generalize (settle token now answer).run world = outcome at hsettles
  cases hsettles with
  | kept hentry => exact Store.slot?_insert_of_ne world.store _ _ hother
  | late hentry => rfl
  | refused hacceptable => rfl
  | failed hfailure => rfl

theorem slot?_lookedUp_of_ne {token other : BearerToken} (hother : other ≠ token)
    (world : World σ) : (lookedUp token world).store.slot? other = world.store.slot? other := by
  unfold lookedUp
  cases lookup world.store world.clocks.eviction token world.clocks.wall with
  | hit => rfl
  | miss => rfl
  | stale => exact Store.slot?_erase_of_ne world.store hother

theorem slot?_checkToken_of_ne {token other : BearerToken} (hother : other ≠ token)
    (oracle : Oracle σ) (world : World σ) :
    ((checkToken oracle.asTokenVerifier token).run world).2.store.slot? other =
      world.store.slot? other := by
  rw [checkToken_run, ← slot?_lookedUp_of_ne hother world]
  split
  · rfl
  · rw [consult_oracle_run, slot?_settle_of_ne hother]
    rfl

theorem slot?_checkRequest_of_ne {reader : TokenReader} {headers : Headers}
    {other : BearerToken} (hother : reader headers ≠ .ok other) (oracle : Oracle σ)
    (world : World σ) :
    ((checkRequest reader oracle.asTokenVerifier headers).run world).2.store.slot? other =
      world.store.slot? other := by
  cases hread : reader headers with
  | ok token =>
      rw [checkRequest_of_ok _ hread]
      apply slot?_checkToken_of_ne
      intro hsame
      rw [hsame] at hother
      exact hother hread
  | error fault =>
      rcases exists_checkRequest_of_error hread world with ⟨answer, noted, hrun⟩
      rw [hrun]

/-!
# The slot of the token itself
-/

theorem get?_eq_none_of_le {store : Store} {token : BearerToken} {earlier later : Nat}
    (hnone : store.get? earlier token = none) (hforward : earlier ≤ later) :
    store.get? later token = none := by
  unfold Store.get? at *
  cases hslot : store.slot? token with
  | none => rfl
  | some slot =>
      simp only [hslot] at hnone ⊢
      apply if_neg
      intro hlive
      rw [if_pos (isLive_of_le hlive hforward)] at hnone
      cases hnone

theorem get?_lookedUp {token : BearerToken} {world : World σ}
    (hasked : lookup world.store world.clocks.eviction token world.clocks.wall ≠ .hit) :
    (lookedUp token world).store.get? world.clocks.eviction token = none := by
  unfold lookedUp
  cases hlookup : lookup world.store world.clocks.eviction token world.clocks.wall with
  | hit => exact absurd hlookup hasked
  | miss =>
      unfold lookup at hlookup
      cases hget : world.store.get? world.clocks.eviction token with
      | none => exact hget
      | some entry =>
          simp only [hget] at hlookup
          split at hlookup <;> cases hlookup
  | stale =>
      simp only [if_true, Store.get?, Store.slot?_erase]

/-- What a check leaves for a token that it asked about: an entry of what was accepted, written
when the verifier replied, if the answer is the token, and else nothing that is ever found.  After
the epoch the answer is the token whenever the verifier accepts it with claims that outlast the
present. -/
structure Leaves (token : BearerToken) (now : Int) (verified : Except Refusal Claims)
    (answer : Answer) (after : World σ) : Prop where
  written : answer = .ok (some token) -> exists claims entry,
    verified = .ok claims ∧ Entry.Grants claims now entry ∧ entry.isValidAt now = true ∧
      after.store.slot? token = some (Store.written after.clocks.eviction entry) ∧
      after.store.get? after.clocks.eviction token = some entry
  nothing : answer ≠ .ok (some token) -> forall clock, after.clocks.eviction ≤ clock ->
    after.store.get? clock token = none
  accepted : forall claims, verified = .ok claims -> claims.IsTimed -> claims.Outlasts now ->
    0 ≤ now -> answer = .ok (some token)

theorem leaves_settle {token : BearerToken} {now : Int} {answer : Except Refusal Claims}
    {world : World σ} (hunbounded : world.store.capacity = none)
    (hnone : world.store.get? world.clocks.eviction token = none) :
    Leaves token now answer ((settle token now answer).run world).1
      ((settle token now answer).run world).2 := by
  have hunfound : forall clock, world.clocks.eviction ≤ clock ->
      world.store.get? clock token = none := fun clock => get?_eq_none_of_le hnone
  have hsettles := settles token now answer world
  generalize (settle token now answer).run world = outcome at hsettles
  cases hsettles with
  | @kept claims entry hentry =>
      have hslot := Store.slot?_insert hunbounded world.clocks.eviction token entry
      have hgrants := Entry.grants_of_ofClaims hentry
      have hfresh : Fresh claims now world.clocks.eviction ⟨now, world.clocks.eviction⟩ := by
        intro expiry hexpiry
        have hlater := hgrants.outlasts expiry hexpiry
        refine ⟨hlater, ?_⟩
        dsimp only
        omega
      have hserves := serves_of_fresh hentry hfresh
      refine ⟨fun _ => ⟨claims, entry, rfl, hgrants, hserves.valid, hslot, ?_⟩, ?_, ?_⟩
      · exact Store.get?_of_slot? hslot hserves.live
      · intro hanswer
        exact absurd rfl hanswer
      · intro _ _ _ _ _
        rfl
  | late hentry =>
      refine ⟨nofun, fun _ => hunfound, ?_⟩
      intro claims hclaims htimed houtlasts hnow
      cases hclaims
      rcases exists_entry_of_outlasts hnow htimed houtlasts with ⟨entry, hsome⟩
      rw [hentry] at hsome
      cases hsome
  | refused hacceptable => exact ⟨nofun, fun _ => hunfound, nofun⟩
  | failed hfailure => exact ⟨nofun, fun _ => hunfound, nofun⟩

theorem leaves_consult (oracle : Oracle σ) {token : BearerToken} {now : Int} {world : World σ}
    (hunbounded : world.store.capacity = none)
    (hnone : world.store.get? world.clocks.eviction token = none) :
    Leaves token now (oracle token world.clocks world.outside).answer
      ((consult oracle.asTokenVerifier token now).run world).1
      ((consult oracle.asTokenVerifier token now).run world).2 := by
  rw [consult_oracle_run]
  apply leaves_settle
  · exact hunbounded
  · exact get?_eq_none_of_le hnone (Nat.le_add_right _ _)

theorem lookedUp_unbounded {token : BearerToken} {world : World σ}
    (hunbounded : world.store.capacity = none) :
    (lookedUp token world).store.capacity = none := by
  unfold lookedUp
  simp only
  split
  · exact hunbounded
  · exact hunbounded

theorem leaves_checkToken (oracle : Oracle σ) {token : BearerToken} {world : World σ}
    (hunbounded : world.store.capacity = none)
    (hasked : lookup world.store world.clocks.eviction token world.clocks.wall ≠ .hit) :
    Leaves token world.clocks.wall (oracle token world.clocks world.outside).answer
      ((checkToken oracle.asTokenVerifier token).run world).1
      ((checkToken oracle.asTokenVerifier token).run world).2 := by
  rw [checkToken_run, if_neg hasked]
  exact leaves_consult oracle (lookedUp_unbounded hunbounded) (get?_lookedUp hasked)

/-!
# Whole checks
-/

theorem lookup_eq_hit_iff {store : Store} {clock : Nat} {token : BearerToken} {now : Int} :
    lookup store clock token now = .hit <->
      exists entry, store.get? clock token = some entry ∧ entry.isValidAt now = true := by
  unfold lookup
  cases store.get? clock token with
  | none => simp
  | some entry =>
      cases hvalid : entry.isValidAt now with
      | true => simp [hvalid]
      | false => simp [hvalid]

/-- One check with nothing between its operations, in a store without a capacity and with any
entries.  It leaves the slots of all other tokens.  If no token is read, or a valid entry of the
token is found, it leaves the whole store and does not ask the verifier; in the second case it
answers with the token.  Otherwise it asks the verifier for the token once, and the token has an
entry afterwards if it is the answer, a new one that is valid at the time that the check read, and
no entry that could be found at any later time if it is not. -/
theorem isAuthenticated_effect (oracle : Oracle σ) {reader : TokenReader} {headers : Headers}
    {world after : World (List BearerToken × σ)} {answer : Answer}
    (hunbounded : world.store.capacity = none)
    (hrun : (isAuthenticated reader oracle.watched.asTokenVerifier headers).run world =
      (answer, after)) :
    (forall other, reader headers ≠ .ok other ->
      after.store.slot? other = world.store.slot? other) ∧
    (forall fault, reader headers = .error fault ->
      after.store = world.store ∧ after.outside = world.outside) ∧
    forall token, reader headers = .ok token ->
      (forall entry, world.store.get? world.clocks.eviction token = some entry ->
        entry.isValidAt world.clocks.wall = true ->
          after.store = world.store ∧ after.outside = world.outside ∧
            answer = .ok (some token)) ∧
      ((forall entry, world.store.get? world.clocks.eviction token = some entry ->
        entry.isValidAt world.clocks.wall = false) ->
          after.outside.1 = world.outside.1 ++ [token] ∧
          Leaves token world.clocks.wall
            (oracle token world.clocks world.outside.2).answer answer after) := by
  rcases exists_checkRequest_run hrun with ⟨checked, hchecked, rfl⟩
  refine ⟨?_, ?_, ?_⟩
  · intro other hother
    have hspared := slot?_checkRequest_of_ne hother oracle.watched (opened world)
    rw [hchecked] at hspared
    exact hspared
  · intro fault hread
    rcases exists_checkRequest_of_error hread (opened world) with ⟨found, noted, hunread⟩
    rw [hunread oracle.watched.asTokenVerifier] at hchecked
    cases hchecked
    exact ⟨rfl, rfl⟩
  · intro token hread
    rw [checkRequest_of_ok _ hread] at hchecked
    constructor
    · intro entry hget hvalid
      have hhit : lookup (opened world).store (opened world).clocks.eviction token
          (opened world).clocks.wall = .hit := lookup_eq_hit_iff.mpr ⟨entry, hget, hvalid⟩
      rw [checkToken_of_hit _ hhit] at hchecked
      cases hchecked
      exact ⟨rfl, rfl, rfl⟩
    · intro hinvalid
      have hasked : lookup (opened world).store (opened world).clocks.eviction token
          (opened world).clocks.wall ≠ .hit := by
        intro hhit
        rcases lookup_eq_hit_iff.mp hhit with ⟨entry, hget, hvalid⟩
        cases (hinvalid entry hget).symm.trans hvalid
      have hopened : (opened world).store.capacity = none := hunbounded
      have hleaves := leaves_checkToken oracle.watched hopened hasked
      rw [hchecked] at hleaves
      rw [checkToken_run, if_neg hasked] at hchecked
      have hwatched := outside_consult_watched oracle token (opened world).clocks.wall
        (lookedUp token (opened world))
      rw [hchecked] at hwatched
      exact ⟨hwatched, hleaves.written, hleaves.nothing, hleaves.accepted⟩

/-!
A verifier that takes its time and cannot read any token, and a store with an entry that has run
out by the day only, beside one for good.
-/

def unreadableToAll : Oracle Unit :=
  fun _ _ _ => ⟨.error ⟨.malformed, "InvalidToken", none⟩, 2, 3, ()⟩

def staleStore : Store :=
  ⟨none, [(⟨"t"⟩, ⟨⟨50, some 40⟩, some 60⟩), (⟨"u"⟩, ⟨Entry.neverExpiring, none⟩)]⟩

def presentingStale : StateM (World (List BearerToken × Unit)) Answer :=
  isAuthenticated (fun _ => .ok ⟨"t"⟩) unreadableToAll.watched.asTokenVerifier []

theorem isAuthenticated_effect_stale :
    let world : World (List BearerToken × Unit) := ⟨staleStore, ⟨55, 20⟩, [], ([], ())⟩
    exists after,
      presentingStale.run world =
        (.error (.verification ⟨.malformed, "InvalidToken", none⟩), after) ∧
      after.outside.1 = [⟨"t"⟩] ∧
      after.store.get? after.clocks.eviction ⟨"t"⟩ = none ∧
      after.store.slot? ⟨"u"⟩ = some ⟨Entry.neverExpiring, none⟩ := by
  intro world
  have hrun : presentingStale.run world =
      (.error (.verification ⟨.malformed, "InvalidToken", none⟩), (presentingStale.run world).2) :=
    rfl
  have hstale : forall entry, world.store.get? world.clocks.eviction ⟨"t"⟩ = some entry ->
      entry.isValidAt world.clocks.wall = false := by
    intro entry hget
    cases hget
    rfl
  rcases isAuthenticated_effect unreadableToAll rfl hrun with ⟨hothers, _, htoken⟩
  rcases (htoken ⟨"t"⟩ rfl).right hstale with ⟨hasked, hleaves⟩
  exact ⟨_, hrun, hasked, hleaves.nothing nofun _ (Nat.le_refl _), hothers ⟨"u"⟩ (by simp)⟩

end Check
end Gatekeeper
