import Gatekeeper.Proofs.Cache.Transparency

/-!
# Tokens are verified once

A token that the verifier accepted is let through by every later check of it, without
the verifier, for as long as its entry lasts.  Checks of other tokens do not touch the
slot of the entry, a check that finds the entry leaves it as it is, and a sweep takes
away only what is empty already.
-/

namespace Gatekeeper
namespace Check

/-!
# Verifiers with a state of their own
-/

/-- What comes of a question to a verifier: the answer, the time that it took on either clock, and
the state that the verifier is left in. -/
structure Reply (σ : Type) where
  answer : Except Refusal Claims
  wall : Int
  eviction : Nat
  outside : σ

/-- Any verifier that does not check requests itself: what it answers may depend on the time and on
all that it was asked before. -/
abbrev Oracle (σ : Type) := BearerToken → Clocks → σ → Reply σ

def Reply.settled (reply : Reply σ) (world : World σ) : World σ :=
  { world with
    clocks := world.clocks.advance reply.wall reply.eviction
    outside := reply.outside }

def Oracle.asTokenVerifier (oracle : Oracle σ) : TokenVerifier σ := fun token => do
  let world ← get
  let reply := oracle token world.clocks world.outside
  set (reply.settled world)
  pure reply.answer

def Oracle.ofVerifier (verifier : Verifier) : Oracle σ := fun token clocks outside =>
  ⟨verifier.verify clocks.wall token.value, 0, 0, outside⟩

theorem asTokenVerifier_ofVerifier (verifier : Verifier) :
    (Oracle.ofVerifier verifier).asTokenVerifier (σ := σ) = verifier.asTokenVerifier := by
  funext token world
  have hsettled : Reply.settled ⟨verifier.verify world.clocks.wall token.value, 0, 0,
      world.outside⟩ world = world := by
    simp [Reply.settled, Clocks.advance]
  exact congrArg (Prod.mk (verifier.verify world.clocks.wall token.value)) hsettled

theorem consult_oracle_run (oracle : Oracle σ) (token : BearerToken) (now : Int)
    (world : World σ) :
    (consult oracle.asTokenVerifier token now).run world =
      (settle token now (oracle token world.clocks world.outside).answer).run
        ((oracle token world.clocks world.outside).settled world) := rfl

/-!
# Episodes
-/

/-- What comes after each other: checks of requests, time that passes, and sweeps.  The day may be
set back. -/
inductive Episode where
  | check (reader : TokenReader) (headers : Headers)
  | pass (wall : Int) (eviction : Nat)
  | sweep

namespace Episode

def run (verify : TokenVerifier σ) (world : World σ) : Episode → World σ
  | check reader headers => ((isAuthenticated reader verify headers).run world).2
  | pass wall eviction => { world with clocks := world.clocks.advance wall eviction }
  | sweep => { world with store := world.store.sweep world.clocks.eviction }

def runAll (verify : TokenVerifier σ) (world : World σ) (episodes : List Episode) : World σ :=
  episodes.foldl (run verify) world

def Reads (token : BearerToken) : Episode → Prop
  | check reader headers => reader headers = .ok token
  | pass .. => False
  | sweep => False

end Episode

/-!
# Clocks move forward
-/

theorem clocks_settle (token : BearerToken) (now : Int) (answer : Except Refusal Claims)
    (world : World σ) : ((settle token now answer).run world).2.clocks = world.clocks := by
  unfold settle
  cases verdict now answer with
  | keep entry => rfl
  | tooLate => rfl
  | refuse refusal => rfl
  | fail refusal => rfl

theorem forward_consult (oracle : Oracle σ) (token : BearerToken) (now : Int) (world : World σ) :
    world.clocks.eviction ≤
      ((consult oracle.asTokenVerifier token now).run world).2.clocks.eviction := by
  rw [consult_oracle_run, clocks_settle]
  exact Nat.le_add_right _ _

theorem forward_checkToken (oracle : Oracle σ) (token : BearerToken) (world : World σ) :
    world.clocks.eviction ≤
      ((checkToken oracle.asTokenVerifier token).run world).2.clocks.eviction := by
  by_cases hhit : lookup world.store world.clocks.eviction token world.clocks.wall = .hit
  · apply Nat.le_of_eq
    rw [checkToken_of_hit _ hhit]
  · rcases exists_checkToken_of_ne_hit hhit with ⟨store, noted, _, hrun⟩
    rw [hrun]
    exact forward_consult oracle token world.clocks.wall
      { world with store := store, journal := world.journal ++ noted }

theorem forward_checkRequest (oracle : Oracle σ) (reader : TokenReader) (headers : Headers)
    (world : World σ) :
    world.clocks.eviction ≤
      ((checkRequest reader oracle.asTokenVerifier headers).run world).2.clocks.eviction := by
  cases hread : reader headers with
  | ok token =>
      rw [checkRequest_of_ok _ hread]
      exact forward_checkToken oracle token world
  | error fault =>
      rcases exists_checkRequest_of_error hread world with ⟨answer, noted, hrun⟩
      apply Nat.le_of_eq
      rw [hrun]

theorem Episode.forward_run (oracle : Oracle σ) (world : World σ) (episode : Episode) :
    world.clocks.eviction ≤ (episode.run oracle.asTokenVerifier world).clocks.eviction := by
  cases episode with
  | check reader headers => exact forward_checkRequest oracle reader headers (opened world)
  | pass wall eviction => exact Nat.le_add_right _ _
  | sweep => exact Nat.le_refl _

theorem Episode.forward_runAll (oracle : Oracle σ) (world : World σ) (episodes : List Episode) :
    world.clocks.eviction ≤
      (Episode.runAll oracle.asTokenVerifier world episodes).clocks.eviction := by
  induction episodes generalizing world with
  | nil => exact Nat.le_refl _
  | cons episode rest ih => exact Nat.le_trans (episode.forward_run oracle world) (ih _)

/-!
# What spares a token
-/

/-- From one world to the other the slots of the token stay what they are. -/
structure Spares (token : BearerToken) (before after : World σ) : Prop where
  capacity : after.store.capacity = before.store.capacity
  slots : forall slot, (token, slot) ∈ after.store.slots <-> (token, slot) ∈ before.store.slots

theorem Spares.of_store_eq {token : BearerToken} {before after : World σ}
    (hstore : after.store = before.store) : Spares token before after where
  capacity := by rw [hstore]
  slots := by
    intro slot
    rw [hstore]

theorem Spares.trans {token : BearerToken} {before middle after : World σ}
    (hfirst : Spares token before middle) (hsecond : Spares token middle after) :
    Spares token before after where
  capacity := hsecond.capacity.trans hfirst.capacity
  slots := fun slot => (hsecond.slots slot).trans (hfirst.slots slot)

theorem spares_settle {token other : BearerToken} (hother : token ≠ other) (now : Int)
    (answer : Except Refusal Claims) (world : World σ) :
    Spares token world ((settle other now answer).run world).2 := by
  unfold settle
  cases verdict now answer with
  | keep entry =>
      exact ⟨Store.capacity_insert _ _ _ _, fun slot => Store.mem_insert_of_ne hother⟩
  | tooLate => exact Spares.of_store_eq rfl
  | refuse refusal => exact Spares.of_store_eq rfl
  | fail refusal => exact Spares.of_store_eq rfl

theorem spares_consult {token other : BearerToken} (hother : token ≠ other)
    (oracle : Oracle σ) (now : Int) (world : World σ) :
    Spares token world ((consult oracle.asTokenVerifier other now).run world).2 := by
  rw [consult_oracle_run]
  have hreplied : Spares token world
      ((oracle other world.clocks world.outside).settled world) := Spares.of_store_eq rfl
  exact hreplied.trans (spares_settle hother now _ _)

theorem spares_checkToken {token other : BearerToken} (hother : token ≠ other)
    (oracle : Oracle σ) (world : World σ) :
    Spares token world ((checkToken oracle.asTokenVerifier other).run world).2 := by
  by_cases hhit : lookup world.store world.clocks.eviction other world.clocks.wall = .hit
  · rw [checkToken_of_hit _ hhit]
    exact Spares.of_store_eq rfl
  · rcases exists_checkToken_of_ne_hit hhit with ⟨store, noted, hstore, hrun⟩
    have hlooked : Spares token world
        { world with store := store, journal := world.journal ++ noted } := by
      rcases hstore with rfl | rfl
      · exact Spares.of_store_eq rfl
      · refine ⟨rfl, ?_⟩
        intro slot
        rw [Store.mem_erase]
        exact and_iff_left hother
    rw [hrun]
    exact hlooked.trans (spares_consult hother oracle _ _)

theorem spares_checkRequest {token : BearerToken} {reader : TokenReader} {headers : Headers}
    (hread : reader headers ≠ .ok token) (oracle : Oracle σ) (world : World σ) :
    Spares token world ((checkRequest reader oracle.asTokenVerifier headers).run world).2 := by
  cases hreading : reader headers with
  | ok other =>
      rw [checkRequest_of_ok _ hreading]
      apply spares_checkToken
      intro hsame
      rw [hsame] at hread
      exact hread hreading
  | error fault =>
      rcases exists_checkRequest_of_error hreading world with ⟨answer, noted, hrun⟩
      rw [hrun]
      exact Spares.of_store_eq rfl

/-!
# Slots that last
-/

structure Keeps (token : BearerToken) (slot : Slot) (world : World σ) : Prop where
  unbounded : world.store.capacity = none
  holds : world.store.Holds token slot

/-- A check at these times finds the entry of the slot and takes it. -/
structure Serves (slot : Slot) (clocks : Clocks) : Prop where
  live : slot.isLive clocks.eviction = true
  valid : slot.entry.isValidAt clocks.wall = true

theorem Keeps.of_spares {token : BearerToken} {slot : Slot} {before after : World σ}
    (hkeeps : Keeps token slot before) (hspares : Spares token before after) :
    Keeps token slot after where
  unbounded := hspares.capacity.trans hkeeps.unbounded
  holds := hkeeps.holds.of_iff hspares.slots

theorem Keeps.lookup_eq_hit {token : BearerToken} {slot : Slot} {world : World σ}
    (hkeeps : Keeps token slot world) (hserves : Serves slot world.clocks) :
    lookup world.store world.clocks.eviction token world.clocks.wall = .hit := by
  unfold lookup
  rw [Store.get?_eq_some_of_holds hkeeps.holds hserves.live]
  exact if_pos hserves.valid

theorem isAuthenticated_of_hit {reader : TokenReader} {headers : Headers} {token : BearerToken}
    {world : World σ} (verify : TokenVerifier σ) (hread : reader headers = .ok token)
    (hlookup : lookup world.store world.clocks.eviction token world.clocks.wall = .hit) :
    (isAuthenticated reader verify headers).run world =
      (.ok (some token), { world with journal := world.journal ++
        [.span .tokenCheck "is_authenticated", .count (.flow .tokenCheck .attempt),
          .count (.lookup .hit), .count (.flow .tokenCheck .success)] }) := by
  have hopened : lookup (opened world).store (opened world).clocks.eviction token
      (opened world).clocks.wall = .hit := hlookup
  have hchecked := checkToken_of_hit verify hopened
  rw [← checkRequest_of_ok verify hread] at hchecked
  rw [isAuthenticated_of_run hchecked]
  simp only [opened, flowOutcome, List.append_assoc, List.cons_append, List.nil_append]

theorem isLive_of_le {slot : Slot} {earlier later : Nat} (hlive : slot.isLive later = true)
    (hforward : earlier ≤ later) : slot.isLive earlier = true := by
  unfold Slot.isLive at *
  cases hdeadline : slot.deadline with
  | none => rfl
  | some deadline =>
      simp only [hdeadline, decide_eq_true_eq] at hlive ⊢
      omega

theorem Keeps.run {token : BearerToken} {slot : Slot} {world : World σ}
    (hkeeps : Keeps token slot world) (oracle : Oracle σ) (episode : Episode)
    (hlive : slot.isLive world.clocks.eviction = true)
    (hvalid : episode.Reads token -> slot.entry.isValidAt world.clocks.wall = true) :
    Keeps token slot (episode.run oracle.asTokenVerifier world) := by
  cases episode with
  | check reader headers =>
      by_cases hread : reader headers = .ok token
      · have hhit := hkeeps.lookup_eq_hit ⟨hlive, hvalid hread⟩
        simp only [Episode.run, isAuthenticated_of_hit _ hread hhit]
        exact ⟨hkeeps.unbounded, hkeeps.holds⟩
      · have hspares := spares_checkRequest hread oracle (opened world)
        exact hkeeps.of_spares ⟨hspares.capacity, hspares.slots⟩
  | pass wall eviction => exact ⟨hkeeps.unbounded, hkeeps.holds⟩
  | sweep => exact ⟨hkeeps.unbounded, hkeeps.holds.sweep hlive⟩

def AtChecks (verify : TokenVerifier σ) (token : BearerToken) (wanted : Clocks → Prop) :
    World σ → List Episode → Prop
  | _, [] => True
  | world, episode :: rest =>
    (episode.Reads token → wanted world.clocks) ∧
      AtChecks verify token wanted (episode.run verify world) rest

theorem Keeps.runAll {token : BearerToken} {slot : Slot} {world : World σ}
    (hkeeps : Keeps token slot world) (oracle : Oracle σ) (episodes : List Episode)
    (hchecks : AtChecks oracle.asTokenVerifier token
      (fun clocks => slot.entry.isValidAt clocks.wall = true) world episodes)
    (hlive : slot.isLive
      (Episode.runAll oracle.asTokenVerifier world episodes).clocks.eviction = true) :
    Keeps token slot (Episode.runAll oracle.asTokenVerifier world episodes) := by
  induction episodes generalizing world with
  | nil => exact hkeeps
  | cons episode rest ih =>
      have hforward := Episode.forward_runAll oracle world (episode :: rest)
      have hnow := isLive_of_le hlive hforward
      exact ih (hkeeps.run oracle episode hnow hchecks.left) hchecks.right hlive

/-!
# Tokens that were accepted
-/

/-- The entry is worth something by both clocks: the claims have not run out, and less than the
lifetime has passed since the entry was written for claims that were accepted at `now`. -/
def Fresh (claims : Claims) (now : Int) (written : Nat) (clocks : Clocks) : Prop :=
  forall expiry, claims.expiresAt = some expiry ->
    clocks.wall < expiry ∧ (clocks.eviction : Int) - written < expiry - now

/-- A check of the token asks the verifier, which accepts the token. -/
structure Accepts (oracle : Oracle σ) (world : World σ) (reader : TokenReader)
    (headers : Headers) (token : BearerToken) (claims : Claims) : Prop where
  read : reader headers = .ok token
  asked : lookup world.store world.clocks.eviction token world.clocks.wall ≠ .hit
  accepted : (oracle token world.clocks world.outside).answer = .ok claims

theorem serves_of_fresh {claims : Claims} {now : Int} {clock : Nat} {entry : Entry}
    {clocks : Clocks} (hentry : Entry.ofClaims claims now = some entry)
    (hfresh : Fresh claims now clock clocks) : Serves (Store.written clock entry) clocks := by
  have hgrants := Entry.grants_of_ofClaims hentry
  unfold Entry.Grants at hgrants
  cases hexpiry : claims.expiresAt with
  | none =>
      simp only [hexpiry] at hgrants
      refine ⟨?_, Entry.isValidAt_iff.mpr (Or.inl hgrants.left)⟩
      simp only [Slot.isLive, Store.written, hgrants.right, Option.map_none]
  | some expiry =>
      simp only [hexpiry] at hgrants
      rcases hgrants with ⟨_, hexpires, ttl, hlifetime, hspan⟩
      rcases hfresh expiry hexpiry with ⟨hday, hstay⟩
      constructor
      · simp only [Slot.isLive, Store.written, hlifetime, Option.map_some, decide_eq_true_eq]
        omega
      · apply Entry.isValidAt_iff.mpr
        rw [← hexpires] at hday
        exact Or.inr hday

theorem keeps_settle {token : BearerToken} {claims : Claims} {now : Int} {entry : Entry}
    {world : World σ} (hunbounded : world.store.capacity = none)
    (hentry : Entry.ofClaims claims now = some entry) :
    Keeps token (Store.written world.clocks.eviction entry)
      ((settle token now (.ok claims)).run world).2 := by
  simp only [settle, verdict, hentry]
  exact ⟨(Store.capacity_insert _ _ _ _).trans hunbounded,
    Store.holds_insert hunbounded world.clocks.eviction token entry⟩

theorem keeps_consult {oracle : Oracle σ} {token : BearerToken} {claims : Claims} {now : Int}
    {entry : Entry} {world : World σ} (hunbounded : world.store.capacity = none)
    (haccepted : (oracle token world.clocks world.outside).answer = .ok claims)
    (hentry : Entry.ofClaims claims now = some entry) :
    Keeps token
      (Store.written ((consult oracle.asTokenVerifier token now).run world).2.clocks.eviction entry)
      ((consult oracle.asTokenVerifier token now).run world).2 := by
  rw [consult_oracle_run, haccepted, clocks_settle]
  exact keeps_settle hunbounded hentry

theorem keeps_checkToken {oracle : Oracle σ} {token : BearerToken} {claims : Claims}
    {entry : Entry} {world : World σ} (hunbounded : world.store.capacity = none)
    (hasked : lookup world.store world.clocks.eviction token world.clocks.wall ≠ .hit)
    (haccepted : (oracle token world.clocks world.outside).answer = .ok claims)
    (hentry : Entry.ofClaims claims world.clocks.wall = some entry) :
    Keeps token
      (Store.written ((checkToken oracle.asTokenVerifier token).run world).2.clocks.eviction entry)
      ((checkToken oracle.asTokenVerifier token).run world).2 := by
  rcases exists_checkToken_of_ne_hit hasked with ⟨store, noted, hstore, hrun⟩
  have hroom : store.capacity = none := by
    rcases hstore with rfl | rfl
    · exact hunbounded
    · exact hunbounded
  rw [hrun]
  exact keeps_consult hroom haccepted hentry

theorem Accepts.keeps {oracle : Oracle σ} {world : World σ} {reader : TokenReader}
    {headers : Headers} {token : BearerToken} {claims : Claims} {entry : Entry}
    (haccepts : Accepts oracle world reader headers token claims)
    (hunbounded : world.store.capacity = none)
    (hentry : Entry.ofClaims claims world.clocks.wall = some entry) :
    Keeps token
      (Store.written
        (Episode.run oracle.asTokenVerifier world (.check reader headers)).clocks.eviction entry)
      (Episode.run oracle.asTokenVerifier world (.check reader headers)) := by
  have hasked : lookup (opened world).store (opened world).clocks.eviction token
      (opened world).clocks.wall ≠ .hit := haccepts.asked
  have haccepted : (oracle token (opened world).clocks (opened world).outside).answer =
      .ok claims := haccepts.accepted
  have hkeeps : Keeps token
      (Store.written
        ((checkToken oracle.asTokenVerifier token).run (opened world)).2.clocks.eviction entry)
      ((checkToken oracle.asTokenVerifier token).run (opened world)).2 :=
    keeps_checkToken hunbounded hasked haccepted hentry
  rw [← checkRequest_of_ok _ haccepts.read] at hkeeps
  exact ⟨hkeeps.unbounded, hkeeps.holds⟩

theorem AtChecks.imp {verify : TokenVerifier σ} {token : BearerToken}
    {wanted weaker : Clocks → Prop} (himp : forall clocks, wanted clocks -> weaker clocks)
    {world : World σ} {episodes : List Episode}
    (hchecks : AtChecks verify token wanted world episodes) :
    AtChecks verify token weaker world episodes := by
  induction episodes generalizing world with
  | nil => trivial
  | cons episode rest ih =>
      exact ⟨fun hreads => himp _ (hchecks.left hreads), ih hchecks.right⟩

theorem atChecks_append {verify : TokenVerifier σ} {token : BearerToken}
    {wanted : Clocks → Prop} {world : World σ} {episodes more : List Episode} :
    AtChecks verify token wanted world (episodes ++ more) <->
      AtChecks verify token wanted world episodes ∧
        AtChecks verify token wanted (Episode.runAll verify world episodes) more := by
  induction episodes generalizing world with
  | nil => exact (and_iff_right trivial).symm
  | cons episode rest ih => exact (and_congr_right fun _ => ih).trans and_assoc.symm

/-- In a store without a capacity, once the verifier has accepted a token after the epoch, every
later check of the token lets it through as a hit and asks no verifier, whatever comes between, if
at each check of the token up to that one its entry is worth something by both clocks. -/
theorem verified_once (oracle : Oracle σ) {world : World σ} {reader : TokenReader}
    {headers : Headers} {token : BearerToken} {claims : Claims}
    (hunbounded : world.store.capacity = none) (hday : 0 ≤ world.clocks.wall)
    (haccepts : Accepts oracle world reader headers token claims)
    (htimed : claims.IsTimed) (houtlasts : claims.Outlasts world.clocks.wall)
    (between : List Episode) {laterReader : TokenReader} {laterHeaders : Headers}
    (hlater : laterReader laterHeaders = .ok token)
    (hfresh : AtChecks oracle.asTokenVerifier token
      (Fresh claims world.clocks.wall
        (Episode.run oracle.asTokenVerifier world (.check reader headers)).clocks.eviction)
      (Episode.run oracle.asTokenVerifier world (.check reader headers))
      (between ++ [.check laterReader laterHeaders]))
    (verify : TokenVerifier σ) :
    let before := Episode.runAll oracle.asTokenVerifier world (.check reader headers :: between)
    (isAuthenticated laterReader verify laterHeaders).run before =
      (.ok (some token), { before with journal := before.journal ++
        [.span .tokenCheck "is_authenticated", .count (.flow .tokenCheck .attempt),
          .count (.lookup .hit), .count (.flow .tokenCheck .success)] }) := by
  rcases exists_entry_of_outlasts hday htimed houtlasts with ⟨entry, hentry⟩
  have hkeeps := haccepts.keeps hunbounded hentry
  have hserved := hfresh.imp fun clocks => serves_of_fresh hentry
  rcases atChecks_append.mp hserved with ⟨hbetween, hlast⟩
  have hserves := hlast.left hlater
  have hkept := hkeeps.runAll oracle between (hbetween.imp fun clocks => Serves.valid)
    hserves.live
  exact isAuthenticated_of_hit verify hlater (hkept.lookup_eq_hit hserves)

def acquainted : Oracle Unit := fun token _ _ =>
  if token = ⟨"t"⟩ then ⟨.ok { Claims.none with exp := some 100 }, 1, 1, ()⟩
  else ⟨.error ⟨.signatureInvalid, "", none⟩, 1, 1, ()⟩

def eventful : List Episode :=
  [.check (fun _ => .ok ⟨"u"⟩) [], .pass (-3) 20, .sweep, .check (fun _ => .ok ⟨"t"⟩) [],
    .check (fun _ => .error .noToken) [], .pass 40 10]

theorem verified_once_eventful :
    let first : World Unit := ⟨.empty none, ⟨10, 5⟩, [], ()⟩
    let before := Episode.runAll acquainted.asTokenVerifier first
      (.check (fun _ => .ok ⟨"t"⟩) [] :: eventful)
    (isAuthenticated (fun _ => .ok ⟨"t"⟩)
        (fun _ => pure (.error ⟨.expired, "", none⟩)) []).run before =
      (.ok (some ⟨"t"⟩), { before with journal := before.journal ++
        [.span .tokenCheck "is_authenticated", .count (.flow .tokenCheck .attempt),
          .count (.lookup .hit), .count (.flow .tokenCheck .success)] }) := by
  have hfresh : forall clocks : Clocks, clocks.wall < 100 -> clocks.eviction < 96 ->
      Fresh { Claims.none with exp := some 100 } 10 6 clocks := by
    intro clocks hday hstay expiry hexpiry
    injection hexpiry with hexpiry
    rw [← hexpiry]
    omega
  refine verified_once acquainted rfl (by decide) ⟨rfl, by decide, rfl⟩ ?_ ?_ eventful rfl ?_ _
  · intro time htime
    rcases htime with hexp | hiat | hnbf
    · injection hexp with hexp
      rw [← hexp]
      decide
    · cases hiat
    · cases hnbf
  · intro expiry hexpiry
    injection hexpiry with hexpiry
    rw [← hexpiry]
    decide
  · exact ⟨fun _ => hfresh _ (by decide) (by decide), fun _ => hfresh _ (by decide) (by decide),
      fun _ => hfresh _ (by decide) (by decide), fun _ => hfresh _ (by decide) (by decide),
      fun _ => hfresh _ (by decide) (by decide), fun _ => hfresh _ (by decide) (by decide),
      fun _ => hfresh _ (by decide) (by decide), trivial⟩

end Check
end Gatekeeper
