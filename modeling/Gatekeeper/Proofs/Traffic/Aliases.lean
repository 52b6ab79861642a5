import Gatekeeper.Proofs.Cache.Checks
import Gatekeeper.Proofs.Cache.EntryLemmas
import Gatekeeper.Proofs.Traffic.Occurrences
import Gatekeeper.Proofs.Url.Authorities
import Mathlib.Data.Fintype.Pigeonhole
import Mathlib.Data.List.Forall2
import Mathlib.Data.Set.Finite.List

/-!
# Tokens by other names

Two runs that differ only in what their tokens are, and in which token a name stands
for, cannot be told apart by what is reported, as long as each token keeps its
fingerprint and no two tokens become one.  The stores of the two runs stay in step:
slot by slot they hold the same entries under the names of either run.
-/

namespace Gatekeeper

inductive Alike {ε ε' α α' : Type} (errors : ε -> ε' -> Prop) (values : α -> α' -> Prop) :
    Except ε α -> Except ε' α' -> Prop
  | ok {value : α} {other : α'} (hvalues : values value other) :
      Alike errors values (.ok value) (.ok other)
  | error {error : ε} {other : ε'} (herrors : errors error other) :
      Alike errors values (.error error) (.error other)

/-- Which tokens of a run stand for which of another, and which refusals do.  No two tokens become
one, each keeps its fingerprint, and a refusal keeps its kind. -/
structure Aliases where
  tokens : BearerToken → BearerToken → Prop
  refusals : Refusal → Refusal → Prop
  injective : forall {token renamed other again}, tokens token renamed -> tokens other again ->
    (token = other <-> renamed = again)
  fingerprint : forall {token renamed}, tokens token renamed ->
    token.fingerprint = renamed.fingerprint
  kind : forall {refusal other}, refusals refusal other -> refusal.kind = other.kind

namespace Aliases

variable (aliases : Aliases)

/-!
# Runs that correspond
-/

abbrev Reads : Except ReadFault BearerToken → Except ReadFault BearerToken → Prop :=
  Alike Eq aliases.tokens

abbrev Verifies : Except Refusal Claims → Except Refusal Claims → Prop :=
  Alike aliases.refusals fun claims other => claims.exp = other.exp

inductive Errors : Error → Error → Prop
  | tokenRead (fault : ReadFault) : Errors (.tokenRead fault) (.tokenRead fault)
  | verification {refusal other : Refusal} (hrefusals : aliases.refusals refusal other) :
      Errors (.verification refusal) (.verification other)

abbrev Answers : Answer → Answer → Prop :=
  Alike aliases.Errors (Option.Rel aliases.tokens)

inductive Receipts : Receipt → Receipt → Prop
  | login (result : Except Error Outcome) : Receipts (.login result) (.login result)
  | check {read other : Except ReadFault BearerToken} {answer again : Answer} (report : Journal)
      (hreads : aliases.Reads read other) (hanswers : aliases.Answers answer again) :
      Receipts (.check read report answer) (.check other report again)

mutual

/-- What happens in both runs is the same, but for the tokens that the checks read and for what
their verifiers say beside the expiry or the kind of the refusal. -/
inductive Occurs : Occurrence → Occurrence → Prop
  | login (authenticator : Authenticator) (transport : Transport) (attempt : Attempt) :
      Occurs (.login authenticator transport attempt) (.login authenticator transport attempt)
  | check {reader other : TokenReader} {headers others : Headers}
      {during meanwhile : List Occurrence} {answer again : Except Refusal Claims}
      (hreads : aliases.Reads (reader headers) (other others))
      (hduring : OccursAll during meanwhile) (hverifies : aliases.Verifies answer again) :
      Occurs (.check reader headers during answer) (.check other others meanwhile again)
  | setClocks (clocks : Clocks) : Occurs (.setClocks clocks) (.setClocks clocks)
  | sweep : Occurs .sweep .sweep

inductive OccursAll : List Occurrence → List Occurrence → Prop
  | nil : OccursAll [] []
  | cons {occurrence other : Occurrence} {rest others : List Occurrence}
      (hfirst : Occurs occurrence other) (hrest : OccursAll rest others) :
      OccursAll (occurrence :: rest) (other :: others)

end

structure Stores (store other : Store) : Prop where
  capacity : store.capacity = other.capacity
  slots : List.Forall₂ (fun slot renamed => aliases.tokens slot.1 renamed.1 ∧ slot.2 = renamed.2)
    store.slots other.slots

structure Worlds (world other : World Ledger) : Prop where
  store : aliases.Stores world.store other.store
  clocks : world.clocks = other.clocks
  journal : world.journal = other.journal
  receipts : List.Forall₂ aliases.Receipts world.outside.receipts other.outside.receipts
  asked : List.Forall₂ aliases.tokens world.outside.asked other.outside.asked

structure Outcomes (outcome other : Answer × World Ledger) : Prop where
  answers : aliases.Answers outcome.1 other.1
  worlds : aliases.Worlds outcome.2 other.2

variable {aliases}

/-!
# Stores in step
-/

namespace Stores

variable {store other : Store} {token renamed : BearerToken}

theorem slot? (hstores : aliases.Stores store other) (htoken : aliases.tokens token renamed) :
    store.slot? token = other.slot? renamed := by
  unfold Store.slot?
  have hslots := hstores.slots
  generalize store.slots = slots at hslots
  generalize other.slots = others at hslots
  induction hslots with
  | nil => rfl
  | @cons slot again _ _ hslot hrest ih =>
      rcases hslot with ⟨hnames, hsame⟩
      have hfound := aliases.injective htoken hnames
      rw [List.lookup_cons, List.lookup_cons, ih]
      by_cases htokens : token = slot.1
      · rw [beq_iff_eq.mpr htokens, beq_iff_eq.mpr (hfound.mp htokens), hsame]
      · rw [beq_eq_false_iff_ne.mpr htokens,
          beq_eq_false_iff_ne.mpr fun hrenamed => htokens (hfound.mpr hrenamed)]

theorem lookup (hstores : aliases.Stores store other) (htoken : aliases.tokens token renamed)
    (clock : Nat) (now : Int) :
    Check.lookup store clock token now = Check.lookup other clock renamed now := by
  unfold Check.lookup Store.get?
  rw [hstores.slot? htoken]

theorem erase (hstores : aliases.Stores store other) (htoken : aliases.tokens token renamed) :
    aliases.Stores (store.erase token) (other.erase renamed) where
  capacity := hstores.capacity
  slots := by
    refine List.rel_filter ?_ hstores.slots
    intro slot again hslot
    simpa using not_congr (aliases.injective hslot.left htoken)

theorem sweep (hstores : aliases.Stores store other) (clock : Nat) :
    aliases.Stores (store.sweep clock) (other.sweep clock) where
  capacity := hstores.capacity
  slots := by
    refine List.rel_filter ?_ hstores.slots
    intro slot again hslot
    simp only [hslot.right]

theorem hasRoom (hstores : aliases.Stores store other) (clock : Nat) :
    store.hasRoom clock = other.hasRoom clock := by
  unfold Store.hasRoom Store.count
  rw [hstores.capacity, (hstores.sweep clock).slots.length_eq]

theorem insert (hstores : aliases.Stores store other) (htoken : aliases.tokens token renamed)
    (clock : Nat) (entry : Entry) :
    aliases.Stores (store.insert clock token entry) (other.insert clock renamed entry) := by
  have herased := hstores.erase htoken
  unfold Store.insert
  simp only [herased.hasRoom clock]
  split
  · exact ⟨herased.capacity, .cons ⟨htoken, rfl⟩ herased.slots⟩
  · exact herased

end Stores

/-!
# Events
-/

section

variable {token renamed : BearerToken}

theorem tokenField_eq (htoken : aliases.tokens token renamed) :
    Check.tokenField token = Check.tokenField renamed := by
  unfold Check.tokenField
  rw [aliases.fingerprint htoken]

theorem lookupNotes_eq (htoken : aliases.tokens token renamed) (result : Lookup) :
    Check.lookupNotes token result = Check.lookupNotes renamed result := by
  cases result with
  | hit => rfl
  | miss => rfl
  | stale => simp only [Check.lookupNotes, Check.evicting, tokenField_eq htoken]

theorem refused_eq (htoken : aliases.tokens token renamed) {refusal other : Refusal}
    (hrefusal : aliases.refusals refusal other) :
    Check.refused token refusal = Check.refused renamed other := by
  unfold Check.refused
  rw [tokenField_eq htoken, aliases.kind hrefusal]

theorem caching_eq (htoken : aliases.tokens token renamed) (entry : Entry) :
    Check.caching token entry = Check.caching renamed entry := by
  unfold Check.caching
  rw [tokenField_eq htoken]

end

/-!
# Checks in step
-/

namespace Worlds

variable {world other : World Ledger} {token renamed : BearerToken}

theorem note (hworlds : aliases.Worlds world other) {journal more : Journal}
    (hsame : journal = more) :
    aliases.Worlds { world with journal := world.journal ++ journal }
      { other with journal := other.journal ++ more } where
  store := hworlds.store
  clocks := hworlds.clocks
  journal := by rw [hworlds.journal, hsame]
  receipts := hworlds.receipts
  asked := hworlds.asked

theorem lookup (hworlds : aliases.Worlds world other) (htoken : aliases.tokens token renamed) :
    Check.lookup world.store world.clocks.eviction token world.clocks.wall =
      Check.lookup other.store other.clocks.eviction renamed other.clocks.wall := by
  rw [hworlds.clocks]
  exact hworlds.store.lookup htoken _ _

theorem lookedUp (hworlds : aliases.Worlds world other) (htoken : aliases.tokens token renamed) :
    aliases.Worlds (Check.lookedUp token world) (Check.lookedUp renamed other) := by
  have hlookup := hworlds.lookup htoken
  unfold Check.lookedUp
  simp only [hlookup]
  refine ⟨?_, hworlds.clocks, ?_, hworlds.receipts, hworlds.asked⟩
  · split
    · exact hworlds.store.erase htoken
    · exact hworlds.store
  · simp only [hworlds.journal, lookupNotes_eq htoken]

theorem keep (hworlds : aliases.Worlds world other) (htoken : aliases.tokens token renamed)
    (entry : Entry) :
    aliases.Worlds ((Check.keep token entry).run world).2
      ((Check.keep renamed entry).run other).2 where
  store := by
    change aliases.Stores (world.store.insert world.clocks.eviction token entry)
      (other.store.insert other.clocks.eviction renamed entry)
    rw [hworlds.clocks]
    exact hworlds.store.insert htoken _ entry
  clocks := hworlds.clocks
  journal := by
    change world.journal ++ [Check.caching token entry] =
      other.journal ++ [Check.caching renamed entry]
    rw [hworlds.journal, caching_eq htoken]
  receipts := hworlds.receipts
  asked := hworlds.asked

end Worlds

section

variable {world other : World Ledger} {token renamed : BearerToken}

theorem isAcceptable_eq {refusal again : Refusal} (hrefusal : aliases.refusals refusal again) :
    refusal.isAcceptable = again.isAcceptable := by
  unfold Refusal.isAcceptable
  rw [aliases.kind hrefusal]

theorem outcomes_settle (hworlds : aliases.Worlds world other)
    (htoken : aliases.tokens token renamed) {answer again : Except Refusal Claims}
    (hverifies : aliases.Verifies answer again) (now : Int) :
    aliases.Outcomes ((Check.settle token now answer).run world)
      ((Check.settle renamed now again).run other) := by
  cases hverifies with
  | @ok claims others hexp =>
      simp only [Check.settle, Check.verdict, ← Entry.ofClaims_of_exp_eq hexp now]
      cases Entry.ofClaims claims now with
      | some entry => exact ⟨.ok (.some htoken), hworlds.keep htoken entry⟩
      | none => exact ⟨.ok .none, hworlds⟩
  | @error refusal others hrefusal =>
      simp only [Check.settle, Check.verdict, ← isAcceptable_eq hrefusal]
      cases refusal.isAcceptable with
      | true =>
          have hrefused : [Check.refused token refusal] = [Check.refused renamed others] := by
            rw [refused_eq htoken hrefusal]
          exact ⟨.ok .none, hworlds.note hrefused⟩
      | false => exact ⟨.error (.verification hrefusal), hworlds⟩

/-- Verifiers whose answers correspond, whatever they do before, as long as that does. -/
def Verifiers (aliases : Aliases) (verify again : TokenVerifier Ledger) : Prop :=
  forall {token renamed world other}, aliases.tokens token renamed ->
    aliases.Worlds world other ->
      aliases.Verifies ((verify token).run world).1 ((again renamed).run other).1 ∧
        aliases.Worlds ((verify token).run world).2 ((again renamed).run other).2

theorem outcomes_checkToken {verify again : TokenVerifier Ledger}
    (hverifiers : aliases.Verifiers verify again) (hworlds : aliases.Worlds world other)
    (htoken : aliases.tokens token renamed) :
    aliases.Outcomes ((Check.checkToken verify token).run world)
      ((Check.checkToken again renamed).run other) := by
  rw [Check.checkToken_run, Check.checkToken_run, ← hworlds.lookup htoken]
  have hlooked := hworlds.lookedUp htoken
  split
  · exact ⟨.ok (.some htoken), hlooked⟩
  · rcases hverifiers htoken hlooked with ⟨hverifies, hafter⟩
    rw [hworlds.clocks]
    exact outcomes_settle hafter htoken hverifies other.clocks.wall

theorem outcomes_checkRequest {reader fallback : TokenReader} {headers others : Headers}
    {verify again : TokenVerifier Ledger}
    (hreads : aliases.Reads (reader headers) (fallback others))
    (hverifiers : aliases.Verifiers verify again) (hworlds : aliases.Worlds world other) :
    aliases.Outcomes ((Check.checkRequest reader verify headers).run world)
      ((Check.checkRequest fallback again others).run other) := by
  generalize hread : reader headers = read at hreads
  generalize hother : fallback others = found at hreads
  cases hreads with
  | ok htoken =>
      rw [Check.checkRequest_of_ok _ hread, Check.checkRequest_of_ok _ hother]
      exact outcomes_checkToken hverifiers hworlds htoken
  | @error fault _ hfault =>
      rw [← hfault] at hother
      by_cases hnone : fault = .noToken
      · rw [hnone] at hread hother
        rw [Check.checkRequest_of_noToken _ hread, Check.checkRequest_of_noToken _ hother]
        exact ⟨.ok .none, hworlds⟩
      · rw [Check.checkRequest_of_error _ hread hnone, Check.checkRequest_of_error _ hother hnone]
        exact ⟨.error (.tokenRead fault), hworlds.note rfl⟩

theorem flowOutcome_eq {answer again : Answer} (hanswers : aliases.Answers answer again) :
    Check.flowOutcome answer = Check.flowOutcome again := by
  cases hanswers with
  | ok hvalues => cases hvalues <;> rfl
  | error herrors => rfl

theorem outcomes_isAuthenticated {reader fallback : TokenReader} {headers others : Headers}
    {verify again : TokenVerifier Ledger}
    (hreads : aliases.Reads (reader headers) (fallback others))
    (hverifiers : aliases.Verifiers verify again) (hworlds : aliases.Worlds world other) :
    aliases.Outcomes ((Check.isAuthenticated reader verify headers).run world)
      ((Check.isAuthenticated fallback again others).run other) := by
  have hopened : aliases.Worlds (Check.opened world) (Check.opened other) := hworlds.note rfl
  have hchecked := outcomes_checkRequest hreads hverifiers hopened
  rcases hrun : (Check.checkRequest reader verify headers).run (Check.opened world) with
    ⟨answer, after⟩
  rcases hagain : (Check.checkRequest fallback again others).run (Check.opened other) with
    ⟨repeated, later⟩
  rw [hrun, hagain] at hchecked
  rw [Check.isAuthenticated_of_run hrun, Check.isAuthenticated_of_run hagain]
  refine ⟨hchecked.answers, hchecked.worlds.note ?_⟩
  rw [flowOutcome_eq hchecked.answers]

end

/-!
# Whole runs
-/

namespace Worlds

variable {world other : World Ledger}

theorem file (hworlds : aliases.Worlds world other) {receipt again : Receipt}
    (hreceipts : aliases.Receipts receipt again) :
    aliases.Worlds ((Ledger.file receipt).run world).2 ((Ledger.file again).run other).2 where
  store := hworlds.store
  clocks := hworlds.clocks
  journal := hworlds.journal
  receipts := List.rel_append hworlds.receipts (.cons hreceipts .nil)
  asked := hworlds.asked

theorem ask (hworlds : aliases.Worlds world other) {token renamed : BearerToken}
    (htoken : aliases.tokens token renamed) :
    aliases.Worlds ((Ledger.ask token).run world).2 ((Ledger.ask renamed).run other).2 where
  store := hworlds.store
  clocks := hworlds.clocks
  journal := hworlds.journal
  receipts := hworlds.receipts
  asked := List.rel_append hworlds.asked (.cons htoken .nil)

theorem setClocks (hworlds : aliases.Worlds world other) (clocks : Clocks) :
    aliases.Worlds { world with clocks := clocks } { other with clocks := clocks } where
  store := hworlds.store
  clocks := rfl
  journal := hworlds.journal
  receipts := hworlds.receipts
  asked := hworlds.asked

theorem sweep (hworlds : aliases.Worlds world other) :
    aliases.Worlds { world with store := world.store.sweep world.clocks.eviction }
      { other with store := other.store.sweep other.clocks.eviction } where
  store := by
    rw [hworlds.clocks]
    exact hworlds.store.sweep other.clocks.eviction
  clocks := hworlds.clocks
  journal := hworlds.journal
  receipts := hworlds.receipts
  asked := hworlds.asked

end Worlds

section

variable {world other : World Ledger}

theorem verifiers_conducted {during meanwhile : StateM (World Ledger) Unit}
    (hduring : forall {world other}, aliases.Worlds world other ->
      aliases.Worlds (during.run world).2 (meanwhile.run other).2)
    {answer again : Except Refusal Claims} (hverifies : aliases.Verifies answer again) :
    aliases.Verifiers (Occurrence.conducted during answer)
      (Occurrence.conducted meanwhile again) := by
  intro token renamed world other htoken hworlds
  exact ⟨hverifies, hduring (hworlds.ask htoken)⟩

theorem worlds_attend [Url.International] (hworlds : aliases.Worlds world other)
    (authenticator : Authenticator) (transport : Transport) (attempt : Attempt) :
    aliases.Worlds ((Occurrence.attend authenticator transport attempt).run world).2
      ((Occurrence.attend authenticator transport attempt).run other).2 :=
  (hworlds.note rfl).file (.login _)

theorem worlds_examine (hworlds : aliases.Worlds world other) {reader fallback : TokenReader}
    {headers others : Headers} {verify again : TokenVerifier Ledger}
    (hreads : aliases.Reads (reader headers) (fallback others))
    (hverifiers : aliases.Verifiers verify again) :
    aliases.Worlds ((Occurrence.examine reader headers verify).run world).2
      ((Occurrence.examine fallback others again).run other).2 := by
  have houtcomes := outcomes_isAuthenticated hreads hverifiers hworlds
  rcases hrun : (Check.isAuthenticated reader verify headers).run world with ⟨answer, after⟩
  rcases hagain : (Check.isAuthenticated fallback again others).run other with ⟨repeated, later⟩
  rw [hrun, hagain] at houtcomes
  rw [Occurrence.examine_of_run hrun, Occurrence.examine_of_run hagain,
    ← houtcomes.worlds.journal, ← hworlds.journal]
  exact houtcomes.worlds.file (.check _ hreads houtcomes.answers)

mutual

theorem worlds_run [Url.International] {occurrence renamed : Occurrence}
    (hoccurs : aliases.Occurs occurrence renamed) {world other : World Ledger}
    (hworlds : aliases.Worlds world other) :
    aliases.Worlds (occurrence.run.run world).2 (renamed.run.run other).2 := by
  cases hoccurs with
  | login authenticator transport attempt =>
      exact worlds_attend hworlds authenticator transport attempt
  | check hreads hduring hverifies =>
      exact worlds_examine hworlds hreads
        (verifiers_conducted (fun hworlds => worlds_runAll hduring hworlds) hverifies)
  | setClocks clocks => exact hworlds.setClocks clocks
  | sweep => exact hworlds.sweep

theorem worlds_runAll [Url.International] {occurrences renamed : List Occurrence}
    (hoccurs : aliases.OccursAll occurrences renamed) {world other : World Ledger}
    (hworlds : aliases.Worlds world other) :
    aliases.Worlds ((Occurrence.runAll occurrences).run world).2
      ((Occurrence.runAll renamed).run other).2 := by
  cases hoccurs with
  | nil => exact hworlds
  | cons hfirst hrest => exact worlds_runAll hrest (worlds_run hfirst hworlds)

end

end

/-- A run shows its tokens by their fingerprints only.  In a run with other tokens of the same
fingerprints, as many of them and in the same places, with verifiers that give the same expiries and
kinds of refusals, the same is reported: all spans, events and counters, with all that is in them
and in their order.  Each check comes to the answer of its counterpart, with the other token, and
the verifiers are asked in the same order. -/
theorem same_reports_of_same_fingerprints [Url.International] {aliases : Aliases}
    {occurrences renamed : List Occurrence} (hoccurs : aliases.OccursAll occurrences renamed)
    {store other : Store} (hstores : aliases.Stores store other) (clocks : Clocks) :
    let after := ((Occurrence.runAll occurrences).run ⟨store, clocks, [], .blank⟩).2
    let later := ((Occurrence.runAll renamed).run ⟨other, clocks, [], .blank⟩).2
    after.journal = later.journal ∧
      List.Forall₂ aliases.Receipts after.outside.receipts later.outside.receipts ∧
      List.Forall₂ aliases.tokens after.outside.asked later.outside.asked := by
  have hworlds : aliases.Worlds ⟨store, clocks, [], .blank⟩ ⟨other, clocks, [], .blank⟩ :=
    ⟨hstores, rfl, rfl, .nil, .nil⟩
  have hafter := worlds_runAll hoccurs hworlds
  exact ⟨hafter.journal, hafter.receipts, hafter.asked⟩

/-!
Two tokens with one fingerprint: there are more tokens than fingerprints.  Each is presented
twice, and the second time it is found.
-/

theorem exists_same_fingerprint :
    exists one other : BearerToken, one ≠ other ∧ one.fingerprint = other.fingerprint := by
  have hbytes : Finite UInt8 := Finite.of_injective UInt8.toFin fun _ _ h => UInt8.toFin_inj.mp h
  have hprints : Finite { print : List UInt8 | print.length ≤ BearerToken.fingerprintLength } :=
    (List.finite_length_le UInt8 BearerToken.fingerprintLength).to_subtype
  let long (length : Nat) : BearerToken := ⟨String.ofList (List.replicate length 'a')⟩
  let print (length : Nat) :
      { print : List UInt8 | print.length ≤ BearerToken.fingerprintLength } :=
    ⟨(Base64.encode Base64.standard (Sha2.sha256 (Utf8.encode (long length).value))).take
      BearerToken.fingerprintLength, List.length_take_le _ _⟩
  rcases Finite.exists_ne_map_eq_of_infinite print with ⟨one, other, hne, hprint⟩
  refine ⟨long one, long other, ?_, ?_⟩
  · intro hsame
    have hlists := congrArg (fun token => token.value.toList.length) hsame
    simp [long] at hlists
    exact hne hlists
  · exact congrArg Base64.asText (congrArg Subtype.val hprint)

def between (one other : BearerToken) (hprint : one.fingerprint = other.fingerprint) : Aliases where
  tokens token renamed := token = one ∧ renamed = other
  refusals := Eq
  injective := by
    rintro _ _ _ _ ⟨rfl, rfl⟩ ⟨rfl, rfl⟩
    exact ⟨fun _ => rfl, fun _ => rfl⟩
  fingerprint := by
    rintro _ _ ⟨rfl, rfl⟩
    exact hprint
  kind := fun hsame => congrArg Refusal.kind hsame

def presentedTwice (token : BearerToken) : List Occurrence :=
  [.check (fun _ => .ok token) [] [.sweep] (.ok Claims.none),
    .check (fun _ => .ok token) [] [] (.error ⟨.internal, "unreachable", none⟩)]

attribute [local instance] Url.International.bookshop

def reportOf (occurrences : List Occurrence) : Journal :=
  ((Occurrence.runAll occurrences).run ⟨.empty none, ⟨0, 0⟩, [], .blank⟩).2.journal

theorem same_reports_of_same_fingerprints_twice :
    exists one other, one ≠ other ∧ one.fingerprint = other.fingerprint ∧
      reportOf (presentedTwice one) = reportOf (presentedTwice other) := by
  rcases exists_same_fingerprint with ⟨one, other, hne, hprint⟩
  have hoccurs : (between one other hprint).OccursAll (presentedTwice one)
      (presentedTwice other) :=
    .cons (.check (.ok ⟨rfl, rfl⟩) (.cons .sweep .nil) (.ok rfl))
      (.cons (.check (.ok ⟨rfl, rfl⟩) .nil (.error rfl)) .nil)
  have hstores : (between one other hprint).Stores (.empty none) (.empty none) := ⟨rfl, .nil⟩
  have hreports := same_reports_of_same_fingerprints hoccurs hstores ⟨0, 0⟩
  exact ⟨one, other, hne, hprint, hreports.left⟩

end Aliases
end Gatekeeper
