import Gatekeeper.Proofs.Cache.EntryLemmas
import Gatekeeper.Proofs.Cache.Stages
import Gatekeeper.Proofs.Cache.StoreLemmas

/-!
# Where entries and answers come from

However checks interleave, an entry of the store was written by a check of its
own token after the verifier had accepted that token, and a check answers with a
token only if its request carried the token and the verifier has accepted it.
The evidence is in the history of the run: what must have happened stands there
in its order.
-/

namespace Gatekeeper
namespace Check

/-- The check read its token, then the time, and `later` happened after that in its order. -/
def Told (history : List Happening) (check : Nat) (token : BearerToken) (now : Int)
    (later : List Happening) : Prop :=
  exists (reader : TokenReader) (headers : Headers),
    reader headers = .ok token ∧
      (Happening.began check reader headers :: .timed check now :: later).Sublist history

/-- A check of the token was told by the verifier that the token is good, and then wrote the
entry. -/
def Vouched (history : List Happening) (token : BearerToken) (entry : Entry) : Prop :=
  exists check now claims,
    Told history check token now
      [.verified check token (.ok claims), .kept check token entry] ∧
    Entry.Grants claims now entry

/-- The check read the token, and before its answer the verifier told it or another check of the
token that the token is good, with claims that outlast both. -/
def Justified (history : List Happening) (check : Nat) (token : BearerToken) : Prop :=
  exists now,
    Told history check token now [.answered check (.ok (some token))] ∧
      exists asker earlier claims,
        Told history asker token earlier
          [.verified asker token (.ok claims), .answered check (.ok (some token))] ∧
        claims.Outlasts earlier ∧ claims.Outlasts now

/-!
# Histories grow
-/

theorem Told.append {history later : List Happening} {check : Nat} {token : BearerToken}
    {now : Int} (htold : Told history check token now later) (more : List Happening) :
    Told (history ++ more) check token now later := by
  rcases htold with ⟨reader, headers, hread, hsub⟩
  exact ⟨reader, headers, hread, List.sublist_append_of_sublist_left hsub⟩

theorem Told.snoc {history later : List Happening} {check : Nat} {token : BearerToken}
    {now : Int} (htold : Told history check token now later)
    {more last : List Happening} (hlast : last.Sublist more) :
    Told (history ++ more) check token now (later ++ last) := by
  rcases htold with ⟨reader, headers, hread, hsub⟩
  exact ⟨reader, headers, hread, by simpa using hsub.append hlast⟩

theorem Told.take {history later rest : List Happening} {check : Nat} {token : BearerToken}
    {now : Int} (htold : Told history check token now (later ++ rest)) :
    Told history check token now later := by
  rcases htold with ⟨reader, headers, hread, hsub⟩
  refine ⟨reader, headers, hread, List.Sublist.trans ?_ hsub⟩
  simp

theorem Vouched.append {history : List Happening} {token : BearerToken} {entry : Entry}
    (hvouched : Vouched history token entry) (more : List Happening) :
    Vouched (history ++ more) token entry := by
  rcases hvouched with ⟨check, now, claims, htold, hgrants⟩
  exact ⟨check, now, claims, htold.append more, hgrants⟩

theorem Justified.append {history : List Happening} {check : Nat} {token : BearerToken}
    (hjustified : Justified history check token) (more : List Happening) :
    Justified (history ++ more) check token := by
  rcases hjustified with ⟨now, htold, asker, earlier, claims, hasked, houtlasts⟩
  exact ⟨now, htold.append more, asker, earlier, claims, hasked.append more, houtlasts⟩

/-!
# Stages

What a check has behind it at each stage.
-/

namespace Stage

def Sound (history : List Happening) (check : Nat) : Stage → Prop
  | reading reader headers => Happening.began check reader headers ∈ history
  | timing token =>
    exists (reader : TokenReader) (headers : Headers),
      reader headers = .ok token ∧ Happening.began check reader headers ∈ history
  | lookingUp token now => Told history check token now []
  | discarding token now => Told history check token now []
  | asking token now => Told history check token now []
  | keeping token entry =>
    exists now claims,
      Told history check token now [.verified check token (.ok claims)] ∧
        Entry.ofClaims claims now = some entry
  | done answer => Happening.answered check answer ∈ history

theorem Sound.append {history : List Happening} {check : Nat} {stage : Stage}
    (hsound : stage.Sound history check) (more : List Happening) :
    stage.Sound (history ++ more) check := by
  cases stage with
  | reading reader headers => exact List.mem_append_left more hsound
  | timing token =>
      rcases hsound with ⟨reader, headers, hread, hbegan⟩
      exact ⟨reader, headers, hread, List.mem_append_left more hbegan⟩
  | lookingUp token now => exact Told.append hsound more
  | discarding token now => exact Told.append hsound more
  | asking token now => exact Told.append hsound more
  | keeping token entry =>
      rcases hsound with ⟨now, claims, htold, hentry⟩
      exact ⟨now, claims, htold.append more, hentry⟩
  | done answer => exact List.mem_append_left more hsound

end Stage

theorem justified_of_hit {history : List Happening} {check : Nat} {token : BearerToken}
    {now : Int} {entry : Entry} (htold : Told history check token now [])
    (hvouched : Vouched history token entry) (hvalid : entry.isValidAt now = true) :
    Justified (history ++ [.answered check (.ok (some token))]) check token := by
  rcases hvouched with ⟨asker, earlier, claims, hasked, hgrants⟩
  have hverified : Told history asker token earlier [.verified asker token (.ok claims)] :=
    Told.take hasked
  exact ⟨now, htold.snoc (List.Sublist.refl _), asker, earlier, claims,
    hverified.snoc (List.Sublist.refl _), hgrants.outlasts,
    hgrants.outlasts_of_isValidAt hvalid⟩

theorem vouched_and_justified_of_keeping {history : List Happening} {check : Nat}
    {token : BearerToken} {now : Int} {claims : Claims} {entry : Entry}
    (htold : Told history check token now [.verified check token (.ok claims)])
    (hentry : Entry.ofClaims claims now = some entry) :
    Vouched (history ++ [.kept check token entry, .answered check (.ok (some token))])
        token entry ∧
      Justified (history ++ [.kept check token entry, .answered check (.ok (some token))])
        check token := by
  have hgrants := Entry.grants_of_ofClaims hentry
  have hstart : Told history check token now [] := Told.take htold
  constructor
  · exact ⟨check, now, claims, htold.snoc (by simp), hgrants⟩
  · exact ⟨now, hstart.snoc (by simp), check, now, claims, htold.snoc (by simp),
      hgrants.outlasts, hgrants.outlasts⟩

/-!
# Steps
-/

namespace Crowd

structure Sound (crowd : Crowd σ) : Prop where
  stages : forall (check : Nat) (stage : Stage),
    crowd.checks[check]? = some stage -> stage.Sound crowd.history check
  entries : forall token slot,
    (token, slot) ∈ crowd.world.store.slots -> Vouched crowd.history token slot.entry
  answers : forall check token,
    Happening.answered check (.ok (some token)) ∈ crowd.history ->
      Justified crowd.history check token

theorem sound_empty (world : World σ) (capacity : Option Nat) :
    (empty world capacity).Sound where
  stages := by
    intro check stage hstage
    cases hstage
  entries := by
    intro token slot hmem
    cases hmem
  answers := by
    intro check token hmem
    cases hmem

/-- An operation keeps a run sound if the stage it leads to is sound, and if what it writes and
answers has its evidence. -/
theorem Sound.proceed {crowd : Crowd σ} (hsound : crowd.Sound) {check : Nat}
    {operation : StateM (World σ) Stage} {happenings : Stage → List Happening}
    (stage : Stage) (world : World σ) (hrun : operation.run crowd.world = (stage, world))
    (hstage : stage.Sound (crowd.history ++ happenings stage) check)
    (hentries : forall token slot, (token, slot) ∈ world.store.slots ->
      (token, slot) ∈ crowd.world.store.slots ∨
        Vouched (crowd.history ++ happenings stage) token slot.entry)
    (hanswers : forall other token,
      Happening.answered other (.ok (some token)) ∈ happenings stage ->
        Justified (crowd.history ++ happenings stage) other token) :
    (crowd.proceed check operation happenings).Sound := by
  unfold Crowd.proceed
  rw [hrun]
  refine ⟨?_, ?_, ?_⟩
  · intro other found hfound
    by_cases hother : check = other
    · rw [← hother] at hfound ⊢
      have hfound : found = stage := by
        rw [List.getElem?_set] at hfound
        by_cases hlength : check < crowd.checks.length
        · simpa [hlength, eq_comm] using hfound
        · simp [hlength] at hfound
      rw [hfound]
      exact hstage
    · rw [List.getElem?_set_ne hother] at hfound
      exact (hsound.stages other found hfound).append _
  · intro token slot hmem
    cases hentries token slot hmem with
    | inl hold => exact (hsound.entries token slot hold).append _
    | inr hnew => exact hnew
  · intro other token hmem
    cases List.mem_append.mp hmem with
    | inl hold => exact (hsound.answers other token hold).append _
    | inr hnew => exact hanswers other token hnew

theorem Sound.proceed_silently {crowd : Crowd σ} (hsound : crowd.Sound) {check : Nat}
    {operation : StateM (World σ) Stage} {happenings : Stage → List Happening}
    (stage : Stage) (world : World σ) (hrun : operation.run crowd.world = (stage, world))
    (hstage : stage.Sound (crowd.history ++ happenings stage) check)
    (hslots : forall slot, slot ∈ world.store.slots -> slot ∈ crowd.world.store.slots)
    (hanswers : forall other token,
      Happening.answered other (.ok (some token)) ∉ happenings stage) :
    (crowd.proceed check operation happenings).Sound := by
  apply hsound.proceed stage world hrun hstage
  · intro token slot hmem
    exact Or.inl (hslots (token, slot) hmem)
  · intro other token hmem
    exact absurd hmem (hanswers other token)

theorem Sound.advance_reading {crowd : Crowd σ} (hsound : crowd.Sound) {check : Nat}
    {reader : TokenReader} {headers : Headers}
    (hbegan : Happening.began check reader headers ∈ crowd.history) :
    (crowd.proceed check (Stage.reading reader headers).advance
      ((Stage.reading reader headers).happenings check)).Sound := by
  cases hread : reader headers with
  | ok token =>
      apply hsound.proceed_silently (.timing token) crowd.world
      · simp only [Stage.advance, hread]
        rfl
      · exact ⟨reader, headers, hread, List.mem_append_left _ hbegan⟩
      · intro slot hmem
        exact hmem
      · simp [Stage.happenings]
  | error fault =>
      cases fault with
      | noToken =>
          apply hsound.proceed_silently (.done (.ok none)) crowd.world
          · simp only [Stage.advance, hread]
            rfl
          · simp [Stage.Sound, Stage.happenings]
          · intro slot hmem
            exact hmem
          · simp [Stage.happenings]
      | malformed reason =>
          apply hsound.proceed_silently (.done (.error (.tokenRead (.malformed reason)))) _
          · simp only [Stage.advance, hread]
            rfl
          · simp [Stage.Sound, Stage.happenings]
          · intro slot hmem
            exact hmem
          · simp [Stage.happenings]
      | backend cause =>
          apply hsound.proceed_silently (.done (.error (.tokenRead (.backend cause)))) _
          · simp only [Stage.advance, hread]
            rfl
          · simp [Stage.Sound, Stage.happenings]
          · intro slot hmem
            exact hmem
          · simp [Stage.happenings]

theorem Sound.advance_lookingUp {crowd : Crowd σ} (hsound : crowd.Sound) {check : Nat}
    {token : BearerToken} {now : Int} (htold : Told crowd.history check token now []) :
    (crowd.proceed check (Stage.lookingUp token now).advance
      ((Stage.lookingUp token now).happenings check)).Sound := by
  cases hlookup : lookup crowd.world.store crowd.world.clocks.eviction token now with
  | hit =>
      rcases exists_mem_of_lookup_eq_hit hlookup with ⟨slot, hmem, hvalid⟩
      have hvouched := hsound.entries token slot hmem
      apply hsound.proceed _ _ (Stage.advance_lookingUp_run hlookup)
      · simp [Stage.Sound, Stage.happenings]
      · intro other slot hmem
        exact Or.inl hmem
      · intro other answered hmem
        simp only [Stage.happenings, List.mem_singleton, Happening.answered.injEq,
          Except.ok.injEq, Option.some.injEq] at hmem
        rw [hmem.left, hmem.right]
        exact justified_of_hit htold hvouched hvalid
  | stale =>
      apply hsound.proceed_silently _ _ (Stage.advance_lookingUp_run hlookup)
      · exact htold.append _
      · intro slot hmem
        exact hmem
      · simp [Stage.happenings]
  | miss =>
      apply hsound.proceed_silently _ _ (Stage.advance_lookingUp_run hlookup)
      · exact htold.append _
      · intro slot hmem
        exact hmem
      · simp [Stage.happenings]

theorem Sound.advance_keeping {crowd : Crowd σ} (hsound : crowd.Sound) {check : Nat}
    {token : BearerToken} {now : Int} {claims : Claims} {entry : Entry}
    (htold : Told crowd.history check token now [.verified check token (.ok claims)])
    (hentry : Entry.ofClaims claims now = some entry) :
    (crowd.proceed check (Stage.keeping token entry).advance
      ((Stage.keeping token entry).happenings check)).Sound := by
  have hnew := vouched_and_justified_of_keeping htold hentry
  apply hsound.proceed (.done (.ok (some token))) _
  · rfl
  · simp [Stage.Sound, Stage.happenings]
  · intro other slot hmem
    cases Store.mem_insert hmem with
    | inl hwritten =>
        rw [hwritten.left, hwritten.right]
        exact Or.inr hnew.left
    | inr hold => exact Or.inl hold
  · intro other answered hmem
    simp only [Stage.happenings, List.mem_cons, Happening.answered.injEq, Except.ok.injEq,
      Option.some.injEq, reduceCtorEq, List.not_mem_nil, false_or, or_false] at hmem
    rw [hmem.left, hmem.right]
    exact hnew.right

theorem Sound.advance {crowd : Crowd σ} (hsound : crowd.Sound) {check : Nat} {stage : Stage}
    (hfound : crowd.checks[check]? = some stage) :
    (crowd.proceed check stage.advance (stage.happenings check)).Sound := by
  have hstage := hsound.stages check stage hfound
  cases stage with
  | reading reader headers => exact hsound.advance_reading hstage
  | timing token =>
      rcases hstage with ⟨reader, headers, hread, hbegan⟩
      apply hsound.proceed_silently (.lookingUp token crowd.world.clocks.wall)
        crowd.world
      · rfl
      · exact ⟨reader, headers, hread,
          (List.singleton_sublist.mpr hbegan).append (List.Sublist.refl _)⟩
      · intro slot hmem
        exact hmem
      · simp [Stage.happenings]
  | lookingUp token now => exact hsound.advance_lookingUp hstage
  | discarding token now =>
      apply hsound.proceed_silently (.asking token now) _
      · rfl
      · exact Told.append hstage _
      · intro slot hmem
        exact (Store.mem_erase.mp hmem).left
      · simp [Stage.happenings]
  | asking token now =>
      apply hsound.proceed_silently (.asking token now) crowd.world
      · rfl
      · exact Told.append hstage _
      · intro slot hmem
        exact hmem
      · simp [Stage.happenings]
  | keeping token entry =>
      rcases hstage with ⟨now, claims, htold, hentry⟩
      exact hsound.advance_keeping htold hentry
  | done answer =>
      apply hsound.proceed_silently (.done answer) crowd.world
      · rfl
      · exact List.mem_append_left _ hstage
      · intro slot hmem
        exact hmem
      · simp [Stage.happenings]

theorem Sound.receive {crowd : Crowd σ} (hsound : crowd.Sound) {check : Nat}
    {token : BearerToken} {now : Int} (htold : Told crowd.history check token now [])
    (answer : Except Refusal Claims) :
    (crowd.proceed check (Stage.receive token now answer) fun stage =>
      .verified check token answer ::
        (Stage.asking token now).happenings check stage).Sound := by
  cases answer with
  | ok claims =>
      cases hentry : Entry.ofClaims claims now with
      | some entry =>
          apply hsound.proceed_silently (.keeping token entry) crowd.world
          · simp only [Stage.receive, verdict, hentry]
            rfl
          · exact ⟨now, claims, htold.snoc (List.Sublist.refl _), hentry⟩
          · intro slot hmem
            exact hmem
          · simp [Stage.happenings]
      | none =>
          apply hsound.proceed_silently (.done (.ok none)) crowd.world
          · simp only [Stage.receive, verdict, hentry]
            rfl
          · simp [Stage.Sound, Stage.happenings]
          · intro slot hmem
            exact hmem
          · simp [Stage.happenings]
  | error refusal =>
      by_cases hacceptable : refusal.isAcceptable = true
      · apply hsound.proceed_silently (.done (.ok none)) _
        · simp only [Stage.receive, verdict, if_pos hacceptable]
          rfl
        · simp [Stage.Sound, Stage.happenings]
        · intro slot hmem
          exact hmem
        · simp [Stage.happenings]
      · apply hsound.proceed_silently (.done (.error (.verification refusal)))
          crowd.world
        · simp only [Stage.receive, verdict, if_neg hacceptable]
          rfl
        · simp [Stage.Sound, Stage.happenings]
        · intro slot hmem
          exact hmem
        · simp [Stage.happenings]

theorem Sound.step {crowd : Crowd σ} (hsound : crowd.Sound) (move : Move) :
    (crowd.step move).Sound := by
  cases move with
  | start reader headers =>
      refine ⟨?_, ?_, ?_⟩
      · intro check stage hfound
        simp only [Crowd.step, List.getElem?_append] at hfound
        by_cases hlength : check < crowd.checks.length
        · rw [if_pos hlength] at hfound
          exact (hsound.stages check stage hfound).append _
        · rw [if_neg hlength, List.getElem?_singleton] at hfound
          by_cases hlast : check - crowd.checks.length = 0
          · rw [if_pos hlast] at hfound
            injection hfound with hstage
            have hcheck : check = crowd.checks.length := by omega
            rw [← hstage, hcheck]
            simp [Crowd.step, Stage.Sound]
          · rw [if_neg hlast] at hfound
            cases hfound
      · intro token slot hmem
        exact (hsound.entries token slot hmem).append _
      · intro check token hmem
        simp only [Crowd.step, List.mem_append, List.mem_singleton, reduceCtorEq,
          or_false] at hmem
        exact (hsound.answers check token hmem).append _
  | advance check =>
      cases hfound : crowd.checks[check]? with
      | none =>
          simp only [Crowd.step, hfound]
          exact hsound
      | some stage =>
          simp only [Crowd.step, hfound]
          exact hsound.advance hfound
  | answer check answer =>
      cases hfound : crowd.checks[check]? with
      | none =>
          simp only [Crowd.step, hfound]
          exact hsound
      | some stage =>
          cases stage with
          | asking token now =>
              simp only [Crowd.step, hfound]
              exact hsound.receive (hsound.stages check _ hfound) answer
          | _ =>
              simp only [Crowd.step, hfound]
              exact hsound
  | setClocks clocks => exact ⟨hsound.stages, hsound.entries, hsound.answers⟩
  | sweep =>
      refine ⟨hsound.stages, ?_, hsound.answers⟩
      intro token slot hmem
      exact hsound.entries token slot (Store.mem_of_mem_sweep hmem)
  | evict token =>
      refine ⟨hsound.stages, ?_, hsound.answers⟩
      intro other slot hmem
      exact hsound.entries other slot (Store.mem_erase.mp hmem).left

theorem Sound.run {crowd : Crowd σ} (hsound : crowd.Sound) (moves : List Move) :
    (crowd.run moves).Sound := by
  induction moves generalizing crowd with
  | nil => exact hsound
  | cons move rest ih => exact ih (hsound.step move)

/-- In every run, whatever comes between the operations of the checks: each entry of the store
was written by a check of its token that the verifier had told that the token is good, and each
check that is done and answered with a token had read that token, which the verifier had
accepted. -/
theorem entries_and_answers_have_evidence (world : World σ) (capacity : Option Nat)
    (moves : List Move) :
    (forall token slot,
      (token, slot) ∈ ((empty world capacity).run moves).world.store.slots ->
        Vouched ((empty world capacity).run moves).history token slot.entry) ∧
    (forall (check : Nat) (token : BearerToken),
      ((empty world capacity).run moves).checks[check]? =
          some (Stage.done (.ok (some token))) ->
        Justified ((empty world capacity).run moves).history check token) := by
  have hsound : ((empty world capacity).run moves).Sound :=
    (sound_empty world capacity).run moves
  constructor
  · exact hsound.entries
  · intro check token hfound
    exact hsound.answers check token (hsound.stages check _ hfound)

def overlap : List Move :=
  [.start (fun _ => .ok ⟨"t"⟩) [], .advance 0, .advance 0, .advance 0,
    .start (fun _ => .ok ⟨"t"⟩) [], .advance 1, .advance 1, .advance 1,
    .setClocks ⟨-5, 3⟩, .answer 0 (.ok { Claims.none with exp := some 10 }), .advance 0,
    .answer 1 (.error ⟨.expired, "", none⟩),
    .start (fun _ => .ok ⟨"t"⟩) [], .advance 2, .advance 2, .advance 2]

theorem entries_and_answers_have_evidence_overlap :
    (⟨"t"⟩, ⟨⟨10, some 10⟩, some 13⟩) ∈
        ((empty ⟨.empty none, ⟨0, 0⟩, [], ()⟩ none).run overlap).world.store.slots ∧
      ((empty ⟨.empty none, ⟨0, 0⟩, [], ()⟩ none).run overlap).checks[2]? =
        some (Stage.done (.ok (some ⟨"t"⟩))) ∧
      Vouched ((empty ⟨.empty none, ⟨0, 0⟩, [], ()⟩ none).run overlap).history ⟨"t"⟩
        ⟨10, some 10⟩ ∧
      Justified ((empty ⟨.empty none, ⟨0, 0⟩, [], ()⟩ none).run overlap).history 2 ⟨"t"⟩ := by
  have hslot : (⟨"t"⟩, ⟨⟨10, some 10⟩, some 13⟩) ∈
      ((empty ⟨.empty none, ⟨0, 0⟩, [], ()⟩ none).run overlap).world.store.slots :=
    List.Mem.head _
  have hdone : ((empty ⟨.empty none, ⟨0, 0⟩, [], ()⟩ none).run overlap).checks[2]? =
      some (Stage.done (.ok (some ⟨"t"⟩))) := rfl
  have hevidence := entries_and_answers_have_evidence ⟨.empty none, ⟨0, 0⟩, [], ()⟩ none overlap
  exact ⟨hslot, hdone, hevidence.left _ _ hslot, hevidence.right _ _ hdone⟩

end Crowd
end Check
end Gatekeeper
