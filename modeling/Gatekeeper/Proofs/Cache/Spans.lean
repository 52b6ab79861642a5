import Gatekeeper.Proofs.Cache.EntryLemmas

/-!
# Spans in 64-bit words

Times are 64-bit words, and an entry keeps the span from a reading to an expiry.
Subtraction of words wraps, so a span is refused where it leaves their range.  This
module computes the span in words and shows that an entry has it exactly, at both
ends of the range and across zero, which stands for a token that does not expire.
-/

namespace Gatekeeper

/-!
# Words
-/

namespace Word

/-- A difference leaves the range when the signs of the two words differ and the wrapped difference
does not have that of the first. -/
def subtractionWraps (a b : Int64) : Bool :=
  decide (a < 0) != decide (b < 0) && decide (a - b < 0) != decide (a < 0)

def checkedSub (a b : Int64) : Option Int64 :=
  if subtractionWraps a b then none else some (a - b)

def unsigned? (word : Int64) : Option UInt64 :=
  if 0 ≤ word then some word.toUInt64 else none

def span? (expiry now : Int64) : Option UInt64 := do
  let difference ← checkedSub expiry now
  (unsigned? difference).filter fun span => 0 < span

theorem subtractionWraps_iff {a b : Int64} :
    subtractionWraps a b = true <->
      a.toInt - b.toInt < -0x8000000000000000 ∨ 0x8000000000000000 ≤ a.toInt - b.toInt := by
  have ha := a.toInt_lt
  have ha' := a.le_toInt
  have hb := b.toInt_lt
  have hb' := b.le_toInt
  have hwrapped := Int64.toInt_sub a b
  -- The difference of two words is off their range by less than its size, so it wraps once at most.
  rw [Int.bmod_def] at hwrapped
  simp only [subtractionWraps, Bool.and_eq_true, bne_iff_ne, ne_eq, decide_eq_decide,
    Int64.lt_iff_toInt_lt, Int64.toInt_zero]
  omega

theorem toInt_sub_of_not_wraps {a b : Int64} (hfits : ¬subtractionWraps a b = true) :
    (a - b).toInt = a.toInt - b.toInt := by
  rw [subtractionWraps_iff] at hfits
  rw [Int64.toInt_sub, Int.bmod_def]
  omega

theorem checkedSub_eq_some_iff {a b difference : Int64} :
    checkedSub a b = some difference <-> difference.toInt = a.toInt - b.toInt := by
  unfold checkedSub
  by_cases hwraps : subtractionWraps a b = true
  · rw [if_pos hwraps]
    rw [subtractionWraps_iff] at hwraps
    have hlow := difference.le_toInt
    have hhigh := difference.toInt_lt
    constructor
    · intro hdifference
      cases hdifference
    · intro hdifference
      omega
  · rw [if_neg hwraps, Option.some_inj, ← toInt_sub_of_not_wraps hwraps, Int64.toInt_inj]
    exact eq_comm

theorem toNat_toUInt64 {word : Int64} (hnonneg : 0 ≤ word) :
    (word.toUInt64.toNat : Int) = word.toInt := by
  rw [Int64.toNat_toUInt64_of_le hnonneg, ← Int64.toNat_toInt]
  rw [Int64.le_iff_toInt_le, Int64.toInt_zero] at hnonneg
  exact Int.toNat_of_nonneg hnonneg

theorem unsigned?_eq_some_iff {word : Int64} {unsigned : UInt64} :
    unsigned? word = some unsigned <-> (unsigned.toNat : Int) = word.toInt := by
  unfold unsigned?
  by_cases hnonneg : 0 ≤ word
  · rw [if_pos hnonneg, Option.some_inj, ← toNat_toUInt64 hnonneg, Int.natCast_inj,
      UInt64.toNat_inj]
    exact eq_comm
  · rw [if_neg hnonneg]
    rw [Int64.le_iff_toInt_le, Int64.toInt_zero] at hnonneg
    constructor
    · intro hunsigned
      cases hunsigned
    · intro hunsigned
      omega

theorem span?_eq_some_iff {expiry now : Int64} {span : UInt64} :
    span? expiry now = some span <->
      0 < span.toNat ∧ (span.toNat : Int) ≤ Verifier.mostTime ∧
        (span.toNat : Int) = expiry.toInt - now.toInt := by
  have hmost : Verifier.mostTime = 0x7fffffffffffffff := rfl
  have hzero : (0 : UInt64).toNat = 0 := rfl
  simp only [span?, Option.bind_eq_bind, Option.bind_eq_some_iff, Option.filter_eq_some_iff,
    checkedSub_eq_some_iff, unsigned?_eq_some_iff, decide_eq_true_eq, UInt64.lt_iff_toNat_lt, hzero]
  constructor
  · intro hspan
    rcases hspan with ⟨difference, hdifference, hunsigned, hpos⟩
    have hhigh := difference.toInt_lt
    exact ⟨hpos, by omega, by omega⟩
  · intro hspan
    rcases hspan with ⟨hpos, hfits, hspan⟩
    have hword : (Int64.ofInt span.toNat).toInt = span.toNat :=
      Int64.toInt_ofInt_of_le (by omega) (by omega)
    exact ⟨Int64.ofInt span.toNat, by omega, by omega, hpos⟩

end Word

/-!
# Entries
-/

namespace Entry

def ofSpan (expiry : Int64) (span : UInt64) : Entry :=
  ⟨expiry.toInt, some span.toNat⟩

variable {expiry now : Int64} {entry : Entry}

theorem expiringAt_eq_map_span (expiry now : Int64) :
    expiringAt expiry.toInt now.toInt = (Word.span? expiry now).map (ofSpan expiry) := by
  have hmost : Verifier.mostTime = 0x7fffffffffffffff := rfl
  have hsize : UInt64.size = 0x10000000000000000 := rfl
  apply Option.ext
  intro entry
  simp only [Option.map_eq_some_iff, expiringAt_eq_some_iff, Word.span?_eq_some_iff]
  constructor
  · intro hentry
    rcases hentry with ⟨hpos, hfits, hentry⟩
    have hword : (UInt64.ofNat (expiry.toInt - now.toInt).toNat).toNat =
        (expiry.toInt - now.toInt).toNat :=
      UInt64.toNat_ofNat_of_lt' (by omega)
    refine ⟨UInt64.ofNat (expiry.toInt - now.toInt).toNat, ?_, ?_⟩
    · rw [hword]
      omega
    · rw [hentry, ofSpan, hword]
  · intro hentry
    rcases hentry with ⟨span, ⟨hpos, hfits, hspan⟩, hentry⟩
    refine ⟨by omega, by omega, ?_⟩
    rw [← hentry, ofSpan, ← hspan, Int.toNat_natCast]

theorem expiringAt_isSome_iff :
    (expiringAt expiry.toInt now.toInt).isSome = true <->
      now < expiry ∧ expiry.toInt - now.toInt ≤ Verifier.mostTime := by
  simp only [Option.isSome_iff_exists, expiringAt_eq_some_iff, Int64.lt_iff_toInt_lt]
  constructor
  · intro hentry
    rcases hentry with ⟨entry, hpos, hfits, _⟩
    exact ⟨by omega, hfits⟩
  · intro hlater
    exact ⟨_, by omega, hlater.right, rfl⟩

theorem lifetime_of_expiringAt (hentry : expiringAt expiry.toInt now.toInt = some entry) :
    exists span : UInt64, entry.lifetime = some span.toNat ∧ 1 ≤ span.toNat ∧
      (span.toNat : Int) = expiry.toInt - now.toInt := by
  rw [expiringAt_eq_map_span, Option.map_eq_some_iff] at hentry
  rcases hentry with ⟨span, hspan, hentry⟩
  rcases Word.span?_eq_some_iff.mp hspan with ⟨hpos, _, hexact⟩
  exact ⟨span, by rw [← hentry]; rfl, hpos, hexact⟩

theorem isValidAt_of_expiringAt (hentry : expiringAt expiry.toInt now.toInt = some entry)
    (time : Int64) : entry.isValidAt time.toInt = true <-> expiry = 0 ∨ time < expiry := by
  rcases expiringAt_eq_some_iff.mp hentry with ⟨_, _, hentry⟩
  rw [hentry, isValidAt_iff, Int64.lt_iff_toInt_lt, ← Int64.toInt_inj, Int64.toInt_zero]

/-- Every later expiry has an entry, which stays for the span up to it and is valid before it and no
longer. -/
structure IsExact (expiry now : Int64) : Prop where
  entry : (expiringAt expiry.toInt now.toInt).isSome = true <-> now < expiry
  lifetime : forall entry, expiringAt expiry.toInt now.toInt = some entry ->
    exists span : UInt64, entry.lifetime = some span.toNat ∧ 1 ≤ span.toNat ∧
      (span.toNat : Int) = expiry.toInt - now.toInt
  valid : forall entry, expiringAt expiry.toInt now.toInt = some entry ->
    forall time : Int64, entry.isValidAt time.toInt = true <-> time < expiry

theorem isExact_iff :
    IsExact expiry now <->
      (now < expiry -> expiry ≠ 0 ∧ expiry.toInt - now.toInt ≤ Verifier.mostTime) := by
  constructor
  · intro hexact hlater
    have hsome := hexact.entry.mpr hlater
    refine ⟨?_, (expiringAt_isSome_iff.mp hsome).right⟩
    intro hzero
    rcases Option.isSome_iff_exists.mp hsome with ⟨entry, hentry⟩
    have hvalid := (isValidAt_of_expiringAt hentry expiry).mpr (Or.inl hzero)
    exact Int64.lt_irrefl ((hexact.valid entry hentry expiry).mp hvalid)
  · intro hordinary
    constructor
    · rw [expiringAt_isSome_iff]
      exact ⟨And.left, fun hlater => ⟨hlater, (hordinary hlater).right⟩⟩
    · intro entry hentry
      exact lifetime_of_expiringAt hentry
    · intro entry hentry time
      have hlater := (expiringAt_isSome_iff.mp (Option.isSome_of_eq_some hentry)).left
      rw [isValidAt_of_expiringAt hentry time]
      exact or_iff_right (hordinary hlater).left

theorem isExact_of_claims {claims : Claims} (hexpiry : claims.expiresAt = some expiry.toInt)
    (hnow : 0 ≤ now) : IsExact expiry now := by
  have hmost : Verifier.mostTime = 0x7fffffffffffffff := rfl
  have hhigh := expiry.toInt_lt
  rw [Int64.le_iff_toInt_le, Int64.toInt_zero] at hnow
  rw [isExact_iff]
  intro _
  refine ⟨?_, by omega⟩
  intro hzero
  rw [hzero] at hexpiry
  exact Claims.expiresAt_ne_zero hexpiry rfl

/-- A token has an entry exactly if it expires after `now`, within a span that a signed word holds.
The entry stays for that span to the second.  It is valid at all times before the expiry and at no
others, but at all times if the expiry is the zero that stands for none.  Words compute the same. -/
theorem expiringAt_within_words (expiry now : Int64) :
    expiringAt expiry.toInt now.toInt = (Word.span? expiry now).map (ofSpan expiry) ∧
      ((expiringAt expiry.toInt now.toInt).isSome = true <->
        now < expiry ∧ expiry.toInt - now.toInt ≤ Verifier.mostTime) ∧
      forall entry, expiringAt expiry.toInt now.toInt = some entry ->
        (exists span : UInt64, entry.lifetime = some span.toNat ∧ 1 ≤ span.toNat ∧
          (span.toNat : Int) = expiry.toInt - now.toInt) ∧
        forall time : Int64, entry.isValidAt time.toInt = true <-> expiry = 0 ∨ time < expiry := by
  refine ⟨expiringAt_eq_map_span expiry now, expiringAt_isSome_iff, ?_⟩
  intro entry hentry
  exact ⟨lifetime_of_expiringAt hentry, isValidAt_of_expiringAt hentry⟩

theorem expiringAt_within_words_longest :
    expiringAt Int64.maxValue.toInt (0 : Int64).toInt =
        some ⟨0x7fffffffffffffff, some 0x7fffffffffffffff⟩ ∧
      isValidAt ⟨0x7fffffffffffffff, some 0x7fffffffffffffff⟩ (Int64.maxValue - 1).toInt = true ∧
      ¬isValidAt ⟨0x7fffffffffffffff, some 0x7fffffffffffffff⟩ Int64.maxValue.toInt = true := by
  have hentry : expiringAt Int64.maxValue.toInt (0 : Int64).toInt =
      some ⟨0x7fffffffffffffff, some 0x7fffffffffffffff⟩ := by
    decide
  rcases (expiringAt_within_words Int64.maxValue 0).right.right _ hentry with ⟨_, hvalid⟩
  refine ⟨hentry, (hvalid (Int64.maxValue - 1)).mpr (Or.inr (by decide)), ?_⟩
  intro hlast
  rcases (hvalid Int64.maxValue).mp hlast with hzero | hlater
  · exact absurd hzero (by decide)
  · exact Int64.lt_irrefl hlater

/-- A span one second too long has no entry, and an entry made for the expiry zero is valid long
after it. -/
theorem not_isExact_beyond_words :
    (-1 < Int64.maxValue ∧ expiringAt 0x7fffffffffffffff (-1) = none ∧
        ¬IsExact Int64.maxValue (-1)) ∧
      expiringAt 0 (-1) = some ⟨0, some 1⟩ ∧ isValidAt ⟨0, some 1⟩ 5 = true ∧ ¬IsExact 0 (-1) := by
  refine ⟨⟨by decide, by decide, ?_⟩, by decide, by decide, ?_⟩
  · intro hexact
    exact absurd (isExact_iff.mp hexact (by decide)).right (by decide)
  · intro hexact
    exact (isExact_iff.mp hexact (by decide)).left rfl

end Entry
end Gatekeeper
