import Gatekeeper.Proofs.Json.Printed
import Gatekeeper.Proofs.Json.Records

/-!
# Printed objects are read back as records

An object is printed member by member, each followed by a comma or the closing brace.
A record that can read the value of each member from its text reads the object, and
ends up with what the members put into it in their order.
-/

namespace Gatekeeper
namespace Json

open Reader Utf8

/-!
# The text of an object
-/

def membersText (isFirst : Bool) : List (String × Value) → List Char
  | [] => ['\x7d']
  | member :: rest => (if isFirst then [] else [',']) ++ membersChars (member :: rest)

theorem membersChars_eq (members : List (String × Value)) :
    membersChars members = membersText true members := by
  cases members with
  | nil => rw [membersChars, membersText]
  | cons member rest => rfl

theorem membersText_cons (isFirst : Bool) (key : String) (v : Value)
    (rest : List (String × Value)) :
    membersText isFirst ((key, v) :: rest) =
      (if isFirst then [] else [',']) ++
        (stringChars key ++ ':' :: (v.chars ++ membersText false rest)) := by
  cases rest with
  | nil => simp only [membersText, membersChars]
  | cons member rest => simp only [membersText, membersChars, Bool.false_eq_true, if_false,
      List.singleton_append]

def Stops (b : UInt8) : Prop :=
  b = 0x2C ∨ b = 0x7D

theorem Stops.ends {b : UInt8} (hstops : Stops b) : Numeral.Ends b := by
  rcases hstops with rfl | rfl
  · exact ⟨rfl, by decide, rfl⟩
  · exact ⟨rfl, by decide, rfl⟩

theorem exists_stop (members : List (String × Value)) (rest : List UInt8) :
    exists b more, encodeChars (membersText false members) ++ rest = b :: more ∧ Stops b := by
  cases members with
  | nil => exact ⟨0x7D, rest, rfl, Or.inr rfl⟩
  | cons member others => exact ⟨0x2C, _, rfl, Or.inl rfl⟩

/-!
# Values of members
-/

def Takes (reader : Reader α) (text : List Char) (a : α) : Prop :=
  forall b rest, Stops b -> reader (encodeChars text ++ b :: rest) = .ok a (b :: rest)

def Solid (text : List Char) : Prop :=
  exists b more, encodeChars text = b :: more ∧ Ascii.isBlank b = false ∧ b ≠ 0x6E

theorem takes_string (s : String) : Takes string (stringChars s) s := by
  intro b rest _
  exact string_printed s (b :: rest)

theorem solid_string (s : String) : Solid (stringChars s) :=
  ⟨0x22, _, rfl, rfl, by decide⟩

theorem takes_int64 {n : Int} (hleast : Number.leastInt64 ≤ n) (hmost : n ≤ Number.mostInt64) :
    Takes int64 (Number.integerChars n) n := by
  intro b rest hstops
  exact int64_printed hleast hmost hstops.ends rest

theorem solid_integer (n : Int) : Solid (Number.integerChars n) := by
  unfold Number.integerChars
  split
  · exact ⟨0x2D, _, rfl, rfl, by decide⟩
  · have hdigits : forall d, d ∈ Nat.toDigits 10 n.natAbs -> d.isDigit = true :=
      fun d => Numeral.isDigit_of_mem_toDigits
    rw [Solid, Numeral.encodeChars_digits hdigits]
    cases hcons : Nat.toDigits 10 n.natAbs with
    | nil => exact absurd hcons Nat.toDigits_ne_nil
    | cons d ds =>
        rw [hcons] at hdigits
        have hdigit := (Numeral.isDigit_byte (hdigits d List.mem_cons_self)).left
        refine ⟨_, _, rfl, (not_isBlank_of_isDigit hdigit).left, ?_⟩
        intro hnull
        rw [hnull] at hdigit
        cases hdigit

theorem Takes.optional {reader : Reader α} {text : List Char} {a : α}
    (htakes : Takes reader text a) (hsolid : Solid text) :
    Takes (Reader.optional reader) text (some a) := by
  intro b rest hstops
  have hread := htakes b rest hstops
  rcases hsolid with ⟨first, more, htext, hblank, hnull⟩
  rw [htext, List.cons_append] at hread ⊢
  rw [optional_eq, unblanked_cons hblank, List.head?_cons,
    if_neg (fun h => hnull (Option.some.inj h))]
  exact map_eq_ok.mpr ⟨a, hread, rfl⟩

theorem Takes.map {reader : Reader α} {text : List Char} {a : α} (htakes : Takes reader text a)
    (f : α → β) : Takes (f <$> reader) text (f a) := by
  intro b rest hstops
  exact map_eq_ok.mpr ⟨a, htakes b rest hstops, rfl⟩

theorem takes_value_string (depth : Nat) (s : String) :
    Takes (value depth) (stringChars s) (.string s) := by
  intro b rest hstops
  exact value_of_string depth (takes_string s b rest hstops)

theorem takes_value_integer (depth : Nat) {n : Int} (hleast : Number.leastInt64 ≤ n)
    (hmost : n ≤ Number.mostInt64) :
    Takes (value depth) (Number.integerChars n) (.number (.integer n)) := by
  intro b rest hstops
  have hread := (takes_int64 hleast hmost).optional (solid_integer n) b rest hstops
  exact value_of_optional_int64 depth hread

theorem Takes.skip {depth : Nat} {text : List Char} {v : Value}
    (htakes : Takes (value depth) text v) : Takes Reader.skip text () := by
  intro b rest hstops
  exact skip_of_value (htakes b rest hstops)

theorem Takes.memberValue {reader : Reader α} {text : List Char} {a : α}
    (htakes : Takes reader text a) (key : String) :
    Takes (Reader.memberValue key reader) (':' :: text) a := by
  intro b rest hstops
  have hcolon : colon (0x3A :: (encodeChars text ++ b :: rest)) =
      .ok () (encodeChars text ++ b :: rest) := rfl
  have hread : (colon >>= fun _ => within (.key key) reader)
      (0x3A :: (encodeChars text ++ b :: rest)) = .ok a (b :: rest) := by
    rw [bind_of_ok hcolon]
    exact within_eq_ok.mpr (htakes b rest hstops)
  exact hread

/-!
# Keys
-/

theorem nextKey_comma {tail quoted rest : List UInt8} {key : String} {input : List UInt8}
    (hinput : unblanked input = 0x2C :: tail) (hquoted : unblanked tail = 0x22 :: quoted)
    (hkey : stringTail quoted = .ok key rest) :
    nextKey false input = .ok (some key) rest := by
  apply within_eq_ok.mpr
  have hmore : moreMembers false input = .ok true (0x22 :: quoted) := by
    unfold moreMembers
    rw [next_bind, hinput]
    show (advance 1 >>= fun _ => _) (0x2C :: tail) = _
    rw [advance_bind, next_bind, hquoted]
    rfl
  rw [bind_of_ok hmore]
  simp only [if_true]
  rw [advance_bind, bind_of_ok hkey]
  rfl

theorem nextKey_printed (isFirst : Bool) (key : String) (rest : List UInt8) :
    nextKey isFirst (encodeChars ((if isFirst then [] else [',']) ++ stringChars key) ++ rest) =
      .ok (some key) rest := by
  have hkey := stringTail_printed key rest
  have hquoted := encodeChars_stringChars key rest
  cases isFirst with
  | true =>
      rw [if_pos rfl, List.nil_append, hquoted]
      exact nextKey_first rfl hkey
  | false =>
      rw [if_neg (by decide), List.singleton_append, encodeChars_cons, List.append_assoc, hquoted]
      exact nextKey_comma rfl rfl hkey

theorem keys_sublist {name : String} {print : α → Value} (a? : Option α) :
    ((a?.map fun a => (name, print a)).toList.map Prod.fst).Sublist [name] := by
  cases a? with
  | none => exact List.nil_sublist _
  | some a => exact List.Sublist.refl _

/-!
# Members that fill a record
-/

namespace Record

variable {σ : Type}

/-- The members, read in their order from what is printed of them, bring the record from one state
to another. -/
inductive Fills (record : Record σ) (depth : Nat) : List (String × Value) → σ → σ → Prop
  | nil {state : σ} : Fills record depth [] state state
  | known {key : String} {v : Value} {m : Member σ} {put : σ → σ}
      {members : List (String × Value)} {state filled : σ} (hfind : record.find? key = some m)
      (htakes : Takes (m.read depth) v.chars put)
      (hrest : Fills record depth members (put state) filled) :
      Fills record depth ((key, v) :: members) state filled
  | passed {key : String} {v : Value} {members : List (String × Value)} {state filled : σ}
      (hfind : record.find? key = none) (htakes : Takes Reader.skip v.chars ())
      (hrest : Fills record depth members state filled) :
      Fills record depth ((key, v) :: members) state filled

variable {record : Record σ} {depth : Nat}

theorem Fills.append {members others : List (String × Value)} {state middle filled : σ}
    (hmembers : Fills record depth members state middle)
    (hothers : Fills record depth others middle filled) :
    Fills record depth (members ++ others) state filled := by
  induction hmembers with
  | nil => exact hothers
  | known hfind htakes _ ih => exact .known hfind htakes (ih hothers)
  | passed hfind htakes _ ih => exact .passed hfind htakes (ih hothers)

theorem Fills.optional {key : String} {m : Member σ} (hfind : record.find? key = some m)
    {print : α → Value} {a? : Option α} {state filled : σ} (habsent : a? = none -> state = filled)
    (htakes : forall a, a? = some a ->
      exists put, Takes (m.read depth) (print a).chars put ∧ put state = filled) :
    Fills record depth (a?.map fun a => (key, print a)).toList state filled := by
  cases a? with
  | none =>
      rw [habsent rfl]
      exact .nil
  | some a =>
      rcases htakes a rfl with ⟨put, hput, rfl⟩
      exact .known hfind hput .nil

theorem Fills.free {key : String} {reader : Nat → Reader (Option α)} {put : Option α → σ → σ}
    (hfind : record.find? key = some (.free key reader put)) {print : α → Value} {a? : Option α}
    {state filled : σ} (habsent : put none state = state) (hfilled : put a? state = filled)
    (htakes : forall a, a? = some a -> Takes (reader depth) (print a).chars (some a)) :
    Fills record depth (a?.map fun a => (key, print a)).toList state filled := by
  refine .optional hfind ?_ ?_
  · rintro rfl
    rw [← hfilled, habsent]
  · rintro a rfl
    exact ⟨put (some a), (htakes a rfl).map put, hfilled⟩

theorem Fills.optional_passed {key : String} (hfind : record.find? key = none)
    {print : α → Value} {a? : Option α} (state : σ)
    (htakes : forall a, a? = some a -> Takes Reader.skip (print a).chars ()) :
    Fills record depth (a?.map fun a => (key, print a)).toList state state := by
  cases a? with
  | none => exact .nil
  | some a => exact .passed hfind (htakes a rfl) .nil

theorem member_known {key : String} {m : Member σ} {text : List Char} {put : σ → σ}
    (hfind : record.find? key = some m) (htakes : Takes (m.read depth) text put) (state : σ)
    {seen : List String} (hfresh : key ∉ seen) :
    Takes (record.member depth ⟨state, seen⟩ key) (':' :: text) ⟨put state, key :: seen⟩ := by
  intro b rest hstops
  simp only [Record.member, hfind, if_neg hfresh]
  rw [bind_of_ok (htakes.memberValue key b rest hstops)]
  rfl

theorem member_passed (depth : Nat) {key : String} {text : List Char}
    (hfind : record.find? key = none)
    (htakes : Takes Reader.skip text ()) (progress : Progress σ) :
    Takes (record.member depth progress key) (':' :: text) progress := by
  intro b rest hstops
  simp only [Record.member, hfind]
  rw [bind_of_ok (htakes.memberValue key b rest hstops)]
  rfl

theorem membersFrom_cons (isFirst : Bool) {key : String} {v : Value}
    (members : List (String × Value)) {progress next : Progress σ}
    (htakes : Takes (record.member depth progress key) (':' :: v.chars) next) (bound : Nat)
    (rest : List UInt8) :
    membersFrom (record.member depth) progress isFirst (bound + 1)
        (encodeChars (membersText isFirst ((key, v) :: members)) ++ rest) =
      membersFrom (record.member depth) next false bound
        (encodeChars (membersText false members) ++ rest) := by
  have htext : encodeChars (membersText isFirst ((key, v) :: members)) ++ rest =
      encodeChars ((if isFirst then [] else [',']) ++ stringChars key) ++
        (encodeChars (':' :: v.chars) ++ (encodeChars (membersText false members) ++ rest)) := by
    simp only [membersText_cons, ← List.cons_append, encodeChars_append, List.append_assoc]
  rcases exists_stop members rest with ⟨b, more, hafter, hstops⟩
  rw [htext, hafter, membersFrom, bind_of_ok (nextKey_printed isFirst key _)]
  simp only
  rw [bind_of_ok (htakes b more hstops)]

theorem membersFrom_nil (isFirst : Bool) (progress : Progress σ) (bound : Nat)
    (rest : List UInt8) :
    membersFrom (record.member depth) progress isFirst (bound + 1)
        (encodeChars (membersText isFirst []) ++ rest) = .ok progress (0x7D :: rest) := by
  rw [membersFrom, bind_of_ok (nextKey_closed isFirst rfl)]
  rfl

theorem Fills.membersFrom {members : List (String × Value)} {state filled : σ}
    (hfills : Fills record depth members state filled) (isFirst : Bool) {seen : List String}
    (hfresh : forall key, key ∈ members.map Prod.fst -> key ∉ seen)
    (hdistinct : (members.map Prod.fst).Nodup) {bound : Nat} (hbound : members.length < bound)
    (rest : List UInt8) :
    exists progress : Progress σ,
      Reader.membersFrom (record.member depth) ⟨state, seen⟩ isFirst bound
          (encodeChars (membersText isFirst members) ++ rest) = .ok progress (0x7D :: rest) ∧
        progress.state = filled ∧ seen ⊆ progress.seen ∧
        forall key, key ∈ members.map Prod.fst -> (record.find? key).isSome ->
          key ∈ progress.seen := by
  induction hfills generalizing isFirst seen bound with
  | nil =>
      rcases Nat.exists_eq_add_one_of_ne_zero (Nat.ne_zero_of_lt hbound) with ⟨less, rfl⟩
      exact ⟨_, membersFrom_nil isFirst _ less rest, rfl, List.Subset.refl _, nofun⟩
  | @known key v m put members state filled hfind htakes _ ih =>
      rcases Nat.exists_eq_add_one_of_ne_zero (Nat.ne_zero_of_lt hbound) with ⟨less, rfl⟩
      rw [List.map_cons, List.nodup_cons] at hdistinct
      have hnew := hfresh key List.mem_cons_self
      have hothers : forall other, other ∈ members.map Prod.fst -> other ∉ key :: seen := by
        intro other hmem hseen
        rcases List.mem_cons.mp hseen with hsame | hold
        · exact hdistinct.left (hsame ▸ hmem)
        · exact hfresh other (List.mem_cons_of_mem _ hmem) hold
      rcases ih false hothers hdistinct.right (Nat.lt_of_succ_lt_succ hbound) with
        ⟨progress, hread, hfilled, hsub, hseen⟩
      have hstep := membersFrom_cons isFirst members (member_known hfind htakes state hnew)
        less rest
      refine ⟨progress, hstep.trans hread, hfilled, ?_, ?_⟩
      · exact fun other hold => hsub (List.mem_cons_of_mem key hold)
      · intro other hmem hknown
        rcases List.mem_cons.mp hmem with hsame | hlater
        · exact hsub (hsame ▸ List.mem_cons_self)
        · exact hseen other hlater hknown
  | @passed key v members state filled hfind htakes _ ih =>
      rcases Nat.exists_eq_add_one_of_ne_zero (Nat.ne_zero_of_lt hbound) with ⟨less, rfl⟩
      rw [List.map_cons, List.nodup_cons] at hdistinct
      have hothers : forall other, other ∈ members.map Prod.fst -> other ∉ seen :=
        fun other hmem => hfresh other (List.mem_cons_of_mem key hmem)
      rcases ih false hothers hdistinct.right (Nat.lt_of_succ_lt_succ hbound) with
        ⟨progress, hread, hfilled, hsub, hseen⟩
      have hstep := membersFrom_cons isFirst members
        (member_passed depth hfind htakes ⟨state, seen⟩) less rest
      refine ⟨progress, hstep.trans hread, hfilled, hsub, ?_⟩
      intro other hmem hknown
      rcases List.mem_cons.mp hmem with hsame | hlater
      · rw [hsame, hfind] at hknown
        cases hknown
      · exact hseen other hlater hknown

theorem length_le_of_membersText (isFirst : Bool) (members : List (String × Value)) :
    members.length ≤ (encodeChars (membersText isFirst members)).length := by
  induction members generalizing isFirst with
  | nil => exact Nat.zero_le _
  | cons member rest ih =>
      rcases member with ⟨key, v⟩
      have hrest := ih false
      have hcolon : encodeChars (':' :: (v.chars ++ membersText false rest)) =
          0x3A :: encodeChars (v.chars ++ membersText false rest) := rfl
      rw [membersText_cons, encodeChars_append, encodeChars_append, hcolon, encodeChars_append]
      simp only [List.length_append, List.length_cons]
      omega

theorem complete_of_seen {progress : Progress σ}
    (hseen : forall m, m ∈ record.known -> m.mayLack = true ∨ m.name ∈ progress.seen) :
    record.complete progress = pure progress.state := by
  have hmissing : record.known.find? (fun m => !m.mayLack && m.name ∉ progress.seen) = none := by
    apply List.find?_eq_none.mpr
    intro m hm
    rcases hseen m hm with hlacks | hthere
    · simp [hlacks]
    · simp [hthere]
  unfold complete
  rw [hmissing]

/-- A document that is a printed object is read as a record, if the members are distinct, fill the
record, and lack none that the record needs. -/
theorem Fills.read {members : List (String × Value)} {filled : σ}
    (hfills : Fills record depth members record.start filled)
    (hdistinct : (members.map Prod.fst).Nodup)
    (hneeded : forall m, m ∈ record.known -> m.mayLack = true ∨ m.name ∈ members.map Prod.fst)
    (rest : List UInt8) :
    record.read (depth + 1) ((Value.object members).bytes ++ rest) = .ok filled rest := by
  have htext : (Value.object members).bytes ++ rest =
      0x7B :: (encodeChars (membersText true members) ++ rest) := by
    rw [Value.bytes, Value.chars, membersChars_eq, encodeChars_cons]
    rfl
  have hbound : members.length < (encodeChars (membersText true members) ++ rest).length + 1 := by
    have hlength := length_le_of_membersText true members
    rw [List.length_append]
    omega
  rcases hfills.membersFrom true (fun _ _ => List.not_mem_nil) hdistinct hbound rest with
    ⟨progress, hread, rfl, _, hseen⟩
  have hcomplete : record.complete progress = pure progress.state := by
    apply complete_of_seen
    intro m hm
    refine (hneeded m hm).imp_right fun hmem => hseen m.name hmem ?_
    exact List.find?_isSome.mpr ⟨m, hm, decide_eq_true rfl⟩
  have hmembers : Reader.members (record.member depth) ⟨record.start, []⟩
      (encodeChars (membersText true members) ++ rest) = .ok progress (0x7D :: rest) := hread
  have hbody : record.objectBody depth (0x7B :: (encodeChars (membersText true members) ++ rest)) =
      .ok progress.state rest := by
    unfold objectBody
    rw [advance_bind]
    refine enclosed_eq_ok.mpr ⟨0x7D :: rest, ?_, rfl⟩
    rw [bind_of_ok hmembers, hcomplete]
    rfl
  rw [htext]
  unfold Record.read onValue
  rw [next_bind]
  exact hbody

theorem Fills.outcome {members : List (String × Value)} {filled : σ}
    (hfills : Fills record depth members record.start filled)
    (hdistinct : (members.map Prod.fst).Nodup)
    (hneeded : forall m, m ∈ record.known -> m.mayLack = true ∨ m.name ∈ members.map Prod.fst) :
    (whole (record.read (depth + 1))).outcome (Value.object members).bytes = .ok filled := by
  have hread := hfills.read hdistinct hneeded []
  rw [List.append_nil] at hread
  unfold Reader.outcome whole
  rw [bind_of_ok hread]
  rfl

end Record

end Json
end Gatekeeper
