import Gatekeeper.Proofs.Results
import Gatekeeper.Proofs.Text.Utf8
import Mathlib.Data.List.Basic

/-!
# Strict and lenient decoding

Strict decoding gives a text exactly for the bytes of that text.  Lenient decoding
keeps the characters that stand in a byte string, and puts the replacement
character where none stands: for the longest start of a character, or for a single
byte that starts none.
-/

namespace Gatekeeper
namespace Utf8

/-!
# The bytes of a character
-/

/-- The form of the bytes of a character: an ASCII byte, or a first byte that fixes how many follow,
of which the second is in the range of the first. -/
inductive WellFormed : List UInt8 -> Prop
  | ascii {b : UInt8} (hascii : b < 0x80) : WellFormed [b]
  | long {first second : UInt8} {lead : Lead} {tail : List UInt8}
      (hlead : Lead.ofByte? first = some lead)
      (hrange : lead.low ≤ second ∧ second ≤ lead.high) (hlength : tail.length = lead.more)
      (htail : forall b, b ∈ tail -> isContinuation b = true) :
      WellFormed (first :: second :: tail)

theorem isContinuation_iff {b : UInt8} :
    isContinuation b = true <-> 0x80 ≤ b.toNat ∧ b.toNat ≤ 0xBF := by
  simp only [isContinuation, Bool.and_eq_true, decide_eq_true_eq, UInt8.le_iff_toNat_le]
  exact Iff.rfl

theorem lead_cases {first second : UInt8} {lead : Lead} (hlead : Lead.ofByte? first = some lead)
    (hrange : lead.low ≤ second ∧ second ≤ lead.high) :
    0x80 ≤ second.toNat ∧ second.toNat ≤ 0xBF ∧
      ((0xC2 ≤ first.toNat ∧ first.toNat < 0xE0 ∧ lead.more = 0) ∨
        (0xE0 ≤ first.toNat ∧ first.toNat < 0xF0 ∧ lead.more = 1 ∧
          (first.toNat = 0xE0 -> 0xA0 ≤ second.toNat) ∧
          (first.toNat = 0xED -> second.toNat ≤ 0x9F)) ∨
        (0xF0 ≤ first.toNat ∧ first.toNat < 0xF5 ∧ lead.more = 2 ∧
          (first.toNat = 0xF0 -> 0x90 ≤ second.toNat) ∧
          (first.toNat = 0xF4 -> second.toNat ≤ 0x8F))) := by
  have hlow := UInt8.le_iff_toNat_le.mp hrange.left
  have hhigh := UInt8.le_iff_toNat_le.mp hrange.right
  by_cases hleast : first.toNat < 0xC2
  · simp only [Lead.ofByte?, UInt8.lt_iff_toNat_lt, UInt8.reduceToNat, if_pos hleast] at hlead
    cases hlead
  by_cases htwo : first.toNat < 0xE0
  · rw [lead_two (by omega) htwo] at hlead
    rw [← Option.some.inj hlead] at hlow hhigh ⊢
    exact ⟨hlow, hhigh, Or.inl ⟨by omega, htwo, rfl⟩⟩
  by_cases hthree : first.toNat < 0xF0
  · rcases lead_three (b := first) (by omega) hthree with ⟨other, hother, _, hmore, hl, hh⟩
    rw [hother] at hlead
    rw [← Option.some.inj hlead] at hlow hhigh ⊢
    rw [hl] at hlow
    rw [hh] at hhigh
    refine ⟨?_, ?_, Or.inr (Or.inl ⟨by omega, hthree, hmore, ?_, ?_⟩)⟩ <;>
      split at hlow <;> split at hhigh <;> omega
  by_cases hfour : first.toNat < 0xF5
  · rcases lead_four (b := first) (by omega) hfour with ⟨other, hother, _, hmore, hl, hh⟩
    rw [hother] at hlead
    rw [← Option.some.inj hlead] at hlow hhigh ⊢
    rw [hl] at hlow
    rw [hh] at hhigh
    refine ⟨?_, ?_, Or.inr (Or.inr ⟨by omega, hfour, hmore, ?_, ?_⟩)⟩ <;>
      split at hlow <;> split at hhigh <;> omega
  · simp only [Lead.ofByte?, UInt8.lt_iff_toNat_lt, ← UInt8.toNat_inj, UInt8.reduceToNat] at hlead
    rw [if_neg (by omega), if_neg (by omega), if_neg (by omega), if_neg (by omega),
      if_neg (by omega), if_neg (by omega), if_neg (by omega), if_neg (by omega)] at hlead
    cases hlead

theorem toNat_ofNat_of_valid {v : Nat} (hvalid : v.isValidChar) : (Char.ofNat v).val.toNat = v := by
  rw [Char.ofNat, dif_pos hvalid]
  rfl

theorem exists_char_of_code {v : Nat} {bytes : List UInt8} (hvalid : v.isValidChar)
    (hbytes : (Char.ofNat v).val.toNat = v -> String.utf8EncodeChar (Char.ofNat v) = bytes) :
    exists c, String.utf8EncodeChar c = bytes :=
  ⟨Char.ofNat v, hbytes (toNat_ofNat_of_valid hvalid)⟩

theorem ofNat_eq {b : UInt8} {n : Nat} (hvalue : n = b.toNat) : UInt8.ofNat n = b := by
  rw [hvalue, UInt8.ofNat_toNat]

theorem WellFormed.exists_char {bytes : List UInt8} (hform : WellFormed bytes) :
    exists c, String.utf8EncodeChar c = bytes := by
  cases hform with
  | @ascii b hascii =>
      have hsmall : b.toNat ≤ 0x7F := Nat.le_of_lt_succ (UInt8.lt_iff_toNat_lt.mp hascii)
      refine exists_char_of_code (v := b.toNat) (Or.inl (by omega)) fun hvalue => ?_
      rw [String.utf8EncodeChar.eq_1, hvalue, if_pos hsmall, ofNat_eq rfl]
  | @long first second lead tail hlead hrange hlength htail =>
      rcases lead_cases hlead hrange with ⟨hlow, hhigh, hkind⟩
      rcases hkind with ⟨hleast, hmost, hmore⟩ | ⟨hleast, hmost, hmore, hover, hsurrogate⟩ |
        ⟨hleast, hmost, hmore, hover, hlimit⟩
      · rw [hmore] at hlength
        rw [List.length_eq_zero_iff.mp hlength]
        refine exists_char_of_code (v := (first.toNat - 0xC0) * 64 + (second.toNat - 0x80))
          (Or.inl (by omega)) fun hvalue => ?_
        rw [String.utf8EncodeChar.eq_1, hvalue, if_neg (by omega), if_pos (by omega)]
        rw [ofNat_eq (b := first) (by omega), ofNat_eq (b := second) (by omega)]
      · rw [hmore] at hlength
        rcases List.length_eq_one_iff.mp hlength with ⟨third, rfl⟩
        have hthird := isContinuation_iff.mp (htail third List.mem_cons_self)
        refine exists_char_of_code (v := ((first.toNat - 0xE0) * 64 + (second.toNat - 0x80)) * 64 +
          (third.toNat - 0x80)) ?_ fun hvalue => ?_
        · unfold Nat.isValidChar
          omega
        · rw [String.utf8EncodeChar.eq_1, hvalue, if_neg (by omega), if_neg (by omega),
            if_pos (by omega), ofNat_eq (b := first) (by omega), ofNat_eq (b := second) (by omega),
            ofNat_eq (b := third) (by omega)]
      · rw [hmore] at hlength
        rcases List.length_eq_two.mp hlength with ⟨third, fourth, rfl⟩
        have hthird := isContinuation_iff.mp (htail third List.mem_cons_self)
        have hfourth :=
          isContinuation_iff.mp (htail fourth (List.mem_cons_of_mem _ List.mem_cons_self))
        refine exists_char_of_code (v := (((first.toNat - 0xF0) * 64 + (second.toNat - 0x80)) * 64 +
          (third.toNat - 0x80)) * 64 + (fourth.toNat - 0x80)) ?_ fun hvalue => ?_
        · unfold Nat.isValidChar
          omega
        · rw [String.utf8EncodeChar.eq_1, hvalue, if_neg (by omega), if_neg (by omega),
            if_neg (by omega), ofNat_eq (b := first) (by omega), ofNat_eq (b := second) (by omega),
            ofNat_eq (b := third) (by omega), ofNat_eq (b := fourth) (by omega)]

/-!
# What stands at the front
-/

theorem continuation_cases (more code size : Nat) (input : List UInt8) :
    exists tail, (forall b, b ∈ tail -> isContinuation b = true) ∧
      ((exists c rest, input = tail ++ rest ∧ tail.length = more ∧
          continuation more code size input = .char c (size + tail.length)) ∨
        (exists b rest, input = tail ++ b :: rest ∧ tail.length < more ∧ ¬isContinuation b = true ∧
          continuation more code size input = .broken (size + tail.length)) ∨
        (input = tail ∧ tail.length < more ∧
          continuation more code size input = .cut (size + tail.length))) := by
  induction more generalizing code size input with
  | zero =>
      refine ⟨[], List.forall_mem_nil _, Or.inl ⟨Char.ofNat code, input, rfl, rfl, ?_⟩⟩
      rw [continuation, List.length_nil, Nat.add_zero]
  | succ more ih =>
      cases input with
      | nil =>
          refine ⟨[], List.forall_mem_nil _, Or.inr (Or.inr ⟨rfl, Nat.succ_pos more, ?_⟩)⟩
          rw [continuation, List.length_nil, Nat.add_zero]
      | cons b rest =>
          by_cases hb : isContinuation b = true
          · rcases ih (extend code b) (size + 1) rest with ⟨tail, htail, hcases⟩
            have hread : continuation (more + 1) code size (b :: rest) =
                continuation more (extend code b) (size + 1) rest := by
              rw [continuation, if_pos hb]
            have hsize : size + 1 + tail.length = size + (b :: tail).length := by
              rw [List.length_cons]
              omega
            refine ⟨b :: tail, List.forall_mem_cons.mpr ⟨hb, htail⟩, ?_⟩
            rw [hread, ← hsize, List.length_cons]
            rcases hcases with ⟨c, after, hinput, hlength, hresult⟩ |
              ⟨other, after, hinput, hlength, hother, hresult⟩ | ⟨hinput, hlength, hresult⟩
            · exact Or.inl ⟨c, after, congrArg (b :: ·) hinput, congrArg (· + 1) hlength, hresult⟩
            · exact Or.inr (Or.inl
                ⟨other, after, congrArg (b :: ·) hinput, Nat.succ_lt_succ hlength, hother, hresult⟩)
            · exact Or.inr (Or.inr ⟨congrArg (b :: ·) hinput, Nat.succ_lt_succ hlength, hresult⟩)
          · refine ⟨[], List.forall_mem_nil _,
              Or.inr (Or.inl ⟨b, rest, rfl, Nat.succ_pos more, hb, ?_⟩)⟩
            rw [continuation, if_neg hb, List.length_nil, Nat.add_zero]

theorem piece_of_char {c : Char} {first : UInt8} {more rest after : List UInt8}
    (hbytes : String.utf8EncodeChar c = first :: more) (hrest : rest = more ++ after) :
    piece first rest = .char c (more.length + 1) := by
  rcases piece_encodeChar c with ⟨one, other, hother, hpiece⟩
  rcases List.cons.inj (hbytes.symm.trans hother) with ⟨rfl, rfl⟩
  rw [hrest, hpiece]

theorem WellFormed.of_char (c : Char) : WellFormed (String.utf8EncodeChar c) := by
  rcases piece_encodeChar c with ⟨first, more, hbytes, hpiece⟩
  have hread := hpiece []
  rw [List.append_nil] at hread
  rw [hbytes]
  unfold piece at hread
  split at hread
  · rename_i hascii
    rcases Piece.char.inj hread with ⟨_, hsize⟩
    rw [List.length_eq_zero_iff.mp (Nat.succ.inj hsize).symm]
    exact WellFormed.ascii hascii
  split at hread
  · cases hread
  · cases hread
  · rename_i lead second rest hlead
    split at hread
    · rename_i hrange
      rw [Bool.and_eq_true, decide_eq_true_eq, decide_eq_true_eq] at hrange
      rcases continuation_cases lead.more (extend lead.payload second) 2 rest with
        ⟨tail, htail, ⟨d, after, hinput, hlength, hresult⟩ | ⟨_, _, _, _, _, hresult⟩ |
          ⟨_, _, hresult⟩⟩
      · rw [hresult] at hread
        rcases Piece.char.inj hread with ⟨_, hsize⟩
        have hall : after = [] := by
          rw [hinput, List.length_cons, List.length_append] at hsize
          exact List.length_eq_zero_iff.mp (by omega)
        rw [hall, List.append_nil] at hinput
        rw [hinput]
        exact WellFormed.long hlead hrange hlength htail
      · rw [hresult] at hread
        cases hread
      · rw [hresult] at hread
        cases hread
    · cases hread

theorem WellFormed.long_of_char {c : Char} {first second : UInt8} {tail : List UInt8}
    (hbytes : String.utf8EncodeChar c = first :: second :: tail) :
    exists lead, Lead.ofByte? first = some lead ∧ (lead.low ≤ second ∧ second ≤ lead.high) ∧
      tail.length = lead.more ∧ forall b, b ∈ tail -> isContinuation b = true := by
  have hform := WellFormed.of_char c
  rw [hbytes] at hform
  cases hform with
  | long hlead hrange hlength htail => exact ⟨_, hlead, hrange, hlength, htail⟩

/-!
# Ill-formed pieces
-/

def Starts (bytes : List UInt8) : Prop :=
  exists c more, more ≠ [] ∧ String.utf8EncodeChar c = bytes ++ more

/-- No character stands at the front, and this is the longest start of one there is, or a single
byte. -/
structure IllFormed (bytes rest : List UInt8) : Prop where
  ne_nil : bytes ≠ []
  noChar : forall c, ¬String.utf8EncodeChar c <+: bytes ++ rest
  start : Starts bytes ∨ exists b, bytes = [b]
  longest : forall b more, rest = b :: more -> ¬Starts (bytes ++ [b])

theorem Starts.of_append {bytes more : List UInt8} (hstarts : Starts (bytes ++ more)) :
    Starts bytes := by
  rcases hstarts with ⟨c, rest, hrest, hbytes⟩
  refine ⟨c, more ++ rest, List.append_ne_nil_of_right_ne_nil more hrest, ?_⟩
  rw [hbytes, List.append_assoc]

theorem noChar_of_piece {first : UInt8} {rest : List UInt8} {result : Piece}
    (hread : piece first rest = result) (hnot : forall c size, result ≠ .char c size) (c : Char) :
    ¬String.utf8EncodeChar c <+: first :: rest := by
  rintro ⟨after, hafter⟩
  rcases piece_encodeChar c with ⟨one, more, hbytes, hpiece⟩
  rw [hbytes, List.cons_append] at hafter
  rcases List.cons.inj hafter with ⟨rfl, hrest⟩
  have hchar := hpiece after
  rw [hrest, hread] at hchar
  exact hnot c _ hchar

theorem starts_of_tail {first second : UInt8} {lead : Lead} {tail : List UInt8}
    (hlead : Lead.ofByte? first = some lead) (hrange : lead.low ≤ second ∧ second ≤ lead.high)
    (hlength : tail.length < lead.more) (htail : forall b, b ∈ tail -> isContinuation b = true) :
    Starts (first :: second :: tail) := by
  have hfill : forall b, b ∈ List.replicate (lead.more - tail.length) 0x80 ->
      isContinuation b = true := by
    intro b hmem
    rw [List.eq_of_mem_replicate hmem]
    decide
  have hform : WellFormed
      (first :: second :: (tail ++ List.replicate (lead.more - tail.length) 0x80)) := by
    refine WellFormed.long hlead hrange ?_ ?_
    · rw [List.length_append, List.length_replicate, Nat.add_sub_cancel' (Nat.le_of_lt hlength)]
    · intro b hmem
      exact (List.mem_append.mp hmem).elim (htail b) (hfill b)
  rcases hform.exists_char with ⟨c, hc⟩
  refine ⟨c, _, ?_, hc⟩
  intro hnil
  have hcount := congrArg List.length hnil
  rw [List.length_replicate, List.length_nil] at hcount
  omega

theorem starts_of_lead {first : UInt8} {lead : Lead} (hlead : Lead.ofByte? first = some lead) :
    Starts [first] := by
  have hrange : lead.low ≤ lead.low ∧ lead.low ≤ lead.high := by
    refine ⟨UInt8.le_refl _, ?_⟩
    unfold Lead.ofByte? at hlead
    split at hlead
    · cases hlead
    repeat
      split at hlead
      · rw [← Option.some.inj hlead]
        dsimp only
        decide
    cases hlead
  have hfill : forall b, b ∈ List.replicate lead.more 0x80 -> isContinuation b = true := by
    intro b hmem
    rw [List.eq_of_mem_replicate hmem]
    decide
  rcases (WellFormed.long hlead hrange List.length_replicate hfill).exists_char with ⟨c, hc⟩
  exact ⟨c, _, List.cons_ne_nil _ _, hc⟩

inductive Front (first : UInt8) (rest : List UInt8) : Piece -> Prop
  | char {c : Char} {more after : List UInt8} (hbytes : String.utf8EncodeChar c = first :: more)
      (hrest : rest = more ++ after) : Front first rest (.char c (more.length + 1))
  | broken {more after : List UInt8} (hrest : rest = more ++ after)
      (hform : IllFormed (first :: more) after) : Front first rest (.broken (more.length + 1))
  | cut {size : Nat} (hform : IllFormed (first :: rest) []) : Front first rest (.cut size)

theorem front_of_piece (first : UInt8) (rest : List UInt8) :
    Front first rest (piece first rest) := by
  have hread := Eq.refl (piece first rest)
  conv_rhs at hread => unfold piece
  split at hread
  · rename_i hascii
    rcases (WellFormed.ascii hascii).exists_char with ⟨c, hc⟩
    rw [piece_of_char hc (List.nil_append rest).symm]
    exact Front.char hc rfl
  split at hread
  · rename_i rest hlead
    rw [hread]
    refine Front.broken (List.nil_append _).symm
      ⟨List.cons_ne_nil _ _, noChar_of_piece hread nofun, Or.inr ⟨first, rfl⟩, ?_⟩
    rintro b more - ⟨c, after, -, hbytes⟩
    rcases WellFormed.long_of_char hbytes with ⟨lead, hsome, _⟩
    rw [hlead] at hsome
    cases hsome
  · rename_i lead hlead
    rw [hread]
    exact Front.cut
      ⟨List.cons_ne_nil _ _, noChar_of_piece hread nofun, Or.inl (starts_of_lead hlead), nofun⟩
  · rename_i lead second rest hlead
    split at hread
    · rename_i hrange
      rw [Bool.and_eq_true, decide_eq_true_eq, decide_eq_true_eq] at hrange
      rcases continuation_cases lead.more (extend lead.payload second) 2 rest with
        ⟨tail, htail, ⟨c, after, hinput, hlength, hresult⟩ |
          ⟨b, after, hinput, hlength, hb, hresult⟩ | ⟨hinput, hlength, hresult⟩⟩
      · rcases (WellFormed.long hlead hrange hlength htail).exists_char with ⟨d, hd⟩
        have hrest : second :: rest = second :: tail ++ after := congrArg (second :: ·) hinput
        rw [piece_of_char hd hrest]
        exact Front.char hd hrest
      · have hsize : 2 + tail.length = (second :: tail).length + 1 := by
          rw [List.length_cons]
          omega
        rw [hresult, hsize] at hread
        rw [hread]
        rw [hinput] at hread ⊢
        refine Front.broken (List.cons_append).symm ⟨List.cons_ne_nil _ _,
          noChar_of_piece hread nofun, Or.inl (starts_of_tail hlead hrange hlength htail), ?_⟩
        rintro other more hafter ⟨c, fill, -, hbytes⟩
        rcases WellFormed.long_of_char hbytes with ⟨_, _, _, _, hall⟩
        rw [← (List.cons.inj hafter).left] at hall
        exact hb (hall b (List.mem_append_left _ (List.mem_append_right _ List.mem_cons_self)))
      · rw [hresult] at hread
        rw [hread]
        refine Front.cut ⟨List.cons_ne_nil _ _, ?_, Or.inl ?_, nofun⟩
        · rw [List.append_nil]
          exact noChar_of_piece hread nofun
        · rw [hinput]
          exact starts_of_tail hlead hrange hlength htail
    · rename_i hrange
      rw [Bool.and_eq_true, decide_eq_true_eq, decide_eq_true_eq] at hrange
      rw [hread]
      refine Front.broken (List.nil_append _).symm
        ⟨List.cons_ne_nil _ _, noChar_of_piece hread nofun, Or.inl (starts_of_lead hlead), ?_⟩
      rintro b more hrest ⟨c, after, -, hbytes⟩
      rcases WellFormed.long_of_char hbytes with ⟨other, hother, hallowed, _⟩
      rw [← (List.cons.inj hrest).left, ← Option.some.inj (hlead.symm.trans hother)] at hallowed
      exact hrange hallowed

/-!
# Strict decoding
-/

theorem decodeFrom_eq_ok {index : Nat} {bytes : List UInt8} {cs : List Char} :
    decodeFrom index bytes = .ok cs <-> bytes = encodeChars cs := by
  constructor
  · intro hread
    induction bytes using lenientChars.induct generalizing index cs with
    | case1 =>
        rw [decodeFrom] at hread
        rw [← Except.ok.inj hread, encodeChars_nil]
    | case2 b rest c size hpiece ih =>
        rw [decodeFrom, hpiece] at hread
        have hfront := front_of_piece b rest
        rw [hpiece] at hfront
        cases hfront with
        | @char c more after hbytes hrest =>
            simp only [hrest, Nat.add_sub_cancel, List.drop_left] at hread ih
            split at hread
            · rename_i ds hafter
              rw [← Except.ok.inj hread, encodeChars_cons, hbytes, ← ih hafter, hrest]
              rfl
            · cases hread
    | case3 b rest size hpiece ih =>
        rw [decodeFrom, hpiece] at hread
        cases hread
    | case4 b rest size hpiece =>
        rw [decodeFrom, hpiece] at hread
        cases hread
  · rintro rfl
    exact decodeFrom_encodeChars index cs

theorem decode_eq_ok {bytes : List UInt8} {text : String} :
    decode bytes = .ok text <-> bytes = encode text := by
  unfold decode encode
  rw [← @decodeFrom_eq_ok 0]
  cases decodeFrom 0 bytes with
  | error fault => simp only [Except.map, reduceCtorEq]
  | ok cs =>
      simp only [Except.map, Except.ok.injEq]
      constructor
      · rintro rfl
        rw [String.toList_ofList]
      · rintro rfl
        rw [String.ofList_toList]

theorem encode_injective {one other : String} (hsame : encode one = encode other) :
    one = other := by
  have hother := decode_eq_ok.mpr hsame
  rw [decode_eq_ok.mpr rfl] at hother
  exact Except.ok.inj hother

/-!
# Lenient decoding
-/

/-- A text in which each character of the bytes stands, and the replacement character for each
ill-formed piece of them. -/
inductive Mends : List UInt8 -> List Char -> Prop
  | nil : Mends [] []
  | char {c : Char} {rest : List UInt8} {cs : List Char} (hrest : Mends rest cs) :
      Mends (String.utf8EncodeChar c ++ rest) (c :: cs)
  | mended {bytes rest : List UInt8} {cs : List Char} (hform : IllFormed bytes rest)
      (hrest : Mends rest cs) : Mends (bytes ++ rest) (replacement :: cs)

theorem mends_lenientChars (bytes : List UInt8) : Mends bytes (lenientChars bytes) := by
  induction bytes using lenientChars.induct with
  | case1 =>
      rw [lenientChars]
      exact Mends.nil
  | case2 b rest c size hpiece ih =>
      rw [lenientChars, hpiece]
      have hfront := front_of_piece b rest
      rw [hpiece] at hfront
      cases hfront with
      | @char c more after hbytes hrest =>
          simp only [hrest, Nat.add_sub_cancel, List.drop_left] at ih ⊢
          have hchar := Mends.char (c := c) ih
          rwa [hbytes] at hchar
  | case3 b rest size hpiece ih =>
      rw [lenientChars, hpiece]
      have hfront := front_of_piece b rest
      rw [hpiece] at hfront
      cases hfront with
      | @broken more after hrest hform =>
          simp only [hrest, Nat.add_sub_cancel, List.drop_left] at ih ⊢
          exact Mends.mended hform ih
  | case4 b rest size hpiece =>
      rw [lenientChars, hpiece]
      have hfront := front_of_piece b rest
      rw [hpiece] at hfront
      cases hfront with
      | cut hform =>
          have hmended := Mends.mended hform Mends.nil
          rwa [List.append_nil] at hmended

theorem IllFormed.not_longer {bytes more rest : List UInt8} {b : UInt8}
    (hone : IllFormed bytes (b :: more ++ rest)) (hother : IllFormed (bytes ++ b :: more) rest) :
    False := by
  rcases hother.start with hstarts | ⟨c, hc⟩
  · refine hone.longest b (more ++ rest) rfl ?_
    rw [← List.singleton_append, ← List.append_assoc] at hstarts
    exact hstarts.of_append
  · have hcount := congrArg List.length hc
    have hpos := List.length_pos_iff.mpr hone.ne_nil
    rw [List.length_append, List.length_cons, List.length_singleton] at hcount
    omega

theorem IllFormed.unique {bytes rest other after : List UInt8} (hone : IllFormed bytes rest)
    (hother : IllFormed other after) (hsame : bytes ++ rest = other ++ after) :
    bytes = other ∧ rest = after := by
  rcases List.append_eq_append_iff.mp hsame with ⟨more, rfl, rfl⟩ | ⟨more, rfl, rfl⟩
  · cases more with
    | nil => exact ⟨(List.append_nil bytes).symm, rfl⟩
    | cons b more => exact (IllFormed.not_longer hone hother).elim
  · cases more with
    | nil => exact ⟨List.append_nil other, rfl⟩
    | cons b more => exact (IllFormed.not_longer hother hone).elim

theorem char_unique {c d : Char} {rest after : List UInt8}
    (hsame : String.utf8EncodeChar c ++ rest = String.utf8EncodeChar d ++ after) :
    c = d ∧ rest = after := by
  rcases piece_encodeChar c with ⟨first, more, hc, hone⟩
  rcases piece_encodeChar d with ⟨second, tail, hd, hother⟩
  have hbytes := hsame
  rw [hc, hd, List.cons_append, List.cons_append] at hbytes
  rcases List.cons.inj hbytes with ⟨rfl, hrest⟩
  have hread := hone rest
  rw [hrest, hother] at hread
  have hchar := (Piece.char.inj hread).left
  rw [hchar] at hsame
  exact ⟨hchar.symm, List.append_cancel_left hsame⟩

theorem append_ne_nil_of_char (c : Char) (rest : List UInt8) :
    String.utf8EncodeChar c ++ rest ≠ [] := by
  rcases piece_encodeChar c with ⟨first, more, hbytes, _⟩
  rw [hbytes, List.cons_append]
  exact List.cons_ne_nil _ _

theorem Mends.unique {bytes : List UInt8} {one other : List Char} (hone : Mends bytes one)
    (hother : Mends bytes other) : one = other := by
  induction hone generalizing other with
  | nil =>
      generalize hbytes : ([] : List UInt8) = bytes at hother
      cases hother with
      | nil => rfl
      | char => exact absurd hbytes.symm (append_ne_nil_of_char _ _)
      | mended hform => exact absurd (List.append_eq_nil_iff.mp hbytes.symm).left hform.ne_nil
  | @char c rest cs hrest ih =>
      generalize hbytes : String.utf8EncodeChar c ++ rest = bytes at hother
      cases hother with
      | nil => exact absurd hbytes (append_ne_nil_of_char _ _)
      | char hafter =>
          rcases char_unique hbytes with ⟨rfl, rfl⟩
          rw [ih hafter]
      | mended hform => exact absurd ⟨rest, hbytes⟩ (hform.noChar c)
  | @mended piece rest cs hform hrest ih =>
      generalize hbytes : piece ++ rest = bytes at hother
      cases hother with
      | nil => exact absurd (List.append_eq_nil_iff.mp hbytes).left hform.ne_nil
      | @char c after => exact absurd ⟨after, hbytes.symm⟩ (hform.noChar c)
      | mended hother hafter =>
          rcases hform.unique hother hbytes with ⟨rfl, rfl⟩
          rw [ih hafter]

theorem lenient_eq_iff {bytes : List UInt8} {text : String} :
    lenient bytes = text <-> Mends bytes text.toList := by
  constructor
  · rintro rfl
    unfold lenient
    rw [String.toList_ofList]
    exact mends_lenientChars bytes
  · intro hmends
    unfold lenient
    rw [(mends_lenientChars bytes).unique hmends, String.ofList_toList]

end Utf8
end Gatekeeper
