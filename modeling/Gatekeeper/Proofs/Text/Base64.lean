import Gatekeeper.Proofs.Results
import Gatekeeper.Proofs.Text.Utf8
import Gatekeeper.Text.Base64
import Mathlib.Data.List.TakeWhile

/-!
# Base64 without padding

Each byte string has one text: a text is decoded exactly if it is what encoding
writes.  A text is seen through the values of its symbols, in whole groups of four
and a last group whose spare bits are zero.
-/

namespace Gatekeeper
namespace Base64

variable {alphabet : Alphabet}

namespace Alphabet

structure IsFaithful (alphabet : Alphabet) : Prop where
  value_symbol : forall n, n < 64 -> alphabet.value? (alphabet.symbol n) = some n
  pad : alphabet.value? padByte = none

theorem standard_isFaithful : standard.IsFaithful where
  value_symbol := by decide
  pad := by decide

theorem urlSafe_isFaithful : urlSafe.IsFaithful where
  value_symbol := by decide
  pad := by decide

theorem eq_symbol_of_value {b : UInt8} {n : Nat} (hvalue : alphabet.value? b = some n) :
    n < 64 ∧ b = alphabet.symbol n := by
  unfold value? at hvalue
  unfold symbol
  split at hvalue
  · rename_i hupper
    simp only [Bool.and_eq_true, decide_eq_true_eq, UInt8.le_iff_toNat_le] at hupper
    have hlow : 0x41 ≤ b.toNat := hupper.1
    have hhigh : b.toNat ≤ 0x5A := hupper.2
    cases hvalue
    refine ⟨by omega, ?_⟩
    rw [if_pos (by omega), Nat.add_sub_cancel' hlow, UInt8.ofNat_toNat]
  split at hvalue
  · rename_i hlower
    simp only [Bool.and_eq_true, decide_eq_true_eq, UInt8.le_iff_toNat_le] at hlower
    have hlow : 0x61 ≤ b.toNat := hlower.1
    have hhigh : b.toNat ≤ 0x7A := hlower.2
    cases hvalue
    refine ⟨by omega, ?_⟩
    rw [if_neg (by omega), if_pos (by omega), Nat.add_sub_cancel, Nat.add_sub_cancel' hlow,
      UInt8.ofNat_toNat]
  split at hvalue
  · rename_i hdigit
    simp only [Bool.and_eq_true, decide_eq_true_eq, UInt8.le_iff_toNat_le] at hdigit
    have hlow : 0x30 ≤ b.toNat := hdigit.1
    have hhigh : b.toNat ≤ 0x39 := hdigit.2
    cases hvalue
    refine ⟨by omega, ?_⟩
    rw [if_neg (by omega), if_neg (by omega), if_pos (by omega), Nat.add_sub_cancel,
      Nat.add_sub_cancel' hlow, UInt8.ofNat_toNat]
  split at hvalue
  · rename_i hb
    cases hvalue
    exact ⟨by omega, hb⟩
  split at hvalue
  · rename_i hb
    cases hvalue
    exact ⟨by omega, hb⟩
  · cases hvalue

end Alphabet

/-!
# Values of symbols
-/

theorem values_eq_ok {offset : Nat} {input : List UInt8} {vs : List Nat}
    (hvalues : values alphabet offset input = .ok vs) :
    input = vs.map alphabet.symbol ∧ forall v, v ∈ vs -> v < 64 := by
  induction input generalizing offset vs with
  | nil =>
      cases hvalues
      simp
  | cons b rest ih =>
      unfold values at hvalues
      cases hvalue : alphabet.value? b with
      | none =>
          rw [hvalue] at hvalues
          cases hvalues
      | some v =>
          simp only [hvalue] at hvalues
          cases hrest : values alphabet (offset + 1) rest with
          | error fault =>
              rw [hrest] at hvalues
              cases hvalues
          | ok others =>
              rw [hrest] at hvalues
              cases hvalues
              rcases Alphabet.eq_symbol_of_value hvalue with ⟨hsmall, hb⟩
              rcases ih hrest with ⟨htext, hothers⟩
              refine ⟨by rw [List.map_cons, ← hb, ← htext], ?_⟩
              intro n hn
              rcases List.mem_cons.mp hn with rfl | hn
              · exact hsmall
              · exact hothers n hn

theorem values_map_symbol (hfaithful : alphabet.IsFaithful) (offset : Nat) {vs : List Nat}
    (hsmall : forall v, v ∈ vs -> v < 64) :
    values alphabet offset (vs.map alphabet.symbol) = .ok vs := by
  induction vs generalizing offset with
  | nil => rfl
  | cons v rest ih =>
      have hv := hfaithful.value_symbol v (hsmall v List.mem_cons_self)
      have hrest := ih (offset + 1) fun n hn => hsmall n (List.mem_cons_of_mem v hn)
      rw [List.map_cons]
      unfold values
      simp only [hv, hrest]

theorem symbol_ne_pad (hfaithful : alphabet.IsFaithful) {v : Nat} (hsmall : v < 64) :
    alphabet.symbol v ≠ padByte := by
  intro hpad
  have hvalue := hfaithful.value_symbol v hsmall
  rw [hpad, hfaithful.pad] at hvalue
  cases hvalue

/-!
# Groups
-/

theorem lastSymbols_eq_ok {offset : Nat} {group symbols : List UInt8}
    (hsymbols : lastSymbols offset group = .ok (symbols, 0)) :
    symbols = group ∧ group.takeWhile (· ≠ padByte) = group := by
  have hsplit := List.takeWhile_append_dropWhile (p := (· ≠ padByte)) (l := group)
  unfold lastSymbols at hsymbols
  by_cases hpads : group.dropWhile (· ≠ padByte) = []
  · rw [hpads, List.append_nil] at hsplit
    simp only [if_pos hpads] at hsymbols
    cases hsymbols
    exact ⟨hsplit, hsplit⟩
  · simp only [if_neg hpads] at hsymbols
    split at hsymbols
    · cases hsymbols
    split at hsymbols
    · injection hsymbols with hsymbols
      injection hsymbols with _ hlength
      exact absurd (List.length_eq_zero_iff.mp hlength) hpads
    · cases hsymbols

theorem lastSymbols_of_symbols (offset : Nat) {group : List UInt8}
    (hgroup : forall b, b ∈ group -> b ≠ padByte) :
    lastSymbols offset group = .ok (group, 0) ∧ group.takeWhile (· ≠ padByte) = group := by
  have htake : group.takeWhile (· ≠ padByte) = group := by
    rw [List.takeWhile_eq_self_iff]
    simpa using hgroup
  have hdrop : group.dropWhile (· ≠ padByte) = [] := by
    rw [List.dropWhile_eq_nil_iff]
    simpa using hgroup
  refine ⟨?_, htake⟩
  unfold lastSymbols
  simp only [hdrop, if_true, htake]

structure Closes (alphabet : Alphabet) (group : List UInt8) (last : List Nat) : Prop where
  text : group = last.map alphabet.symbol
  small : forall v, v ∈ last -> v < 64
  size : last = [] ∨ 2 ≤ last.length
  spare : spareBits last = 0

theorem decodeLast_eq_ok {offset : Nat} {group bytes : List UInt8}
    (hdecode : decodeLast alphabet .none offset group = .ok bytes) :
    exists last, Closes alphabet group last ∧ bytes = pack last := by
  unfold decodeLast at hdecode
  by_cases hempty : group = []
  · rw [if_pos hempty] at hdecode
    cases hdecode
    exact ⟨[], ⟨hempty, by simp, Or.inl rfl, rfl⟩, rfl⟩
  · rw [if_neg hempty] at hdecode
    simp only [except_bind_eq_ok] at hdecode
    rcases hdecode with ⟨last, hvalues, ⟨symbols, pads⟩, hsymbols, hdecode⟩
    by_cases hshort : symbols.length < 2
    · rw [if_pos hshort] at hdecode
      cases hdecode
    · rw [if_neg hshort] at hdecode
      by_cases hpads : pads = 0
      · subst hpads
        by_cases hspare : spareBits last = 0
        · simp only [decide_true, Bool.not_true, Bool.false_eq_true, if_false, hspare, ne_eq,
            not_true_eq_false] at hdecode
          cases hdecode
          rcases lastSymbols_eq_ok hsymbols with ⟨rfl, htake⟩
          rw [htake] at hvalues
          rcases values_eq_ok hvalues with ⟨htext, hsmall⟩
          rw [htext, List.length_map] at hshort
          exact ⟨last, ⟨htext, hsmall, Or.inr (by omega), hspare⟩, rfl⟩
        · simp only [decide_true, Bool.not_true, Bool.false_eq_true, if_false, ne_eq, hspare,
            not_false_eq_true, if_true] at hdecode
          cases hdecode
      · simp only [hpads, decide_false, Bool.not_false, if_true] at hdecode
        cases hdecode

theorem decodeLast_of_closes (hfaithful : alphabet.IsFaithful) (offset : Nat)
    {group : List UInt8} {last : List Nat} (hcloses : Closes alphabet group last) :
    decodeLast alphabet .none offset group = .ok (pack last) := by
  rcases hcloses with ⟨rfl, hsmall, hsize, hspare⟩
  unfold decodeLast
  cases last with
  | nil => rfl
  | cons v rest =>
      have hlength : ¬ ((v :: rest).map alphabet.symbol).length < 2 := by
        rcases hsize with hsize | hsize
        · cases hsize
        · rw [List.length_map]
          omega
      have hsymbols : forall b, b ∈ (v :: rest).map alphabet.symbol -> b ≠ padByte := by
        intro b hb
        rcases List.mem_map.mp hb with ⟨n, hn, rfl⟩
        exact symbol_ne_pad hfaithful (hsmall n hn)
      rcases lastSymbols_of_symbols offset hsymbols with ⟨hlast, htake⟩
      rw [if_neg (by simp), htake, values_map_symbol hfaithful offset hsmall, hlast]
      simp only [bind, Except.bind, if_neg hlength, decide_true, Bool.not_true,
        Bool.false_eq_true, if_false, hspare, ne_eq, not_true_eq_false]
      rfl

/-!
# Texts
-/

/-- The values of a text: whole groups of four, and the last group. -/
structure Grouped (alphabet : Alphabet) (input : List UInt8) (front last : List Nat) : Prop where
  text : input = front.map alphabet.symbol ++ last.map alphabet.symbol
  small : forall v, v ∈ front -> v < 64
  whole : front.length % 4 = 0
  closes : Closes alphabet (last.map alphabet.symbol) last
  ends : last = [] -> front = []
  short : last.length ≤ 4

theorem Grouped.lastSize {input : List UInt8} {front last : List Nat}
    (hgrouped : Grouped alphabet input front last) :
    Base64.lastSize input.length = last.length := by
  have hwhole := hgrouped.whole
  have hshort := hgrouped.short
  have hlength : input.length = front.length + last.length := by
    rw [hgrouped.text, List.length_append, List.length_map, List.length_map]
  unfold Base64.lastSize
  rcases hgrouped.closes.size with hempty | hsize
  · rw [hgrouped.ends hempty, hempty] at hlength
    rw [hlength, hempty]
    rfl
  · split <;> omega

theorem lastSize_le (length : Nat) : Base64.lastSize length ≤ length := by
  unfold Base64.lastSize
  split <;> omega

theorem decode_eq_ok_iff_grouped (hfaithful : alphabet.IsFaithful) {input bytes : List UInt8} :
    decode alphabet .none input = .ok bytes <->
      exists front last, Grouped alphabet input front last ∧ bytes = pack front ++ pack last := by
  unfold decode
  simp only [except_bind_eq_ok, pure, Except.pure, Except.ok.injEq]
  constructor
  · rintro ⟨_, hstray, front, hfront, tail, htail, rfl⟩
    rcases values_eq_ok hfront with ⟨hfronttext, hsmall⟩
    rcases decodeLast_eq_ok htail with ⟨last, hcloses, rfl⟩
    have hle := lastSize_le input.length
    have hfrontlength : front.length = input.length - Base64.lastSize input.length := by
      have h := congrArg List.length hfronttext
      rw [List.length_take, List.length_map] at h
      omega
    have hlastlength : last.length = Base64.lastSize input.length := by
      have h := congrArg List.length hcloses.text
      rw [List.length_drop, List.length_map] at h
      omega
    have hsplit := List.take_append_drop (input.length - Base64.lastSize input.length) input
    refine ⟨front, last, ⟨?_, hsmall, ?_, hcloses.text ▸ hcloses, ?_, ?_⟩, rfl⟩
    · rw [← hfronttext, ← hcloses.text, hsplit]
    · rw [hfrontlength]
      unfold Base64.lastSize
      split <;> omega
    · intro hempty
      rw [hempty, List.length_nil] at hlastlength
      unfold Base64.lastSize at hlastlength hfrontlength
      refine List.length_eq_zero_iff.mp ?_
      split at hlastlength <;> split at hfrontlength <;> omega
    · rw [hlastlength]
      unfold Base64.lastSize
      split <;> omega
  · rintro ⟨front, last, hgrouped, rfl⟩
    have hsize := hgrouped.lastSize
    have hlength : input.length - Base64.lastSize input.length = front.length := by
      rw [hsize, hgrouped.text, List.length_append, List.length_map, List.length_map]
      omega
    have htake : input.take front.length = front.map alphabet.symbol := by
      rw [hgrouped.text]
      exact List.take_left' (List.length_map _)
    have hdrop : input.drop front.length = last.map alphabet.symbol := by
      rw [hgrouped.text]
      exact List.drop_left' (List.length_map _)
    refine ⟨(), ?_, front, ?_, pack last, ?_, rfl⟩
    · unfold strayEnd
      split
      · refine if_neg ?_
        rintro ⟨hone, _⟩
        have hshort := hgrouped.short
        have hclosed := hgrouped.closes.size
        unfold Base64.lastSize at hsize
        rcases hclosed with hempty | hclosed
        · rw [hempty, List.length_nil] at hsize
          split at hsize <;> omega
        · split at hsize <;> omega
      · rfl
    · rw [hlength, htake]
      exact values_map_symbol hfaithful 0 hgrouped.small
    · rw [hlength, hdrop]
      exact decodeLast_of_closes hfaithful _ hgrouped.closes

/-!
# Encoding what was decoded
-/

theorem encode_pack_group (alphabet : Alphabet) {a b c d : Nat} (ha : a < 64) (hb : b < 64)
    (hc : c < 64) (hd : d < 64) (rest : List UInt8) :
    encode alphabet (UInt8.ofNat (a * 4 + b / 16) :: UInt8.ofNat (b % 16 * 16 + c / 4) ::
        UInt8.ofNat (c % 4 * 64 + d) :: rest) =
      alphabet.symbol a :: alphabet.symbol b :: alphabet.symbol c :: alphabet.symbol d ::
        encode alphabet rest := by
  have hfirst : (a * 4 + b / 16) % 256 / 4 = a := by omega
  have hsecond : (a * 4 + b / 16) % 256 % 4 * 16 + (b % 16 * 16 + c / 4) % 256 / 16 = b := by
    omega
  have hthird : (b % 16 * 16 + c / 4) % 256 % 16 * 4 + (c % 4 * 64 + d) % 256 / 64 = c := by
    omega
  have hfourth : (c % 4 * 64 + d) % 256 % 64 = d := by omega
  rw [encode]
  simp only [UInt8.toNat_ofNat', Nat.reducePow, hfirst, hsecond, hthird, hfourth]

theorem encode_pack_append (alphabet : Alphabet) {front : List Nat} (bytes : List UInt8)
    (hsmall : forall v, v ∈ front -> v < 64) (hwhole : front.length % 4 = 0) :
    encode alphabet (pack front ++ bytes) = front.map alphabet.symbol ++ encode alphabet bytes := by
  fun_induction pack front with
  | case1 a b c d rest ih =>
      simp only [List.mem_cons, forall_eq_or_imp] at hsmall
      rcases hsmall with ⟨ha, hb, hc, hd, hrest⟩
      simp only [List.cons_append, List.map_cons]
      rw [encode_pack_group alphabet ha hb hc hd, ih hrest]
      simp only [List.length_cons] at hwhole
      omega
  | case2 a b c => simp at hwhole
  | case3 a b => simp at hwhole
  | case4 vs hgroup hthree htwo =>
      cases vs with
      | nil => rfl
      | cons a rest =>
          cases rest with
          | nil => simp at hwhole
          | cons b rest =>
              cases rest with
              | nil => exact absurd rfl (htwo a b)
              | cons c rest =>
                  cases rest with
                  | nil => exact absurd rfl (hthree a b c)
                  | cons d rest => exact absurd rfl (hgroup a b c d rest)

theorem encode_pack_last {last : List Nat}
    (hcloses : Closes alphabet (last.map alphabet.symbol) last) (hshort : last.length ≤ 4) :
    encode alphabet (pack last) = last.map alphabet.symbol := by
  rcases hcloses with ⟨_, hsmall, hsize, hspare⟩
  match last with
  | [] => rfl
  | [a] => simp at hsize
  | [a, b] =>
      simp only [List.mem_cons, List.not_mem_nil, or_false, forall_eq_or_imp, forall_eq] at hsmall
      have hspare : b % 16 = 0 := hspare
      have hfirst : (a * 4 + b / 16) % 256 / 4 = a := by omega
      have hsecond : (a * 4 + b / 16) % 256 % 4 * 16 = b := by omega
      rw [pack, encode]
      simp only [UInt8.toNat_ofNat', Nat.reducePow, hfirst, hsecond, List.map_cons, List.map_nil]
  | [a, b, c] =>
      simp only [List.mem_cons, List.not_mem_nil, or_false, forall_eq_or_imp, forall_eq] at hsmall
      have hspare : c % 4 = 0 := hspare
      have hfirst : (a * 4 + b / 16) % 256 / 4 = a := by omega
      have hsecond : (a * 4 + b / 16) % 256 % 4 * 16 + (b % 16 * 16 + c / 4) % 256 / 16 = b := by
        omega
      have hthird : (b % 16 * 16 + c / 4) % 256 % 16 * 4 = c := by omega
      rw [pack, encode]
      simp only [UInt8.toNat_ofNat', Nat.reducePow, hfirst, hsecond, hthird, List.map_cons,
        List.map_nil]
  | [a, b, c, d] =>
      simp only [List.mem_cons, List.not_mem_nil, or_false, forall_eq_or_imp, forall_eq] at hsmall
      rcases hsmall with ⟨ha, hb, hc, hd⟩
      rw [pack, pack, encode_pack_group alphabet ha hb hc hd]
      · rfl
      all_goals simp
  | a :: b :: c :: d :: e :: rest =>
      simp only [List.length_cons] at hshort
      omega

theorem Grouped.encode_eq {input : List UInt8} {front last : List Nat}
    (hgrouped : Grouped alphabet input front last) :
    encode alphabet (pack front ++ pack last) = input := by
  rw [encode_pack_append alphabet _ hgrouped.small hgrouped.whole,
    encode_pack_last hgrouped.closes hgrouped.short, ← hgrouped.text]

theorem ofNat_eq_of_toNat_eq {n : Nat} {b : UInt8} (hn : n = b.toNat) : UInt8.ofNat n = b := by
  rw [hn, UInt8.ofNat_toNat]

theorem grouped_of_last {last : List Nat}
    (hcloses : Closes alphabet (last.map alphabet.symbol) last) (hshort : last.length ≤ 4) :
    Grouped alphabet (last.map alphabet.symbol) [] last :=
  ⟨rfl, by simp, rfl, hcloses, fun _ => rfl, hshort⟩

theorem Grouped.cons {input : List UInt8} {front last group : List Nat}
    (hgrouped : Grouped alphabet input front last) (hlast : last ≠ [])
    (hsmall : forall v, v ∈ group -> v < 64) (hwhole : group.length = 4) :
    Grouped alphabet (group.map alphabet.symbol ++ input) (group ++ front) last where
  text := by rw [hgrouped.text, List.map_append, List.append_assoc]
  small := by
    intro v hv
    rcases List.mem_append.mp hv with hv | hv
    · exact hsmall v hv
    · exact hgrouped.small v hv
  whole := by
    have h := hgrouped.whole
    rw [List.length_append]
    omega
  closes := hgrouped.closes
  ends := fun hempty => absurd hempty hlast
  short := hgrouped.short

theorem exists_grouped (alphabet : Alphabet) (bytes : List UInt8) :
    exists front last, Grouped alphabet (encode alphabet bytes) front last ∧
      (bytes ≠ [] -> last ≠ []) ∧ pack front ++ pack last = bytes := by
  fun_induction encode alphabet bytes with
  | case1 =>
      exact ⟨[], [], grouped_of_last ⟨rfl, by simp, Or.inl rfl, rfl⟩ (by simp), by simp, rfl⟩
  | case2 a =>
      have ha := a.toNat_lt
      let last : List Nat := [a.toNat / 4, a.toNat % 4 * 16]
      have hcloses : Closes alphabet (last.map alphabet.symbol) last := by
        refine ⟨rfl, ?_, Or.inr (Nat.le_refl 2), Nat.mul_mod_left _ _⟩
        simp only [last, List.mem_cons, List.not_mem_nil, or_false, forall_eq_or_imp, forall_eq]
        omega
      refine ⟨[], last, grouped_of_last hcloses (by simp [last]), by simp [last], ?_⟩
      simp only [last, pack, List.nil_append, List.cons.injEq, and_true]
      exact ofNat_eq_of_toNat_eq (by omega)
  | case3 a b =>
      have ha := a.toNat_lt
      have hb := b.toNat_lt
      let last : List Nat :=
        [a.toNat / 4, a.toNat % 4 * 16 + b.toNat / 16, b.toNat % 16 * 4]
      have hcloses : Closes alphabet (last.map alphabet.symbol) last := by
        refine ⟨rfl, ?_, Or.inr (Nat.le_succ 2), Nat.mul_mod_left _ _⟩
        simp only [last, List.mem_cons, List.not_mem_nil, or_false, forall_eq_or_imp, forall_eq]
        omega
      refine ⟨[], last, grouped_of_last hcloses (by simp [last]), by simp [last], ?_⟩
      simp only [last, pack, List.nil_append, List.cons.injEq, and_true]
      exact ⟨ofNat_eq_of_toNat_eq (by omega), ofNat_eq_of_toNat_eq (by omega)⟩
  | case4 a b c rest ih =>
      have ha := a.toNat_lt
      have hb := b.toNat_lt
      have hc := c.toNat_lt
      let group : List Nat := [a.toNat / 4, a.toNat % 4 * 16 + b.toNat / 16,
        b.toNat % 16 * 4 + c.toNat / 64, c.toNat % 64]
      have hsmall : forall v, v ∈ group -> v < 64 := by
        simp only [group, List.mem_cons, List.not_mem_nil, or_false, forall_eq_or_imp, forall_eq]
        omega
      have hpack : forall vs, pack (group ++ vs) = a :: b :: c :: pack vs := by
        intro vs
        simp only [group, List.cons_append, List.nil_append, pack, List.cons.injEq, and_true]
        exact ⟨ofNat_eq_of_toNat_eq (by omega), ofNat_eq_of_toNat_eq (by omega),
          ofNat_eq_of_toNat_eq (by omega)⟩
      cases rest with
      | nil =>
          refine ⟨[], group, grouped_of_last ⟨rfl, hsmall, Or.inr (by simp [group]), rfl⟩
            (by simp [group]), by simp [group], ?_⟩
          exact hpack []
      | cons d rest =>
          rcases ih with ⟨front, last, hgrouped, hlast, hbytes⟩
          refine ⟨group ++ front, last, hgrouped.cons (hlast (by simp)) hsmall rfl,
            fun _ => hlast (by simp), ?_⟩
          rw [hpack, List.cons_append, List.cons_append, List.cons_append, hbytes]

/-- Without padding, a text is decoded exactly if it is what encoding writes. -/
theorem decode_eq_ok_iff (hfaithful : alphabet.IsFaithful) {input bytes : List UInt8} :
    decode alphabet .none input = .ok bytes <-> input = encode alphabet bytes := by
  rw [decode_eq_ok_iff_grouped hfaithful]
  constructor
  · rintro ⟨front, last, hgrouped, rfl⟩
    exact hgrouped.encode_eq.symm
  · intro hinput
    rcases exists_grouped alphabet bytes with ⟨front, last, hgrouped, _, hbytes⟩
    rw [hinput]
    exact ⟨front, last, hgrouped, hbytes.symm⟩

theorem encode_injective (hfaithful : alphabet.IsFaithful) {one other : List UInt8}
    (hsame : encode alphabet one = encode alphabet other) : one = other := by
  have hone := (decode_eq_ok_iff hfaithful).mpr hsame
  rw [(decode_eq_ok_iff hfaithful).mpr rfl] at hone
  cases hone
  rfl

/-!
# Texts as characters
-/

theorem exists_symbol_of_mem {bytes : List UInt8} {b : UInt8}
    (hmem : b ∈ encode alphabet bytes) : exists n, n < 64 ∧ b = alphabet.symbol n := by
  rcases exists_grouped alphabet bytes with ⟨front, last, hgrouped, _⟩
  rw [hgrouped.text, ← List.map_append] at hmem
  rcases List.mem_map.mp hmem with ⟨n, hn, rfl⟩
  refine ⟨n, ?_, rfl⟩
  rcases List.mem_append.mp hn with hfront | hlast
  · exact hgrouped.small n hfront
  · exact hgrouped.closes.small n hlast

theorem urlSafe_plain {bytes : List UInt8} {b : UInt8} (hmem : b ∈ encode urlSafe bytes) :
    b.toNat < 0x80 ∧ b ≠ 0x2E := by
  rcases exists_symbol_of_mem hmem with ⟨n, hsmall, rfl⟩
  have hplain : forall n, n < 64 ->
      (urlSafe.symbol n).toNat < 0x80 ∧ urlSafe.symbol n ≠ 0x2E := by
    decide
  exact hplain n hsmall

theorem toList_asText (symbols : List UInt8) :
    (asText symbols).toList = symbols.map fun b => Char.ofNat b.toNat := by
  unfold asText
  rw [String.toList_ofList]

theorem toNat_ofNat_of_ascii {n : Nat} (hascii : n < 0x80) : (Char.ofNat n).toNat = n := by
  have hvalid : n.isValidChar := Or.inl (by omega)
  rw [Char.ofNat, dif_pos hvalid]
  rfl

theorem encodeChars_asText {symbols : List UInt8}
    (hascii : forall b, b ∈ symbols -> b.toNat < 0x80) :
    Utf8.encodeChars (asText symbols).toList = symbols := by
  rw [toList_asText, Utf8.encodeChars_of_ascii, List.map_map]
  · refine (List.map_congr_left fun b hb => ?_).trans (List.map_id symbols)
    show UInt8.ofNat (Char.ofNat b.toNat).toNat = b
    rw [toNat_ofNat_of_ascii (hascii b hb), UInt8.ofNat_toNat]
  · intro c hc
    rcases List.mem_map.mp hc with ⟨b, hb, rfl⟩
    rw [toNat_ofNat_of_ascii (hascii b hb)]
    exact hascii b hb

end Base64
end Gatekeeper
