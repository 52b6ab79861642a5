import Gatekeeper.Proofs.Results
import Gatekeeper.Proofs.Text.Utf8
import Gatekeeper.Proofs.Url.Cleaning

/-!
# Authorities

What is read of an authority does not depend on what follows it.  Blanks may not
stand at its end: neither a host nor a port has any.
-/

namespace Gatekeeper
namespace Url

variable {cs xs after : List Char} {c : Char}

theorem toNat_le_of_isEdge (hedge : isEdge c = true) : c.toNat ≤ 0x20 :=
  of_decide_eq_true hedge

theorem ne_of_isEdge {d : Char} (hedge : isEdge c = true) (hd : isEdge d = false) : c ≠ d := by
  rintro rfl
  rw [hedge] at hd
  cases hd

theorem isSlash_of_isEdge (hedge : isEdge c = true) : isSlash c = false := by
  unfold isSlash
  rw [decide_eq_false (ne_of_isEdge hedge rfl), decide_eq_false (ne_of_isEdge hedge rfl)]
  rfl

theorem lower_of_isEdge (hedge : isEdge c = true) : Ascii.lower c = c := by
  unfold Ascii.lower
  rw [if_neg]
  rintro ⟨hletter, _⟩
  have hcode : 65 ≤ c.toNat := UInt32.le_iff_toNat_le.mp hletter
  have hle := toNat_le_of_isEdge hedge
  omega

/-!
# Hosts
-/

theorem mem_decodeBytes {b : UInt8} (hhex : Ascii.hexValue? b = none) (hpercent : b ≠ 0x25)
    (bytes : List UInt8) (hmem : b ∈ bytes) : b ∈ decodeBytes bytes := by
  induction bytes using decodeBytes.induct with
  | case1 => exact hmem
  | case2 a => exact hmem
  | case3 a a' => exact hmem
  | case4 first second rest high low hlow hhigh ih =>
      rw [decodeBytes, if_pos rfl, hlow, hhigh]
      rcases List.mem_cons.mp hmem with rfl | hmem
      · exact absurd rfl hpercent
      rcases List.mem_cons.mp hmem with rfl | hmem
      · rw [hhex] at hhigh
        cases hhigh
      rcases List.mem_cons.mp hmem with rfl | hmem
      · rw [hhex] at hlow
        cases hlow
      exact List.mem_cons_of_mem _ (ih hmem)
  | case5 first second rest hneither ih =>
      rw [decodeBytes, if_pos rfl]
      rcases List.mem_cons.mp hmem with rfl | hmem
      · exact absurd rfl hpercent
      split
      · next high low hhigh hlow => exact absurd hlow (hneither high low hhigh)
      · exact List.mem_cons_of_mem _ (ih hmem)
  | case6 a first second rest ha ih =>
      rw [decodeBytes, if_neg ha]
      rcases List.mem_cons.mp hmem with rfl | hmem
      · exact List.mem_cons_self
      · exact List.mem_cons_of_mem _ (ih hmem)

theorem hexValue?_of_isEdge (hedge : isEdge c = true) :
    Ascii.hexValue? (Ascii.byte c) = none ∧ Ascii.byte c ≠ 0x25 := by
  have hle := toNat_le_of_isEdge hedge
  have hbyte : (Ascii.byte c).toNat = c.toNat := Utf8.toNat_ofNat_of_lt (by omega)
  unfold Ascii.hexValue? Ascii.isDigit
  simp only [UInt8.le_iff_toNat_le, ne_eq, ← UInt8.toNat_inj, hbyte, UInt8.reduceToNat,
    Bool.and_eq_true, decide_eq_true_eq]
  rw [if_neg (by omega), if_neg (by omega), if_neg (by omega)]
  exact ⟨rfl, by omega⟩

theorem name?_of_isEdge [International] (hedge : isEdge c = true) (hmem : c ∈ cs) :
    name? (decodeBytes (Utf8.encodeChars cs)) = none := by
  have hle := toNat_le_of_isEdge hedge
  have hbyte : Ascii.byte c ∈ decodeBytes (Utf8.encodeChars cs) := by
    refine mem_decodeBytes (hexValue?_of_isEdge hedge).left (hexValue?_of_isEdge hedge).right _ ?_
    refine List.mem_flatMap.mpr ⟨c, hmem, ?_⟩
    rw [Utf8.utf8EncodeChar_of_ascii (by omega)]
    exact List.mem_singleton_self _
  have hlower : Ascii.lower (Char.ofNat (Ascii.byte c).toNat) = c := by
    rw [Utf8.toNat_ofNat_of_lt (by omega), Char.ofNat_toNat, lower_of_isEdge hedge]
  have hthere : c ∈ (decodeBytes (Utf8.encodeChars cs)).map fun b =>
      Ascii.lower (Char.ofNat b.toNat) := List.mem_map.mpr ⟨_, hbyte, hlower⟩
  have hforbidden : isForbidden c = true := by
    unfold isForbidden
    rw [decide_eq_true hle]
    rfl
  have hkept : c ∉ ['<', '>'] := by
    simp only [List.mem_cons, List.not_mem_nil, or_false, not_or]
    exact ⟨ne_of_isEdge hedge rfl, ne_of_isEdge hedge rfl⟩
  simp only [name?]
  split
  · rw [if_pos (List.any_eq_true.mpr ⟨c, hthere, hforbidden⟩)]
  · rw [if_pos (List.any_eq_true.mpr ⟨c, hthere, by rw [hforbidden, decide_eq_true hkept]; rfl⟩)]

theorem not_read_of_blanks [International] (hcs : cs ≠ []) (hxs : xs ≠ [])
    (hedges : forall c, c ∈ xs -> isEdge c = true) (host : Host) :
    Host.read (cs ++ xs) ≠ .ok host := by
  intro hread
  have hlast : isEdge (xs.getLast hxs) = true := hedges _ (List.getLast_mem hxs)
  rcases List.exists_cons_of_ne_nil hcs with ⟨first, rest, rfl⟩
  unfold Host.read at hread
  split at hread
  · next rest' hbracket =>
      have hrest : rest' = rest ++ xs := (List.cons.inj hbracket).right.symm
      unfold bracketed at hread
      rw [hrest, List.getLast?_append_of_ne_nil _ hxs, List.getLast?_eq_some_getLast hxs,
        if_neg] at hread
      · cases hread
      · rw [Option.some.injEq]
        exact ne_of_isEdge hlast rfl
  · rw [name?_of_isEdge hlast (List.mem_append_right _ (List.getLast_mem hxs))] at hread
    cases hread

/-!
# Users and ports
-/

theorem splitUser_of_not_mem (hat : '@' ∉ xs) : splitUser xs = none := by
  induction xs with
  | nil => rfl
  | cons c rest ih =>
      rw [List.mem_cons, not_or] at hat
      rw [splitUser, ih hat.right]
      exact if_neg (Ne.symm hat.left)

theorem splitUser_append (hat : '@' ∉ xs) (cs : List Char) :
    splitUser (cs ++ xs) = (splitUser cs).map fun parts => (parts.1, parts.2 ++ xs) := by
  induction cs with
  | nil => exact splitUser_of_not_mem hat
  | cons c rest ih =>
      rw [List.cons_append, splitUser, splitUser, ih]
      cases splitUser rest with
      | some parts => rfl
      | none =>
          by_cases hc : c = '@'
          · simp only [Option.map_none, if_pos hc, Option.map_some]
          · simp only [Option.map_none, if_neg hc]

theorem eq_of_splitUser {before rest : List Char} (hsplit : splitUser cs = some (before, rest)) :
    cs = before ++ '@' :: rest := by
  induction cs generalizing before with
  | nil => cases hsplit
  | cons c cs ih =>
      rw [splitUser] at hsplit
      split at hsplit
      · next before' after' hrest =>
          cases hsplit
          rw [ih hrest, List.cons_append]
      · split at hsplit
        · next hc =>
            cases hsplit
            rw [hc, List.nil_append]
        · cases hsplit

theorem exists_splitPort_cons {bracket : Bool} (hc : ¬(c = ':' ∧ (!bracket) = true)) :
    exists inside : Bool, forall rest : List Char,
      splitPort bracket (c :: rest) =
        (c :: (splitPort inside rest).1, (splitPort inside rest).2) := by
  refine ⟨if c = '[' then true else if c = ']' then false else bracket, fun rest => ?_⟩
  rw [splitPort, if_neg hc]

theorem splitPort_of_not_mem (hcolon : ':' ∉ xs) (bracket : Bool) :
    splitPort bracket xs = (xs, []) := by
  induction xs generalizing bracket with
  | nil => rfl
  | cons c rest ih =>
      rw [List.mem_cons, not_or] at hcolon
      have hc : ¬(c = ':' ∧ (!bracket) = true) := fun h => hcolon.left h.left.symm
      rcases exists_splitPort_cons hc with ⟨inside, hsplit⟩
      rw [hsplit, ih hcolon.right]

theorem splitPort_append (hcolon : ':' ∉ xs) (cs : List Char) (bracket : Bool) :
    splitPort bracket (cs ++ xs) =
      if (splitPort bracket cs).2 = [] then ((splitPort bracket cs).1 ++ xs, [])
      else ((splitPort bracket cs).1, (splitPort bracket cs).2 ++ xs) := by
  induction cs generalizing bracket with
  | nil =>
      rw [List.nil_append, splitPort_of_not_mem hcolon]
      rfl
  | cons c rest ih =>
      rw [List.cons_append]
      by_cases hc : c = ':' ∧ (!bracket) = true
      · rw [splitPort, splitPort, if_pos hc, if_pos hc, if_neg (List.cons_ne_nil c rest),
          List.cons_append]
      · rcases exists_splitPort_cons hc with ⟨inside, hsplit⟩
        rw [hsplit, hsplit, ih]
        by_cases hport : (splitPort inside rest).2 = []
        · rw [if_pos hport, if_pos hport, List.cons_append]
        · rw [if_neg hport, if_neg hport]

theorem eq_of_splitPort (cs : List Char) (bracket : Bool) :
    (splitPort bracket cs).1 ++ (splitPort bracket cs).2 = cs := by
  induction cs generalizing bracket with
  | nil => rfl
  | cons c rest ih =>
      by_cases hc : c = ':' ∧ (!bracket) = true
      · rw [splitPort, if_pos hc, List.nil_append]
      · rcases exists_splitPort_cons hc with ⟨inside, hsplit⟩
        rw [hsplit, List.cons_append, ih]

theorem head?_of_readPort {port : Option Nat} (hread : readPort cs = .ok port) :
    cs.dropWhile isDigit = [] ∨ (cs.dropWhile isDigit).head? = some '\\' := by
  simp only [readPort] at hread
  split at hread
  · next c rest n hdrop hnumber =>
      split at hread
      · next hc =>
          rw [hdrop, hc.left]
          exact Or.inr rfl
      · cases hread
  · next hdrop _ => exact Or.inl hdrop
  · cases hread

theorem not_readPort_of_blanks {port : Option Nat} (hread : readPort cs = .ok port)
    (hslash : '\\' ∉ cs) (hxs : xs ≠ []) (hedges : forall c, c ∈ xs -> isEdge c = true)
    (other : Option Nat) : readPort (cs ++ xs) ≠ .ok other := by
  intro hother
  have hdigits : cs.dropWhile isDigit = [] := by
    refine (head?_of_readPort hread).resolve_right fun hhead => hslash ?_
    exact (List.dropWhile_sublist _).mem (List.mem_of_mem_head? hhead)
  rcases List.exists_cons_of_ne_nil hxs with ⟨c, rest, rfl⟩
  have hc := hedges c List.mem_cons_self
  have hdigit : ¬isDigit c = true := by
    intro hdigit
    have hcode : 48 ≤ c.toNat :=
      UInt32.le_iff_toNat_le.mp (of_decide_eq_true (Bool.and_eq_true_iff.mp hdigit).left)
    have hle := toNat_le_of_isEdge hc
    omega
  have hdrop : (cs ++ c :: rest).dropWhile isDigit = c :: rest := by
    rw [List.dropWhile_append_of_pos (List.dropWhile_eq_nil_iff.mp hdigits),
      List.dropWhile_cons_of_neg hdigit]
  rcases head?_of_readPort hother with hnil | hhead
  · rw [hdrop] at hnil
    cases hnil
  · rw [hdrop, List.head?_cons, Option.some.injEq] at hhead
    exact ne_of_isEdge hc rfl hhead

/-!
# Whole authorities
-/

theorem splitAuthority_eq_ok_iff {given : Credentials} {rest : List Char} :
    splitAuthority cs after = .ok (given, rest) <->
      splitUser cs = none ∧ given = credentials [] ∧ rest = cs ∨
        (exists user : List Char, splitUser cs = some (user, rest) ∧ given = credentials user ∧
          (user = [] -> rest = [] -> after = [])) := by
  unfold splitAuthority
  cases huser : splitUser cs with
  | none =>
      constructor
      · intro hsplit
        cases hsplit
        exact Or.inl ⟨rfl, rfl, rfl⟩
      · rintro (⟨_, rfl, rfl⟩ | ⟨_, hnone, _⟩)
        · rfl
        · cases hnone
  | some parts =>
      rcases parts with ⟨user, rest'⟩
      cases user with
      | nil =>
          by_cases hempty : rest' = [] ∧ after ≠ []
          · simp only [if_pos hempty]
            constructor
            · intro hsplit
              cases hsplit
            · rintro (⟨hnone, _⟩ | ⟨user, hsome, _, hkept⟩)
              · cases hnone
              · cases hsome
                exact absurd (hkept rfl hempty.left) hempty.right
          · simp only [if_neg hempty]
            constructor
            · intro hsplit
              cases hsplit
              exact Or.inr ⟨[], rfl, rfl, fun _ hrest =>
                not_not.mp fun hafter => hempty ⟨hrest, hafter⟩⟩
            · rintro (⟨hnone, _⟩ | ⟨user, hsome, rfl, _⟩)
              · cases hnone
              · cases hsome
                rfl
      | cons c more =>
          constructor
          · intro hsplit
            cases hsplit
            exact Or.inr ⟨c :: more, rfl, rfl, fun h => absurd h (List.cons_ne_nil _ _)⟩
          · rintro (⟨hnone, _⟩ | ⟨user, hsome, rfl, _⟩)
            · cases hnone
            · cases hsome
              rfl

theorem splitAuthority_append {given : Credentials} {rest : List Char}
    (hsplit : splitAuthority cs after = .ok (given, rest)) (hrest : rest ≠ [])
    (hat : '@' ∉ xs) (after' : List Char) :
    splitAuthority (cs ++ xs) after' = .ok (given, rest ++ xs) := by
  rw [splitAuthority_eq_ok_iff, splitUser_append hat]
  rcases splitAuthority_eq_ok_iff.mp hsplit with ⟨hnone, hgiven, rfl⟩ | ⟨user, hsome, hgiven, _⟩
  · rw [hnone]
    exact Or.inl ⟨rfl, hgiven, rfl⟩
  · rw [hsome]
    refine Or.inr ⟨user, rfl, hgiven, fun _ hnil => ?_⟩
    exact absurd (List.append_eq_nil_iff.mp hnil).left hrest

theorem mem_of_splitAuthority {given : Credentials} {rest : List Char}
    (hsplit : splitAuthority cs after = .ok (given, rest)) (hmem : c ∈ rest) : c ∈ cs := by
  rcases splitAuthority_eq_ok_iff.mp hsplit with ⟨_, _, rfl⟩ | ⟨user, hsome, _⟩
  · exact hmem
  · rw [eq_of_splitUser hsome]
    exact List.mem_append_right _ (List.mem_cons_of_mem _ hmem)

theorem authority_eq_ok_iff [International] {a : Authority} :
    authority cs after = .ok a <->
      exists (given : Credentials) (rest : List Char),
        splitAuthority cs after = .ok (given, rest) ∧ (splitPort false rest).1 ≠ [] ∧
          (exists host : Host, Host.read (splitPort false rest).1 = .ok host ∧
            exists port : Option Nat, portOf (splitPort false rest).2 = .ok port ∧
              a = ⟨given, host, port⟩) := by
  unfold authority
  rw [except_bind_eq_ok]
  constructor
  · rintro ⟨⟨given, rest⟩, hsplit, hrest⟩
    refine ⟨given, rest, hsplit, ?_⟩
    simp only at hrest
    split at hrest
    · cases hrest
    · next hhost =>
        rcases except_bind_eq_ok.mp hrest with ⟨host, hhost', hport⟩
        rcases except_bind_eq_ok.mp hport with ⟨port, hport', heq⟩
        cases heq
        exact ⟨hhost, host, hhost', port, hport', rfl⟩
  · rintro ⟨given, rest, hsplit, hne, host, hhost, port, hport, rfl⟩
    refine ⟨(given, rest), hsplit, ?_⟩
    simp only [if_neg hne, hhost, hport]
    rfl

/-- An authority is read alike whatever follows it. -/
theorem authority_of_after [International] {a : Authority}
    (hread : authority cs after = .ok a) (after' : List Char) : authority cs after' = .ok a := by
  rw [authority_eq_ok_iff] at hread ⊢
  rcases hread with ⟨given, rest, hsplit, hne, hparts⟩
  refine ⟨given, rest, ?_, hne, hparts⟩
  have hrest : rest ≠ [] := by
    rintro rfl
    exact hne rfl
  have happend := splitAuthority_append hsplit hrest List.not_mem_nil after'
  rw [List.append_nil, List.append_nil] at happend
  exact happend

theorem not_authority_of_blanks [International] {a : Authority}
    (hread : authority cs after = .ok a) (hslash : '\\' ∉ cs) (hxs : xs ≠ [])
    (hedges : forall c, c ∈ xs -> isEdge c = true) (after' : List Char) (b : Authority) :
    authority (cs ++ xs) after' ≠ .ok b := by
  have hat : '@' ∉ xs := fun hmem => ne_of_isEdge (hedges _ hmem) rfl rfl
  have hcolon : ':' ∉ xs := fun hmem => ne_of_isEdge (hedges _ hmem) rfl rfl
  intro hother
  rcases authority_eq_ok_iff.mp hread with ⟨given, rest, hsplit, hne, _, _, port, hport, _⟩
  rcases authority_eq_ok_iff.mp hother with ⟨_, rest', hsplit', _, host', hhost', port', hport', _⟩
  have hrest : rest ≠ [] := by
    rintro rfl
    exact hne rfl
  have hrest' : rest' = rest ++ xs := by
    rw [splitAuthority_append hsplit hrest hat] at hsplit'
    cases hsplit'
    rfl
  -- The blanks follow the port where there is one, and the host otherwise.
  rw [hrest', splitPort_append hcolon] at hhost' hport'
  cases htext : (splitPort false rest).2 with
  | nil =>
      rw [if_pos htext] at hhost'
      exact not_read_of_blanks hne hxs hedges host' hhost'
  | cons c digits =>
      rw [htext, if_neg (List.cons_ne_nil _ _)] at hport'
      rw [htext] at hport
      refine not_readPort_of_blanks hport (fun hmem => hslash ?_) hxs hedges port' hport'
      refine mem_of_splitAuthority hsplit ?_
      rw [← eq_of_splitPort rest false, htext]
      exact List.mem_append_right _ (List.mem_cons_of_mem _ hmem)

/-!
# One mapping of names
-/

/-- Knows one name beyond ASCII only, `bücher.example`. -/
@[reducible] def International.bookshop : International where
  toAscii bytes :=
    if bytes = Utf8.encode "bücher.example" then some "xn--bcher-kva.example".toList else none

end Url
end Gatekeeper
