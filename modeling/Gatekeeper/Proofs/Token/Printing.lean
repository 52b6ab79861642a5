import Gatekeeper.Proofs.Json.PrintedRecords
import Gatekeeper.Proofs.Token.Decoding
import Gatekeeper.Proofs.Token.Headers
import Gatekeeper.Proofs.Token.Restrictions

/-!
# Printed claims and headers

Claims are printed with the members that are there.  What is printed is read back as
the same claims, and it can be read for its restrictions as well.  A printed header is
read as its algorithm.
-/

namespace Gatekeeper

open Json Reader

/-!
# Claims
-/

namespace Claims

theorem fills_number? {depth : Nat} {name : String} {put : Option Int → Claims → Claims}
    (hfind : record.find? name = some (time name put)) {state filled : Claims}
    (habsent : put .none state = state) {v : Option Int} (hfilled : put v state = filled)
    (htimed : forall n, v = some n -> Number.leastInt64 ≤ n ∧ n ≤ Number.mostInt64) :
    Record.Fills record depth (number? name v) state filled := by
  refine Record.Fills.free hfind habsent hfilled ?_
  intro n hn
  rcases htimed n hn with ⟨hleast, hmost⟩
  exact (takes_int64 hleast hmost).optional (solid_integer n)

theorem fills_string? {depth : Nat} {name : String} {put : Option String → Claims → Claims}
    (hfind : record.find? name = some (text name put)) {state filled : Claims}
    (habsent : put .none state = state) {v : Option String} (hfilled : put v state = filled) :
    Record.Fills record depth (string? name v) state filled :=
  Record.Fills.free hfind habsent hfilled fun s _ => (takes_string s).optional (solid_string s)

theorem fills_members {claims : Claims} (htimed : claims.IsTimed) (depth : Nat) :
    Record.Fills record depth claims.members none claims := by
  have hexp : Record.Fills record depth (number? "exp" claims.exp) none
      { none with exp := claims.exp } :=
    fills_number? rfl rfl rfl fun n hn => htimed n (Or.inl hn)
  have hiat : Record.Fills record depth (number? "iat" claims.iat)
      { none with exp := claims.exp } { none with exp := claims.exp, iat := claims.iat } :=
    fills_number? rfl rfl rfl fun n hn => htimed n (Or.inr (Or.inl hn))
  have hnbf : Record.Fills record depth (number? "nbf" claims.nbf)
      { none with exp := claims.exp, iat := claims.iat }
      ⟨claims.exp, claims.iat, claims.nbf, .none, .none, .none⟩ :=
    fills_number? rfl rfl rfl fun n hn => htimed n (Or.inr (Or.inr hn))
  have hiss : Record.Fills record depth (string? "iss" claims.iss)
      ⟨claims.exp, claims.iat, claims.nbf, .none, .none, .none⟩
      ⟨claims.exp, claims.iat, claims.nbf, claims.iss, .none, .none⟩ :=
    fills_string? rfl rfl rfl
  have hsub : Record.Fills record depth (string? "sub" claims.sub)
      ⟨claims.exp, claims.iat, claims.nbf, claims.iss, .none, .none⟩
      { claims with jti := .none } :=
    fills_string? rfl rfl rfl
  have hjti : Record.Fills record depth (string? "jti" claims.jti)
      { claims with jti := .none } claims :=
    fills_string? rfl rfl rfl
  exact ((((hexp.append hiat).append hnbf).append hiss).append hsub).append hjti

theorem nodup_keys (claims : Claims) : (claims.members.map Prod.fst).Nodup := by
  have hsub : (claims.members.map Prod.fst).Sublist ["exp", "iat", "nbf", "iss", "sub", "jti"] := by
    simp only [members, List.map_append]
    exact (((((keys_sublist claims.exp).append (keys_sublist claims.iat)).append
      (keys_sublist claims.nbf)).append (keys_sublist claims.iss)).append
      (keys_sublist claims.sub)).append (keys_sublist claims.jti)
  exact hsub.nodup (by decide)

theorem parse_bytes {claims : Claims} (htimed : claims.IsTimed) :
    parse claims.bytes = .ok claims := by
  -- The members stand one level below the limit of the depth.
  have hlacks : record.known.all (fun m => m.mayLack) = true := rfl
  exact (fills_members htimed 126).outcome (nodup_keys claims)
    fun m hm => Or.inl (List.all_eq_true.mp hlacks m hm)

end Claims

/-!
# Restrictions
-/

namespace Restriction

theorem takes_passed {depth : Nat} {reader : Nat → Reader α} {chars : List Char} {a : α}
    (htakes : Takes (reader depth) chars a) (hsolid : Solid chars) (name : String)
    (mayTrail : Bool) : Takes ((passed name mayTrail reader).read depth) chars id := by
  intro b rest hstops
  have hread := tolerant_of_ok (htakes.optional hsolid b rest hstops)
  show (tolerant (optional (reader depth)) >>= fun _ => pure id) _ = _
  rw [bind_of_ok hread]
  rfl

theorem takes_named (depth : Nat) (name : String)
    (put : Tried Names → Restriction → Restriction) (s : String) :
    Takes ((named name put).read (depth + 1)) (stringChars s) (put (tried (some (.string s)))) := by
  intro b rest hstops
  have hvalue := takes_value_string (depth + 1) s b rest hstops
  exact map_eq_ok.mpr ⟨_, names_of_value hvalue, rfl⟩

theorem fills_known_time {depth : Nat} {name : String}
    (hfind : record.find? name = some (passed name true value)) {v : Option Int}
    (htimed : forall n, v = some n -> Number.leastInt64 ≤ n ∧ n ≤ Number.mostInt64)
    (state : Restriction) : Record.Fills record depth (Claims.number? name v) state state := by
  refine Record.Fills.optional hfind (fun _ => rfl) ?_
  intro n hn
  rcases htimed n hn with ⟨hleast, hmost⟩
  exact ⟨id, takes_passed (takes_value_integer depth hleast hmost) (solid_integer n) name true, rfl⟩

theorem fills_members {claims : Claims} (htimed : claims.IsTimed) (depth : Nat) :
    Record.Fills record (depth + 1) claims.members none
      { none with issuer := tried (claims.iss.map .string) } := by
  have hexp : Record.Fills record (depth + 1) (Claims.number? "exp" claims.exp) none none :=
    fills_known_time rfl (fun n hn => htimed n (Or.inl hn)) none
  have hiat : Record.Fills record (depth + 1) (Claims.number? "iat" claims.iat) none none := by
    refine Record.Fills.optional_passed rfl none fun n hn => ?_
    rcases htimed n (Or.inr (Or.inl hn)) with ⟨hleast, hmost⟩
    exact (takes_value_integer depth hleast hmost).skip
  have hnbf : Record.Fills record (depth + 1) (Claims.number? "nbf" claims.nbf) none none :=
    fills_known_time rfl (fun n hn => htimed n (Or.inr (Or.inr hn))) none
  let issued : Restriction := { none with issuer := tried (claims.iss.map .string) }
  have hiss : Record.Fills record (depth + 1) (Claims.string? "iss" claims.iss) none issued := by
    refine Record.Fills.optional rfl ?_ ?_
    · intro habsent
      simp only [issued, habsent]
      rfl
    · intro s hs
      refine ⟨_, takes_named depth "iss" _ s, ?_⟩
      simp only [issued, hs, Option.map_some]
  have hsub : Record.Fills record (depth + 1) (Claims.string? "sub" claims.sub) issued issued :=
    Record.Fills.optional rfl (fun _ => rfl)
      fun s _ => ⟨id, takes_passed (takes_string s) (solid_string s) "sub" false, rfl⟩
  have hjti : Record.Fills record (depth + 1) (Claims.string? "jti" claims.jti) issued issued :=
    Record.Fills.optional_passed rfl issued fun s _ => (takes_value_string depth s).skip
  exact ((((hexp.append hiat).append hnbf).append hiss).append hsub).append hjti

theorem parse_claims {claims : Claims} (htimed : claims.IsTimed) :
    parse claims.bytes = .ok { none with issuer := tried (claims.iss.map .string) } := by
  have hlacks : record.known.all (fun m => m.mayLack) = true := rfl
  exact (fills_members htimed 125).outcome (Claims.nodup_keys claims)
    fun m hm => Or.inl (List.all_eq_true.mp hlacks m hm)

end Restriction

/-!
# Headers
-/

namespace Header

def members (type : Option String) (algorithm : Algorithm) : List (String × Value) :=
  (type.map fun type => ("typ", Value.string type)).toList ++
    [("alg", Value.string algorithm.name)]

def bytes (type : Option String) (algorithm : Algorithm) : List UInt8 :=
  (Value.object (members type algorithm)).bytes

theorem takes_checked {depth : Nat} {reader : Nat → Reader α} {chars : List Char} {a : α}
    (htakes : Takes (reader depth) chars a) (hsolid : Solid chars) (name : String) :
    Takes ((checked name reader).read depth) chars id := by
  intro b rest hstops
  show (optional (reader depth) >>= fun _ => pure id) _ = _
  rw [bind_of_ok (htakes.optional hsolid b rest hstops)]
  rfl

theorem takes_algorithm (depth : Nat) (algorithm : Algorithm) :
    Takes (Header.algorithm depth) (stringChars algorithm.name) algorithm := by
  intro b rest _
  have hname : algorithmName (Utf8.encodeChars (stringChars algorithm.name) ++ b :: rest) =
      .ok algorithm (b :: rest) := by
    unfold algorithmName
    rw [encodeChars_stringChars, advance_bind,
      bind_of_ok (stringTail_printed algorithm.name (b :: rest)),
      Algorithm.ofName?_eq_some_iff.mpr rfl]
    rfl
  exact hname

theorem fills_members (depth : Nat) (type : Option String) (algorithm : Algorithm) :
    Record.Fills record depth (members type algorithm) none (some algorithm) := by
  have htype : Record.Fills record depth
      (type.map fun type => ("typ", Value.string type)).toList none none :=
    Record.Fills.optional rfl (fun _ => rfl)
      fun s _ => ⟨id, takes_checked (takes_string s) (solid_string s) "typ", rfl⟩
  have halgorithm : Record.Fills record depth [("alg", Value.string algorithm.name)] none
      (some algorithm) :=
    .known rfl ((takes_algorithm depth algorithm).map fun algorithm _ => some algorithm) .nil
  exact htype.append halgorithm

theorem nodup_keys (type : Option String) (algorithm : Algorithm) :
    ((members type algorithm).map Prod.fst).Nodup := by
  unfold members
  rw [List.map_append]
  exact ((keys_sublist type).append (List.Sublist.refl ["alg"])).nodup (by decide)

theorem parse_bytes (type : Option String) (algorithm : Algorithm) :
    parse (bytes type algorithm) = .ok algorithm := by
  have hneeded : forall m, m ∈ record.known ->
      m.mayLack = true ∨ m.name ∈ (members type algorithm).map Prod.fst := by
    intro m hm
    have hall : record.known.all (fun m => m.mayLack || m.name = "alg") = true := rfl
    have halg : m.mayLack = true ∨ m.name = "alg" := by
      simpa using List.all_eq_true.mp hall m hm
    refine halg.imp_right fun hname => ?_
    rw [hname, members, List.map_append]
    exact List.mem_append_right _ List.mem_cons_self
  have houtcome := (fills_members 126 type algorithm).outcome (nodup_keys type algorithm) hneeded
  unfold parse
  rw [except_bind_eq_ok]
  exact ⟨some algorithm, houtcome, rfl⟩

end Header
end Gatekeeper
