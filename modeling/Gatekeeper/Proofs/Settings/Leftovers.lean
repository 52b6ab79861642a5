import Gatekeeper.Proofs.Login.Responses
import Gatekeeper.Settings

/-!
# What is left of a document

A configuration, and the properties of a login that asks for another factor, are
read off the value in front of a text.  What is left after it is not looked at, so
that it need not be blank.
-/

namespace Gatekeeper

open Json Json.Reader

/-!
# Readings of settings
-/

namespace ProviderSettings

theorem tame_record : record.Tame := by
  refine List.forall_mem_cons.mpr ⟨?_, List.forall_mem_cons.mpr ⟨?_,
    List.forall_mem_singleton.mpr ?_⟩⟩
  · exact Member.tame_free (fun _ => tame_string.optional) _ _
  · exact Member.tame_free tame_object _ _
  · exact Member.tame_free (fun _ => tame_uint64.optional) _ _

end ProviderSettings

namespace CacheSettings

theorem tame_record : record.Tame :=
  List.forall_mem_singleton.mpr (Member.tame_free (fun _ => tame_uint64.optional) _ _)

end CacheSettings

namespace VerifierSettings

theorem tame_text (name : String) (put : Option String → VerifierSettings → VerifierSettings)
    (depth : Nat) : Tame ((text name put).read depth) :=
  Member.tame_free (fun _ => tame_string.optional) _ _ depth

theorem tame_record : record.Tame := by
  refine List.forall_mem_cons.mpr ⟨tame_text _ _, List.forall_mem_cons.mpr ⟨tame_text _ _,
    List.forall_mem_cons.mpr ⟨tame_text _ _, List.forall_mem_cons.mpr ⟨tame_text _ _,
      List.forall_mem_cons.mpr ⟨?_, List.forall_mem_singleton.mpr ?_⟩⟩⟩⟩⟩
  · exact Member.tame_free (fun depth => (tame_strings depth).optional) _ _
  · exact Member.tame_free (fun _ => tame_uint64) _ _

end VerifierSettings

namespace Settings

theorem tame_record : record.Tame := by
  refine List.forall_mem_cons.mpr ⟨?_, List.forall_mem_cons.mpr ⟨?_,
    List.forall_mem_singleton.mpr ?_⟩⟩
  · exact Member.tame_free (Record.tame_read ProviderSettings.tame_record) _ _
  · exact Member.tame_free (Record.tame_read CacheSettings.tame_record) _ _
  · exact Member.tame_free (Record.tame_read VerifierSettings.tame_record) _ _

theorem tame_read (depth : Nat) : Tame (record.read depth) :=
  Record.tame_read tame_record depth

theorem sealed_read (depth : Nat) : Grasps Anything (record.read depth) :=
  Record.grasps_read tame_record.graspable depth

theorem parse_eq_ok_iff {document : String} {settings : Settings} :
    parse document = .ok settings <-> ofBytes (Utf8.encode document) = .ok settings := by
  unfold parse
  exact mapError_eq_ok

end Settings

namespace Authenticator

theorem incomplete_iff {username : String} {response : Response} {o : Object}
    (hstatus : response.status = 202) :
    (interpret username response).result = .error (.incomplete o) <->
      response.SaysJson ∧ (object depthLimit).outcome response.body = .ok o := by
  have hgives : response.Gives o <-> (object depthLimit).outcome response.body = .ok o := by
    rw [outcome_eq_ok]
    exact exists_congr fun rest => object_eq_ok_iff.symm
  rw [interpret_eq_iff (by simp), ← hgives]
  constructor
  · intro hmeans
    cases hmeans with
    | partly _ hjson hobject => exact ⟨hjson, hobject⟩
  · rintro ⟨hjson, hobject⟩
    exact Means.partly hstatus hjson hobject

end Authenticator

/-- A configuration and the properties of an incomplete login are those of the value in front of the
text, which is a document only if blanks are left; whatever else is left, and whatever is written
after it, they stay the same. -/
theorem leftovers_are_ignored (document username : String) (contentType : Option String)
    (body : List UInt8) (settings : Settings) (o : Object) :
    ((Settings.parse document = .ok settings <-> exists v rest,
        StartsWith (Utf8.encode document) v rest ∧ Settings.ofBytes v = .ok settings) ∧
      (forall v rest, StartsWith (Utf8.encode document) v rest ->
        Settings.ofBytes v = .ok settings -> (IsDocument (Utf8.encode document) <-> Blanks rest)) ∧
      (Settings.parse document = .ok settings ->
        forall more, Settings.parse (document ++ more) = .ok settings)) ∧
    ((Authenticator.interpret username ⟨202, contentType, body⟩).result =
          .error (.incomplete o) <->
        Response.SaysJson ⟨202, contentType, body⟩ ∧ exists v rest,
          StartsWith body v rest ∧ (object depthLimit).outcome v = .ok o) ∧
      (forall v rest, StartsWith body v rest -> (object depthLimit).outcome v = .ok o ->
        (IsDocument body <-> Blanks rest)) ∧
      ((Authenticator.interpret username ⟨202, contentType, body⟩).result =
          .error (.incomplete o) ->
        forall more, (Authenticator.interpret username ⟨202, contentType, body ++ more⟩).result =
          .error (.incomplete o)) := by
  refine ⟨⟨?_, fun v rest hstarts hv => ?_, fun hread more => ?_⟩,
    ?_, fun v rest hstarts hv => ?_, fun hread more => ?_⟩
  · rw [Settings.parse_eq_ok_iff]
    exact (Settings.tame_read _).outcome_eq_ok_iff (Settings.sealed_read _)
  · exact (Settings.tame_read _).isDocument_iff (Settings.sealed_read _) hstarts hv
  · rw [Settings.parse_eq_ok_iff] at hread ⊢
    rw [Utf8.encode_append]
    exact (Settings.tame_read _).outcome_append (Settings.sealed_read _) hread _
  · rw [Authenticator.incomplete_iff rfl,
      (tame_object depthLimit).outcome_eq_ok_iff (grasps_object depthLimit)]
  · exact (tame_object depthLimit).isDocument_iff (grasps_object depthLimit) hstarts hv
  · rw [Authenticator.incomplete_iff rfl] at hread ⊢
    exact ⟨hread.left,
      (tame_object depthLimit).outcome_append (grasps_object depthLimit) hread.right more⟩

theorem leftovers_are_ignored_letter :
    Settings.parse ("{}" ++ " x") = .ok Settings.none ∧
      ¬IsDocument (Utf8.encode ("{}" ++ " x")) ∧
      (Authenticator.interpret "alice"
        ⟨202, some "application/json", Utf8.encode "{}" ++ Utf8.encode " x"⟩).result =
          .error (.incomplete .empty) ∧
      ¬IsDocument (Utf8.encode "{}" ++ Utf8.encode " x") := by
  have hempty : IsValue (Utf8.encode "{}") :=
    @IsValue.container .object [] [] nofun nofun blanks_nil nofun
  have hstarts : StartsWith (Utf8.encode "{}" ++ Utf8.encode " x") (Utf8.encode "{}")
      (Utf8.encode " x") := ⟨hempty, [], blanks_nil, rfl⟩
  have hletter : ¬Blanks (Utf8.encode " x") := by
    intro hblanks
    exact absurd (hblanks 0x78 (by decide +kernel)) (by decide)
  have hread : Settings.parse "{}" = .ok Settings.none := rfl
  have hone := leftovers_are_ignored "{}" "alice" (some "application/json") (Utf8.encode "{}")
    Settings.none .empty
  have htwo := leftovers_are_ignored ("{}" ++ " x") "alice" none
    (Utf8.encode "{}" ++ Utf8.encode " x") Settings.none .empty
  refine ⟨hone.left.right.right hread " x", ?_, hone.right.right.right rfl (Utf8.encode " x"), ?_⟩
  · rw [htwo.left.right.left _ _ (by rw [Utf8.encode_append]; exact hstarts) rfl]
    exact hletter
  · rw [htwo.right.right.left _ _ hstarts rfl]
    exact hletter

end Gatekeeper
